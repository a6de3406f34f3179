import Mathlib.Tactic.Common
import Mathlib.Tactic.IntervalCases
import Mathlib.Algebra.Ring.Nat

/-!
Internet addresses as Go's `net` and `net/netip` packages have them: byte slices of four or
sixteen bytes, their text forms, masks and networks.

A `net.IP` is its list of bytes, `nil` being the empty list. The parsers accept what
`netip.ParseAddr` and `net.ParseCIDR` accept, IPv6 text with an embedded IPv4 address
included; the texts of their errors are left out.
-/

namespace Awl.NetIP

abbrev IP := List UInt8

def v4InV6Prefix : IP := [0, 0, 0, 0, 0, 0, 0, 0, 0, 0, 0xff, 0xff]

/-- `IP.To4`: the four-byte form, `nil` if there is none. -/
def to4 (ip : IP) : IP :=
  if ip.length = 4 then ip
  else if ip.length = 16 ∧ ip.take 12 = v4InV6Prefix then ip.drop 12
  else []

/-- `IP.Equal`: an IPv4 address and its IPv6 form are equal. -/
def equal (ip x : IP) : Bool :=
  if ip.length = x.length then ip == x
  else if ip.length = 4 ∧ x.length = 16 then x.take 12 == v4InV6Prefix && ip == x.drop 12
  else if ip.length = 16 ∧ x.length = 4 then ip.take 12 == v4InV6Prefix && ip.drop 12 == x
  else false

/-! ### Text -/

/-- Decimal digits, without leading zeros. -/
def decimal (n : ℕ) : List Char := Nat.toDigits 10 n

/-- `IP.String` of a four-byte address. -/
def dotted (a b c d : UInt8) : String :=
  String.ofList (['.'].intercalate
    [decimal a.toNat, decimal b.toNat, decimal c.toNat, decimal d.toNat])

def digitsVal (cs : List Char) : ℕ := cs.foldl (fun v c => v * 10 + (c.toNat - 48)) 0

/-- One field of a dotted quad: digits only, no leading zero, at most 255. -/
def parseOctet (cs : List Char) : Option UInt8 :=
  if cs ≠ [] ∧ cs.all Char.isDigit ∧ (cs.length = 1 ∨ cs.head? ≠ some '0')
      ∧ digitsVal cs ≤ 255 then
    some (UInt8.ofNat (digitsVal cs))
  else none

def parseIPv4Fields (cs : List Char) : Option IP :=
  match cs.splitOn '.' with
  | [f0, f1, f2, f3] => do
    let a ← parseOctet f0
    let b ← parseOctet f1
    let c ← parseOctet f2
    let d ← parseOctet f3
    return [a, b, c, d]
  | _ => none

def hexVal (c : Char) : Option ℕ :=
  if '0' ≤ c ∧ c ≤ '9' then some (c.toNat - '0'.toNat)
  else if 'a' ≤ c ∧ c ≤ 'f' then some (c.toNat - 'a'.toNat + 10)
  else if 'A' ≤ c ∧ c ≤ 'F' then some (c.toNat - 'A'.toNat + 10)
  else none

/-- One hexadecimal group of at most four digits: its value, its length, and the rest. -/
def takeHex : List Char → ℕ → ℕ → Option (ℕ × ℕ × List Char)
  | [], acc, off => some (acc, off, [])
  | c :: cs, acc, off =>
    match hexVal c with
    | none => some (acc, off, c :: cs)
    | some v => if off > 3 then none else takeHex cs (acc * 16 + v) (off + 1)

/-- The loop of `parseIPv6` over colon-separated groups: the bytes collected, the position
of the ellipsis, and the text left over. The fuel is the number of groups. -/
def parseGroups : ℕ → List Char → IP → Option ℕ → Option (IP × Option ℕ × List Char)
  | 0, s, ip, ell => some (ip, ell, s)
  | fuel + 1, s, ip, ell =>
    match takeHex s 0 0 with
    | none => none
    | some (acc, off, rest) =>
      if off = 0 then none
      else if rest.head? = some '.' then
        -- a trailing IPv4 address
        if (ell.isNone ∧ ip.length ≠ 12) ∨ ip.length + 4 > 16 then none
        else (parseIPv4Fields s).map fun v4 => (ip ++ v4, ell, [])
      else
        let ip' := ip ++ [UInt8.ofNat (acc / 256), UInt8.ofNat acc]
        match rest with
        | [] => some (ip', ell, [])
        | ':' :: ':' :: s' =>
          if ell.isSome then none
          else if s' = [] then some (ip', some ip'.length, [])
          else parseGroups fuel s' ip' (some ip'.length)
        | ':' :: c :: s' => parseGroups fuel (c :: s') ip' ell
        | _ => none

/-- The bytes of an IPv6 address without a zone. -/
def parseIPv6Bytes (s : List Char) : Option IP :=
  let start : Option (IP × Option ℕ × List Char) :=
    match s with
    | ':' :: ':' :: [] => some ([], some 0, [])
    | ':' :: ':' :: s' => parseGroups 8 s' [] (some 0)
    | _ => parseGroups 8 s [] none
  match start with
  | none => none
  | some (ip, ell, rest) =>
    if rest ≠ [] then none
    else if ip.length < 16 then
      ell.map fun e => ip.take e ++ List.replicate (16 - ip.length) 0 ++ ip.drop e
    else if ell.isSome then none
    else some ip

/-- `netip.Addr`: an IPv4 address, or an IPv6 address with its zone. -/
inductive Addr
  | v4 (ip : IP)
  | v6 (ip : IP) (zone : List Char)
  deriving DecidableEq

def parseIPv6 (s : List Char) : Option Addr :=
  let (addr, zone) := s.span (· ≠ '%')
  match zone with
  | ['%'] => none
  | _ => (parseIPv6Bytes addr).map fun ip => .v6 ip zone.tail

/-- `netip.ParseAddr`. -/
def parseAddr (s : String) : Option Addr :=
  match s.toList.find? (fun c => c = '.' ∨ c = ':' ∨ c = '%') with
  | some '.' => (parseIPv4Fields s.toList).map .v4
  | some ':' => parseIPv6 s.toList
  | _ => none

def Addr.bitLen : Addr → ℕ
  | .v4 _ => 32
  | .v6 _ _ => 128

def Addr.zone : Addr → List Char
  | .v4 _ => []
  | .v6 _ z => z

def Addr.as16 : Addr → IP
  | .v4 ip => v4InV6Prefix ++ ip
  | .v6 ip _ => ip

/-- `Addr.As4`; `none` is the panic on an address that is not IPv4. -/
def Addr.as4 : Addr → Option IP
  | .v4 ip => some ip
  | .v6 ip _ => if ip.take 12 = v4InV6Prefix then some (ip.drop 12) else none

/-- `net.ParseIP`: sixteen bytes, or `nil`. -/
def parseIP (s : String) : IP :=
  match parseAddr s with
  | some a => if a.zone ≠ [] then [] else a.as16
  | none => []

/-! ### Masks and networks -/

def maskByte (n : ℕ) : UInt8 := if n ≥ 8 then 0xff else ~~~(0xff >>> UInt8.ofNat n)

def cidrMask (ones bits : ℕ) : IP := (List.range (bits / 8)).map fun i => maskByte (ones - 8 * i)

/-- `IP.Mask`. -/
def mask (ip m : IP) : IP :=
  let m := if m.length = 16 ∧ ip.length = 4 ∧ m.take 12 = List.replicate 12 0xff
    then m.drop 12 else m
  let ip := if m.length = 4 ∧ ip.length = 16 ∧ ip.take 12 = v4InV6Prefix
    then ip.drop 12 else ip
  if ip.length = m.length then List.zipWith (· &&& ·) ip m else []

structure IPNet where
  ip : IP
  mask : IP

/-- The address and mask of a network in one length, `nil` when they do not fit. -/
def networkNumberAndMask (n : IPNet) : IP × IP :=
  let ip := if to4 n.ip = [] then n.ip else to4 n.ip
  if ip.length = 4 then
    if n.mask.length = 4 then (ip, n.mask)
    else if n.mask.length = 16 then (ip, n.mask.drop 12)
    else ([], [])
  else if ip.length = 16 ∧ n.mask.length = 16 then (ip, n.mask)
  else ([], [])

/-- `IPNet.Contains`. -/
def IPNet.contains (n : IPNet) (ip : IP) : Bool :=
  let (nn, m) := networkNumberAndMask n
  let ip := if to4 ip = [] then ip else to4 ip
  ip.length = nn.length && List.zipWith (· &&& ·) nn m == List.zipWith (· &&& ·) ip m

/-- `net.ParseCIDR`: the address and its network. -/
def parseCIDR (s : String) : Option (IP × IPNet) :=
  let (addr, len) := s.toList.span (· ≠ '/')
  match len with
  | [] => none
  | _ :: len =>
    match parseAddr (String.ofList addr) with
    | none => none
    | some a =>
      if a.zone ≠ [] ∨ len = [] ∨ ¬ len.all Char.isDigit ∨ digitsVal len > a.bitLen then none
      else
        let m := cidrMask (digitsVal len) a.bitLen
        some (a.as16, ⟨mask a.as16 m, m⟩)

/-- `binary.BigEndian.Uint32`. -/
def uint32 : IP → ℕ
  | a :: b :: c :: d :: _ => ((a.toNat * 256 + b.toNat) * 256 + c.toNat) * 256 + d.toNat
  | _ => 0

/-- `binary.BigEndian.PutUint32` into four bytes. -/
def putUint32 (v : ℕ) : IP :=
  [UInt8.ofNat (v / 16777216), UInt8.ofNat (v / 65536), UInt8.ofNat (v / 256), UInt8.ofNat v]

end Awl.NetIP
