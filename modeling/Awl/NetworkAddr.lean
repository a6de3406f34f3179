import Awl.Config
import Mathlib.Order.Lattice.Nat

/-!
The addresses of the VPN: the local address and its network, the allocator that goes up from
the largest address in use, and the check an explicit address has to pass.

The allocator works on a configuration whose `IPNet` is valid, which is what `setDefaults`
leaves; on any other the source panics. It also panics at a known peer with an IPv6 address if
the network is an IPv4-mapped one with a prefix shorter than 96. The model is total, and what is
proved with it is about the source where that does not panic.
-/

namespace Awl

open NetIP

/-- `IP.String` of the four-byte addresses the allocator makes. -/
def ipString : IP → String
  | [a, b, c, d] => dotted a b c d
  | _ => "<nil>"

def incrementIPAddr (ip : IP) : IP := putUint32 ((uint32 ip + 1) % 4294967296)

/-- What `CheckIPUnique` answers. An IPv6 address that is no IPv4 one makes it panic. -/
inductive IPCheck
  | ok | invalid | panics | outside | used
  deriving DecidableEq

namespace Config

/-- `VPNLocalIPMaskUnlocked`. -/
def vpnLocalIPMask (c : Config) : IP × IP :=
  match parseCIDR c.vpnConfig.ipNet with
  | none => ([], [])
  | some (localIP, ipNet) => (to4 localIP, ipNet.mask)

def vpnNet (c : Config) : IPNet :=
  let (localIP, netMask) := c.vpnLocalIPMask
  ⟨mask localIP netMask, netMask⟩

/-- The network is given by the `IPNet` alone. -/
lemma vpnLocalIPMask_congr {c c' : Config} (h : c'.vpnConfig.ipNet = c.vpnConfig.ipNet) :
    c'.vpnLocalIPMask = c.vpnLocalIPMask := by
  rw [vpnLocalIPMask, vpnLocalIPMask, h]

lemma vpnNet_congr {c c' : Config} (h : c'.vpnConfig = c.vpnConfig) : c'.vpnNet = c.vpnNet := by
  simp only [vpnNet, vpnLocalIPMask, h]

/-- What a known peer contributes to the search for the largest address: its address as a
number if it lies in the network. -/
def candidate (c : Config) (known : KnownPeer) : ℕ :=
  if parseIP known.ipAddr ≠ [] ∧ c.vpnNet.contains known.ip4 then uint32 known.ip4 else 0

/-- The largest address in use: the local one or that of a known peer in the network. -/
def maxIp (c : Config) : IP :=
  putUint32 (max (uint32 c.vpnLocalIPMask.1)
    (c.knownPeers.entries.map fun e => c.candidate e.2).sup)

/-- The search for an address outside the exclusion list; `none` when the fuel runs out. -/
def nextIpAddr (except : List String) : ℕ → IP → Option String
  | 0, _ => none
  | fuel + 1, maxIp =>
    let newIp := incrementIPAddr maxIp
    if ipString newIp ∈ except then nextIpAddr except fuel newIp else some (ipString newIp)

/-- `GenerateNextIpAddrExcept`, where the source does not panic. -/
def generateNextIpAddrExcept (c : Config) (except : List String) : Option String :=
  nextIpAddr except (except.length + 1) c.maxIp

/-- `GenerateNextIpAddr`, where the source does not panic. -/
def generateNextIpAddr (c : Config) : String := (c.generateNextIpAddrExcept []).getD ""

def checkIPUnique (c : Config) (checkIP exceptPeerID : String) : IPCheck :=
  match parseAddr checkIP with
  | none => .invalid
  | some addr =>
    match addr.as4 with
    | none => .panics
    | some ip =>
      if ¬ c.vpnNet.contains ip then .outside
      else if ∀ e ∈ c.knownPeers.entries, e.2.ipAddr = checkIP →
          exceptPeerID ≠ "" ∧ e.2.peerID = exceptPeerID then .ok
      else .used

/-- The address is one of the network, and no other peer has it. -/
lemma checkIPUnique_eq_ok {c : Config} {checkIP exceptPeerID : String} :
    c.checkIPUnique checkIP exceptPeerID = .ok ↔
      (∃ addr ip, parseAddr checkIP = some addr ∧ addr.as4 = some ip ∧
        c.vpnNet.contains ip = true) ∧
      ∀ e ∈ c.knownPeers.entries, e.2.ipAddr = checkIP →
        exceptPeerID ≠ "" ∧ e.2.peerID = exceptPeerID := by
  rcases hp : parseAddr checkIP with _ | addr
  · simp [checkIPUnique, hp]
  · rcases h4 : addr.as4 with _ | ip
    · simp [checkIPUnique, hp, h4]
    · by_cases hnet : c.vpnNet.contains ip = true
      · simp only [checkIPUnique, hp, h4, hnet, not_true_eq_false, if_false]
        split_ifs with hall
        · exact iff_of_true rfl ⟨⟨addr, ip, rfl, h4, hnet⟩, hall⟩
        · exact iff_of_false (by decide) fun h => hall h.2
      · simp [checkIPUnique, hp, h4, hnet]

/-! ### The allocator -/

lemma generateNextIpAddr_eq (c : Config) :
    c.generateNextIpAddr = ipString (incrementIPAddr c.maxIp) := by
  simp [generateNextIpAddr, generateNextIpAddrExcept, nextIpAddr]

lemma candidate_lt (c : Config) (kp : KnownPeer) : c.candidate kp < 4294967296 := by
  unfold candidate
  split_ifs with h
  · rcases to4_length (parseIP kp.ipAddr) with h0 | h4
    · simp [KnownPeer.ip4, h0, uint32]
    · obtain ⟨a, b, x, d, e⟩ := exists_four h4
      rw [KnownPeer.ip4, e]
      exact uint32_lt a b x d
  · norm_num

end Config

/-- The configuration's network: local address `l` and prefix length `n`. -/
structure Config.InNet (c : Config) (l : IP) (n : ℕ) : Prop where
  four : l.length = 4
  le : n ≤ 32
  eq : c.vpnLocalIPMask = (l, cidrMask n 32)

namespace Config.InNet

variable {c : Config} {l : IP} {n : ℕ}

lemma of_eq {c' : Config} (h : c.InNet l n) (he : c'.vpnConfig.ipNet = c.vpnConfig.ipNet) :
    c'.InNet l n :=
  ⟨h.four, h.le, (vpnLocalIPMask_congr he).trans h.eq⟩

lemma net (h : c.InNet l n) : c.vpnNet = netOf l n := by
  simp [vpnNet, h.eq, netOf]

/-- **The largest address in use**, as a number: the local one, or that of a peer in the
network. -/
lemma uint32_maxIp (h : c.InNet l n) :
    uint32 c.maxIp = max (uint32 l) (c.knownPeers.entries.map fun e => c.candidate e.2).sup := by
  have hl : uint32 l < 4294967296 := by
    obtain ⟨a, b, x, d, rfl⟩ := exists_four h.four
    exact uint32_lt a b x d
  have hs : (c.knownPeers.entries.map fun e => c.candidate e.2).sup < 4294967296 := by
    refine Nat.lt_of_le_of_lt (m := 4294967295) (Multiset.sup_le.mpr ?_) (by norm_num)
    intro v hv
    obtain ⟨e, -, rfl⟩ := Multiset.mem_map.mp hv
    exact Nat.le_of_lt_succ (c.candidate_lt e.2)
  rw [maxIp, h.eq, uint32_putUint32 (max_lt hl hs)]

lemma le_maxIp (h : c.InNet l n) {k : String} {kp : KnownPeer}
    (hk : c.knownPeers.lookup k = some kp) (h4 : kp.ip4.length = 4)
    (hin : uint32 kp.ip4 / 2 ^ (32 - n) = uint32 l / 2 ^ (32 - n)) :
    uint32 kp.ip4 ≤ uint32 c.maxIp := by
  have hc : c.candidate kp = uint32 kp.ip4 := by
    rw [candidate, if_pos]
    refine ⟨?_, ?_⟩
    · intro h0
      rw [KnownPeer.ip4, h0] at h4
      simp [to4] at h4
    · rw [h.net]
      exact (netOf_contains h.le h.four h4).mpr hin
  rw [h.uint32_maxIp, ← hc]
  refine le_max_of_le_right (Multiset.le_sup ?_)
  exact Multiset.mem_map.mpr ⟨⟨k, kp⟩, GoMap.mem_entries.mpr hk, rfl⟩

end Config.InNet

end Awl
