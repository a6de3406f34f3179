import Awl.Framing
import Awl.OnesComplement
import Awl.Overwrite

/-!
The packets that other peers have sent, on their way to the TUN device: the addresses are
replaced, and the checksums of the IPv4 header and of the transport header are computed anew.

Where the transport header begins, and whether it has a checksum, is read off the packet. `none`
is a panic: an index or a slice is out of range. A slice from the front may reach beyond the
packet, up to the end of its buffer.
-/

namespace Awl

open NetIP OnesComplement

def ipProtocolTCP : UInt8 := 6
def ipProtocolUDP : UInt8 := 17
def ipv4offsetChecksum : ℕ := 10

/-! ### Checksums -/

/-- `binary.BigEndian.Uint16`. -/
def uint16 (a b : UInt8) : UInt16 := b.toUInt16 ||| a.toUInt16 <<< 8

/-- What `checksumIPv4Header` adds up. -/
def headerAddends : List UInt8 → List UInt32
  | a :: b :: buf => (uint16 a b).toUInt32 :: headerAddends buf
  | [a] => [a.toUInt32 <<< 8]
  | [] => []

def checksumIPv4Header (buf : List UInt8) : UInt16 :=
  complement (accumulate 0 (headerAddends buf))

/-- What `tcpipChecksum` adds to the sum it is given. -/
def tcpipAddends : List UInt8 → List UInt32
  | a :: b :: data => (a.toUInt32 <<< 8) :: b.toUInt32 :: tcpipAddends data
  | [a] => [a.toUInt32 <<< 8]
  | [] => []

def tcpipChecksum (data : List UInt8) (csum : UInt32) : UInt16 :=
  complement (accumulate csum (tcpipAddends data))

/-- What `checksumIPv4TCPUDP` adds up, `none` if an address is too short. -/
def pseudoAddends (totalLen : ℕ) (protocol : UInt32) : IP → IP → Option (List UInt32)
  | s0 :: s1 :: s2 :: s3 :: _, d0 :: d1 :: d2 :: d3 :: _ =>
    let totalLen := UInt32.ofNat totalLen
    some [(s0.toUInt32 + s2.toUInt32) <<< 8, s1.toUInt32 + s3.toUInt32,
      (d0.toUInt32 + d2.toUInt32) <<< 8, d1.toUInt32 + d3.toUInt32,
      protocol, totalLen &&& 0xffff, totalLen >>> 16]
  | _, _ => none

def checksumIPv4TCPUDP (headerAndPayload : List UInt8) (protocol : UInt32) (srcIP dstIP : IP) :
    Option UInt16 := do
  let addends ← pseudoAddends headerAndPayload.length protocol srcIP dstIP
  return tcpipChecksum headerAndPayload (accumulate 0 addends)

/-! ### Packets -/

/-- How long `Packet` can be: it ends with the buffer. -/
def packetCap : ℕ := maxContentSize - tunPacketOffset

namespace Packet

/-- `copy(data.Packet[off:], bs)`. -/
def copyAt (p : Packet) (off : ℕ) (bs : List UInt8) : Option Packet :=
  if off ≤ p.len then some (p.fill (tunPacketOffset + off) (bs.take (p.len - off))) else none

/-- `binary.BigEndian.PutUint16(data.Packet[off:], v)`. -/
def putUint16 (p : Packet) (off : ℕ) (v : UInt16) : Option Packet :=
  if off + 2 ≤ p.len then
    some (p.fill (tunPacketOffset + off) [(v >>> 8).toUInt8, v.toUInt8])
  else none

/-- `copy(s, bs)` for a slice `s` of the packet's buffer. -/
def copySlice (p : Packet) (s : Slice) (bs : List UInt8) : Packet :=
  p.fill s.off (bs.take s.len)

/-- `data.Packet[:n]`. -/
def upTo (p : Packet) (n : ℕ) : Option (List UInt8) :=
  if n ≤ packetCap then some (p.slice ⟨tunPacketOffset, n⟩) else none

/-- `data.Packet[n:]`. -/
def dropTo (p : Packet) (n : ℕ) : Option (List UInt8) :=
  if n ≤ p.len then some (p.content.drop n) else none

/-- The two cases of `RecalculateChecksum` for a transport header. -/
def recalculateTransport (p : Packet) (ipHeaderLen offsetChecksum : ℕ) (protocol : UInt8) :
    Option Packet := do
  let p ← p.copyAt offsetChecksum [0, 0]
  let headerAndPayload ← p.dropTo ipHeaderLen
  let checksum ← checksumIPv4TCPUDP headerAndPayload protocol.toUInt32 p.srcIP p.dstIP
  p.putUint16 offsetChecksum checksum

def recalculateChecksum (p : Packet) : Option Packet :=
  if p.isIPv6 then some p
  else do
    let b ← p.content[0]?
    let ipHeaderLen := (b &&& 0x0f).toNat <<< 2
    let p ← p.copyAt ipv4offsetChecksum [0, 0]
    let header ← p.upTo ipHeaderLen
    let p ← p.putUint16 ipv4offsetChecksum (checksumIPv4Header header)
    let protocol ← p.content[9]?
    if protocol = ipProtocolTCP then
      p.recalculateTransport ipHeaderLen (ipHeaderLen + 16) protocol
    else if protocol = ipProtocolUDP then
      p.recalculateTransport ipHeaderLen (ipHeaderLen + 6) protocol
    else some p

/-- The body of the loop of `WritePacketsBatch`: what is written for a packet. -/
def rewrite (senderIP localIP : IP) (p : Packet) : Option (List UInt8) := do
  let p := p.copySlice p.src senderIP
  let p := p.copySlice p.dst localIP
  let p ← p.recalculateChecksum
  return p.buffer.take (tunPacketOffset + p.len)

end Packet

/-- `WritePacketsBatch` up to the call of `tun.Write`: the buffers that it hands over. The
packets of a batch are distinct, so each has a buffer of its own. -/
def writePacketsBatch (localIP : IP) (packets : List Packet) (senderIP : IP) :
    Option (List (List UInt8)) :=
  (packets.filter fun p => !p.isIPv6).mapM (Packet.rewrite senderIP localIP)

/-! ### Parsed packets -/

namespace Packet

/-- Byte `i` of the packet. -/
def byte (p : Packet) (i : ℕ) : UInt8 := p.content.getD i 0

/-- The header length in the packet. -/
def headerLen (p : Packet) : ℕ := (p.byte 0 &&& 0x0f).toNat <<< 2

/-- Where the packet's transport checksum is, if the protocol has one. -/
def checksumOffset (p : Packet) : Option ℕ :=
  if p.byte 9 = ipProtocolTCP then some (p.headerLen + 16)
  else if p.byte 9 = ipProtocolUDP then some (p.headerLen + 6)
  else none

/-- An IPv4 packet that `Parse` has accepted. -/
structure IPv4 (p : Packet) : Prop where
  fits : p.len ≤ packetCap
  long : 20 ≤ p.len
  src : p.src = ⟨tunPacketOffset + 12, 4⟩
  dst : p.dst = ⟨tunPacketOffset + 16, 4⟩
  v4 : p.isIPv6 = false

/-- A packet that `Parse` has accepted. -/
def Parsed (q : Packet) : Prop := ∃ p : Packet, p.len ≤ packetCap ∧ p.parse = some q

/-- The packet that holds the bytes `bs`, in a buffer that is new. -/
def holding (bs : List UInt8) (h : bs.length ≤ packetCap) : Packet where
  buffer := List.replicate tunPacketOffset 0 ++ (bs ++ List.replicate (packetCap - bs.length) 0)
  length_buffer := by
    rw [List.length_append, List.length_append, List.length_replicate, List.length_replicate,
      Nat.add_sub_cancel' h]
    rfl
  len := bs.length
  src := {}
  dst := {}
  isIPv6 := false
  ipProtocol := 0

lemma content_holding (bs : List UInt8) (h : bs.length ≤ packetCap) :
    (holding bs h).content = bs := by
  simp only [content, slice, holding]
  rw [List.drop_left' List.length_replicate, List.take_left' rfl]

/-- What `Parse` makes of an IPv4 packet. -/
def asIPv4 (p : Packet) : Packet :=
  { p with
    src := ⟨tunPacketOffset + 12, 4⟩
    dst := ⟨tunPacketOffset + 16, 4⟩
    isIPv6 := false
    ipProtocol := p.content.getD 9 0 }

lemma parse_holding {b : UInt8} {bs : List UInt8} (h : (b :: bs).length ≤ packetCap)
    (hb : b >>> 4 = 4) (hlong : 20 ≤ (b :: bs).length) :
    (holding (b :: bs) h).parse = some (holding (b :: bs) h).asIPv4 := by
  unfold parse
  simp only [content_holding, hb, if_true]
  rw [if_neg (Nat.not_lt.mpr hlong), asIPv4, content_holding]

lemma parsed_holding {b : UInt8} {bs : List UInt8} (h : (b :: bs).length ≤ packetCap)
    (hb : b >>> 4 = 4) (hlong : 20 ≤ (b :: bs).length) :
    (holding (b :: bs) h).asIPv4.Parsed :=
  ⟨holding (b :: bs) h, h, parse_holding h hb hlong⟩

lemma content_length {p : Packet} (h : p.len ≤ packetCap) : p.content.length = p.len := by
  have hlen := p.length_buffer
  have hcap : packetCap = maxContentSize - tunPacketOffset := rfl
  simp only [content, slice, List.length_take, List.length_drop]
  omega

lemma Parsed.ipv4 {q : Packet} (h : q.Parsed) (hv : q.isIPv6 = false) : q.IPv4 := by
  obtain ⟨p, hfits, hparse⟩ := h
  have hlen := content_length hfits
  unfold parse at hparse
  split at hparse
  · cases hparse
  · split_ifs at hparse with h4 hshort h6 hshort
    · cases hparse
      rw [hlen] at hshort
      exact ⟨hfits, Nat.le_of_not_lt hshort, rfl, rfl, rfl⟩
    · cases hparse
      cases hv

/-! ### Writing into a packet -/

section

variable {p : Packet} {off : ℕ} {bs : List UInt8}

@[simp] lemma fill_len : (p.fill off bs).len = p.len := rfl
@[simp] lemma fill_src : (p.fill off bs).src = p.src := rfl
@[simp] lemma fill_dst : (p.fill off bs).dst = p.dst := rfl
@[simp] lemma fill_isIPv6 : (p.fill off bs).isIPv6 = p.isIPv6 := rfl

lemma fill_buffer (h : off + bs.length ≤ maxContentSize) :
    (p.fill off bs).buffer = overwrite p.buffer off bs := by
  have htake : bs.take (maxContentSize - off) = bs := List.take_of_length_le (by omega)
  simp only [fill, overwrite, htake]

lemma ext_buffer {q : Packet} (hb : p.buffer = q.buffer) (hlen : p.len = q.len)
    (hsrc : p.src = q.src) (hdst : p.dst = q.dst) (hv : p.isIPv6 = q.isIPv6)
    (hproto : p.ipProtocol = q.ipProtocol) : p = q := by
  obtain ⟨_, _, _, _, _, _, _⟩ := p
  obtain ⟨_, _, _, _, _, _, _⟩ := q
  subst hb hlen hsrc hdst hv hproto
  rfl

/-- A slice apart from what is written. -/
lemma slice_fill_apart (h : off + bs.length ≤ maxContentSize) {s : Slice}
    (hdis : s.off + s.len ≤ off ∨ off + bs.length ≤ s.off) :
    (p.fill off bs).slice s = p.slice s := by
  rw [slice, slice, fill_buffer h]
  exact overwrite_apart (by rw [p.length_buffer]; exact h) hdis

/-- The slice that is written. -/
lemma slice_fill_written (h : off + bs.length ≤ maxContentSize) :
    (p.fill off bs).slice ⟨off, bs.length⟩ = bs := by
  rw [slice, fill_buffer h]
  exact overwrite_written (by rw [p.length_buffer]; exact h)

/-- A slice around what is written. -/
lemma slice_fill_around {s : Slice} (h : s.off ≤ off) (h' : off + bs.length ≤ s.off + s.len)
    (hs : s.off + s.len ≤ maxContentSize) :
    (p.fill off bs).slice s = overwrite (p.slice s) (off - s.off) bs := by
  rw [slice, slice, fill_buffer (by omega)]
  exact overwrite_around h h' (by rw [p.length_buffer]; exact hs)

lemma byte_eq (p : Packet) {i : ℕ} (hi : i < p.len) :
    p.byte i = p.buffer.getD (tunPacketOffset + i) 0 := by
  rw [byte, content, slice, List.getD_eq_getElem?_getD, List.getElem?_take, if_pos hi,
    List.getElem?_drop, List.getD_eq_getElem?_getD]

lemma byte_fill_apart (h : off + bs.length ≤ maxContentSize) {i : ℕ}
    (hi : i < p.len) (hdis : tunPacketOffset + i < off ∨ off + bs.length ≤ tunPacketOffset + i) :
    (p.fill off bs).byte i = p.byte i := by
  rw [byte_eq _ (by exact hi), byte_eq _ hi, fill_buffer h, List.getD_eq_getElem?_getD,
    List.getD_eq_getElem?_getD,
    overwrite_getElem?_of_lt (by rw [p.length_buffer]; exact h) hdis]

end

/-! ### What is computed -/

/-- A word in the packet. -/
def put (p : Packet) (off : ℕ) (v : UInt16) : Packet :=
  p.fill (tunPacketOffset + off) [(v >>> 8).toUInt8, v.toUInt8]

/-- The checksum that the header, as it stands, gives. -/
def headerChecksum (p : Packet) (ipHeaderLen : ℕ) : UInt16 :=
  checksumIPv4Header (p.slice ⟨tunPacketOffset, ipHeaderLen⟩)

/-- The checksum that the transport header and the payload, as they stand, give. -/
def transportChecksum (p : Packet) (ipHeaderLen : ℕ) (protocol : UInt8) : UInt16 :=
  (checksumIPv4TCPUDP (p.content.drop ipHeaderLen) protocol.toUInt32 p.srcIP p.dstIP).getD 0

/-- The packet with a new header checksum. -/
def withHeader (p : Packet) : Packet :=
  p.put ipv4offsetChecksum ((p.put ipv4offsetChecksum 0).headerChecksum p.headerLen)

/-- The packet with a new transport checksum at `off`. -/
def withTransport (p : Packet) (off : ℕ) : Packet :=
  p.put off ((p.put off 0).transportChecksum p.headerLen (p.byte 9))

section

variable {p : Packet}

lemma headerLen_le (p : Packet) : p.headerLen ≤ 60 := by
  have h : (p.byte 0 &&& 0x0f).toNat ≤ 15 := by
    rw [UInt8.toNat_and]
    exact Nat.and_le_right
  rw [headerLen, Nat.shiftLeft_eq]
  omega

lemma getElem?_content (h : p.len ≤ packetCap) {i : ℕ} (hi : i < p.len) :
    p.content[i]? = some (p.byte i) := by
  rw [byte, List.getD_eq_getElem?_getD]
  rw [← content_length h] at hi
  rw [List.getElem?_eq_getElem hi, Option.getD_some]

lemma IPv4.put (h : p.IPv4) (off : ℕ) (v : UInt16) : (p.put off v).IPv4 :=
  ⟨h.fits, h.long, h.src, h.dst, h.v4⟩

/-- Copying two zero bytes, when there is room. -/
lemma copyAt_zeros {off : ℕ} (h : off + 2 ≤ p.len) : p.copyAt off [0, 0] = some (p.put off 0) := by
  rw [copyAt, if_pos (by omega), List.take_of_length_le (by simp; omega)]
  rfl

lemma byte_put (h : p.IPv4) {off i : ℕ} (hoff : off + 2 ≤ p.len) (hi : i < p.len) (v : UInt16)
    (hdis : i < off ∨ off + 2 ≤ i) : (p.put off v).byte i = p.byte i := by
  have hfits := h.fits
  have hcap : packetCap + tunPacketOffset = maxContentSize := rfl
  exact byte_fill_apart (by simp only [List.length_cons, List.length_nil]; omega) hi
    (by simp only [List.length_cons, List.length_nil]; omega)

lemma IPv4.srcIP_length (h : p.IPv4) : p.srcIP.length = 4 := by
  have := p.length_buffer
  have hcap : tunPacketOffset + 20 ≤ maxContentSize := by decide
  simp only [srcIP, slice, h.src, List.length_take, List.length_drop]
  omega

lemma IPv4.dstIP_length (h : p.IPv4) : p.dstIP.length = 4 := by
  have := p.length_buffer
  have hcap : tunPacketOffset + 20 ≤ maxContentSize := by decide
  simp only [dstIP, slice, h.dst, List.length_take, List.length_drop]
  omega

@[simp] lemma put_len (off : ℕ) (v : UInt16) : (p.put off v).len = p.len := rfl

lemma put_buffer (h : p.len ≤ packetCap) {off : ℕ} (hoff : off + 2 ≤ p.len) (v : UInt16) :
    (p.put off v).buffer =
      overwrite p.buffer (tunPacketOffset + off) [(v >>> 8).toUInt8, v.toUInt8] := by
  have hcap : packetCap + tunPacketOffset = maxContentSize := rfl
  exact fill_buffer (by simp only [List.length_cons, List.length_nil]; omega)

/-- Packets that differ in their buffers only. -/
lemma put_eq_of_buffer {q : Packet} {off off' : ℕ} {v w : UInt16}
    (hb : (p.put off v).buffer = (q.put off' w).buffer) (hlen : p.len = q.len)
    (hsrc : p.src = q.src) (hdst : p.dst = q.dst) (hv : p.isIPv6 = q.isIPv6)
    (hproto : p.ipProtocol = q.ipProtocol) : p.put off v = q.put off' w :=
  ext_buffer hb hlen hsrc hdst hv hproto

lemma put_put (h : p.len ≤ packetCap) {off : ℕ} (hoff : off + 2 ≤ p.len) (v w : UInt16) :
    (p.put off v).put off w = p.put off w := by
  have hcap : packetCap + tunPacketOffset = maxContentSize := rfl
  refine put_eq_of_buffer ?_ rfl rfl rfl rfl rfl
  rw [put_buffer (by exact h) (by exact hoff), put_buffer h hoff, put_buffer h hoff]
  refine overwrite_overwrite ?_ rfl
  rw [p.length_buffer]
  simp only [List.length_cons, List.length_nil]
  omega

lemma put_comm (h : p.len ≤ packetCap) {off off' : ℕ} (hoff : off + 2 ≤ p.len)
    (hoff' : off' + 2 ≤ p.len) (hdis : off + 2 ≤ off' ∨ off' + 2 ≤ off) (v w : UInt16) :
    (p.put off v).put off' w = (p.put off' w).put off v := by
  have hcap : packetCap + tunPacketOffset = maxContentSize := rfl
  refine put_eq_of_buffer ?_ rfl rfl rfl rfl rfl
  rw [put_buffer (by exact h) (by exact hoff'), put_buffer h hoff,
    put_buffer (p := p.put off' w) (by exact h) (by exact hoff), put_buffer h hoff']
  refine overwrite_comm ?_ ?_ ?_
  · rw [p.length_buffer]
    simp only [List.length_cons, List.length_nil]
    omega
  · rw [p.length_buffer]
    simp only [List.length_cons, List.length_nil]
    omega
  · simp only [List.length_cons, List.length_nil]
    omega

lemma checksumIPv4TCPUDP_isSome {src dst : IP} (hs : src.length = 4) (hd : dst.length = 4)
    (bs : List UInt8) (protocol : UInt32) :
    ∃ checksum, checksumIPv4TCPUDP bs protocol src dst = some checksum := by
  obtain ⟨s0, s1, s2, s3, rfl⟩ := List.length_eq_four.mp hs
  obtain ⟨d0, d1, d2, d3, rfl⟩ := List.length_eq_four.mp hd
  exact ⟨_, rfl⟩

/-- **The transport checksum**: without room for it there is a panic. -/
lemma recalculateTransport_eq (h : p.IPv4) {off : ℕ} (hoff : p.headerLen ≤ off) :
    p.recalculateTransport p.headerLen off (p.byte 9) =
      if off + 2 ≤ p.len then some (p.withTransport off) else none := by
  by_cases hroom : off + 2 ≤ p.len
  · have hput := h.put off 0
    obtain ⟨checksum, hsum⟩ := checksumIPv4TCPUDP_isSome hput.srcIP_length hput.dstIP_length
      ((p.put off 0).content.drop p.headerLen) (p.byte 9).toUInt32
    have hdrop : (p.put off 0).dropTo p.headerLen =
        some ((p.put off 0).content.drop p.headerLen) :=
      if_pos (show p.headerLen ≤ p.len by omega)
    have hlast : (p.put off 0).putUint16 off checksum = some (p.put off checksum) := by
      rw [← put_put h.fits hroom 0 checksum]
      exact if_pos hroom
    rw [if_pos hroom, recalculateTransport, copyAt_zeros hroom, withTransport, transportChecksum,
      hsum]
    simp only [Option.bind_eq_bind, Option.bind_some, hdrop, hsum, hlast, Option.getD_some]
  · have hlast : ∀ q : Packet, q.len = p.len → ∀ v, q.putUint16 off v = none :=
      fun q hq v => if_neg (by rw [hq]; exact hroom)
    rw [if_neg hroom, recalculateTransport, copyAt]
    split_ifs with hle
    · simp only [Option.bind_eq_bind, Option.bind_some]
      rcases (p.fill (tunPacketOffset + off) _).dropTo p.headerLen with _ | bs
      · rfl
      · simp only [Option.bind_some]
        rcases checksumIPv4TCPUDP bs _ _ _ with _ | v
        · rfl
        · exact hlast (p.fill _ _) rfl v
    · rfl

lemma IPv4.withHeader (h : p.IPv4) : p.withHeader.IPv4 := h.put _ _

lemma byte_withHeader (h : p.IPv4) {i : ℕ} (hi : i < p.len) (hdis : i < 10 ∨ 12 ≤ i) :
    p.withHeader.byte i = p.byte i :=
  byte_put h (h.long.trans' (by decide)) hi _ hdis

lemma headerLen_withHeader (h : p.IPv4) : p.withHeader.headerLen = p.headerLen := by
  have hlong := h.long
  rw [headerLen, headerLen, byte_withHeader h (by omega) (Or.inl (by omega))]

lemma checksumOffset_withHeader (h : p.IPv4) :
    p.withHeader.checksumOffset = p.checksumOffset := by
  have hlong := h.long
  rw [checksumOffset, checksumOffset, headerLen_withHeader h,
    byte_withHeader h (by omega) (Or.inl (by omega))]

/-- **What `RecalculateChecksum` does** to an IPv4 packet. -/
theorem recalculateChecksum_eq (h : p.IPv4) :
    p.recalculateChecksum = match p.checksumOffset with
      | none => some p.withHeader
      | some off => if off + 2 ≤ p.len then some (p.withHeader.withTransport off) else none := by
  have hlong := h.long
  have hbyte9 : p.withHeader.byte 9 = p.byte 9 := byte_withHeader h (by omega) (Or.inl (by omega))
  have hheader : (p.put ipv4offsetChecksum 0).upTo p.headerLen =
      some ((p.put ipv4offsetChecksum 0).slice ⟨tunPacketOffset, p.headerLen⟩) :=
    if_pos (p.headerLen_le.trans (by decide))
  have hroom : ipv4offsetChecksum + 2 ≤ p.len := h.long.trans' (by decide)
  have hput : (p.put ipv4offsetChecksum 0).putUint16 ipv4offsetChecksum
      ((p.put ipv4offsetChecksum 0).headerChecksum p.headerLen) = some p.withHeader := by
    rw [withHeader, ← put_put h.fits hroom 0 ((p.put _ 0).headerChecksum _)]
    exact if_pos hroom
  have htrans : ∀ off, p.headerLen ≤ off →
      p.withHeader.recalculateTransport p.headerLen off (p.byte 9) =
        if off + 2 ≤ p.len then some (p.withHeader.withTransport off) else none := by
    intro off hoff
    have hoff' : p.withHeader.headerLen ≤ off := headerLen_withHeader h ▸ hoff
    have heq := recalculateTransport_eq h.withHeader hoff'
    rwa [headerLen_withHeader h, hbyte9] at heq
  rw [recalculateChecksum, h.v4, if_neg Bool.false_ne_true, getElem?_content h.fits (by omega)]
  simp only [Option.bind_eq_bind, Option.bind_some, copyAt_zeros hroom]
  change ((p.put ipv4offsetChecksum 0).upTo p.headerLen).bind _ = _
  rw [hheader, Option.bind_some]
  change ((p.put ipv4offsetChecksum 0).putUint16 ipv4offsetChecksum
    ((p.put ipv4offsetChecksum 0).headerChecksum p.headerLen)).bind _ = _
  rw [hput, Option.bind_some, getElem?_content h.withHeader.fits (show 9 < p.len by omega), hbyte9,
    Option.bind_some]
  unfold checksumOffset
  split_ifs
  · exact htrans _ (Nat.le_add_right _ _)
  · exact htrans _ (Nat.le_add_right _ _)
  · rfl

end

end Packet

end Awl
