import Awl.Checksum

/-!
The checksums that are computed are those of RFC 1071: with the checksum in place, the one's
complement sum of the header is all ones, and so is the sum of the pseudo-header and the
segment.
-/

namespace Awl

open NetIP OnesComplement

/-! ### What is added up -/

lemma toNat_uint16 (a b : UInt8) : (uint16 a b).toNat = 256 * a.toNat + b.toNat := by
  have ha := a.toNat_lt
  have hb := b.toNat_lt
  have hshift : (a.toUInt16 <<< 8).toNat = a.toNat <<< 8 := by
    rw [UInt16.toNat_shiftLeft, UInt8.toNat_toUInt16, Nat.shiftLeft_eq, Nat.shiftLeft_eq]
    exact Nat.mod_eq_of_lt (by simp; omega)
  rw [uint16, UInt16.toNat_or, hshift, UInt8.toNat_toUInt16, Nat.or_comm,
    ← Nat.shiftLeft_add_eq_or_of_lt (by omega), Nat.shiftLeft_eq, Nat.mul_comm]

lemma toNat_shiftLeft_eight {v : UInt32} (h : v.toNat < 2 ^ 24) :
    (v <<< 8).toNat = 256 * v.toNat := by
  rw [UInt32.toNat_shiftLeft, Nat.shiftLeft_eq, Nat.mul_comm]
  exact Nat.mod_eq_of_lt (by simp; omega)

lemma toNat_high (a : UInt8) : (a.toUInt32 <<< 8).toNat = 256 * a.toNat := by
  have ha := a.toNat_lt
  rw [toNat_shiftLeft_eight (by rw [UInt8.toNat_toUInt32]; omega), UInt8.toNat_toUInt32]

lemma sum_headerAddends (buf : List UInt8) :
    ((headerAddends buf).map UInt32.toNat).sum = (words buf).sum := by
  induction buf using headerAddends.induct with
  | case1 a b buf ih =>
    rw [headerAddends, words, List.map_cons, List.sum_cons, List.sum_cons, ih,
      UInt16.toNat_toUInt32, toNat_uint16]
  | case2 a => rw [headerAddends, words, List.map_singleton, toNat_high]
  | case3 => rfl

lemma sum_tcpipAddends (data : List UInt8) :
    ((tcpipAddends data).map UInt32.toNat).sum = (words data).sum := by
  induction data using tcpipAddends.induct with
  | case1 a b data ih =>
    rw [tcpipAddends, words, List.map_cons, List.map_cons, List.sum_cons, List.sum_cons,
      List.sum_cons, ih, toNat_high, UInt8.toNat_toUInt32, Nat.add_assoc]
  | case2 a => rw [tcpipAddends, words, List.map_singleton, toNat_high]
  | case3 => rfl

/-- The pseudo-header of RFC 793 and RFC 768. -/
def pseudoHeader (src dst : IP) (protocol : UInt8) (length : ℕ) : List UInt8 :=
  src ++ dst ++ [0, protocol, UInt8.ofNat (length / 256), UInt8.ofNat length]

lemma sum_pseudoAddends {src dst : IP} (hs : src.length = 4) (hd : dst.length = 4)
    (protocol : UInt8) {length : ℕ} (hlen : length < 2 ^ 16) :
    ∃ addends, pseudoAddends length protocol.toUInt32 src dst = some addends ∧
      (addends.map UInt32.toNat).sum = (words (pseudoHeader src dst protocol length)).sum := by
  obtain ⟨s0, s1, s2, s3, rfl⟩ := List.length_eq_four.mp hs
  obtain ⟨d0, d1, d2, d3, rfl⟩ := List.length_eq_four.mp hd
  have hadd : ∀ a b : UInt8, (a.toUInt32 + b.toUInt32).toNat = a.toNat + b.toNat := by
    intro a b
    have ha := a.toNat_lt
    have hb := b.toNat_lt
    rw [UInt32.toNat_add, UInt8.toNat_toUInt32, UInt8.toNat_toUInt32]
    exact Nat.mod_eq_of_lt (by omega)
  have hhigh : ∀ a b : UInt8,
      ((a.toUInt32 + b.toUInt32) <<< 8).toNat = 256 * (a.toNat + b.toNat) := by
    intro a b
    have ha := a.toNat_lt
    have hb := b.toNat_lt
    rw [toNat_shiftLeft_eight (by rw [hadd]; omega), hadd]
  have htotal : (UInt32.ofNat length).toNat = length :=
    UInt32.toNat_ofNat_of_lt' (by rw [UInt32.size]; omega)
  refine ⟨_, rfl, ?_⟩
  simp only [List.map_cons, List.map_nil, List.sum_cons, List.sum_nil, pseudoHeader, words,
    List.cons_append, List.nil_append, hadd, hhigh, toNat_and_ffff, toNat_shiftRight_sixteen,
    htotal, UInt8.toNat_toUInt32, UInt8.toNat_ofNat', UInt8.toNat_zero]
  omega

/-! ### The checksums -/

/-- The header checksum, where nothing overflows. -/
lemma checksumIPv4Header_spec {buf : List UInt8} (h : buf.length ≤ packetCap) :
    NoWrap 0 (headerAddends buf) ∧
      (checksumIPv4Header buf).toNat = 0xffff - carry (words buf).sum := by
  have hcap : packetCap = 3586 := rfl
  have hle := sum_words_le buf
  have hlt : (0 : UInt32).toNat + ((headerAddends buf).map UInt32.toNat).sum < 2 ^ 32 := by
    rw [sum_headerAddends, UInt32.toNat_zero]
    omega
  obtain ⟨hno, hacc⟩ := noWrap_of_sum_lt hlt
  refine ⟨hno, ?_⟩
  rw [checksumIPv4Header, toNat_complement, hacc, sum_headerAddends, UInt32.toNat_zero,
    Nat.zero_add]

/-- The additions of `checksumIPv4TCPUDP` and of `tcpipChecksum` do not overflow. -/
def TransportNoWrap (bs : List UInt8) (protocol : UInt8) (src dst : IP) : Prop :=
  ∃ addends, pseudoAddends bs.length protocol.toUInt32 src dst = some addends ∧
    NoWrap 0 addends ∧ NoWrap (accumulate 0 addends) (tcpipAddends bs)

/-- The transport checksum, where nothing overflows. -/
lemma checksumIPv4TCPUDP_spec {src dst : IP} (hs : src.length = 4) (hd : dst.length = 4)
    (protocol : UInt8) {bs : List UInt8} (h : bs.length ≤ packetCap) :
    TransportNoWrap bs protocol src dst ∧
      ∃ checksum, checksumIPv4TCPUDP bs protocol.toUInt32 src dst = some checksum ∧
        checksum.toNat =
          0xffff - carry (words (pseudoHeader src dst protocol bs.length ++ bs)).sum := by
  have hcap : packetCap = 3586 := rfl
  obtain ⟨addends, hpseudo, hsum⟩ := sum_pseudoAddends hs hd protocol
    (show bs.length < 2 ^ 16 by omega)
  have hheader : (pseudoHeader src dst protocol bs.length).length = 12 := by
    simp [pseudoHeader, hs, hd]
  have hle := sum_words_le bs
  have hle' := sum_words_le (pseudoHeader src dst protocol bs.length)
  have hlt : (0 : UInt32).toNat + (addends.map UInt32.toNat).sum < 2 ^ 32 := by
    rw [hsum, UInt32.toNat_zero]
    omega
  obtain ⟨hno, hacc⟩ := noWrap_of_sum_lt hlt
  have hlt' : (accumulate 0 addends).toNat + ((tcpipAddends bs).map UInt32.toNat).sum <
      2 ^ 32 := by
    rw [hacc, hsum, sum_tcpipAddends, UInt32.toNat_zero]
    omega
  obtain ⟨hno', hacc'⟩ := noWrap_of_sum_lt hlt'
  refine ⟨⟨addends, hpseudo, hno, hno'⟩, tcpipChecksum bs (accumulate 0 addends), ?_, ?_⟩
  · rw [checksumIPv4TCPUDP, hpseudo]
    rfl
  · rw [tcpipChecksum, toNat_complement, hacc', hacc, hsum, sum_tcpipAddends, UInt32.toNat_zero,
      Nat.zero_add, words_append (by rw [hheader]), List.sum_append]

/-! ### A checksum in its place -/

lemma toNat_bytes (v : UInt16) :
    (v >>> 8).toUInt8.toNat = v.toNat / 256 ∧ v.toUInt8.toNat = v.toNat % 256 := by
  have hv := v.toNat_lt
  refine ⟨?_, UInt16.toNat_toUInt8 v⟩
  rw [UInt16.toNat_toUInt8, UInt16.toNat_shiftRight, Nat.shiftRight_eq_div_pow]
  exact Nat.mod_eq_of_lt (by simp; omega)

lemma words_overwrite {bs : List UInt8} {off : ℕ} (heven : off % 2 = 0)
    (hoff : off + 2 ≤ bs.length) (v : UInt16) :
    (words (overwrite bs off [(v >>> 8).toUInt8, v.toUInt8])).sum =
      (words (overwrite bs off [0, 0])).sum + v.toNat := by
  have hlen : (bs.take off).length = off := by
    rw [List.length_take]
    omega
  have hsplit : ∀ x y : UInt8, (words (overwrite bs off [x, y])).sum =
      (words (bs.take off)).sum + (256 * x.toNat + y.toNat) + (words (bs.drop (off + 2))).sum := by
    intro x y
    rw [overwrite, List.append_assoc, words_append (by rw [hlen]; exact heven), List.sum_append,
      List.cons_append, List.cons_append, List.nil_append, words, List.sum_cons, ← Nat.add_assoc]
    rfl
  rw [hsplit, hsplit, (toNat_bytes v).1, (toNat_bytes v).2, UInt8.toNat_zero]
  omega

/-- **The complement of a sum, in the place that was zero, makes the sum all ones.** -/
lemma sum_overwrite {bs : List UInt8} {off : ℕ} (heven : off % 2 = 0)
    (hoff : off + 2 ≤ bs.length) {v : UInt16}
    (hv : v.toNat = 0xffff - carry (words (overwrite bs off [0, 0])).sum) :
    sum (overwrite bs off [(v >>> 8).toUInt8, v.toUInt8]) = 0xffff := by
  rw [sum_eq, words_overwrite heven hoff, hv]
  exact carry_add_complement _

/-! ### Packets with new checksums -/

namespace Packet

variable {p : Packet}

/-- The IPv4 header. -/
def header (p : Packet) : List UInt8 := p.content.take p.headerLen

/-- The transport header and the payload. -/
def segment (p : Packet) : List UInt8 := p.content.drop p.headerLen

/-- The content after a word has been written. -/
lemma content_put (h : p.len ≤ packetCap) {off : ℕ} (hoff : off + 2 ≤ p.len) (v : UInt16) :
    (p.put off v).content = overwrite p.content off [(v >>> 8).toUInt8, v.toUInt8] := by
  have hcap : packetCap + tunPacketOffset = maxContentSize := rfl
  have hfill : (p.put off v).content = overwrite p.content
      (tunPacketOffset + off - tunPacketOffset) [(v >>> 8).toUInt8, v.toUInt8] :=
    slice_fill_around (Nat.le_add_right _ _)
      (by simp only [put_len, List.length_cons, List.length_nil]; omega)
      (by simp only [put_len]; omega)
  rwa [Nat.add_sub_cancel_left] at hfill

/-- An IPv4 packet that has its header, and room for the checksum of its transport header. -/
structure Whole (p : Packet) : Prop where
  ipv4 : p.IPv4
  ihl : 20 ≤ p.headerLen
  header_le : p.headerLen ≤ p.len
  transport : ∀ off ∈ p.checksumOffset, off + 2 ≤ p.len

lemma headerLen_even (p : Packet) : p.headerLen % 2 = 0 := by
  rw [headerLen, Nat.shiftLeft_eq]
  omega

lemma checksumOffset_spec {off : ℕ} (h : p.checksumOffset = some off) :
    p.headerLen + 6 ≤ off ∧ off % 2 = 0 := by
  have heven := p.headerLen_even
  unfold checksumOffset at h
  split_ifs at h
  · cases h
    omega
  · cases h
    omega

/-- A write behind the first bytes leaves the header length and the protocol. -/
lemma put_fields (h : p.IPv4) {off : ℕ} (hoff : off + 2 ≤ p.len) (hbehind : 10 ≤ off)
    (v : UInt16) : (p.put off v).headerLen = p.headerLen ∧ (p.put off v).byte 9 = p.byte 9 ∧
      (p.put off v).checksumOffset = p.checksumOffset := by
  have hlong := h.long
  have h0 : (p.put off v).byte 0 = p.byte 0 :=
    byte_put h hoff (by omega) v (Or.inl (by omega))
  have h9 : (p.put off v).byte 9 = p.byte 9 :=
    byte_put h hoff (by omega) v (Or.inl (by omega))
  have hlen : (p.put off v).headerLen = p.headerLen := by rw [headerLen, headerLen, h0]
  exact ⟨hlen, h9, by rw [checksumOffset, checksumOffset, hlen, h9]⟩

lemma slice_put_apart (h : p.IPv4) {off : ℕ} (hoff : off + 2 ≤ p.len) (v : UInt16) {s : Slice}
    (hdis : s.off + s.len ≤ tunPacketOffset + off ∨ tunPacketOffset + off + 2 ≤ s.off) :
    (p.put off v).slice s = p.slice s := by
  have hfits := h.fits
  have hcap : packetCap + tunPacketOffset = maxContentSize := rfl
  exact slice_fill_apart (by simp only [List.length_cons, List.length_nil]; omega) hdis

/-- The two bytes that were put. -/
lemma slice_put_written (h : p.IPv4) {off : ℕ} (hoff : off + 2 ≤ p.len) (v : UInt16) :
    (p.put off v).slice ⟨tunPacketOffset + off, 2⟩ = [(v >>> 8).toUInt8, v.toUInt8] := by
  have hfits := h.fits
  have hcap : packetCap + tunPacketOffset = maxContentSize := rfl
  exact slice_fill_written (by simp only [List.length_cons, List.length_nil]; omega)

/-! ### The header -/

lemma header_put (h : p.Whole) (v : UInt16) :
    (p.put ipv4offsetChecksum v).content.take p.headerLen =
      overwrite p.header ipv4offsetChecksum [(v >>> 8).toUInt8, v.toUInt8] := by
  have hihl := h.ihl
  have haround : ((overwrite p.content ipv4offsetChecksum
      [(v >>> 8).toUInt8, v.toUInt8]).drop 0).take p.headerLen =
      overwrite ((p.content.drop 0).take p.headerLen) (ipv4offsetChecksum - 0)
        [(v >>> 8).toUInt8, v.toUInt8] :=
    overwrite_around (Nat.zero_le _)
      (by simp only [List.length_cons, List.length_nil, ipv4offsetChecksum]; omega)
      (by rw [content_length h.ipv4.fits]; exact (Nat.zero_add _).trans_le h.header_le)
  rwa [List.drop_zero, List.drop_zero, Nat.sub_zero,
    ← content_put h.ipv4.fits (h.ipv4.long.trans' (by decide))] at haround

/-- The header as a slice of the buffer. -/
lemma slice_header (h : p.headerLen ≤ p.len) (v : UInt16) (off : ℕ) :
    (p.put off v).slice ⟨tunPacketOffset, p.headerLen⟩ =
      (p.put off v).content.take p.headerLen := by
  rw [content, slice, slice, List.take_take, put_len, Nat.min_eq_left h]

lemma length_header (h : p.Whole) : p.header.length = p.headerLen := by
  rw [header, List.length_take, content_length h.ipv4.fits, Nat.min_eq_left h.header_le]

lemma Whole.withHeader (h : p.Whole) : p.withHeader.Whole where
  ipv4 := h.ipv4.withHeader
  ihl := by rw [headerLen_withHeader h.ipv4]; exact h.ihl
  header_le := by rw [headerLen_withHeader h.ipv4]; exact h.header_le
  transport := by rw [checksumOffset_withHeader h.ipv4]; exact h.transport

/-- **The header checksum is right.** -/
lemma sum_header_withHeader (h : p.Whole) : OnesComplement.sum p.withHeader.header = 0xffff := by
  have hihl := h.ihl
  rw [header, headerLen_withHeader h.ipv4, withHeader, header_put h]
  refine sum_overwrite (by decide) ?_ ?_
  · rw [length_header h, ipv4offsetChecksum]
    omega
  · have hzero := header_put h 0
    rw [headerChecksum, slice_header h.header_le, hzero, (checksumIPv4Header_spec ?_).2]
    · rfl
    · rw [← hzero, List.length_take]
      exact (Nat.min_le_left _ _).trans (p.headerLen_le.trans (by decide))

/-! ### The segment -/

lemma segment_put (h : p.Whole) {off : ℕ} (hoff : p.checksumOffset = some off) (v : UInt16) :
    (p.put off v).content.drop p.headerLen =
      overwrite p.segment (off - p.headerLen) [(v >>> 8).toUInt8, v.toUInt8] := by
  have hroom := h.transport off hoff
  have hbehind := (checksumOffset_spec hoff).1
  have hlen := content_length h.ipv4.fits
  have haround : ((overwrite p.content off [(v >>> 8).toUInt8, v.toUInt8]).drop
      p.headerLen).take (p.len - p.headerLen) =
      overwrite ((p.content.drop p.headerLen).take (p.len - p.headerLen)) (off - p.headerLen)
        [(v >>> 8).toUInt8, v.toUInt8] :=
    overwrite_around (by omega)
      (by simp only [List.length_cons, List.length_nil]; omega) (by omega)
  have hput := content_put h.ipv4.fits hroom v
  have hlen' : (p.put off v).content.length = p.len := content_length (p := p.put off v) h.ipv4.fits
  rw [← hput, List.take_of_length_le (by rw [List.length_drop, hlen']),
    List.take_of_length_le (by rw [List.length_drop, hlen])] at haround
  exact haround

lemma length_segment (h : p.Whole) : p.segment.length = p.len - p.headerLen := by
  rw [segment, List.length_drop, content_length h.ipv4.fits]

/-- The addresses are in front of the transport checksum. -/
lemma srcIP_put (h : p.Whole) {off : ℕ} (hoff : p.checksumOffset = some off) (v : UInt16) :
    (p.put off v).srcIP = p.srcIP ∧ (p.put off v).dstIP = p.dstIP := by
  have hroom := h.transport off hoff
  have hbehind := (checksumOffset_spec hoff).1
  have hihl := h.ihl
  constructor
  · rw [srcIP, srcIP, slice_put_apart h.ipv4 hroom]
    · rfl
    · exact Or.inl (by rw [show (p.put off v).src = p.src from rfl, h.ipv4.src]; dsimp only; omega)
  · rw [dstIP, dstIP, slice_put_apart h.ipv4 hroom]
    · rfl
    · exact Or.inl (by rw [show (p.put off v).dst = p.dst from rfl, h.ipv4.dst]; dsimp only; omega)

/-- The value of the transport checksum. -/
lemma toNat_transportChecksum (h : p.Whole) {off : ℕ} (hoff : p.checksumOffset = some off) :
    ((p.put off 0).transportChecksum p.headerLen (p.byte 9)).toNat =
      0xffff - carry (words (pseudoHeader p.srcIP p.dstIP (p.byte 9) (p.len - p.headerLen) ++
        overwrite p.segment (off - p.headerLen) [0, 0])).sum := by
  have hfits := h.ipv4.fits
  have hzero := segment_put h hoff 0
  have hlen : ((p.put off 0).content.drop p.headerLen).length = p.len - p.headerLen := by
    rw [List.length_drop, content_length (p := p.put off 0) h.ipv4.fits, put_len]
  obtain ⟨-, checksum, hsum, hval⟩ := checksumIPv4TCPUDP_spec (h.ipv4.put off 0).srcIP_length
    (h.ipv4.put off 0).dstIP_length (p.byte 9)
    (show ((p.put off 0).content.drop p.headerLen).length ≤ packetCap by omega)
  rw [transportChecksum, hsum, Option.getD_some, hval, hlen, hzero, (srcIP_put h hoff 0).1,
    (srcIP_put h hoff 0).2]
  rfl

/-- **The transport checksum is right.** -/
lemma sum_segment_withTransport (h : p.Whole) {off : ℕ} (hoff : p.checksumOffset = some off) :
    OnesComplement.sum (pseudoHeader (p.withTransport off).srcIP (p.withTransport off).dstIP
      ((p.withTransport off).byte 9) (p.withTransport off).segment.length ++
        (p.withTransport off).segment) = 0xffff := by
  have hroom := h.transport off hoff
  obtain ⟨hbehind, heven⟩ := checksumOffset_spec hoff
  have hihl := h.ihl
  have hheven := p.headerLen_even
  set checksum := (p.put off 0).transportChecksum p.headerLen (p.byte 9) with hsum
  obtain ⟨hlen, h9, -⟩ := put_fields h.ipv4 hroom (by omega) checksum
  have hpseudo : (pseudoHeader p.srcIP p.dstIP (p.byte 9) (p.len - p.headerLen)).length = 12 := by
    simp [pseudoHeader, h.ipv4.srcIP_length, h.ipv4.dstIP_length]
  have hseg : (p.withTransport off).segment = overwrite p.segment (off - p.headerLen)
      [(checksum >>> 8).toUInt8, checksum.toUInt8] := by
    rw [segment, withTransport, ← hsum, hlen]
    exact segment_put h hoff checksum
  have hlength : (p.withTransport off).segment.length = p.len - p.headerLen := by
    rw [hseg, length_overwrite, length_segment h]
    rw [length_segment h]
    simp only [List.length_cons, List.length_nil]
    omega
  rw [hlength, hseg, withTransport, ← hsum, (srcIP_put h hoff _).1, (srcIP_put h hoff _).2, h9,
    append_overwrite, hpseudo]
  refine sum_overwrite (by omega) ?_ ?_
  · rw [List.length_append, hpseudo, length_segment h]
    omega
  · rw [hsum, toNat_transportChecksum h hoff, append_overwrite, hpseudo]

/-! ### A second call -/

lemma withHeader_idem (h : p.Whole) : p.withHeader.withHeader = p.withHeader := by
  have hroom : ipv4offsetChecksum + 2 ≤ p.len := h.ipv4.long.trans' (by decide)
  rw [withHeader, headerLen_withHeader h.ipv4, withHeader, put_put h.ipv4.fits hroom,
    put_put h.ipv4.fits hroom]

/-- What stood in the place of the transport checksum does not matter. -/
lemma withTransport_put (h : p.IPv4) {off : ℕ} (hroom : off + 2 ≤ p.len) (hbehind : 10 ≤ off)
    (v : UInt16) : (p.put off v).withTransport off = p.withTransport off := by
  obtain ⟨hlen, h9, -⟩ := put_fields h hroom hbehind v
  rw [withTransport, hlen, h9, put_put h.fits hroom, put_put h.fits hroom, withTransport]

/-- What stands behind the header does not matter for its checksum. -/
lemma withHeader_put (h : p.IPv4) {off : ℕ} (hroom : off + 2 ≤ p.len) (hbehind : 12 ≤ off)
    (hheader : p.headerLen ≤ off) (v : UInt16) :
    (p.put off v).withHeader = p.withHeader.put off v := by
  have hroom' : ipv4offsetChecksum + 2 ≤ p.len := h.long.trans' (by decide)
  have hdis : off + 2 ≤ ipv4offsetChecksum ∨ ipv4offsetChecksum + 2 ≤ off := Or.inr hbehind
  obtain ⟨hlen, -, -⟩ := put_fields h hroom (by omega) v
  have hsum : ((p.put off v).put ipv4offsetChecksum 0).headerChecksum p.headerLen =
      (p.put ipv4offsetChecksum 0).headerChecksum p.headerLen := by
    rw [put_comm h.fits hroom hroom' hdis, headerChecksum, headerChecksum,
      slice_put_apart (h.put _ _) (by exact hroom)]
    exact Or.inl (by dsimp only; omega)
  rw [withHeader, hlen, hsum, put_comm h.fits hroom hroom' hdis]
  rfl

lemma checksumOffset_withTransport (h : p.Whole) {off : ℕ} (hoff : p.checksumOffset = some off) :
    (p.withTransport off).headerLen = p.headerLen ∧
      (p.withTransport off).checksumOffset = some off := by
  have hbehind := (checksumOffset_spec hoff).1
  have hihl := h.ihl
  obtain ⟨hlen, -, hsame⟩ := put_fields h.ipv4 (h.transport off hoff) (by omega)
    ((p.put off 0).transportChecksum p.headerLen (p.byte 9))
  exact ⟨hlen, hsame.trans hoff⟩

lemma Whole.withTransport (h : p.Whole) {off : ℕ} (hoff : p.checksumOffset = some off) :
    (p.withTransport off).Whole where
  ipv4 := h.ipv4.put _ _
  ihl := by rw [(checksumOffset_withTransport h hoff).1]; exact h.ihl
  header_le := by rw [(checksumOffset_withTransport h hoff).1]; exact h.header_le
  transport := by
    rw [(checksumOffset_withTransport h hoff).2, ← hoff]
    exact h.transport

/-- The header checksum stays right when the transport checksum is computed. -/
lemma withHeader_withTransport (h : p.Whole) {off : ℕ} (hoff : p.checksumOffset = some off) :
    (p.withHeader.withTransport off).withHeader = p.withHeader.withTransport off := by
  have hroom := h.transport off hoff
  have hbehind := (checksumOffset_spec hoff).1
  have hihl := h.ihl
  have hheader : p.withHeader.headerLen ≤ off := by
    rw [headerLen_withHeader h.ipv4]
    omega
  rw [Packet.withTransport, withHeader_put h.ipv4.withHeader hroom (by omega) hheader,
    withHeader_idem h]

/-- **A second call changes nothing.** -/
lemma recalculate_idem (h : p.Whole) {q : Packet} (hq : p.recalculateChecksum = some q) :
    q.recalculateChecksum = some q := by
  rw [recalculateChecksum_eq h.ipv4] at hq
  rcases hoff : p.checksumOffset with _ | off
  · rw [hoff] at hq
    cases hq
    rw [recalculateChecksum_eq h.ipv4.withHeader, checksumOffset_withHeader h.ipv4, hoff]
    exact congrArg some (withHeader_idem h)
  · have hroom := h.transport off hoff
    have hbehind := (checksumOffset_spec hoff).1
    have hihl := h.ihl
    have hoff' : p.withHeader.checksumOffset = some off :=
      (checksumOffset_withHeader h.ipv4).trans hoff
    have hidem : (p.withHeader.withTransport off).withTransport off =
        p.withHeader.withTransport off := withTransport_put h.ipv4.withHeader hroom (by omega) _
    simp only [hoff, if_pos hroom] at hq
    cases hq
    rw [recalculateChecksum_eq (h.withHeader.withTransport hoff').ipv4]
    simp only [(checksumOffset_withTransport h.withHeader hoff').2,
      withHeader_withTransport h hoff, hidem]
    exact if_pos hroom

end Packet

/-- **Checksums.** Every addition fits its 32 bits; with the new checksums the sums are all ones;
and they are computed once and for all. -/
theorem recalculateChecksum_correct {p : Packet} (h : p.Whole) :
    (∃ q, p.recalculateChecksum = some q ∧ OnesComplement.sum q.header = 0xffff ∧
      ((p.byte 9 = ipProtocolTCP ∨ p.byte 9 = ipProtocolUDP) →
        OnesComplement.sum (pseudoHeader q.srcIP q.dstIP (q.byte 9) q.segment.length ++
          q.segment) = 0xffff) ∧
      q.recalculateChecksum = some q) ∧
    (∀ buf : List UInt8, buf.length ≤ packetCap → NoWrap 0 (headerAddends buf)) ∧
    (∀ (bs : List UInt8) (protocol : UInt8) (src dst : IP), bs.length ≤ packetCap →
      src.length = 4 → dst.length = 4 → TransportNoWrap bs protocol src dst) ∧
    ∀ v : UInt32, (v >>> 16).toNat + (v &&& 0xffff).toNat < 2 ^ 32 := by
  refine ⟨?_, fun buf hb => (checksumIPv4Header_spec hb).1,
    fun bs protocol src dst hb hs hd => (checksumIPv4TCPUDP_spec hs hd protocol hb).1, fold_noWrap⟩
  have hrec := Packet.recalculateChecksum_eq h.ipv4
  rcases hoff : p.checksumOffset with _ | off
  · simp only [hoff] at hrec
    refine ⟨_, hrec, Packet.sum_header_withHeader h, fun hproto => ?_,
      Packet.recalculate_idem h hrec⟩
    -- without a checksum in it, the protocol is neither of the two
    rw [Packet.checksumOffset] at hoff
    rcases hproto with hproto | hproto
    · rw [if_pos hproto] at hoff
      cases hoff
    · split_ifs at hoff
  · have hroom := h.transport off hoff
    have hoff' : p.withHeader.checksumOffset = some off :=
      (Packet.checksumOffset_withHeader h.ipv4).trans hoff
    simp only [hoff, if_pos hroom] at hrec
    refine ⟨_, hrec, ?_, fun _ => Packet.sum_segment_withTransport h.withHeader hoff',
      Packet.recalculate_idem h hrec⟩
    rw [← Packet.withHeader_withTransport h hoff]
    exact Packet.sum_header_withHeader (h.withHeader.withTransport hoff')

/-- A UDP packet without payload. -/
def udpPacket : Packet :=
  (Packet.holding [0x45, 0, 0, 28, 0, 0, 0, 0, 64, 17, 0, 0, 10, 66, 0, 2, 10, 66, 0, 1,
    0, 53, 0, 53, 0, 8, 0, 0] (by decide)).asIPv4

lemma udpPacket_whole : udpPacket.Whole :=
  ⟨⟨by decide, by decide, rfl, rfl, rfl⟩, by decide +kernel, by decide +kernel, by decide +kernel⟩

theorem udpPacket_checksums :
    ∃ q, udpPacket.recalculateChecksum = some q ∧ OnesComplement.sum q.header = 0xffff ∧
      OnesComplement.sum (pseudoHeader q.srcIP q.dstIP (q.byte 9) q.segment.length ++
        q.segment) = 0xffff ∧ q.recalculateChecksum = some q := by
  obtain ⟨⟨q, hq, hheader, hsegment, hagain⟩, -⟩ := recalculateChecksum_correct udpPacket_whole
  exact ⟨q, hq, hheader, hsegment (Or.inr (by decide +kernel)), hagain⟩

end Awl
