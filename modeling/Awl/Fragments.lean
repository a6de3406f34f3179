import Awl.Rewritten

/-!
What else `WritePacketsBatch` changes in a packet. A fragment that is not the first has no
transport header, but bytes of its payload are taken for the transport checksum all the same.
-/

namespace Awl

open NetIP OnesComplement

namespace Packet

/-- The fragment offset, in units of eight bytes. -/
def fragmentOffset (p : Packet) : ℕ := (p.byte 6 &&& 0x1f).toNat * 256 + (p.byte 7).toNat

/-- A well-formed IPv4 packet; a first fragment has the whole transport header. -/
structure WellFormed (p : Packet) : Prop where
  ipv4 : p.IPv4
  ihl : 20 ≤ p.headerLen
  header_le : p.headerLen ≤ p.len
  tcp : p.fragmentOffset = 0 → p.byte 9 = ipProtocolTCP → p.headerLen + 20 ≤ p.len
  udp : p.fragmentOffset = 0 → p.byte 9 = ipProtocolUDP → p.headerLen + 8 ≤ p.len

/-- The bytes that may change: the header checksum and the addresses, and in a first fragment
the transport checksum. -/
def MayChange (p : Packet) (i : ℕ) : Prop :=
  (10 ≤ i ∧ i < 20) ∨ p.fragmentOffset = 0 ∧ ∃ off ∈ p.checksumOffset, off ≤ i ∧ i < off + 2

/-- What is written for the packet, with no other bytes changed. -/
structure Preserved (p : Packet) (buf : List UInt8) : Prop where
  length : buf.length = tunPacketOffset + p.len
  bytes : ∀ i < p.len, ¬ p.MayChange i →
    buf[tunPacketOffset + i]? = p.buffer[tunPacketOffset + i]?

/-- There is a transport header where the code expects one. -/
def Unambiguous (p : Packet) : Prop := p.fragmentOffset = 0 ∨ p.checksumOffset = none

section

variable {p : Packet} {senderIP localIP : IP}

lemma buffer_put_apart (h : p.len ≤ packetCap) {off : ℕ} (hoff : off + 2 ≤ p.len) (v : UInt16)
    {i : ℕ} (hdis : i < off ∨ off + 2 ≤ i) :
    (p.put off v).buffer[tunPacketOffset + i]? = p.buffer[tunPacketOffset + i]? := by
  have hcap : packetCap + tunPacketOffset = maxContentSize := rfl
  rw [put_buffer h hoff, overwrite_getElem?_of_lt]
  · rw [p.length_buffer]
    simp only [List.length_cons, List.length_nil]
    omega
  · simp only [List.length_cons, List.length_nil]
    omega

lemma buffer_addressed_apart (h : p.IPv4) (hs : senderIP.length = 4) (hl : localIP.length = 4)
    {i : ℕ} (hdis : i < 12 ∨ 20 ≤ i) :
    (p.addressed senderIP localIP).buffer[tunPacketOffset + i]? =
      p.buffer[tunPacketOffset + i]? := by
  have hbuf := p.length_buffer
  have hroom : tunPacketOffset + 20 ≤ maxContentSize := by decide
  have hlen := length_overwrite (show tunPacketOffset + 12 + senderIP.length ≤ p.buffer.length by
    omega)
  rw [addressed_eq h hs hl, fill_buffer (by omega), fill_buffer (by omega),
    overwrite_getElem?_of_lt (by omega) (by omega), overwrite_getElem?_of_lt (by omega) (by omega)]

lemma buffer_withHeader_apart (h : p.IPv4) {i : ℕ} (hdis : i < 10 ∨ 12 ≤ i) :
    p.withHeader.buffer[tunPacketOffset + i]? = p.buffer[tunPacketOffset + i]? :=
  buffer_put_apart h.fits (h.long.trans' (by decide)) _ hdis

/-- What is read back from what is written. -/
lemma written_getElem? (q : Packet) {i : ℕ} (hi : i < q.len) :
    q.written[tunPacketOffset + i]? = q.buffer[tunPacketOffset + i]? := by
  rw [written, List.getElem?_take, if_pos (by omega)]

lemma written_length {q : Packet} (h : q.len ≤ packetCap) :
    q.written.length = tunPacketOffset + q.len := by
  have hbuf := q.length_buffer
  have hcap : packetCap + tunPacketOffset = maxContentSize := rfl
  rw [written, List.length_take, hbuf]
  omega

/-- A first fragment has room for its transport checksum. -/
lemma WellFormed.whole (h : p.WellFormed) (hfrag : p.fragmentOffset = 0) : p.Whole where
  ipv4 := h.ipv4
  ihl := h.ihl
  header_le := h.header_le
  transport := by
    intro off hoff
    unfold checksumOffset at hoff
    split_ifs at hoff with htcp hudp
    · cases hoff
      exact Nat.le_trans (by omega) (h.tcp hfrag htcp)
    · cases hoff
      exact h.udp hfrag hudp
    · cases hoff

/-- **Nothing else is changed** in packets that are not ambiguous. -/
lemma preserved_of_unambiguous (h : p.WellFormed) (hu : p.Unambiguous)
    (hs : senderIP.length = 4) (hl : localIP.length = 4) :
    ∃ buf, p.rewrite senderIP localIP = some buf ∧ p.Preserved buf := by
  have hqv : (p.addressed senderIP localIP).IPv4 := h.ipv4.addressed _ _
  have hheader : ∀ i, i < 10 ∨ 20 ≤ i →
      (p.addressed senderIP localIP).withHeader.buffer[tunPacketOffset + i]? =
        p.buffer[tunPacketOffset + i]? := fun i hi => by
    rw [buffer_withHeader_apart hqv (by omega),
      buffer_addressed_apart h.ipv4 hs hl (by omega)]
  rcases hoff : p.checksumOffset with _ | off
  · refine ⟨_, rewrite_none h.ipv4 hs hl hoff, written_length (by exact h.ipv4.fits), ?_⟩
    intro i hi hno
    rw [written_getElem? _ (by exact hi)]
    refine hheader i ?_
    by_contra hmid
    exact hno (Or.inl (by omega))
  · have hfrag : p.fragmentOffset = 0 := hu.resolve_right (by rw [hoff]; simp)
    have hroom := (h.whole hfrag).transport off hoff
    refine ⟨_, (rewrite_some h.ipv4 hs hl hoff).trans (if_pos hroom),
      written_length (by exact h.ipv4.fits), ?_⟩
    intro i hi hno
    rw [written_getElem? _ (by exact hi), withTransport,
      buffer_put_apart (by exact h.ipv4.fits) (by exact hroom)]
    · refine hheader i ?_
      by_contra hmid
      exact hno (Or.inl (by omega))
    · by_contra hmid
      exact hno (Or.inr ⟨hfrag, off, hoff, by omega⟩)

/-- The segment as a slice of the buffer. -/
lemma drop_content (p : Packet) (n : ℕ) :
    p.content.drop n = p.slice ⟨tunPacketOffset + n, p.len - n⟩ := by
  rw [content, slice, slice, List.drop_take, List.drop_drop]

/-- The segment is behind all that is changed in the header. -/
lemma segment_withHeader (h : p.WellFormed) (hs : senderIP.length = 4)
    (hl : localIP.length = 4) : (p.addressed senderIP localIP).withHeader.segment = p.segment := by
  have hpv : (p.addressed senderIP localIP).IPv4 := h.ipv4.addressed _ _
  have hihl := h.ihl
  have hroom : tunPacketOffset + 20 ≤ maxContentSize := by decide
  rw [segment, headerLen_withHeader hpv, (addressed_fields h.ipv4 hs hl).1, drop_content,
    withHeader, slice_put_apart hpv (hpv.long.trans' (by decide)), segment, drop_content,
    addressed_eq h.ipv4 hs hl]
  · rw [slice_fill_apart (by omega) (Or.inr (by dsimp only; omega)),
      slice_fill_apart (by omega) (Or.inr (by dsimp only; omega))]
    rfl
  · exact Or.inr (by simp only [ipv4offsetChecksum]; omega)

/-- What the transport checksum is made of, after the header has been rewritten. -/
lemma rewritten_fields (h : p.WellFormed) (hs : senderIP.length = 4) (hl : localIP.length = 4) :
    (p.addressed senderIP localIP).withHeader.headerLen = p.headerLen ∧
      (p.addressed senderIP localIP).withHeader.byte 9 = p.byte 9 ∧
      (p.addressed senderIP localIP).withHeader.checksumOffset = p.checksumOffset ∧
      (p.addressed senderIP localIP).withHeader.srcIP = senderIP ∧
      (p.addressed senderIP localIP).withHeader.dstIP = localIP := by
  have hlong := h.ipv4.long
  have hpv : (p.addressed senderIP localIP).IPv4 := h.ipv4.addressed _ _
  obtain ⟨hlen, h9, hsame⟩ := addressed_fields h.ipv4 hs hl
  obtain ⟨hsrc, hdst⟩ := slice_addressed h.ipv4 hs hl
  refine ⟨?_, ?_, ?_, ?_, ?_⟩
  · rw [headerLen_withHeader hpv, hlen]
  · rw [byte_withHeader hpv (show 9 < p.len by omega) (Or.inl (by omega)), h9]
  · rw [checksumOffset_withHeader hpv, hsame]
  · rw [srcIP, hpv.withHeader.src, slice_withHeader hpv (by omega), hsrc]
  · rw [dstIP, hpv.withHeader.dst, slice_withHeader hpv (by omega), hdst]

/-- The transport checksum, as a sum over the pseudo header and the segment. -/
lemma toNat_rewritten_checksum (h : p.WellFormed) (hs : senderIP.length = 4)
    (hl : localIP.length = 4) {off : ℕ} (hoff : p.checksumOffset = some off)
    (hroom : off + 2 ≤ p.len) {q : Packet} (hq : q = (p.addressed senderIP localIP).withHeader) :
    ((q.put off 0).transportChecksum q.headerLen (q.byte 9)).toNat =
      0xffff - carry (words (pseudoHeader senderIP localIP (p.byte 9) (p.len - p.headerLen) ++
        overwrite p.segment (off - p.headerLen) [0, 0])).sum := by
  have hqdim : q.len = p.len := by rw [hq]; rfl
  have hqseg : q.segment = p.segment := by rw [hq, segment_withHeader h hs hl]
  obtain ⟨hqlen, hq9, hqoff, hqsrc, hqdst⟩ := rewritten_fields h hs hl
  rw [← hq] at hqlen hq9 hqoff hqsrc hqdst
  rw [hoff] at hqoff
  have hwhole : q.Whole := by
    refine ⟨hq ▸ (h.ipv4.addressed senderIP localIP).withHeader, hqlen ▸ h.ihl,
      by rw [hqlen, hqdim]; exact h.header_le, ?_⟩
    rw [hqoff]
    intro off' hoff'
    cases hoff'
    rwa [hqdim]
  rw [toNat_transportChecksum hwhole hqoff, hqsrc, hqdst, hq9, hqlen, hqdim, hqseg]

/-- The transport checksum depends on the last byte of the sender's address. -/
lemma checksum_senderIP (h : p.WellFormed) {off : ℕ} (hoff : p.checksumOffset = some off)
    (hroom : off + 2 ≤ p.len) : ∃ n, 0 < n ∧ ∀ x : UInt8, ∀ q : Packet,
      q = (p.addressed [0, 0, 0, x] [0, 0, 0, 0]).withHeader →
      ((q.put off 0).transportChecksum q.headerLen (q.byte 9)).toNat =
        0xffff - carry (n + x.toNat) := by
  refine ⟨(p.byte 9).toNat + (words [UInt8.ofNat ((p.len - p.headerLen) / 256),
    UInt8.ofNat (p.len - p.headerLen)]).sum +
      (words (overwrite p.segment (off - p.headerLen) [0, 0])).sum, ?_, fun x q hq => ?_⟩
  · have hpos : 0 < (p.byte 9).toNat := by
      unfold checksumOffset at hoff
      split_ifs at hoff with htcp hudp
      · rw [htcp]
        decide
      · rw [hudp]
        decide
    omega
  · rw [toNat_rewritten_checksum h rfl rfl hoff hroom hq, words_append (by simp [pseudoHeader]),
      List.sum_append]
    congr 2
    simp only [pseudoHeader, words, List.cons_append, List.nil_append, List.sum_cons, List.sum_nil,
      UInt8.toNat_zero]
    omega

lemma toNat_of_bytes {v w : UInt16}
    (h : [(v >>> 8).toUInt8, v.toUInt8] = [(w >>> 8).toUInt8, w.toUInt8]) :
    v.toNat = w.toNat := by
  have hhigh := congrArg UInt8.toNat (List.cons.inj h).1
  have hlow := congrArg UInt8.toNat (List.cons.inj (List.cons.inj h).2).1
  rw [(toNat_bytes v).1, (toNat_bytes w).1] at hhigh
  rw [(toNat_bytes v).2, (toNat_bytes w).2] at hlow
  omega

/-- What is put for the checksum of a later fragment are bytes of its payload, if nothing else is
changed. -/
lemma checksum_of_preserved (h : p.WellFormed) (hs : senderIP.length = 4)
    (hl : localIP.length = 4) (hfrag : p.fragmentOffset ≠ 0) {off : ℕ}
    (hoff : p.checksumOffset = some off) (hroom : off + 2 ≤ p.len) {buf : List UInt8}
    (hw : p.rewrite senderIP localIP = some buf) (hkept : p.Preserved buf) {q : Packet}
    (hq : q = (p.addressed senderIP localIP).withHeader) {v : UInt16}
    (hv : v = (q.put off 0).transportChecksum q.headerLen (q.byte 9)) :
    [(v >>> 8).toUInt8, v.toUInt8] = p.slice ⟨tunPacketOffset + off, 2⟩ := by
  have hihl := h.ihl
  have hbehind := (checksumOffset_spec hoff).1
  have hqv : q.IPv4 := hq ▸ (h.ipv4.addressed senderIP localIP).withHeader
  have hqdim : q.len = p.len := by rw [hq]; rfl
  rw [rewrite_some h.ipv4 hs hl hoff, if_pos hroom, ← hq, withTransport, ← hv] at hw
  cases hw
  rw [← slice_put_written hqv (by rw [hqdim]; exact hroom)]
  refine List.ext_getElem? fun i => ?_
  simp only [slice, List.getElem?_take, List.getElem?_drop]
  split_ifs with hi
  · have hkeep := hkept.bytes (off + i) (by omega) ?_
    · rw [written_getElem? _ (by rw [put_len, hqdim]; omega)] at hkeep
      rw [Nat.add_assoc, hkeep]
    · rintro (hmid | ⟨hzero, -⟩)
      · omega
      · exact hfrag hzero
  · rfl

/-- **The payload of a fragment is changed** where it is taken for a transport header. -/
lemma unambiguous_of_preserved (h : p.WellFormed)
    (hall : ∀ senderIP localIP : IP, senderIP.length = 4 → localIP.length = 4 →
      ∃ buf, p.rewrite senderIP localIP = some buf ∧ p.Preserved buf) : p.Unambiguous := by
  by_contra hno
  obtain ⟨hfrag, hsome⟩ := not_or.mp hno
  obtain ⟨off, hoff⟩ := Option.ne_none_iff_exists'.mp hsome
  -- the packet is written, so there is room for the checksum
  have hroom : off + 2 ≤ p.len := by
    obtain ⟨buf, hw, -⟩ := hall [0, 0, 0, 0] [0, 0, 0, 0] rfl rfl
    rw [rewrite_some h.ipv4 rfl rfl hoff] at hw
    by_contra hshort
    rw [if_neg hshort] at hw
    cases hw
  -- what is put there does not depend on the sender
  have hsame : ∀ x : UInt8, ∀ q : Packet, q = (p.addressed [0, 0, 0, x] [0, 0, 0, 0]).withHeader →
      ∀ v, v = (q.put off 0).transportChecksum q.headerLen (q.byte 9) →
      [(v >>> 8).toUInt8, v.toUInt8] = p.slice ⟨tunPacketOffset + off, 2⟩ := by
    intro x q hq v hv
    obtain ⟨buf, hw, hkept⟩ := hall [0, 0, 0, x] [0, 0, 0, 0] rfl rfl
    exact checksum_of_preserved h rfl rfl hfrag hoff hroom hw hkept hq hv
  obtain ⟨n, hn, hval⟩ := checksum_senderIP h hoff hroom
  have h01 := (hsame 0 _ rfl _ rfl).trans (hsame 1 _ rfl _ rfl).symm
  have hv : _ = _ := toNat_of_bytes h01
  rw [hval 0 _ rfl, hval 1 _ rfl] at hv
  have hle := carry_le (n + (0 : UInt8).toNat)
  have hle' := carry_le (n + (1 : UInt8).toNat)
  have hcarry : carry n = carry (n + 1) := by
    have : carry (n + (0 : UInt8).toNat) = carry (n + (1 : UInt8).toNat) := by omega
    exact this
  have hmod : n % 0xffff = (n + 1) % 0xffff := (carry_eq_iff hn (by omega)).mp hcarry
  omega

end

end Packet

/-- **Only the addresses and the checksums are changed** in well-formed packets exactly if none of
them is a later fragment of a TCP or UDP packet. -/
theorem payload_preserved_iff {packets : List Packet} (hps : ∀ p ∈ packets, p.WellFormed) :
    (∀ senderIP localIP : IP, senderIP.length = 4 → localIP.length = 4 →
      ∃ bufs, writePacketsBatch localIP packets senderIP = some bufs ∧
        ∀ (i : ℕ) (p : Packet) (buf : List UInt8), packets[i]? = some p → bufs[i]? = some buf →
          p.Preserved buf) ↔
    ∀ p ∈ packets, p.Unambiguous := by
  have hfilter : (packets.filter fun p => !p.isIPv6) = packets :=
    List.filter_eq_self.mpr fun p hp => by rw [(hps p hp).ipv4.v4]; rfl
  simp only [writePacketsBatch, hfilter]
  constructor
  · intro hall p hp
    refine Packet.unambiguous_of_preserved (hps p hp) fun senderIP localIP hs hl => ?_
    obtain ⟨bufs, hbufs, hkept⟩ := hall senderIP localIP hs hl
    obtain ⟨i, hi⟩ := List.mem_iff_getElem?.mp hp
    obtain ⟨buf, hbuf, hw⟩ := mapM_getElem? hbufs hi
    exact ⟨buf, hw, hkept i p buf hi hbuf⟩
  · intro hu senderIP localIP hs hl
    have hsome : (packets.mapM (Packet.rewrite senderIP localIP)).isSome := by
      refine mapM_isSome_iff.mpr fun p hp => ?_
      obtain ⟨buf, hw, -⟩ := Packet.preserved_of_unambiguous (hps p hp) (hu p hp) hs hl
      exact Option.isSome_iff_exists.mpr ⟨buf, hw⟩
    obtain ⟨bufs, hbufs⟩ := Option.isSome_iff_exists.mp hsome
    refine ⟨bufs, hbufs, fun i p buf hi hbuf => ?_⟩
    have hp := List.mem_of_getElem? hi
    obtain ⟨buf', hw, hkept⟩ := Packet.preserved_of_unambiguous (hps p hp) (hu p hp) hs hl
    obtain ⟨buf'', hbuf'', hw'⟩ := mapM_getElem? hbufs hi
    cases hw.symm.trans hw'
    cases hbuf.symm.trans hbuf''
    exact hkept

/-- A later fragment of a UDP packet, with eight bytes of payload. -/
def laterFragment : Packet :=
  (Packet.holding [0x45, 0, 0, 28, 0, 0, 0, 1, 64, 17, 0, 0, 10, 66, 0, 2, 10, 66, 0, 1,
    1, 2, 3, 4, 5, 6, 7, 8] (by decide)).asIPv4

theorem laterFragment_changed :
    laterFragment.WellFormed ∧ ∃ buf,
      writePacketsBatch [10, 66, 0, 1] [laterFragment] [10, 66, 0, 2] = some [buf] ∧
        ¬ laterFragment.Preserved buf := by
  refine ⟨⟨⟨by decide, by decide, rfl, rfl, rfl⟩, by decide +kernel, by decide +kernel,
    by decide +kernel, by decide +kernel⟩,
    ((writePacketsBatch [10, 66, 0, 1] [laterFragment] [10, 66, 0, 2]).getD []).headD [],
    by decide +kernel, fun h => ?_⟩
  have hfrag : laterFragment.fragmentOffset ≠ 0 := by decide +kernel
  have hbyte := h.bytes 26 (by decide) (by
    rintro (hmid | ⟨hzero, -⟩)
    · omega
    · exact hfrag hzero)
  exact absurd hbyte (by decide +kernel)

theorem udpPacket_preserved :
    ∃ bufs, writePacketsBatch [10, 66, 0, 1] [udpPacket] [10, 66, 0, 2] = some bufs ∧
      ∀ (i : ℕ) (p : Packet) (buf : List UInt8), [udpPacket][i]? = some p →
        bufs[i]? = some buf → p.Preserved buf := by
  refine (payload_preserved_iff fun p hp => ?_).mpr (fun p hp => ?_) [10, 66, 0, 2]
    [10, 66, 0, 1] rfl rfl
  · rw [List.mem_singleton.mp hp]
    exact ⟨udpPacket_whole.ipv4, udpPacket_whole.ihl, udpPacket_whole.header_le,
      by decide +kernel, by decide +kernel⟩
  · rw [List.mem_singleton.mp hp]
    exact Or.inl (by decide +kernel)

end Awl
