import Awl.ChecksumSum

/-!
What `WritePacketsBatch` hands to the TUN device: whether it gets there at all, which addresses
the packets have, and what else is changed in them.

The header length and the protocol are the sender's choice. From them follows where the
transport checksum is written: beyond the packet, over the addresses, or into the payload of a
fragment that has no transport header.
-/

namespace Awl

open NetIP OnesComplement

section

variable {α β : Type} {f : α → Option β} {xs : List α}

lemma mapM_eq_some {ys : List β} : xs.mapM f = some ys ↔ xs.map f = ys.map some := by
  induction xs generalizing ys with
  | nil => cases ys <;> simp
  | cons x xs ih =>
    cases ys with
    | nil => simp [Option.bind_eq_some_iff]
    | cons y ys => simp [Option.bind_eq_some_iff, ih]

/-- A batch goes through if each of its elements does. -/
lemma mapM_isSome_iff : (xs.mapM f).isSome ↔ ∀ x ∈ xs, (f x).isSome := by
  induction xs with
  | nil => simp
  | cons x xs ih =>
    rw [List.mapM_cons, List.forall_mem_cons, ← ih]
    rcases f x with _ | y
    · simp
    · rcases xs.mapM f with _ | ys
      · simp
      · simp

lemma mapM_mem {ys : List β} (h : xs.mapM f = some ys) {y : β} (hy : y ∈ ys) :
    ∃ x ∈ xs, f x = some y := by
  have hmem : some y ∈ xs.map f := by
    rw [mapM_eq_some.mp h]
    exact List.mem_map_of_mem hy
  exact List.mem_map.mp hmem

lemma mem_mapM {ys : List β} (h : xs.mapM f = some ys) {x : α} (hx : x ∈ xs) :
    ∃ y ∈ ys, f x = some y := by
  have hmem : f x ∈ ys.map some := by
    rw [← mapM_eq_some.mp h]
    exact List.mem_map_of_mem hx
  obtain ⟨y, hy, he⟩ := List.mem_map.mp hmem
  exact ⟨y, hy, he.symm⟩

lemma mapM_getElem? {ys : List β} (h : xs.mapM f = some ys) {i : ℕ} {x : α}
    (hx : xs[i]? = some x) : ∃ y, ys[i]? = some y ∧ f x = some y := by
  have hmap : (xs.map f)[i]? = (ys.map some)[i]? := by rw [mapM_eq_some.mp h]
  rw [List.getElem?_map, List.getElem?_map, hx, Option.map_some] at hmap
  obtain ⟨y, hy, he⟩ := Option.map_eq_some_iff.mp hmap.symm
  exact ⟨y, hy, he.symm⟩

end

namespace Packet

/-! ### New addresses -/

/-- The part of the buffer that is written for a packet. -/
def written (q : Packet) : List UInt8 := q.buffer.take (tunPacketOffset + q.len)

/-- The packet with its addresses replaced. -/
def addressed (senderIP localIP : IP) (p : Packet) : Packet :=
  (p.copySlice p.src senderIP).copySlice p.dst localIP

section

variable {p : Packet} {senderIP localIP : IP}

lemma rewrite_eq (senderIP localIP : IP) (p : Packet) :
    p.rewrite senderIP localIP =
      (p.addressed senderIP localIP).recalculateChecksum.map written := by
  rw [rewrite, Option.bind_eq_bind, Option.map_eq_bind]
  rfl

lemma IPv4.addressed (h : p.IPv4) (senderIP localIP : IP) :
    (p.addressed senderIP localIP).IPv4 :=
  ⟨h.fits, h.long, h.src, h.dst, h.v4⟩

lemma addressed_eq (h : p.IPv4) (hs : senderIP.length = 4) (hl : localIP.length = 4) :
    p.addressed senderIP localIP =
      (p.fill (tunPacketOffset + 12) senderIP).fill (tunPacketOffset + 16) localIP := by
  rw [Packet.addressed, copySlice, copySlice, h.src, h.dst,
    List.take_of_length_le (by simp [hs]), List.take_of_length_le (by simp [hl])]

lemma byte_addressed (h : p.IPv4) (hs : senderIP.length = 4) (hl : localIP.length = 4) {i : ℕ}
    (hi : i < p.len) (hdis : i < 12 ∨ 20 ≤ i) :
    (p.addressed senderIP localIP).byte i = p.byte i := by
  have hroom : tunPacketOffset + 20 ≤ maxContentSize := by decide
  rw [addressed_eq h hs hl, byte_fill_apart (by omega) (by exact hi) (by omega),
    byte_fill_apart (by omega) hi (by omega)]

lemma addressed_fields (h : p.IPv4) (hs : senderIP.length = 4) (hl : localIP.length = 4) :
    (p.addressed senderIP localIP).headerLen = p.headerLen ∧
      (p.addressed senderIP localIP).byte 9 = p.byte 9 ∧
      (p.addressed senderIP localIP).checksumOffset = p.checksumOffset := by
  have hlong := h.long
  have h0 := byte_addressed h hs hl (show 0 < p.len by omega) (Or.inl (by omega))
  have h9 := byte_addressed h hs hl (show 9 < p.len by omega) (Or.inl (by omega))
  have hlen : (p.addressed senderIP localIP).headerLen = p.headerLen := by
    rw [headerLen, headerLen, h0]
  exact ⟨hlen, h9, by rw [checksumOffset, checksumOffset, hlen, h9]⟩

lemma slice_addressed (h : p.IPv4) (hs : senderIP.length = 4) (hl : localIP.length = 4) :
    (p.addressed senderIP localIP).slice ⟨tunPacketOffset + 12, 4⟩ = senderIP ∧
      (p.addressed senderIP localIP).slice ⟨tunPacketOffset + 16, 4⟩ = localIP := by
  have hroom : tunPacketOffset + 20 ≤ maxContentSize := by decide
  rw [addressed_eq h hs hl]
  constructor
  · rw [slice_fill_apart (by omega) (Or.inl (by dsimp only; omega)), ← hs]
    exact slice_fill_written (by omega)
  · rw [← hl]
    exact slice_fill_written (by omega)

lemma rewrite_some (h : p.IPv4) (hs : senderIP.length = 4) (hl : localIP.length = 4) {off : ℕ}
    (hoff : p.checksumOffset = some off) :
    p.rewrite senderIP localIP = if off + 2 ≤ p.len then
        some ((p.addressed senderIP localIP).withHeader.withTransport off).written
      else none := by
  rw [rewrite_eq, recalculateChecksum_eq (h.addressed _ _), (addressed_fields h hs hl).2.2, hoff]
  by_cases hroom : off + 2 ≤ p.len
  · have hroom' : off + 2 ≤ (p.addressed senderIP localIP).len := hroom
    simp only [if_pos hroom, if_pos hroom']
    rfl
  · have hroom' : ¬ off + 2 ≤ (p.addressed senderIP localIP).len := hroom
    simp only [if_neg hroom, if_neg hroom']
    rfl

lemma rewrite_none (h : p.IPv4) (hs : senderIP.length = 4) (hl : localIP.length = 4)
    (hoff : p.checksumOffset = none) :
    p.rewrite senderIP localIP = some (p.addressed senderIP localIP).withHeader.written := by
  rw [rewrite_eq, recalculateChecksum_eq (h.addressed _ _), (addressed_fields h hs hl).2.2, hoff]
  rfl

end

/-! ### Panics -/

/-- There is room for the transport checksum, if there is one. -/
def InRange (p : Packet) : Prop := ∀ off ∈ p.checksumOffset, off + 2 ≤ p.len

instance (p : Packet) : Decidable p.InRange :=
  inferInstanceAs (Decidable (∀ off ∈ p.checksumOffset, off + 2 ≤ p.len))

section

variable {p : Packet} {senderIP localIP : IP}

lemma recalculateChecksum_isSome_iff (h : p.IPv4) :
    p.recalculateChecksum.isSome ↔ p.InRange := by
  rw [recalculateChecksum_eq h, InRange]
  rcases p.checksumOffset with _ | off
  · simp
  · simp only [Option.mem_some_iff, forall_eq']
    split_ifs with hroom
    · simp [hroom]
    · simp [hroom]

lemma rewrite_isSome_iff (h : p.IPv4) (hs : senderIP.length = 4) (hl : localIP.length = 4) :
    (p.rewrite senderIP localIP).isSome ↔ p.InRange := by
  rw [rewrite_eq, Option.isSome_map, recalculateChecksum_isSome_iff (h.addressed _ _), InRange,
    InRange, (addressed_fields h hs hl).2.2]
  rfl

end

end Packet

/-- **No index is out of range** exactly if every IPv4 packet of the batch that is a TCP or UDP
one reaches to the end of its transport checksum. -/
theorem writePacketsBatch_in_range_iff {packets : List Packet} (hps : ∀ p ∈ packets, p.Parsed)
    {senderIP localIP : IP} (hs : senderIP.length = 4) (hl : localIP.length = 4) :
    (writePacketsBatch localIP packets senderIP).isSome ↔
      ∀ p ∈ packets, p.isIPv6 = false → p.InRange := by
  rw [writePacketsBatch, mapM_isSome_iff]
  simp only [List.mem_filter, Bool.not_eq_true', and_imp]
  refine forall₂_congr fun p hp => forall_congr' fun hv => ?_
  exact Packet.rewrite_isSome_iff ((hps p hp).ipv4 hv) hs hl

/-- An IPv4 header of a TCP packet, and nothing else. -/
def bareHeader : Packet :=
  (Packet.holding [0x45, 0, 0, 20, 0, 0, 0, 0, 64, 6, 0, 0, 10, 66, 0, 2, 10, 66, 0, 1]
    (by decide)).asIPv4

theorem bareHeader_panics :
    bareHeader.Parsed ∧ bareHeader.isIPv6 = false ∧ bareHeader.content.length = 20 ∧
      writePacketsBatch [10, 66, 0, 1] [bareHeader] [10, 66, 0, 2] = none := by
  refine ⟨Packet.parsed_holding _ (by decide) (by decide), rfl, by decide +kernel, ?_⟩
  decide +kernel

/-- The UDP packet is long enough. -/
theorem udpPacket_in_range :
    (writePacketsBatch [10, 66, 0, 1] [udpPacket] [10, 66, 0, 2]).isSome := by
  refine (writePacketsBatch_in_range_iff (fun p hp => ?_) rfl rfl).mpr fun p hp _ => ?_
  · rw [List.mem_singleton.mp hp]
    exact Packet.parsed_holding _ (by decide) (by decide)
  · rw [List.mem_singleton.mp hp]
    decide +kernel

/-! ### Addresses -/

/-- The header of a buffer that is written says where the packet comes from and goes to. -/
def SentFromTo (senderIP localIP : IP) (buf : List UInt8) : Prop :=
  (buf.drop (tunPacketOffset + 12)).take 4 = senderIP ∧
    (buf.drop (tunPacketOffset + 16)).take 4 = localIP

namespace Packet

/-- The transport checksum is not where the addresses are. -/
def SparesAddresses (p : Packet) : Prop := ∀ off ∈ p.checksumOffset, off + 2 ≤ 12 ∨ 20 ≤ off

section

variable {p : Packet} {senderIP localIP : IP}

lemma sentFromTo_iff {q : Packet} (hlong : 20 ≤ q.len) : SentFromTo senderIP localIP q.written ↔
    q.slice ⟨tunPacketOffset + 12, 4⟩ = senderIP ∧
      q.slice ⟨tunPacketOffset + 16, 4⟩ = localIP := by
  have hslice : ∀ a, a + 4 ≤ 20 → (q.written.drop (tunPacketOffset + a)).take 4 =
      q.slice ⟨tunPacketOffset + a, 4⟩ := by
    intro a ha
    rw [written, slice, List.drop_take, List.take_take, Nat.min_eq_left (by omega)]
  rw [SentFromTo, hslice 12 (by omega), hslice 16 (by omega)]

/-- The new header checksum is in front of the addresses. -/
lemma slice_withHeader (h : p.IPv4) {a : ℕ} (ha : 12 ≤ a) :
    p.withHeader.slice ⟨tunPacketOffset + a, 4⟩ = p.slice ⟨tunPacketOffset + a, 4⟩ := by
  refine slice_put_apart h (h.long.trans' (by decide)) _ (Or.inr ?_)
  simp only [ipv4offsetChecksum]
  omega

/-- **The addresses stay** where the transport checksum is elsewhere. -/
lemma sentFromTo_of_spares (h : p.IPv4) (hs : senderIP.length = 4) (hl : localIP.length = 4)
    (hsp : p.SparesAddresses) {buf : List UInt8} (hw : p.rewrite senderIP localIP = some buf) :
    SentFromTo senderIP localIP buf := by
  set q := p.addressed senderIP localIP with hq
  have hqv : q.IPv4 := h.addressed _ _
  obtain ⟨hsrc, hdst⟩ := slice_addressed h hs hl
  rcases hoff : p.checksumOffset with _ | off
  · rw [rewrite_none h hs hl hoff] at hw
    cases hw
    rw [sentFromTo_iff (by exact h.long), slice_withHeader hqv (by omega),
      slice_withHeader hqv (by omega)]
    exact ⟨hsrc, hdst⟩
  · rw [rewrite_some h hs hl hoff] at hw
    split_ifs at hw with hroom
    cases hw
    have hapart : ∀ a, 12 ≤ a → a + 4 ≤ 20 →
        (q.withHeader.withTransport off).slice ⟨tunPacketOffset + a, 4⟩ =
          q.slice ⟨tunPacketOffset + a, 4⟩ := by
      intro a ha ha'
      rw [withTransport, slice_put_apart hqv.withHeader (by exact hroom), slice_withHeader hqv ha]
      rcases hsp off hoff with hbefore | hbehind
      · exact Or.inr (by dsimp only; omega)
      · exact Or.inl (by dsimp only; omega)
    rw [sentFromTo_iff (by exact h.long), hapart 12 (by omega) (by omega),
      hapart 16 (by omega) (by omega)]
    exact ⟨hsrc, hdst⟩

/-- Where the transport checksum can be over the addresses, the header length is short. -/
lemma headerLen_of_overlap {off : ℕ} (hoff : p.checksumOffset = some off)
    (hover : ¬ (off + 2 ≤ 12 ∨ 20 ≤ off)) : 12 ≤ off ∧ off + 2 ≤ 20 ∧ p.headerLen ≤ 12 := by
  have hheader : p.headerLen % 4 = 0 := by
    rw [headerLen, Nat.shiftLeft_eq]
    omega
  unfold checksumOffset at hoff
  split_ifs at hoff
  · cases hoff
    omega
  · cases hoff
    omega

lemma slice_getElem? (q : Packet) {a n i : ℕ} (hi : a ≤ i) (hi' : i < a + n) :
    (q.slice ⟨a, n⟩)[i - a]? = q.buffer[i]? := by
  simp only [slice]
  rw [List.getElem?_take, if_pos (by omega), List.getElem?_drop, Nat.add_sub_cancel' hi]

lemma length_slice_header (q : Packet) {a : ℕ} (ha : a + 4 ≤ 20) :
    (q.slice ⟨tunPacketOffset + a, 4⟩).length = 4 := by
  have hbuf := q.length_buffer
  have hroom : tunPacketOffset + 20 ≤ maxContentSize := by decide
  simp only [slice, List.length_take, List.length_drop]
  omega

/-- Addresses that amount to writing a word over the ones that are there. -/
lemma addressed_word (h : p.IPv4) {off : ℕ} (hoff : 12 ≤ off) (hoff' : off + 2 ≤ 20)
    (v : UInt16) :
    p.addressed ((p.put off v).slice ⟨tunPacketOffset + 12, 4⟩)
      ((p.put off v).slice ⟨tunPacketOffset + 16, 4⟩) = p.put off v := by
  have hlong := h.long
  have hbuf := p.length_buffer
  have hroom : tunPacketOffset + 20 ≤ maxContentSize := by decide
  have h12 := (p.put off v).length_slice_header (show 12 + 4 ≤ 20 by omega)
  have h16 := (p.put off v).length_slice_header (show 16 + 4 ≤ 20 by omega)
  rw [addressed_eq h h12 h16]
  refine ext_buffer (List.ext_getElem? fun i => ?_) rfl rfl rfl rfl rfl
  have hlen := length_overwrite
    (show tunPacketOffset + 12 + ((p.put off v).slice ⟨tunPacketOffset + 12, 4⟩).length ≤
      p.buffer.length by omega)
  rw [fill_buffer (by omega), fill_buffer (by omega), overwrite_getElem? (by omega),
    overwrite_getElem? (by omega), h12, h16]
  split_ifs with h1 h2
  · exact slice_getElem? _ h1.1 h1.2
  · exact slice_getElem? _ h2.1 h2.2
  · rw [put_buffer h.fits (by omega), overwrite_getElem?_of_lt]
    · simp only [List.length_cons, List.length_nil]
      omega
    · simp only [List.length_cons, List.length_nil]
      omega

/-- **The addresses are lost** where the transport checksum is written over them: whatever word
of theirs it replaces, the result is the same. -/
lemma exists_not_sentFromTo (h : p.IPv4) (hr : p.InRange) (hsp : ¬ p.SparesAddresses) :
    ∃ senderIP localIP buf, senderIP.length = 4 ∧ localIP.length = 4 ∧
      p.rewrite senderIP localIP = some buf ∧ ¬ SentFromTo senderIP localIP buf := by
  unfold SparesAddresses at hsp
  push Not at hsp
  obtain ⟨off, hoff, hover⟩ := hsp
  obtain ⟨hlow, hhigh, hheader⟩ := headerLen_of_overlap hoff (by omega)
  have hroom := hr off hoff
  have hlong := h.long
  -- the result, whatever the word was
  have hfinal : ∀ v, (p.put off v).recalculateChecksum =
      some (p.withHeader.withTransport off) := by
    intro v
    rw [recalculateChecksum_eq (h.put off v), (put_fields h hroom (by omega) v).2.2, hoff]
    dsimp only
    rw [withHeader_put h hroom hlow (by omega), withTransport_put h.withHeader hroom (by omega)]
    exact if_pos hroom
  have hrewrite : ∀ v, p.rewrite ((p.put off v).slice ⟨tunPacketOffset + 12, 4⟩)
      ((p.put off v).slice ⟨tunPacketOffset + 16, 4⟩) =
        some (p.withHeader.withTransport off).written := by
    intro v
    rw [rewrite_eq, addressed_word h hlow hhigh, hfinal v]
    rfl
  by_contra hall
  push Not at hall
  have hcarry : ∀ v, (p.withHeader.withTransport off).slice ⟨tunPacketOffset + 12, 4⟩ =
      (p.put off v).slice ⟨tunPacketOffset + 12, 4⟩ ∧
      (p.withHeader.withTransport off).slice ⟨tunPacketOffset + 16, 4⟩ =
        (p.put off v).slice ⟨tunPacketOffset + 16, 4⟩ := by
    intro v
    exact (sentFromTo_iff (by exact h.long)).mp
      (hall _ _ _ (length_slice_header _ (by omega)) (length_slice_header _ (by omega))
        (hrewrite v))
  -- so two different words would give the same packet
  have hsame : p.put off 0 = p.put off 1 := by
    rw [← addressed_word h hlow hhigh 0, ← addressed_word h hlow hhigh 1, ← (hcarry 0).1,
      ← (hcarry 0).2, (hcarry 1).1, (hcarry 1).2]
  have h01 := slice_put_written h hroom 0
  rw [hsame, slice_put_written h hroom 1] at h01
  exact absurd h01 (by decide)

end

end Packet

/-- **The addresses of the packets written** are the ones they should be exactly if none of the
packets has its transport checksum over them. -/
theorem written_addresses_iff {packets : List Packet} (hps : ∀ p ∈ packets, p.Parsed)
    (hrange : ∀ p ∈ packets, p.isIPv6 = false → p.InRange) :
    (∀ (senderIP localIP : IP) (bufs : List (List UInt8)), senderIP.length = 4 →
      localIP.length = 4 → writePacketsBatch localIP packets senderIP = some bufs →
      ∀ buf ∈ bufs, SentFromTo senderIP localIP buf) ↔
    ∀ p ∈ packets, p.isIPv6 = false → p.SparesAddresses := by
  constructor
  · intro hall p hp hv
    by_contra hsp
    obtain ⟨senderIP, localIP, buf, hs, hl, hw, hno⟩ :=
      Packet.exists_not_sentFromTo ((hps p hp).ipv4 hv) (hrange p hp hv) hsp
    have hsome : (writePacketsBatch localIP packets senderIP).isSome := by
      rw [writePacketsBatch, mapM_isSome_iff]
      intro q hq
      obtain ⟨hq, hv'⟩ := List.mem_filter.mp hq
      have hv' : q.isIPv6 = false := by simpa using hv'
      exact (Packet.rewrite_isSome_iff ((hps q hq).ipv4 hv') hs hl).mpr (hrange q hq hv')
    obtain ⟨bufs, hbufs⟩ := Option.isSome_iff_exists.mp hsome
    obtain ⟨buf', hmem, hw'⟩ := mem_mapM hbufs (List.mem_filter.mpr ⟨hp, by simpa using hv⟩)
    cases hw.symm.trans hw'
    exact hno (hall senderIP localIP bufs hs hl hbufs buf hmem)
  · intro hsp senderIP localIP bufs hs hl hbufs buf hmem
    obtain ⟨p, hp, hw⟩ := mapM_mem hbufs hmem
    obtain ⟨hp, hv⟩ := List.mem_filter.mp hp
    have hv : p.isIPv6 = false := by simpa using hv
    exact Packet.sentFromTo_of_spares ((hps p hp).ipv4 hv) hs hl (hsp p hp hv) hw

/-- A UDP packet whose header is said to be eight bytes long. -/
def shortHeader : Packet :=
  (Packet.holding [0x42, 0, 0, 28, 0, 0, 0, 0, 64, 17, 0, 0, 10, 66, 0, 9, 10, 66, 0, 1,
    0, 53, 0, 53, 0, 8, 0, 0] (by decide)).asIPv4

theorem shortHeader_spoofs :
    shortHeader.Parsed ∧ shortHeader.isIPv6 = false ∧ shortHeader.InRange ∧
      ∃ buf, writePacketsBatch [10, 66, 0, 1] [shortHeader] [10, 66, 0, 2] = some [buf] ∧
        ¬ SentFromTo [10, 66, 0, 2] [10, 66, 0, 1] buf := by
  refine ⟨Packet.parsed_holding _ (by decide) (by decide), rfl, by decide +kernel,
    ((writePacketsBatch [10, 66, 0, 1] [shortHeader] [10, 66, 0, 2]).getD []).headD [],
    by decide +kernel, fun h => absurd h.1 ?_⟩
  decide +kernel

/-- A header of the usual length. -/
theorem udpPacket_carries :
    udpPacket.Parsed ∧
      ∀ bufs, writePacketsBatch [10, 66, 0, 1] [udpPacket] [10, 66, 0, 2] = some bufs →
        ∀ buf ∈ bufs, SentFromTo [10, 66, 0, 2] [10, 66, 0, 1] buf := by
  have hparsed : udpPacket.Parsed := Packet.parsed_holding _ (by decide) (by decide)
  refine ⟨hparsed, fun bufs => ?_⟩
  refine (written_addresses_iff (fun p hp => ?_) fun p hp _ => ?_).mpr (fun p hp _ => ?_)
    [10, 66, 0, 2] [10, 66, 0, 1] bufs rfl rfl
  · rw [List.mem_singleton.mp hp]
    exact hparsed
  · rw [List.mem_singleton.mp hp]
    decide +kernel
  · rw [List.mem_singleton.mp hp]
    exact fun off hoff => Or.inr (by
      have hudp : udpPacket.checksumOffset = some 26 := by decide +kernel
      rw [hudp] at hoff
      cases hoff
      decide)

end Awl
