import Awl.InboundPathInv

/-!
The steps of the inbound path, and whole runs.
-/

namespace Awl

open NetIP

namespace InboundPath

variable {deviceIP : IP} {s s' : InboundPath} {b : Buf}

/-! ### The stream handlers and the rest of the program -/

lemma count_singleton_ite (b x : Buf) : [b].count x = if x = b then 1 else 0 := by
  rw [Buffers.count_cons_ite, List.count_nil, Nat.zero_add]

/-- The buffer of a stream handler is outside the pool. -/
lemma count_readers_pos {k : ℕ} {r : Reading} (hr : s.readers[k]? = some r) (hb : b ∈ r.bufs) :
    0 < (s.readers.flatMap Reading.bufs).count b :=
  List.count_pos_iff.mpr (List.mem_flatMap.mpr ⟨r, List.mem_of_getElem? hr, hb⟩)

/-- A stream handler gives its buffer back. -/
lemma Good.returnBuf (h : s.Good deviceIP) {k : ℕ} {r r' : Reading} (hr : s.readers[k]? = some r)
    (hb : r.bufs = [b]) (hr' : r'.bufs = []) :
    Good deviceIP { s.putTempPacket b with readers := s.readers.set k r' } := by
  have hpos := count_readers_pos hr (b := b) (by rw [hb]; exact List.mem_singleton_self b)
  refine h.frame (h.owned.put rfl fun x => ?_) ⟨rfl, rfl, ⟨rfl, rfl, rfl, rfl⟩, fun x hx => ?_⟩
  · have hcount := count_readers hr r' x
    rw [hb, hr', count_singleton_ite, List.count_nil] at hcount
    simp only [outside, putTempPacket]
    omega
  · exact Function.update_of_ne (h.owned.apart (by omega) x hx) _ _

lemma Good.accept (h : s.Good deviceIP) : s.accept.Good deviceIP :=
  h.frame (h.owned.same rfl fun x => by simp [outside, InboundPath.accept, Reading.bufs])
    ⟨rfl, rfl, ⟨rfl, rfl, rfl, rfl⟩, fun _ _ => rfl⟩

lemma Good.take (h : s.Good deviceIP) {k : ℕ} {got : Option Buf} (hs : s.take k got = some s') :
    s'.Good deviceIP := by
  obtain ⟨r, hr, hs⟩ := Option.bind_eq_some_iff.mp hs
  cases r with
  | idle =>
    obtain ⟨⟨b, pool⟩, hg, hs⟩ := Option.bind_eq_some_iff.mp hs
    cases hs
    refine h.frame (h.owned.get hg rfl fun x => ?_) ⟨rfl, rfl, ⟨rfl, rfl, rfl, rfl⟩, fun _ _ => rfl⟩
    have hcount := count_readers hr (.empty b) x
    simp only [Reading.bufs, count_singleton_ite, List.count_nil] at hcount
    simp only [outside]
    omega
  | empty b => cases hs
  | full b => cases hs
  | returned => cases hs

/-- A buffer that is not in the queue or the batch is written. -/
lemma Good.store (h : s.Good deviceIP)
    (hb : 0 < (s.readers.flatMap Reading.bufs).count b + s.others.count b) (packet : Packet) :
    (s.store b packet).Good deviceIP := by
  have hout : 0 < s.outside b := by unfold outside; omega
  exact h.frame (h.owned.use hout rfl fun _ => rfl) ⟨rfl, rfl, ⟨rfl, rfl, rfl, rfl⟩,
    fun x hx => Function.update_of_ne (h.owned.apart hb x hx) _ _⟩

lemma Good.read (h : s.Good deviceIP) {k fuel : ℕ} {stream : ByteStream}
    (hs : s.read k fuel stream = some s') : s'.Good deviceIP := by
  obtain ⟨r, hr, hs⟩ := Option.bind_eq_some_iff.mp hs
  cases r with
  | empty b =>
    have hpos := count_readers_pos hr (b := b) (List.mem_singleton_self b)
    obtain ⟨⟨size | size, stream'⟩, -, hs⟩ := Option.bind_eq_some_iff.mp hs
    · cases hs
      exact h.returnBuf hr rfl rfl
    · obtain ⟨⟨packet, n, err, r'⟩, -, hs⟩ := Option.bind_eq_some_iff.mp hs
      have hstore := h.store (by omega) packet (b := b)
      cases err with
      | some err =>
        cases hs
        exact hstore.returnBuf hr rfl rfl
      | none =>
        cases hs
        refine hstore.frame (hstore.owned.same rfl fun x => ?_)
          ⟨rfl, rfl, ⟨rfl, rfl, rfl, rfl⟩, fun _ _ => rfl⟩
        have hcount := count_readers hr (.full b) x
        simp only [Reading.bufs] at hcount
        simp only [outside, InboundPath.store]
        omega
  | idle => cases hs
  | full b => cases hs
  | returned => cases hs

lemma Good.hand (h : s.Good deviceIP) {k : ℕ} (hs : s.hand k = some s') : s'.Good deviceIP := by
  obtain ⟨r, hr, hs⟩ := Option.bind_eq_some_iff.mp hs
  cases r with
  | full b =>
    dsimp only at hs
    by_cases hc : s.inboundCh.closed = true
    · rw [if_pos hc] at hs
      cases hs
      exact h.returnBuf hr rfl rfl
    · rw [if_neg hc] at hs
      rcases hch : s.inboundCh.trySend b with ch | _ | _ <;> rw [hch] at hs <;> cases hs
      · -- the packet enters the queue
        have hbuf := Chan.trySend_buf hch
        obtain ⟨taken, h1, h2, h3⟩ := h.fifo
        refine ⟨h.owned.same rfl fun x => ?_, ⟨taken, ?_, h2, h3⟩, h.writes⟩
        · have hcount := count_readers hr .idle x
          simp only [Reading.bufs, count_singleton_ite, List.count_nil] at hcount
          simp only [outside, hbuf, List.count_append, count_singleton_ite]
          omega
        · dsimp only
          rw [hbuf, h1, contentsOf, contentsOf, List.map_append, List.append_assoc]
          rfl
      · exact h.returnBuf hr rfl rfl
  | idle => cases hs
  | empty b => cases hs
  | returned => cases hs

lemma Good.othersTake (h : s.Good deviceIP) {got : Option Buf}
    (hs : s.othersTake got = some s') : s'.Good deviceIP := by
  obtain ⟨⟨b, pool⟩, hg, hs⟩ := Option.bind_eq_some_iff.mp hs
  cases hs
  refine h.frame (h.owned.get hg rfl fun x => ?_) ⟨rfl, rfl, ⟨rfl, rfl, rfl, rfl⟩, fun _ _ => rfl⟩
  simp only [outside, Buffers.count_cons_ite]
  omega

lemma Good.othersStore (h : s.Good deviceIP) {packet : Packet}
    (hs : s.othersStore b packet = some s') : s'.Good deviceIP := by
  unfold InboundPath.othersStore at hs
  split_ifs at hs with hb
  cases hs
  have := List.count_pos_iff.mpr hb
  exact h.store (by omega) packet

lemma Good.othersPut (h : s.Good deviceIP) (hs : s.othersPut b = some s') :
    s'.Good deviceIP := by
  unfold InboundPath.othersPut at hs
  split_ifs at hs with hb
  cases hs
  have hpos := List.count_pos_iff.mpr hb
  refine h.frame (h.owned.put rfl fun x => ?_) ⟨rfl, rfl, ⟨rfl, rfl, rfl, rfl⟩, fun x hx => ?_⟩
  · simp only [outside, putTempPacket]
    by_cases hx : x = b
    · subst hx
      rw [List.count_erase_self, if_pos rfl]
      omega
    · rw [List.count_erase_of_ne hx, if_neg hx, Nat.add_zero]
  · exact Function.update_of_ne (h.owned.apart (by omega) x hx) _ _

lemma Good.collect (h : s.Good deviceIP) {pool : Pool} (hc : s.pool.collect b = some pool) :
    Good deviceIP { s with pool := pool } :=
  h.frame (h.owned.collect hc rfl fun _ => rfl) ⟨rfl, rfl, ⟨rfl, rfl, rfl, rfl⟩, fun _ _ => rfl⟩

lemma Good.close (h : s.Good deviceIP) (hs : s.close = some s') : s'.Good deviceIP := by
  unfold InboundPath.close at hs
  split_ifs at hs
  cases hs
  exact h.frame (h.owned.same rfl fun _ => rfl) ⟨rfl, rfl, ⟨rfl, rfl, rfl, rfl⟩, fun _ _ => rfl⟩

/-! ### The queue -/

/-- The oldest packet leaves the queue. -/
lemma Owned.recv (h : s.Owned) {ch : Chan Buf} (hch : s.inboundCh.recv = some (b, ch)) :
    (∀ x ∈ ch.buf, x ≠ b) ∧ some b ∉ s.handler.batch.packetsBatch := by
  have honce := h.once b
  rw [outside, Chan.recv_buf hch, List.count_cons_self] at honce
  refine ⟨?_, fun hm => ?_⟩
  · rintro x hx rfl
    have := List.count_pos_iff.mpr hx
    omega
  · have := List.count_pos_iff.mpr hm
    omega

lemma Good.drain (h : s.Good deviceIP) (hs : s.drain = some s') : s'.Good deviceIP := by
  unfold InboundPath.drain at hs
  split_ifs at hs
  obtain ⟨⟨b, ch⟩, hch, hs⟩ := Option.bind_eq_some_iff.mp hs
  cases hs
  obtain ⟨hqueue, hbatch⟩ := h.owned.recv hch
  obtain ⟨taken, h1, h2, h3⟩ := h.fifo
  obtain ⟨batches, cs, h4, h5, h6⟩ := h.writes
  refine ⟨h.owned.put rfl fun x => ?_, ⟨taken ++ [(false, (s.mem b).content)], ?_, ?_, ?_⟩,
    batches, cs, h4, h5, h6.congr fun x hx => ?_⟩
  · simp only [outside, putTempPacket, Chan.recv_buf hch, Buffers.count_cons_ite]
    omega
  · have hkeep : contentsOf (s.putTempPacket b).mem ch.buf = contentsOf s.mem ch.buf :=
      contentsOf_congr fun x hx => Function.update_of_ne (hqueue x hx) _ _
    dsimp only
    rw [hkeep, List.map_append, List.append_assoc, show (s.putTempPacket b).enqueued = s.enqueued
      from rfl, h1, Chan.recv_buf hch]
    rfl
  · rw [List.filter_append, List.map_append, ← h2]
    exact (List.append_nil _).symm
  · rw [List.filter_append, List.map_append, ← h3]
    rfl
  · refine Function.update_of_ne ?_ _ _
    rintro rfl
    exact hbatch hx

/-- What the handler takes is the next packet of the queue. -/
lemma Good.fifo_recv (h : s.Good deviceIP) {ch : Chan Buf} (hch : s.inboundCh.recv = some (b, ch)) :
    ∃ taken : List (Bool × List UInt8),
      s.enqueued = taken.map Prod.snd ++ contentsOf s.mem ch.buf ∧
      s.handled ++ [(s.mem b).content] = (taken.filter Prod.fst).map Prod.snd ∧
      s.drained = (taken.filter fun t => !t.1).map Prod.snd := by
  obtain ⟨taken, h1, h2, h3⟩ := h.fifo
  refine ⟨taken ++ [(true, (s.mem b).content)], ?_, ?_, ?_⟩
  · rw [h1, Chan.recv_buf hch, List.map_append, List.append_assoc]
    rfl
  · rw [List.filter_append, List.map_append, ← h2]
    rfl
  · rw [List.filter_append, List.map_append]
    simpa using h3

/-! ### The handler -/

/-- The handler goes on with its batch as it is. -/
lemma Good.goOn (h : s.Good deviceIP) {handler : Handler}
    (hh : handler.batch.packetsBatch = s.handler.batch.packetsBatch)
    {batches : List (List (List UInt8))} {cs : List (List UInt8)}
    (h4 : s.handled = batches.flatten ++ cs)
    (h5 : List.Forall₂ (WrittenAs deviceIP) batches s.written)
    (h6 : Handling deviceIP s.mem handler cs) : Good deviceIP { s with handler := handler } :=
  ⟨h.owned.same rfl fun x => by simp only [outside, hh], h.fifo, batches, cs, h4, h5, h6⟩

lemma count_some_concat (slots : List (Option Buf)) (b x : Buf) :
    (slots ++ [some b]).count (some x) = slots.count (some x) + if x = b then 1 else 0 := by
  rw [List.count_append, List.count_singleton]
  by_cases hx : x = b
  · simp [hx]
  · simp [hx, Ne.symm hx]

/-- A packet more in the batch. -/
lemma Owned.gathered (h : s.Owned) {ch : Chan Buf} (hch : s.inboundCh.recv = some (b, ch))
    (hp : s'.pool = s.pool) (hr : s'.readers = s.readers) (ho : s'.others = s.others)
    (hq : s'.inboundCh = ch)
    (hb : s'.handler.batch.packetsBatch = s.handler.batch.packetsBatch ++ [some b]) :
    s'.Owned := by
  refine h.same hp fun x => ?_
  simp only [outside, hr, ho, hq, hb, Chan.recv_buf hch, Buffers.count_cons_ite,
    count_some_concat]
  omega

lemma Good.gather (h : s.Good deviceIP) {batchSize : ℕ} (hs : s.gather batchSize = some s') :
    s'.Good deviceIP := by
  obtain ⟨batches, cs, h4, h5, h6⟩ := h.writes
  unfold InboundPath.gather at hs
  rcases hp : s.handler.phase with _ | _ | i | i | _ | i | _ <;> rw [hp] at hs <;>
    dsimp only at hs
  · rw [Handling, hp] at h6
    obtain ⟨hbatch, rfl⟩ := h6
    rcases hch : s.inboundCh.recv with _ | ⟨b, ch⟩ <;> rw [hch] at hs <;> dsimp only at hs
    · split_ifs at hs
      cases hs
      exact h.goOn rfl h4 h5 ⟨hbatch, rfl⟩
    · cases hs
      refine ⟨h.owned.gathered hch rfl rfl rfl rfl ?_, h.fifo_recv hch, batches,
        [(s.mem b).content], ?_, h5, [b], rfl, by simp, rfl⟩
      · rw [hbatch]
        rfl
      · dsimp only
        rw [h4, List.append_nil]
  · rw [Handling, hp] at h6
    obtain ⟨bs, hbatch, hne, rfl⟩ := h6
    have hstart : (s.toPhase (.parse 0)).Good deviceIP :=
      h.goOn rfl h4 h5 ⟨[], bs, hbatch, rfl, hne, rfl, by simp⟩
    split_ifs at hs
    · cases hs
      exact hstart
    · rcases hch : s.inboundCh.recv with _ | ⟨b, ch⟩ <;> rw [hch] at hs <;> cases hs
      · exact hstart
      · refine ⟨h.owned.gathered hch rfl rfl rfl rfl rfl, h.fifo_recv hch, batches,
          contentsOf s.mem (bs ++ [b]), ?_, h5, ?_⟩
        · dsimp only
          rw [h4, List.append_assoc, contentsOf, contentsOf, List.map_append]
          rfl
        · rw [Handling]
          dsimp only
          rw [hp, hbatch]
          exact ⟨bs ++ [b], by simp, by simp, rfl⟩
  all_goals cases hs

/-- The packet in a slot of the batch is in no other slot, and not in the queue. -/
lemma Owned.slot (h : s.Owned) {seen rest : List Buf}
    (hb : s.handler.batch.packetsBatch = (seen ++ b :: rest).map some) :
    (∀ x ∈ s.inboundCh.buf, x ≠ b) ∧ (∀ x ∈ seen, x ≠ b) ∧ ∀ x ∈ rest, x ≠ b := by
  have honce := h.once b
  rw [outside, hb, List.count_map_of_injective _ _ (Option.some_injective _), List.count_append,
    List.count_cons_self] at honce
  refine ⟨?_, ?_, ?_⟩ <;> rintro x hx rfl <;> have := List.count_pos_iff.mpr hx <;> omega

/-- All packets so far were accepted: nothing has been moved. -/
lemma parsing_of_accepted {parse : Buf → Bool} {seen : List Buf} (rest : List Buf)
    (h : ∀ b ∈ seen, parse b = true) :
    Inbound.parsing parse seen rest = ⟨(seen ++ rest).map some, seen.length, []⟩ := by
  have hfilter : seen.filter parse = seen := List.filter_eq_self.mpr h
  have hnone : seen.filter (fun b => !parse b) = [] :=
    List.filter_eq_nil_iff.mpr fun b hb => by simp [h b hb]
  rw [Inbound.parsing, hfilter, hnone, List.drop_of_length_le (by simp), List.nil_append,
    ← List.map_append]

lemma parse_parsed {p q : Packet} (h : p.parse = some q) : q.parse = some q := by
  have hcontent := Transit.Link.parse_content h
  unfold Packet.parse at h ⊢
  rw [hcontent]
  rcases hc : p.content with _ | ⟨v, bytes⟩ <;> rw [hc] at h <;> dsimp only at h ⊢
  · cases h
  · split_ifs at h ⊢ <;> cases h
    · rfl
    · rfl

/-- The handler has written to a buffer of its batch. -/
lemma Good.slot (h : s.Good deviceIP) {seen rest : List Buf} {packet : Packet} {handler : Handler}
    (hb : s.handler.batch.packetsBatch = (seen ++ b :: rest).map some)
    (hh : handler.batch.packetsBatch = s.handler.batch.packetsBatch)
    {batches : List (List (List UInt8))} {cs : List (List UInt8)}
    (h4 : s.handled = batches.flatten ++ cs)
    (h5 : List.Forall₂ (WrittenAs deviceIP) batches s.written)
    (h6 : Handling deviceIP (Function.update s.mem b packet) handler cs) :
    Good deviceIP { s.store b packet with handler := handler } := by
  obtain ⟨taken, h1, h2, h3⟩ := h.fifo
  have hmem : some b ∈ s.handler.batch.packetsBatch := by
    rw [hb]
    exact List.mem_map_of_mem (List.mem_append_right _ List.mem_cons_self)
  have hout : 0 < s.outside b := by
    have := List.count_pos_iff.mpr hmem
    unfold outside
    omega
  refine ⟨h.owned.use hout rfl fun x => ?_, ⟨taken, ?_, h2, h3⟩, batches, cs, h4, h5, h6⟩
  · simp only [outside, hh, InboundPath.store]
  · have hkeep : contentsOf (s.store b packet).mem s.inboundCh.buf =
        contentsOf s.mem s.inboundCh.buf :=
      contentsOf_congr fun x hx => Function.update_of_ne ((h.owned.slot hb).1 x hx) _ _
    exact h1.trans (by rw [← hkeep]; rfl)

lemma contentsOf_update {mem : Buf → Packet} {packet : Packet}
    (h : packet.content = (mem b).content) (bs : List Buf) :
    contentsOf (Function.update mem b packet) bs = contentsOf mem bs := by
  refine List.map_congr_left fun x _ => ?_
  by_cases hx : x = b
  · rw [hx, Function.update_self, h]
  · rw [Function.update_of_ne hx]

/-- What the handler has taken from the queue was put there. -/
lemma Good.handled_sublist (h : s.Good deviceIP) : s.handled.Sublist s.enqueued := by
  obtain ⟨taken, h1, h2, -⟩ := h.fifo
  rw [h1, h2]
  exact (List.filter_sublist.map _).trans (List.sublist_append_left _ _)

lemma Good.parse (h : s.Good deviceIP) (hacc : ∀ c ∈ s.enqueued, Accepted c)
    (hs : s.parse = some s') : s'.Good deviceIP := by
  obtain ⟨batches, cs, h4, h5, h6⟩ := h.writes
  unfold InboundPath.parse at hs
  rcases hp : s.handler.phase with _ | _ | i | i | _ | i | _ <;> rw [hp] at hs <;>
    dsimp only at hs
  case parse =>
    rw [Handling, hp] at h6
    obtain ⟨seen, rest, hbatch, rfl, hne, rfl, hparsed⟩ := h6
    rcases rest with _ | ⟨b, rest⟩
    · -- the end of the loop
      have hpos : 0 < s.handler.batch.newLen := by
        rw [hbatch]
        exact List.length_pos_iff.mpr (by simpa using hne)
      have hend : s.handler.batch.packetsBatch[seen.length]? = none := by
        rw [hbatch]
        exact List.getElem?_eq_none (by simp)
      rw [hend] at hs
      dsimp only at hs
      rw [if_pos hpos] at hs
      cases hs
      refine h.goOn rfl h4 h5 ⟨[], seen, [], ?_, rfl, by simp, List.Forall₂.nil, hparsed⟩
      rw [hbatch]
      simp
    · have hslot : s.handler.batch.packetsBatch[seen.length]? = some (some b) := by
        simp [hbatch]
      have hmem : (s.mem b).content ∈ s.enqueued := by
        refine h.handled_sublist.subset ?_
        rw [h4]
        exact List.mem_append_right _ (List.mem_map_of_mem
          (List.mem_append_right _ List.mem_cons_self))
      obtain ⟨packet, hpacket⟩ := Option.isSome_iff_exists.mp (hacc _ hmem (s.mem b) rfl)
      have hnext : s.handler.batch.parseSlot (fun b => (s.mem b).parse.isSome) seen.length =
          some ⟨(seen ++ b :: rest).map some, seen.length + 1, []⟩ := by
        have hseen : ∀ x ∈ seen, (fun b => (s.mem b).parse.isSome) x = true := fun x hx => by
          simp [hparsed x hx]
        have hb : (fun b => (s.mem b).parse.isSome) b = true := by simp [hpacket]
        rw [hbatch, ← parsing_of_accepted (b :: rest) hseen, Inbound.parseSlot_accepted _ _ hb,
          parsing_of_accepted rest (by simpa [or_imp, forall_and] using ⟨hseen, hb⟩)]
        simp
      rw [hslot] at hs
      dsimp only at hs
      rw [hnext, hpacket] at hs
      cases hs
      have hslots : s.handler.batch.packetsBatch = (seen ++ b :: rest).map some := by rw [hbatch]
      obtain ⟨-, hseen, hrest⟩ := h.owned.slot hslots
      refine h.slot hslots hslots.symm h4 h5 ?_
      refine ⟨seen ++ [b], rest, ?_, by simp, by simp, ?_, fun x hx => ?_⟩
      · simp
      · rw [contentsOf_update (Transit.Link.parse_content hpacket), List.append_assoc]
        rfl
      · rcases List.mem_append.mp hx with hx | hx
        · rw [Function.update_of_ne (hseen x hx)]
          exact hparsed x hx
        · rw [List.mem_singleton.mp hx, Function.update_self]
          exact parse_parsed hpacket
  all_goals cases hs

lemma copyAt_isIPv6 {p q : Packet} {off : ℕ} {bs : List UInt8} (h : p.copyAt off bs = some q) :
    q.isIPv6 = p.isIPv6 := by
  unfold Packet.copyAt at h
  split_ifs at h
  cases h
  rfl

lemma putUint16_isIPv6 {p q : Packet} {off : ℕ} {v : UInt16} (h : p.putUint16 off v = some q) :
    q.isIPv6 = p.isIPv6 := by
  unfold Packet.putUint16 at h
  split_ifs at h
  cases h
  rfl

lemma recalculateTransport_isIPv6 {p q : Packet} {ipHeaderLen off : ℕ} {protocol : UInt8}
    (h : p.recalculateTransport ipHeaderLen off protocol = some q) : q.isIPv6 = p.isIPv6 := by
  obtain ⟨p₁, h₁, h⟩ := Option.bind_eq_some_iff.mp h
  obtain ⟨payload, -, h⟩ := Option.bind_eq_some_iff.mp h
  obtain ⟨sum, -, h⟩ := Option.bind_eq_some_iff.mp h
  exact (putUint16_isIPv6 h).trans (copyAt_isIPv6 h₁)

lemma recalculateChecksum_isIPv6 {p q : Packet} (h : p.recalculateChecksum = some q) :
    q.isIPv6 = p.isIPv6 := by
  unfold Packet.recalculateChecksum at h
  by_cases hv : p.isIPv6 = true
  · rw [if_pos hv] at h
    cases h
    rfl
  · rw [if_neg hv] at h
    obtain ⟨v, -, h⟩ := Option.bind_eq_some_iff.mp h
    obtain ⟨p₁, h₁, h⟩ := Option.bind_eq_some_iff.mp h
    obtain ⟨header, -, h⟩ := Option.bind_eq_some_iff.mp h
    obtain ⟨p₂, h₂, h⟩ := Option.bind_eq_some_iff.mp h
    obtain ⟨protocol, -, h⟩ := Option.bind_eq_some_iff.mp h
    have hheader := (putUint16_isIPv6 h₂).trans (copyAt_isIPv6 h₁)
    split_ifs at h
    · exact (recalculateTransport_isIPv6 h).trans hheader
    · exact (recalculateTransport_isIPv6 h).trans hheader
    · cases h
      exact hheader

lemma Good.rewrite (h : s.Good deviceIP) (hs : s.rewrite deviceIP = some s') :
    s'.Good deviceIP := by
  obtain ⟨batches, cs, h4, h5, h6⟩ := h.writes
  unfold InboundPath.rewrite at hs
  rcases hp : s.handler.phase with _ | _ | i | i | _ | i | _ <;> rw [hp] at hs <;>
    dsimp only at hs
  case rewrite =>
    rw [Handling, hp] at h6
    obtain ⟨seen, rest, done, hbatch, rfl, rfl, hdone, hparsed⟩ := h6
    have htake : s.handler.batch.packetsBatch.take s.handler.batch.newLen =
        (seen ++ rest).map some := by
      rw [hbatch]
      exact List.take_of_length_le (by simp)
    rw [htake] at hs
    rcases rest with _ | ⟨b, rest⟩
    · rw [List.getElem?_eq_none (by simp)] at hs
      cases hs
      refine h.goOn rfl h4 h5 ⟨seen, ?_, ?_⟩
      · rw [hbatch, List.append_nil]
      · simpa [contentsOf] using hdone
    · have hslot : ((seen ++ b :: rest).map some)[seen.length]? = some (some b) := by simp
      have hb := hparsed b List.mem_cons_self
      have hrest : ∀ x ∈ rest, (s.mem x).parse = some (s.mem x) := fun x hx =>
        hparsed x (List.mem_cons_of_mem b hx)
      rw [hslot] at hs
      dsimp only at hs
      by_cases hv : (s.mem b).isIPv6 = true
      · rw [if_pos hv] at hs
        cases hs
        refine h.goOn rfl h4 h5 ⟨seen ++ [b], rest, done ++ [(s.mem b).content], ?_, ?_, ?_, ?_,
          hrest⟩
        · rw [hbatch]
          simp
        · simp
        · simp [contentsOf]
        · exact List.rel_append hdone (.cons ⟨s.mem b, rfl, hb, Or.inl ⟨hv, rfl⟩⟩ .nil)
      · rw [if_neg hv] at hs
        obtain ⟨packet, hpacket, hs⟩ := Option.bind_eq_some_iff.mp hs
        cases hs
        have hslots : s.handler.batch.packetsBatch = (seen ++ b :: rest).map some := by
          rw [hbatch]
        obtain ⟨-, hseen', hrest'⟩ := h.owned.slot hslots
        refine h.slot hslots rfl h4 h5 ?_
        refine ⟨seen ++ [b], rest, done ++ [(s.mem b).content], ?_, by simp, ?_, ?_,
          fun x hx => ?_⟩
        · show s.handler.batch = _
          rw [hbatch]
          simp
        · rw [contentsOf_congr fun x hx => Function.update_of_ne (hrest' x hx) _ _]
          simp [contentsOf]
        · refine List.rel_append (forall₂_imp_of_mem hdone fun c x hx hc => ?_)
            (.cons ⟨s.mem b, rfl, hb, Or.inr ⟨by simpa using hv, ?_⟩⟩ .nil)
          · rwa [Function.update_of_ne (hseen' x hx)]
          · rw [Function.update_self]
            exact hpacket
        · rw [Function.update_of_ne (hrest' x hx)]
          exact hrest x hx
  all_goals cases hs

/-- What is written of a packet that the loop has been over. -/
lemma Rewrote.outcome {senderIP : IP} {c : List UInt8} {p : Packet}
    (h : Rewrote deviceIP senderIP c p) :
    Outcome deviceIP senderIP c (if p.isIPv6 then none else some p.written) := by
  obtain ⟨q, hc, hq, ⟨hv, rfl⟩ | ⟨hv, hp⟩⟩ := h
  · rw [if_pos hv]
    exact ⟨p, p, hc, hq, hv⟩
  · have hv' : p.isIPv6 = false := (recalculateChecksum_isIPv6 hp).trans hv
    rw [if_neg (by simp [hv'])]
    refine ⟨q, q, hc, hq, hv, ?_⟩
    rw [Packet.rewrite_eq, hp, Option.map_some]

lemma reduceOption_outcomes (mem : Buf → Packet) (bs : List Buf) :
    (bs.map fun b => if (mem b).isIPv6 then none else some (mem b).written).reduceOption =
      (bs.filter fun b => !(mem b).isIPv6).map fun b => (mem b).written := by
  induction bs with
  | nil => rfl
  | cons b bs ih =>
    by_cases hv : (mem b).isIPv6 = true
    · simp [hv, ih, List.reduceOption_cons_of_none]
    · simp [hv, ih, List.reduceOption_cons_of_some]

lemma Good.write (h : s.Good deviceIP) (hs : s.write = some s') : s'.Good deviceIP := by
  obtain ⟨batches, cs, h4, h5, h6⟩ := h.writes
  unfold InboundPath.write at hs
  rcases hp : s.handler.phase with _ | _ | i | i | _ | i | _ <;> rw [hp] at hs <;>
    dsimp only at hs
  case write =>
    cases hs
    rw [Handling, hp] at h6
    obtain ⟨bs, hbatch, hdone⟩ := h6
    have hbufs : s.bufs = bs.filter fun b => !(s.mem b).isIPv6 := by
      rw [bufs, hbatch]
      dsimp only
      rw [List.take_of_length_le (by simp), List.reduceOption, List.filterMap_map,
        Function.id_comp, List.filterMap_some]
    refine ⟨h.owned.useAll (fun b hb => ?_) rfl fun _ => rfl, h.fifo, batches ++ [cs], [], ?_,
      List.rel_append h5 (.cons ⟨bs.map fun b =>
        if (s.mem b).isIPv6 then none else some (s.mem b).written, ?_, ?_⟩ .nil), rfl, bs, ?_⟩
    · rw [hbufs] at hb
      have hmem : some b ∈ s.handler.batch.packetsBatch := by
        rw [hbatch]
        exact List.mem_map_of_mem (List.mem_of_mem_filter hb)
      have := List.count_pos_iff.mpr hmem
      unfold outside
      omega
    · rw [List.flatten_append, List.append_nil, List.flatten_singleton]
      exact h4
    · exact List.forall₂_map_right_iff.mpr (hdone.imp fun c b hc => hc.outcome)
    · rw [reduceOption_outcomes, hbufs]
    · show s.handler.batch.packetsBatch = _
      rw [hbatch]
      rfl
  all_goals cases hs

lemma Good.release (h : s.Good deviceIP) (hs : s.release = some s') : s'.Good deviceIP := by
  obtain ⟨batches, cs, h4, h5, h6⟩ := h.writes
  unfold InboundPath.release at hs
  rcases hp : s.handler.phase with _ | _ | i | i | _ | i | _ <;> rw [hp] at hs <;>
    dsimp only at hs
  case release =>
    rw [Handling, hp] at h6
    obtain ⟨rfl, rest, hbatch⟩ := h6
    rcases rest with _ | ⟨b, rest⟩
    · have hend : s.handler.batch.packetsBatch[i]? = none := by
        rw [hbatch]
        exact List.getElem?_eq_none (by simp)
      rw [hend] at hs
      cases hs
      refine ⟨h.owned.same rfl fun x => ?_, h.fifo, batches, [], h4, h5, rfl, rfl⟩
      simp [outside, hbatch, Handler.init, List.count_replicate]
    · have hslot : s.handler.batch.packetsBatch[i]? = some (some b) := by
        rw [hbatch]
        simp
      have hnext : s.handler.batch.releaseSlot i =
          some { s.handler.batch with
            packetsBatch := s.handler.batch.packetsBatch.set i none
            released := s.handler.batch.released ++ [b] } := by
        rw [Inbound.releaseSlot, hslot]
      rw [hslot] at hs
      dsimp only at hs
      rw [hnext] at hs
      cases hs
      obtain ⟨taken, h1, h2, h3⟩ := h.fifo
      have hqueue : ∀ x ∈ s.inboundCh.buf, x ≠ b := by
        rintro x hx rfl
        have honce := h.owned.once x
        have hq := List.count_pos_iff.mpr hx
        have hb := List.count_pos_iff.mpr (List.mem_of_getElem? hslot)
        unfold outside at honce
        omega
      refine ⟨h.owned.put rfl fun x => ?_, ⟨taken, ?_, h2, h3⟩, batches, [], h4, h5, rfl, rest, ?_⟩
      · have hcount := Buffers.count_set_none hslot x
        simp only [outside, putTempPacket]
        omega
      · have hkeep : contentsOf (s.putTempPacket b).mem s.inboundCh.buf =
            contentsOf s.mem s.inboundCh.buf :=
          contentsOf_congr fun x hx => Function.update_of_ne (hqueue x hx) _ _
        exact h1.trans (by rw [← hkeep]; rfl)
      · show s.handler.batch.packetsBatch.set i none = _
        rw [hbatch, List.set_append_right _ _ (by simp), List.length_replicate, Nat.sub_self,
          List.map_cons, List.set_cons_zero, List.replicate_succ', List.append_assoc]
        rfl
  all_goals cases hs

/-! ### Runs -/

/-- What has entered the queue stays in the record. -/
lemma enqueued_step {batchSize : ℕ} {e : Event} (hs : s.step deviceIP batchSize e = some s') :
    s.enqueued <+: s'.enqueued := by
  cases e with
  | hand k =>
    obtain ⟨r, hr, hs⟩ := Option.bind_eq_some_iff.mp hs
    cases r with
    | full b =>
      dsimp only at hs
      by_cases hc : s.inboundCh.closed = true
      · rw [if_pos hc] at hs
        cases hs
        exact List.prefix_rfl
      · rw [if_neg hc] at hs
        rcases hch : s.inboundCh.trySend b with ch | _ | _ <;> rw [hch] at hs <;> cases hs
        · exact List.prefix_append _ _
        · exact List.prefix_rfl
    | _ => cases hs
  | take k got =>
    obtain ⟨r, hr, hs⟩ := Option.bind_eq_some_iff.mp hs
    cases r with
    | idle =>
      obtain ⟨⟨b, pool⟩, -, hs⟩ := Option.bind_eq_some_iff.mp hs
      cases hs
      exact List.prefix_rfl
    | _ => cases hs
  | read k fuel stream =>
    obtain ⟨r, hr, hs⟩ := Option.bind_eq_some_iff.mp hs
    cases r with
    | empty b =>
      obtain ⟨⟨size | size, stream'⟩, -, hs⟩ := Option.bind_eq_some_iff.mp hs
      · cases hs
        exact List.prefix_rfl
      · obtain ⟨⟨packet, n, err, r'⟩, -, hs⟩ := Option.bind_eq_some_iff.mp hs
        cases err <;> cases hs <;> exact List.prefix_rfl
    | _ => cases hs
  | othersTake got =>
    obtain ⟨⟨b, pool⟩, -, hs⟩ := Option.bind_eq_some_iff.mp hs
    cases hs
    exact List.prefix_rfl
  | collect b =>
    obtain ⟨pool, -, hs⟩ := Option.map_eq_some_iff.mp hs
    rw [← hs]
  | gather =>
    change s.gather batchSize = some s' at hs
    unfold InboundPath.gather at hs
    repeat' split at hs
    all_goals cases hs
    all_goals exact List.prefix_rfl
  | parse =>
    change s.parse = some s' at hs
    unfold InboundPath.parse at hs
    split at hs
    · split at hs
      · cases hs
        exact List.prefix_rfl
      · cases hs
      · obtain ⟨batch, -, hs⟩ := Option.bind_eq_some_iff.mp hs
        split at hs <;> cases hs <;> exact List.prefix_rfl
    · cases hs
  | rewrite =>
    change s.rewrite deviceIP = some s' at hs
    unfold InboundPath.rewrite at hs
    split at hs
    · split at hs
      · cases hs
        exact List.prefix_rfl
      · cases hs
      · split_ifs at hs
        · cases hs
          exact List.prefix_rfl
        · obtain ⟨packet, -, hs⟩ := Option.bind_eq_some_iff.mp hs
          cases hs
          exact List.prefix_rfl
    · cases hs
  | write =>
    change s.write = some s' at hs
    unfold InboundPath.write at hs
    split at hs <;> cases hs
    exact List.prefix_rfl
  | release =>
    change s.release = some s' at hs
    unfold InboundPath.release at hs
    split at hs
    · split at hs
      · cases hs
        exact List.prefix_rfl
      · obtain ⟨batch, -, hs⟩ := Option.bind_eq_some_iff.mp hs
        split at hs <;> cases hs <;> exact List.prefix_rfl
    · cases hs
  | drain =>
    change s.drain = some s' at hs
    unfold InboundPath.drain at hs
    split_ifs at hs
    obtain ⟨⟨b, ch⟩, -, hs⟩ := Option.bind_eq_some_iff.mp hs
    cases hs
    exact List.prefix_rfl
  | close =>
    change s.close = some s' at hs
    unfold InboundPath.close at hs
    split_ifs at hs
    cases hs
    exact List.prefix_rfl
  | othersStore b packet =>
    change s.othersStore b packet = some s' at hs
    unfold InboundPath.othersStore at hs
    split_ifs at hs
    cases hs
    exact List.prefix_rfl
  | othersPut b =>
    change s.othersPut b = some s' at hs
    unfold InboundPath.othersPut at hs
    split_ifs at hs
    cases hs
    exact List.prefix_rfl
  | accept =>
    cases hs
    exact List.prefix_rfl
  | move newLocalIP =>
    cases hs
    exact List.prefix_rfl

/-- **One step** keeps the buffers apart and the packets as they are. -/
lemma Good.step (h : s.Good deviceIP) (hacc : ∀ c ∈ s.enqueued, Accepted c) {batchSize : ℕ}
    {e : Event} (hs : s.step deviceIP batchSize e = some s') : s'.Good deviceIP := by
  cases e with
  | accept =>
    cases hs
    exact h.accept
  | take k got => exact h.take hs
  | read k fuel stream => exact h.read hs
  | hand k => exact h.hand hs
  | gather => exact h.gather hs
  | parse => exact h.parse hacc hs
  | rewrite => exact h.rewrite hs
  | write => exact h.write hs
  | release => exact h.release hs
  | move newLocalIP =>
    cases hs
    exact h.frame (h.owned.same rfl fun _ => rfl) ⟨rfl, rfl, ⟨rfl, rfl, rfl, rfl⟩, fun _ _ => rfl⟩
  | close => exact h.close hs
  | drain => exact h.drain hs
  | othersTake got => exact h.othersTake hs
  | othersStore b packet => exact h.othersStore hs
  | othersPut b => exact h.othersPut hs
  | collect b =>
    obtain ⟨pool, hc, rfl⟩ := Option.map_eq_some_iff.mp hs
    exact h.collect hc

/-- **A run.** What enters the queue on the way is in the record at the end, so each state is
good as long as `Parse` accepts what the record has by then. -/
lemma Good.run {batchSize : ℕ} (es : List Event) (h : s.Good deviceIP)
    (hs : s.run deviceIP batchSize es = some s') (hacc : ∀ c ∈ s'.enqueued, Accepted c) :
    s'.Good deviceIP := by
  refine Runs.foldlM_inv
    (I := fun s : InboundPath => (∀ c ∈ s.enqueued, Accepted c) → s.Good deviceIP)
    (fun s₁ e s₂ h₁ hstep hacc₂ => ?_) es (fun _ => h) hs hacc
  have hacc₁ : ∀ c ∈ s₁.enqueued, Accepted c := fun c hc =>
    hacc₂ c ((enqueued_step hstep).subset hc)
  exact (h₁ hacc₁).step hacc₁ hstep

/-- **The inbound path passes packets on by value.** As long as `Parse` accepts what enters the
queue, whatever the interleaving and however the buffers are used again: each buffer is in one
place and the pool is used as it should be; packets leave the queue in their order, to the
handler or to `Close`; and each call of `tun.Write` has what `WritePacketsBatch` makes of the
packets of one batch, just as they entered the queue. -/
theorem run_by_value {localIP : IP} {batchSize : ℕ} {es : List Event}
    (h : (init localIP).run deviceIP batchSize es = some s)
    (hacc : ∀ c ∈ s.enqueued, Accepted c) :
    (s.pool.Disciplined ∧ ∀ b, s.pool.free.count b + s.outside b ≤ 1) ∧
      (s.handled.Sublist s.enqueued ∧
        s.enqueued.Perm (s.handled ++ s.drained ++ contentsOf s.mem s.inboundCh.buf)) ∧
      ∃ batches rest, s.handled = batches.flatten ++ rest ∧
        (s.handler.phase = .idle → rest = []) ∧
        List.Forall₂ (WrittenAs deviceIP) batches s.written := by
  have hgood := Good.run es (good_init deviceIP localIP) h hacc
  obtain ⟨taken, h1, h2, h3⟩ := hgood.fifo
  obtain ⟨batches, rest, h4, h5, h6⟩ := hgood.writes
  refine ⟨⟨hgood.owned.log, hgood.owned.once⟩, ⟨hgood.handled_sublist, ?_⟩,
    batches, rest, h4, fun hp => ?_, h5⟩
  · rw [h1, h2, h3, ← List.map_append]
    exact ((List.filter_append_perm Prod.fst taken).map Prod.snd).symm.append_right _
  · rw [Handling, hp] at h6
    exact h6.2

/-- Two packets on a stream. The second is read while the first is in its buffer; the buffer of
the first is then used for something else. -/
def twoReads : List Event :=
  let frame (p : Packet) : ByteStream :=
    ⟨putUint64 p.content.length ++ p.content, fun _ => (7, false), 0⟩
  [.accept, .take 0 none, .read 0 100 (frame udpPacket), .hand 0, .gather, .gather, .take 0 none,
    .parse, .read 0 100 (frame udpPacket), .parse, .rewrite, .hand 0, .rewrite, .write, .release,
    .release, .othersTake (some 0), .othersStore 0 Packet.new, .gather, .gather, .parse, .parse,
    .rewrite, .rewrite, .write, .release, .release]

lemma accepted_udpPacket : Accepted udpPacket.content := fun _ hp =>
  (Transit.Link.parse_isSome_congr hp).trans (by decide)

/-- Both arrive, each in a call of its own. -/
theorem twoReads_by_value : ∃ s, (init [10, 66, 0, 2]).run [10, 66, 0, 1] 128 twoReads = some s ∧
    (s.handled = [udpPacket.content, udpPacket.content] ∧ s.written.length = 2) ∧
    (s.pool.Disciplined ∧ ∀ b, s.pool.free.count b + s.outside b ≤ 1) ∧
      (s.handled.Sublist s.enqueued ∧
        s.enqueued.Perm (s.handled ++ s.drained ++ contentsOf s.mem s.inboundCh.buf)) ∧
      ∃ batches rest, s.handled = batches.flatten ++ rest ∧
        (s.handler.phase = .idle → rest = []) ∧
        List.Forall₂ (WrittenAs [10, 66, 0, 1]) batches s.written := by
  have hrun : ((init [10, 66, 0, 2]).run [10, 66, 0, 1] 128 twoReads).map
      (fun s => (s.enqueued, s.handled, s.written.length)) =
      some ([udpPacket.content, udpPacket.content], [udpPacket.content, udpPacket.content], 2) := by
    decide +kernel
  obtain ⟨s, hs, hlogs⟩ := Option.map_eq_some_iff.mp hrun
  obtain ⟨henqueued, hrest⟩ := Prod.mk.inj hlogs
  refine ⟨s, hs, Prod.mk.inj hrest, run_by_value hs fun c hc => ?_⟩
  rw [henqueued] at hc
  obtain rfl : c = udpPacket.content := by simpa using hc
  exact accepted_udpPacket

end InboundPath

end Awl
