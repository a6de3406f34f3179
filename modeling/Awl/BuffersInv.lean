import Awl.Buffers
import Mathlib.Data.List.ReduceOption

/-!
Every buffer is in one place.

The places are the pool, the batch of the TUN reader, the outbound queues and the batches of
the outbound handlers. Each step of `Awl.Buffers` moves at most one buffer, from a place where
it was to one other; so whatever the interleaving, a buffer is always in exactly one place, and
the record of the pool shows no buffer put back twice and none used while it is in the pool.
-/

namespace Awl

namespace Buffers

inductive Place
  | pool
  | reader
  | outbound (p : Ptr)
  | batch (h : ℕ)
  deriving DecidableEq

/-- In how many slots of a place a buffer is. -/
def count (s : Buffers) : Place → Buf → ℕ
  | .pool, b => s.pool.free.count b
  | .reader, b => s.reader.packets.count (some b)
  | .outbound p, b => (s.peers[p]?).elim 0 fun q => q.outboundCh.buf.count b
  | .batch h, b => (s.handlers[h]?).elim 0 fun x => x.packetsBatch.count b

/-- How far `bufs` agrees with `packets`. -/
def TunReader.filled (r : TunReader) : ℕ :=
  match r.phase with
  | .fill i => i
  | .read => r.packets.length
  | _ => 0

structure Inv (s : Buffers) : Prop where
  own : Exclusive s.count s.pool.Live
  log : s.pool.Disciplined
  bufs : s.reader.bufs.length = s.reader.packets.length
  filled : ∀ j < s.reader.filled, s.reader.bufs[j]? = s.reader.packets[j]?
  inbound : ∀ q ∈ s.peers, q.inboundCh.buf = []
  idle : ∀ x ∈ s.handlers, x.phase = .idle → x.packetsBatch = []

lemma inv_init (batchSize : ℕ) : (init batchSize).Inv where
  own := by
    refine ⟨fun b hb => absurd hb.1 (Nat.not_lt_zero b), fun b _ pl => ?_⟩
    cases pl <;> simp [init, count, Pool.empty, List.count_replicate]
  log := Pool.disciplined_empty
  bufs := by simp [init]
  filled := by simp [init, TunReader.filled]
  inbound := by simp [init]
  idle := by simp [init]

/-! ### Counting -/

lemma elim_set {α : Type} {l : List α} {i : ℕ} {a : α} (h : l[i]? = some a) (a' : α)
    (f : α → ℕ) (r : ℕ) :
    ((l.set i a')[r]?).elim 0 f = if r = i then f a' else (l[r]?).elim 0 f := by
  obtain ⟨hi, -⟩ := List.getElem?_eq_some_iff.mp h
  by_cases hr : r = i
  · subst hr
    simp [hi]
  · simp [hr, Ne.symm hr]

lemma count_cons_ite (b x : Buf) (l : List Buf) :
    (b :: l).count x = l.count x + if x = b then 1 else 0 := by
  rw [List.count_cons]
  by_cases hx : x = b
  · simp [hx]
  · simp [hx, Ne.symm hx]

lemma count_set_some {l : List (Option Buf)} {i : ℕ} (h : l[i]? = some none) (b x : Buf) :
    (l.set i (some b)).count (some x) = l.count (some x) + if x = b then 1 else 0 := by
  obtain ⟨hi, hget⟩ := List.getElem?_eq_some_iff.mp h
  rw [List.count_set hi, hget]
  by_cases hx : x = b
  · simp [hx]
  · simp [hx, Ne.symm hx]

lemma count_set_none {l : List (Option Buf)} {i : ℕ} {b : Buf} (h : l[i]? = some (some b))
    (x : Buf) :
    (l.set i none).count (some x) + (if x = b then 1 else 0) = l.count (some x) := by
  obtain ⟨hi, hget⟩ := List.getElem?_eq_some_iff.mp h
  have hpos : 0 < l.count (some b) := List.count_pos_iff.mpr (List.mem_of_getElem? h)
  rw [List.count_set hi, hget]
  by_cases hx : x = b
  · subst hx
    simp
    omega
  · simp [hx, Ne.symm hx]

lemma count_reader_pos {s : Buffers} {i : ℕ} {b : Buf}
    (h : s.reader.packets[i]? = some (some b)) : 0 < s.count .reader b :=
  List.count_pos_iff.mpr (List.mem_of_getElem? h)

lemma count_batch_pos {s : Buffers} {h : ℕ} {x : Handler} (hx : s.handlers[h]? = some x) {b : Buf}
    (hb : b ∈ x.packetsBatch) : 0 < s.count (.batch h) b := by
  simpa [count, hx] using hb

section

variable {s : Buffers} {b : Buf}

/-- A buffer outside the pool may be used. -/
lemma Inv.held (h : s.Inv) (pl : Place) (hpl : pl ≠ .pool) (hb : 0 < s.count pl b) :
    b ∉ s.pool.free ∧ b < s.pool.made :=
  h.own.held (fun _ => rfl) hpl hb

/-! ### Steps that move nothing -/

lemma Inv.use (h : s.Inv) (pl : Place) (hpl : pl ≠ .pool) (hb : 0 < s.count pl b) :
    Inv { s with pool := s.pool.use b } :=
  have hheld := h.held pl hpl hb
  { h with own := h.own.of_eq fun r x => by cases r <;> rfl, log := h.log.use hheld.1 hheld.2 }

lemma Inv.useAll (h : s.Inv) {bs : List Buf} (pl : Place) (hpl : pl ≠ .pool)
    (hbs : ∀ b ∈ bs, 0 < s.count pl b) : Inv { s with pool := s.pool.useAll bs } := by
  have hlive : (s.pool.useAll bs).Live = s.pool.Live := by
    funext x
    simp [Pool.Live]
  refine { h with
    own := hlive ▸ h.own.of_eq fun r x => ?_
    log := h.log.useAll fun b hb => h.held pl hpl (hbs b hb) }
  cases r <;> simp [count]

lemma Inv.withReader (h : s.Inv) {r : TunReader} (hp : r.packets = s.reader.packets)
    (hb : r.bufs.length = r.packets.length)
    (hf : ∀ j < r.filled, r.bufs[j]? = r.packets[j]?) : Inv { s with reader := r } :=
  { h with
    own := h.own.of_eq fun pl x => by cases pl <;> simp [count, hp]
    bufs := hb
    filled := hf }

lemma Inv.toPhase (h : s.Inv) {phase : ReaderPhase}
    (hf : ∀ j < ({ s.reader with phase := phase } : TunReader).filled,
      s.reader.bufs[j]? = s.reader.packets[j]?) : (s.toPhase phase).Inv :=
  h.withReader rfl h.bufs hf

/-- A handler changes its phase only. -/
lemma Inv.handlerPhase (h : s.Inv) {i : ℕ} {x : Handler} (hx : s.handlers[i]? = some x)
    (phase : HandlerPhase) (hidle : phase = .idle → x.packetsBatch = []) :
    Inv { s with handlers := s.handlers.set i { x with phase := phase } } := by
  refine { h with own := h.own.of_eq fun pl b => ?_, idle := fun y hy hphase => ?_ }
  · cases pl with
    | batch j =>
      simp only [count, elim_set hx]
      split_ifs with hj
      · rw [hj, hx]
        rfl
      · rfl
    | _ => rfl
  · rcases List.mem_or_eq_of_mem_set hy with hy | rfl
    · exact h.idle y hy hphase
    · exact hidle hphase

/-! ### Steps of the reader -/

lemma Inv.fill (h : s.Inv) {got : Option Buf} {s' : Buffers} (hs : s.fill got = some s') :
    s'.Inv := by
  unfold Buffers.fill at hs
  split at hs
  · rename_i i hphase
    have hfilled : ∀ j < i, s.reader.bufs[j]? = s.reader.packets[j]? := by
      intro j hj
      exact h.filled j (by simpa [TunReader.filled, hphase] using hj)
    split at hs
    · -- the batch is full: `bufs` agrees with it everywhere
      rename_i hend
      cases hs
      refine h.toPhase fun j hj => hfilled j ?_
      have hlen := List.getElem?_eq_none_iff.mp hend
      exact Nat.lt_of_lt_of_le hj hlen
    · rename_i hnone
      obtain ⟨⟨b, pool⟩, hget, hs⟩ := Option.bind_eq_some_iff.mp hs
      cases hs
      have hi := (List.getElem?_eq_some_iff.mp hnone).1
      refine
        { own := h.own.get (p := .pool) (q := .reader) (fun _ => rfl) hget fun r x => ?_
          log := h.log.get (h.own.free_lt (p := .pool) fun _ => rfl) hget
          bufs := by simpa using h.bufs
          filled := fun j hj => ?_
          inbound := h.inbound
          idle := h.idle }
      · cases r with
        | reader => simpa [count] using count_set_some hnone b x
        | pool => simp [count]
        | outbound p => simp [count]
        | batch k => simp [count]
      · have hj : j < i + 1 := hj
        by_cases hji : j = i
        · subst hji
          simp [hi, h.bufs]
        · rw [List.getElem?_set_ne (Ne.symm hji), List.getElem?_set_ne (Ne.symm hji)]
          exact hfilled j (by omega)
    · rename_i b hsome
      cases hs
      have hi := (List.getElem?_eq_some_iff.mp hsome).1
      refine (h.use .reader (by simp) (count_reader_pos hsome)).withReader rfl
        (by simpa using h.bufs) fun j hj => ?_
      have hj : j < i + 1 := hj
      by_cases hji : j = i
      · subst hji
        rw [List.getElem?_set_self (by rw [h.bufs]; exact hi), hsome]
      · rw [List.getElem?_set_ne (Ne.symm hji)]
        exact hfilled j (by omega)
  · cases hs

/-- When `tun.Read` is called, `bufs` are the buffers of the batch. -/
lemma Inv.bufs_eq (h : s.Inv) (hphase : s.reader.phase = .read) :
    s.reader.bufs = s.reader.packets := by
  refine List.ext_getElem? fun j => ?_
  by_cases hj : j < s.reader.packets.length
  · exact h.filled j (by simpa [TunReader.filled, hphase] using hj)
  · rw [List.getElem?_eq_none (by rw [h.bufs]; omega), List.getElem?_eq_none (by omega)]

lemma Inv.read (h : s.Inv) {sizes : List ℕ} {packetsCount : ℕ} {goesOn : Bool} {s' : Buffers}
    (hs : s.read sizes packetsCount goesOn = some s') : s'.Inv := by
  unfold Buffers.read at hs
  split at hs
  · rename_i hphase
    split_ifs at hs
    cases hs
    refine (h.useAll .reader (by simp) fun b hb => ?_).withReader rfl h.bufs
      (by simp [TunReader.filled])
    rw [h.bufs_eq hphase, List.reduceOption_mem_iff] at hb
    exact List.count_pos_iff.mpr hb
  · cases hs

/-- A packet that does not parse goes back to the pool. -/
lemma Inv.putSlot (h : s.Inv) {i : ℕ} (hb : s.reader.packets[i]? = some (some b))
    {phase : ReaderPhase} (hphase : ∀ r : TunReader, r.phase = phase → r.filled = 0) :
    Inv { s with
      pool := s.pool.put b
      reader := { s.reader with phase := phase, packets := s.reader.packets.set i none } } := by
  have hheld := h.held .reader (by simp) (count_reader_pos hb)
  refine
    { own := h.own.move (p := .reader) (q := .pool) (b := b) fun r x => ?_
      log := h.log.put hheld.1 hheld.2
      bufs := by simpa using h.bufs
      filled := fun j hj => ?_
      inbound := h.inbound
      idle := h.idle }
  · cases r with
    | reader => simpa [count] using count_set_none hb x
    | pool => simp [count, Pool.put, count_cons_ite]
    | outbound p => simp [count]
    | batch k => simp [count]
  · rw [hphase _ rfl] at hj
    omega

lemma Inv.parse (h : s.Inv) {okay : Bool} {s' : Buffers} (hs : s.parse okay = some s') :
    s'.Inv := by
  unfold Buffers.parse at hs
  split at hs
  · rename_i i hphase
    dsimp only at hs
    have huse : ∀ {b}, s.reader.packets[i]? = some (some b) →
        Inv { s with pool := s.pool.use b } :=
      fun hb => h.use .reader (by simp) (count_reader_pos hb)
    split_ifs at hs with hi hskip hrange hokay
    · cases hs
      exact h.toPhase (by simp [TunReader.filled])
    · split at hs
      · rename_i b hb
        cases hs
        exact (huse hb).toPhase (by simp [TunReader.filled])
      · cases hs
    · split at hs
      · rename_i b hb
        cases hs
        exact (huse hb).putSlot hb (by rintro r hr; simp [TunReader.filled, hr])
      · cases hs
  · cases hs

lemma Inv.enter (h : s.Inv) {isClosed : Bool} {s' : Buffers} (hs : s.enter isClosed = some s') :
    s'.Inv := by
  unfold Buffers.enter at hs
  split at hs
  · split_ifs at hs
    all_goals
      cases hs
      exact h.toPhase (by simp [TunReader.filled])
  · cases hs

/-- What a send does: the buffer is in the queue, or nothing has changed. -/
lemma send_cases {p : Ptr} {s' : Buffers} {sent : Bool} (hs : s.send p b = some (s', sent)) :
    (∃ q ch, s.peers[p]? = some q ∧ ch.buf = q.outboundCh.buf ++ [b] ∧ sent = true ∧
      s' = { s with peers := s.peers.set p { q with outboundCh := ch } }) ∨
    (sent = false ∧ s' = s) := by
  unfold send at hs
  split at hs
  · cases hs
  · rename_i q hq
    split at hs
    · rename_i ch hch
      cases hs
      exact Or.inl ⟨q, ch, hq, Chan.trySend_buf hch, rfl, rfl⟩
    · cases hs
      exact Or.inr ⟨rfl, rfl⟩
    · cases hs

lemma inbound_set (h : ∀ q ∈ s.peers, q.inboundCh.buf = []) {p : Ptr} {q : Queues}
    (hq : s.peers[p]? = some q) (ch : Chan Buf) :
    ∀ q' ∈ s.peers.set p { q with outboundCh := ch }, q'.inboundCh.buf = [] := by
  intro q' hq'
  rcases List.mem_or_eq_of_mem_set hq' with hq' | rfl
  · exact h q' hq'
  · exact h q (List.mem_of_getElem? hq)

/-- A queue with one more buffer at its end. -/
lemma count_pushed {p : Ptr} {q : Queues} {ch : Chan Buf} (hq : s.peers[p]? = some q)
    (hch : ch.buf = q.outboundCh.buf ++ [b]) (r : Ptr) (x : Buf) :
    ((s.peers.set p { q with outboundCh := ch })[r]?).elim 0
        (fun q => q.outboundCh.buf.count x) =
      s.count (.outbound r) x + if r = p ∧ x = b then 1 else 0 := by
  rw [elim_set hq]
  by_cases hr : r = p
  · subst hr
    simp [count, hq, hch, List.count_append, count_cons_ite]
  · simp [count, hr]

/-- A queue without its oldest buffer. -/
lemma count_popped {p : Ptr} {q : Queues} {ch : Chan Buf} (hq : s.peers[p]? = some q)
    (hch : q.outboundCh.recv = some (b, ch)) (r : Ptr) (x : Buf) :
    ((s.peers.set p { q with outboundCh := ch })[r]?).elim 0
        (fun q => q.outboundCh.buf.count x) + (if r = p ∧ x = b then 1 else 0) =
      s.count (.outbound r) x := by
  rw [elim_set hq]
  by_cases hr : r = p
  · subst hr
    simp [count, hq, Chan.recv_buf hch, count_cons_ite]
  · simp [count, hr]

/-- A packet handed over to a peer. -/
lemma Inv.sendSlot (h : s.Inv) {i : ℕ} (hb : s.reader.packets[i]? = some (some b)) {p : Ptr}
    {q : Queues} {ch : Chan Buf} (hq : s.peers[p]? = some q)
    (hch : ch.buf = q.outboundCh.buf ++ [b]) (n : ℕ) :
    Inv { s with
      peers := s.peers.set p { q with outboundCh := ch }
      reader := { s.reader with
        phase := .handle n
        packets := s.reader.packets.set i none } } := by
  refine
    { own := h.own.move (p := .reader) (q := .outbound p) (b := b) fun r x => ?_
      log := h.log
      bufs := by simpa using h.bufs
      filled := by simp [TunReader.filled]
      inbound := inbound_set h.inbound hq ch
      idle := h.idle }
  cases r with
  | reader => simpa [count] using count_set_none hb x
  | outbound r => simpa [count] using count_pushed hq hch r x
  | pool => simp [count]
  | batch k => simp [count]

lemma Inv.route (h : s.Inv) {r : Route} {s' : Buffers} (hs : s.route r = some s') : s'.Inv := by
  unfold Buffers.route at hs
  split at hs
  · rename_i i hphase
    split_ifs at hs
    · split at hs
      · rename_i b hb
        have huse := h.use .reader (by simp) (count_reader_pos hb)
        dsimp only at hs
        split at hs
        · cases hs
          exact huse.toPhase (by simp [TunReader.filled])
        · cases hs
          exact huse.toPhase (by simp [TunReader.filled])
        · obtain ⟨⟨s₁, sent⟩, hsend, hs⟩ := Option.bind_eq_some_iff.mp hs
          obtain ⟨q, ch, hq, hch, rfl, rfl⟩ | ⟨rfl, rfl⟩ := send_cases hsend
          · cases hs
            exact huse.sendSlot hb hq hch (i + 1)
          · cases hs
            exact huse.toPhase (by simp [TunReader.filled])
      · cases hs
        exact h.toPhase (by simp [TunReader.filled])
    · cases hs
      exact h.toPhase (by simp [TunReader.filled])
  · cases hs

/-- The record after a copy has been made: the copy is not in the pool. -/
lemma Inv.copyLog (h : s.Inv) {i : ℕ} {c : Buf} {got : Option Buf} {pool : Pool}
    (hb : s.reader.packets[i]? = some (some b)) (hget : s.pool.get got = some (c, pool)) :
    ((pool.use b).use c).Disciplined ∧ c ∉ pool.free ∧ c < pool.made := by
  have hheld := h.held .reader (by simp) (count_reader_pos hb)
  obtain ⟨hc, hrest⟩ := h.own.got (p := .pool) (fun _ => rfl) hget
  have hb' := hrest b hheld.1 hheld.2
  have hlog := h.log.get (h.own.free_lt (p := .pool) fun _ => rfl) hget
  exact ⟨(hlog.use hb'.1 hb'.2).use hc.1 hc.2, hc⟩

lemma Inv.copySent (h : s.Inv) {i : ℕ} {c : Buf} {got : Option Buf} {pool : Pool} {p : Ptr}
    {q : Queues} {ch : Chan Buf} (hb : s.reader.packets[i]? = some (some b))
    (hget : s.pool.get got = some (c, pool)) (hq : s.peers[p]? = some q)
    (hch : ch.buf = q.outboundCh.buf ++ [c]) (ps : List Ptr) :
    Inv { s with
      pool := (pool.use b).use c
      reader := { s.reader with phase := .broadcast i ps }
      peers := s.peers.set p { q with outboundCh := ch } } := by
  refine
    { own := ?_
      log := (h.copyLog hb hget).1
      bufs := h.bufs
      filled := by simp [TunReader.filled]
      inbound := inbound_set h.inbound hq ch
      idle := h.idle }
  change Exclusive _ pool.Live
  refine h.own.get (p := .pool) (q := .outbound p) (fun _ => rfl) hget fun r x => ?_
  cases r with
  | outbound r => simpa [count] using count_pushed hq hch r x
  | reader => simp [count]
  | pool => simp [count, Pool.use]
  | batch k => simp [count]

/-- The queue was full: the copy goes back to the pool. -/
lemma Inv.copyDropped (h : s.Inv) {i : ℕ} {c : Buf} {got : Option Buf} {pool : Pool}
    (hb : s.reader.packets[i]? = some (some b)) (hget : s.pool.get got = some (c, pool))
    (ps : List Ptr) :
    Inv { s with
      pool := ((pool.use b).use c).put c
      reader := { s.reader with phase := .broadcast i ps } } := by
  obtain ⟨hlog, hfree, hlt⟩ := h.copyLog hb hget
  refine
    { own := ?_
      log := hlog.put hfree hlt
      bufs := h.bufs
      filled := by simp [TunReader.filled]
      inbound := h.inbound
      idle := h.idle }
  change Exclusive _ pool.Live
  refine h.own.get (p := .pool) (q := .pool) (fun _ => rfl) hget fun r x => ?_
  cases r with
  | pool => simp [count, Pool.put, Pool.use, count_cons_ite]
  | reader => simp [count]
  | outbound r => simp [count]
  | batch k => simp [count]

lemma Inv.copy (h : s.Inv) {isConnected : Bool} {got : Option Buf} {s' : Buffers}
    (hs : s.copy isConnected got = some s') : s'.Inv := by
  unfold Buffers.copy at hs
  split at hs
  · cases hs
    exact h.toPhase (by simp [TunReader.filled])
  · rename_i i p ps hphase
    split_ifs at hs
    · split at hs
      · rename_i b hb
        obtain ⟨⟨c, pool⟩, hget, hs⟩ := Option.bind_eq_some_iff.mp hs
        obtain ⟨⟨s₁, sent⟩, hsend, hs⟩ := Option.bind_eq_some_iff.mp hs
        obtain ⟨q, ch, hq, hch, rfl, rfl⟩ | ⟨rfl, rfl⟩ := send_cases hsend
        · cases hs
          exact h.copySent hb hget hq hch ps
        · cases hs
          exact h.copyDropped hb hget ps
      · cases hs
    · cases hs
      exact h.toPhase (by simp [TunReader.filled])
  · cases hs

lemma Inv.next (h : s.Inv) {s' : Buffers} (hs : s.next = some s') : s'.Inv := by
  unfold Buffers.next at hs
  split at hs
  · cases hs
    exact h.toPhase (by split_ifs <;> simp [TunReader.filled])
  · cases hs

end

end Buffers

end Awl
