import Awl.BuffersInv

/-!
The outbound handlers, the peers that come and go, and whole runs: every buffer taken from the
pool is in exactly one place in every state.
-/

namespace Awl

namespace Buffers

variable {s s' : Buffers} {b : Buf}

/-! ### Steps of the handlers -/

/-- A buffer goes from a queue to the end of a batch. -/
lemma Inv.receiveOne (h : s.Inv) {i : ℕ} {x : Handler} {q : Queues} {ch : Chan Buf}
    (hx : s.handlers[i]? = some x) (hq : s.peers[x.peer]? = some q)
    (hch : q.outboundCh.recv = some (b, ch)) (phase : HandlerPhase) (hphase : phase ≠ .idle) :
    Inv { s with
      peers := s.peers.set x.peer { q with outboundCh := ch }
      handlers := s.handlers.set i
        { x with phase := phase, packetsBatch := x.packetsBatch ++ [b] } } := by
  refine { h with
    own := h.own.move (p := .outbound x.peer) (q := .batch i) (b := b) fun r y => ?_
    inbound := inbound_set h.inbound hq ch
    idle := fun y hy hidle => ?_ }
  · cases r with
    | outbound r => simpa [count] using count_popped hq hch r y
    | batch k =>
      simp only [count, elim_set hx]
      by_cases hk : k = i
      · subst hk
        simp [hx, List.count_append, count_cons_ite]
      · simp [hk]
    | pool => simp [count]
    | reader => simp [count]
  · rcases List.mem_or_eq_of_mem_set hy with hy | rfl
    · exact h.idle y hy hidle
    · exact absurd hidle hphase

lemma Inv.receive (h : s.Inv) {i : ℕ} (hs : s.receive i = some s') : s'.Inv := by
  obtain ⟨x, hx, hs⟩ := Option.bind_eq_some_iff.mp hs
  obtain ⟨q, hq, hs⟩ := Option.bind_eq_some_iff.mp hs
  split at hs
  · rename_i hphase
    have hempty := h.idle x (List.mem_of_getElem? hx) hphase
    split at hs
    · rename_i b ch hch
      cases hs
      have hnew := h.receiveOne hx hq hch .gather (by simp)
      rwa [hempty] at hnew
    · split_ifs at hs
      cases hs
      exact h.handlerPhase hx .stopped (by simp)
  · split_ifs at hs
    · cases hs
      exact h.handlerPhase hx .check (by simp)
    · split at hs
      · rename_i hphase _ _ b ch hch
        cases hs
        have hnew := h.receiveOne hx hq hch x.phase (by simp [hphase])
        exact hnew
      · cases hs
        exact h.handlerPhase hx .check (by simp)
  · cases hs

lemma Inv.check (h : s.Inv) {i : ℕ} {isConnected : Bool} (hs : s.check i isConnected = some s') :
    s'.Inv := by
  obtain ⟨x, hx, hs⟩ := Option.bind_eq_some_iff.mp hs
  split at hs
  · cases hs
    exact h.handlerPhase hx _ (by split_ifs <;> simp)
  · cases hs

lemma Inv.sendPacket (h : s.Inv) {i : ℕ} {opened : Bool} (hs : s.sendPacket i opened = some s') :
    s'.Inv := by
  obtain ⟨x, hx, hs⟩ := Option.bind_eq_some_iff.mp hs
  split at hs
  · cases hs
    have huse : Inv { s with pool := if opened then s.pool.useAll x.packetsBatch else s.pool } := by
      split_ifs
      · exact h.useAll (.batch i) (by simp) fun b hb => count_batch_pos hx hb
      · exact h
    exact huse.handlerPhase hx .clear (by simp)
  · cases hs

lemma Inv.clearTempPackets (h : s.Inv) {i : ℕ} (hs : s.clearTempPackets i = some s') :
    s'.Inv := by
  obtain ⟨x, hx, hs⟩ := Option.bind_eq_some_iff.mp hs
  split at hs
  · rename_i hphase
    split at hs
    · rename_i hempty
      cases hs
      exact h.handlerPhase hx .idle fun _ => hempty
    · rename_i b rest hbatch
      cases hs
      have hheld := h.held (.batch i) (b := b) (by simp)
        (count_batch_pos hx (by rw [hbatch]; exact List.mem_cons_self))
      refine { h with
        own := h.own.move (p := .batch i) (q := .pool) (b := b) fun r y => ?_
        log := h.log.put hheld.1 hheld.2
        idle := fun y hy hidle => ?_ }
      · cases r with
        | batch k =>
          simp only [count, elim_set hx]
          by_cases hk : k = i
          · subst hk
            simp [hx, hbatch, count_cons_ite]
          · simp [hk]
        | pool => simp [count, Pool.put, count_cons_ite]
        | reader => simp [count]
        | outbound r => simp [count]
      · rcases List.mem_or_eq_of_mem_set hy with hy | rfl
        · exact h.idle y hy hidle
        · exact absurd (hphase.symm.trans hidle) (by simp)
  · cases hs

/-! ### Peers coming and going -/

/-- New elements that hold nothing do not change what the elements hold. -/
lemma elim_append {α : Type} (l l' : List α) (f : α → ℕ) (hf : ∀ a ∈ l', f a = 0) (r : ℕ) :
    ((l ++ l')[r]?).elim 0 f = (l[r]?).elim 0 f := by
  by_cases hr : r < l.length
  · rw [List.getElem?_append_left hr]
  · rw [List.getElem?_append_right (by omega), List.getElem?_eq_none (l := l) (by omega)]
    rcases ha : l'[r - l.length]? with _ | a
    · rfl
    · exact hf a (List.mem_of_getElem? ha)

lemma Inv.start (h : s.Inv) (n : ℕ) : (s.start n).Inv := by
  refine { h with
    own := h.own.of_eq fun r x => ?_
    inbound := fun q hq => ?_
    idle := fun x hx hidle => ?_ }
  · cases r with
    | outbound p => exact elim_append _ _ _ (by simp [Chan.make]) p
    | batch k => exact elim_append _ _ _ (by simp) k
    | _ => rfl
  · rcases List.mem_append.mp hq with hq | hq
    · exact h.inbound q hq
    · rw [List.mem_singleton.mp hq]
      rfl
  · rcases List.mem_append.mp hx with hx | hx
    · exact h.idle x hx hidle
    · rw [(List.mem_replicate.mp hx).2]

lemma Inv.close (h : s.Inv) {p : Ptr} (hs : s.close p = some s') : s'.Inv := by
  obtain ⟨q, hq, hs⟩ := Option.bind_eq_some_iff.mp hs
  split_ifs at hs
  cases hs
  refine { h with own := h.own.of_eq fun r x => ?_, inbound := fun q' hq' => ?_ }
  · cases r with
    | outbound r =>
      simp only [count, elim_set hq]
      split_ifs with hr
      · rw [hr, hq]
        rfl
      · rfl
    | _ => rfl
  · rcases List.mem_or_eq_of_mem_set hq' with hq' | rfl
    · exact h.inbound q' hq'
    · exact h.inbound q (List.mem_of_getElem? hq)

lemma Inv.drain (h : s.Inv) (hs : s.drain = some s') : s'.Inv := by
  obtain ⟨⟨p, phase⟩, hclosing, hs⟩ := Option.bind_eq_some_iff.mp hs
  obtain ⟨q, hq, hs⟩ := Option.bind_eq_some_iff.mp hs
  split at hs
  · split at hs
    · -- nothing on the outbound path ever fills an inbound queue
      rename_i b ch hch
      have hempty := h.inbound q (List.mem_of_getElem? hq)
      rw [Chan.recv_buf hch] at hempty
      cases hempty
    · cases hs
      exact { h with own := h.own.of_eq fun r x => by cases r <;> rfl }
  · split at hs
    · rename_i b ch hch
      cases hs
      have hpos : 0 < s.count (.outbound p) b := by
        simp [count, hq, Chan.recv_buf hch]
      have hheld := h.held (.outbound p) (by simp) hpos
      refine { h with
        own := h.own.move (p := .outbound p) (q := .pool) (b := b) fun r x => ?_
        log := h.log.put hheld.1 hheld.2
        inbound := inbound_set h.inbound hq ch }
      cases r with
      | outbound r => simpa [count] using count_popped hq hch r x
      | pool => simp [count, Pool.put, count_cons_ite]
      | reader => simp [count]
      | batch k => simp [count]
    · cases hs
      exact { h with own := h.own.of_eq fun r x => by cases r <;> rfl }

lemma Inv.collect (h : s.Inv) {pool : Pool} (hc : s.pool.collect b = some pool) :
    Inv { s with pool := pool } := by
  have hlog := h.log.collect hc
  unfold Pool.collect at hc
  split_ifs at hc with hb
  cases hc
  have hpos : 0 < s.count .pool b := List.count_pos_iff.mpr hb.2
  refine { h with own := h.own.drop (p := .pool) (b := b) (fun x => ?_) hpos fun r x => ?_,
                  log := hlog }
  · simp only [Pool.Live, List.mem_cons, not_or]
    tauto
  · cases r with
    | pool =>
      simp only [count, List.count_erase, true_and]
      have hb' := List.count_pos_iff.mpr hb.2
      by_cases hx : x = b
      · subst hx
        simp
        omega
      · simp [hx, Ne.symm hx]
    | reader => simp [count]
    | outbound p => simp [count]
    | batch k => simp [count]

/-! ### Runs -/

lemma Inv.step (h : s.Inv) {e : Event} (hs : s.step e = some s') : s'.Inv := by
  cases e with
  | fill got => exact h.fill hs
  | read sizes packetsCount goesOn => exact h.read hs
  | parse okay => exact h.parse hs
  | enter isClosed => exact h.enter hs
  | route r => exact h.route hs
  | copy isConnected got => exact h.copy hs
  | next => exact h.next hs
  | receive i => exact h.receive hs
  | check i isConnected => exact h.check hs
  | sendPacket i opened => exact h.sendPacket hs
  | clearTempPackets i => exact h.clearTempPackets hs
  | start n =>
    cases hs
    exact h.start n
  | close p => exact h.close hs
  | drain => exact h.drain hs
  | collect b =>
    obtain ⟨pool, hc, rfl⟩ := Option.map_eq_some_iff.mp hs
    exact h.collect hc

lemma Inv.run (h : s.Inv) {es : List Event} (hs : s.run es = some s') : s'.Inv := by
  induction es generalizing s with
  | nil =>
    cases hs
    exact h
  | cons e es ih =>
    obtain ⟨s₁, hstep, hrest⟩ := Option.bind_eq_some_iff.mp hs
    exact ih (h.step hstep) hrest

/-- **Every buffer is in exactly one place**, whatever the interleaving: one slot of the pool,
of the reader's batch, of an outbound queue or of a handler's batch. The record of the pool is
in order: no buffer is put back while it is there, and none is used there. -/
theorem run_exclusive (batchSize : ℕ) (es : List Event) (h : (init batchSize).run es = some s) :
    (∀ b, s.pool.Live b → ∃ pl, ∀ pl', s.count pl' b = if pl' = pl then 1 else 0) ∧
      (∀ q ∈ s.peers, q.inboundCh.buf = []) ∧
      Pool.replay s.pool.log = some (s.pool.free, s.pool.made) := by
  have hinv := (inv_init batchSize).run h
  exact ⟨hinv.own.live, hinv.inbound, hinv.log⟩

/-- A packet on its way to a peer and a copy of the next one to the same peer. -/
def twoPackets : List Event :=
  [.start 1, .fill none, .fill none, .fill none, .read [20, 20] 2 true, .parse true, .parse true,
    .enter false, .route (.peer 0), .route (.everyone [0]), .copy true none, .receive 0]

/-- After the handler has taken the packet, the copy is still in the queue and the original of
the second packet in the reader's batch. -/
theorem twoPackets_exclusive :
    ∃ s, (init 2).run twoPackets = some s ∧ s.count (.batch 0) 0 = 1 ∧
      s.count .reader 1 = 1 ∧ s.count (.outbound 0) 2 = 1 ∧
      (∀ b, s.pool.Live b → ∃ pl, ∀ pl', s.count pl' b = if pl' = pl then 1 else 0) ∧
      (∀ q ∈ s.peers, q.inboundCh.buf = []) ∧
      Pool.replay s.pool.log = some (s.pool.free, s.pool.made) :=
  ⟨_, rfl, rfl, rfl, rfl, run_exclusive 2 twoPackets rfl⟩

end Buffers

end Awl
