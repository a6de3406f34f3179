import Awl.EventBus

/-!
When the operations on known peers and the subscribers of `KnownPeerChanged` can block each
other for good: exactly if one of the operations is `UpdatePeerSettings` and the others can
fill a queue, with one event more in the callback of its subscriber.
-/

namespace Awl

open Guarded

variable {n c : ℕ} {ops : Fin n → BusOp} {σ : BusPool n}

/-! ### What a deadlock needs -/

namespace BusPool.Inv

/-- A thread that is about to give back the lock for reading has it. -/
lemma readers_pos (h : σ.Inv ops) {i : Fin n ⊕ Subscriber}
    (hi : (σ.threads i).rest.head? = some .rUnlock) : 0 < σ.shared.readers := by
  have hpos : reads (σ.threads i).rest ≠ 0 := (h.path i).fits.2.1.mp hi
  have hle := Finset.single_le_sum (f := fun i => reads (σ.threads i).rest)
    (fun j _ => (h.path j).fits.1.2) (Finset.mem_univ i)
  have hnonneg := (h.path i).fits.1.2
  have hsum := h.readers
  omega

/-- Nobody reads if nobody can go on. -/
lemma readers_eq_zero (h : σ.Inv ops) (hs : σ.Stuck (busActions c)) : σ.shared.readers = 0 := by
  have hzero : ∑ i, reads (σ.threads i).rest = 0 := by
    refine Finset.sum_eq_zero fun i _ => ?_
    by_contra hne
    have hhead := (h.path i).fits.2.1.mpr hne
    exact hs i _ hhead (h.readers_pos hhead)
  have hsum := h.readers
  omega

/-- If nobody can go on and the lock is free, the subscribers wait for events. -/
lemma idle_of_free (h : σ.Inv ops) (hs : σ.Stuck (busActions c)) (hw : σ.shared.writer = false)
    (i : Subscriber) : (σ.threads (.inr i)).rest = callback i ∧ σ.shared.queue i = 0 := by
  obtain ⟨-, hsuf, hne⟩ := h.path (.inr i)
  obtain ⟨-, hr | hr | hr⟩ := callback_tails i _ ((List.mem_tails _ _).mpr hsuf) hne
  · refine ⟨hr, ?_⟩
    have hwait := hs (.inr i) (.recv i) (by rw [hr]; rfl)
    exact Nat.eq_zero_of_not_pos hwait
  · exact absurd hw (hs (.inr i) .rLock (by rw [hr]; rfl))
  · have hhead : (σ.threads (.inr i)).rest.head? = some .rUnlock := by rw [hr]; rfl
    exact absurd (h.readers_pos hhead) (hs (.inr i) .rUnlock hhead)

/-- With a free lock every operation can go on. -/
lemma finished_of_free (h : σ.Inv ops) (hc : 1 ≤ c) (hs : σ.Stuck (busActions c))
    (hw : σ.shared.writer = false) (j : Fin n) : (σ.threads (.inl j)).rest = [] := by
  have hfits := path_tails (ops j) _ ((List.mem_tails _ _).mpr (h.path (.inl j)).2)
  have hnone : writes (σ.threads (.inl j)).rest = 0 := by
    have hsum := h.writer
    rw [hw] at hsum
    have hall := (Finset.sum_eq_zero_iff_of_nonneg fun i _ => (h.path i).fits.1.1).mp hsum.symm
    exact hall (.inl j) (Finset.mem_univ _)
  rcases hr : (σ.threads (.inl j)).rest with _ | ⟨a, l⟩
  · rfl
  rw [hr] at hfits hnone
  have hwait := hs (.inl j) a (by rw [hr]; rfl)
  cases a with
  | rLock | announce => exact absurd hw hwait
  | rUnlock => exact absurd (h.readers_pos (by rw [hr]; rfl)) hwait
  | acquire => exact absurd hnone (hfits.1.2.2.1 (Or.inl rfl))
  | unlock => exact absurd hnone (hfits.1.2.2.1 (Or.inr rfl))
  | send k =>
    have hempty := (h.idle_of_free hs hw k).2
    refine absurd ?_ hwait
    change σ.shared.queue k < c
    omega
  | recv k => exact absurd rfl (hfits.2 k).1

/-- **A deadlock needs** an `UpdatePeerSettings` that sends, a full queue, and an event in the
callback of its subscriber. -/
theorem of_deadlocked (h : σ.Inv ops) (hc : 1 ≤ c) (hd : σ.Deadlocked c) :
    (∃ j, ops j = .updatePeerSettings .saved) ∧ c + 2 ≤ (emitting ops).card := by
  obtain ⟨hs, hrest⟩ := hd
  rcases hw : σ.shared.writer with _ | _
  · rcases hrest with ⟨j, hj⟩ | ⟨i, hi⟩
    · exact absurd (h.finished_of_free hc hs hw j) hj
    · exact absurd (h.idle_of_free hs hw i).1 hi
  -- someone has the write lock
  obtain ⟨i, -, hi⟩ : ∃ i ∈ Finset.univ, writes (σ.threads i).rest ≠ 0 := by
    refine Finset.exists_ne_zero_of_sum_ne_zero ?_
    rw [← h.writer, hw]
    decide
  cases i with
  | inr i =>
    obtain ⟨-, hsuf, hne⟩ := h.path (.inr i)
    exact absurd (callback_tails i _ ((List.mem_tails _ _).mpr hsuf) hne).1.2 hi
  | inl j =>
    have hfits := path_tails (ops j) _ ((List.mem_tails _ _).mpr (h.path (.inl j)).2)
    rcases hfits.1.2.2.2 hi with hacq | hunl | ⟨k, hk⟩
    · exact absurd (h.readers_eq_zero hs) (hs (.inl j) .acquire hacq)
    · exact absurd hw (hs (.inl j) .unlock hunl)
    · refine ⟨⟨j, (hfits.2 k).2 hk hi⟩, ?_⟩
      have hfull : ¬ σ.shared.queue k < c := hs (.inl j) (.send k) hk
      have hbusy : busy k (σ.threads (.inr k)).rest = 1 := by
        refine if_neg fun hidle => ?_
        have hwait : ¬ 0 < σ.shared.queue k := hs (.inr k) (.recv k) (by rw [hidle]; rfl)
        omega
      have hsend : (1 : ℤ) ≤ ∑ j, ((σ.threads (.inl j)).rest.count (.send k) : ℤ) := by
        obtain ⟨l, hl⟩ := exists_cons_of_head hk
        have hle := Finset.single_le_sum
          (f := fun j => ((σ.threads (.inl j)).rest.count (.send k) : ℤ))
          (fun j _ => Int.natCast_nonneg _) (Finset.mem_univ j)
        simp only [hl, List.count_cons_self, Nat.cast_add, Nat.cast_one] at hle
        omega
      have hqueue := h.queue k
      omega

end BusPool.Inv

/-! ### How it comes about -/

/-- Nobody has the lock, and there are `q` events in each queue. -/
def Bus.free (q : ℕ) : Bus := ⟨false, 0, fun _ => q⟩

/-- An operation that changes a peer can run to its end, and leaves an event in each queue. -/
lemma goes_path {op : BusOp} (h : op.emits = true) {q : ℕ} (hq : q < c) :
    (busActions c).Goes (Bus.free q) op.path ∧
      op.path.foldl (busActions c).apply (Bus.free q) = Bus.free (q + 1) := by
  have hqueue : Function.update (Function.update (fun _ => q) Subscriber.tunnel (q + 1))
      Subscriber.dns (q + 1) = fun _ => q + 1 := by
    funext i
    cases i <;> rfl
  have hpath : op = .upsertPeer ∨ op = .removePeer true ∨ op = .updatePeerSettings .saved := by
    revert h
    cases op with
    | upsertPeer => simp
    | removePeer exist => cases exist <;> simp [BusOp.emits]
    | updatePeerSettings outcome => cases outcome <;> simp [BusOp.emits]
  rcases hpath with rfl | rfl | rfl <;>
    simp [BusOp.path, emit, readSection, Actions.Goes, busActions, Bus.free, hqueue, hq]

/-- Some operations one after the other, where none has started. -/
lemma run_ops (ops : Fin n → BusOp) (js : List (Fin n)) (hjs : js.Nodup)
    (hem : ∀ j ∈ js, (ops j).emits = true) :
    ∀ (q : ℕ) (threads : Fin n ⊕ Subscriber → Thread BusAction), q + js.length ≤ c →
      (∀ j ∈ js, threads (.inl j) = ⟨(ops j).path, []⟩) →
      ∃ (w : List (Fin n ⊕ Subscriber)) (threads' : Fin n ⊕ Subscriber → Thread BusAction),
        w.foldl (Pool.turn (busActions c)) ⟨Bus.free q, threads⟩ =
            ⟨Bus.free (q + js.length), threads'⟩ ∧
          (∀ j ∈ js, threads' (.inl j) = ⟨[], []⟩) ∧
          ∀ i, (∀ j ∈ js, i ≠ .inl j) → threads' i = threads i := by
  induction js with
  | nil => exact fun q threads _ _ => ⟨[], threads, rfl, by simp, fun _ _ => rfl⟩
  | cons j js ih =>
    intro q threads hq hstart
    rw [List.length_cons] at hq
    obtain ⟨hgo, happly⟩ := goes_path (hem j List.mem_cons_self) (show q < c by omega)
    have hrun := Pool.run_goes (G := busActions c) (r := []) (ops j).path ⟨Bus.free q, threads⟩
      (by rw [List.append_nil]; exact hstart j List.mem_cons_self) hgo
    rw [happly] at hrun
    have hne : ∀ j' ∈ js, (Sum.inl j' : Fin n ⊕ Subscriber) ≠ .inl j := fun j' hj' he =>
      (List.nodup_cons.mp hjs).1 (Sum.inl_injective he ▸ hj')
    obtain ⟨w, threads', hw, hdone, hother⟩ := ih (List.nodup_cons.mp hjs).2
      (fun j' hj' => hem j' (List.mem_cons_of_mem _ hj')) (q + 1)
      (Function.update threads (.inl j) ⟨[], []⟩) (by omega) fun j' hj' => by
        rw [Function.update_of_ne (hne j' hj')]
        exact hstart j' (List.mem_cons_of_mem _ hj')
    refine ⟨List.replicate (ops j).path.length (.inl j) ++ w, threads', ?_, ?_, ?_⟩
    · rw [List.foldl_append, hrun, hw, List.length_cons]
      congr 2
      omega
    · intro j' hj'
      rcases List.mem_cons.mp hj' with rfl | hj'
      · rw [hother _ fun j₁ hj₁ => (hne j₁ hj₁).symm, Function.update_self]
      · exact hdone j' hj'
    · intro i hi
      rw [hother i fun j' hj' => hi j' (List.mem_cons_of_mem _ hj'),
        Function.update_of_ne (hi j List.mem_cons_self)]

/-- An operation that has not started waits for the lock. -/
lemma waits_path (op : BusOp) {s : Bus} (hs : s.writer = true) :
    ∀ a ∈ op.path.head?, ¬ (busActions c).enabled s a := by
  have hhead : ∀ op : BusOp, op.path.head? = none ∨ op.path.head? = some .rLock ∨
      op.path.head? = some .announce := by
    intro op
    cases op with
    | upsertPeer => decide
    | removePeer exist => cases exist <;> decide
    | updatePeerSettings outcome => cases outcome <;> decide
  intro a ha hen
  rcases hhead op with h | h | h <;> rw [h] at ha <;> cases ha
  all_goals
    have hfree : s.writer = false := hen
    rw [hs] at hfree
    cases hfree

/-- A subscriber takes an event. -/
lemma turn_recv {threads : Fin n ⊕ Subscriber → Thread BusAction} {s : Bus} {i : Subscriber}
    (h : threads (.inr i) = ⟨callback i, callback i⟩) (hq : 0 < s.queue i) :
    Pool.turn (busActions c) ⟨s, threads⟩ (.inr i) =
      ⟨{ s with queue := Function.update s.queue i (s.queue i - 1) },
        Function.update threads (.inr i) ⟨[.rLock, .rUnlock], callback i⟩⟩ := by
  simp [Pool.turn, h, callback, busActions, hq, Thread.next]

/-- Both subscribers take the only event in their queues. -/
lemma run_recv (threads : Fin n ⊕ Subscriber → Thread BusAction)
    (h : ∀ i, threads (.inr i) = ⟨callback i, callback i⟩) :
    ∃ threads' : Fin n ⊕ Subscriber → Thread BusAction,
      [Sum.inr .tunnel, Sum.inr .dns].foldl (Pool.turn (busActions c)) ⟨Bus.free 1, threads⟩ =
          ⟨Bus.free 0, threads'⟩ ∧
        (∀ i, (threads' (.inr i)).rest = [.rLock, .rUnlock]) ∧
        ∀ j, threads' (.inl j) = threads (.inl j) := by
  set th₁ := Function.update threads (.inr .tunnel)
    ⟨[.rLock, .rUnlock], callback .tunnel⟩ with hth₁
  have hdns : th₁ (.inr .dns) = ⟨callback .dns, callback .dns⟩ := by
    rw [hth₁, Function.update_of_ne (by simp)]
    exact h .dns
  have hqueue : Function.update (Function.update (fun _ => 1) Subscriber.tunnel 0)
      Subscriber.dns 0 = fun _ => 0 := by
    funext i
    cases i <;> rfl
  refine ⟨Function.update th₁ (.inr .dns) ⟨[.rLock, .rUnlock], callback .dns⟩, ?_, ?_, ?_⟩
  · rw [List.foldl_cons, List.foldl_cons, List.foldl_nil, turn_recv (h .tunnel) (by decide),
      turn_recv hdns (by decide)]
    simp only [Bus.free, ← hqueue]
    rfl
  · intro i
    cases i with
    | tunnel => simp [hth₁]
    | dns => simp
  · intro j
    simp [hth₁]

/-- The settings are being changed, the queues are full, the subscribers want to read, and no
other operation has got further than the lock. -/
lemma deadlocked_of_full (ops : Fin n → BusOp)
    {threads : Fin n ⊕ Subscriber → Thread BusAction} {u : Fin n} {l : List BusAction}
    (hu : (threads (.inl u)).rest = .send .tunnel :: l)
    (hops : ∀ j, j ≠ u → (threads (.inl j)).rest = [] ∨ (threads (.inl j)).rest = (ops j).path)
    (hsub : ∀ i, (threads (.inr i)).rest = [.rLock, .rUnlock]) :
    BusPool.Deadlocked c ⟨⟨true, 0, fun _ => c⟩, threads⟩ := by
  refine ⟨fun i => ?_, Or.inl ⟨u, by simp [hu]⟩⟩
  dsimp only
  cases i with
  | inr i =>
    rw [hsub]
    intro a ha
    cases ha
    simp [busActions]
  | inl j =>
    by_cases hj : j = u
    · rw [hj, hu]
      intro a ha
      cases ha
      simp [busActions]
    · rcases hops j hj with he | he <;> rw [he]
      · intro a ha
        cases ha
      · exact waits_path (ops j) rfl

/-- The operations that fill the queues: one for the subscribers to take an event of, and as many
more as a queue holds. -/
lemma exists_fillers {u : Fin n} (hu : ops u = .updatePeerSettings .saved)
    (hcard : c + 2 ≤ (emitting ops).card) :
    ∃ (e : Fin n) (js : List (Fin n)), (e :: js).Nodup ∧ js.length = c ∧
      ∀ j ∈ e :: js, (ops j).emits = true ∧ j ≠ u := by
  have hmem : u ∈ emitting ops := by
    rw [emitting, Finset.mem_filter, hu]
    exact ⟨Finset.mem_univ u, rfl⟩
  obtain ⟨T, hT, hTcard⟩ : ∃ T ⊆ (emitting ops).erase u, T.card = c + 1 := by
    refine Finset.exists_subset_card_eq ?_
    rw [Finset.card_erase_of_mem hmem]
    omega
  have hlen := T.length_toList
  rw [hTcard] at hlen
  obtain ⟨e, js, hlist⟩ := List.exists_cons_of_length_eq_add_one hlen
  refine ⟨e, js, hlist ▸ T.nodup_toList, ?_, fun j hj => ?_⟩
  · rw [hlist, List.length_cons] at hlen
    omega
  · rw [← hlist] at hj
    obtain ⟨hne, hj'⟩ := Finset.mem_erase.mp (hT (Finset.mem_toList.mp hj))
    exact ⟨(Finset.mem_filter.mp hj').2, hne⟩

/-- The first operation leaves an event for each subscriber. Once they have taken it, the others
fill the queues. -/
lemma run_fill (hc : 1 ≤ c) {e : Fin n} {js : List (Fin n)} (hnodup : (e :: js).Nodup)
    (hlen : js.length = c) (hem : ∀ j ∈ e :: js, (ops j).emits = true) :
    ∃ (w : List (Fin n ⊕ Subscriber)) (threads : Fin n ⊕ Subscriber → Thread BusAction),
      w.foldl (Pool.turn (busActions c)) (BusPool.start ops) = ⟨Bus.free c, threads⟩ ∧
        (∀ i, (threads (.inr i)).rest = [.rLock, .rUnlock]) ∧
        (∀ j ∈ e :: js, threads (.inl j) = ⟨[], []⟩) ∧
        ∀ j, j ∉ e :: js → threads (.inl j) = ⟨(ops j).path, []⟩ := by
  obtain ⟨hejs, hjs⟩ := List.nodup_cons.mp hnodup
  obtain ⟨w₁, th₁, hw₁, hdone₁, hother₁⟩ := run_ops (c := c) ops [e] (List.nodup_singleton e)
    (fun j hj => hem j (List.mem_singleton.mp hj ▸ List.mem_cons_self))
    0 (BusPool.start ops).threads (by simpa using hc) fun j _ => rfl
  obtain ⟨th₂, hw₂, hsub₂, hop₂⟩ := run_recv (c := c) th₁ fun i => by
    rw [hother₁ _ (by simp)]
    rfl
  have hfresh : ∀ j, j ≠ e → th₂ (.inl j) = ⟨(ops j).path, []⟩ := by
    intro j hj
    rw [hop₂, hother₁ _ (by simpa using hj)]
    rfl
  obtain ⟨w₃, th₃, hw₃, hdone₃, hother₃⟩ := run_ops (c := c) ops js hjs
    (fun j hj => hem j (List.mem_cons_of_mem _ hj)) 0 th₂ (by omega)
    fun j hj => hfresh j fun he => hejs (he ▸ hj)
  have hkept : ∀ j, j ∉ js → th₃ (.inl j) = th₂ (.inl j) := fun j hj =>
    hother₃ (.inl j) fun j' hj' he => hj (Sum.inl_injective he ▸ hj')
  refine ⟨w₁ ++ ([.inr .tunnel, .inr .dns] ++ w₃), th₃, ?_, fun i => ?_, fun j hj => ?_,
    fun j hj => ?_⟩
  · have hstart : BusPool.start ops = ⟨Bus.free 0, (BusPool.start ops).threads⟩ := rfl
    rw [List.foldl_append, hstart, hw₁, List.foldl_append, show 0 + [e].length = 1 from rfl, hw₂,
      hw₃, hlen, Nat.zero_add]
  · rw [hother₃ _ (by simp)]
    exact hsub₂ i
  · rcases List.mem_cons.mp hj with rfl | hj
    · rw [hkept j hejs, hop₂]
      exact hdone₁ j (List.mem_singleton.mpr rfl)
    · exact hdone₃ j hj
  · rw [List.mem_cons, not_or] at hj
    rw [hkept j hj.2]
    exact hfresh j hj.1

/-- **The deadlock**: the queues are filled while the subscribers are about to read, and then
the settings of a peer are changed. -/
theorem deadlock_of_settings (hc : 1 ≤ c) {u : Fin n}
    (hu : ops u = .updatePeerSettings .saved) (hcard : c + 2 ≤ (emitting ops).card) :
    ∃ w : List (Fin n ⊕ Subscriber), BusPool.Deadlocked c
      (w.foldl (Pool.turn (busActions c)) (BusPool.start ops)) := by
  obtain ⟨e, js, hnodup, hlen, hem⟩ := exists_fillers hu hcard
  obtain ⟨w, th, hw, hsub, hdone, hother⟩ :=
    run_fill hc hnodup hlen fun j hj => (hem j hj).1
  -- the request for new settings takes the lock
  have hth : th (.inl u) = ⟨readSection ++ readSection ++ [.announce, .acquire] ++
      [.send .tunnel, .send .dns, .unlock], []⟩ := by
    rw [hother u fun hj => (hem u hj).2 rfl]
    simp [hu, BusOp.path, emit]
  have hlast := Pool.run_goes (G := busActions c) _ ⟨Bus.free c, th⟩ hth
    (by simp [readSection, Actions.Goes, busActions, Bus.free])
  have hrun : (w ++ List.replicate 6 (Sum.inl u)).foldl (Pool.turn (busActions c))
      (BusPool.start ops) = ⟨⟨true, 0, fun _ => c⟩,
        Function.update th (.inl u) ⟨[.send .tunnel, .send .dns, .unlock], []⟩⟩ := by
    rw [List.foldl_append, hw]
    exact hlast
  refine ⟨_, hrun ▸ deadlocked_of_full (u := u) ops (by rw [Function.update_self])
    (fun j hj => ?_) fun i => ?_⟩
  · have hne : (Sum.inl j : Fin n ⊕ Subscriber) ≠ .inl u := fun he => hj (Sum.inl_injective he)
    rw [Function.update_of_ne hne]
    by_cases hfill : j ∈ e :: js
    · exact Or.inl (by rw [hdone j hfill])
    · exact Or.inr (by rw [hother j hfill])
  · rw [Function.update_of_ne (by simp)]
    exact hsub i

/-- **No deadlock** is reached, by any interleaving, exactly if no settings are changed, or the
operations that change a peer are at most one more than a queue holds. -/
theorem no_deadlock_iff (hc : 1 ≤ c) (ops : Fin n → BusOp) :
    (∀ w : List (Fin n ⊕ Subscriber), ¬ BusPool.Deadlocked c
        (w.foldl (Pool.turn (busActions c)) (BusPool.start ops))) ↔
      (∀ j, ops j ≠ .updatePeerSettings .saved) ∨ (emitting ops).card ≤ c + 1 := by
  constructor
  · intro hnever
    by_contra hcond
    obtain ⟨hsome, hcard⟩ := not_or.mp hcond
    obtain ⟨u, hu⟩ := not_forall.mp hsome
    obtain ⟨w, hw⟩ := deadlock_of_settings hc (not_not.mp hu) (by omega)
    exact hnever w hw
  · intro hcond w hw
    obtain ⟨⟨j, hj⟩, hcard⟩ := (BusPool.inv_run c ops w).of_deadlocked hc hw
    rcases hcond with hnone | hfew
    · exact hnone j hj
    · omega

/-- Seventeen peers connect at once while the settings of one are changed, with the capacity that
the event bus has by default. -/
def busyOps (j : Fin 18) : BusOp := if j = 17 then .updatePeerSettings .saved else .upsertPeer

/-- A status of each, with the subscribers taking one event, and then the settings. -/
def busySchedule : List (Fin 18 ⊕ Subscriber) :=
  List.replicate 5 (.inl 0) ++ [.inr .tunnel, .inr .dns] ++
    (List.finRange 18).flatMap fun j => List.replicate 6 (.inl j)

theorem busyOps_deadlock :
    BusPool.Deadlocked 16 (busySchedule.foldl (Pool.turn (busActions 16))
      (BusPool.start busyOps)) := by
  decide +kernel

/-- With one peer less there is none. -/
theorem sixteen_upserts_no_deadlock :
    1 ≤ 16 ∧ ∀ w : List (Fin 17 ⊕ Subscriber), ¬ BusPool.Deadlocked 16
      (w.foldl (Pool.turn (busActions 16))
        (BusPool.start fun j => if j = 16 then .updatePeerSettings .saved else .upsertPeer)) :=
  ⟨by decide, (no_deadlock_iff (by decide) _).mpr (Or.inr (by decide +kernel))⟩

end Awl
