import Mathlib.Data.List.Basic
import Mathlib.Tactic.Common

/-!
Transactions on a shared value that are not atomic: each reads the value, goes on, and writes it
back later, in a critical section of its own.

A transaction is a tree of what its turns do to the value. A race of several of them has a trace,
the list of their accesses in order; reads see the last write, and what one of them does is
determined by what it has read. Goroutines that implement transactions (`Implements`) race as
these do, whatever else they do in between.
-/

namespace Awl

/-! ### Interleavings -/

/-- The lists made of `t` and `u`, each in its order. -/
def interleavings {α : Type} : List α → List α → List (List α)
  | [], u => [u]
  | t, [] => [t]
  | a :: t, b :: u =>
    (interleavings t (b :: u)).map (a :: ·) ++ (interleavings (a :: t) u).map (b :: ·)

lemma interleavings_nil_right {α : Type} (t : List α) : interleavings t [] = [t] := by
  cases t <;> simp [interleavings]

lemma cons_mem_interleavings_left {α : Type} {a : α} {t u w : List α}
    (h : w ∈ interleavings t u) : a :: w ∈ interleavings (a :: t) u := by
  cases u with
  | nil =>
    rw [interleavings_nil_right] at h ⊢
    rw [List.mem_singleton.mp h]
    exact List.mem_singleton_self _
  | cons b u =>
    rw [interleavings]
    exact List.mem_append_left _ (List.mem_map_of_mem h)

lemma cons_mem_interleavings_right {α : Type} {b : α} {t u w : List α}
    (h : w ∈ interleavings t u) : b :: w ∈ interleavings t (b :: u) := by
  cases t with
  | nil =>
    rw [interleavings] at h ⊢
    rw [List.mem_singleton.mp h]
    exact List.mem_singleton_self _
  | cons a t =>
    rw [interleavings]
    exact List.mem_append_right _ (List.mem_map_of_mem h)

/-- The elements of a list that belong to `i`. -/
def own {α : Type} (i : ℕ) (l : List (ℕ × α)) : List α :=
  l.filterMap fun e => if e.1 = i then some e.2 else none

section

variable {α : Type} {i j : ℕ} {a : α} {l l' : List (ℕ × α)}

@[simp] lemma own_nil : own i ([] : List (ℕ × α)) = [] := rfl

@[simp] lemma own_cons_self : own i ((i, a) :: l) = a :: own i l := by simp [own]

lemma own_cons_ne (h : j ≠ i) : own i ((j, a) :: l) = own i l := by simp [own, h]

lemma own_append : own i (l ++ l') = own i l ++ own i l' := by simp [own]

lemma own_map_self (as : List α) : own i (as.map (i, ·)) = as := by
  induction as with
  | nil => rfl
  | cons a as ih => rw [List.map_cons, own_cons_self, ih]

lemma own_map_ne (h : j ≠ i) (as : List α) : own i (as.map (j, ·)) = [] := by
  induction as with
  | nil => rfl
  | cons a as ih => rw [List.map_cons, own_cons_ne h, ih]

/-- A list with two owners is an interleaving of their elements. -/
lemma mem_interleavings_own (h : ∀ e ∈ l, e.1 < 2) :
    l ∈ interleavings ((own 0 l).map (0, ·)) ((own 1 l).map (1, ·)) := by
  induction l with
  | nil => simp [interleavings]
  | cons e l ih =>
    have hl := ih fun e' he' => h e' (List.mem_cons_of_mem _ he')
    obtain ⟨j, a⟩ := e
    have hj : j < 2 := h (j, a) List.mem_cons_self
    obtain rfl | rfl : j = 0 ∨ j = 1 := by omega
    · rw [own_cons_self, own_cons_ne Nat.zero_ne_one]
      exact cons_mem_interleavings_left hl
    · rw [own_cons_self, own_cons_ne Nat.one_ne_zero]
      exact cons_mem_interleavings_right hl

end

/-! ### Transactions -/

/-- A transaction reads the value it will write back, and may look at it again for something
else. -/
inductive Access
  | read | consult | write
  deriving DecidableEq

inductive Tx (V : Type)
  | done
  | quiet (next : Tx V)
  | read (next : V → Tx V)
  | consult (next : V → Tx V)
  | write (v : V) (next : Tx V)

namespace Tx

variable {V : Type}

/-- Turns that leave the value alone. -/
def quiets (t : Tx V) : ℕ → Tx V
  | 0 => t
  | n + 1 => .quiet (t.quiets n)

/-- One turn, where the value is `v`: the value after it, what is left, and the access with the
value read or written. -/
def turn : Tx V → V → V × Tx V × List (Access × V)
  | done, v => (v, done, [])
  | quiet next, v => (v, next, [])
  | read next, v => (v, next v, [(.read, v)])
  | consult next, v => (v, next v, [(.consult, v)])
  | write v' next, _ => (v', next, [(.write, v')])

/-- A complete list of the accesses of a transaction. -/
def Emits : Tx V → List (Access × V) → Prop
  | done, l => l = []
  | quiet next, l => next.Emits l
  | read next, l => ∃ v l', l = (.read, v) :: l' ∧ (next v).Emits l'
  | consult next, l => ∃ v l', l = (.consult, v) :: l' ∧ (next v).Emits l'
  | write v next, l => ∃ l', l = (.write, v) :: l' ∧ next.Emits l'

@[simp] lemma emits_quiets {t : Tx V} {n : ℕ} {l : List (Access × V)} :
    (t.quiets n).Emits l ↔ t.Emits l := by
  induction n with
  | zero => exact Iff.rfl
  | succ n ih => exact ih

lemma Emits.turn {t : Tx V} {v : V} {l : List (Access × V)} (h : (t.turn v).2.1.Emits l) :
    t.Emits ((t.turn v).2.2 ++ l) := by
  cases t with
  | done => exact h
  | quiet next => exact h
  | read next => exact ⟨v, l, rfl, h⟩
  | consult next => exact ⟨v, l, rfl, h⟩
  | write v' next => exact ⟨l, rfl, h⟩

end Tx

/-- Along the accesses of `l` the value goes from `v` to `v'`, and what is read is the value at
that moment. -/
def Coherent {V : Type} : V → List (ℕ × Access × V) → V → Prop
  | v, [], v' => v = v'
  | v, (_, .read, c) :: l, v' => c = v ∧ Coherent v l v'
  | v, (_, .consult, c) :: l, v' => c = v ∧ Coherent v l v'
  | _, (_, .write, c) :: l, v' => Coherent c l v'

/-! ### Races -/

structure Race (V : Type) where
  value : V
  txs : List (Tx V)

namespace Race

variable {V : Type}

def turn (ρ : Race V) (i : ℕ) : Race V :=
  match ρ.txs[i]? with
  | none => ρ
  | some t => ⟨(t.turn ρ.value).1, ρ.txs.set i (t.turn ρ.value).2.1⟩

/-- The accesses of a run, with the values read and written. -/
def trace : Race V → List ℕ → List (ℕ × Access × V)
  | _, [] => []
  | ρ, i :: w =>
    (match ρ.txs[i]? with
      | none => []
      | some t => (t.turn ρ.value).2.2.map (i, ·)) ++ trace (ρ.turn i) w

/-- The accesses of a run. -/
def accesses (ρ : Race V) (w : List ℕ) : List (ℕ × Access) :=
  (ρ.trace w).map fun e => (e.1, e.2.1)

section

variable {ρ : Race V} {i j : ℕ} {t : Tx V}

lemma turn_some (h : ρ.txs[i]? = some t) :
    ρ.turn i = ⟨(t.turn ρ.value).1, ρ.txs.set i (t.turn ρ.value).2.1⟩ := by
  simp only [turn, h]

lemma turn_none (h : ρ.txs[i]? = none) : ρ.turn i = ρ := by
  simp only [turn, h]

lemma trace_cons_some (h : ρ.txs[i]? = some t) (w : List ℕ) :
    ρ.trace (i :: w) = (t.turn ρ.value).2.2.map (i, ·) ++ (ρ.turn i).trace w := by
  simp only [trace, h]

lemma trace_cons_none (h : ρ.txs[i]? = none) (w : List ℕ) :
    ρ.trace (i :: w) = ρ.trace w := by
  simp only [trace, h, turn_none h, List.nil_append]

lemma turn_self (h : ρ.txs[i]? = some t) :
    (ρ.turn i).txs[i]? = some (t.turn ρ.value).2.1 := by
  rw [turn_some h]
  exact List.getElem?_set_self (List.getElem?_eq_some_iff.mp h).1

lemma turn_other (hij : i ≠ j) : (ρ.turn i).txs[j]? = ρ.txs[j]? := by
  rcases h : ρ.txs[i]? with _ | t
  · rw [turn_none h]
  · rw [turn_some h]
    exact List.getElem?_set_ne hij

@[simp] lemma turn_length : (ρ.turn i).txs.length = ρ.txs.length := by
  rcases h : ρ.txs[i]? with _ | t
  · rw [turn_none h]
  · rw [turn_some h]
    exact List.length_set

lemma run_length (w : List ℕ) : ∀ ρ : Race V, (w.foldl turn ρ).txs.length = ρ.txs.length := by
  induction w with
  | nil => exact fun ρ => rfl
  | cons i w ih => exact fun ρ => (ih (ρ.turn i)).trans turn_length

/-- What is read is what was written last. -/
lemma coherent_trace (w : List ℕ) :
    ∀ ρ : Race V, Coherent ρ.value (ρ.trace w) (w.foldl turn ρ).value := by
  induction w with
  | nil => exact fun ρ => rfl
  | cons i w ih =>
    intro ρ
    rcases h : ρ.txs[i]? with _ | t
    · rw [trace_cons_none h, List.foldl_cons, turn_none h]
      exact ih ρ
    · have hrest := ih (ρ.turn i)
      rw [trace_cons_some h, List.foldl_cons]
      rw [turn_some h] at hrest ⊢
      cases t with
      | done => exact hrest
      | quiet next => exact hrest
      | read next => exact ⟨rfl, hrest⟩
      | consult next => exact ⟨rfl, hrest⟩
      | write v next => exact hrest

/-- A transaction that has come to its end has made all its accesses. -/
lemma emits_trace (w : List ℕ) : ∀ {ρ : Race V} {t : Tx V}, ρ.txs[i]? = some t →
    (w.foldl turn ρ).txs[i]? = some .done → t.Emits (own i (ρ.trace w)) := by
  induction w with
  | nil =>
    intro ρ t ht hdone
    cases Option.some.inj (ht.symm.trans hdone)
    rfl
  | cons j w ih =>
    intro ρ t ht hdone
    rw [List.foldl_cons] at hdone
    by_cases hij : j = i
    · subst hij
      rw [trace_cons_some ht, own_append, own_map_self]
      exact Tx.Emits.turn (ih (turn_self ht) hdone)
    · have hrest := ih ((turn_other hij).trans ht) hdone
      rcases h : ρ.txs[j]? with _ | t'
      · rw [trace_cons_none h]
        rwa [turn_none h] at hrest
      · rwa [trace_cons_some h, own_append, own_map_ne hij]

lemma trace_lt (w : List ℕ) : ∀ {ρ : Race V}, ∀ e ∈ ρ.trace w, e.1 < ρ.txs.length := by
  induction w with
  | nil => exact fun e he => absurd he List.not_mem_nil
  | cons i w ih =>
    intro ρ e he
    rcases h : ρ.txs[i]? with _ | t
    · rw [trace_cons_none h] at he
      exact ih e he
    · rw [trace_cons_some h] at he
      rcases List.mem_append.mp he with he | he
      · obtain ⟨a, -, rfl⟩ := List.mem_map.mp he
        exact (List.getElem?_eq_some_iff.mp h).1
      · exact turn_length (ρ := ρ) (i := i) ▸ ih e he

end

end Race

/-! ### Two transactions that write the value back -/

namespace Tx

variable {V : Type}

/-- Read the value and write it back changed. -/
def readWrite (f : V → V) (before between after : ℕ) : Tx V :=
  quiets (.read fun v => quiets (.write (f v) (quiets .done after)) between) before

/-- The same, where the change may depend on a second look at the value. -/
def readLookWrite (looks : V → Bool) (g : V → V → V) (before between after : ℕ) : Tx V :=
  quiets (.read fun v => quiets
    (if looks v then .consult fun c => .write (g v c) (quiets .done after)
      else .write (g v v) (quiets .done after)) between) before

lemma emits_readWrite {f : V → V} {n n' n'' : ℕ} {l : List (Access × V)}
    (h : (readWrite f n n' n'').Emits l) : ∃ v, l = [(.read, v), (.write, f v)] := by
  simp only [readWrite, emits_quiets] at h
  obtain ⟨v, l', rfl, hl'⟩ := h
  rw [emits_quiets] at hl'
  obtain ⟨l₂, rfl, hl₂⟩ := hl'
  rw [emits_quiets] at hl₂
  cases hl₂
  exact ⟨v, rfl⟩

lemma emits_readLookWrite {looks : V → Bool} {g : V → V → V} {n n' n'' : ℕ}
    {l : List (Access × V)} (h : (readLookWrite looks g n n' n'').Emits l) :
    (∃ v, l = [(.read, v), (.write, g v v)]) ∨
      ∃ v c, l = [(.read, v), (.consult, c), (.write, g v c)] := by
  simp only [readLookWrite, emits_quiets] at h
  obtain ⟨v, l', rfl, hl'⟩ := h
  rw [emits_quiets] at hl'
  split_ifs at hl'
  · obtain ⟨c, l₂, rfl, l₃, rfl, hl₃⟩ := hl'
    rw [emits_quiets] at hl₃
    cases hl₃
    exact Or.inr ⟨v, c, rfl⟩
  · obtain ⟨l₂, rfl, hl₂⟩ := hl'
    rw [emits_quiets] at hl₂
    cases hl₂
    exact Or.inl ⟨v, rfl⟩

end Tx

/-- `e` comes before `e'` in `l`. -/
def Precedes (l : List (ℕ × Access)) (e e' : ℕ × Access) : Prop := [e, e'].Sublist l

instance (l : List (ℕ × Access)) (e e' : ℕ × Access) : Decidable (Precedes l e e') :=
  inferInstanceAs (Decidable ([e, e'].Sublist l))

/-- What becomes of the value `v` when one transaction changes it by `f` and the other by `g`,
as their accesses come: one after the other if one has written before the other reads, and
otherwise only the last write counts. -/
def lastWrite {V : Type} (f : V → V) (g : V → V → V) (v : V) (l : List (ℕ × Access)) : V :=
  if Precedes l (0, .write) (1, .read) then g (f v) (f v)
  else if Precedes l (1, .write) (0, .read) then f (g v v)
  else if Precedes l (0, .write) (1, .write) then
    g v (if Precedes l (0, .write) (1, .consult) then f v else v)
  else f v

namespace Race

variable {V : Type} {f : V → V} {g : V → V → V} {v v' : V} {l : List (ℕ × Access × V)}

lemma lastWrite_of_alone (h : ∀ e ∈ l, e.1 < 2) (hco : Coherent v l v')
    (h0 : ∃ c, own 0 l = [(.read, c), (.write, f c)]) (h1 : own 1 l = []) :
    v' = lastWrite f g v (l.map fun e => (e.1, e.2.1)) := by
  have hmem := mem_interleavings_own h
  obtain ⟨c, h0⟩ := h0
  simp only [h0, h1, List.map_cons, List.map_nil, interleavings_nil_right,
    List.mem_singleton] at hmem
  subst hmem
  obtain ⟨rfl, rfl⟩ := hco
  rfl

/-- **The value after both** depends only on the order of the accesses. -/
lemma lastWrite_of_both (h : ∀ e ∈ l, e.1 < 2) (hco : Coherent v l v')
    (h0 : ∃ c, own 0 l = [(.read, c), (.write, f c)])
    (h1 : (∃ c, own 1 l = [(.read, c), (.write, g c c)]) ∨
      ∃ c c', own 1 l = [(.read, c), (.consult, c'), (.write, g c c')]) :
    v' = lastWrite f g v (l.map fun e => (e.1, e.2.1)) := by
  have hmem := mem_interleavings_own h
  obtain ⟨a, h0⟩ := h0
  -- the order of the accesses is one of six, or of ten with a second look
  rcases h1 with ⟨c, h1⟩ | ⟨c, c', h1⟩
  · simp only [h0, h1, List.map_cons, List.map_nil, interleavings, List.cons_append,
      List.nil_append, List.mem_cons, List.not_mem_nil, or_false] at hmem
    rcases hmem with rfl | rfl | rfl | rfl | rfl | rfl
    all_goals
      obtain ⟨rfl, hco⟩ := hco
      simp only [Coherent] at hco
      obtain ⟨rfl, rfl⟩ := hco
      rfl
  · simp only [h0, h1, List.map_cons, List.map_nil, interleavings, List.cons_append,
      List.nil_append, List.mem_cons, List.not_mem_nil, or_false] at hmem
    rcases hmem with rfl | rfl | rfl | rfl | rfl | rfl | rfl | rfl | rfl | rfl
    all_goals
      obtain ⟨rfl, hco⟩ := hco
      simp only [Coherent] at hco
      obtain ⟨rfl, rfl, rfl⟩ := hco
      rfl

/-- **A race of two.** -/
theorem value_eq_lastWrite {t t' : Tx V} {w : List ℕ}
    (h0 : ∀ l, t.Emits l → ∃ c, l = [(.read, c), (.write, f c)])
    (h1 : ∀ l, t'.Emits l → l = [] ∨ (∃ c, l = [(.read, c), (.write, g c c)]) ∨
      ∃ c c', l = [(.read, c), (.consult, c'), (.write, g c c')])
    (hdone : ∀ i < 2, (w.foldl turn ⟨v, [t, t']⟩).txs[i]? = some .done) :
    (w.foldl turn ⟨v, [t, t']⟩).value = lastWrite f g v (accesses ⟨v, [t, t']⟩ w) := by
  have hco := coherent_trace w ⟨v, [t, t']⟩
  have hlt : ∀ e ∈ trace ⟨v, [t, t']⟩ w, e.1 < 2 := trace_lt w
  have hown0 := h0 _ (emits_trace (i := 0) w rfl (hdone 0 (by decide)))
  rcases h1 _ (emits_trace (i := 1) w rfl (hdone 1 (by decide))) with hown1 | hown1
  · exact lastWrite_of_alone hlt hco hown0 hown1
  · exact lastWrite_of_both hlt hco hown0 hown1

end Race

end Awl
