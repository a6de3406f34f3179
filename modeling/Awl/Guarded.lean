import Mathlib.Algebra.BigOperators.Group.Finset.Basic
import Mathlib.Algebra.Order.BigOperators.Group.Finset
import Mathlib.Algebra.Order.Ring.Int
import Mathlib.Data.Fintype.Basic

/-!
Threads that run lists of guarded actions on a shared state.

A thread waits while the guard of its next action does not hold; the system is stuck if all of
them wait. What the threads have yet to do is part of the state, so a bound on the shared state
can be paid for by the actions that remain: if no action gains more than the thread gives up,
none of the runs does.
-/

namespace Awl

namespace Guarded

/-- The actions: when each may be taken, and what it does. -/
structure Actions (S A : Type) where
  enabled : S → A → Prop
  apply : S → A → S
  dec : ∀ s a, Decidable (enabled s a)

instance {S A : Type} (G : Actions S A) (s : S) (a : A) : Decidable (G.enabled s a) := G.dec s a

/-- The actions can be taken one after the other. -/
def Actions.Goes {S A : Type} (G : Actions S A) : S → List A → Prop
  | _, [] => True
  | s, a :: l => G.enabled s a ∧ G.Goes (G.apply s a) l

/-- What a thread has yet to do, and what it does over and over after that. -/
structure Thread (A : Type) where
  rest : List A
  body : List A
  deriving DecidableEq

/-- One action later. -/
def Thread.next {A : Type} (t : Thread A) : Thread A :=
  { t with rest := if t.rest.tail.isEmpty then t.body else t.rest.tail }

/-- The shared state and the threads. -/
structure Pool (S A ι : Type) where
  shared : S
  threads : ι → Thread A

variable {S A ι : Type} (G : Actions S A)

namespace Pool

variable [DecidableEq ι]

/-- The thread `i` takes its next action if it can. -/
def turn (σ : Pool S A ι) (i : ι) : Pool S A ι :=
  match (σ.threads i).rest with
  | [] => σ
  | a :: _ =>
    if G.enabled σ.shared a then
      ⟨G.apply σ.shared a, Function.update σ.threads i (σ.threads i).next⟩
    else σ

omit [DecidableEq ι] in
/-- No thread can take an action. -/
def Stuck (σ : Pool S A ι) : Prop :=
  ∀ i, ∀ a ∈ (σ.threads i).rest.head?, ¬ G.enabled σ.shared a

instance [Fintype ι] (σ : Pool S A ι) : Decidable (σ.Stuck G) :=
  inferInstanceAs (Decidable (∀ i, ∀ a ∈ (σ.threads i).rest.head?, ¬ G.enabled σ.shared a))

variable {G}

lemma turn_cases (σ : Pool S A ι) (i : ι) :
    σ.turn G i = σ ∨ ∃ a, (σ.threads i).rest.head? = some a ∧ G.enabled σ.shared a ∧
      σ.turn G i = ⟨G.apply σ.shared a, Function.update σ.threads i (σ.threads i).next⟩ := by
  unfold turn
  rcases hr : (σ.threads i).rest with _ | ⟨a, l⟩
  · exact Or.inl rfl
  · by_cases ha : G.enabled σ.shared a
    · exact Or.inr ⟨a, rfl, ha, if_pos ha⟩
    · exact Or.inl (if_neg ha)

/-! ### What runs keep -/

/-- What every action that is taken keeps. -/
lemma run_keeps {P : Pool S A ι → Prop}
    (hP : ∀ σ i a, P σ → (σ.threads i).rest.head? = some a → G.enabled σ.shared a →
      P ⟨G.apply σ.shared a, Function.update σ.threads i (σ.threads i).next⟩) (w : List ι) :
    ∀ σ, P σ → P (w.foldl (turn G) σ) := by
  induction w with
  | nil => exact fun σ h => h
  | cons j w ih =>
    refine fun σ h => ih _ ?_
    rcases turn_cases (G := G) σ j with he | ⟨a, ha, hen, he⟩
    · rwa [he]
    · rw [he]
      exact hP σ j a h ha hen

/-- What each thread keeps by itself. -/
lemma run_threads {R : ι → Thread A → Prop} (hR : ∀ i t, R i t → R i t.next) (w : List ι) :
    ∀ σ : Pool S A ι, (∀ i, R i (σ.threads i)) → ∀ i, R i ((w.foldl (turn G) σ).threads i) := by
  induction w with
  | nil => exact fun σ h => h
  | cons j w ih =>
    refine fun σ h => ih _ fun i => ?_
    rcases turn_cases (G := G) σ j with he | ⟨a, -, -, he⟩
    · rw [he]
      exact h i
    · rw [he]
      dsimp only
      by_cases hi : i = j
      · subst hi
        rw [Function.update_self]
        exact hR i _ (h i)
      · rw [Function.update_of_ne hi]
        exact h i

/-- **The balance of a run**: if no action makes `m` gain more than the thread's weight does,
then over a run `m` gains at most what the weights do together. -/
theorem run_balance [Fintype ι] {R : ι → Thread A → Prop} (hR : ∀ i t, R i t → R i t.next)
    (m : S → ℤ) (weight : ι → Thread A → ℤ)
    (hw : ∀ i t s a, R i t → t.rest.head? = some a → G.enabled s a →
      m (G.apply s a) + weight i t ≤ m s + weight i t.next) (w : List ι) :
    ∀ σ : Pool S A ι, (∀ i, R i (σ.threads i)) →
      m (w.foldl (turn G) σ).shared + ∑ i, weight i (σ.threads i) ≤
        m σ.shared + ∑ i, weight i ((w.foldl (turn G) σ).threads i) := by
  induction w with
  | nil => exact fun σ _ => le_refl _
  | cons j w ih =>
    intro σ h
    have hstep : m (σ.turn G j).shared + ∑ i, weight i (σ.threads i) ≤
        m σ.shared + ∑ i, weight i ((σ.turn G j).threads i) := by
      rcases turn_cases (G := G) σ j with he | ⟨a, ha, hen, he⟩
      · rw [he]
      · rw [he]
        dsimp only
        have hj := hw j (σ.threads j) σ.shared a (h j) ha hen
        -- the sums differ in the thread that has moved
        rw [← Finset.add_sum_erase _ _ (Finset.mem_univ j),
          ← Finset.add_sum_erase _ (fun i => weight i (Function.update σ.threads j
            (σ.threads j).next i)) (Finset.mem_univ j)]
        have hrest : ∑ i ∈ Finset.univ.erase j,
            weight i (Function.update σ.threads j (σ.threads j).next i) =
            ∑ i ∈ Finset.univ.erase j, weight i (σ.threads i) := by
          refine Finset.sum_congr rfl fun i hi => ?_
          rw [Function.update_of_ne (Finset.ne_of_mem_erase hi)]
        rw [hrest, Function.update_self]
        omega
    have hlater := ih (σ.turn G j) (run_threads (G := G) hR [j] σ h)
    rw [List.foldl_cons]
    omega

/-- The same where nothing is lost. -/
theorem run_balance_eq [Fintype ι] {R : ι → Thread A → Prop} (hR : ∀ i t, R i t → R i t.next)
    (m : S → ℤ) (weight : ι → Thread A → ℤ)
    (hw : ∀ i t s a, R i t → t.rest.head? = some a → G.enabled s a →
      m (G.apply s a) + weight i t = m s + weight i t.next) (w : List ι) (σ : Pool S A ι)
    (h : ∀ i, R i (σ.threads i)) :
    m (w.foldl (turn G) σ).shared + ∑ i, weight i (σ.threads i) =
      m σ.shared + ∑ i, weight i ((w.foldl (turn G) σ).threads i) := by
  refine le_antisymm
    (run_balance hR m weight (fun i t s a h1 h2 h3 => (hw i t s a h1 h2 h3).le) w σ h) ?_
  have hneg := run_balance (G := G) hR (fun s => -m s) (fun i t => -weight i t)
    (fun i t s a h1 h2 h3 => by have := hw i t s a h1 h2 h3; omega) w σ h
  simp only [Finset.sum_neg_distrib] at hneg
  omega

/-! ### Letting one thread run -/

/-- A thread that ends takes the first of its actions. -/
lemma run_goes {i : ι} {r : List A} (l : List A) : ∀ σ : Pool S A ι,
    σ.threads i = ⟨l ++ r, []⟩ → G.Goes σ.shared l →
    (List.replicate l.length i).foldl (turn G) σ =
      ⟨l.foldl G.apply σ.shared, Function.update σ.threads i ⟨r, []⟩⟩ := by
  induction l with
  | nil =>
    intro σ hi _
    have hupd : Function.update σ.threads i ⟨r, []⟩ = σ.threads := by
      rw [← List.nil_append r, ← hi, Function.update_eq_self]
    simp only [List.length_nil, List.replicate_zero, List.foldl_nil, hupd]
  | cons a l ih =>
    intro σ hi hgo
    have hnext : (σ.threads i).next = ⟨l ++ r, []⟩ := by
      rw [hi, Thread.next]
      rcases hl : l ++ r with _ | ⟨b, l'⟩ <;> simp [hl]
    have hturn : σ.turn G i =
        ⟨G.apply σ.shared a, Function.update σ.threads i ⟨l ++ r, []⟩⟩ := by
      rw [← hnext, turn, hi]
      exact if_pos hgo.1
    rw [List.length_cons, List.replicate_succ, List.foldl_cons, hturn,
      ih _ (Function.update_self i _ _) hgo.2, Function.update_idem]
    rfl

end Pool

end Guarded

end Awl
