import Mathlib.Tactic.Common

/-!
Runs of a system, event by event, and the exact rule for a property of all its states: if an
event keeps the property exactly when it meets a condition, then the property holds all along
a run exactly when every event of the run meets it.
-/

namespace Awl

namespace Runs

variable {S E : Type} (step : S → E → S)

/-- `P` holds now and after each of the events. -/
def Holds (P : S → Prop) : S → List E → Prop
  | s, [] => P s
  | s, e :: es => P s ∧ Holds P (step s e) es

/-- Every event meets its condition in the state it starts from. -/
def Meets (C : S → E → Prop) : S → List E → Prop
  | _, [] => True
  | s, e :: es => C s e ∧ Meets C (step s e) es

instance instDecidableMeets {C : S → E → Prop} [∀ s e, Decidable (C s e)] :
    ∀ (s : S) (es : List E), Decidable (Meets step C s es)
  | _, [] => instDecidableTrue
  | s, e :: es => @instDecidableAnd (C s e) _ _ (instDecidableMeets (step s e) es)

variable {step} {I P : S → Prop} {C : S → E → Prop}

lemma Holds.here {s : S} {es : List E} (h : Holds step P s es) : P s := by
  cases es with
  | nil => exact h
  | cons e es => exact h.1

/-- **The exact rule**, with an invariant `I` that an event which keeps the property keeps. -/
theorem holds_iff_meets_of_kept (hI : ∀ s e, I s → P s → P (step s e) → I (step s e))
    (hstep : ∀ s e, I s → P s → (P (step s e) ↔ C s e)) (es : List E) :
    ∀ s, I s → P s → (Holds step P s es ↔ Meets step C s es) := by
  induction es with
  | nil => exact fun s _ hP => iff_true_intro hP
  | cons e es ih =>
    intro s hs hP
    rw [Holds, Meets, ← hstep s e hs hP]
    constructor
    · rintro ⟨-, h⟩
      exact ⟨h.here, (ih _ (hI s e hs hP h.here) h.here).mp h⟩
    · rintro ⟨hP', h⟩
      exact ⟨hP, (ih _ (hI s e hs hP hP') hP').mpr h⟩

/-- The same, with an invariant that every event keeps. -/
theorem holds_iff_meets (hI : ∀ s e, I s → P s → I (step s e))
    (hstep : ∀ s e, I s → P s → (P (step s e) ↔ C s e)) (es : List E) :
    ∀ s, I s → P s → (Holds step P s es ↔ Meets step C s es) :=
  holds_iff_meets_of_kept (fun s e hs hP _ => hI s e hs hP) hstep es

/-- **Invariants**: what every event that meets its condition keeps, holds all along. -/
theorem holds_of_meets (hstep : ∀ s e, I s → C s e → I (step s e)) (hP : ∀ s, I s → P s)
    (es : List E) : ∀ s, I s → Meets step C s es → Holds step P s es := by
  induction es with
  | nil => exact fun s hs _ => hP s hs
  | cons e es ih => exact fun s hs h => ⟨hP s hs, ih _ (hstep s e hs h.1) h.2⟩

/-- A condition on the events alone. -/
lemma meets_of_forall {C : E → Prop} (es : List E) (h : ∀ e ∈ es, C e) :
    ∀ s, Meets step (fun _ e => C e) s es := by
  induction es with
  | nil => exact fun _ => trivial
  | cons e es ih =>
    exact fun s => ⟨h e List.mem_cons_self, ih (fun x hx => h x (List.mem_cons_of_mem _ hx)) _⟩

/-- The same without a condition. -/
theorem holds_of_inv (hstep : ∀ s e, I s → I (step s e)) (hP : ∀ s, I s → P s) (es : List E) :
    ∀ s, I s → Holds step P s es := by
  induction es with
  | nil => exact hP
  | cons e es ih => exact fun s hs => ⟨hP s hs, ih _ (hstep s e hs)⟩

/-- Invariants of runs of which not every event is possible in every state. -/
theorem foldlM_inv {step : S → E → Option S} (hstep : ∀ s e s', I s → step s e = some s' → I s')
    (es : List E) : ∀ {s s' : S}, I s → es.foldlM step s = some s' → I s' := by
  induction es with
  | nil =>
    intro s s' h hs
    cases hs
    exact h
  | cons e es ih =>
    intro s s' h hs
    rw [List.foldlM_cons, Option.bind_eq_bind, Option.bind_eq_some_iff] at hs
    obtain ⟨s₁, hs₁, hrun⟩ := hs
    exact ih (hstep s e s₁ h hs₁) hrun

lemma Holds.last {es : List E} : ∀ {s : S}, Holds step P s es → P (es.foldl step s) := by
  induction es with
  | nil => exact fun h => h
  | cons e es ih => exact fun h => ih h.2

end Runs

end Awl
