import Awl.Parties

/-!
Goroutines that get somewhere, whatever the others do meanwhile.

A goal is reached by a critical section that makes something true, or by waiting for a certain
operation. That a goroutine leads to it is a fact about the goroutine alone: the state it is
scheduled in and the answers it gets only have to be among those that are expected. So a
goroutine that leads to a goal keeps doing so while others run, and one that has ended does
not.
-/

namespace Awl

structure Goal (S Q R : Type) where
  /-- the states in which the goroutine may be scheduled -/
  inv : S → Prop
  answers : Q → R → Prop
  made : S → Prop
  waits : Q → (R → Code S Q R) → Prop
  /-- whether the goal may be left to a goroutine that is started on the way -/
  handoff : Prop

namespace Goal

variable {S Q R : Type}

def Leads (T : Goal S Q R) : Code S Q R → Prop
  | .done => False
  | .act upd next => ∀ s, T.inv s → T.made (upd s) ∨ T.Leads (next s)
  | .ask q next => T.waits q next ∨ ∀ r, T.answers q r → T.Leads (next r)
  | .fork child next => (T.handoff ∧ T.Leads child) ∨ T.Leads next

variable {T : Goal S Q R}

lemma leads_act {upd : S → S} {next : S → Code S Q R} (h : ∀ s, T.inv s → T.Leads (next s)) :
    T.Leads (.act upd next) :=
  fun s hs => Or.inr (h s hs)

lemma leads_ask {q : Q} {next : R → Code S Q R} (h : ∀ r, T.answers q r → T.Leads (next r)) :
    T.Leads (.ask q next) :=
  Or.inr h

lemma Leads.not_isDone {k : Code S Q R} (h : T.Leads k) : ¬ k.isDone = true := by
  cases k with
  | done => exact h.elim
  | act upd next => exact Bool.false_ne_true
  | ask q next => exact Bool.false_ne_true
  | fork child next => exact Bool.false_ne_true

/-- **One step** on the way: the goal is reached, or the goroutine was waiting there, or it is
still led to, by what is left or by what has been started. -/
lemma Leads.turn {k : Code S Q R} (h : T.Leads k) {s : S} (hs : T.inv s) {r : R}
    (hr : ∀ q ∈ k.waiting, T.answers q r) :
    T.made (k.turn s r).1 ∨ (∃ q next, k = .ask q next ∧ T.waits q next) ∨
      T.Leads (k.turn s r).2.1 ∨ (T.handoff ∧ ∃ c ∈ (k.turn s r).2.2, T.Leads c) := by
  cases k with
  | done => exact h.elim
  | act upd next => exact (h s hs).imp id fun h => Or.inr (Or.inl h)
  | ask q next =>
    rcases h with h | h
    · exact Or.inr (Or.inl ⟨q, next, rfl, h⟩)
    · exact Or.inr (Or.inr (Or.inl (h r (hr q rfl))))
  | fork child next =>
    rcases h with ⟨hoff, h⟩ | h
    · exact Or.inr (Or.inr (Or.inr ⟨hoff, child, List.mem_singleton.mpr rfl, h⟩))
    · exact Or.inr (Or.inr (Or.inl h))

/-- The same in a network of parties: the `j`-th goroutine of `p` leads to the goal, and the
`i`-th one makes a step. -/
lemma Leads.at_turn {P : Type} [DecidableEq P] {σ : Parties P S Q R} {p : P} {i j : ℕ}
    {k : Code S Q R} (h : T.Leads k) (hj : (σ.tasks p)[j]? = some k) (hs : T.inv (σ.state p))
    {r : R} (hr : ∀ q ∈ σ.awaited p i, T.answers q r) :
    T.made ((σ.turn p i r).state p) ∨ (j = i ∧ ∃ q next, k = .ask q next ∧ T.waits q next) ∨
      (∃ k', ((σ.turn p i r).tasks p)[j]? = some k' ∧ T.Leads k') ∨
      (T.handoff ∧ ∃ (j' : ℕ) (k' : Code S Q R), ((σ.turn p i r).tasks p)[j']? = some k' ∧
        T.Leads k') := by
  rcases hi : (σ.tasks p)[i]? with _ | k₀
  · rw [Parties.turn_none hi]
    exact Or.inr (Or.inr (Or.inl ⟨k, hj, h⟩))
  by_cases he : j = i
  · subst he
    cases hi.symm.trans hj
    have hr' : ∀ q ∈ k.waiting, T.answers q r := fun q hq =>
      hr q (by rw [Parties.awaited, hj]; exact hq)
    rcases h.turn hs hr' with hmade | hwaits | hnext | ⟨hoff, c, hc, hlead⟩
    · left
      rwa [Parties.turn_state hj]
    · exact Or.inr (Or.inl ⟨rfl, hwaits⟩)
    · exact Or.inr (Or.inr (Or.inl ⟨_, Parties.turn_task hj r, hnext⟩))
    · obtain ⟨j', hj'⟩ := Parties.turn_started hj hc
      exact Or.inr (Or.inr (Or.inr ⟨hoff, j', c, hj', hlead⟩))
  · exact Or.inr (Or.inr (Or.inl ⟨k, Parties.turn_task_ne hi he hj r, h⟩))

end Goal

end Awl
