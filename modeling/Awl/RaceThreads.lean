import Awl.Race
import Awl.Threads

/-!
Goroutines that implement transactions race as these do, whatever else they do in between.
-/

namespace Awl

section

variable {S Q R V : Type} [Inhabited R]

/-- The answer of the network to what a goroutine waits for. -/
def Code.answer (net : Q → R) (k : Code S Q R) : R := (k.waiting.map net).getD default

/-- The `i`-th goroutine makes a step; `net` answers what it waits for. -/
def Machine.advance (net : Q → R) (m : Machine S Q R) (i : ℕ) : Machine S Q R :=
  match m.pool[i]? with
  | none => m
  | some k => m.turn i (k.answer net)

/-- In states with `Φ`, the turns of the goroutine do to the value what those of the transaction
do, and it ends when that does. -/
def Implements (net : Q → R) (Φ : S → Prop) (view : S → V) : Tx V → Code S Q R → Prop
  | .done, k => k.isDone = true
  | .quiet t, k => k.isDone = false ∧ ∀ s, Φ s → Φ (k.turn s (k.answer net)).1 ∧
      view (k.turn s (k.answer net)).1 = view s ∧
      Implements net Φ view t (k.turn s (k.answer net)).2.1
  | .read t, k => k.isDone = false ∧ ∀ s, Φ s → Φ (k.turn s (k.answer net)).1 ∧
      view (k.turn s (k.answer net)).1 = view s ∧
      Implements net Φ view (t (view s)) (k.turn s (k.answer net)).2.1
  | .consult t, k => k.isDone = false ∧ ∀ s, Φ s → Φ (k.turn s (k.answer net)).1 ∧
      view (k.turn s (k.answer net)).1 = view s ∧
      Implements net Φ view (t (view s)) (k.turn s (k.answer net)).2.1
  | .write v t, k => k.isDone = false ∧ ∀ s, Φ s → Φ (k.turn s (k.answer net)).1 ∧
      view (k.turn s (k.answer net)).1 = v ∧
      Implements net Φ view t (k.turn s (k.answer net)).2.1

variable {net : Q → R} {Φ : S → Prop} {view : S → V}

namespace Implements

lemma act {upd : S → S} {next : S → Code S Q R} {t : Tx V}
    (h : ∀ s, Φ s → Φ (upd s) ∧ view (upd s) = view s ∧ Implements net Φ view t (next s)) :
    Implements net Φ view (.quiet t) (.act upd next) := ⟨rfl, h⟩

/-- A critical section that does not concern the value. -/
lemma skip {next : S → Code S Q R} {t : Tx V}
    (h : ∀ s, Φ s → Implements net Φ view t (next s)) :
    Implements net Φ view (.quiet t) (.act id next) :=
  act fun s hs => ⟨hs, rfl, h s hs⟩

lemma ask {q : Q} {next : R → Code S Q R} {t : Tx V}
    (h : Implements net Φ view t (next (net q))) :
    Implements net Φ view (.quiet t) (.ask q next) :=
  ⟨rfl, fun _ hs => ⟨hs, rfl, h⟩⟩

lemma fork {child next : Code S Q R} {t : Tx V} (h : Implements net Φ view t next) :
    Implements net Φ view (.quiet t) (.fork child next) :=
  ⟨rfl, fun _ hs => ⟨hs, rfl, h⟩⟩

lemma read {next : S → Code S Q R} {t : V → Tx V}
    (h : ∀ s, Φ s → Implements net Φ view (t (view s)) (next s)) :
    Implements net Φ view (.read t) (.act id next) :=
  ⟨rfl, fun s hs => ⟨hs, rfl, h s hs⟩⟩

lemma consult {next : S → Code S Q R} {t : V → Tx V}
    (h : ∀ s, Φ s → Implements net Φ view (t (view s)) (next s)) :
    Implements net Φ view (.consult t) (.act id next) :=
  ⟨rfl, fun s hs => ⟨hs, rfl, h s hs⟩⟩

lemma write {upd : S → S} {next : S → Code S Q R} {v : V} {t : Tx V}
    (h : ∀ s, Φ s → Φ (upd s) ∧ view (upd s) = v ∧ Implements net Φ view t (next s)) :
    Implements net Φ view (.write v t) (.act upd next) := ⟨rfl, h⟩

lemma eq_done {t : Tx V} {k : Code S Q R} (h : Implements net Φ view t k)
    (hk : k.isDone = true) : t = .done := by
  cases t with
  | done => rfl
  | quiet t => exact absurd hk (by simp [h.1])
  | read t => exact absurd hk (by simp [h.1])
  | consult t => exact absurd hk (by simp [h.1])
  | write v t => exact absurd hk (by simp [h.1])

lemma turn {t : Tx V} {k : Code S Q R} (h : Implements net Φ view t k) {s : S} (hs : Φ s) :
    Φ (k.turn s (k.answer net)).1 ∧
      view (k.turn s (k.answer net)).1 = (t.turn (view s)).1 ∧
      Implements net Φ view (t.turn (view s)).2.1 (k.turn s (k.answer net)).2.1 := by
  cases t with
  | done =>
    cases k with
    | done => exact ⟨hs, rfl, rfl⟩
    | act upd next => cases h
    | ask q next => cases h
    | fork child next => cases h
  | quiet t => exact h.2 s hs
  | read t => exact h.2 s hs
  | consult t => exact h.2 s hs
  | write v t => exact h.2 s hs

end Implements

/-- The first goroutines of the machine implement the transactions of the race. -/
structure Machine.Races (net : Q → R) (Φ : S → Prop) (view : S → V) (m : Machine S Q R)
    (ρ : Race V) : Prop where
  frame : Φ m.state
  value : view m.state = ρ.value
  tx : ∀ {i : ℕ} {t : Tx V}, ρ.txs[i]? = some t →
    ∃ k, m.pool[i]? = some k ∧ Implements net Φ view t k

namespace Machine.Races

variable {m : Machine S Q R} {ρ : Race V}

lemma advance (h : m.Races net Φ view ρ) {i : ℕ} (hi : i < ρ.txs.length) :
    (m.advance net i).Races net Φ view (ρ.turn i) := by
  obtain ⟨t, ht⟩ : ∃ t, ρ.txs[i]? = some t := ⟨_, List.getElem?_eq_getElem hi⟩
  obtain ⟨k, hk, himp⟩ := h.tx ht
  obtain ⟨hframe, hvalue, hnext⟩ := himp.turn h.frame
  rw [h.value] at hvalue hnext
  have hadv : m.advance net i = m.turn i (k.answer net) := by
    simp only [Machine.advance, hk]
  refine ⟨?_, ?_, fun {j t'} ht' => ?_⟩
  · rwa [hadv, turn_state hk]
  · rw [hadv, turn_state hk, Race.turn_some ht]
    exact hvalue
  · by_cases hij : i = j
    · subst hij
      cases Option.some.inj ((Race.turn_self ht).symm.trans ht')
      exact ⟨_, by rw [hadv, turn_self hk], hnext⟩
    · rw [Race.turn_other hij] at ht'
      obtain ⟨k', hk', himp'⟩ := h.tx ht'
      exact ⟨k', by rw [hadv, turn_other hk hij hk' _], himp'⟩

/-- **Runs.** -/
lemma run (w : List ℕ) : ∀ {m : Machine S Q R} {ρ : Race V}, m.Races net Φ view ρ →
    (∀ i ∈ w, i < ρ.txs.length) →
    (w.foldl (Machine.advance net) m).Races net Φ view (w.foldl Race.turn ρ) := by
  induction w with
  | nil => exact fun h _ => h
  | cons i w ih =>
    intro m ρ h hw
    have hi := hw i List.mem_cons_self
    refine ih (h.advance hi) fun j hj => ?_
    rw [Race.turn_length]
    exact hw j (List.mem_cons_of_mem _ hj)

/-- A transaction has come to its end when its goroutine has. -/
lemma done (h : m.Races net Φ view ρ) {i : ℕ} {k : Code S Q R} (hi : i < ρ.txs.length)
    (hk : m.pool[i]? = some k) (hdone : k.isDone = true) : ρ.txs[i]? = some .done := by
  obtain ⟨k', hk', himp⟩ := h.tx (List.getElem?_eq_getElem hi)
  cases Option.some.inj (hk.symm.trans hk')
  rw [List.getElem?_eq_getElem hi, himp.eq_done hdone]

end Machine.Races

end

end Awl
