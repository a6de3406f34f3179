import Awl.Parties

/-!
The goroutines of one machine, interleaved at every critical section.

A run of them is a list of the same events as in the coarse interleaving; here an event lets a
goroutine make one step. What a goroutine can ever do, whatever it reads and whatever answers it
gets, is a property of its code alone.
-/

namespace Awl

namespace Code

variable {S Q R : Type}

/-- Every critical section and every operation of the goroutine and of those it starts. -/
def All (A : (S → S) → Prop) (B : Q → Prop) : Code S Q R → Prop
  | done => True
  | act upd next => A upd ∧ ∀ s, (next s).All A B
  | ask q next => B q ∧ ∀ r, (next r).All A B
  | fork child next => child.All A B ∧ next.All A B

section

variable {A : (S → S) → Prop} {B : Q → Prop} {child next k : Code S Q R}
  {nextS : S → Code S Q R} {nextR : R → Code S Q R}

@[simp] lemma all_done : (done : Code S Q R).All A B := trivial

@[simp] lemma all_act {upd : S → S} :
    (act upd nextS).All A B ↔ A upd ∧ ∀ s, (nextS s).All A B := Iff.rfl

@[simp] lemma all_ask {q : Q} : (ask q nextR).All A B ↔ B q ∧ ∀ r, (nextR r).All A B := Iff.rfl

@[simp] lemma all_fork : (fork child next).All A B ↔ child.All A B ∧ next.All A B := Iff.rfl

end

/-- `P` holds of the goroutine wherever it stands, and of those it starts. -/
def Always (P : Code S Q R → Prop) : Code S Q R → Prop
  | done => P done
  | act upd next => P (act upd next) ∧ ∀ s, (next s).Always P
  | ask q next => P (ask q next) ∧ ∀ r, (next r).Always P
  | fork child next => P (fork child next) ∧ child.Always P ∧ next.Always P

section

variable {P : Code S Q R → Prop} {k : Code S Q R}

lemma Always.here (h : k.Always P) : P k := by
  cases k with
  | done => exact h
  | act upd next => exact h.1
  | ask q next => exact h.1
  | fork child next => exact h.1

lemma Always.turn (h : k.Always P) (s : S) (r : R) :
    (k.turn s r).2.1.Always P ∧ ∀ c ∈ (k.turn s r).2.2, c.Always P := by
  cases k with
  | done => exact ⟨h, by simp [Code.turn]⟩
  | act upd next => exact ⟨h.2 s, by simp [Code.turn]⟩
  | ask q next => exact ⟨h.2 r, by simp [Code.turn]⟩
  | fork child next => exact ⟨h.2.2, fun c hc => List.mem_singleton.mp hc ▸ h.2.1⟩

end

end Code

namespace Machine

variable {S Q R L : Type}

def start (m : Machine S Q R) (k : Code S Q R) : Machine S Q R := { m with pool := m.pool ++ [k] }

/-- The `i`-th goroutine makes a step; if it waits, it gets the answer `r`. -/
def turn (m : Machine S Q R) (i : ℕ) (r : R) : Machine S Q R :=
  match m.pool[i]? with
  | none => m
  | some k =>
    { state := (k.turn m.state r).1
      pool := m.pool.set i (k.turn m.state r).2.1 ++ (k.turn m.state r).2.2 }

/-- One event of the fine interleaving; `code` says what a call runs. -/
def fine (code : L → Code S Q R) (m : Machine S Q R) : Event L R → Machine S Q R
  | .call l => m.start (code l)
  | .resume i r => m.turn i r

section

variable {m : Machine S Q R} {i : ℕ} {k : Code S Q R}

lemma turn_none (h : m.pool[i]? = none) (r : R) : m.turn i r = m := by
  simp only [turn, h]

lemma turn_state (h : m.pool[i]? = some k) (r : R) :
    (m.turn i r).state = (k.turn m.state r).1 := by
  simp only [turn, h]

lemma turn_pool (h : m.pool[i]? = some k) (r : R) :
    (m.turn i r).pool = m.pool.set i (k.turn m.state r).2.1 ++ (k.turn m.state r).2.2 := by
  simp only [turn, h]

/-- The goroutine that made the step. -/
lemma turn_self (h : m.pool[i]? = some k) (r : R) :
    (m.turn i r).pool[i]? = some (k.turn m.state r).2.1 := by
  have hlt : i < m.pool.length := (List.getElem?_eq_some_iff.mp h).1
  rw [turn_pool h, List.getElem?_append_left (by simpa using hlt), List.getElem?_set_self hlt]

/-- Another one. -/
lemma turn_other (h : m.pool[i]? = some k) {j : ℕ} (hij : i ≠ j) {c : Code S Q R}
    (hj : m.pool[j]? = some c) (r : R) : (m.turn i r).pool[j]? = some c := by
  have hlt : j < m.pool.length := (List.getElem?_eq_some_iff.mp hj).1
  rw [turn_pool h, List.getElem?_append_left (by simpa using hlt), List.getElem?_set_ne hij, hj]

lemma turn_act {upd : S → S} {next : S → Code S Q R} (h : m.pool[i]? = some (.act upd next))
    (r : R) : (m.turn i r).state = upd m.state ∧ (m.turn i r).pool[i]? = some (next m.state) :=
  ⟨turn_state h r, turn_self h r⟩

lemma turn_ask {q : Q} {next : R → Code S Q R} (h : m.pool[i]? = some (.ask q next)) (r : R) :
    (m.turn i r).state = m.state ∧ (m.turn i r).pool[i]? = some (next r) :=
  ⟨turn_state h r, turn_self h r⟩

/-- Where the goroutines after a step come from: one was there before, made the step, or has
been started by it. -/
lemma turn_cases (h : m.pool[i]? = some k) {r : R} {j : ℕ} {c : Code S Q R}
    (hc : (m.turn i r).pool[j]? = some c) :
    (j ≠ i ∧ m.pool[j]? = some c) ∨ (j = i ∧ c = (k.turn m.state r).2.1) ∨
      (m.pool.length ≤ j ∧ c ∈ (k.turn m.state r).2.2) := by
  rw [turn_pool h] at hc
  rcases Nat.lt_or_ge j m.pool.length with hj | hj
  · rw [List.getElem?_append_left (by simpa using hj), List.getElem?_set] at hc
    split_ifs at hc with he hlt
    · exact Or.inr (Or.inl ⟨he.symm, (Option.some.inj hc).symm⟩)
    · exact Or.inl ⟨fun e => he e.symm, hc⟩
  · rw [List.getElem?_append_right (by simpa using hj)] at hc
    exact Or.inr (Or.inr ⟨hj, List.mem_of_getElem? hc⟩)

lemma start_new (m : Machine S Q R) (k : Code S Q R) :
    (m.start k).pool[m.pool.length]? = some k := by
  simp [start]

lemma start_cases {c : Code S Q R} {j : ℕ} (hc : (m.start k).pool[j]? = some c) :
    m.pool[j]? = some c ∨ (j = m.pool.length ∧ c = k) := by
  rcases Nat.lt_trichotomy j m.pool.length with hj | rfl | hj
  · rw [start, List.getElem?_append_left hj] at hc
    exact Or.inl hc
  · rw [start_new] at hc
    exact Or.inr ⟨rfl, (Option.some.inj hc).symm⟩
  · rw [start, List.getElem?_eq_none (by simp; omega)] at hc
    cases hc

end

lemma turn_fork {child next : Code S Q R} {m : Machine S Q R} {i : ℕ}
    (h : m.pool[i]? = some (.fork child next)) (r : R) :
    (m.turn i r).state = m.state ∧ (m.turn i r).pool[i]? = some next ∧
      (m.turn i r).pool[m.pool.length]? = some child := by
  refine ⟨turn_state h r, turn_self h r, ?_⟩
  rw [turn_pool h, List.getElem?_append_right (by simp)]
  simp [Code.turn]

/-- What always holds of the goroutines of every call holds of all goroutines of a run. -/
lemma fine_always {P : Code S Q R → Prop} {code : L → Code S Q R}
    (hcode : ∀ l, (code l).Always P) (es : List (Event L R)) {m : Machine S Q R}
    (h : ∀ k ∈ m.pool, k.Always P) : ∀ k ∈ (es.foldl (fine code) m).pool, k.Always P := by
  induction es generalizing m with
  | nil => exact h
  | cons e es ih =>
    refine ih fun c hc => ?_
    obtain ⟨j, hj⟩ := List.mem_iff_getElem?.mp hc
    cases e with
    | call l =>
      rcases start_cases hj with hj | ⟨-, rfl⟩
      · exact h c (List.mem_of_getElem? hj)
      · exact hcode l
    | resume i r =>
      rcases hk : m.pool[i]? with _ | k
      · rw [fine, turn_none hk] at hj
        exact h c (List.mem_of_getElem? hj)
      · obtain ⟨hnext, hstarted⟩ := (h k (List.mem_of_getElem? hk)).turn m.state r
        rcases turn_cases hk hj with ⟨-, hj⟩ | ⟨-, rfl⟩ | ⟨-, hc⟩
        · exact h c (List.mem_of_getElem? hj)
        · exact hnext
        · exact hstarted c hc

/-- The machine is in a state of the contract, and its goroutines are safe. -/
structure Keeps {L G : Type} [Preorder L] [Preorder G] (C : Contract S Q R L G) (ℓ : L) (g : G)
    (m : Machine S Q R) : Prop where
  inv : C.inv ℓ g m.state
  safe : ∀ k ∈ m.pool, C.Safe k ℓ g

namespace Keeps

variable {L G : Type} [Preorder L] [Preorder G] {C : Contract S Q R L G} {ℓ : L} {g : G}
  {m : Machine S Q R}

/-- One of the goroutines makes a step. -/
lemma turn (h : Keeps C ℓ g m) {i : ℕ} {k : Code S Q R} (hk : m.pool[i]? = some k) {r : R}
    (hr : ∀ q, k.waiting = some q → C.allowed g q r) :
    ∃ ℓ' ≥ ℓ, Keeps C ℓ' g (m.turn i r) := by
  obtain ⟨ℓ', hℓ, hinv, hnext, hstarted⟩ :=
    (h.safe k (List.mem_of_getElem? hk)).turn h.inv hr
  refine ⟨ℓ', hℓ, by rwa [turn_state hk], fun c hc => ?_⟩
  obtain ⟨j, hj⟩ := List.mem_iff_getElem?.mp hc
  rcases turn_cases hk hj with ⟨-, hj⟩ | ⟨-, rfl⟩ | ⟨-, hc⟩
  · exact (h.safe c (List.mem_of_getElem? hj)).mono hℓ (le_refl g)
  · exact hnext
  · exact hstarted c hc

lemma start (h : Keeps C ℓ g m) {k : Code S Q R} (hk : C.Safe k ℓ g) :
    Keeps C ℓ g (m.start k) := by
  refine ⟨h.inv, fun c hc => ?_⟩
  rcases List.mem_append.mp hc with hc | hc
  · exact h.safe c hc
  · exact List.mem_singleton.mp hc ▸ hk

end Keeps

end Machine

end Awl
