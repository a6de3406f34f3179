import Awl.Goroutine
import Mathlib.Logic.Function.Basic

/-!
Several parties, each with a state of its own and goroutines over it, interleaved at every
critical section and every blocking operation.

What the goroutines of one party may rely on is written down in a contract. Its two worlds only
ever grow: what the party itself has done, and what it knows others have done. A goroutine is
safe if it keeps the invariant of its party in whatever worlds it is scheduled, and begins no
operation that is not owed in them.
-/

namespace Awl

namespace Code

variable {S Q R : Type}

/-- The operation a goroutine waits for. -/
def waiting : Code S Q R → Option Q
  | ask q _ => some q
  | _ => none

def isDone : Code S Q R → Bool
  | done => true
  | _ => false

lemma eq_done_of_isDone {k : Code S Q R} (h : k.isDone = true) : k = done := by
  cases k with
  | done => rfl
  | act upd next => cases h
  | ask q next => cases h
  | fork child next => cases h

/-- One step of a goroutine in the state `s`; a waiting one gets the answer `r`. The result is
the new state, what is left, and what has been started. -/
def turn : Code S Q R → S → R → S × Code S Q R × List (Code S Q R)
  | done, s, _ => (s, done, [])
  | act upd next, s, _ => (upd s, next s, [])
  | ask _ next, s, r => (s, next r, [])
  | fork child next, s, _ => (s, next, [child])

/-- The same goroutine where the operations are some of those in `Q'`. -/
def mapAsk {Q' : Type} (f : Q → Q') : Code S Q R → Code S Q' R
  | done => done
  | act upd next => act upd fun s => (next s).mapAsk f
  | ask q next => ask (f q) fun r => (next r).mapAsk f
  | fork child next => fork (child.mapAsk f) (next.mapAsk f)

end Code

/-! ### Contracts -/

/-- The terms on which a goroutine runs: the invariant of the state, the operations it may
begin, the answers it may get, and what holds of each critical section and what it leaves to
be done. -/
structure Contract (S Q R L G : Type) [Preorder L] [Preorder G] where
  inv : L → G → S → Prop
  owed : L → G → Q → Prop
  allowed : G → Q → R → Prop
  guar : S → S → Code S Q R → Prop
  inv_mono : ∀ {ℓ g g' s}, g ≤ g' → inv ℓ g s → inv ℓ g' s
  owed_mono : ∀ {ℓ ℓ' g g' q}, ℓ ≤ ℓ' → g ≤ g' → owed ℓ g q → owed ℓ' g' q
  guar_refl : ∀ s k, guar s s k

namespace Contract

variable {S Q R L G : Type} [Preorder L] [Preorder G]

/-- The goroutine keeps to the contract, in all worlds from `ℓ` and `g` on. -/
def Safe (C : Contract S Q R L G) : Code S Q R → L → G → Prop
  | .done, _, _ => True
  | .act upd next, ℓ, g => ∀ ℓ' ≥ ℓ, ∀ g' ≥ g, ∀ s, C.inv ℓ' g' s →
    C.guar s (upd s) (next s) ∧ ∃ ℓ'' ≥ ℓ', C.inv ℓ'' g' (upd s) ∧ C.Safe (next s) ℓ'' g'
  | .ask q next, ℓ, g => C.owed ℓ g q ∧
    ∀ ℓ' ≥ ℓ, ∀ g' ≥ g, ∀ r, C.allowed g' q r → C.Safe (next r) ℓ' g'
  | .fork child next, ℓ, g => C.Safe child ℓ g ∧ C.Safe next ℓ g

variable {C : Contract S Q R L G} {ℓ ℓ' : L} {g g' : G}

/-- A goroutine that has ended keeps to any terms. -/
lemma safe_of_isDone {k : Code S Q R} (h : k.isDone = true) : C.Safe k ℓ g := by
  rw [Code.eq_done_of_isDone h]
  trivial

lemma Safe.mono {k : Code S Q R} (h : C.Safe k ℓ g) (hℓ : ℓ ≤ ℓ') (hg : g ≤ g') :
    C.Safe k ℓ' g' := by
  induction k with
  | done => trivial
  | act upd next _ => exact fun m hm d hd => h m (hℓ.trans hm) d (hg.trans hd)
  | ask q next _ =>
    exact ⟨C.owed_mono hℓ hg h.1, fun m hm d hd => h.2 m (hℓ.trans hm) d (hg.trans hd)⟩
  | fork child next ihc ihn => exact ⟨ihc h.1, ihn h.2⟩

/-- A critical section that only reads. -/
lemma safe_read {next : S → Code S Q R}
    (h : ∀ ℓ' ≥ ℓ, ∀ g' ≥ g, ∀ s, C.inv ℓ' g' s → C.Safe (next s) ℓ' g') :
    C.Safe (.act id next) ℓ g :=
  fun ℓ' hℓ g' hg s hs => ⟨C.guar_refl s _, ℓ', le_refl ℓ', hs, h ℓ' hℓ g' hg s hs⟩

/-- A critical section that adds nothing to what the party has done. -/
lemma safe_act {upd : S → S} {next : S → Code S Q R}
    (hguar : ∀ ℓ' ≥ ℓ, ∀ g' ≥ g, ∀ s, C.inv ℓ' g' s → C.guar s (upd s) (next s))
    (hinv : ∀ ℓ' ≥ ℓ, ∀ g' ≥ g, ∀ s, C.inv ℓ' g' s → C.inv ℓ' g' (upd s))
    (h : ∀ s, C.Safe (next s) ℓ g) : C.Safe (.act upd next) ℓ g :=
  fun ℓ' hℓ g' hg s hs =>
    ⟨hguar ℓ' hℓ g' hg s hs, ℓ', le_refl ℓ', hinv ℓ' hℓ g' hg s hs, (h s).mono hℓ hg⟩

/-- An operation after which only the answer matters. -/
lemma safe_ask {q : Q} {next : R → Code S Q R} (hq : C.owed ℓ g q)
    (h : ∀ g' ≥ g, ∀ r, C.allowed g' q r → C.Safe (next r) ℓ g') : C.Safe (.ask q next) ℓ g :=
  ⟨hq, fun _ hℓ g' hg r hr => (h g' hg r hr).mono hℓ (le_refl g')⟩

/-- **One step** of a safe goroutine. -/
lemma Safe.turn {k : Code S Q R} (h : C.Safe k ℓ g) {s : S} (hs : C.inv ℓ g s) {r : R}
    (hr : ∀ q, k.waiting = some q → C.allowed g q r) :
    ∃ ℓ' ≥ ℓ, C.inv ℓ' g (k.turn s r).1 ∧ C.Safe (k.turn s r).2.1 ℓ' g ∧
      ∀ c ∈ (k.turn s r).2.2, C.Safe c ℓ' g := by
  cases k with
  | done => exact ⟨ℓ, le_refl ℓ, hs, trivial, by simp [Code.turn]⟩
  | act upd next =>
    obtain ⟨-, ℓ', hℓ, hs', hnext⟩ := h ℓ (le_refl ℓ) g (le_refl g) s hs
    exact ⟨ℓ', hℓ, hs', hnext, by simp [Code.turn]⟩
  | ask q next =>
    exact ⟨ℓ, le_refl ℓ, hs, h.2 ℓ (le_refl ℓ) g (le_refl g) r (hr q rfl), by simp [Code.turn]⟩
  | fork child next =>
    exact ⟨ℓ, le_refl ℓ, hs, h.2, fun c hc => List.mem_singleton.mp hc ▸ h.1⟩

/-- What a step of a safe goroutine guarantees. -/
lemma Safe.guar_turn {k : Code S Q R} (h : C.Safe k ℓ g) {s : S} (hs : C.inv ℓ g s) (r : R) :
    C.guar s (k.turn s r).1 (k.turn s r).2.1 := by
  cases k with
  | act upd next => exact (h ℓ (le_refl ℓ) g (le_refl g) s hs).1
  | done => exact C.guar_refl s _
  | ask q next => exact C.guar_refl s _
  | fork child next => exact C.guar_refl s _

lemma Safe.owed {k : Code S Q R} (h : C.Safe k ℓ g) {q : Q} (hq : k.waiting = some q) :
    C.owed ℓ g q := by
  cases k with
  | ask q' next => cases hq; exact h.1
  | done => cases hq
  | act upd next => cases hq
  | fork child next => cases hq

/-- The contract for goroutines that only begin some of the operations. -/
def comap {Q' : Type} (D : Contract S Q' R L G) (f : Q → Q') : Contract S Q R L G where
  inv := D.inv
  owed ℓ g q := D.owed ℓ g (f q)
  allowed g q r := D.allowed g (f q) r
  guar s s' k := D.guar s s' (k.mapAsk f)
  inv_mono := D.inv_mono
  owed_mono := D.owed_mono
  guar_refl s k := D.guar_refl s (k.mapAsk f)

lemma Safe.mapAsk {Q' : Type} {D : Contract S Q' R L G} {f : Q → Q'} {k : Code S Q R} :
    ∀ {ℓ : L} {g : G}, (D.comap f).Safe k ℓ g → D.Safe (k.mapAsk f) ℓ g := by
  induction k with
  | done => exact fun _ => trivial
  | act upd next ih =>
    intro ℓ g h ℓ' hℓ g' hg s hs
    obtain ⟨hguar, ℓ'', hℓ'', hinv, hnext⟩ := h ℓ' hℓ g' hg s hs
    exact ⟨hguar, ℓ'', hℓ'', hinv, ih s hnext⟩
  | ask q next ih => exact fun h => ⟨h.1, fun ℓ' hℓ g' hg r hr => ih r (h.2 ℓ' hℓ g' hg r hr)⟩
  | fork child next ihc ihn => exact fun h => ⟨ihc h.1, ihn h.2⟩

end Contract

/-! ### Parties -/

/-- The parties' states and goroutines, and the operations each has begun so far. A goroutine
that has ended stays in its place. -/
structure Parties (P S Q R : Type) where
  state : P → S
  tasks : P → List (Code S Q R)
  begun : P → List Q

namespace Parties

variable {P S Q R L G : Type}

/-- The operation the `i`-th goroutine of `p` waits for. -/
def awaited (σ : Parties P S Q R) (p : P) (i : ℕ) : Option Q := (σ.tasks p)[i]?.bind Code.waiting

variable [DecidableEq P]

/-- The `i`-th goroutine of `p` makes a step. -/
def turn (σ : Parties P S Q R) (p : P) (i : ℕ) (r : R) : Parties P S Q R :=
  match (σ.tasks p)[i]? with
  | none => σ
  | some k =>
    { state := Function.update σ.state p (k.turn (σ.state p) r).1
      tasks := Function.update σ.tasks p
        ((σ.tasks p).set i (k.turn (σ.state p) r).2.1 ++ (k.turn (σ.state p) r).2.2)
      begun := Function.update σ.begun p (k.waiting.toList ++ σ.begun p) }

/-- The operation the `i`-th goroutine of `p` waits for has begun: what it sends can be seen by
others before it has its answer. -/
def post (σ : Parties P S Q R) (p : P) (i : ℕ) : Parties P S Q R :=
  { σ with begun := Function.update σ.begun p ((σ.awaited p i).toList ++ σ.begun p) }

def start (σ : Parties P S Q R) (p : P) (k : Code S Q R) : Parties P S Q R :=
  { σ with tasks := Function.update σ.tasks p (σ.tasks p ++ [k]) }

/-- The state of `p` changes by something other than its goroutines. -/
def put (σ : Parties P S Q R) (p : P) (s : S) : Parties P S Q R :=
  { σ with state := Function.update σ.state p s }

/-- `p` stops and starts again in the state `s`, without goroutines. -/
def reset (σ : Parties P S Q R) (p : P) (s : S) : Parties P S Q R :=
  { σ with state := Function.update σ.state p s, tasks := Function.update σ.tasks p [] }

section

variable {σ : Parties P S Q R} {p : P} {i : ℕ} {k : Code S Q R}

lemma turn_none (h : (σ.tasks p)[i]? = none) (r : R) : σ.turn p i r = σ := by
  simp only [turn, h]

lemma turn_state (h : (σ.tasks p)[i]? = some k) (r : R) :
    (σ.turn p i r).state p = (k.turn (σ.state p) r).1 := by
  simp [turn, h]

lemma turn_tasks (h : (σ.tasks p)[i]? = some k) (r : R) :
    (σ.turn p i r).tasks p =
      (σ.tasks p).set i (k.turn (σ.state p) r).2.1 ++ (k.turn (σ.state p) r).2.2 := by
  simp [turn, h]

lemma turn_begun (h : (σ.tasks p)[i]? = some k) (r : R) :
    (σ.turn p i r).begun p = k.waiting.toList ++ σ.begun p := by
  simp [turn, h]

lemma turn_of_ne {p' : P} (hp : p' ≠ p) (r : R) :
    (σ.turn p i r).state p' = σ.state p' ∧ (σ.turn p i r).tasks p' = σ.tasks p' ∧
      (σ.turn p i r).begun p' = σ.begun p' := by
  unfold turn
  split
  · exact ⟨rfl, rfl, rfl⟩
  · exact ⟨Function.update_of_ne hp _ _, Function.update_of_ne hp _ _,
      Function.update_of_ne hp _ _⟩

/-- The other goroutines stay as they are. -/
lemma turn_task_ne (h : (σ.tasks p)[i]? = some k) {j : ℕ} (hj : j ≠ i) {c : Code S Q R}
    (hc : (σ.tasks p)[j]? = some c) (r : R) : ((σ.turn p i r).tasks p)[j]? = some c := by
  have hlt : j < (σ.tasks p).length := (List.getElem?_eq_some_iff.mp hc).1
  rw [turn_tasks h, List.getElem?_append_left (by simpa using hlt), List.getElem?_set_ne hj.symm,
    hc]

lemma turn_task (h : (σ.tasks p)[i]? = some k) (r : R) :
    ((σ.turn p i r).tasks p)[i]? = some (k.turn (σ.state p) r).2.1 := by
  have hlt : i < (σ.tasks p).length := (List.getElem?_eq_some_iff.mp h).1
  rw [turn_tasks h, List.getElem?_append_left (by simpa using hlt), List.getElem?_set_self hlt]

lemma turn_started (h : (σ.tasks p)[i]? = some k) {r : R} {c : Code S Q R}
    (hc : c ∈ (k.turn (σ.state p) r).2.2) : ∃ j : ℕ, ((σ.turn p i r).tasks p)[j]? = some c :=
  List.mem_iff_getElem?.mp (by rw [turn_tasks h]; exact List.mem_append_right _ hc)

lemma start_task {p' : P} {c : Code S Q R} {j : ℕ} (hc : (σ.tasks p')[j]? = some c)
    (k : Code S Q R) : ((σ.start p k).tasks p')[j]? = some c := by
  by_cases hp : p' = p
  · subst hp
    have hlt : j < (σ.tasks p').length := (List.getElem?_eq_some_iff.mp hc).1
    simp only [start, Function.update_self, List.getElem?_append_left hlt, hc]
  · simp only [start, Function.update_of_ne hp, hc]

lemma start_task_new (σ : Parties P S Q R) (p : P) (k : Code S Q R) :
    ((σ.start p k).tasks p)[(σ.tasks p).length]? = some k := by
  simp [start]

lemma subset_turn_begun (σ : Parties P S Q R) (p p' : P) (i : ℕ) (r : R) :
    σ.begun p' ⊆ (σ.turn p i r).begun p' := by
  by_cases hp : p' = p
  · subst hp
    rcases hi : (σ.tasks p')[i]? with _ | k
    · rw [turn_none hi]
      exact fun _ h => h
    · rw [turn_begun hi]
      exact List.subset_append_right _ _
  · rw [(turn_of_ne hp r).2.2]
    exact fun _ h => h

lemma subset_post_begun (σ : Parties P S Q R) (p p' : P) (i : ℕ) :
    σ.begun p' ⊆ (σ.post p i).begun p' := by
  by_cases hp : p' = p
  · subst hp
    simp only [post, Function.update_self]
    exact List.subset_append_right _ _
  · simp only [post, Function.update_of_ne hp]
    exact fun _ h => h

end

/-- `p` is in a state of its contract, with goroutines that are safe or exempt, and has begun
only what it owed. -/
structure KeepsBut [Preorder L] [Preorder G] (E : Code S Q R → Prop) (σ : Parties P S Q R) (p : P)
    (C : Contract S Q R L G) (ℓ : L) (g : G) : Prop where
  inv : C.inv ℓ g (σ.state p)
  tasks : ∀ k ∈ σ.tasks p, C.Safe k ℓ g ∨ E k
  begun : ∀ q ∈ σ.begun p, C.owed ℓ g q

namespace KeepsBut

variable [Preorder L] [Preorder G] {E : Code S Q R → Prop} {σ : Parties P S Q R} {p p' : P}
  {C : Contract S Q R L G} {ℓ ℓ' : L} {g g' : G}

omit [DecidableEq P] in
lemma mono (h : σ.KeepsBut E p C ℓ g) (hg : g ≤ g') : σ.KeepsBut E p C ℓ g' :=
  ⟨C.inv_mono hg h.inv, fun k hk => (h.tasks k hk).imp_left fun hk => hk.mono (le_refl ℓ) hg,
    fun q hq => C.owed_mono (le_refl ℓ) hg (h.begun q hq)⟩

omit [DecidableEq P] in
/-- What the other parties do leaves a party where it is. -/
lemma frame {σ' : Parties P S Q R} (h : σ.KeepsBut E p C ℓ g) (hs : σ'.state p = σ.state p)
    (ht : σ'.tasks p = σ.tasks p) (hb : σ'.begun p = σ.begun p) : σ'.KeepsBut E p C ℓ g :=
  ⟨hs ▸ h.inv, ht ▸ h.tasks, hb ▸ h.begun⟩

lemma turn_other (h : σ.KeepsBut E p' C ℓ g) (hp : p' ≠ p) (i : ℕ) (r : R) :
    (σ.turn p i r).KeepsBut E p' C ℓ g := by
  obtain ⟨hs, ht, hb⟩ := turn_of_ne (σ := σ) (i := i) hp r
  exact h.frame hs ht hb

/-- A goroutine makes a step after which all is well again. -/
lemma turn_of (h : σ.KeepsBut E p C ℓ g) {i : ℕ} {k : Code S Q R}
    (hi : (σ.tasks p)[i]? = some k) (hℓ : ℓ ≤ ℓ') {r : R}
    (hinv : C.inv ℓ' g (k.turn (σ.state p) r).1)
    (hnext : C.Safe (k.turn (σ.state p) r).2.1 ℓ' g ∨ E (k.turn (σ.state p) r).2.1)
    (hstarted : ∀ c ∈ (k.turn (σ.state p) r).2.2, C.Safe c ℓ' g)
    (hbegun : ∀ q, k.waiting = some q → C.owed ℓ g q) :
    (σ.turn p i r).KeepsBut E p C ℓ' g := by
  refine ⟨?_, ?_, ?_⟩
  · rwa [turn_state hi]
  · rw [turn_tasks hi]
    intro c hc
    rcases List.mem_append.mp hc with hc | hc
    · rcases List.mem_or_eq_of_mem_set hc with hc | rfl
      · exact (h.tasks c hc).imp_left fun hc => hc.mono hℓ (le_refl g)
      · exact hnext
    · exact Or.inl (hstarted c hc)
  · rw [turn_begun hi]
    intro q hq
    rcases List.mem_append.mp hq with hq | hq
    · exact C.owed_mono hℓ (le_refl g) (hbegun q (Option.mem_toList.mp hq))
    · exact C.owed_mono hℓ (le_refl g) (h.begun q hq)

/-- A safe goroutine makes a step, with an answer that the contract allows. -/
lemma turn (h : σ.KeepsBut E p C ℓ g) {i : ℕ} {r : R}
    (hsafe : ∀ k, (σ.tasks p)[i]? = some k → C.Safe k ℓ g)
    (hr : ∀ q, σ.awaited p i = some q → C.allowed g q r) :
    ∃ ℓ' ≥ ℓ, (σ.turn p i r).KeepsBut E p C ℓ' g := by
  rcases hi : (σ.tasks p)[i]? with _ | k
  · exact ⟨ℓ, le_refl ℓ, by rwa [turn_none hi]⟩
  · obtain ⟨ℓ', hℓ, hinv, hnext, hstarted⟩ := (hsafe k hi).turn h.inv fun q hq =>
      hr q (by rw [awaited, hi, Option.bind_some, hq])
    exact ⟨ℓ', hℓ, h.turn_of hi hℓ hinv (Or.inl hnext) hstarted fun q => (hsafe k hi).owed⟩

lemma post (h : σ.KeepsBut E p' C ℓ g) (hE : ∀ k, E k → k.waiting = none) (i : ℕ) :
    (σ.post p i).KeepsBut E p' C ℓ g := by
  refine ⟨h.inv, h.tasks, ?_⟩
  by_cases hp : p' = p
  · subst hp
    simp only [Parties.post, Function.update_self]
    intro q hq
    rcases List.mem_append.mp hq with hq | hq
    · obtain ⟨k, hk, hw⟩ := Option.bind_eq_some_iff.mp (Option.mem_toList.mp hq)
      rcases h.tasks k (List.mem_of_getElem? hk) with hsafe | hexempt
      · exact hsafe.owed hw
      · rw [hE k hexempt] at hw
        cases hw
    · exact h.begun q hq
  · simp only [Parties.post, Function.update_of_ne hp]
    exact h.begun

lemma start (h : σ.KeepsBut E p' C ℓ g) {k : Code S Q R} (hk : p' = p → C.Safe k ℓ g ∨ E k) :
    (σ.start p k).KeepsBut E p' C ℓ g := by
  refine ⟨h.inv, ?_, h.begun⟩
  by_cases hp : p' = p
  · subst hp
    simp only [Parties.start, Function.update_self]
    intro c hc
    rcases List.mem_append.mp hc with hc | hc
    · exact h.tasks c hc
    · exact List.mem_singleton.mp hc ▸ hk rfl
  · simp only [Parties.start, Function.update_of_ne hp]
    exact h.tasks

end KeepsBut

/-- `p` is in a state of its contract, with safe goroutines, and has begun only what it owed. -/
structure Keeps [Preorder L] [Preorder G] (σ : Parties P S Q R) (p : P)
    (C : Contract S Q R L G) (ℓ : L) (g : G) : Prop where
  inv : C.inv ℓ g (σ.state p)
  tasks : ∀ k ∈ σ.tasks p, C.Safe k ℓ g
  begun : ∀ q ∈ σ.begun p, C.owed ℓ g q

namespace Keeps

variable [Preorder L] [Preorder G] {σ : Parties P S Q R} {p p' : P} {C : Contract S Q R L G}
  {ℓ : L} {g g' : G}

omit [DecidableEq P] in
lemma iff_but : σ.Keeps p C ℓ g ↔ σ.KeepsBut (fun _ => False) p C ℓ g :=
  ⟨fun h => ⟨h.inv, fun k hk => Or.inl (h.tasks k hk), h.begun⟩,
    fun h => ⟨h.inv, fun k hk => (h.tasks k hk).resolve_right id, h.begun⟩⟩

omit [DecidableEq P] in
lemma mono (h : σ.Keeps p C ℓ g) (hg : g ≤ g') : σ.Keeps p C ℓ g' :=
  iff_but.mpr ((iff_but.mp h).mono hg)

omit [DecidableEq P] in
/-- What the other parties do leaves a party where it is. -/
lemma frame {σ' : Parties P S Q R} (h : σ.Keeps p C ℓ g) (hs : σ'.state p = σ.state p)
    (ht : σ'.tasks p = σ.tasks p) (hb : σ'.begun p = σ.begun p) : σ'.Keeps p C ℓ g :=
  ⟨hs ▸ h.inv, ht ▸ h.tasks, hb ▸ h.begun⟩

lemma turn_other (h : σ.Keeps p' C ℓ g) (hp : p' ≠ p) (i : ℕ) (r : R) :
    (σ.turn p i r).Keeps p' C ℓ g := by
  obtain ⟨hs, ht, hb⟩ := turn_of_ne (σ := σ) (i := i) hp r
  exact h.frame hs ht hb

/-- A goroutine makes a step, with an answer that the contract allows. -/
lemma turn (h : σ.Keeps p C ℓ g) {i : ℕ} {r : R}
    (hr : ∀ q, σ.awaited p i = some q → C.allowed g q r) :
    ∃ ℓ' ≥ ℓ, (σ.turn p i r).Keeps p C ℓ' g := by
  obtain ⟨ℓ', hℓ, h'⟩ := (iff_but.mp h).turn
    (fun k hk => h.tasks k (List.mem_of_getElem? hk)) hr
  exact ⟨ℓ', hℓ, iff_but.mpr h'⟩

lemma post (h : σ.Keeps p' C ℓ g) (i : ℕ) : (σ.post p i).Keeps p' C ℓ g :=
  iff_but.mpr ((iff_but.mp h).post (fun _ hno => hno.elim) i)

lemma start (h : σ.Keeps p' C ℓ g) {k : Code S Q R} (hk : p' = p → C.Safe k ℓ g) :
    (σ.start p k).Keeps p' C ℓ g :=
  iff_but.mpr ((iff_but.mp h).start fun hp => Or.inl (hk hp))

lemma put (h : σ.Keeps p' C ℓ g) {s : S} (hs : p' = p → C.inv ℓ g s) :
    (σ.put p s).Keeps p' C ℓ g := by
  refine ⟨?_, h.tasks, h.begun⟩
  by_cases hp : p' = p
  · subst hp
    simp only [Parties.put, Function.update_self]
    exact hs rfl
  · simp only [Parties.put, Function.update_of_ne hp]
    exact h.inv

lemma reset (h : σ.Keeps p' C ℓ g) {s : S} (hs : p' = p → C.inv ℓ g s) :
    (σ.reset p s).Keeps p' C ℓ g := by
  by_cases hp : p' = p
  · subst hp
    refine ⟨?_, ?_, h.begun⟩
    · simp only [Parties.reset, Function.update_self]
      exact hs rfl
    · simp only [Parties.reset, Function.update_self]
      exact fun k hk => absurd hk List.not_mem_nil
  · exact h.frame (Function.update_of_ne hp _ _) (Function.update_of_ne hp _ _) rfl

end Keeps

end Parties

/-! ### Two parties -/

inductive Side
  | a | b
  deriving DecidableEq

def Side.other : Side → Side
  | a => b
  | b => a

@[simp] lemma Side.other_other (x : Side) : x.other.other = x := by cases x <;> rfl

lemma Side.other_ne (x : Side) : x.other ≠ x := by cases x <;> decide

lemma Side.eq_other {x z : Side} (h : z ≠ x) : z = x.other := by
  cases x <;> cases z <;> first | rfl | exact absurd rfl h

end Awl
