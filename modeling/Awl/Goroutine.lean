import Awl.Runs
import Mathlib.Data.List.Basic
import Mathlib.Order.Basic
import Mathlib.Tactic.Common

/-!
Goroutines over a shared state.

A goroutine is the tree of what it does next: a critical section reads and updates the state
in one step, a blocking operation waits for an answer from outside, and a `go` statement
starts another goroutine. Programs are written in a continuation monad over such trees.

They are interleaved in the coarse way: a goroutine runs from one blocking operation to the next
without interruption (`Machine`, with the exact rule `Machine.holds_iff_meets`). What has to hold
of a goroutine for that rule is `Seg`, or just `Stays` where every critical section keeps the
property.
-/

namespace Awl

inductive Code (S Q R : Type) : Type
  | done
  | act (upd : S → S) (next : S → Code S Q R)
  | ask (q : Q) (next : R → Code S Q R)
  | fork (child next : Code S Q R)

/-- Programs: what remains to be done is passed along. -/
def Go (S Q R α : Type) : Type := (α → Code S Q R) → Code S Q R

namespace Go

variable {S Q R α β : Type}

instance : Monad (Go S Q R) where
  pure a k := k a
  bind x f k := x fun a => f a k

@[simp] lemma pure_apply (a : α) (k : α → Code S Q R) : (pure a : Go S Q R α) k = k a := rfl

@[simp] lemma bind_apply (x : Go S Q R α) (f : α → Go S Q R β) (k : β → Code S Q R) :
    (x >>= f) k = x fun a => f a k := rfl

@[simp] lemma map_apply (f : α → β) (x : Go S Q R α) (k : β → Code S Q R) :
    (f <$> x) k = x fun a => k (f a) := rfl

@[simp] lemma ite_apply (c : Prop) [Decidable c] (x y : Go S Q R α) (k : α → Code S Q R) :
    (if c then x else y) k = if c then x k else y k := by
  split <;> rfl

/-- A critical section that updates the state and takes something out of it. -/
def locked (upd : S → S) (out : S → α) : Go S Q R α := fun k => .act upd fun s => k (out s)

def modify (upd : S → S) : Go S Q R Unit := locked upd fun _ => ()

def read (out : S → α) : Go S Q R α := locked id out

/-- A blocking operation. -/
def block (q : Q) : Go S Q R R := fun k => .ask q k

/-- The goroutine that runs a program to its end. -/
def code (x : Go S Q R α) : Code S Q R := x fun _ => .done

/-- The `go` statement. -/
def spawn (x : Go S Q R α) : Go S Q R Unit := fun k => .fork x.code (k ())

@[simp] lemma locked_apply (upd : S → S) (out : S → α) (k : α → Code S Q R) :
    locked upd out k = .act upd fun s => k (out s) := rfl

@[simp] lemma modify_apply (upd : S → S) (k : Unit → Code S Q R) :
    modify upd k = .act upd fun _ => k () := rfl

@[simp] lemma read_apply (out : S → α) (k : α → Code S Q R) :
    read out k = .act id fun s => k (out s) := rfl

@[simp] lemma block_apply (q : Q) (k : R → Code S Q R) : block q k = .ask q k := rfl

@[simp] lemma spawn_apply (x : Go S Q R α) (k : Unit → Code S Q R) :
    spawn x k = .fork x.code (k ()) := rfl

end Go

namespace Code

variable {S Q R : Type}

/-! ### Running to the next blocking operation -/

/-- Run from the state `s` up to the next blocking operation or the end: the state reached,
the goroutines started on the way, and what is left. -/
def runSeg : Code S Q R → S → S × List (Code S Q R) × Code S Q R
  | done, s => (s, [], done)
  | act upd next, s => runSeg (next s) (upd s)
  | ask q next, s => (s, [], ask q next)
  | fork child next, s =>
    let (s', started, rest) := runSeg next s
    (s', child :: started, rest)

/-- What is run when a waiting goroutine gets the answer `r`. -/
def resume : Code S Q R → R → Code S Q R
  | ask _ next, r => next r
  | k, _ => k

/-- Run from `s`, the goroutine reaches its next blocking operation in a state with `P`
exactly if `b`; and so it goes on from there, and so do the goroutines it starts: answered `r`
to `q` in a state with `P`, they keep `P` exactly if `Ok q r` holds of that state. -/
def Seg (P : S → Prop) (Ok : Q → R → S → Prop) : Code S Q R → S → Prop → Prop
  | done, s, b => P s ↔ b
  | act upd next, s, b => Seg P Ok (next s) (upd s) b
  | ask q next, s, b => (P s ↔ b) ∧ ∀ r s', P s' → Seg P Ok (next r) s' (Ok q r s')
  | fork child next, s, b => (∀ s', P s' → Seg P Ok child s' True) ∧ Seg P Ok next s b

/-- A goroutine that can be scheduled at any later time. -/
def Ready (P : S → Prop) (Ok : Q → R → S → Prop) (k : Code S Q R) : Prop :=
  ∀ s, P s → k.Seg P Ok s True

/-- A goroutine whose next segment neither breaks `P` nor repairs it. -/
def Keeps (P : S → Prop) (Ok : Q → R → S → Prop) (k : Code S Q R) : Prop :=
  ∀ s, k.Seg P Ok s (P s)

lemma Seg.congr {P : S → Prop} {Ok : Q → R → S → Prop} {k : Code S Q R} {s : S} {b b' : Prop}
    (h : k.Seg P Ok s b) (hb : b ↔ b') : k.Seg P Ok s b' := propext hb ▸ h

lemma Keeps.ready {P : S → Prop} {Ok : Q → R → S → Prop} {k : Code S Q R} (h : k.Keeps P Ok) :
    k.Ready P Ok :=
  fun s hs => (h s).congr (iff_true_intro hs)

section

variable {P : S → Prop} {Ok : Q → R → S → Prop}

lemma keeps_done : (done : Code S Q R).Keeps P Ok := fun _ => Iff.rfl

lemma keeps_act {upd : S → S} {next : S → Code S Q R} (hupd : ∀ s, P (upd s) ↔ P s)
    (h : ∀ s, (next s).Keeps P Ok) : (act upd next).Keeps P Ok :=
  fun s => (h s (upd s)).congr (hupd s)

lemma keeps_read {next : S → Code S Q R} (h : ∀ s, (next s).Keeps P Ok) :
    (act id next).Keeps P Ok :=
  keeps_act (fun _ => Iff.rfl) h

/-- A blocking operation whose answer leaves the property alone. -/
lemma keeps_ask {q : Q} {next : R → Code S Q R} (hq : ∀ r s, Ok q r s)
    (h : ∀ r, (next r).Ready P Ok) : (ask q next).Keeps P Ok :=
  fun _ => ⟨Iff.rfl, fun r s hs => (h r s hs).congr (iff_of_true trivial (hq r s))⟩

lemma keeps_fork {child next : Code S Q R} (hchild : child.Ready P Ok)
    (h : next.Keeps P Ok) : (fork child next).Keeps P Ok :=
  fun s => ⟨hchild, h s⟩

end

lemma Seg.runSeg {P : S → Prop} {Ok : Q → R → S → Prop} {k : Code S Q R} :
    ∀ {s : S} {b : Prop}, k.Seg P Ok s b →
      (P (k.runSeg s).1 ↔ b) ∧ (∀ c ∈ (k.runSeg s).2.1, c.Ready P Ok) ∧
        (k.runSeg s).2.2.Ready P Ok := by
  induction k with
  | done => exact fun h => ⟨h, by simp [Code.runSeg], fun s hs => iff_true_intro hs⟩
  | act upd next ih => exact fun h => ih _ h
  | ask q next _ =>
    exact fun h => ⟨h.1, by simp [Code.runSeg], fun s hs => ⟨iff_true_intro hs, h.2⟩⟩
  | fork child next _ ih =>
    intro s b h
    obtain ⟨h1, h2, h3⟩ := ih h.2
    refine ⟨h1, fun c hc => ?_, h3⟩
    rcases List.mem_cons.mp hc with rfl | hc
    · exact h.1
    · exact h2 c hc

/-! ### Invariants -/

/-- Every critical section keeps `P`, also in the goroutines that are started. -/
def Stays (P : S → Prop) : Code S Q R → Prop
  | done => True
  | act upd next => ∀ s, P s → P (upd s) ∧ Stays P (next s)
  | ask _ next => ∀ r, Stays P (next r)
  | fork child next => Stays P child ∧ Stays P next

section

variable {P : S → Prop}

lemma stays_done : (done : Code S Q R).Stays P := trivial

lemma stays_read {next : S → Code S Q R} (h : ∀ s, P s → (next s).Stays P) :
    (act id next).Stays P :=
  fun s hs => ⟨hs, h s hs⟩

lemma stays_act {upd : S → S} {next : S → Code S Q R} (hupd : ∀ s, P s → P (upd s))
    (h : ∀ s, (next s).Stays P) : (act upd next).Stays P :=
  fun s hs => ⟨hupd s hs, h s⟩

/-- Such a goroutine can be scheduled at any time. -/
lemma Stays.ready {k : Code S Q R} (h : k.Stays P) : k.Ready P fun _ _ _ => True := by
  induction k with
  | done => exact fun s hs => iff_true_intro hs
  | act upd next ih => exact fun s hs => ih s (h s hs).2 (upd s) (h s hs).1
  | ask q next ih => exact fun s hs => ⟨iff_true_intro hs, fun r s' hs' => ih r (h r) s' hs'⟩
  | fork child next ihc ihn => exact fun s hs => ⟨ihc h.1, ihn h.2 s hs⟩

end

end Code

/-! ### The coarse interleaving -/

/-- A state and the goroutines that have been started. -/
structure Machine (S Q R : Type) where
  state : S
  pool : List (Code S Q R)

/-- What happens next: a call from outside, or a goroutine is scheduled, with the answer to
the operation it waits for. -/
inductive Event (L R : Type)
  | call (l : L)
  | resume (i : ℕ) (r : R)

namespace Machine

variable {S Q R L : Type}

def exec (m : Machine S Q R) (k : Code S Q R) : Machine S Q R where
  state := (k.runSeg m.state).1
  pool := m.pool ++ (k.runSeg m.state).2.1 ++ [(k.runSeg m.state).2.2]

/-- One event; `code` says what a call runs. -/
def step (code : L → Code S Q R) (m : Machine S Q R) : Event L R → Machine S Q R
  | .call l => m.exec (code l)
  | .resume i r =>
    match m.pool[i]? with
    | some k => { m with pool := m.pool.set i .done }.exec (k.resume r)
    | none => m

/-- The condition of one event, on the state before it. -/
def Cond (OkCall : L → S → Prop) (Ok : Q → R → S → Prop) (m : Machine S Q R) :
    Event L R → Prop
  | .call l => OkCall l m.state
  | .resume i r =>
    match m.pool[i]? with
    | some (.ask q _) => Ok q r m.state
    | _ => True

section

variable {code : L → Code S Q R} {P : S → Prop} {OkCall : L → S → Prop} {Ok : Q → R → S → Prop}

lemma exec_spec {m : Machine S Q R} {k : Code S Q R} {b : Prop} (hk : k.Seg P Ok m.state b)
    (hpool : ∀ c ∈ m.pool, c.Ready P Ok) :
    (P (m.exec k).state ↔ b) ∧ ∀ c ∈ (m.exec k).pool, c.Ready P Ok := by
  obtain ⟨h1, h2, h3⟩ := hk.runSeg
  refine ⟨h1, fun c hc => ?_⟩
  simp only [exec, List.mem_append, List.mem_singleton] at hc
  rcases hc with (hc | hc) | rfl
  · exact hpool c hc
  · exact h2 c hc
  · exact h3

/-- **One event** keeps the property exactly when it meets its condition. -/
lemma step_spec (hcode : ∀ l s, P s → (code l).Seg P Ok s (OkCall l s)) {m : Machine S Q R}
    (hP : P m.state) (hpool : ∀ c ∈ m.pool, c.Ready P Ok) (e : Event L R) :
    (P (m.step code e).state ↔ m.Cond OkCall Ok e) ∧
      ∀ c ∈ (m.step code e).pool, c.Ready P Ok := by
  cases e with
  | call l => exact exec_spec (hcode l m.state hP) hpool
  | resume i r =>
    rcases hi : m.pool[i]? with _ | k
    · simp only [step, Cond, hi]
      exact ⟨iff_true_intro hP, hpool⟩
    · have hk := hpool k (List.mem_of_getElem? hi) m.state hP
      have hpool' : ∀ c ∈ m.pool.set i .done, c.Ready P Ok := by
        intro c hc
        rcases List.mem_or_eq_of_mem_set hc with hc | rfl
        · exact hpool c hc
        · exact fun s hs => iff_true_intro hs
      have hexec := fun (k' : Code S Q R) (b : Prop) (h : k'.Seg P Ok m.state b) =>
        exec_spec (m := ⟨m.state, m.pool.set i .done⟩) h hpool'
      simp only [step, Cond, hi]
      cases k with
      | ask q next => exact hexec _ _ (hk.2 r m.state hP)
      | done => exact hexec _ _ hk
      | act upd next => exact hexec _ _ hk
      | fork child next => exact hexec _ _ hk

/-- **Runs**: the property holds all along exactly when every event meets its condition. -/
theorem holds_iff_meets (hcode : ∀ l s, P s → (code l).Seg P Ok s (OkCall l s))
    (es : List (Event L R)) {m : Machine S Q R} (hP : P m.state)
    (hpool : ∀ c ∈ m.pool, c.Ready P Ok) :
    Runs.Holds (step code) (fun m => P m.state) m es ↔
      Runs.Meets (step code) (Cond OkCall Ok) m es :=
  Runs.holds_iff_meets (I := fun m => ∀ c ∈ m.pool, c.Ready P Ok)
    (fun _ e hpool hP => (step_spec hcode hP hpool e).2)
    (fun _ e hpool hP => (step_spec hcode hP hpool e).1) es m hpool hP

end

end Machine

end Awl
