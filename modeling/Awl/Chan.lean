import Mathlib.Tactic.Common

/-!
Buffered Go channels, as the non-blocking operations see them: a `select` with a `default`
branch sends if there is room and panics on a closed channel, a receive takes the oldest
element, and closing twice panics.
-/

namespace Awl

structure Chan (α : Type) where
  cap : ℕ
  buf : List α
  le_cap : buf.length ≤ cap
  closed : Bool

namespace Chan

variable {α : Type}

/-- `make(chan α, cap)`. -/
def make (α : Type) (cap : ℕ) : Chan α := ⟨cap, [], Nat.zero_le cap, false⟩

inductive Sent (α : Type)
  | sent (c : Chan α)
  | full
  | panics

def push (c : Chan α) (x : α) (h : c.buf.length < c.cap) : Chan α :=
  { c with buf := c.buf ++ [x], le_cap := by rw [List.length_append]; exact h }

/-- `select { case c <- x: … default: … }`. -/
def trySend (c : Chan α) (x : α) : Sent α :=
  if c.closed then .panics
  else if h : c.buf.length < c.cap then .sent (c.push x h)
  else .full

/-- The oldest element and the channel without it. -/
def recv (c : Chan α) : Option (α × Chan α) :=
  match h : c.buf with
  | [] => none
  | x :: rest => some (x, { c with
      buf := rest
      le_cap := by have := c.le_cap; rw [h, List.length_cons] at this; omega })

/-- `close(c)`; `none` is the panic on a closed channel. What is in the channel can be received
still. -/
def close (c : Chan α) : Option (Chan α) :=
  if c.closed then none else some { c with closed := true }

/-- `close(c)` followed by draining what is left; `none` is the panic on a closed channel. -/
def closeAndDrain (c : Chan α) : Option (Chan α) :=
  if c.closed then none else some { c with buf := [], le_cap := Nat.zero_le _, closed := true }

@[simp] lemma make_closed (cap : ℕ) : (make α cap).closed = false := rfl

lemma trySend_cases {c : Chan α} (h : c.closed = false) (x : α) :
    (∃ c', c.trySend x = .sent c' ∧ c'.closed = false ∧ c'.buf = c.buf ++ [x]) ∨
      c.trySend x = .full := by
  by_cases hl : c.buf.length < c.cap
  · exact Or.inl ⟨c.push x hl, by simp [trySend, h, hl], h, rfl⟩
  · exact Or.inr (by simp [trySend, h, hl])

lemma recv_closed {c c' : Chan α} {x : α} (h : c.recv = some (x, c')) : c'.closed = c.closed := by
  unfold recv at h
  split at h
  · cases h
  · cases h; rfl

lemma recv_eq_none {c : Chan α} : c.recv = none ↔ c.buf = [] := by
  unfold recv
  split
  · next h => simp [h]
  · next h => simp [h]

lemma recv_cap {c c' : Chan α} {x : α} (h : c.recv = some (x, c')) : c'.cap = c.cap := by
  unfold recv at h
  split at h
  · cases h
  · cases h; rfl

lemma recv_buf {c c' : Chan α} {x : α} (h : c.recv = some (x, c')) : c.buf = x :: c'.buf := by
  unfold recv at h
  split at h
  · cases h
  · rename_i hbuf
    cases h
    exact hbuf

lemma trySend_buf {c c' : Chan α} {x : α} (h : c.trySend x = .sent c') :
    c'.buf = c.buf ++ [x] := by
  unfold trySend at h
  split_ifs at h
  cases h
  rfl

lemma trySend_cap {c c' : Chan α} {x : α} (h : c.trySend x = .sent c') :
    c'.cap = c.cap ∧ c'.closed = c.closed := by
  unfold trySend at h
  split_ifs at h
  cases h
  exact ⟨rfl, rfl⟩

lemma closeAndDrain_buf {c c' : Chan α} (h : c.closeAndDrain = some c') : c'.buf = [] := by
  unfold closeAndDrain at h
  split_ifs at h
  cases h
  rfl

lemma closeAndDrain_of_open {c : Chan α} (h : c.closed = false) :
    ∃ c', c.closeAndDrain = some c' := by
  simp [closeAndDrain, h]

end Chan

end Awl
