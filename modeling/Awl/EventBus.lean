import Awl.Guarded
import Mathlib.Algebra.BigOperators.Ring.Finset
import Mathlib.Data.Fintype.Sum
import Mathlib.Data.Fintype.BigOperators

/-!
The event `KnownPeerChanged`, the lock of the configuration and the two subscribers.

`UpsertPeer` and `RemovePeer` emit the event when they have given the lock back.
`UpdatePeerSettings` emits it while it holds the lock, which the callbacks of the subscribers
need for reading. The queues of the subscribers are bounded, and `Emit` waits for room.
-/

namespace Awl

open Guarded

/-- `Tunnel.RefreshPeersList` and `DNSService.refreshDNSConfig`, in the order of subscription. -/
inductive Subscriber
  | tunnel | dns
  deriving DecidableEq

instance : Fintype Subscriber := ⟨{.tunnel, .dns}, fun i => by cases i <;> decide⟩

/-- What the operations and the callbacks do with the lock and the queues. A `Lock` keeps new
readers out first and then waits for those that are in. -/
inductive BusAction
  | rLock | rUnlock | announce | acquire | unlock
  | send (i : Subscriber)
  | recv (i : Subscriber)
  deriving DecidableEq

/-- The lock, and how many events wait in each queue. -/
structure Bus where
  writer : Bool
  readers : ℕ
  queue : Subscriber → ℕ

/-- The actions, with queues of capacity `c`. Giving back a lock that is not held is an error. -/
def busActions (c : ℕ) : Actions Bus BusAction where
  enabled s
    | .rLock | .announce => s.writer = false
    | .rUnlock => 0 < s.readers
    | .acquire => s.readers = 0
    | .unlock => s.writer = true
    | .send i => s.queue i < c
    | .recv i => 0 < s.queue i
  apply s
    | .rLock => { s with readers := s.readers + 1 }
    | .rUnlock => { s with readers := s.readers - 1 }
    | .announce => { s with writer := true }
    | .acquire => s
    | .unlock => { s with writer := false }
    | .send i => { s with queue := Function.update s.queue i (s.queue i + 1) }
    | .recv i => { s with queue := Function.update s.queue i (s.queue i - 1) }
  dec s
    | .rLock | .announce => inferInstanceAs (Decidable (s.writer = false))
    | .rUnlock => inferInstanceAs (Decidable (0 < s.readers))
    | .acquire => inferInstanceAs (Decidable (s.readers = 0))
    | .unlock => inferInstanceAs (Decidable (s.writer = true))
    | .send i => inferInstanceAs (Decidable (s.queue i < c))
    | .recv i => inferInstanceAs (Decidable (0 < s.queue i))

/-! ### The operations -/

/-- How far a request for new settings gets. -/
inductive SettingsOutcome
  | invalid | notFound | aliasTaken | ipRefused | saved
  deriving DecidableEq

inductive BusOp
  | upsertPeer
  | removePeer (exist : Bool)
  | updatePeerSettings (outcome : SettingsOutcome)
  deriving DecidableEq

/-- `Emit`. -/
def emit : List BusAction := [.send .tunnel, .send .dns]

/-- A function that reads under the lock: `GetPeer`, `IsUniqPeerAlias`. -/
def readSection : List BusAction := [.rLock, .rUnlock]

/-- What the operation does. -/
def BusOp.path : BusOp → List BusAction
  | upsertPeer => [.announce, .acquire, .unlock] ++ emit
  | removePeer true => [.announce, .acquire, .unlock] ++ emit
  | removePeer false => [.announce, .acquire, .unlock]
  | updatePeerSettings .invalid => []
  | updatePeerSettings .notFound => readSection
  | updatePeerSettings .aliasTaken => readSection ++ readSection
  | updatePeerSettings .ipRefused =>
    readSection ++ readSection ++ [.announce, .acquire, .unlock]
  | updatePeerSettings .saved =>
    readSection ++ readSection ++ [.announce, .acquire] ++ emit ++ [.unlock]

/-- The operation changes a known peer. -/
def BusOp.emits : BusOp → Bool
  | upsertPeer | removePeer true | updatePeerSettings .saved => true
  | _ => false

/-- The loop of a subscriber: take an event, and read the configuration. -/
def callback (i : Subscriber) : List BusAction := [.recv i, .rLock, .rUnlock]

abbrev BusPool (n : ℕ) := Pool Bus BusAction (Fin n ⊕ Subscriber)

/-- The operations before they start, and the subscribers. -/
def BusPool.start {n : ℕ} (ops : Fin n → BusOp) : BusPool n where
  shared := ⟨false, 0, fun _ => 0⟩
  threads := Sum.elim (fun j => ⟨(ops j).path, []⟩) fun i => ⟨callback i, callback i⟩

/-- An operation or a callback is under way, and nothing can go on. -/
def BusPool.Deadlocked {n : ℕ} (c : ℕ) (σ : BusPool n) : Prop :=
  σ.Stuck (busActions c) ∧ ((∃ j, (σ.threads (.inl j)).rest ≠ []) ∨
    ∃ i, (σ.threads (.inr i)).rest ≠ callback i)

instance {n : ℕ} (c : ℕ) (σ : BusPool n) : Decidable (σ.Deadlocked c) :=
  inferInstanceAs (Decidable (_ ∧ (_ ∨ _)))

/-! ### What the threads keep -/

section

variable {n : ℕ} (ops : Fin n → BusOp)

/-- The threads run through their lists. -/
def OnPath : Fin n ⊕ Subscriber → Thread BusAction → Prop
  | .inl j, t => t.body = [] ∧ t.rest <:+ (ops j).path
  | .inr i, t => t.body = callback i ∧ t.rest <:+ callback i ∧ t.rest ≠ []

variable {ops}

lemma onPath_start (i : Fin n ⊕ Subscriber) :
    OnPath ops i ((BusPool.start ops).threads i) := by
  cases i with
  | inl j => exact ⟨rfl, List.suffix_rfl⟩
  | inr i => exact ⟨rfl, List.suffix_rfl, by simp [callback, BusPool.start]⟩

lemma onPath_next (i : Fin n ⊕ Subscriber) (t : Thread BusAction) (h : OnPath ops i t) :
    OnPath ops i t.next := by
  unfold Thread.next
  cases i with
  | inl j =>
    refine ⟨h.1, ?_⟩
    split_ifs
    · rw [h.1]
      exact List.nil_suffix
    · exact (List.tail_suffix _).trans h.2
  | inr i =>
    refine ⟨h.1, ?_⟩
    split_ifs with he
    · rw [h.1]
      exact ⟨List.suffix_rfl, by simp [callback]⟩
    · exact ⟨(List.tail_suffix _).trans h.2.1, by simpa using he⟩

/-! ### Who holds the lock -/

/-- Whether a thread that has this left holds the write lock, or has announced itself. -/
def writes (l : List BusAction) : ℤ := l.count .unlock - l.count .announce

/-- Whether it holds the lock for reading. -/
def reads (l : List BusAction) : ℤ := l.count .rUnlock - l.count .rLock

/-- Whether a subscriber is in its callback. -/
def busy (i : Subscriber) (l : List BusAction) : ℤ := if l = callback i then 0 else 1

/-- What the next action says about the lock: only a thread that has it gives it back, and one
that has the write lock waits for readers, sends, or gives it back. -/
def Fits (l : List BusAction) : Prop :=
  (0 ≤ writes l ∧ 0 ≤ reads l) ∧ (l.head? = some .rUnlock ↔ reads l ≠ 0) ∧
    (l.head? = some .acquire ∨ l.head? = some .unlock → writes l ≠ 0) ∧
    (writes l ≠ 0 → l.head? = some .acquire ∨ l.head? = some .unlock ∨
      ∃ k, l.head? = some (.send k))

instance (l : List BusAction) : Decidable (Fits l) := inferInstanceAs (Decidable (_ ∧ _))

/-- Wherever an operation is. Only `UpdatePeerSettings` sends while it has the lock. -/
lemma path_tails (op : BusOp) : ∀ l ∈ op.path.tails, Fits l ∧ ∀ k, l.head? ≠ some (.recv k) ∧
    (l.head? = some (.send k) → writes l ≠ 0 → op = .updatePeerSettings .saved) := by
  cases op with
  | upsertPeer => decide
  | removePeer exist => cases exist <;> decide
  | updatePeerSettings outcome => cases outcome <;> decide

/-- Wherever a subscriber is. -/
lemma callback_tails : ∀ i, ∀ l ∈ (callback i).tails, l ≠ [] →
    (Fits l ∧ writes l = 0) ∧ (l = callback i ∨ l = [.rLock, .rUnlock] ∨ l = [.rUnlock]) := by
  decide

lemma OnPath.fits {i : Fin n ⊕ Subscriber} {t : Thread BusAction} (h : OnPath ops i t) :
    Fits t.rest := by
  cases i with
  | inl j => exact (path_tails (ops j) t.rest ((List.mem_tails _ _).mpr h.2)).1
  | inr i => exact (callback_tails i t.rest ((List.mem_tails _ _).mpr h.2.1) h.2.2).1.1

lemma path_balanced (op : BusOp) : writes op.path = 0 ∧ reads op.path = 0 ∧
    ∀ i, op.path.count (.send i) = if op.emits then 1 else 0 := by
  cases op with
  | upsertPeer => decide
  | removePeer exist => cases exist <;> decide
  | updatePeerSettings outcome => cases outcome <;> decide

lemma callback_balanced (i : Subscriber) : writes (callback i) = 0 ∧ reads (callback i) = 0 := by
  cases i <;> decide

lemma OnPath.next_rest {i : Fin n ⊕ Subscriber} {t : Thread BusAction} (h : OnPath ops i t) :
    writes t.next.rest = writes t.rest.tail ∧ reads t.next.rest = reads t.rest.tail := by
  unfold Thread.next
  by_cases he : t.rest.tail = []
  · have hbody : writes t.body = 0 ∧ reads t.body = 0 := by
      cases i with
      | inl j =>
        rw [h.1]
        exact ⟨rfl, rfl⟩
      | inr i =>
        rw [h.1]
        exact callback_balanced i
    simpa [he, writes, reads] using hbody
  · simp [he]

/-! ### What holds in every state -/

/-- The operations that change a known peer. -/
def emitting (ops : Fin n → BusOp) : Finset (Fin n) := Finset.univ.filter fun j => (ops j).emits

/-- The lock is held by the threads that are in its sections, and each event that is in a queue
or in a callback was sent by an operation that will not send it again. -/
structure BusPool.Inv (ops : Fin n → BusOp) (σ : BusPool n) : Prop where
  path : ∀ i, OnPath ops i (σ.threads i)
  writer : (σ.shared.writer.toNat : ℤ) = ∑ i, writes (σ.threads i).rest
  readers : (σ.shared.readers : ℤ) = ∑ i, reads (σ.threads i).rest
  queue : ∀ i, (σ.shared.queue i : ℤ) + busy i (σ.threads (.inr i)).rest +
    ∑ j, ((σ.threads (.inl j)).rest.count (.send i) : ℤ) ≤ (emitting ops).card

/-- The weight of a thread in the balance of the queue `k`. -/
def queueWeight (k : Subscriber) : Fin n ⊕ Subscriber → Thread BusAction → ℤ
  | .inl _, t => -(t.rest.count (.send k) : ℤ)
  | .inr i, t => if i = k then -busy i t.rest else 0

lemma sum_queueWeight (k : Subscriber) (threads : Fin n ⊕ Subscriber → Thread BusAction) :
    ∑ i, queueWeight k i (threads i) = -∑ j, ((threads (.inl j)).rest.count (.send k) : ℤ) -
      busy k (threads (.inr k)).rest := by
  rw [Fintype.sum_sum_type]
  simp only [queueWeight, Finset.sum_neg_distrib, Finset.sum_ite_eq', Finset.mem_univ, if_true]
  exact (sub_eq_add_neg _ _).symm

variable {c : ℕ}

lemma exists_cons_of_head {t : Thread BusAction} {a : BusAction} (h : t.rest.head? = some a) :
    ∃ l, t.rest = a :: l := by
  rcases hr : t.rest with _ | ⟨b, l⟩
  · simp [hr] at h
  · rw [hr] at h
    cases h
    exact ⟨l, rfl⟩

/-- The write lock is with the thread that takes it. -/
lemma writer_step {i : Fin n ⊕ Subscriber} {t : Thread BusAction} {s : Bus} {a : BusAction}
    (h : OnPath ops i t) (ha : t.rest.head? = some a) (hen : (busActions c).enabled s a) :
    (((busActions c).apply s a).writer.toNat : ℤ) + writes t.rest =
      s.writer.toNat + writes t.next.rest := by
  obtain ⟨l, hl⟩ := exists_cons_of_head ha
  rw [h.next_rest.1, hl, List.tail_cons]
  cases a with
  | announce =>
    have hw : s.writer = false := hen
    simp [busActions, writes, hw]
    omega
  | unlock =>
    have hw : s.writer = true := hen
    simp [busActions, writes, hw]
    omega
  | rLock | rUnlock | acquire | send i | recv i => simp [busActions, writes]

/-- The readers are the threads that have taken the lock for reading. -/
lemma reader_step {i : Fin n ⊕ Subscriber} {t : Thread BusAction} {s : Bus} {a : BusAction}
    (h : OnPath ops i t) (ha : t.rest.head? = some a) (hen : (busActions c).enabled s a) :
    (((busActions c).apply s a).readers : ℤ) + reads t.rest = s.readers + reads t.next.rest := by
  obtain ⟨l, hl⟩ := exists_cons_of_head ha
  rw [h.next_rest.2, hl, List.tail_cons]
  cases a with
  | rLock =>
    simp [busActions, reads]
    omega
  | rUnlock =>
    have hpos : 0 < s.readers := hen
    simp [busActions, reads]
    omega
  | announce | acquire | unlock | send i | recv i => simp [busActions, reads]

/-- An action of an operation changes the queue `k` by what it has sent. -/
lemma queue_step_op (k : Subscriber) {j : Fin n} {t : Thread BusAction} {s : Bus}
    {a : BusAction} (h : OnPath ops (.inl j) t) (ha : t.rest.head? = some a) :
    (((busActions c).apply s a).queue k : ℤ) + queueWeight k (.inl j : Fin n ⊕ Subscriber) t ≤
      s.queue k + queueWeight k (.inl j : Fin n ⊕ Subscriber) t.next := by
  obtain ⟨l, hl⟩ := exists_cons_of_head ha
  have hnext : t.next.rest = l := by
    unfold Thread.next
    by_cases he : l = []
    · simp [hl, he, h.1]
    · simp [hl, he]
  simp only [queueWeight, hnext, hl, List.count_cons]
  cases a with
  | send i =>
    by_cases hi : i = k
    · subst hi
      simp [busActions, Function.update_self]
    · have hne : ¬ (BusAction.send i = BusAction.send k) := fun he => hi (BusAction.send.inj he)
      simp [busActions, Function.update_of_ne (Ne.symm hi), hne]
  | recv i =>
    by_cases hi : i = k
    · subst hi
      simp [busActions, Function.update_self]
    · simp [busActions, Function.update_of_ne (Ne.symm hi)]
  | rLock | rUnlock | announce | acquire | unlock => simp [busActions]

/-- A subscriber takes an event into its callback. -/
lemma queue_step_sub (k : Subscriber) {i : Subscriber} {t : Thread BusAction} {s : Bus}
    {a : BusAction} (h : OnPath ops (.inr i) t) (ha : t.rest.head? = some a)
    (hen : (busActions c).enabled s a) :
    (((busActions c).apply s a).queue k : ℤ) + queueWeight k (.inr i : Fin n ⊕ Subscriber) t ≤
      s.queue k + queueWeight k (.inr i : Fin n ⊕ Subscriber) t.next := by
  obtain ⟨-, hrest⟩ := callback_tails i t.rest ((List.mem_tails _ _).mpr h.2.1) h.2.2
  rcases hrest with hr | hr | hr
  · -- an event is taken
    have hnext : t.next.rest = [.rLock, .rUnlock] := by simp [Thread.next, hr, callback]
    rw [hr] at ha
    cases ha
    have hpos : 0 < s.queue i := hen
    simp only [queueWeight, hnext, hr, busy]
    by_cases hi : i = k
    · subst hi
      simp only [busActions, Function.update_self, callback]
      simp
      omega
    · simp [busActions, Function.update_of_ne (Ne.symm hi), hi]
  · have hnext : t.next.rest = [.rUnlock] := by simp [Thread.next, hr]
    rw [hr] at ha
    cases ha
    simp [queueWeight, hnext, hr, busy, busActions, callback]
  · have hnext : t.next.rest = callback i := by simp [Thread.next, hr, h.1]
    rw [hr] at ha
    cases ha
    simp only [queueWeight, hnext, hr, busy, busActions, callback]
    by_cases hi : i = k
    · simp [hi]
    · simp [hi]

/-- **Every state that is reached.** -/
theorem BusPool.inv_run (c : ℕ) (ops : Fin n → BusOp) (w : List (Fin n ⊕ Subscriber)) :
    BusPool.Inv ops (w.foldl (Pool.turn (busActions c)) (BusPool.start ops)) := by
  have hstart : ∀ i, OnPath ops i ((BusPool.start ops).threads i) := onPath_start
  have hpath := Pool.run_threads (G := busActions c) onPath_next w (BusPool.start ops) hstart
  have hsum0 : ∀ f : List BusAction → ℤ, (∀ op : BusOp, f op.path = 0) →
      (∀ i, f (callback i) = 0) → ∑ i, f ((BusPool.start ops).threads i).rest = 0 := by
    intro f hop hsub
    refine Finset.sum_eq_zero fun i _ => ?_
    cases i with
    | inl j => exact hop (ops j)
    | inr i => exact hsub i
  refine ⟨hpath, ?_, ?_, fun k => ?_⟩
  · have h := Pool.run_balance_eq (G := busActions c) onPath_next
      (fun s : Bus => (s.writer.toNat : ℤ)) (fun _ t => writes t.rest)
      (fun i t s a hi ha hen => writer_step hi ha hen) w (BusPool.start ops) hstart
    rw [hsum0 writes (fun op => (path_balanced op).1) fun i => (callback_balanced i).1] at h
    simpa [BusPool.start] using h
  · have h := Pool.run_balance_eq (G := busActions c) onPath_next
      (fun s : Bus => (s.readers : ℤ)) (fun _ t => reads t.rest)
      (fun i t s a hi ha hen => reader_step hi ha hen) w (BusPool.start ops) hstart
    rw [hsum0 reads (fun op => (path_balanced op).2.1) fun i => (callback_balanced i).2] at h
    simpa [BusPool.start] using h
  · have h := Pool.run_balance (G := busActions c) onPath_next
      (fun s : Bus => (s.queue k : ℤ)) (queueWeight k) (fun i t s a hi ha hen => by
        cases i with
        | inl j => exact queue_step_op k hi ha
        | inr i => exact queue_step_sub k hi ha hen) w (BusPool.start ops) hstart
    rw [sum_queueWeight, sum_queueWeight] at h
    have hcount : ∑ j, (((BusPool.start ops).threads (.inl j)).rest.count (.send k) : ℤ) =
        (emitting ops).card := by
      simp only [BusPool.start, Sum.elim_inl, (path_balanced _).2.2 k]
      rw [emitting, Finset.card_filter, Nat.cast_sum]
    have hidle : busy k ((BusPool.start ops).threads (.inr k)).rest = 0 := if_pos rfl
    have hempty : ((BusPool.start ops).shared.queue k : ℤ) = 0 := rfl
    omega

end

end Awl
