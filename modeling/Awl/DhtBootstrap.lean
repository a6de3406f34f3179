import Awl.Chan
import Awl.Runs

/-!
Bootstrapping the DHT: `P2p.Bootstrap` starts a goroutine for each bootstrap peer and one that
waits for the first two connections, and `MaintainBackgroundConnections` waits for that one.

The attempts share a context that ends after three seconds, or when the node is closed. What they
come to, and when the contexts end, is up to the network and the clock; everything else is a step
of one of the goroutines, interleaved in any way.
-/

namespace Awl

namespace Bootstrapping

/-- The goroutine of a bootstrap peer. -/
inductive Attempt
  /-- `host.Connect` -/
  | connecting
  /-- the send to `successfulConnectionsCh` -/
  | sending
  | returned (connected : Bool)
  deriving DecidableEq

/-- The goroutine that waits. -/
inductive Waiter
  /-- the loop of its `select`, with so many iterations to go -/
  | waiting (k : ℕ)
  /-- `close(p.dhtBootstrapFinishedChan)` -/
  | closing
  /-- `wg.Wait` -/
  | joining
  /-- the deferred `cancel` -/
  | cancelling
  | returned
  deriving DecidableEq

/-- `MaintainBackgroundConnections`. -/
inductive Maintainer
  /-- the `select` on `dhtBootstrapFinishedChan` -/
  | waiting
  /-- `connectToKnownPeers` -/
  | connecting
  /-- the `select` on a timer -/
  | sleeping
  | returned
  deriving DecidableEq

end Bootstrapping

open Bootstrapping in
structure Bootstrapping where
  attempts : List Attempt
  successfulConnectionsCh : Chan Unit
  waiter : Waiter
  /-- the context of the attempts -/
  ctxDone : Bool
  dhtBootstrapped : Bool
  /-- whether `dhtBootstrapFinishedChan` is closed -/
  finished : Bool
  maintainer : Maintainer
  /-- the context of the application -/
  appDone : Bool
  /-- how many connections the waiter has heard of, and how often the known peers were connected -/
  received : ℕ
  rounds : ℕ

namespace Bootstrapping

/-- After `Bootstrap` with `n` bootstrap peers and the start of `MaintainBackgroundConnections`. -/
def start (n : ℕ) : Bootstrapping where
  attempts := List.replicate n .connecting
  successfulConnectionsCh := Chan.make Unit n
  waiter := .waiting (min 2 n)
  ctxDone := false
  dhtBootstrapped := false
  finished := false
  maintainer := .waiting
  appDone := false
  received := 0
  rounds := 0

/-! ### The attempts -/

/-- `host.Connect` returns. -/
def connect (s : Bootstrapping) (i : ℕ) (ok : Bool) : Option Bootstrapping := do
  match ← s.attempts[i]? with
  | .connecting =>
    return { s with attempts := s.attempts.set i (if ok then .sending else .returned false) }
  | _ => none

/-- The send, which waits for room in the channel. -/
def send (s : Bootstrapping) (i : ℕ) : Option Bootstrapping := do
  match ← s.attempts[i]? with
  | .sending =>
    match s.successfulConnectionsCh.trySend () with
    | .sent ch => return { s with
        successfulConnectionsCh := ch
        attempts := s.attempts.set i (.returned true) }
    | _ => none
  | _ => none

/-! ### The goroutine that waits -/

/-- The first case of the `select`. -/
def expire (s : Bootstrapping) : Option Bootstrapping :=
  match s.waiter with
  | .waiting (k + 1) => if s.ctxDone then some { s with waiter := .waiting k } else none
  | _ => none

/-- The second case. -/
def receive (s : Bootstrapping) : Option Bootstrapping :=
  match s.waiter with
  | .waiting (k + 1) => do
    let (_, ch) ← s.successfulConnectionsCh.recv
    return { s with
      successfulConnectionsCh := ch
      waiter := .waiting k
      received := s.received + 1 }
  | _ => none

/-- `p.dht.Bootstrap`. -/
def dhtBootstrap (s : Bootstrapping) : Option Bootstrapping :=
  match s.waiter with
  | .waiting 0 => some { s with waiter := .closing, dhtBootstrapped := true }
  | _ => none

/-- Closing a channel for the second time panics. -/
def close (s : Bootstrapping) : Option Bootstrapping :=
  match s.waiter with
  | .closing => if s.finished then none else some { s with waiter := .joining, finished := true }
  | _ => none

/-- `wg.Wait` returns when every attempt has. -/
def join (s : Bootstrapping) : Option Bootstrapping :=
  match s.waiter with
  | .joining =>
    if ∀ a ∈ s.attempts, a = .returned true ∨ a = .returned false then
      some { s with waiter := .cancelling }
    else none
  | _ => none

def cancel (s : Bootstrapping) : Option Bootstrapping :=
  match s.waiter with
  | .cancelling => some { s with waiter := .returned, ctxDone := true }
  | _ => none

/-! ### The known peers -/

def wake (s : Bootstrapping) : Option Bootstrapping :=
  match s.maintainer with
  | .waiting => if s.finished then some { s with maintainer := .connecting } else none
  | _ => none

/-- `connectToKnownPeers` returns. -/
def connected (s : Bootstrapping) : Option Bootstrapping :=
  match s.maintainer with
  | .connecting => some { s with maintainer := .sleeping, rounds := s.rounds + 1 }
  | _ => none

/-- The timer fires. -/
def tick (s : Bootstrapping) : Option Bootstrapping :=
  match s.maintainer with
  | .sleeping => some { s with maintainer := .connecting }
  | _ => none

/-- A `select` sees that the application stops. -/
def leave (s : Bootstrapping) : Option Bootstrapping :=
  match s.maintainer with
  | .waiting | .sleeping => if s.appDone then some { s with maintainer := .returned } else none
  | _ => none

/-! ### Runs -/

inductive Event
  | connect (i : ℕ) (ok : Bool)
  | timeout
  | appStop
  | tick
  | send (i : ℕ)
  | expire
  | receive
  | dhtBootstrap
  | close
  | join
  | cancel
  | wake
  | connected
  | leave

/-- What the network and the clock do. -/
def Event.external : Event → Bool
  | .connect _ _ | .timeout | .appStop | .tick => true
  | _ => false

def step (s : Bootstrapping) : Event → Option Bootstrapping
  | .connect i ok => s.connect i ok
  | .timeout => some { s with ctxDone := true }
  | .appStop => some { s with appDone := true }
  | .tick => s.tick
  | .send i => s.send i
  | .expire => s.expire
  | .receive => s.receive
  | .dhtBootstrap => s.dhtBootstrap
  | .close => s.close
  | .join => s.join
  | .cancel => s.cancel
  | .wake => s.wake
  | .connected => s.connected
  | .leave => s.leave

/-- The state after a run; `none` when an event of it is not possible. -/
def run (s : Bootstrapping) (es : List Event) : Option Bootstrapping := es.foldlM step s

/-- No goroutine can go on by itself. -/
def Quiet (s : Bootstrapping) : Prop := ∀ e : Event, e.external = false → s.step e = none

/-! ### Invariants -/

/-- The attempts that were successful. -/
def successes (s : Bootstrapping) : ℕ := s.attempts.count (.returned true)

/-- The waiter has been through its loop. -/
def Waiter.done : Waiter → Bool
  | .waiting _ => false
  | _ => true

/-- It has closed the channel. -/
def Waiter.closed : Waiter → Bool
  | .waiting _ | .closing => false
  | _ => true

structure Inv (n : ℕ) (s : Bootstrapping) : Prop where
  length : s.attempts.length = n
  cap : s.successfulConnectionsCh.cap = n ∧ s.successfulConnectionsCh.closed = false
  tokens : s.successfulConnectionsCh.buf.length + s.received = s.successes
  waiting : ∀ k, s.waiter = .waiting k →
    k + s.received ≤ min 2 n ∧ (s.ctxDone = false → k + s.received = min 2 n)
  heard : s.waiter.done = true → s.ctxDone = true ∨ s.received = min 2 n
  bootstrapped : s.dhtBootstrapped = s.waiter.done
  closed : s.finished = s.waiter.closed
  awake : s.maintainer = .connecting ∨ s.maintainer = .sleeping ∨ 0 < s.rounds →
    s.finished = true

lemma inv_start (n : ℕ) : (start n).Inv n where
  length := List.length_replicate
  cap := ⟨rfl, rfl⟩
  tokens := by simp [start, Chan.make, successes, List.count_replicate]
  waiting k hk := by cases hk; exact ⟨Nat.le_refl _, fun _ => rfl⟩
  heard h := by cases h
  bootstrapped := rfl
  closed := rfl
  awake h := by rcases h with h | h | h <;> cases h

variable {n : ℕ} {s s' : Bootstrapping}

/-- A goroutine that is not through has left room in the channel. -/
lemma Inv.room (h : s.Inv n) {i : ℕ} {a : Attempt} (ha : s.attempts[i]? = some a)
    (hne : a ≠ .returned true) : s.successfulConnectionsCh.buf.length < n := by
  have hlt : s.successes < s.attempts.length := by
    refine Nat.lt_of_le_of_ne List.count_le_length fun heq => hne ?_
    exact (List.count_eq_length.mp heq a (List.mem_of_getElem? ha)).symm
  have := h.tokens
  have := h.length
  omega

lemma count_set_of_ne {l : List Attempt} {i : ℕ} {a a' : Attempt} (h : l[i]? = some a)
    (ha : a ≠ .returned true) (ha' : a' ≠ .returned true) :
    (l.set i a').count (.returned true) = l.count (.returned true) := by
  obtain ⟨hi, hget⟩ := List.getElem?_eq_some_iff.mp h
  rw [List.count_set hi, hget]
  simp [ha, ha']

lemma count_set_returned {l : List Attempt} {i : ℕ} {a : Attempt} (h : l[i]? = some a)
    (ha : a ≠ .returned true) :
    (l.set i (.returned true)).count (.returned true) = l.count (.returned true) + 1 := by
  obtain ⟨hi, hget⟩ := List.getElem?_eq_some_iff.mp h
  rw [List.count_set hi, hget]
  simp [ha]

lemma Inv.connect (h : s.Inv n) {i : ℕ} {ok : Bool} (hs : s.connect i ok = some s') :
    s'.Inv n := by
  obtain ⟨a, ha, hs⟩ := Option.bind_eq_some_iff.mp hs
  cases a with
  | connecting =>
    cases hs
    refine { h with length := ?_, tokens := ?_ }
    · rw [List.length_set]
      exact h.length
    · rw [h.tokens, successes, successes,
        count_set_of_ne ha (by decide) (by cases ok <;> decide)]
  | sending => cases hs
  | returned connected => cases hs

lemma Inv.send (h : s.Inv n) {i : ℕ} (hs : s.send i = some s') : s'.Inv n := by
  obtain ⟨a, ha, hs⟩ := Option.bind_eq_some_iff.mp hs
  cases a with
  | sending =>
    dsimp only at hs
    unfold Chan.trySend at hs
    rw [if_neg (by simp [h.cap.2]), dif_pos (by rw [h.cap.1]; exact h.room ha (by decide))] at hs
    cases hs
    refine { h with length := ?_, tokens := ?_ }
    · rw [List.length_set]
      exact h.length
    · have := h.tokens
      simp only [successes, Chan.push, count_set_returned ha (by decide), List.length_append,
        List.length_singleton] at this ⊢
      omega
  | connecting => cases hs
  | returned connected => cases hs

lemma Inv.timeout (h : s.Inv n) : Inv n { s with ctxDone := true } :=
  { h with
    waiting := fun k hk => ⟨(h.waiting k hk).1, fun hf => by cases hf⟩
    heard := fun _ => Or.inl rfl }

lemma Inv.expire (h : s.Inv n) (hs : s.expire = some s') : s'.Inv n := by
  unfold Bootstrapping.expire at hs
  split at hs
  · next k hk =>
    split_ifs at hs with hctx
    cases hs
    have hbootstrapped := h.bootstrapped
    have hclosed := h.closed
    rw [hk] at hbootstrapped hclosed
    have hle := (h.waiting _ hk).1
    refine { h with
      waiting := fun k' hk' => ?_
      heard := fun hd => by cases hd
      bootstrapped := hbootstrapped
      closed := hclosed }
    cases hk'
    exact ⟨by dsimp only; omega, fun hf => absurd (hctx.symm.trans hf) (by decide)⟩
  · cases hs

lemma Inv.receive (h : s.Inv n) (hs : s.receive = some s') : s'.Inv n := by
  unfold Bootstrapping.receive at hs
  split at hs
  · next k hk =>
    obtain ⟨⟨u, ch⟩, hch, hs⟩ := Option.bind_eq_some_iff.mp hs
    cases hs
    have hbootstrapped := h.bootstrapped
    have hclosed := h.closed
    rw [hk] at hbootstrapped hclosed
    obtain ⟨hle, heq⟩ := h.waiting _ hk
    refine { h with
      cap := ?_
      tokens := ?_
      waiting := fun k' hk' => ?_
      heard := fun hd => by cases hd
      bootstrapped := hbootstrapped
      closed := hclosed }
    · exact ⟨(Chan.recv_cap hch).trans h.cap.1, (Chan.recv_closed hch).trans h.cap.2⟩
    · have := h.tokens
      rw [Chan.recv_buf hch, List.length_cons] at this
      dsimp only [successes] at this ⊢
      omega
    · cases hk'
      refine ⟨by dsimp only; omega, fun hf => ?_⟩
      have := heq hf
      dsimp only
      omega
  · cases hs

lemma Inv.dhtBootstrap (h : s.Inv n) (hs : s.dhtBootstrap = some s') : s'.Inv n := by
  unfold Bootstrapping.dhtBootstrap at hs
  split at hs
  · next hk =>
    cases hs
    obtain ⟨hle, heq⟩ := h.waiting _ hk
    have hclosed := h.closed
    rw [hk] at hclosed
    refine { h with
      waiting := fun k' hk' => by cases hk'
      heard := fun _ => ?_
      bootstrapped := rfl
      closed := hclosed }
    cases hctx : s.ctxDone
    · right
      have := heq hctx
      dsimp only
      omega
    · exact Or.inl rfl
  · cases hs

/-- The waiter goes on after its loop. -/
lemma Inv.goOn (h : s.Inv n) (hd : s.waiter.done = true) {waiter : Waiter}
    (hw : waiter.done = true) {ctxDone : Bool} (hctx : s.ctxDone = true → ctxDone = true)
    {finished : Bool} (hf : finished = waiter.closed) (hfin : s.finished = true → finished = true) :
    Inv n { s with waiter := waiter, ctxDone := ctxDone, finished := finished } := by
  refine { h with
    waiting := fun k hk => ?_
    heard := fun _ => (h.heard hd).imp hctx id
    bootstrapped := by rw [h.bootstrapped, hd]; exact hw.symm
    closed := hf
    awake := fun ha => hfin (h.awake ha) }
  have hk' : waiter = .waiting k := hk
  rw [hk'] at hw
  cases hw

lemma Inv.close (h : s.Inv n) (hs : s.close = some s') : s'.Inv n := by
  unfold Bootstrapping.close at hs
  split at hs
  · next hk =>
    split_ifs at hs
    cases hs
    exact h.goOn (by rw [hk]; rfl) rfl id rfl fun _ => rfl
  · cases hs

lemma Inv.join (h : s.Inv n) (hs : s.join = some s') : s'.Inv n := by
  unfold Bootstrapping.join at hs
  split at hs
  · next hk =>
    split_ifs at hs
    cases hs
    exact h.goOn (by rw [hk]; rfl) rfl id (by rw [h.closed, hk]; rfl) id
  · cases hs

lemma Inv.cancel (h : s.Inv n) (hs : s.cancel = some s') : s'.Inv n := by
  unfold Bootstrapping.cancel at hs
  split at hs
  · next hk =>
    cases hs
    exact h.goOn (by rw [hk]; rfl) rfl (fun _ => rfl) (by rw [h.closed, hk]; rfl) id
  · cases hs

lemma Inv.wake (h : s.Inv n) (hs : s.wake = some s') : s'.Inv n := by
  unfold Bootstrapping.wake at hs
  split at hs
  · split_ifs at hs with hfin
    cases hs
    exact { h with awake := fun _ => hfin }
  · cases hs

lemma Inv.connected (h : s.Inv n) (hs : s.connected = some s') : s'.Inv n := by
  unfold Bootstrapping.connected at hs
  split at hs
  · next hk =>
    cases hs
    exact { h with awake := fun _ => h.awake (Or.inl hk) }
  · cases hs

lemma Inv.tick (h : s.Inv n) (hs : s.tick = some s') : s'.Inv n := by
  unfold Bootstrapping.tick at hs
  split at hs
  · next hk =>
    cases hs
    exact { h with awake := fun _ => h.awake (Or.inr (Or.inl hk)) }
  · cases hs

lemma Inv.leave (h : s.Inv n) (hs : s.leave = some s') : s'.Inv n := by
  have hleft : s' = { s with maintainer := .returned } := by
    unfold Bootstrapping.leave at hs
    split at hs
    · split_ifs at hs
      exact (Option.some.inj hs).symm
    · split_ifs at hs
      exact (Option.some.inj hs).symm
    · cases hs
  rw [hleft]
  refine { h with awake := fun hr => ?_ }
  rcases hr with hr | hr | hr
  · cases hr
  · cases hr
  · exact h.awake (Or.inr (Or.inr hr))

/-- **One step.** -/
lemma Inv.step (h : s.Inv n) {e : Event} (hs : s.step e = some s') : s'.Inv n := by
  cases e with
  | connect i ok => exact h.connect hs
  | timeout =>
    cases hs
    exact h.timeout
  | appStop =>
    cases hs
    exact { h with }
  | tick => exact h.tick hs
  | send i => exact h.send hs
  | expire => exact h.expire hs
  | receive => exact h.receive hs
  | dhtBootstrap => exact h.dhtBootstrap hs
  | close => exact h.close hs
  | join => exact h.join hs
  | cancel => exact h.cancel hs
  | wake => exact h.wake hs
  | connected => exact h.connected hs
  | leave => exact h.leave hs

/-- **A run.** -/
lemma Inv.run (es : List Event) (h : s.Inv n) (hs : s.run es = some s') : s'.Inv n :=
  Runs.foldlM_inv (fun _ _ _ h hs => h.step hs) es h hs

/-! ### Who waits for whom -/

/-- The send has room. -/
lemma Inv.send_isSome (h : s.Inv n) {i : ℕ} (hi : s.attempts[i]? = some .sending) :
    (s.send i).isSome := by
  have hroom : s.successfulConnectionsCh.buf.length < s.successfulConnectionsCh.cap := by
    rw [h.cap.1]
    exact h.room hi (by decide)
  simp [Bootstrapping.send, hi, Chan.trySend, h.cap.2, hroom]

/-- The channel is closed for the first time. -/
lemma Inv.close_isSome (h : s.Inv n) (hw : s.waiter = .closing) : s.close.isSome := by
  have hopen : s.finished = false := by rw [h.closed, hw]; rfl
  simp [Bootstrapping.close, hw, hopen]

lemma Quiet.step_none (hq : s.Quiet) {e : Event} (he : e.external = false)
    (hs : (s.step e).isSome) : False := by
  rw [hq e he] at hs
  cases hs

lemma Inv.finished_of_quiet (h : s.Inv n) (hq : s.Quiet) :
    s.finished = true ∨ s.ctxDone = false ∧ s.successes < min 2 n := by
  rcases hw : s.waiter with k | _ | _ | _ | _
  · right
    rcases k with _ | k
    · exact (hq.step_none (e := .dhtBootstrap) rfl
        (by simp [Bootstrapping.step, Bootstrapping.dhtBootstrap, hw])).elim
    · have hctx : s.ctxDone = false := by
        by_contra hctx
        exact hq.step_none (e := .expire) rfl
          (by simp [Bootstrapping.step, Bootstrapping.expire, hw, hctx])
      have hbuf : s.successfulConnectionsCh.buf = [] := by
        rcases hb : s.successfulConnectionsCh.recv with _ | ⟨u, ch⟩
        · exact Chan.recv_eq_none.mp hb
        · exact (hq.step_none (e := .receive) rfl
            (by simp [Bootstrapping.step, Bootstrapping.receive, hw, hb])).elim
      have htokens := h.tokens
      have hk := (h.waiting _ hw).2 hctx
      rw [hbuf, List.length_nil] at htokens
      exact ⟨hctx, by omega⟩
  · exact (hq.step_none (e := .close) rfl (h.close_isSome hw)).elim
  · exact Or.inl (by rw [h.closed, hw]; rfl)
  · exact Or.inl (by rw [h.closed, hw]; rfl)
  · exact Or.inl (by rw [h.closed, hw]; rfl)

lemma Inv.returned_of_quiet (h : s.Inv n) (hq : s.Quiet) (hf : s.finished = true)
    (hall : .connecting ∉ s.attempts) : s.waiter = .returned := by
  have hclosed := h.closed
  rcases hw : s.waiter with k | _ | _ | _ | _
  · rw [hf, hw] at hclosed
    cases hclosed
  · rw [hf, hw] at hclosed
    cases hclosed
  · refine (hq.step_none (e := .join) rfl ?_).elim
    have hret : ∀ a ∈ s.attempts, a = .returned true ∨ a = .returned false := by
      intro a ha
      obtain ⟨i, hi⟩ := List.mem_iff_getElem?.mp ha
      rcases a with _ | _ | _ | _
      · exact absurd ha hall
      · exact (hq.step_none (e := .send i) rfl (h.send_isSome hi)).elim
      · exact Or.inr rfl
      · exact Or.inl rfl
    simp only [Bootstrapping.step, Bootstrapping.join, hw, if_pos hret, Option.isSome_some]
  · exact (hq.step_none (e := .cancel) rfl
      (by simp [Bootstrapping.step, Bootstrapping.cancel, hw])).elim
  · rfl

/-- **Bootstrapping comes to an end, once.** In every state of every run with `n` bootstrap
peers: a goroutine that has connected does not wait for the others; the channel is not closed
twice; the known peers are connected only after the DHT was bootstrapped, which has waited for
two connections, if there are as many peers, or for the end of the context; and when no goroutine
can go on, the channel is closed unless fewer connections were made and the context has not ended,
and then the waiting goroutine has returned unless an attempt is still under way. -/
theorem run_bootstraps {es : List Event} (h : (start n).run es = some s) :
    (∀ i, s.attempts[i]? = some .sending → (s.send i).isSome) ∧
      (s.waiter = .closing → s.close.isSome) ∧
      (0 < s.rounds → s.dhtBootstrapped = true ∧ (s.ctxDone = true ∨ s.received = min 2 n)) ∧
      (s.Quiet → s.finished = true ∨ s.ctxDone = false ∧ s.successes < min 2 n) ∧
      (s.Quiet → s.finished = true → .connecting ∉ s.attempts → s.waiter = .returned) := by
  have hinv := Inv.run es (inv_start n) h
  refine ⟨fun i hi => hinv.send_isSome hi, hinv.close_isSome, fun hr => ?_,
    hinv.finished_of_quiet, hinv.returned_of_quiet⟩
  have hclosed : s.waiter.closed = true := hinv.closed ▸ hinv.awake (Or.inr (Or.inr hr))
  have hdone : s.waiter.done = true := by
    rcases hw : s.waiter with k | _ | _ | _ | _ <;> rw [hw] at hclosed <;> first
      | rfl
      | cases hclosed
  exact ⟨hinv.bootstrapped.trans hdone, hinv.heard hdone⟩

/-- Two of three peers can be connected. -/
def twoOfThree : List Event :=
  [.connect 0 true, .connect 1 false, .send 0, .receive, .connect 2 true, .send 2, .receive,
    .dhtBootstrap, .close, .wake, .join, .connected, .cancel]

/-- The known peers are connected then. -/
theorem twoOfThree_bootstraps : ∃ s, (start 3).run twoOfThree = some s ∧
    (s.rounds = 1 ∧ s.received = 2 ∧ s.waiter = .returned) ∧
    (∀ i, s.attempts[i]? = some .sending → (s.send i).isSome) ∧
      (s.waiter = .closing → s.close.isSome) ∧
      (0 < s.rounds → s.dhtBootstrapped = true ∧ (s.ctxDone = true ∨ s.received = min 2 3)) ∧
      (s.Quiet → s.finished = true ∨ s.ctxDone = false ∧ s.successes < min 2 3) ∧
      (s.Quiet → s.finished = true → .connecting ∉ s.attempts → s.waiter = .returned) := by
  have hrun : ((start 3).run twoOfThree).map (fun s => (s.rounds, s.received, s.waiter)) =
      some (1, 2, .returned) := by decide
  obtain ⟨s, hs, hlogs⟩ := Option.map_eq_some_iff.mp hrun
  obtain ⟨hrounds, hrest⟩ := Prod.mk.inj hlogs
  exact ⟨s, hs, ⟨hrounds, Prod.mk.inj hrest⟩, run_bootstraps hs⟩

end Bootstrapping

end Awl
