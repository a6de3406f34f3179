import Awl.Chan
import Awl.Ownership
import Awl.Runs
import Mathlib.Data.List.Perm.Basic

/-!
The connections of local clients to the SOCKS5 proxy, from the listener to their end.

`Client.serve` accepts connections and offers each of them on a channel for a second; `ServeConns`
takes them from the channel and starts a goroutine for each. Closing the listener ends the first
loop, which then closes the channel, and that ends the second one.
-/

namespace Awl

namespace ProxyListener

/-- `Client.serve`. -/
inductive Acceptor (α : Type)
  /-- `listener.Accept` -/
  | accepting
  /-- the `select` of the channel and a timer -/
  | offering (conn : α)
  /-- `conn.Close` when the timer has fired -/
  | dropping (conn : α)
  /-- the deferred `close(c.connsCh)` -/
  | closing
  | returned

/-- The goroutine of a connection in `ServeConns`. -/
inductive Worker (α : Type)
  /-- `proxyConn` -/
  | proxying (conn : α)
  /-- `SendServerFailureReply` -/
  | replying (conn : α)
  /-- the deferred `conn.Close` -/
  | closing (conn : α)
  | returned

end ProxyListener

open ProxyListener in
structure ProxyListener (α : Type) where
  listenerClosed : Bool
  acceptor : Acceptor α
  connsCh : Chan α
  /-- `ServeConns` ranges over the channel -/
  serving : Bool
  workers : List (Worker α)
  /-- the connections that were accepted, those a goroutine was started for, and each call of
  `Close` on one -/
  accepted : List α
  started : List α
  closed : List α

namespace ProxyListener

variable {α : Type}

/-- After `NewClient` and the start of `ServeConns`. -/
def start (α : Type) : ProxyListener α where
  listenerClosed := false
  acceptor := .accepting
  connsCh := Chan.make α 1
  serving := true
  workers := []
  accepted := []
  started := []
  closed := []

/-! ### Accepting -/

def accept (s : ProxyListener α) (conn : α) : Option (ProxyListener α) :=
  match s.acceptor with
  | .accepting =>
    if s.listenerClosed then none
    else some { s with acceptor := .offering conn, accepted := s.accepted ++ [conn] }
  | _ => none

/-- `Accept` returns an error, because the listener is closed or for another reason. -/
def acceptErr (s : ProxyListener α) : Option (ProxyListener α) :=
  match s.acceptor with
  | .accepting => some { s with acceptor := .closing }
  | _ => none

def send (s : ProxyListener α) : Option (ProxyListener α) :=
  match s.acceptor with
  | .offering conn =>
    match s.connsCh.trySend conn with
    | .sent ch => some { s with acceptor := .accepting, connsCh := ch }
    | _ => none
  | _ => none

def timeout (s : ProxyListener α) : Option (ProxyListener α) :=
  match s.acceptor with
  | .offering conn => some { s with acceptor := .dropping conn }
  | _ => none

def drop (s : ProxyListener α) : Option (ProxyListener α) :=
  match s.acceptor with
  | .dropping conn => some { s with acceptor := .accepting, closed := s.closed ++ [conn] }
  | _ => none

def closeCh (s : ProxyListener α) : Option (ProxyListener α) :=
  match s.acceptor with
  | .closing => do
    let ch ← s.connsCh.close
    return { s with acceptor := .returned, connsCh := ch }
  | _ => none

/-! ### Serving -/

def receive (s : ProxyListener α) : Option (ProxyListener α) :=
  if s.serving then do
    let (conn, ch) ← s.connsCh.recv
    return { s with
      connsCh := ch
      workers := s.workers ++ [.proxying conn]
      started := s.started ++ [conn] }
  else none

/-- The loop ends when the channel is closed and nothing is left in it. -/
def leave (s : ProxyListener α) : Option (ProxyListener α) :=
  if s.serving ∧ s.connsCh.closed ∧ s.connsCh.recv.isNone then some { s with serving := false }
  else none

/-- `proxyConn` returns, without an error if `ok`. -/
def proxied (s : ProxyListener α) (i : ℕ) (ok : Bool) : Option (ProxyListener α) := do
  match ← s.workers[i]? with
  | .proxying conn =>
    return { s with workers := s.workers.set i (if ok then .closing conn else .replying conn) }
  | _ => none

def reply (s : ProxyListener α) (i : ℕ) : Option (ProxyListener α) := do
  match ← s.workers[i]? with
  | .replying conn => return { s with workers := s.workers.set i (.closing conn) }
  | _ => none

def closeConn (s : ProxyListener α) (i : ℕ) : Option (ProxyListener α) := do
  match ← s.workers[i]? with
  | .closing conn =>
    return { s with workers := s.workers.set i .returned, closed := s.closed ++ [conn] }
  | _ => none

/-! ### Runs -/

inductive Event (α : Type)
  | accept (conn : α)
  | acceptErr
  | timeout
  /-- `SOCKS5.Close` -/
  | close
  | send
  | drop
  | closeCh
  | receive
  | leave
  | proxied (i : ℕ) (ok : Bool)
  | reply (i : ℕ)
  | closeConn (i : ℕ)

def step (s : ProxyListener α) : Event α → Option (ProxyListener α)
  | .accept conn => s.accept conn
  | .acceptErr => s.acceptErr
  | .timeout => s.timeout
  | .close => some { s with listenerClosed := true }
  | .send => s.send
  | .drop => s.drop
  | .closeCh => s.closeCh
  | .receive => s.receive
  | .leave => s.leave
  | .proxied i ok => s.proxied i ok
  | .reply i => s.reply i
  | .closeConn i => s.closeConn i

/-- What has to come from outside, where `Accept` waits on an open listener only. -/
def External (s : ProxyListener α) : Event α → Prop
  | .accept _ | .timeout | .close => True
  | .acceptErr => s.listenerClosed = false
  | _ => False

/-- The state after a run; `none` when an event of it is not possible. -/
def run (s : ProxyListener α) (es : List (Event α)) : Option (ProxyListener α) := es.foldlM step s

/-- Nothing happens by itself, and no connection is being served. -/
def Quiet (s : ProxyListener α) : Prop := ∀ e, ¬ s.External e → s.step e = none

/-! ### Where the connections are -/

def Acceptor.held : Acceptor α → List α
  | .offering conn | .dropping conn => [conn]
  | _ => []

def Worker.held : Worker α → List α
  | .proxying conn | .replying conn | .closing conn => [conn]
  | .returned => []

/-- The connections that have not been closed. -/
def underWay (s : ProxyListener α) : List α :=
  s.acceptor.held ++ s.connsCh.buf ++ s.workers.flatMap Worker.held

def Acceptor.offered : Acceptor α → List α
  | .offering conn => [conn]
  | _ => []

def Acceptor.isReturned : Acceptor α → Bool
  | .returned => true
  | _ => false

structure Inv [DecidableEq α] (s : ProxyListener α) : Prop where
  balance : ∀ c, s.accepted.count c = s.closed.count c + s.acceptor.held.count c +
    s.connsCh.buf.count c + (s.workers.flatMap Worker.held).count c
  order : (s.started ++ s.connsCh.buf ++ s.acceptor.offered).Sublist s.accepted
  cap : s.connsCh.cap = 1
  closed : s.connsCh.closed = s.acceptor.isReturned
  ended : s.serving = false → s.connsCh.closed = true ∧ s.connsCh.buf = []

variable [DecidableEq α]

lemma inv_start (α : Type) [DecidableEq α] : (start α).Inv where
  balance _ := rfl
  order := List.Sublist.refl []
  cap := rfl
  closed := rfl
  ended h := nomatch h

namespace Inv

variable {s s' : ProxyListener α}

lemma accept (h : s.Inv) {conn : α} (hs : s.accept conn = some s') : s'.Inv := by
  unfold ProxyListener.accept at hs
  split at hs
  · next ha =>
    split_ifs at hs
    cases hs
    have hb := h.balance
    have ho := h.order
    have hc := h.closed
    rw [ha] at hb ho hc
    refine { h with balance := fun c => ?_, order := ?_, closed := hc }
    · have := hb c
      simp only [Acceptor.held, List.count_append, List.count_nil] at this ⊢
      omega
    · simp only [Acceptor.offered, List.append_nil] at ho ⊢
      exact ho.append (List.Sublist.refl [conn])
  · cases hs

lemma acceptErr (h : s.Inv) (hs : s.acceptErr = some s') : s'.Inv := by
  unfold ProxyListener.acceptErr at hs
  split at hs
  · next ha =>
    cases hs
    have hb := h.balance
    have ho := h.order
    have hc := h.closed
    rw [ha] at hb ho hc
    exact { h with balance := hb, order := ho, closed := hc }
  · cases hs

lemma send (h : s.Inv) (hs : s.send = some s') : s'.Inv := by
  unfold ProxyListener.send at hs
  split at hs
  · next conn ha =>
    split at hs
    · next ch hch =>
      cases hs
      have hbuf := Chan.trySend_buf hch
      obtain ⟨hcap, hclosed⟩ := Chan.trySend_cap hch
      have hb := h.balance
      have ho := h.order
      have hc := h.closed
      rw [ha] at hb ho hc
      have hserving : s.serving = true := by
        by_contra hf
        rw [(h.ended (by simpa using hf)).1] at hc
        cases hc
      refine ⟨fun c => ?_, ?_, hcap.trans h.cap, hclosed.trans hc, fun hf => ?_⟩
      · have := hb c
        simp only [Acceptor.held, hbuf, List.count_append, List.count_nil] at this ⊢
        omega
      · simpa only [Acceptor.offered, hbuf, List.append_nil, List.append_assoc] using ho
      · exact nomatch hserving.symm.trans hf
    · cases hs
  · cases hs

lemma timeout (h : s.Inv) (hs : s.timeout = some s') : s'.Inv := by
  unfold ProxyListener.timeout at hs
  split at hs
  · next conn ha =>
    cases hs
    have hb := h.balance
    have ho := h.order
    have hc := h.closed
    rw [ha] at hb ho hc
    refine { h with balance := hb, order := ?_, closed := hc }
    simp only [Acceptor.offered, List.append_nil]
    exact (List.sublist_append_left _ _).trans ho
  · cases hs

lemma drop (h : s.Inv) (hs : s.drop = some s') : s'.Inv := by
  unfold ProxyListener.drop at hs
  split at hs
  · next conn ha =>
    cases hs
    have hb := h.balance
    have ho := h.order
    have hc := h.closed
    rw [ha] at hb ho hc
    refine { h with balance := fun c => ?_, order := ho, closed := hc }
    have := hb c
    simp only [Acceptor.held, List.count_append, List.count_nil] at this ⊢
    omega
  · cases hs

lemma closeCh (h : s.Inv) (hs : s.closeCh = some s') : s'.Inv := by
  unfold ProxyListener.closeCh at hs
  split at hs
  · next ha =>
    obtain ⟨ch, hch, hs⟩ := Option.bind_eq_some_iff.mp hs
    cases hs
    unfold Chan.close at hch
    split_ifs at hch
    cases hch
    have hb := h.balance
    have ho := h.order
    rw [ha] at hb ho
    exact ⟨hb, ho, h.cap, rfl, fun hf => ⟨rfl, (h.ended hf).2⟩⟩
  · cases hs

lemma receive (h : s.Inv) (hs : s.receive = some s') : s'.Inv := by
  unfold ProxyListener.receive at hs
  split_ifs at hs with hserving
  obtain ⟨⟨conn, ch⟩, hch, hs⟩ := Option.bind_eq_some_iff.mp hs
  cases hs
  have hbuf := Chan.recv_buf hch
  have ho := h.order
  rw [hbuf] at ho
  refine ⟨fun c => ?_, ?_, (Chan.recv_cap hch).trans h.cap, (Chan.recv_closed hch).trans h.closed,
    fun hf => ?_⟩
  · have := h.balance c
    simp only [hbuf, Worker.held, List.flatMap_append, List.flatMap_singleton, List.count_append,
      List.count_cons, List.count_nil] at this ⊢
    omega
  · simpa only [List.append_assoc, List.singleton_append] using ho
  · exact nomatch hserving.symm.trans hf

lemma leave (h : s.Inv) (hs : s.leave = some s') : s'.Inv := by
  unfold ProxyListener.leave at hs
  split_ifs at hs with hend
  cases hs
  refine { h with ended := fun _ => ⟨hend.2.1, ?_⟩ }
  exact Chan.recv_eq_none.mp (Option.isNone_iff_eq_none.mp hend.2.2)

/-- A goroutine goes on; it may have closed its connection. -/
lemma setWorker (h : s.Inv) {i : ℕ} {w : Worker α} (hw : s.workers[i]? = some w) (w' : Worker α)
    (closed : List α) (hheld : w.held = w'.held ++ closed) :
    Inv { s with workers := s.workers.set i w', closed := s.closed ++ closed } := by
  refine { h with balance := fun c => ?_ }
  have hset := count_flatMap_set Worker.held w' c hw
  have := h.balance c
  simp only [hheld, List.count_append] at hset this ⊢
  omega

lemma proxied (h : s.Inv) {i : ℕ} {ok : Bool} (hs : s.proxied i ok = some s') : s'.Inv := by
  obtain ⟨w, hw, hs⟩ := Option.bind_eq_some_iff.mp hs
  cases w with
  | proxying conn =>
    cases hs
    have hset := h.setWorker hw (if ok then .closing conn else .replying conn) []
      (by cases ok <;> rfl)
    rwa [List.append_nil] at hset
  | _ => cases hs

lemma reply (h : s.Inv) {i : ℕ} (hs : s.reply i = some s') : s'.Inv := by
  obtain ⟨w, hw, hs⟩ := Option.bind_eq_some_iff.mp hs
  cases w with
  | replying conn =>
    cases hs
    have hset := h.setWorker hw (.closing conn) [] rfl
    rwa [List.append_nil] at hset
  | _ => cases hs

lemma closeConn (h : s.Inv) {i : ℕ} (hs : s.closeConn i = some s') : s'.Inv := by
  obtain ⟨w, hw, hs⟩ := Option.bind_eq_some_iff.mp hs
  cases w with
  | closing conn =>
    cases hs
    exact h.setWorker hw .returned [conn] rfl
  | _ => cases hs

/-- **One step.** -/
lemma step (h : s.Inv) {e : Event α} (hs : s.step e = some s') : s'.Inv := by
  cases e with
  | accept conn => exact h.accept hs
  | acceptErr => exact h.acceptErr hs
  | timeout => exact h.timeout hs
  | close =>
    cases hs
    exact { h with }
  | send => exact h.send hs
  | drop => exact h.drop hs
  | closeCh => exact h.closeCh hs
  | receive => exact h.receive hs
  | leave => exact h.leave hs
  | proxied i ok => exact h.proxied hs
  | reply i => exact h.reply hs
  | closeConn i => exact h.closeConn hs

lemma perm (h : s.Inv) : s.accepted.Perm (s.closed ++ s.underWay) := by
  refine List.perm_iff_count.mpr fun c => ?_
  rw [h.balance, underWay]
  simp only [List.count_append]
  omega

/-! ### Who waits for whom -/

/-- Nothing is sent on a closed channel. -/
lemma send_open (h : s.Inv) {conn : α} (ha : s.acceptor = .offering conn) :
    s.connsCh.closed = false := by
  rw [h.closed, ha]
  rfl

/-- The channel is closed for the first time. -/
lemma closeCh_isSome (h : s.Inv) (ha : s.acceptor = .closing) : s.closeCh.isSome := by
  have hopen : s.connsCh.closed = false := by rw [h.closed, ha]; rfl
  simp [ProxyListener.closeCh, ha, Chan.close, hopen]

end Inv

omit [DecidableEq α] in
lemma Quiet.not_isSome {s : ProxyListener α} (hq : s.Quiet) {e : Event α} (he : ¬ s.External e)
    (hs : (s.step e).isSome) : False := by
  rw [hq e he] at hs
  cases hs

namespace Inv

variable {s : ProxyListener α}

lemma buf_of_quiet (h : s.Inv) (hq : s.Quiet) : s.connsCh.buf = [] := by
  cases hserving : s.serving with
  | false => exact (h.ended hserving).2
  | true =>
    rcases hr : s.connsCh.recv with _ | ⟨conn, ch⟩
    · exact Chan.recv_eq_none.mp hr
    · refine (hq.not_isSome (e := .receive) id ?_).elim
      simp [ProxyListener.step, ProxyListener.receive, hserving, hr]

/-- The loop that accepts waits for a connection, or is over. -/
lemma acceptor_of_quiet (h : s.Inv) (hq : s.Quiet) :
    s.acceptor = .accepting ∧ s.listenerClosed = false ∨ s.acceptor = .returned := by
  rcases ha : s.acceptor with _ | conn | conn | _ | _
  · refine Or.inl ⟨rfl, ?_⟩
    by_contra hclosed
    refine hq.not_isSome (e := .acceptErr) hclosed ?_
    simp [ProxyListener.step, ProxyListener.acceptErr, ha]
  · -- the channel has room, for what was in it has been received
    refine (hq.not_isSome (e := .send) id ?_).elim
    have hroom : s.connsCh.buf.length < s.connsCh.cap := by
      rw [h.buf_of_quiet hq, h.cap]
      exact Nat.one_pos
    simp [ProxyListener.step, ProxyListener.send, ha, Chan.trySend, h.send_open ha, hroom]
  · refine (hq.not_isSome (e := .drop) id ?_).elim
    simp [ProxyListener.step, ProxyListener.drop, ha]
  · exact (hq.not_isSome (e := .closeCh) id (h.closeCh_isSome ha)).elim
  · exact Or.inr rfl

omit [DecidableEq α] in
lemma workers_of_quiet (hq : s.Quiet) : ∀ w ∈ s.workers, w.held = [] := by
  intro w hw
  obtain ⟨i, hi⟩ := List.mem_iff_getElem?.mp hw
  cases w with
  | proxying conn =>
    refine (hq.not_isSome (e := .proxied i true) id ?_).elim
    simp [ProxyListener.step, ProxyListener.proxied, hi]
  | replying conn =>
    refine (hq.not_isSome (e := .reply i) id ?_).elim
    simp [ProxyListener.step, ProxyListener.reply, hi]
  | closing conn =>
    refine (hq.not_isSome (e := .closeConn i) id ?_).elim
    simp [ProxyListener.step, ProxyListener.closeConn, hi]
  | returned => rfl

/-- All that was accepted has been closed. -/
lemma closed_of_quiet (h : s.Inv) (hq : s.Quiet) : s.accepted.Perm s.closed := by
  have hheld : s.acceptor.held = [] := by
    rcases h.acceptor_of_quiet hq with ⟨ha, -⟩ | ha <;> rw [ha] <;> rfl
  have hworkers : s.workers.flatMap Worker.held = [] :=
    List.flatMap_eq_nil_iff.mpr (workers_of_quiet hq)
  have hperm := h.perm
  rwa [underWay, hheld, h.buf_of_quiet hq, hworkers, List.append_nil, List.append_nil,
    List.append_nil] at hperm

/-- Closing the listener ends both loops. -/
lemma ended_of_quiet (h : s.Inv) (hq : s.Quiet) (hl : s.listenerClosed = true) :
    s.acceptor.isReturned = true ∧ s.serving = false := by
  rcases h.acceptor_of_quiet hq with ⟨-, hopen⟩ | ha
  · rw [hl] at hopen
    cases hopen
  · refine ⟨by rw [ha]; rfl, ?_⟩
    by_contra hserving
    refine hq.not_isSome (e := .leave) id ?_
    have hclosed : s.connsCh.closed = true := by rw [h.closed, ha]; rfl
    have hrecv := Chan.recv_eq_none.mpr (h.buf_of_quiet hq)
    simp only [Bool.not_eq_false] at hserving
    simp [ProxyListener.step, ProxyListener.leave, hserving, hclosed, hrecv]

end Inv

variable {s : ProxyListener α} {es : List (Event α)}

/-- Of three connections the second waits in the channel and the third is dropped. -/
def threeConns : List (Event ℕ) :=
  [.accept 1, .send, .receive, .accept 2, .send, .accept 3, .timeout, .drop, .close, .acceptErr,
    .closeCh, .receive, .leave, .proxied 0 true, .proxied 1 false, .reply 1, .closeConn 1,
    .closeConn 0]

end ProxyListener

end Awl
