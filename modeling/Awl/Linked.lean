import Awl.Calls
import Awl.Leads

/-!
Two nodes linked by streams that work.

Every connection and every stream succeeds. Opening a stream starts its handler on the other
side, and what one end sends the other receives; the side that opened it fails to receive only
if the handler has ended without an answer.
-/

namespace Awl

open PeerCodec

variable {ID : Type} [PeerCodec ID]

/-- The two nodes, and for each stream who opened it and which goroutine of the other side
handles it. -/
structure Linked (ID : Type) where
  net : Pair ID
  streams : List (Side × ℕ)

/-- The two ends of one stream. -/
def Stream.Faces (stream stream' : Stream ID) : Prop :=
  stream'.sid = stream.sid ∧ stream'.inbound = !stream.inbound

instance (stream stream' : Stream ID) : Decidable (stream.Faces stream') :=
  inferInstanceAs (Decidable (_ ∧ _))

/-- The answer to `q` that delivers what `q'` sends from the other end, if `q` waits for
that. -/
def delivery : Req ID → Req ID → Option Resp
  | .receiveStatus stream, .sendStatus stream' info =>
    if stream.Faces stream' then some (.status info) else none
  | .receiveAuth stream, .sendAuth stream' authPeer =>
    if stream.Faces stream' then some (.auth authPeer) else none
  | .receiveAuthResponse stream, .sendAuthResponse stream' response =>
    if stream.Faces stream' then some (.authResponse response) else none
  | _, _ => none

namespace Linked

/-- The handler of the stream has ended. -/
def HandlerDone (σ : Linked ID) (x : Side) (sid : ℕ) : Prop :=
  ∃ e ∈ σ.streams[sid]?, e.1 = x ∧ ∃ k ∈ (σ.net.tasks x.other)[e.2]?, k.isDone = true

instance (σ : Linked ID) (x : Side) (sid : ℕ) : Decidable (σ.HandlerDone x sid) :=
  inferInstanceAs (Decidable (∃ e ∈ σ.streams[sid]?, _ ∧ _))

/-- The side `x` receives `r`: what has been sent, or a failure if the handler has ended
without an answer. -/
def Received (σ : Linked ID) (x : Side) (q : Req ID) (stream : Stream ID) (r : Resp) : Prop :=
  (∃ q' ∈ σ.net.begun x.other, delivery q q' = some r) ∨
    (stream.inbound = false ∧ r = .error ∧ σ.HandlerDone x stream.sid ∧
      ∀ q' ∈ σ.net.begun x.other, delivery q q' = none)

instance (σ : Linked ID) (x : Side) (q : Req ID) (stream : Stream ID) (r : Resp) :
    Decidable (σ.Received x q stream r) :=
  inferInstanceAs (Decidable (_ ∨ _))

/-- The side `x` may get the answer `r`. -/
def Answered (σ : Linked ID) (x : Side) (q : Req ID) (r : Resp) : Prop :=
  match q with
  | .connectPeer _ => r = .ok
  | .newStream _ _ => r = .stream σ.streams.length
  | .sendStatus _ _ | .sendAuth _ _ | .sendAuthResponse _ _ => r = .ok
  | .receiveStatus stream | .receiveAuth stream | .receiveAuthResponse stream =>
    σ.Received x q stream r

instance (σ : Linked ID) (x : Side) (q : Req ID) (r : Resp) : Decidable (σ.Answered x q r) := by
  unfold Answered
  split <;> infer_instance

/-- No goroutine is left to run, and so no stream is open. -/
def Quiescent (σ : Linked ID) : Prop := ∀ x, ∀ k ∈ σ.net.tasks x, k.isDone = true

end Linked

inductive LinkedEvent (ID : Type) [PeerCodec ID]
  | turn (x : Side) (i : ℕ) (r : Resp)
  | post (x : Side) (i : ℕ)
  | call (x : Side) (l : Call ID)

namespace LinkedEvent

/-- Steps of one goroutine that receive nothing. -/
def turns (x : Side) (i n : ℕ) : List (LinkedEvent ID) := List.replicate n (.turn x i .ok)

variable [DecidableEq ID]

/-- The handler that the other side runs for a stream opened by `remote`. -/
def handler (env : Env) (proto : Proto) (remote : ID) (sid : ℕ) :
    Code (Node ID) (Req ID) Resp :=
  match proto with
  | .auth => (AuthStatus.authStreamHandler env
      { remote := remote, sid := sid, inbound := true }).code
  | .status => (AuthStatus.statusStreamHandler env
      { remote := remote, sid := sid, inbound := true }).code

/-- A goroutine that has opened a stream goes on, and the handler is started. -/
def opened (env : Env) (ids : Side → ID) (σ : Linked ID) (x : Side) (i : ℕ) (proto : Proto) :
    Linked ID where
  net := (σ.net.turn x i (.stream σ.streams.length)).start x.other
    (handler env proto (ids x) σ.streams.length)
  streams := σ.streams ++ [(x, (σ.net.tasks x.other).length)]

def step (env : Env) (ids : Side → ID) (σ : Linked ID) : LinkedEvent ID → Linked ID
  | .turn x i r =>
    match σ.net.awaited x i with
    | some (.newStream _ proto) => opened env ids σ x i proto
    | _ => { σ with net := σ.net.turn x i r }
  | .post x i => { σ with net := σ.net.post x i }
  | .call x l => { σ with net := σ.net.start x (l.code env) }

end LinkedEvent

end Awl
