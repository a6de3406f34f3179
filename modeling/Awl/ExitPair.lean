import Awl.ExitConsentCode
import Awl.Mutual

/-!
Two nodes with their proxies, and everybody else: traffic leaves through a node only if its user
has let the other one use it.

The network is that of two nodes that make friends. On top of it peers open streams to the proxy
of a node, and local clients connect to it; a setting of the proxy may change at any time.
-/

namespace Awl

open PeerCodec Socks5

variable {ID : Type} [PeerCodec ID]

structure ExitPair (ID : Type) where
  nodes : Parties Side (Node ID) (NodeReq ID) Resp
  /-- the settings that the user of each node has asked for -/
  asked : Side → List UpdatePeerSettingsRequest

inductive ExitEvent (ID : Type) [PeerCodec ID]
  | turn (x : Side) (i : ℕ) (r : Resp)
  | post (x : Side) (i : ℕ)
  | call (x : Side) (l : NodeCall ID)
  | restart (x : Side) (ks ks' : List String)
  | change (x : Side) (s : Node ID)

namespace ExitPair

def start (s : Side → Node ID) : ExitPair ID := ⟨⟨s, fun _ => [], fun _ => []⟩, fun _ => []⟩

/-- What the nodes have begun to send each other in order to make friends. -/
def messages (p : ExitPair ID) : Pair ID where
  state := p.nodes.state
  tasks _ := []
  begun x := (p.nodes.begun x).filterMap Sum.getLeft?

def step [DecidableEq ID] (env : Env) (protocol : ℕ → Protocol) (p : ExitPair ID) :
    ExitEvent ID → ExitPair ID
  | .turn x i r => { p with nodes := p.nodes.turn x i r }
  | .post x i => { p with nodes := p.nodes.post x i }
  | .call x l =>
    { nodes := p.nodes.start x (l.code env protocol)
      asked := Function.update p.asked x (p.asked x ++ l.settings) }
  | .restart x ks ks' =>
    { p with nodes := p.nodes.reset x ((p.nodes.state x).restart env ks ks') }
  | .change x s => { p with nodes := p.nodes.put x s }

/-- A status or a request of the other node arrives only if it was sent. -/
def Cond (ids : Side → ID) (p : ExitPair ID) : ExitEvent ID → Prop
  | .turn x i r => ∀ q ∈ (p.nodes.awaited x i).bind Sum.getLeft?, Arrives ids p.messages x q r
  | .change x s => Unrelated (p.nodes.state x) s
  | _ => True

instance [DecidableEq ID] (ids : Side → ID) (p : ExitPair ID) :
    ∀ e : ExitEvent ID, Decidable (p.Cond ids e)
  | .turn x i r => inferInstanceAs (Decidable
      (∀ q ∈ (p.nodes.awaited x i).bind Sum.getLeft?, Arrives ids p.messages x q r))
  | .post _ _ => instDecidableTrue
  | .call _ _ => instDecidableTrue
  | .restart _ _ _ => instDecidableTrue
  | .change x s => inferInstanceAs (Decidable (Unrelated (p.nodes.state x) s))

/-- The user of `x` has let the other node use it as an exit node. -/
def Granted (ids : Side → ID) (p : ExitPair ID) (x : Side) : Prop :=
  ∃ req ∈ p.asked x, req.peerID = string (ids x.other) ∧ req.allowUsingAsExitNode = true

/-- A node has served the other, or told it that it does, only if its user lets the other use it;
and has passed on traffic to the other only if the user of that one lets it. -/
def Entrusted (ids : Side → ID) (p : ExitPair ID) : Prop :=
  ∀ x, ∀ q ∈ p.nodes.begun x,
    (q.Tells (ids x.other) ∨ q.Serves (ids x.other) → p.Granted ids x) ∧
      (q.Uses (ids x.other) → p.Granted ids x.other)

/-- What is allowed between the two, as `x` sees it. -/
def grants (ids : Side → ID) (p : ExitPair ID) (x : Side) : Set Grant :=
  {d | match d with
    | .given => p.Granted ids x
    | .received => p.Granted ids x.other}

def Inv (ids : Side → ID) (p : ExitPair ID) : Prop :=
  ∀ x, p.nodes.Keeps x (exitConsent (ids x.other)) () (p.grants ids x)

end ExitPair

/-- The nodes have no records of each other. -/
structure Unacquainted (ids : Side → ID) (s : Side → Node ID) : Prop where
  valid : ∀ x, ids x ≠ zero
  conf : ∀ x k kp, (s x).conf.knownPeers.lookup k = some kp →
    decode k ≠ some (ids x.other) ∧ decode kp.peerID ≠ some (ids x.other)
  disk : ∀ x k kp, (s x).disk.knownPeers.lookup k = some kp →
    decode k ≠ some (ids x.other) ∧ decode kp.peerID ≠ some (ids x.other)

namespace ExitPair

variable {ids : Side → ID} {p : ExitPair ID} {env : Env} {protocol : ℕ → Protocol}

lemma Inv.entrusted (h : Inv ids p) : Entrusted ids p := fun x => (h x).begun

lemma Inv.start {s : Side → Node ID} (h : Unacquainted ids s) : Inv ids (ExitPair.start s) := by
  have hrec : ∀ (x : Side) (m : GoMap String KnownPeer),
      (∀ k kp, m.lookup k = some kp →
        decode k ≠ some (ids x.other) ∧ decode kp.peerID ≠ some (ids x.other)) →
      EntitledRecords (ids x.other) ((ExitPair.start s).grants ids x) m := fun x m hm =>
    ⟨fun k kp hk hy => absurd hy (hm k kp hk).2,
      fun k kp hk hy => hy.elim (fun hy => absurd hy (hm k kp hk).1)
        fun hy => absurd hy (hm k kp hk).2⟩
  refine fun x => ⟨⟨hrec x _ (h.conf x), hrec x _ (h.disk x)⟩, ?_, ?_⟩
  · exact fun k hk => absurd hk List.not_mem_nil
  · exact fun q hq => absurd hq List.not_mem_nil

/-- What arrives from the other node about a permission, that node has told. -/
lemma Inv.hears (h : Inv ids p) {x : Side} {q : Req ID} {r : Resp}
    (hr : Arrives ids p.messages x q r) (hq : NodeReq.Hears (ids x.other) (.inl q) r) :
    p.Granted ids x.other := by
  have hother := (h x.other).begun
  rw [Side.other_other] at hother
  cases q with
  | receiveStatus stream =>
    cases r with
    | status info =>
      obtain ⟨hremote, ha⟩ := hq
      obtain ⟨q', hsent, hq'⟩ := hr hremote
      obtain ⟨q'', hmem, hleft⟩ := List.mem_filterMap.mp hsent
      obtain rfl : q'' = .inl q' := Sum.getLeft?_eq_some_iff.mp hleft
      cases q' with
      | sendStatus stream' info' => exact (hother _ hmem).1 (Or.inl ⟨hq'.1, hq'.2 ▸ ha⟩)
      | _ => exact hq'.elim
    | _ => exact hq.elim
  | _ => exact (by cases r <;> exact hq : False).elim

/-- More is asked for. -/
lemma Granted.asked {p' : ExitPair ID} {x : Side} (h : p.Granted ids x)
    (hp : p.asked x ⊆ p'.asked x) : p'.Granted ids x := by
  obtain ⟨req, hreq, hid, ha⟩ := h
  exact ⟨req, hp hreq, hid, ha⟩

lemma grants_mono {p' : ExitPair ID} (hp : ∀ x, p.asked x ⊆ p'.asked x) (x : Side) :
    p.grants ids x ≤ p'.grants ids x := by
  rintro (_ | _) hd
  · exact Granted.asked hd (hp x)
  · exact Granted.asked hd (hp x.other)

variable [DecidableEq ID]

/-- **One event.** -/
lemma Inv.step (h : Inv ids p) (hz : ∀ x, ids x ≠ zero) (e : ExitEvent ID) (he : p.Cond ids e) :
    Inv ids (p.step env protocol e) := by
  cases e with
  | turn x i r =>
    intro z
    by_cases hzx : z = x
    · subst hzx
      obtain ⟨⟨⟩, -, hkeeps⟩ := (h z).turn (i := i) (r := r) fun q hq hhears => by
        cases q with
        | inl q => exact h.hears (he q (by rw [hq]; rfl)) hhears
        | inr q => exact hhears.elim
      exact hkeeps
    · exact (h z).turn_other hzx i r
  | post x i => exact fun z => (h z).post i
  | call x l =>
    have hasked : ∀ z, p.asked z ⊆ (p.step env protocol (.call x l)).asked z := by
      intro z
      by_cases hzx : z = x
      · subst hzx
        simp [ExitPair.step]
      · simp [ExitPair.step, hzx]
    refine fun z => ((h z).mono (grants_mono hasked z)).start fun hzx => ?_
    subst hzx
    cases l with
    | call l =>
      refine Contract.Safe.mapAsk (ExitConsent.safe_call (hz _) l ?_)
      rintro req rfl hid ha
      refine ⟨req, ?_, hid, ha⟩
      simp [ExitPair.step, NodeCall.settings]
    | proxyStream stream => exact ExitConsent.safe_proxyStreamHandler (hz _) stream
    | serveConn conn => exact ExitConsent.safe_serveConn (hz _) protocol conn
  | restart x ks ks' =>
    exact fun z => (h z).reset fun hzx => hzx ▸ (h z).inv.restart env ks ks'
  | change x s =>
    refine fun z => (h z).put fun hzx => ?_
    subst hzx
    exact (h z).inv.of_eq he.conf.1 he.disk.1

end ExitPair

/-- **Consent to an exit node**: in every state of every run of two nodes that start without
records of each other. -/
theorem exit_consent [DecidableEq ID] (env : Env) (protocol : ℕ → Protocol) {ids : Side → ID}
    {s : Side → Node ID} (h : Unacquainted ids s) (es : List (ExitEvent ID))
    (hes : Runs.Meets (ExitPair.step env protocol) (ExitPair.Cond ids) (.start s) es) :
    Runs.Holds (ExitPair.step env protocol) (ExitPair.Entrusted ids) (.start s) es :=
  Runs.holds_of_meets (fun _ e hinv he => hinv.step h.valid e he) (fun _ hinv => hinv.entrusted)
    es _ (ExitPair.Inv.start h) hes

section

open BootstrapPeer

/-- A fresh node whose proxy is enabled. -/
def exitReady : Node BootstrapPeer :=
  { freshNode with conf := { freshNode.conf with
      socks5 := { listenerEnabled := true, proxyingEnabled := true } } }

lemma exitReady_unacquainted : Unacquainted names fun _ => exitReady where
  valid x := by cases x <;> decide
  conf x k kp hk := by simp [exitReady, freshNode, BootstrapPeer.conf] at hk
  disk x k kp hk := by simp [exitReady, freshNode, BootstrapPeer.conf] at hk

/-- Two nodes add each other, and the user of one lets the other use it. The other hears of it,
and passes on a connection. -/
def consentedExit : List (ExitEvent BootstrapPeer) :=
  .call .a (.call (.sendFriendRequest ⟨rus2.text, "friend", ""⟩)) ::
    List.replicate 7 (.turn .a 0 .ok) ++
  .call .b (.call (.sendFriendRequest ⟨ita1.text, "friend", ""⟩)) ::
    List.replicate 7 (.turn .b 0 .ok) ++
  .call .b (.call (.updatePeerSettings ⟨ita1.text, "friend", "friend", "10.66.0.2", true⟩)) ::
    List.replicate 4 (.turn .b 1 .ok) ++
  [.turn .b 2 .ok, .turn .b 2 .ok, .turn .b 2 (.stream 1), .turn .b 2 .ok, .turn .b 2 .ok,
    .turn .b 2 .ok, .post .b 2] ++
  [.call .a (.call (.statusStream rus2 rus2_ne_zero 1)), .turn .a 1 .ok, .turn .a 1 .ok,
    .turn .a 1 (.status ⟨"", false, true, ""⟩)] ++ List.replicate 8 (.turn .a 1 .ok) ++
  [.call .a (.serveConn 0), .turn .a 2 .ok, .turn .a 2 .ok, .turn .a 2 .ok,
    .turn .a 2 (.stream 2), .turn .a 2 .ok, .post .a 2] ++
  [.call .b (.proxyStream ⟨ita1, 2, .noAuthMethod⟩), .turn .b 3 .ok, .turn .b 3 .ok, .post .b 3]

theorem consentedExit_entrusted :
    Unacquainted names (fun _ => exitReady) ∧
      (∀ p, p = consentedExit.foldl (ExitPair.step sampleEnv fun _ => .noAuthMethod)
          (.start fun _ => exitReady) →
        ((p.nodes.begun .b).filterMap Sum.getRight?).contains
            (.serveStreamConnNoAuth ⟨ita1, 2, .noAuthMethod⟩) ∧
          ((p.nodes.begun .a).filterMap Sum.getRight?).contains (.newStreamMulti rus2)) ∧
      Runs.Holds (ExitPair.step sampleEnv fun _ => .noAuthMethod) (ExitPair.Entrusted names)
        (.start fun _ => exitReady) consentedExit := by
  refine ⟨exitReady_unacquainted, ?_, ?_⟩
  · rintro p rfl
    decide +kernel
  · exact exit_consent sampleEnv _ exitReady_unacquainted _ (by decide +kernel)

end

end Awl
