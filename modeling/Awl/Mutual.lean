import Awl.Addresses
import Awl.ConsentCalls

/-!
Two nodes, and everybody else: a node that has confirmed the other was added by it.

Between the two, a message arrives only if it was sent; it may arrive late, more than once or
not at all, and any operation may fail. Streams are authenticated, so what comes from anybody
else does not claim to come from one of the two, but is not restricted otherwise. Either node
may be restarted at any time.
-/

namespace Awl

open PeerCodec

variable {ID : Type} [PeerCodec ID]

inductive PairEvent (ID : Type) [PeerCodec ID]
  | turn (x : Side) (i : ℕ) (r : Resp)
  | post (x : Side) (i : ℕ)
  | call (x : Side) (l : Call ID)
  | restart (x : Side) (ks ks' : List String)
  | change (x : Side) (s : Node ID)

/-- A change of the clock or of settings that are not about peers. -/
structure Unrelated (s s' : Node ID) : Prop where
  conf : s'.conf.knownPeers = s.conf.knownPeers ∧ s'.conf.blockedPeers = s.conf.blockedPeers
  disk : s'.disk.knownPeers = s.disk.knownPeers ∧ s'.disk.blockedPeers = s.disk.blockedPeers
  auths : s'.ingoingAuths = s.ingoingAuths ∧ s'.outgoingAuths = s.outgoingAuths
  history : s'.history = s.history

instance [DecidableEq ID] (s s' : Node ID) : Decidable (Unrelated s s') :=
  decidable_of_iff (_ ∧ _ ∧ _ ∧ _) ⟨fun h => ⟨h.1, h.2.1, h.2.2.1, h.2.2.2⟩,
    fun h => ⟨h.conf, h.disk, h.auths, h.history⟩⟩

/-- The operation sends `id` what the answer delivers. -/
def Carries (id : ID) : Req ID → Resp → Prop
  | .sendStatus stream info, .status info' => stream.remote = id ∧ info = info'
  | .sendAuth stream authPeer, .auth authPeer' => stream.remote = id ∧ authPeer = authPeer'
  | .sendAuthResponse stream response, .authResponse response' =>
    stream.remote = id ∧ response = response'
  | _, _ => False

instance [DecidableEq ID] (id : ID) (q : Req ID) (r : Resp) : Decidable (Carries id q r) :=
  match q, r with
  | .sendStatus .., .status .. | .sendAuth .., .auth ..
  | .sendAuthResponse .., .authResponse .. => instDecidableAnd
  | .sendStatus .., .error | .sendStatus .., .ok | .sendStatus .., .stream ..
  | .sendStatus .., .auth .. | .sendStatus .., .authResponse ..
  | .sendAuth .., .error | .sendAuth .., .ok | .sendAuth .., .stream ..
  | .sendAuth .., .status .. | .sendAuth .., .authResponse ..
  | .sendAuthResponse .., .error | .sendAuthResponse .., .ok | .sendAuthResponse .., .stream ..
  | .sendAuthResponse .., .status .. | .sendAuthResponse .., .auth ..
  | .connectPeer .., _ | .newStream .., _ | .receiveStatus .., _ | .receiveAuth .., _
  | .receiveAuthResponse .., _ => instDecidableFalse

/-- What the side `x` may receive from the other node, that node has sent to it. -/
def Arrives (ids : Side → ID) (σ : Pair ID) (x : Side) (q : Req ID) (r : Resp) : Prop :=
  match q, r with
  | .receiveStatus stream, .status _ =>
    stream.remote = ids x.other → ∃ q' ∈ σ.begun x.other, Carries (ids x) q' r
  | .receiveAuth stream, .auth _ =>
    stream.remote = ids x.other → ∃ q' ∈ σ.begun x.other, Carries (ids x) q' r
  | .receiveAuthResponse stream, .authResponse _ =>
    stream.remote = ids x.other → ∃ q' ∈ σ.begun x.other, Carries (ids x) q' r
  | _, _ => True

instance [DecidableEq ID] (ids : Side → ID) (σ : Pair ID) (x : Side) (q : Req ID) (r : Resp) :
    Decidable (Arrives ids σ x q r) :=
  match q, r with
  | .receiveStatus .., .status .. | .receiveAuth .., .auth ..
  | .receiveAuthResponse .., .authResponse .. => instDecidableForall
  | .receiveStatus .., .error | .receiveStatus .., .ok | .receiveStatus .., .stream ..
  | .receiveStatus .., .auth .. | .receiveStatus .., .authResponse ..
  | .receiveAuth .., .error | .receiveAuth .., .ok | .receiveAuth .., .stream ..
  | .receiveAuth .., .status .. | .receiveAuth .., .authResponse ..
  | .receiveAuthResponse .., .error | .receiveAuthResponse .., .ok
  | .receiveAuthResponse .., .stream .. | .receiveAuthResponse .., .status ..
  | .receiveAuthResponse .., .auth ..
  | .connectPeer .., _ | .newStream .., _ | .sendStatus .., _ | .sendAuth .., _
  | .sendAuthResponse .., _ => instDecidableTrue

namespace PairEvent

def step [DecidableEq ID] (env : Env) (σ : Pair ID) : PairEvent ID → Pair ID
  | .turn x i r => σ.turn x i r
  | .post x i => σ.post x i
  | .call x l => σ.start x (l.code env)
  | .restart x ks ks' => σ.reset x ((σ.state x).restart env ks ks')
  | .change x s => σ.put x s

def Cond (ids : Side → ID) (σ : Pair ID) : PairEvent ID → Prop
  | .turn x i r => ∀ q ∈ σ.awaited x i, Arrives ids σ x q r
  | .change x s => Unrelated (σ.state x) s
  | _ => True

instance [DecidableEq ID] (ids : Side → ID) (σ : Pair ID) :
    ∀ e : PairEvent ID, Decidable (e.Cond ids σ)
  | .turn x i r => inferInstanceAs (Decidable (∀ q ∈ σ.awaited x i, Arrives ids σ x q r))
  | .post _ _ => instDecidableTrue
  | .call _ _ => instDecidableTrue
  | .restart _ _ _ => instDecidableTrue
  | .change x s => inferInstanceAs (Decidable (Unrelated (σ.state x) s))

end PairEvent

/-- Two nodes just started, that know nothing of each other. -/
structure Strangers (ids : Side → ID) (σ : Pair ID) : Prop where
  valid : ∀ x, ids x ≠ zero
  tasks : ∀ x, σ.tasks x = []
  begun : ∀ x, σ.begun x = []
  conf : ∀ x k kp, (σ.state x).conf.knownPeers.lookup k = some kp →
    decode k ≠ some (ids x.other) ∧ decode kp.peerID ≠ some (ids x.other)
  disk : ∀ x k kp, (σ.state x).disk.knownPeers.lookup k = some kp →
    decode k ≠ some (ids x.other) ∧ decode kp.peerID ≠ some (ids x.other)
  ingoing : ∀ x, ids x.other ∉ (σ.state x).ingoingAuths
  outgoing : ∀ x, ids x.other ∉ (σ.state x).outgoingAuths
  history : ∀ x, (σ.state x).history = []

/-- A node that the other has confirmed has added it. -/
def Agreed (ids : Side → ID) (σ : Pair ID) : Prop :=
  ∀ x kp, (σ.state x).conf.knownPeers.lookup (string (ids x.other)) = some kp →
    kp.confirmed = true → .added (ids x) ∈ (σ.state x.other).history

/-- Each node keeps to what it has done towards the other, and knows no more of what the other
has done than that. -/
def Pair.Inv (ids : Side → ID) (σ : Pair ID) : Prop :=
  ∃ ℓ : Side → Set Deed, ∀ x, σ.Keeps x (consent (ids x.other)) (ℓ x) (.added ∈ ℓ x.other)

namespace Pair.Inv

variable {ids : Side → ID} {σ : Pair ID} {env : Env}

lemma start (h : Strangers ids σ) : Inv ids σ := by
  have hrec : ∀ (x : Side) (g : Prop) (m : GoMap String KnownPeer),
      (∀ k kp, m.lookup k = some kp →
        decode k ≠ some (ids x.other) ∧ decode kp.peerID ≠ some (ids x.other)) →
      Records (ids x.other) ∅ g m := fun x g m hm =>
    ⟨fun k kp hk => Fine.of_ne (hm k kp hk).2,
      fun k kp hk hy => hy.elim (fun hy => absurd hy (hm k kp hk).1)
        fun hy => absurd hy (hm k kp hk).2⟩
  refine ⟨fun _ => ∅, fun x =>
    ⟨⟨hrec x _ _ (h.conf x), hrec x _ _ (h.disk x), ?_, ?_, ?_, ?_⟩, ?_, ?_⟩⟩
  · exact fun hy => absurd hy (h.ingoing x)
  · exact fun hy => absurd hy (h.outgoing x)
  · exact fun hr => absurd hr (Set.notMem_empty _)
  · exact fun hr => absurd hr (Set.notMem_empty _)
  · rw [h.tasks x]
    exact fun k hk => absurd hk List.not_mem_nil
  · rw [h.begun x]
    exact fun k hk => absurd hk List.not_mem_nil

lemma agreed (h : Inv ids σ) (hz : ∀ x, ids x ≠ zero) : Agreed ids σ := by
  obtain ⟨ℓ, hℓ⟩ := h
  intro x kp hk hc
  have hhome := (hℓ x).inv.conf.home _ kp hk (Or.inl (decode_string _ (hz _)))
  have hy : decode kp.peerID = some (ids x.other) := hhome ▸ decode_string _ (hz _)
  have hadded := ((hℓ x).inv.conf.fine _ kp hk hy).2.2 hc
  simpa using (hℓ x.other).inv.history hadded

/-- What arrives from the other node says what that node has done. -/
lemma hears {ℓ : Side → Set Deed}
    (h : ∀ x, σ.Keeps x (consent (ids x.other)) (ℓ x) (.added ∈ ℓ x.other)) {x : Side}
    {q : Req ID} {r : Resp} (hr : Arrives ids σ x q r) :
    Hears (ids x.other) (.added ∈ ℓ x.other) q r := by
  have hother := (h x.other).begun
  rw [Side.other_other] at hother
  cases q with
  | receiveStatus stream =>
    cases r with
    | status info =>
      intro hremote hd
      obtain ⟨q', hsent, hq'⟩ := hr hremote
      cases q' with
      | sendStatus stream' info' => exact hother _ hsent hq'.1 (hq'.2 ▸ hd)
      | _ => exact hq'.elim
    | _ => trivial
  | receiveAuth stream =>
    cases r with
    | auth authPeer =>
      intro hremote
      obtain ⟨q', hsent, hq'⟩ := hr hremote
      cases q' with
      | sendAuth stream' authPeer' => exact hother _ hsent hq'.1
      | _ => exact hq'.elim
    | _ => trivial
  | _ => trivial

variable [DecidableEq ID]

/-- **One event.** -/
lemma step (h : Inv ids σ) (hz : ∀ x, ids x ≠ zero) (e : PairEvent ID) (he : e.Cond ids σ) :
    Inv ids (e.step env σ) := by
  obtain ⟨ℓ, hℓ⟩ := h
  cases e with
  | turn x i r =>
    obtain ⟨ℓ', hle, hx⟩ := (hℓ x).turn (i := i) (r := r) fun q hq => hears hℓ (he q hq)
    refine ⟨Function.update ℓ x ℓ', fun z => ?_⟩
    by_cases hzx : z = x
    · subst hzx
      rw [Function.update_self, Function.update_of_ne z.other_ne]
      exact hx
    · obtain rfl := Side.eq_other hzx
      rw [Side.other_other, Function.update_self, Function.update_of_ne x.other_ne]
      have hother := (hℓ x.other).turn_other x.other_ne i r
      rw [Side.other_other] at hother
      exact hother.mono fun ha => hle ha
  | post x i => exact ⟨ℓ, fun z => (hℓ z).post i⟩
  | call x l => exact ⟨ℓ, fun z => (hℓ z).start fun _ => Consent.safe_call (hz _) l⟩
  | restart x ks ks' =>
    exact ⟨ℓ, fun z => (hℓ z).reset fun hzx => hzx ▸ (hℓ z).inv.restart (hz _) env ks ks'⟩
  | change x s =>
    refine ⟨ℓ, fun z => (hℓ z).put fun hzx => ?_⟩
    subst hzx
    obtain ⟨⟨hk, hb⟩, ⟨hdk, hdb⟩, ⟨hi, ho⟩, hh⟩ := he
    have hinv := (hℓ z).inv
    exact ⟨hk ▸ hinv.conf, hdk ▸ hinv.disk, hi ▸ hinv.ingoing, ho ▸ hinv.outgoing,
      hb ▸ hdb ▸ hinv.blocked, hh ▸ hinv.history⟩

end Pair.Inv

/-- **Mutual consent**: two nodes that start as strangers, in every state of every run. -/
theorem mutual_consent [DecidableEq ID] (env : Env) {ids : Side → ID} {σ : Pair ID}
    (h : Strangers ids σ)
    (es : List (PairEvent ID)) (hes : Runs.Meets (PairEvent.step env) (PairEvent.Cond ids) σ es) :
    Runs.Holds (PairEvent.step env) (Agreed ids) σ es :=
  Runs.holds_of_meets (fun _ e hinv he => Pair.Inv.step hinv h.valid e he)
    (fun _ hinv => Pair.Inv.agreed hinv h.valid) es σ (Pair.Inv.start h) hes

section

open BootstrapPeer

def names : Side → BootstrapPeer
  | .a => ita1
  | .b => rus2

def twoFresh : Pair BootstrapPeer where
  state _ := freshNode
  tasks _ := []
  begun _ := []

lemma twoFresh_strangers : Strangers names twoFresh where
  valid x := by cases x <;> decide
  tasks _ := rfl
  begun _ := rfl
  conf x k kp hk := by simp [twoFresh, freshNode, BootstrapPeer.conf] at hk
  disk x k kp hk := by simp [twoFresh, freshNode, BootstrapPeer.conf] at hk
  ingoing _ := Finmap.notMem_empty
  outgoing _ := Finmap.notMem_empty
  history _ := rfl

/-- One node sends a friend request, which the other receives and accepts. -/
def acceptedRequest : List (PairEvent BootstrapPeer) :=
  .call .b (.sendFriendRequest ⟨ita1.text, "friend", ""⟩) :: List.replicate 8 (.turn .b 0 .ok) ++
  [.turn .b 1 .ok, .turn .b 1 .ok, .turn .b 1 .ok, .turn .b 1 (.stream 0), .post .b 1] ++
  .call .a (.authStream rus2 rus2_ne_zero 0) :: .turn .a 0 (.auth ⟨""⟩) ::
    List.replicate 4 (.turn .a 0 .ok) ++
  .call .a (.acceptFriend ⟨rus2.text, "friend", false, ""⟩) :: List.replicate 8 (.turn .a 1 .ok)

theorem acceptedRequest_mutual :
    Strangers names twoFresh ∧
      (((acceptedRequest.foldl (PairEvent.step sampleEnv) twoFresh).state .a).conf.knownPeers.lookup
        rus2.text).map KnownPeer.confirmed = some true ∧
      Runs.Holds (PairEvent.step sampleEnv) (Agreed names) twoFresh acceptedRequest :=
  ⟨twoFresh_strangers, by decide +kernel,
    mutual_consent sampleEnv twoFresh_strangers _ (by decide +kernel)⟩

end

end Awl
