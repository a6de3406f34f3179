import Awl.Addresses
import Awl.ConsentCalls

/-!
A node and its own ID.

The user is told that it cannot add itself when the text of a request is the ID of the node. A
peer is stored under the text that its decoded ID has, and one ID is decoded from several
texts.
-/

namespace Awl

open Text PeerCodec Go AuthStatus

variable {ID : Type} [PeerCodec ID]

/-- The calls with which peers are added: the requests of the user, and the auth requests that
other peers send. -/
inductive FriendCall (me : ID)
  | sendFriendRequest (req : FriendRequest)
  | acceptFriend (req : FriendRequestReply)
  | authStream (remote : ID) (valid : remote ≠ zero) (other : remote ≠ me) (sid : ℕ)

namespace FriendCall

variable {me : ID}

def call : FriendCall me → Call ID
  | sendFriendRequest req => .sendFriendRequest req
  | acceptFriend req => .acceptFriend req
  | authStream remote valid _ sid => .authStream remote valid sid

def code [DecidableEq ID] (env : Env) (l : FriendCall me) : Code (Node ID) (Req ID) Resp :=
  l.call.code env

end FriendCall

/-- The request names the node itself in another text than the one it is known by, and passes
all other checks. -/
structure Disguised (env : Env) (s : Node ID) (me : ID) (req : FriendRequest) : Prop where
  valid : (req.peerID ≠ "" && Api.validText req.peerAlias
    && Api.validOptionalIP env req.ipAddr) = true
  decodes : decode req.peerID = some me
  otherText : req.peerID ≠ string me
  uniq : s.conf.isUniqPeerAlias "" (trimSpace req.peerAlias) = true
  ip : ∃ ipAddr, chooseIP s.conf (string me) req.ipAddr = .ok ipAddr

/-- When a call does not make the node its own peer. -/
def FriendCall.KeepsAlone (env : Env) {me : ID} : FriendCall me → Node ID → Prop
  | .sendFriendRequest req, s => ¬ Disguised env s me req
  | .acceptFriend _, _ => True
  | .authStream _ _ _ _, _ => True

/-- A node that runs under the ID `me` and has no record of itself and no request from itself. -/
structure Alone (me : ID) (s : Node ID) : Prop where
  self : s.conf.p2pNode.peerID = string me
  known : ∀ ⦃k kp⦄, s.conf.getPeer k = some kp → k ≠ string me ∧ kp.peerID ≠ string me
  ingoing : me ∉ s.ingoingAuths

namespace Alone

variable {me : ID} {s s' : Node ID}

lemma notMem (h : Alone me s) : string me ∉ s.conf.knownPeers := by
  intro hmem
  obtain ⟨kp, hk⟩ := Finmap.mem_iff.mp hmem
  exact (h.known hk).1 rfl

lemma getPeer_self (h : Alone me s) : s.conf.getPeer (string me) = none := by
  rcases hk : s.conf.getPeer (string me) with _ | kp
  · rfl
  · exact absurd rfl (h.known hk).1

lemma frame (h : Alone me s) (hself : s'.conf.p2pNode = s.conf.p2pNode)
    (hk : s'.conf.knownPeers = s.conf.knownPeers)
    (hin : me ∈ s'.ingoingAuths → me ∈ s.ingoingAuths) : Alone me s' where
  self := by rw [hself, h.self]
  known := fun _ _ hl => h.known (by rwa [Config.getPeer, hk] at hl)
  ingoing := fun hmem => h.ingoing (hin hmem)

lemma upsertPeer (h : Alone me s) {peer : KnownPeer} (hp : peer.peerID ≠ string me) :
    Alone me (s.upsertPeer peer) where
  self := h.self
  known := by
    intro k kp hl
    change (s.conf.knownPeers.insert peer.peerID peer).lookup k = some kp at hl
    rw [GoMap.lookup_insert_ite] at hl
    split_ifs at hl with he
    · cases hl
      exact ⟨he ▸ hp, hp⟩
    · exact h.known hl
  ingoing := h.ingoing

lemma removeBlockedPeer (h : Alone me s) (id : ID) : Alone me (s.removeBlockedPeer id) := by
  unfold Node.removeBlockedPeer
  dsimp only
  split_ifs
  · exact h.frame rfl rfl fun hmem => hmem
  · exact h.frame rfl rfl fun hmem => hmem

/-- The record that is written back for a peer, which may be empty. -/
lemma getD_peerID (h : Alone me s) (hme : me ≠ zero) (key : String) :
    ((s.conf.getPeer key).getD {}).peerID ≠ string me := by
  rcases hk : s.conf.getPeer key with _ | kp
  · exact (string_ne_empty hme).symm
  · exact (h.known hk).2

/-- A friend request that is found is from somebody else. -/
lemma ne_of_asked [DecidableEq ID] (h : Alone me s) {key : String} {id : ID}
    (hd : decode key = some id) {auth : AuthPeer}
    (ha : s.getIngoingAuthRequests.lookup key = some auth) : id ≠ me :=
  fun he => h.ingoing (he ▸ Consent.mem_ingoingAuths hd ha)

end Alone

/-! ### Goroutines -/

section

open Code

variable [DecidableEq ID] {env : Env} {me : ID} {k : Unit → Code (Node ID) (Req ID) Resp}

omit [DecidableEq ID] in
lemma stays_processPeerStatusInfo (hk : (k ()).Stays (Alone me)) {kp : KnownPeer}
    (hkp : kp.peerID ≠ string me) (info : PeerStatusInfo) :
    (processPeerStatusInfo env kp info k).Stays (Alone me) := by
  have husing : ∀ f : String → String, ∀ s, Alone me s → Alone me (s.setUsingPeerID f) :=
    fun f s hs => hs.frame rfl rfl fun hmem => hmem
  simp only [processPeerStatusInfo, bind_apply, read_apply, Go.ite_apply, modify_apply, pure_apply]
  refine stays_read fun s _ => ?_
  split
  · exact stays_act (fun s hs => hs.upsertPeer hkp) fun _ => stays_act (husing _) fun _ => hk
  split
  · exact stays_read fun s _ => stays_act (fun s hs => hs.upsertPeer hkp) fun _ =>
      stays_act (husing _) fun _ => hk
  · exact stays_act (fun s hs => hs.upsertPeer hkp) fun _ => stays_act (husing _) fun _ => hk

omit [DecidableEq ID] in
lemma stays_createPeerInfo {k : PeerStatusInfo → Code (Node ID) (Req ID) Resp}
    (hk : ∀ info, (k info).Stays (Alone me)) (peer : KnownPeer) (name : String)
    (declined : Bool) : (createPeerInfo peer name declined k).Stays (Alone me) := by
  cases declined with
  | true => exact hk _
  | false => exact stays_read fun _ _ => hk _

lemma stays_exchangeNewStatusInfo (hme : me ≠ zero) (hk : (k ()).Stays (Alone me)) (id : ID)
    (kp : KnownPeer) : (exchangeNewStatusInfo env id kp k).Stays (Alone me) := by
  have herase : ∀ s : Node ID, Alone me s →
      Alone me { s with ingoingAuths := s.ingoingAuths.erase id } :=
    fun s hs => hs.frame rfl rfl fun hmem => (Finmap.mem_erase.mp hmem).2
  refine stays_act herase fun _ r => ?_
  cases r with
  | ok =>
    intro r
    cases r with
    | stream sid =>
      refine stays_read fun s _ => stays_read fun s' _ =>
        stays_createPeerInfo (fun info => ?_) _ _ _
      intro r
      cases r with
      | ok =>
        intro r
        cases r with
        | status opposite =>
          simp only [Go.ite_apply, bind_apply, read_apply, pure_apply]
          split
          · exact hk
          · exact stays_read fun s hs =>
              stays_processPeerStatusInfo hk (hs.getD_peerID hme _) opposite
        | _ => exact hk
      | _ => exact hk
    | _ => exact hk
  | _ => exact hk

lemma stays_sendAuthRequest (hk : (k ()).Stays (Alone me)) (id : ID) (req : AuthPeer) :
    (sendAuthRequest id req k).Stays (Alone me) := by
  have hauths : ∀ (f : GoMap ID AuthPeer → GoMap ID AuthPeer) (s : Node ID), Alone me s →
      Alone me { s with outgoingAuths := f s.outgoingAuths } :=
    fun f s hs => hs.frame rfl rfl fun hmem => hmem
  refine stays_act (hauths (·.insert id req)) fun _ r => ?_
  cases r with
  | ok =>
    intro r
    cases r with
    | stream sid =>
      intro r
      cases r with
      | ok =>
        intro r
        cases r with
        | authResponse response =>
          obtain ⟨confirmed, declined⟩ := response
          cases confirmed <;> cases declined
          case false.false => exact hk
          case true.false => exact stays_act (hauths (·.erase id)) fun _ => hk
          -- declined: the record of the peer is found again and marked
          all_goals
            refine stays_act (hauths (·.erase id)) fun _ => stays_read fun s hs => ?_
            dsimp only
            rcases hkp : s.conf.getPeer (string id) with _ | kp
            · exact hk
            · exact stays_act (fun s hs' => hs'.upsertPeer
                (show ({ kp with declined := true } : KnownPeer).peerID ≠ _ from (hs.known hkp).2))
                fun _ => hk
        | _ => exact hk
      | _ => exact hk
    | _ => exact hk
  | _ => exact hk

lemma stays_introduce (hme : me ≠ zero) (id : ID) (confirmed : Bool) :
    (introduce env id confirmed).code.Stays (Alone me) := by
  have hexchange : Code.Stays (Alone me) ((do
      let knownPeer ← read fun s => s.conf.getPeer (string id)
      exchangeNewStatusInfo env id (knownPeer.getD {}) : Prog ID Unit) fun _ => .done) :=
    stays_read fun s _ => stays_exchangeNewStatusInfo hme stays_done id _
  cases confirmed with
  | true => exact hexchange
  | false => exact stays_read fun s _ => stays_sendAuthRequest hexchange id _

/-- Another peer is added. -/
lemma stays_addPeer {k : Except AddPeerError Unit → Code (Node ID) (Req ID) Resp}
    (hk : ∀ r, (k r).Stays (Alone me)) (hme : me ≠ zero) {id : ID} (hid : id ≠ me)
    (name peerAlias : String) (confirmed : Bool) (ipAddr : String) :
    (addPeer env id name peerAlias confirmed ipAddr k).Stays (Alone me) := by
  have hne : string id ≠ string me := fun he => hid (string_inj he)
  simp only [addPeer, bind_apply, read_apply, Go.ite_apply, pure_apply]
  refine stays_read fun s _ => ?_
  split
  · exact hk _
  refine stays_read fun s _ => ?_
  split
  · exact hk _
  refine stays_read fun s _ => ?_
  cases chooseIP s.conf (string id) ipAddr with
  | error e => exact hk _
  | ok ip =>
    refine stays_read fun s' _ => stays_act (fun s hs => hs.removeBlockedPeer id) fun _ =>
      stays_act (fun s hs => hs.upsertPeer ?_) fun _ => ⟨stays_introduce hme id confirmed, hk _⟩
    exact hne

/-! ### Calls -/

lemma stays_authStreamHandler (hme : me ≠ zero) {remote : ID} (hremote : remote ≠ me) (sid : ℕ) :
    (authStreamHandler env ⟨remote, sid, true, none⟩).code.Stays (Alone me) := by
  intro r
  cases r with
  | auth authPeer =>
    have hinsert : ∀ s : Node ID, Alone me s →
        Alone me { s with ingoingAuths := s.ingoingAuths.insert remote authPeer } :=
      fun s hs => hs.frame rfl rfl fun hmem =>
        (Finmap.mem_insert.mp hmem).resolve_left hremote.symm
    refine stays_read fun s₁ _ => stays_read fun s₂ _ => stays_read fun s₃ _ => ?_
    simp only [bind_apply, Go.ite_apply, modify_apply, block_apply, read_apply, pure_apply]
    -- after the answer the peer is added if auto-accept says so
    have hadd : ∀ (c : Prop) [Decidable c], Code.Stays (Alone me)
        (if c then .act id fun s => addPeer env remote authPeer.name
            (Config.genUniqPeerAlias s.conf.aliases authPeer.name "").1 true "" fun _ => .done
          else .done) := by
      intro c _
      split
      · exact stays_read fun s _ => stays_addPeer (fun _ => stays_done) hme hremote _ _ _ _
      · trivial
    split
    · exact stays_act hinsert fun _ _ => hadd _
    · exact fun _ => hadd _
  | _ => trivial

/-- A friend request is accepted only from somebody else. -/
lemma stays_acceptFriend (hme : me ≠ zero) (req : FriendRequestReply) :
    (Api.acceptFriend env req : Prog ID Answer).code.Stays (Alone me) := by
  simp only [Go.code, Api.acceptFriend, Go.ite_apply, pure_apply]
  split
  · trivial
  rcases hd : (decode req.peerID : Option ID) with _ | id
  · trivial
  refine stays_read fun s₁ _ => ?_
  simp only [Go.ite_apply, pure_apply]
  split
  · trivial
  refine stays_read fun s hs => ?_
  dsimp only
  rcases ha : s.getIngoingAuthRequests.lookup req.peerID with _ | auth
  · trivial
  simp only [Go.ite_apply]
  split
  · refine stays_act (fun s hs => hs.frame rfl rfl fun hmem => hmem) fun _ => ⟨?_, trivial⟩
    exact stays_exchangeNewStatusInfo (k := fun _ => .done) hme stays_done id {}
  · exact stays_addPeer (fun _ => stays_done) hme (hs.ne_of_asked hd ha) _ _ _ _

/-- **A friend request** makes the node its own peer exactly if it is disguised. -/
lemma seg_sendFriendRequest (hme : me ≠ zero) {s : Node ID} (hs : Alone me s)
    (req : FriendRequest) :
    (Api.sendFriendRequest env req : Prog ID Answer).code.Seg (Alone me) (fun _ _ _ => True) s
      (¬ Disguised env s me req) := by
  have hstop : ¬ Disguised env s me req → (Alone me s ↔ ¬ Disguised env s me req) :=
    fun hno => iff_of_true hs hno
  simp only [Api.sendFriendRequest, Go.code]
  rw [Go.ite_apply]
  split
  · rename_i hv
    exact hstop fun hd => by rw [hd.valid] at hv; cases hv
  rename_i hv
  rcases hdec : (decode req.peerID : Option ID) with _ | id
  · exact hstop fun hd => Option.some_ne_none me (hd.decodes.symm.trans hdec)
  simp only [bind_apply, read_apply, Code.Seg, id_eq, Go.ite_apply]
  split
  · rename_i hself
    exact hstop fun hd => hd.otherText (hself.trans hs.self)
  rename_i hself
  by_cases hid : id = me
  · subst hid
    -- the own ID is not known, so the other two checks decide
    have hnone := hs.getPeer_self
    simp only [map_apply, addPeer, bind_apply, read_apply, Go.ite_apply, Code.Seg, id_eq, hnone,
      Option.isSome_none, Bool.false_eq_true, if_false, pure_apply]
    split
    · rename_i huniq
      exact hstop fun hd => by rw [hd.uniq] at huniq; cases huniq
    rename_i huniq
    simp only [Code.Seg, id_eq]
    rcases hip : chooseIP s.conf (string id) req.ipAddr with e | ipAddr
    · refine hstop fun hd => ?_
      obtain ⟨ipAddr, hok⟩ := hd.ip
      rw [hip] at hok
      cases hok
    · refine ⟨(stays_introduce hme id false).ready, iff_of_false (fun halone => ?_) ?_⟩
      · exact halone.notMem (Finmap.mem_insert.mpr (Or.inl rfl))
      · exact fun hno => hno ⟨by simpa using hv, hdec, fun he => hself (he.trans hs.self.symm),
          by simpa using huniq, ipAddr, hip⟩
  · refine Code.Seg.congr ?_ (iff_of_true trivial fun hd =>
      hid (Option.some.inj (hdec.symm.trans hd.decodes)))
    exact (stays_addPeer (fun _ => stays_done) hme hid _ _ _ _).ready s hs

lemma FriendCall.seg (hme : me ≠ zero) (l : FriendCall me) (s : Node ID) (hs : Alone me s) :
    (l.code env).Seg (Alone me) (fun _ _ _ => True) s (l.KeepsAlone env s) := by
  cases l with
  | sendFriendRequest req => exact seg_sendFriendRequest hme hs req
  | acceptFriend req => exact (stays_acceptFriend hme req).ready s hs
  | authStream remote valid other sid =>
    exact (stays_authStreamHandler hme other sid).ready s hs

/-- A disguised request puts the own ID among the known peers. -/
lemma Disguised.mem {req : FriendRequest} {s : Node ID} (h : Disguised env s me req)
    (hs : Alone me s) :
    string me ∈ ((Api.sendFriendRequest env req : Prog ID Answer).code.runSeg
      s).1.conf.knownPeers := by
  obtain ⟨ipAddr, hip⟩ := h.ip
  have hself : req.peerID ≠ s.conf.p2pNode.peerID := fun he => h.otherText (he.trans hs.self)
  have hvalid := h.valid
  simp only [Api.sendFriendRequest, Go.code, Go.ite_apply, hvalid, Bool.not_true,
    Bool.false_eq_true, if_false, h.decodes, bind_apply, read_apply, Code.runSeg, hself, id_eq,
    map_apply, addPeer, hs.getPeer_self, Option.isSome_none, h.uniq, hip, modify_apply,
    spawn_apply, pure_apply]
  exact Finmap.mem_insert.mpr (Or.inl rfl)

end

/-- **A node never becomes its own peer** exactly as long as no friend request that passes the
other checks names the node itself in another text. -/
theorem never_own_peer_iff [DecidableEq ID] {env : Env} {me : ID} (hme : me ≠ zero) {s : Node ID}
    (hs : Alone me s) (es : List (Event (FriendCall me) Resp)) :
    Runs.Holds (Machine.step (FriendCall.code env))
        (fun m => string me ∉ m.state.conf.knownPeers) ⟨s, []⟩ es ↔
      Runs.Meets (Machine.step (FriendCall.code env))
        (Machine.Cond (FriendCall.KeepsAlone env) fun _ _ _ => True) ⟨s, []⟩ es := by
  have hcode : ∀ (l : FriendCall me) (s : Node ID), Alone me s →
      (l.code env).Seg (Alone me) (fun _ _ _ => True) s (l.KeepsAlone env s) := FriendCall.seg hme
  -- from a state of the invariant the node is not its own peer after exactly the events that
  -- lead back to the invariant
  have hstep : ∀ (m : Machine (Node ID) (Req ID) Resp) (e : Event (FriendCall me) Resp),
      Alone me m.state → (∀ c ∈ m.pool, c.Ready (Alone me) fun _ _ _ => True) →
      (string me ∉ (m.step (FriendCall.code env) e).state.conf.knownPeers ↔
        m.Cond (FriendCall.KeepsAlone env) (fun _ _ _ => True) e) := by
    intro m e hm hpool
    constructor
    · intro hnot
      cases e with
      | call l =>
        cases l with
        | sendFriendRequest req => exact fun hd => hnot (hd.mem hm)
        | acceptFriend req => trivial
        | authStream remote valid other sid => trivial
      | resume i r =>
        rw [Machine.Cond]
        split
        · trivial
        · trivial
    · intro hc
      exact ((Machine.step_spec hcode hm hpool e).1.mpr hc).notMem
  refine Runs.holds_iff_meets_of_kept
    (I := fun m => Alone me m.state ∧ ∀ c ∈ m.pool, c.Ready (Alone me) fun _ _ _ => True)
    (fun m e hI _ hnot => ?_) (fun m e hI _ => hstep m e hI.1 hI.2) es _ ⟨hs, by simp⟩ hs.notMem
  obtain ⟨hP, hpool⟩ := Machine.step_spec hcode hI.1 hI.2 e
  exact ⟨hP.mpr ((hstep m e hI.1 hI.2).mp hnot), hpool⟩

section

open BootstrapPeer

/-- A node that runs under one of the IDs. -/
def rus2Node : Node BootstrapPeer :=
  { freshNode with conf := { freshNode.conf with p2pNode := { peerID := rus2.text } } }

lemma rus2Node_alone : Alone rus2 rus2Node where
  self := rfl
  known := by
    intro k kp hl
    simp [rus2Node, freshNode, BootstrapPeer.conf, Config.getPeer] at hl
  ingoing := Finmap.notMem_empty

/-- The user adds a peer whose ID is sent as a CID. -/
def addCid (id : BootstrapPeer) : Event (FriendCall rus2) Resp :=
  .call (.sendFriendRequest { peerID := id.cidText, peerAlias := "myself" })

theorem addCid_own_peer :
    rus2 ≠ zero ∧ Alone rus2 rus2Node ∧
      ¬ Runs.Holds (Machine.step (FriendCall.code sampleEnv))
        (fun m => string rus2 ∉ m.state.conf.knownPeers) ⟨rus2Node, []⟩ [addCid rus2] := by
  refine ⟨by decide, rus2Node_alone, fun h => ?_⟩
  have hmem : (([addCid rus2].foldl (Machine.step (FriendCall.code sampleEnv))
      ⟨rus2Node, []⟩).state.conf.getPeer rus2.text).isSome = true := by decide +kernel
  exact h.last (Finmap.lookup_isSome.mp hmem)

/-- Another peer is added in that way, and an auth request is received and accepted. -/
theorem addCid_other_peer :
    Runs.Holds (Machine.step (FriendCall.code sampleEnv))
      (fun m => string rus2 ∉ m.state.conf.knownPeers) ⟨rus2Node, []⟩
      [addCid ita1, .call (.authStream cze1 (by decide) (by decide) 0),
        .resume 2 (.auth ⟨"cze1"⟩),
        .call (.acceptFriend { peerID := cze1.text, peerAlias := "friend" })] := by
  refine (never_own_peer_iff (by decide) rus2Node_alone _).mpr ⟨fun hd => ?_, trivial, ?_, trivial,
    trivial⟩
  · exact absurd hd.decodes (by decide)
  · rw [Machine.Cond]
    split
    · trivial
    · trivial

end

end Awl
