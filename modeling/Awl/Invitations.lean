import Awl.Calls
import Awl.Threads

/-!
Whom a node sends auth requests to, and what lets it do so.

A request is noted among the outgoing ones before it is sent, and it is sent by the goroutine of
`AddPeer`, or again because it is still noted there. So a goroutine that has not seen the entry
of a peer, and does not add the peer, sends it nothing and makes no entry for it.
-/

namespace Awl

open Text PeerCodec Go AuthStatus

variable {ID : Type}

/-- The operation sends `id` an auth request. -/
def Invitation (id : ID) : Req ID → Prop
  | .sendAuth stream _ => stream.remote = id
  | _ => False

instance [DecidableEq ID] (id : ID) : (q : Req ID) → Decidable (Invitation id q)
  | .sendAuth stream _ => inferInstanceAs (Decidable (stream.remote = id))
  | .connectPeer _ | .newStream _ _ | .sendStatus _ _ | .receiveStatus _ | .receiveAuth _
  | .sendAuthResponse _ _ | .receiveAuthResponse _ => instDecidableFalse

/-- The update only adds to the history, and makes entries only for peers in `p`. -/
def Tame (p : ID → Prop) (upd : Node ID → Node ID) : Prop :=
  ∀ s, s.history <+: (upd s).history ∧
    ∀ id, ¬ p id → id ∈ (upd s).outgoingAuths → id ∈ s.outgoingAuths

/-- The goroutine sends requests only to peers in `p`, and makes entries only for these. -/
def Invites (p : ID → Prop) (k : Code (Node ID) (Req ID) Resp) : Prop :=
  k.All (Tame p) fun q => ∀ id, Invitation id q → p id

section

variable {p : ID → Prop}

lemma tame_of_eq {upd : Node ID → Node ID} (hh : ∀ s, s.history <+: (upd s).history)
    (ho : ∀ s, (upd s).outgoingAuths = s.outgoingAuths) : Tame p upd :=
  fun s => ⟨hh s, fun _ _ h => ho s ▸ h⟩

@[simp] lemma tame_id : Tame p (id : Node ID → Node ID) :=
  tame_of_eq (fun _ => List.prefix_rfl) fun _ => rfl

@[simp] lemma tame_upsertPeer (peer : KnownPeer) :
    Tame p (Node.upsertPeer peer : Node ID → Node ID) :=
  tame_of_eq (fun _ => List.prefix_rfl) fun _ => rfl

@[simp] lemma tame_upsertBlockedPeer (key name : String) :
    Tame p (Node.upsertBlockedPeer key name : Node ID → Node ID) :=
  tame_of_eq (fun _ => List.prefix_rfl) fun _ => rfl

@[simp] lemma tame_updatePeerLastSeen (key : String) :
    Tame p (Node.updatePeerLastSeen key : Node ID → Node ID) :=
  tame_of_eq (fun _ => List.prefix_rfl) fun _ => rfl

@[simp] lemma tame_setUsingPeerID (f : String → String) :
    Tame p (Node.setUsingPeerID f : Node ID → Node ID) :=
  tame_of_eq (fun _ => List.prefix_rfl) fun _ => rfl

@[simp] lemma tame_removePeer (key : String) :
    Tame p (Node.removePeer key : Node ID → Node ID) := by
  intro s
  unfold Node.removePeer
  split
  · exact ⟨List.prefix_append _ _, fun _ _ h => h⟩
  · exact ⟨List.prefix_rfl, fun _ _ h => h⟩

@[simp] lemma tame_removeBlockedPeer [PeerCodec ID] (peerID : ID) :
    Tame p (Node.removeBlockedPeer peerID) := by
  intro s
  unfold Node.removeBlockedPeer
  dsimp only
  split
  · exact ⟨List.prefix_append _ _, fun _ _ h => h⟩
  · exact ⟨List.prefix_append _ _, fun _ _ h => h⟩

@[simp] lemma tame_ingoing (f : GoMap ID AuthPeer → GoMap ID AuthPeer) :
    Tame p (fun s : Node ID => { s with ingoingAuths := f s.ingoingAuths }) :=
  tame_of_eq (fun _ => List.prefix_rfl) fun _ => rfl

variable [DecidableEq ID]

@[simp] lemma tame_eraseOutgoing (peerID : ID) :
    Tame p (fun s : Node ID => { s with outgoingAuths := s.outgoingAuths.erase peerID }) :=
  fun _ => ⟨List.prefix_rfl, fun _ _ h => (Finmap.mem_erase.mp h).2⟩

lemma tame_insertOutgoing {peerID : ID} (hp : p peerID) (req : AuthPeer) :
    Tame p (fun s : Node ID => { s with outgoingAuths := s.outgoingAuths.insert peerID req }) := by
  refine fun s => ⟨List.prefix_rfl, fun id hid h => ?_⟩
  rcases Finmap.mem_insert.mp h with rfl | h
  · exact absurd hp hid
  · exact h

end

/-! ### Status exchange -/

section

variable {p : ID → Prop} {env : Env} {k : Unit → Code (Node ID) (Req ID) Resp}

lemma invites_done : Invites p .done := trivial

lemma invites_act {upd : Node ID → Node ID} {next : Node ID → Code (Node ID) (Req ID) Resp}
    (hupd : Tame p upd) (h : ∀ s, Invites p (next s)) : Invites p (.act upd next) :=
  ⟨hupd, h⟩

lemma invites_read {next : Node ID → Code (Node ID) (Req ID) Resp}
    (h : ∀ s, Invites p (next s)) : Invites p (.act id next) :=
  ⟨tame_id, h⟩

/-- An operation that is not an auth request. -/
lemma invites_ask {q : Req ID} {next : Resp → Code (Node ID) (Req ID) Resp}
    (hq : ∀ id, ¬ Invitation id q) (h : ∀ r, Invites p (next r)) : Invites p (.ask q next) :=
  ⟨fun id hid => absurd hid (hq id), h⟩

/-- A record is written back. -/
lemma invites_write (hk : Invites p (k ())) (peer : KnownPeer) (f : String → String) :
    Invites p (.act (Node.upsertPeer peer) fun _ => .act (Node.setUsingPeerID f) fun _ => k ()) :=
  invites_act (tame_upsertPeer _) fun _ => invites_act (tame_setUsingPeerID _) fun _ => hk

lemma invites_processPeerStatusInfo (hk : Invites p (k ())) (peer : KnownPeer)
    (info : PeerStatusInfo) : Invites p (processPeerStatusInfo env peer info k) := by
  simp only [processPeerStatusInfo, bind_apply, read_apply, modify_apply, Go.ite_apply, pure_apply]
  refine invites_read fun s => ?_
  by_cases hd : info.declined = true
  · rw [if_pos hd]
    exact invites_write hk _ _
  · rw [if_neg hd]
    split
    · exact invites_read fun _ => invites_write hk _ _
    · exact invites_write hk _ _

lemma invites_createPeerInfo {k : PeerStatusInfo → Code (Node ID) (Req ID) Resp}
    (hk : ∀ info, Invites p (k info)) (peer : KnownPeer) (name : String) (declined : Bool) :
    Invites p (createPeerInfo peer name declined k) := by
  cases declined with
  | true => exact hk _
  | false => exact invites_read fun _ => hk _

variable [DecidableEq ID] [PeerCodec ID]

lemma invites_statusStreamHandler (stream : Stream ID) :
    Invites p (statusStreamHandler env stream).code := by
  refine invites_read fun s₁ => invites_read fun s₂ => ?_
  dsimp only
  rw [Go.ite_apply]
  split
  · exact invites_done
  · refine invites_ask (fun _ h => h) fun r => ?_
    cases r with
    | status info =>
      refine invites_act (tame_eraseOutgoing _) fun _ => invites_read fun _ => ?_
      refine invites_createPeerInfo (fun myInfo => ?_) _ _ _
      refine invites_ask (fun _ h => h) fun _ => ?_
      dsimp only
      rw [Go.ite_apply]
      split
      · exact invites_done
      · exact invites_read fun _ => invites_processPeerStatusInfo invites_done _ _
    | _ => exact invites_done

lemma invites_exchangeNewStatusInfo (hk : Invites p (k ())) (peerID : ID) (peer : KnownPeer) :
    Invites p (exchangeNewStatusInfo env peerID peer k) := by
  refine invites_act (tame_ingoing _) fun _ => invites_ask (fun _ h => h) fun r => ?_
  cases r with
  | ok =>
    refine invites_ask (fun _ h => h) fun r => ?_
    cases r with
    | stream sid =>
      refine invites_read fun _ => invites_read fun _ => ?_
      refine invites_createPeerInfo (fun myInfo => ?_) _ _ _
      refine invites_ask (fun _ h => h) fun r => ?_
      cases r with
      | ok =>
        refine invites_ask (fun _ h => h) fun r => ?_
        cases r with
        | status info =>
          dsimp only
          rw [Go.ite_apply]
          split
          · exact hk
          · exact invites_read fun _ => invites_processPeerStatusInfo hk _ _
        | _ => exact hk
      | _ => exact hk
    | _ => exact hk
  | _ => exact hk

lemma invites_blockPeer (hk : Invites p (k ())) (peerID : ID) (name : String) :
    Invites p (blockPeer env peerID name k) :=
  invites_act (tame_upsertBlockedPeer _ _) fun _ =>
    ⟨invites_exchangeNewStatusInfo (k := fun _ => .done) invites_done _ _, hk⟩

/-! ### Auth requests -/

lemma invites_sendAuthRequest (hk : Invites p (k ())) {peerID : ID} (hp : p peerID)
    (req : AuthPeer) : Invites p (sendAuthRequest peerID req k) := by
  refine invites_act (tame_insertOutgoing hp req) fun _ => invites_ask (fun _ h => h) fun r => ?_
  cases r with
  | ok =>
    refine invites_ask (fun _ h => h) fun r => ?_
    cases r with
    | stream sid =>
      refine ⟨fun id h => (show peerID = id from h) ▸ hp, fun r => ?_⟩
      cases r with
      | ok =>
        refine invites_ask (fun _ h => h) fun r => ?_
        cases r with
        | authResponse response =>
          obtain ⟨confirmed, declined⟩ := response
          cases declined with
          | false =>
            cases confirmed with
            | false => exact hk
            | true => exact invites_act (tame_eraseOutgoing _) fun _ => hk
          | true =>
            -- the refusal is noted in the record, if there still is one
            simp only [Bool.or_true, if_true, bind_apply, modify_apply, read_apply]
            refine invites_act (tame_eraseOutgoing _) fun _ => invites_read fun s => ?_
            cases s.conf.getPeer (string peerID) with
            | some kp => exact invites_act (tame_upsertPeer _) fun _ => hk
            | none => exact hk
        | _ => exact hk
      | _ => exact hk
    | _ => exact hk
  | _ => exact hk

lemma invites_introduce {peerID : ID} (confirmed : Bool) (hp : confirmed = false → p peerID) :
    Invites p (introduce env peerID confirmed).code := by
  have hexchange : Invites p (.act id fun s : Node ID =>
      exchangeNewStatusInfo env peerID ((s.conf.getPeer (string peerID)).getD {}) fun _ => .done) :=
    invites_read fun _ => invites_exchangeNewStatusInfo invites_done _ _
  cases confirmed with
  | true => exact hexchange
  | false => exact invites_read fun _ => invites_sendAuthRequest hexchange (hp rfl) _

lemma invites_addPeer {k : Except AddPeerError Unit → Code (Node ID) (Req ID) Resp}
    (hk : ∀ r, Invites p (k r)) {peerID : ID} {confirmed : Bool}
    (hp : confirmed = false → p peerID) (name peerAlias ipAddr : String) :
    Invites p (addPeer env peerID name peerAlias confirmed ipAddr k) := by
  simp only [addPeer, bind_apply, read_apply, pure_apply, Go.ite_apply]
  refine invites_read fun s => ?_
  split
  · exact hk _
  refine invites_read fun s => ?_
  split
  · exact hk _
  refine invites_read fun s => ?_
  cases chooseIP s.conf (string peerID) ipAddr with
  | error e => exact hk _
  | ok ip =>
    exact invites_read fun _ => invites_act (tame_removeBlockedPeer _) fun _ =>
      invites_act (tame_upsertPeer _) fun _ => ⟨invites_introduce confirmed hp, hk _⟩

lemma invites_authStreamHandler (stream : Stream ID) :
    Invites p (authStreamHandler env stream).code := by
  refine invites_ask (fun _ h => h) fun r => ?_
  cases r with
  | auth authPeer =>
    refine invites_read fun s₁ => invites_read fun s₂ => invites_read fun s₃ => ?_
    -- the answer, and the addition of a peer that is accepted at once
    have hrest : Invites p (.ask (.sendAuthResponse stream
        ⟨(s₂.conf.getPeer (string stream.remote)).isSome,
          (s₁.conf.getBlockedPeer (string stream.remote)).isSome⟩) fun _ =>
        (if !(s₂.conf.getPeer (string stream.remote)).isSome &&
            !(s₁.conf.getBlockedPeer (string stream.remote)).isSome &&
            s₃.conf.p2pNode.autoAcceptAuthRequests then do
          let peerAlias ← read fun s => (Config.genUniqPeerAlias s.conf.aliases authPeer.name "").1
          let _ ← addPeer env stream.remote authPeer.name peerAlias true ""
        else pure () : Prog ID Unit) fun _ => .done) := by
      refine invites_ask (fun _ h => h) fun _ => ?_
      rw [Go.ite_apply]
      split
      · exact invites_read fun _ => invites_addPeer (fun _ => invites_done) (by simp) _ _ _
      · exact invites_done
    dsimp only
    rw [Go.ite_apply]
    split
    · exact invites_act (tame_ingoing _) fun _ => hrest
    · exact hrest
  | _ => exact invites_done

end

end Awl
