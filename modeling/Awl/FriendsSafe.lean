import Awl.FriendsCode

/-!
The goroutines of a network of two keep to its contract.
-/

namespace Awl

open Text PeerCodec Go AuthStatus Contract Goal

variable {ID : Type} [PeerCodec ID] {y : ID} {env : Env} {ℓ : Prop}

namespace Friends

/-- A critical section that leaves the known and the blocked peers alone. -/
lemma safe_quiet {upd : Node ID → Node ID} {next : Node ID → Code (Node ID) (Req ID) Resp}
    (hk : ∀ s, (upd s).conf.knownPeers = s.conf.knownPeers)
    (hb : ∀ s, (upd s).conf.blockedPeers = s.conf.blockedPeers)
    (h : ∀ s, (friendly y).Safe (next s) ℓ ()) : (friendly y).Safe (.act upd next) ℓ () :=
  safe_act (fun _ _ _ _ s _ => Or.inl (Calm.of_eq (hk s)))
    (fun _ _ _ _ s hs => ⟨hs.1.of_eq (hk s) (hb s), fun hℓ => by
      unfold Knows
      rw [hk s]
      exact hs.2 hℓ⟩) h

/-- A look at the record of `y`, after which it may be known that there is one. -/
lemma safe_look {next : Node ID → Code (Node ID) (Req ID) Resp}
    (hknown : ∀ s kp, Friendly y s → s.conf.knownPeers.lookup (string y) = some kp →
      (friendly y).Safe (next s) True ())
    (hnot : ∀ s, Friendly y s → s.conf.knownPeers.lookup (string y) = none →
      (friendly y).Safe (next s) ℓ ()) :
    (friendly y).Safe (.act id next) ℓ () := by
  intro ℓ' hℓ _ _ s hs
  refine ⟨Or.inl (Calm.refl y s), ?_⟩
  rcases hk : s.conf.knownPeers.lookup (string y) with _ | kp
  · exact ⟨ℓ', le_refl ℓ', hs, (hnot s hs.1 hk).mono hℓ (le_refl _)⟩
  · exact ⟨True, fun _ => trivial, ⟨hs.1, fun _ => Finmap.mem_of_lookup_eq_some hk⟩,
      hknown s kp hs.1 hk⟩

/-- An operation that may be begun at any time, and whose answer says nothing. -/
lemma safe_block {q : Req ID} {next : Resp → Code (Node ID) (Req ID) Resp}
    (hq : (friendly y).owed ℓ () q) (h : ∀ r, (friendly y).Safe (next r) ℓ ()) :
    (friendly y).Safe (.ask q next) ℓ () :=
  safe_ask hq fun _ _ r _ => h r

lemma safe_done : (friendly y).Safe (.done : Code (Node ID) (Req ID) Resp) ℓ () := trivial

section

variable {k : Unit → Code (Node ID) (Req ID) Resp}

/-! ### Status exchange -/

/-- A confirmed record of the known `y` is written back. -/
lemma safe_write (hk : (friendly y).Safe (k ()) ℓ ()) (hℓ : ℓ) {peer : KnownPeer}
    (hid : peer.peerID = string y) (hc : peer.confirmed = true) (hd : peer.declined = false)
    (f : String → String) :
    (friendly y).Safe (.act (Node.upsertPeer peer) fun _ => .act (Node.setUsingPeerID f) fun _ =>
      k ()) ℓ () := by
  refine safe_act (fun ℓ' hℓ' _ _ s hs => Or.inl ?_) (fun ℓ' hℓ' _ _ s hs => ?_) fun _ =>
    safe_quiet (fun _ => rfl) (fun _ => rfl) fun _ => hk
  · exact Calm.upsertPeer hid (hs.2 (hℓ' hℓ)) fun h => absurd (h.symm.trans hc) (by simp)
  · exact ⟨hs.1.upsertPeer hid hd, fun _ => knows_upsertPeer hid⟩

lemma safe_process (hk : (friendly y).Safe (k ()) ℓ ()) (hℓ : ℓ) {peer : KnownPeer}
    (hid : peer.peerID = string y) {info : PeerStatusInfo} (hd : info.declined = false) :
    (friendly y).Safe (processPeerStatusInfo env peer info k) ℓ () := by
  simp only [processPeerStatusInfo, bind_apply, read_apply, modify_apply, pure_apply,
    Go.ite_apply, hd, Bool.false_eq_true, if_false]
  refine safe_read fun ℓ₁ hℓ₁ _ _ s _ => ?_
  have hk := hk.mono hℓ₁ (le_refl _)
  split
  · refine safe_read fun ℓ₂ hℓ₂ _ _ _ _ =>
      safe_write (hk.mono hℓ₂ (le_refl _)) (hℓ₂ (hℓ₁ hℓ)) ?_ rfl rfl _
    exact hid
  · refine safe_write hk (hℓ₁ hℓ) ?_ rfl rfl _
    exact hid

lemma safe_finish (hk : (friendly y).Safe (k ()) ℓ ()) (hℓ : ℓ) {info : PeerStatusInfo}
    (hd : info.declined = false) :
    (friendly y).Safe (.act id fun s => processPeerStatusInfo env
      ((s.conf.getPeer (string y)).getD {}) info k) ℓ () := by
  refine safe_read fun ℓ₁ hℓ₁ _ _ s hs => ?_
  obtain ⟨kp, hkp⟩ := Finmap.mem_iff.mp (hs.2 (hℓ₁ hℓ))
  rw [Config.getPeer, hkp]
  exact safe_process (hk.mono hℓ₁ (le_refl _)) (hℓ₁ hℓ) (hs.1.records _ kp hkp).2.1 hd

variable [DecidableEq ID]

lemma safe_exchange (hk : (friendly y).Safe (k ()) ℓ ()) (hℓ : ℓ) (peer : KnownPeer) :
    (friendly y).Safe (exchangeNewStatusInfo env y peer k) ℓ () := by
  refine safe_quiet (fun _ => rfl) (fun _ => rfl) fun _ => safe_block trivial fun r => ?_
  cases r with
  | ok =>
    refine safe_block trivial fun r => ?_
    cases r with
    | stream sid =>
      refine safe_read fun ℓ₁ hℓ₁ _ _ s hs => safe_read fun ℓ₂ hℓ₂ _ _ _ _ => ?_
      simp only [hs.1.not_blocked, createPeerInfo, Bool.false_eq_true, if_false]
      refine safe_read fun ℓ₃ hℓ₃ _ _ _ _ => safe_block rfl fun r => ?_
      have hk := hk.mono ((hℓ₁.trans hℓ₂).trans hℓ₃) (le_refl _)
      cases r with
      | ok =>
        refine safe_ask trivial fun _ _ r hr => ?_
        cases r with
        | status opposite => exact safe_finish hk (hℓ₃ (hℓ₂ (hℓ₁ hℓ))) hr
        | _ => exact hk
      | _ => exact hk
    | _ => exact hk
  | _ => exact hk

lemma safe_statusStreamHandler (sid : ℕ) :
    (friendly y).Safe (statusStreamHandler env ⟨y, sid, true, none⟩).code ℓ () := by
  refine safe_look (fun s kp _ hkp => ?_) fun s _ hnone => ?_
  · refine safe_read fun ℓ₁ hℓ₁ _ _ s' hs' => ?_
    have hknown : s.conf.getPeer (string y) = some kp := hkp
    simp only [hknown, hs'.1.not_blocked, createPeerInfo, Option.isNone_some, Bool.false_and,
      Bool.false_eq_true, if_false]
    refine safe_ask trivial fun _ _ r hr => ?_
    cases r with
    | status opposite =>
      refine safe_quiet (fun _ => rfl) (fun _ => rfl) fun _ => safe_read fun ℓ₂ hℓ₂ _ _ _ _ =>
        safe_read fun ℓ₃ hℓ₃ _ _ _ _ => safe_block rfl fun _ => ?_
      exact safe_finish (k := fun _ => .done) safe_done (hℓ₃ (hℓ₂ (hℓ₁ trivial))) hr
    | _ => exact safe_done
  · refine safe_read fun _ _ _ _ s' hs' => ?_
    have hunknown : s.conf.getPeer (string y) = none := hnone
    simp only [hunknown, hs'.1.not_blocked, Option.isNone_none, Bool.not_false, Bool.true_and,
      if_true]
    exact safe_done

/-! ### Auth requests -/

lemma safe_sendAuthRequest (hk : (friendly y).Safe (k ()) ℓ ()) (req : AuthPeer) :
    (friendly y).Safe (sendAuthRequest y req k) ℓ () := by
  refine safe_quiet (fun _ => rfl) (fun _ => rfl) fun _ => safe_block trivial fun r => ?_
  cases r with
  | ok =>
    refine safe_block trivial fun r => ?_
    cases r with
    | stream sid =>
      refine safe_block trivial fun r => ?_
      cases r with
      | ok =>
        refine safe_ask trivial fun _ _ r hr => ?_
        cases r with
        | authResponse response =>
          obtain ⟨confirmed, declined⟩ := response
          replace hr : declined = false := hr
          subst hr
          cases confirmed with
          | false => exact hk
          | true => exact safe_quiet (fun _ => rfl) (fun _ => rfl) fun _ => hk
        | _ => exact hk
      | _ => exact hk
    | _ => exact hk
  | _ => exact hk

lemma safe_introduce (hℓ : ℓ) (confirmed : Bool) :
    (friendly y).Safe (introduce env y confirmed).code ℓ () := by
  have hexchange : (friendly y).Safe (.act id fun s => exchangeNewStatusInfo env y
      ((s.conf.getPeer (string y)).getD {}) fun _ => .done) ℓ () :=
    safe_read fun ℓ₁ hℓ₁ _ _ _ _ => safe_exchange (k := fun _ => .done) safe_done (hℓ₁ hℓ) _
  cases confirmed with
  | true => exact hexchange
  | false =>
    exact safe_read fun ℓ₁ hℓ₁ _ _ _ _ =>
      safe_sendAuthRequest (hexchange.mono hℓ₁ (le_refl _)) _

/-- The peer is learned of, and a status stream to it is opened. -/
lemma safe_addPeer {k : Except AddPeerError Unit → Code (Node ID) (Req ID) Resp}
    (hk : ∀ r, (friendly y).Safe (k r) ℓ ()) (name peerAlias ipAddr : String)
    (confirmed : Bool) :
    (friendly y).Safe (addPeer env y name peerAlias confirmed ipAddr k) ℓ () := by
  simp only [addPeer, bind_apply, read_apply, pure_apply, Go.ite_apply]
  refine safe_read fun ℓ₁ hℓ₁ _ _ _ _ => ?_
  have hk := fun r => (hk r).mono hℓ₁ (le_refl _)
  split
  · exact hk _
  refine safe_read fun ℓ₂ hℓ₂ _ _ _ _ => ?_
  have hk := fun r => (hk r).mono hℓ₂ (le_refl _)
  split
  · exact hk _
  refine safe_read fun ℓ₃ hℓ₃ _ _ s₃ _ => ?_
  have hk := fun r => (hk r).mono hℓ₃ (le_refl _)
  cases chooseIP s₃.conf (string y) ipAddr with
  | error e => exact hk _
  | ok ip =>
    refine safe_read fun ℓ₄ hℓ₄ _ _ _ _ => ?_
    have hk := fun r => (hk r).mono hℓ₄ (le_refl _)
    intro ℓ₅ hℓ₅ _ _ s₅ hs₅
    have hconf := hs₅.1.removeBlockedPeer y
    refine ⟨Or.inl (Calm.of_eq (by rw [hconf])), ℓ₅, le_refl ℓ₅,
      ⟨hs₅.1.of_eq (by rw [hconf]) (by rw [hconf]), fun h => ?_⟩, ?_⟩
    · unfold Knows
      rw [hconf]
      exact hs₅.2 h
    · intro ℓ₆ hℓ₆ _ _ s₆ hs₆
      refine ⟨Or.inr (Or.inl ⟨trivial, opening_introduce confirmed⟩), True, fun _ => trivial,
        ⟨hs₆.1.upsertPeer rfl rfl, fun _ => knows_upsertPeer rfl⟩,
        safe_introduce trivial confirmed, ?_⟩
      exact (hk _).mono (fun _ => trivial) (le_refl _)

lemma safe_authStreamHandler (sid : ℕ) :
    (friendly y).Safe (authStreamHandler env ⟨y, sid, true, none⟩).code ℓ () := by
  refine safe_block trivial fun r => ?_
  cases r with
  | auth authPeer =>
    refine safe_read fun ℓ₁ _ _ _ s hs => safe_read fun ℓ₂ _ _ _ _ _ =>
      safe_read fun ℓ₃ _ _ _ _ _ => ?_
    have hadd : ∀ (c : Prop) [Decidable c], (friendly y).Safe
        (if c then .act id fun s => addPeer env y authPeer.name
            (Config.genUniqPeerAlias s.conf.aliases authPeer.name "").1 true "" fun _ => .done
          else .done) ℓ₃ () := by
      intro c _
      split
      · exact safe_read fun _ _ _ _ _ _ => safe_addPeer (fun _ => safe_done) _ _ _ _
      · exact safe_done
    simp only [bind_apply, Go.ite_apply, modify_apply, block_apply, read_apply, pure_apply]
    split
    · exact safe_quiet (fun _ => rfl) (fun _ => rfl) fun _ =>
        safe_block (hs.1.not_blocked _) fun _ => hadd _
    · exact safe_block (hs.1.not_blocked _) fun _ => hadd _
  | _ => exact safe_done

end

/-! ### Calls -/

variable [DecidableEq ID]

lemma safe_exchangeAll (hz : y ≠ zero) (order : List String) :
    ∀ {ℓ : Prop}, (friendly y).Safe (exchangeAll env order : Prog ID Unit).code ℓ () := by
  induction order with
  | nil => exact safe_done
  | cons key order ih =>
    intro ℓ ℓ₁ _ _ _ s hs
    refine ⟨Or.inl (Calm.refl y s), ?_⟩
    rcases hk : s.conf.getPeer key with _ | kp
    · exact ⟨ℓ₁, le_refl ℓ₁, hs, by simp only [hk]; exact ih⟩
    · obtain ⟨-, hid, -⟩ := hs.1.records key kp hk
      have hy : kp.peerId = y := by
        rw [KnownPeer.peerId, hid, decode_string y hz, Option.getD_some]
      refine ⟨True, fun _ => trivial, ⟨hs.1, fun _ => hs.1.knows hk⟩, ?_⟩
      simp only [hk, hy]
      exact safe_exchange ih trivial kp

lemma safe_sendFriendRequest {req : FriendRequest}
    (hreq : ∀ id, decode req.peerID = some id → id = y) :
    (friendly y).Safe (Api.sendFriendRequest env req : Prog ID Answer).code ℓ () := by
  simp only [Go.code, Api.sendFriendRequest, Go.ite_apply, pure_apply]
  split
  · exact safe_done
  rcases hd : (decode req.peerID : Option ID) with _ | id
  · exact safe_done
  obtain rfl := hreq id hd
  refine safe_read fun _ _ _ _ s _ => ?_
  simp only [Go.ite_apply, pure_apply]
  split
  · exact safe_done
  · exact safe_addPeer (fun _ => safe_done) _ _ _ _

lemma safe_acceptFriend {req : FriendRequestReply} (haccept : req.decline = false)
    (hreq : ∀ id, decode req.peerID = some id → id = y) :
    (friendly y).Safe (Api.acceptFriend env req : Prog ID Answer).code ℓ () := by
  simp only [Go.code, Api.acceptFriend, Go.ite_apply, pure_apply]
  split
  · exact safe_done
  rcases hd : (decode req.peerID : Option ID) with _ | id
  · exact safe_done
  obtain rfl := hreq id hd
  refine safe_read fun _ _ _ _ s₁ _ => ?_
  simp only [Go.ite_apply, pure_apply]
  split
  · exact safe_done
  refine safe_read fun _ _ _ _ s _ => ?_
  dsimp only
  rcases ha : s.getIngoingAuthRequests.lookup req.peerID with _ | auth
  · exact safe_done
  · simp only [haccept, Bool.false_eq_true, if_false]
    exact safe_addPeer (fun _ => safe_done) _ _ _ _

/-- The record that was read is written back, and a status stream is opened after that. -/
lemma safe_updatePeerSettings (hz : y ≠ zero) (req : UpdatePeerSettingsRequest) :
    (friendly y).Safe (Api.updatePeerSettings env req : Prog ID Answer).code ℓ () := by
  simp only [Go.code, Api.updatePeerSettings, Go.ite_apply, pure_apply]
  split
  · exact safe_done
  split
  · exact safe_done
  intro ℓ₁ _ _ _ s hs
  refine ⟨Or.inl (Calm.refl y s), ?_⟩
  dsimp only
  rcases hk : s.conf.getPeer req.peerID with _ | kp
  · exact ⟨ℓ₁, le_refl ℓ₁, hs, safe_done⟩
  obtain ⟨-, hid, hd⟩ := hs.1.records _ kp hk
  have hy : kp.peerId = y := by
    rw [KnownPeer.peerId, hid, decode_string y hz, Option.getD_some]
  refine ⟨True, fun _ => trivial, ⟨hs.1, fun _ => hs.1.knows hk⟩, ?_⟩
  refine safe_read fun ℓ₂ hℓ₂ _ _ s₂ _ => ?_
  simp only [Go.ite_apply, pure_apply]
  split
  · exact safe_done
  intro ℓ₃ hℓ₃ _ _ s₃ hs₃
  simp only [Go.ite_apply, pure_apply, hy]
  by_cases hip : s₃.conf.checkIPUnique req.ipAddr kp.peerID = .ok
  · simp only [hip, if_true, ne_eq, not_true_eq_false, if_false]
    refine ⟨Or.inr (Or.inl ⟨trivial, opening_exchange _⟩), ℓ₃, le_refl ℓ₃,
      ⟨hs₃.1.upsertPeer hid hd, fun _ => knows_upsertPeer hid⟩, ?_, safe_done⟩
    exact safe_exchange (k := fun _ => .done) safe_done (hℓ₃ (hℓ₂ trivial)) _
  · simp only [hip, if_false, ne_eq, not_false_eq_true, if_true]
    exact ⟨Or.inl (Calm.refl y s₃), ℓ₃, le_refl ℓ₃, hs₃, safe_done⟩

/-- What may be asked of a node in a network of two with `y`: to invite `y` or to accept its
request, to change its settings, and to exchange statuses with whom it knows. -/
def Befriends (y : ID) : Call ID → Prop
  | .sendFriendRequest req => ∀ id, decode req.peerID = some id → id = y
  | .acceptFriend req => req.decline = false ∧ ∀ id, decode req.peerID = some id → id = y
  | .updatePeerSettings _ => True
  | .exchangeStatusInfo _ => True
  | _ => False

instance (y : ID) : ∀ call : Call ID, Decidable (Befriends y call)
  | .sendFriendRequest req =>
    inferInstanceAs (Decidable (∀ id ∈ (decode req.peerID : Option ID), id = y))
  | .acceptFriend req =>
    inferInstanceAs (Decidable (_ ∧ ∀ id ∈ (decode req.peerID : Option ID), id = y))
  | .updatePeerSettings _ | .exchangeStatusInfo _ => instDecidableTrue
  | .removePeer _ | .authStream .. | .statusStream .. | .peerConnected _ | .peerDisconnected _
  | .retryAuthRequests _ => instDecidableFalse

lemma safe_call (hz : y ≠ zero) {call : Call ID} (h : Befriends y call) :
    (friendly y).Safe (call.code env) ℓ () := by
  cases call with
  | sendFriendRequest req => exact safe_sendFriendRequest h
  | acceptFriend req => exact safe_acceptFriend h.1 h.2
  | updatePeerSettings req => exact safe_updatePeerSettings hz req
  | exchangeStatusInfo order => exact safe_read fun _ _ _ _ _ _ => safe_exchangeAll hz _
  | _ => exact h.elim

lemma safe_handler (proto : Proto) (sid : ℕ) :
    (friendly y).Safe (LinkedEvent.handler env proto y sid) ℓ () := by
  cases proto with
  | auth => exact safe_authStreamHandler sid
  | status => exact safe_statusStreamHandler sid

end Friends

end Awl
