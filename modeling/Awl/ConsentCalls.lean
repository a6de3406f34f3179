import Awl.ConsentCode

/-!
Whatever is started on a node, from outside or by a timer, keeps to what the node has done
towards `y`.
-/

namespace Awl

open Text PeerCodec Go AuthStatus Contract

namespace Consent

variable {ID : Type} [DecidableEq ID] [PeerCodec ID] {y : ID} {ℓ : Set Deed} {g : Prop}
  {env : Env}

omit [DecidableEq ID] in
lemma safe_done : (consent y).Safe (.done : Code (Node ID) (Req ID) Resp) ℓ g := trivial

/-! ### Connection events and timers -/

lemma safe_onPeerConnected (hz : y ≠ zero) (peerID : ID) :
    (consent y).Safe (onPeerConnected env peerID).code ℓ g := by
  refine safe_read fun ℓ₁ hℓ₁ g₁ hg₁ s₁ hs₁ => safe_read fun ℓ₂ hℓ₂ g₂ hg₂ s₂ hs₂ => ?_
  have hauth : ∀ auth, s₁.outgoingAuths.lookup peerID = some auth → peerID = y → .added ∈ ℓ₂ := by
    rintro auth hl rfl
    exact hℓ₂ (hs₁.outgoing (Finmap.mem_of_lookup_eq_some hl))
  have hknown : ∀ kp, s₂.conf.getPeer (string peerID) = some kp → peerID = y → .added ∈ ℓ₂ := by
    rintro kp hl rfl
    exact hs₂.conf.added (decode_string _ hz) hl
  simp only [bind_apply, Go.ite_apply, pure_apply]
  split
  · exact safe_done
  refine safe_modify (fun _ _ _ _ _ hs => hs.updatePeerLastSeen _) fun _ => ⟨?_, safe_done⟩
  -- first the pending request is sent again, then the statuses are exchanged
  cases hk : s₂.conf.getPeer (string peerID) with
  | some kp =>
    have hexchange : (consent y).Safe (exchangeNewStatusInfo env peerID kp fun _ => .done) ℓ₂ g₂ :=
      safe_exchangeNewStatusInfo safe_done (fun he => Or.inl (hknown kp hk he)) kp
    cases ha : s₁.outgoingAuths.lookup peerID with
    | some auth => exact safe_sendAuthRequest hexchange (hauth auth ha) auth
    | none => exact hexchange
  | none =>
    cases ha : s₁.outgoingAuths.lookup peerID with
    | some auth => exact safe_sendAuthRequest safe_done (hauth auth ha) auth
    | none => exact safe_done

omit [DecidableEq ID] in
lemma safe_onPeerDisconnected (peerID : ID) :
    (consent y).Safe (onPeerDisconnected peerID).code ℓ g := by
  refine safe_read fun _ _ _ _ s _ => ?_
  simp only [Go.ite_apply, pure_apply]
  split
  · exact safe_done
  · exact safe_modify (fun _ _ _ _ _ hs => hs.updatePeerLastSeen _) fun _ => safe_done

lemma safe_exchangeAll (hz : y ≠ zero) (order : List String) :
    ∀ {ℓ : Set Deed} {g : Prop},
      (consent y).Safe (exchangeAll env order : Prog ID Unit).code ℓ g := by
  induction order with
  | nil => exact safe_done
  | cons key order ih =>
    intro ℓ g
    refine safe_read fun ℓ₁ _ g₁ _ s hs => ?_
    dsimp only
    rcases hk : s.conf.getPeer key with _ | kp
    · exact ih
    · refine safe_exchangeNewStatusInfo ih (fun he => Or.inl ?_) kp
      exact (hs.conf.fine key kp hk (KnownPeer.peerId_eq hz he)).2.1

lemma safe_sendAll {auths : List (ID × AuthPeer)} (h : ∀ e ∈ auths, e.1 = y → .added ∈ ℓ) :
    (consent y).Safe (sendAll auths).code ℓ g := by
  induction auths with
  | nil => exact safe_done
  | cons e auths ih =>
    exact safe_sendAuthRequest (ih fun e' he' => h e' (List.mem_cons_of_mem _ he'))
      (h e List.mem_cons_self) e.2

lemma safe_retryAuthRequests (order : List ID) :
    (consent y).Safe (retryAuthRequests order : Prog ID Unit).code ℓ g := by
  refine safe_read fun ℓ₁ _ g₁ _ s hs => safe_sendAll ?_
  rintro ⟨id, auth⟩ he rfl
  obtain ⟨id', -, hl⟩ := List.mem_filterMap.mp he
  obtain ⟨auth', hauth, heq⟩ := Option.map_eq_some_iff.mp hl
  cases heq
  exact hs.outgoing (Finmap.mem_of_lookup_eq_some hauth)

/-! ### Requests of the user -/

lemma safe_sendFriendRequest (req : FriendRequest) :
    (consent y).Safe (Api.sendFriendRequest env req : Prog ID Answer).code ℓ g := by
  simp only [Go.code, Api.sendFriendRequest, Go.ite_apply, pure_apply]
  split
  · exact safe_done
  rcases hd : (decode req.peerID : Option ID) with _ | id
  · exact safe_done
  refine safe_read fun ℓ₁ _ g₁ _ s _ => ?_
  simp only [Go.ite_apply, pure_apply]
  split
  · exact safe_done
  · exact safe_addPeer (fun _ => safe_done) (ne_zero_of_decode hd) (by simp) _ _ _

/-- A pending request that is found under a text for `id` is one of `id`. -/
lemma mem_ingoingAuths {s : Node ID} {key : String} {id : ID} (hd : decode key = some id)
    {auth : AuthPeer} (h : s.getIngoingAuthRequests.lookup key = some auth) :
    id ∈ s.ingoingAuths := by
  obtain ⟨id', he, rfl⟩ := (GoMap.lookup_mapKeys _).mp h
  have hz : id' ≠ zero := by
    rintro rfl
    rw [string_zero, decode_empty] at hd
    cases hd
  cases (decode_string id' hz).symm.trans hd
  exact Finmap.mem_of_lookup_eq_some (GoMap.mem_entries.mp he)

lemma safe_acceptFriend (req : FriendRequestReply) :
    (consent y).Safe (Api.acceptFriend env req : Prog ID Answer).code ℓ g := by
  simp only [Go.code, Api.acceptFriend, Go.ite_apply, pure_apply]
  split
  · exact safe_done
  rcases hd : (decode req.peerID : Option ID) with _ | id
  · exact safe_done
  refine safe_read fun ℓ₁ _ g₁ _ s₁ _ => ?_
  simp only [Go.ite_apply, pure_apply]
  split
  · exact safe_done
  refine safe_read fun ℓ₂ _ g₂ _ s hs => ?_
  dsimp only
  rcases ha : s.getIngoingAuthRequests.lookup req.peerID with _ | auth
  · exact safe_done
  simp only [Go.ite_apply]
  split
  · exact safe_blockPeer (k := fun _ => .done) safe_done id _
  · refine safe_addPeer (fun _ => safe_done) (ne_zero_of_decode hd) (fun _ he => ?_) _ _ _
    exact hs.ingoing (he ▸ mem_ingoingAuths hd ha)

lemma safe_removePeer (req : PeerIDRequest) :
    (consent y).Safe (Api.removePeer env req : Prog ID Answer).code ℓ g := by
  simp only [Go.code, Api.removePeer, Go.ite_apply, pure_apply]
  split
  · exact safe_done
  rcases hd : (decode req.peerID : Option ID) with _ | id
  · exact safe_done
  refine safe_modify (fun _ _ _ _ _ hs => hs.removePeer _) fun s => ?_
  dsimp only
  rcases hk : s.conf.getPeer req.peerID with _ | kp
  · exact safe_done
  · exact safe_blockPeer (k := fun _ => .done) safe_done id _

/-- The record that was read is written back with new settings, whatever has happened to it. -/
lemma safe_updatePeerSettings (hz : y ≠ zero) (req : UpdatePeerSettingsRequest) :
    (consent y).Safe (Api.updatePeerSettings env req : Prog ID Answer).code ℓ g := by
  simp only [Go.code, Api.updatePeerSettings, Go.ite_apply, pure_apply]
  split
  · exact safe_done
  split
  · exact safe_done
  refine safe_read fun ℓ₁ _ g₁ _ s hs => ?_
  dsimp only
  rcases hk : s.conf.getPeer req.peerID with _ | kp
  · exact safe_done
  have hfine := hs.conf.fine _ kp hk
  refine safe_read fun ℓ₂ hℓ₂ g₂ hg₂ s₂ _ => ?_
  simp only [Go.ite_apply, pure_apply]
  split
  · exact safe_done
  refine safe_modify (fun ℓ' hℓ g' hg s' hs' => ?_) fun s' => ?_
  · split
    · exact hs'.upsertPeer (Fine.mono hfine (hℓ₂.trans hℓ) (hg₂.trans hg))
    · exact hs'
  · simp only [Go.ite_apply, pure_apply]
    split
    · exact safe_done
    · refine ⟨safe_exchangeNewStatusInfo (k := fun _ => .done) safe_done (fun he => Or.inl ?_) _,
        safe_done⟩
      exact hℓ₂ (hfine (KnownPeer.peerId_eq hz he)).2.1

/-- **Whatever is started on a node is safe.** -/
theorem safe_call (hz : y ≠ zero) (call : Call ID) :
    (consent y).Safe (call.code env) ℓ g := by
  cases call with
  | sendFriendRequest req => exact safe_sendFriendRequest req
  | acceptFriend req => exact safe_acceptFriend req
  | removePeer req => exact safe_removePeer req
  | updatePeerSettings req => exact safe_updatePeerSettings hz req
  | authStream remote valid sid => exact safe_authStreamHandler valid
  | statusStream remote valid sid =>
    exact safe_statusStreamHandler (k := fun _ => .done) safe_done hz _
  | peerConnected peerID => exact safe_onPeerConnected hz peerID
  | peerDisconnected peerID => exact safe_onPeerDisconnected peerID
  | exchangeStatusInfo order => exact safe_read fun _ _ _ _ _ _ => safe_exchangeAll hz _
  | retryAuthRequests order => exact safe_retryAuthRequests order

end Consent

end Awl
