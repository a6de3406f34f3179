import Awl.ExitConsent

/-!
Everything a node runs keeps to the permissions between it and a peer `y`: what the user asks for
has to be in order, the rest is.
-/

namespace Awl

open Text PeerCodec Go AuthStatus Contract

variable {ID : Type} [PeerCodec ID]

/-- The terms for the programs that make friends. -/
abbrev exchanging (y : ID) : Contract (Node ID) (Req ID) Resp Unit (Set Grant) :=
  (exitConsent y).comap .inl

namespace ExitConsent

variable {y : ID} {g : Set Grant} {env : Env}

lemma safe_done : (exchanging y).Safe (.done : Code (Node ID) (Req ID) Resp) () g := trivial

lemma safe_modify {upd : Node ID → Node ID} {next : Node ID → Code (Node ID) (Req ID) Resp}
    (hinv : ∀ g' ≥ g, ∀ s, Entitling y g' s → Entitling y g' (upd s))
    (h : ∀ s, (exchanging y).Safe (next s) () g) : (exchanging y).Safe (.act upd next) () g :=
  safe_act (fun _ _ _ _ _ _ => trivial) (fun _ _ => hinv) h

/-- A critical section that leaves the known peers alone. -/
lemma safe_quiet {upd : Node ID → Node ID} {next : Node ID → Code (Node ID) (Req ID) Resp}
    (hc : ∀ s, (upd s).conf.knownPeers = s.conf.knownPeers)
    (hd : ∀ s, (upd s).disk.knownPeers = s.disk.knownPeers)
    (h : ∀ s, (exchanging y).Safe (next s) () g) : (exchanging y).Safe (.act upd next) () g :=
  safe_modify (fun _ _ s hs => hs.of_eq (hc s) (hd s)) h

/-- An operation that tells `y` nothing, and whose answer is not about permissions. -/
lemma safe_block {q : Req ID} {next : Resp → Code (Node ID) (Req ID) Resp}
    (hq : ¬ NodeReq.Tells y (.inl q)) (h : ∀ r, (exchanging y).Safe (next r) () g) :
    (exchanging y).Safe (.ask q next) () g :=
  safe_ask ⟨fun hs => hs.elim (fun ht => absurd ht hq) False.elim, False.elim⟩
    fun _ hg r _ => (h r).mono (le_refl ()) hg

/-! ### Status exchange -/

section

variable {k : Unit → Code (Node ID) (Req ID) Resp}

/-- A record is written back. -/
lemma safe_write (hk : (exchanging y).Safe (k ()) () g) {peer : KnownPeer}
    (hpeer : Entitled y g peer) (f : String → String) :
    (exchanging y).Safe (.act (Node.upsertPeer peer) fun _ =>
      .act (Node.setUsingPeerID f) fun _ => k ()) () g :=
  safe_modify (fun _ hg _ hs => hs.upsertPeer (hpeer.mono hg)) fun _ =>
    safe_quiet (fun _ => rfl) (fun _ => rfl) fun _ => hk

/-- The permission that is reported gets into the record. -/
lemma safe_processPeerStatusInfo (hk : (exchanging y).Safe (k ()) () g) {peer : KnownPeer}
    (hpeer : Entitled y g peer) {info : PeerStatusInfo}
    (hinfo : decode peer.peerID = some y → info.allowUsingAsExitNode = true → .received ∈ g) :
    (exchanging y).Safe (processPeerStatusInfo env peer info k) () g := by
  simp only [processPeerStatusInfo, bind_apply, read_apply, modify_apply, pure_apply,
    Go.ite_apply]
  refine safe_read fun _ _ g₁ hg₁ s _ => ?_
  have hk := hk.mono (le_refl ()) hg₁
  have hpeer := hpeer.mono hg₁
  by_cases hd : info.declined = true
  · rw [if_pos hd]
    refine safe_write hk ?_ _
    exact hpeer.congr ⟨rfl, rfl, rfl⟩
  · rw [if_neg hd]
    split
    · refine safe_read fun _ _ g₂ hg₂ _ _ => safe_write (hk.mono (le_refl ()) hg₂) ?_ _
      intro hy
      obtain ⟨hid, hw, -⟩ := hpeer.mono hg₂ hy
      exact ⟨hid, hw, fun ha => hg₂ (hg₁ (hinfo hy ha))⟩
    · refine safe_write hk ?_ _
      intro hy
      obtain ⟨hid, hw, -⟩ := hpeer hy
      exact ⟨hid, hw, fun ha => hg₁ (hinfo hy ha)⟩

/-- The end of an exchange: the record of the remote peer is read again, and written back. -/
lemma safe_finish (hk : (exchanging y).Safe (k ()) () g) {remote : ID} {info : PeerStatusInfo}
    (hinfo : remote = y → info.allowUsingAsExitNode = true → .received ∈ g) :
    (exchanging y).Safe (.act id fun s => processPeerStatusInfo env
      ((s.conf.getPeer (string remote)).getD {}) info k) () g := by
  refine safe_read fun _ _ g' hg s hs => safe_processPeerStatusInfo (hk.mono (le_refl ()) hg)
    (hs.conf.entitled_getD _) fun hy ha => hg (hinfo ?_ ha)
  by_contra hne
  exact hs.conf.not_about hne hy

/-- The status that is sent says of the permission what the record says. -/
lemma safe_createPeerInfo {k : PeerStatusInfo → Code (Node ID) (Req ID) Resp}
    (peer : KnownPeer) (name : String) (declined : Bool)
    (hk : ∀ info, (info.allowUsingAsExitNode = true → peer.weAllowUsingAsExitNode = true) →
      (exchanging y).Safe (k info) () g) :
    (exchanging y).Safe (createPeerInfo peer name declined k) () g := by
  simp only [createPeerInfo, bind_apply, read_apply, pure_apply, Go.ite_apply]
  split_ifs
  · exact hk _ fun ha => nomatch ha
  · exact safe_read fun _ _ g' hg s _ => (hk _ fun ha => ha).mono (le_refl ()) hg

/-- Sending such a status. -/
lemma owed_sendStatus {peer : KnownPeer} {stream : Stream ID} {info : PeerStatusInfo}
    (hpeer : stream.remote = y → peer.weAllowUsingAsExitNode = true → .given ∈ g)
    (hinfo : info.allowUsingAsExitNode = true → peer.weAllowUsingAsExitNode = true) :
    (exchanging y).owed () g (.sendStatus stream info) :=
  ⟨fun hq => hq.elim (fun ht => hpeer ht.1 (hinfo ht.2)) False.elim, False.elim⟩

variable [DecidableEq ID]

lemma safe_exchangeNewStatusInfo (hk : (exchanging y).Safe (k ()) () g) {remote : ID}
    {peer : KnownPeer} (hpeer : remote = y → peer.weAllowUsingAsExitNode = true → .given ∈ g) :
    (exchanging y).Safe (exchangeNewStatusInfo env remote peer k) () g := by
  refine safe_quiet (fun _ => rfl) (fun _ => rfl) fun _ => safe_block id fun r => ?_
  cases r with
  | ok =>
    refine safe_block id fun r => ?_
    cases r with
    | stream sid =>
      refine safe_read fun _ _ g₁ hg₁ _ _ => safe_read fun _ _ g₂ hg₂ _ _ => ?_
      have hk := hk.mono (le_refl ()) (hg₁.trans hg₂)
      refine safe_createPeerInfo _ _ _ fun info hinfo => safe_ask ?_ fun g₃ hg₃ r _ => ?_
      · exact owed_sendStatus (fun hy ha => hg₂ (hg₁ (hpeer hy ha))) hinfo
      cases r with
      | ok =>
        refine safe_ask ⟨fun hq => hq.elim False.elim False.elim, False.elim⟩
          fun g₄ hg₄ r hr => ?_
        have hk := hk.mono (le_refl ()) (hg₃.trans hg₄)
        cases r with
        | status opposite =>
          simp only [Go.ite_apply, pure_apply]
          split_ifs
          · exact hk
          · exact safe_finish hk fun hy ha => hr ⟨hy, ha⟩
        | _ => exact hk
      | _ => exact hk.mono (le_refl ()) hg₃
    | _ => exact hk
  | _ => exact hk

lemma safe_statusStreamHandler (hz : y ≠ zero) (stream : Stream ID) :
    (exchanging y).Safe (statusStreamHandler env stream).code () g := by
  refine safe_read fun _ _ g₁ hg₁ s hs => safe_read fun _ _ g₂ hg₂ s' _ => ?_
  simp only [bind_apply, block_apply, pure_apply, Go.ite_apply]
  split
  · exact safe_done
  refine safe_ask ⟨fun hq => hq.elim False.elim False.elim, False.elim⟩ fun g₃ hg₃ r hr => ?_
  cases r with
  | status opposite =>
    refine safe_quiet (fun _ => rfl) (fun _ => rfl) fun _ => safe_read fun _ _ g₄ hg₄ _ _ =>
      safe_createPeerInfo _ _ _ fun info hinfo => safe_ask ?_ fun g₅ hg₅ _ _ => ?_
    · refine owed_sendStatus (fun hy ha => hg₄ (hg₃ (hg₂ (hs.conf.given hz ?_)))) hinfo
      exact hy ▸ ha
    · split_ifs
      · exact safe_done
      · exact safe_finish (k := fun _ => .done) safe_done fun hy ha => hg₅ (hg₄ (hr ⟨hy, ha⟩))
  | _ => exact safe_done

lemma safe_blockPeer (hk : (exchanging y).Safe (k ()) () g) (id : ID) (name : String) :
    (exchanging y).Safe (blockPeer env id name k) () g := by
  refine safe_modify (fun _ _ s hs => ⟨hs.conf, hs.conf⟩) fun _ => ⟨?_, hk⟩
  exact safe_exchangeNewStatusInfo (k := fun _ => .done) safe_done fun _ ha => nomatch ha

/-! ### Auth requests -/

lemma safe_sendAuthRequest (hk : (exchanging y).Safe (k ()) () g) (id : ID) (req : AuthPeer) :
    (exchanging y).Safe (sendAuthRequest id req k) () g := by
  refine safe_quiet (fun _ => rfl) (fun _ => rfl) fun _ => safe_block (fun h => h) fun r => ?_
  cases r with
  | ok =>
    refine safe_block (fun h => h) fun r => ?_
    cases r with
    | stream sid =>
      refine safe_block (fun h => h) fun r => ?_
      cases r with
      | ok =>
        refine safe_block (fun h => h) fun r => ?_
        cases r with
        | authResponse response =>
          obtain ⟨confirmed, declined⟩ := response
          cases declined with
          | false =>
            cases confirmed with
            | false => exact hk
            | true => exact safe_quiet (fun _ => rfl) (fun _ => rfl) fun _ => hk
          | true =>
            simp only [Bool.or_true, if_true, bind_apply, modify_apply, read_apply]
            refine safe_quiet (fun _ => rfl) (fun _ => rfl) fun _ =>
              safe_read fun _ _ g₁ hg₁ s hs => ?_
            -- the refusal is noted in the record, if there still is one
            rcases hkp : s.conf.getPeer (string id) with _ | kp
            · exact hk.mono (le_refl ()) hg₁
            · refine safe_modify (fun g' hg _ hs' => hs'.upsertPeer ?_) fun _ =>
                hk.mono (le_refl ()) hg₁
              exact ((hs.conf.entitled _ kp hkp).mono hg).congr ⟨rfl, rfl, rfl⟩
        | _ => exact hk
      | _ => exact hk
    | _ => exact hk
  | _ => exact hk

lemma safe_introduce (hz : y ≠ zero) (peerID : ID) (confirmed : Bool) :
    (exchanging y).Safe (introduce env peerID confirmed).code () g := by
  have hexchange : ∀ g : Set Grant, (exchanging y).Safe (.act id fun s =>
      exchangeNewStatusInfo env peerID ((s.conf.getPeer (string peerID)).getD {})
        fun _ => .done) () g := fun g =>
    safe_read fun _ _ _ _ s hs => safe_exchangeNewStatusInfo (k := fun _ => .done) safe_done
      fun hy ha => hs.conf.given hz (hy ▸ ha)
  cases confirmed with
  | true => exact hexchange g
  | false => exact safe_read fun _ _ g₁ _ s _ => safe_sendAuthRequest (hexchange g₁) _ _

/-- A new peer is added without permissions. -/
lemma safe_addPeer (hz : y ≠ zero) {k : Except AddPeerError Unit → Code (Node ID) (Req ID) Resp}
    (hk : ∀ r, (exchanging y).Safe (k r) () g) (id : ID) (confirmed : Bool)
    (name peerAlias ipAddr : String) :
    (exchanging y).Safe (addPeer env id name peerAlias confirmed ipAddr k) () g := by
  simp only [addPeer, bind_apply, read_apply, pure_apply, Go.ite_apply]
  refine safe_read fun _ _ g₁ hg₁ s₁ _ => ?_
  have hk := fun r => (hk r).mono (le_refl ()) hg₁
  split
  · exact hk _
  refine safe_read fun _ _ g₂ hg₂ s₂ _ => ?_
  have hk := fun r => (hk r).mono (le_refl ()) hg₂
  split
  · exact hk _
  refine safe_read fun _ _ g₃ hg₃ s₃ _ => ?_
  have hk := fun r => (hk r).mono (le_refl ()) hg₃
  cases chooseIP s₃.conf (string id) ipAddr with
  | error e => exact hk _
  | ok ip =>
    refine safe_read fun _ _ g₄ hg₄ s₄ _ => ?_
    have hk := fun r => (hk r).mono (le_refl ()) hg₄
    refine safe_modify (fun _ _ _ hs => hs.removeBlockedPeer id) fun _ =>
      safe_modify (fun _ _ _ hs => hs.upsertPeer (Entitled.of_new id rfl rfl rfl)) fun _ =>
        ⟨safe_introduce hz id _, hk _⟩

lemma safe_authStreamHandler (hz : y ≠ zero) (stream : Stream ID) :
    (exchanging y).Safe (authStreamHandler env stream).code () g := by
  refine safe_block id fun r => ?_
  cases r with
  | auth authPeer =>
    refine safe_read fun _ _ g₂ _ _ _ => safe_read fun _ _ g₃ _ _ _ =>
      safe_read fun _ _ g₄ _ _ _ => ?_
    -- after the answer the peer is added if auto-accept says so
    have hadd : ∀ (c : Prop) [Decidable c], (exchanging y).Safe
        (if c then .act id fun s => addPeer env stream.remote authPeer.name
            (Config.genUniqPeerAlias s.conf.aliases authPeer.name "").1 true "" fun _ => .done
          else .done) () g₄ := by
      intro c _
      split
      · exact safe_read fun _ _ _ _ _ _ => safe_addPeer hz (fun _ => safe_done) _ _ _ _ _
      · exact safe_done
    simp only [bind_apply, Go.ite_apply, modify_apply, block_apply, read_apply, pure_apply]
    split
    · exact safe_quiet (fun _ => rfl) (fun _ => rfl) fun _ => safe_block id fun _ => hadd _
    · exact safe_block id fun _ => hadd _
  | _ => exact safe_done

/-! ### Connection events and timers -/

lemma safe_onPeerConnected (hz : y ≠ zero) (peerID : ID) :
    (exchanging y).Safe (onPeerConnected env peerID).code () g := by
  refine safe_read fun _ _ g₁ _ s₁ _ => safe_read fun _ _ g₂ _ s₂ hs₂ => ?_
  simp only [bind_apply, Go.ite_apply, pure_apply]
  split
  · exact safe_done
  refine safe_modify (fun _ _ _ hs => hs.updatePeerLastSeen _) fun _ => ⟨?_, safe_done⟩
  -- first the pending request is sent again, then the statuses are exchanged
  cases hk : s₂.conf.getPeer (string peerID) with
  | some kp =>
    have hexchange : (exchanging y).Safe (exchangeNewStatusInfo env peerID kp fun _ => .done)
        () g₂ := by
      refine safe_exchangeNewStatusInfo safe_done fun hy ha => hs₂.conf.given hz ?_
      rw [← hy, show s₂.conf.knownPeers.lookup (string peerID) = some kp from hk]
      exact ha
    cases s₁.outgoingAuths.lookup peerID with
    | some auth => exact safe_sendAuthRequest hexchange _ _
    | none => exact hexchange
  | none =>
    cases s₁.outgoingAuths.lookup peerID with
    | some auth => exact safe_sendAuthRequest safe_done _ _
    | none => exact safe_done

omit [DecidableEq ID] in
lemma safe_onPeerDisconnected (peerID : ID) :
    (exchanging y).Safe (onPeerDisconnected peerID).code () g := by
  refine safe_read fun _ _ _ _ s _ => ?_
  simp only [Go.ite_apply, pure_apply]
  split
  · exact safe_done
  · exact safe_modify (fun _ _ _ hs => hs.updatePeerLastSeen _) fun _ => safe_done

lemma safe_exchangeAll (hz : y ≠ zero) (order : List String) :
    ∀ {g : Set Grant}, (exchanging y).Safe (exchangeAll env order : Prog ID Unit).code () g := by
  induction order with
  | nil => exact safe_done
  | cons key order ih =>
    intro g
    refine safe_read fun _ _ g₁ _ s hs => ?_
    dsimp only
    rcases hk : s.conf.getPeer key with _ | kp
    · exact ih
    · refine safe_exchangeNewStatusInfo ih fun hy ha => ?_
      exact (hs.conf.entitled key kp hk (KnownPeer.peerId_eq hz hy)).2.1 ha

lemma safe_sendAll (auths : List (ID × AuthPeer)) :
    (exchanging y).Safe (sendAll auths).code () g := by
  induction auths with
  | nil => exact safe_done
  | cons e auths ih => exact safe_sendAuthRequest ih e.1 e.2

/-! ### Requests of the user -/

lemma safe_sendFriendRequest (hz : y ≠ zero) (req : FriendRequest) :
    (exchanging y).Safe (Api.sendFriendRequest env req : Prog ID Answer).code () g := by
  simp only [Go.code, Api.sendFriendRequest, Go.ite_apply, pure_apply]
  split
  · exact safe_done
  cases (decode req.peerID : Option ID) with
  | none => exact safe_done
  | some id =>
    refine safe_read fun _ _ g₁ _ s _ => ?_
    simp only [Go.ite_apply, pure_apply]
    split
    · exact safe_done
    · exact safe_addPeer hz (fun _ => safe_done) _ _ _ _ _

lemma safe_acceptFriend (hz : y ≠ zero) (req : FriendRequestReply) :
    (exchanging y).Safe (Api.acceptFriend env req : Prog ID Answer).code () g := by
  simp only [Go.code, Api.acceptFriend, Go.ite_apply, pure_apply]
  split
  · exact safe_done
  cases (decode req.peerID : Option ID) with
  | none => exact safe_done
  | some id =>
    refine safe_read fun _ _ g₁ _ s₁ _ => ?_
    simp only [Go.ite_apply, pure_apply]
    split
    · exact safe_done
    refine safe_read fun _ _ g₂ _ s _ => ?_
    dsimp only
    cases s.getIngoingAuthRequests.lookup req.peerID with
    | none => exact safe_done
    | some auth =>
      simp only [Go.ite_apply]
      split
      · exact safe_blockPeer (k := fun _ => .done) safe_done id _
      · exact safe_addPeer hz (fun _ => safe_done) _ _ _ _ _

lemma safe_removePeer (req : PeerIDRequest) :
    (exchanging y).Safe (Api.removePeer env req : Prog ID Answer).code () g := by
  simp only [Go.code, Api.removePeer, Go.ite_apply, pure_apply]
  split
  · exact safe_done
  cases (decode req.peerID : Option ID) with
  | none => exact safe_done
  | some id =>
    refine safe_modify (fun _ _ _ hs => hs.removePeer _) fun s => ?_
    dsimp only
    cases s.conf.getPeer req.peerID with
    | none => exact safe_done
    | some kp => exact safe_blockPeer (k := fun _ => .done) safe_done id _

/-- The record that was read is written back with new settings, also if a permission was
withdrawn, or the peer removed, in between. -/
lemma safe_updatePeerSettings (hz : y ≠ zero) {req : UpdatePeerSettingsRequest}
    (hreq : req.peerID = string y → req.allowUsingAsExitNode = true → .given ∈ g) :
    (exchanging y).Safe (Api.updatePeerSettings env req : Prog ID Answer).code () g := by
  simp only [Go.code, Api.updatePeerSettings, Go.ite_apply, pure_apply]
  split
  · exact safe_done
  split
  · exact safe_done
  refine safe_read fun _ _ g₁ hg₁ s hs => ?_
  dsimp only
  rcases hk : s.conf.getPeer req.peerID with _ | kp
  · exact safe_done
  have hpeer : Entitled y g₁ (Api.withSettings kp req) := by
    intro hy
    obtain ⟨hid, -, hreceived⟩ := hs.conf.entitled _ kp hk hy
    have hhome : kp.peerID = req.peerID := hs.conf.home _ kp hk (Or.inr hy)
    exact ⟨hid, fun ha => hg₁ (hreq (hhome.symm.trans hid) ha), hreceived⟩
  refine safe_read fun _ _ g₂ hg₂ s₂ _ => ?_
  simp only [Go.ite_apply, pure_apply]
  split
  · exact safe_done
  refine safe_modify (fun g' hg s' hs' => ?_) fun s' => ?_
  · split
    · exact hs'.upsertPeer (hpeer.mono (hg₂.trans hg))
    · exact hs'
  · simp only [Go.ite_apply, pure_apply]
    split
    · exact safe_done
    · refine ⟨safe_exchangeNewStatusInfo (k := fun _ => .done) safe_done fun hy ha => ?_,
        safe_done⟩
      exact hg₂ ((hpeer (KnownPeer.peerId_eq hz hy)).2.1 ha)

/-- **Whatever is started on a node is safe**, if the settings that are asked for are in order. -/
lemma safe_call (hz : y ≠ zero) (call : Call ID) (hcall : ∀ req, call = .updatePeerSettings req →
      req.peerID = string y → req.allowUsingAsExitNode = true → .given ∈ g) :
    (exchanging y).Safe (call.code env) () g := by
  cases call with
  | sendFriendRequest req => exact safe_sendFriendRequest hz req
  | acceptFriend req => exact safe_acceptFriend hz req
  | removePeer req => exact safe_removePeer req
  | updatePeerSettings req => exact safe_updatePeerSettings hz (hcall req rfl)
  | authStream remote valid sid => exact safe_authStreamHandler hz _
  | statusStream remote valid sid => exact safe_statusStreamHandler hz _
  | peerConnected peerID => exact safe_onPeerConnected hz peerID
  | peerDisconnected peerID => exact safe_onPeerDisconnected peerID
  | exchangeStatusInfo order => exact safe_read fun _ _ _ _ _ _ => safe_exchangeAll hz _
  | retryAuthRequests order => exact safe_read fun _ _ _ _ _ _ => safe_sendAll _

end

/-! ### The proxy -/

/-- An operation that is owed, whatever its answer. -/
lemma safe_op {q : NodeReq ID} {next : Resp → Code (Node ID) (NodeReq ID) Resp}
    (hq : (exitConsent y).owed () g q) (h : ∀ r, (exitConsent y).Safe (next r) () g) :
    (exitConsent y).Safe (.ask q next) () g :=
  safe_ask hq fun _ hg r _ => (h r).mono (le_refl ()) hg

lemma safe_reset (stream : ProxyStream ID) {next : Resp → Code (Node ID) (NodeReq ID) Resp}
    (h : ∀ r, (exitConsent y).Safe (next r) () g) :
    (exitConsent y).Safe (.ask (.inr (.reset stream)) next) () g :=
  safe_op ⟨fun hs => hs.elim False.elim False.elim, False.elim⟩ h

lemma safe_proxyStreamHandler (hz : y ≠ zero) (stream : ProxyStream ID) :
    (exitConsent y).Safe (SOCKS5.proxyStreamHandler stream).code () g := by
  have hdone : ∀ g : Set Grant, (exitConsent y).Safe
      (.ask (.inr (.reset stream)) fun _ => .done : Code (Node ID) (NodeReq ID) Resp) () g :=
    fun g => safe_reset stream fun _ => trivial
  simp only [Go.code, SOCKS5.proxyStreamHandler, SOCKS5.handleProxyStream, bind_apply, read_apply]
  refine safe_read fun _ _ g₁ _ s hs => ?_
  rcases hk : s.conf.getPeer (string stream.remote) with _ | kp
  · exact hdone g₁
  simp only [Go.ite_apply, pure_apply, bind_apply, read_apply, block_apply]
  by_cases ha : kp.weAllowUsingAsExitNode = true
  · have hgiven : stream.remote = y → .given ∈ g₁ := by
      rintro rfl
      refine hs.conf.given hz ?_
      rw [show s.conf.knownPeers.lookup (string stream.remote) = some kp from hk]
      exact ha
    rw [if_neg (by simp [ha])]
    refine safe_read fun _ _ g₂ hg₂ _ _ => ?_
    -- whether it is served or gets a reply, it is known to be allowed
    have hserves : ∀ q : ProxyReq ID, (NodeReq.Serves y (.inr q) → stream.remote = y) →
        ¬ NodeReq.Uses y (.inr q) → (exitConsent y).Safe (.ask (.inr q) fun _ =>
          .ask (.inr (.reset stream)) fun _ => .done : Code (Node ID) (NodeReq ID) Resp) () g₂ :=
      fun q hq huse => safe_op ⟨fun hs => hs.elim False.elim fun hs => hg₂ (hgiven (hq hs)),
        fun hs => absurd hs huse⟩ fun _ => hdone g₂
    split
    · split
      · exact hserves _ id id
      · exact hdone g₂
    · split
      · exact hserves _ id id
      · exact hserves _ id id
  · rw [if_pos (by simpa using ha)]
    exact hdone g₁

lemma safe_passOn {k : Bool → Code (Node ID) (NodeReq ID) Resp}
    (hk : ∀ ok, (exitConsent y).Safe (k ok) () g) (conn : ℕ) {stream : ProxyStream ID}
    (hreceived : stream.remote = y → .received ∈ g) :
    (exitConsent y).Safe (SOCKS5.passOn conn stream k) () g := by
  have hcopy : (exitConsent y).Safe (.ask (.inr (.handleStream conn stream)) fun _ => k true)
      () g := safe_op ⟨fun hs => hs.elim False.elim False.elim, hreceived⟩ fun _ => hk true
  simp only [SOCKS5.passOn, Go.ite_apply, bind_apply, pure_apply, block_apply]
  split
  · refine safe_op ⟨fun hs => hs.elim False.elim False.elim, False.elim⟩ fun r => ?_
    cases r with
    | ok => exact hcopy
    | _ => exact hk false
  · exact hcopy

/-- The client gets a reply if its connection could not be passed on. -/
lemma safe_close (conn : ℕ) (ok : Bool) :
    (exitConsent y).Safe (if !ok then
        .ask (.inr (.sendServerFailureReply (.conn conn))) fun _ =>
          .ask (.inr (.close conn)) fun _ => .done
      else .ask (.inr (.close conn)) fun _ => .done : Code (Node ID) (NodeReq ID) Resp) () g := by
  have hclose : (exitConsent y).Safe
      (.ask (.inr (.close conn)) fun _ => .done : Code (Node ID) (NodeReq ID) Resp) () g :=
    safe_op ⟨fun hs => hs.elim False.elim False.elim, False.elim⟩ fun _ => trivial
  split
  · exact safe_op ⟨fun hs => hs.elim False.elim False.elim, False.elim⟩ fun _ => hclose
  · exact hclose

lemma safe_serveConn (hz : y ≠ zero) (protocol : ℕ → Socks5.Protocol) (conn : ℕ) :
    (exitConsent y).Safe (SOCKS5.serveConn protocol conn).code () g := by
  simp only [Go.code, SOCKS5.serveConn, SOCKS5.proxyConn, bind_apply, read_apply,
    Go.ite_apply, pure_apply, block_apply]
  refine safe_read fun _ _ g₁ _ s₁ _ => ?_
  split
  · exact safe_close conn false
  refine safe_read fun _ _ g₂ _ s₂ hs₂ => ?_
  rcases hk : s₂.conf.getPeer s₁.conf.socks5.usingPeerID with _ | peer
  · exact safe_close conn false
  simp only [Go.ite_apply, pure_apply, bind_apply, block_apply]
  by_cases ha : peer.allowedUsingAsExitNode = true
  · have hreceived : (peer.peerId : ID) = y → .received ∈ g₂ := fun hy =>
      (hs₂.conf.entitled _ peer hk (KnownPeer.peerId_eq hz hy)).2.2 ha
    rw [if_neg (by simp [ha])]
    refine safe_op ⟨fun hs => hs.elim False.elim False.elim, False.elim⟩ fun r => ?_
    cases r with
    | ok =>
      refine safe_op ⟨fun hs => hs.elim False.elim False.elim, hreceived⟩ fun r => ?_
      cases r with
      | stream sid =>
        exact safe_passOn (fun ok => safe_reset _ fun _ => safe_close conn ok) conn hreceived
      | _ => exact safe_close conn false
    | _ => exact safe_close conn false
  · rw [if_pos (by simpa using ha)]
    exact safe_close conn false

end ExitConsent

end Awl
