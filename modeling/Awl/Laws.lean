import Awl.Calls
import Awl.Serial

/-!
Laws about the maps of known and blocked peers, when goroutines are only interrupted at their
blocking operations.

The maps are written in few places: a peer is added, removed or blocked, a record is read and
written back with other settings, or with what an exchange has brought. A law says of each of
these writes exactly when it keeps a property of the maps. What every call and goroutine does
to the property then follows, once for all laws.
-/

namespace Awl

open Text PeerCodec Go AuthStatus

/-- A property of the known and blocked peers and of the history, and for each way of writing
them the condition under which it is kept. -/
structure Law (ID : Type) [DecidableEq ID] [PeerCodec ID] where
  P : Node ID → Prop
  /-- the record kept for an ID, or an empty one, is written back -/
  Rewrites : Node ID → ID → Prop
  /-- a record is written back with new settings -/
  Settings : Node ID → String → Prop
  Blocks : Node ID → ID → Prop
  Removes : Node ID → String → ID → Prop
  frame : ∀ {s s' : Node ID}, s'.conf.knownPeers = s.conf.knownPeers →
    s'.conf.blockedPeers = s.conf.blockedPeers → s'.history = s.history → (P s' ↔ P s)
  seen : ∀ (s : Node ID) (key : String), P (s.updatePeerLastSeen key) ↔ P s
  rewrites : ∀ (s : Node ID) (id : ID) (peer : KnownPeer), P s →
    peer.peerID = ((s.conf.getPeer (string id)).getD {}).peerID →
    (P (s.upsertPeer peer) ↔ Rewrites s id)
  settings : ∀ (s : Node ID) (key : String) (kp peer : KnownPeer), P s →
    s.conf.getPeer key = some kp → peer.peerID = kp.peerID →
    (P (s.upsertPeer peer) ↔ Settings s key)
  adds : ∀ (s : Node ID) (id : ID) (peer : KnownPeer), P s → id ≠ zero →
    peer.peerID = string id → P ((s.removeBlockedPeer id).upsertPeer peer)
  blocks : ∀ (s : Node ID) (id : ID) (name : String), P s → id ≠ zero →
    (P (s.upsertBlockedPeer (string id) name) ↔ Blocks s id)
  removes : ∀ (s : Node ID) (key : String) (id : ID) (name : String), P s →
    decode key = some id → (s.conf.getPeer key).isSome →
    (P ((s.removePeer key).upsertBlockedPeer (string id) name) ↔ Removes s key id)

namespace Law

variable {ID : Type} [DecidableEq ID] [PeerCodec ID]

/-- When a goroutine that gets the answer `r` to `q` keeps the property: if it goes on to
write back the record of the remote peer, under the condition for that. An exchange writes it
unless it has declined: the side that opened the stream after it has read the answer, the
other one after it has sent its own. -/
def Ok (law : Law ID) (q : Req ID) (r : Resp) (s : Node ID) : Prop :=
  match q, r with
  | .receiveStatus ⟨remote, _, false, some info⟩, .status _ =>
    info.declined = false → law.Rewrites s remote
  | .sendStatus ⟨remote, _, true, _⟩ info, _ => info.declined = false → law.Rewrites s remote
  | .receiveAuthResponse stream, .authResponse response =>
    response.declined = true → (s.conf.getPeer (string stream.remote)).isSome →
      law.Rewrites s stream.remote
  | _, _ => True

/-- The request declines the friend request of `id`. -/
structure Declines (env : Env) (s : Node ID) (req : FriendRequestReply) (id : ID) : Prop where
  valid : (req.peerID ≠ "" && Api.validText req.peerAlias
    && Api.validOptionalIP env req.ipAddr) = true
  decodes : decode req.peerID = some id
  other : req.peerID ≠ s.conf.p2pNode.peerID
  asked : (s.getIngoingAuthRequests.lookup req.peerID).isSome
  decline : req.decline = true

/-- When a call keeps the property. -/
def OkCall (law : Law ID) (env : Env) : Call ID → Node ID → Prop
  | .removePeer req, s => ∀ id, decode req.peerID = some id →
    (s.conf.getPeer req.peerID).isSome → law.Removes s req.peerID id
  | .acceptFriend req, s => ∀ id, Declines env s req id → law.Blocks s id
  | .updatePeerSettings req, s => ∀ kp, Api.Accepts env s.conf req kp →
    law.Settings s req.peerID
  | _, _ => True

variable {law : Law ID} {env : Env}

lemma using_iff (law : Law ID) (f : String → String) (s : Node ID) :
    law.P (s.setUsingPeerID f) ↔ law.P s :=
  law.frame rfl rfl rfl

lemma auths_iff (law : Law ID) (s : Node ID) (ingoing outgoing : GoMap ID AuthPeer) :
    law.P { s with ingoingAuths := ingoing, outgoingAuths := outgoing } ↔ law.P s :=
  law.frame rfl rfl rfl

/-! ### Exchanges -/

section

variable {k : Unit → Code (Node ID) (Req ID) Resp}

/-- The record of `id` is written back with what its status says. -/
lemma processPeerStatusInfo_seg (hk : (k ()).Keeps law.P law.Ok) {s : Node ID} (hs : law.P s)
    (id : ID) (info : PeerStatusInfo) :
    (processPeerStatusInfo env ((s.conf.getPeer (string id)).getD {}) info k).Seg law.P law.Ok s
      (law.Rewrites s id) := by
  simp only [processPeerStatusInfo, bind_apply, read_apply, Go.ite_apply, Code.Seg, id_eq]
  split_ifs
  all_goals
    simp only [modify_apply, pure_apply, Code.Seg, id_eq]
    refine (hk _).congr ((law.using_iff _ _).trans ?_)
    exact law.rewrites s id _ hs rfl

lemma sendAuthRequest_keeps (hk : (k ()).Keeps law.P law.Ok) (id : ID) (req : AuthPeer) :
    (sendAuthRequest id req k).Keeps law.P law.Ok := by
  refine Code.keeps_act (fun s => law.auths_iff s _ _) fun _ =>
    Code.keeps_ask (fun _ _ => trivial) fun r => ?_
  cases r with
  | ok =>
    refine (Code.keeps_ask (fun _ _ => trivial) fun r => ?_).ready
    cases r with
    | stream sid =>
      refine (Code.keeps_ask (fun _ _ => trivial) fun r => ?_).ready
      cases r with
      | ok =>
        intro s hs
        refine ⟨iff_true_intro hs, fun r s hs => ?_⟩
        cases r with
        | authResponse response =>
          obtain ⟨confirmed, declined⟩ := response
          cases declined with
          | false =>
            have hok : law.Ok (.receiveAuthResponse ⟨id, sid, false, none⟩)
                (.authResponse ⟨confirmed, false⟩) s := by simp [Ok]
            refine Code.Seg.congr ?_ (iff_of_true trivial hok)
            cases confirmed with
            | false => exact hk.ready s hs
            | true => exact hk.ready _ ((law.auths_iff s _ _).mpr hs)
          | true =>
            -- the refusal is noted in the record, if there still is one
            simp only [Bool.or_true, if_true, bind_apply, modify_apply, read_apply, Code.Seg, id_eq]
            rcases hp : s.conf.getPeer (string id) with _ | kp
            · exact (hk.ready _ ((law.auths_iff s _ _).mpr hs)).congr
                (iff_of_true trivial (by simp [Ok, hp]))
            · simp only [modify_apply, Code.Seg]
              have hwrite := law.rewrites s id { kp with declined := true } hs
                (by simp [hp])
              refine (hk _).congr ((law.auths_iff _ _ _).trans (hwrite.trans ?_))
              simp [Ok, hp]
        | _ => exact hk.ready s hs
      | _ => exact hk.ready
    | _ => exact hk.ready
  | _ => exact hk.ready

lemma createPeerInfo_keeps {k : PeerStatusInfo → Code (Node ID) (Req ID) Resp} {declined : Bool}
    (hk : ∀ info, info.declined = declined → (k info).Keeps law.P law.Ok) (peer : KnownPeer)
    (name : String) : (createPeerInfo peer name declined k).Keeps law.P law.Ok := by
  cases declined with
  | true => exact hk _ rfl
  | false => exact Code.keeps_read fun _ => hk _ rfl

lemma exchangeNewStatusInfo_keeps (hk : (k ()).Keeps law.P law.Ok) (id : ID) (kp : KnownPeer) :
    (exchangeNewStatusInfo env id kp k).Keeps law.P law.Ok := by
  refine Code.keeps_act (fun s => law.auths_iff s _ _) fun _ =>
    Code.keeps_ask (fun _ _ => trivial) fun r => ?_
  cases r with
  | ok =>
    refine (Code.keeps_ask (fun _ _ => trivial) fun r => ?_).ready
    cases r with
    | stream sid =>
      refine (Code.keeps_read fun s =>
        Code.keeps_read fun s' => ?_).ready
      refine createPeerInfo_keeps (fun info hinfo => ?_) kp s'.conf.p2pNode.name
      refine Code.keeps_ask (fun _ _ => trivial) fun r => ?_
      cases r with
      | ok =>
        intro s' hs'
        refine ⟨iff_true_intro hs', fun r s' hs' => ?_⟩
        cases r with
        | status opposite =>
          by_cases hblocked : (s.conf.getBlockedPeer (string id)).isSome = true
          · simp only [if_pos hblocked]
            exact (hk.ready s' hs').congr (iff_of_true trivial (by simp [Ok, hinfo, hblocked]))
          · simp only [if_neg hblocked]
            refine (processPeerStatusInfo_seg hk hs' id opposite).congr ?_
            simp [Ok, hinfo, hblocked]
        | _ => exact hk.ready s' hs'
      | _ => exact hk.ready
    | _ => exact hk.ready
  | _ => exact hk.ready

/-- A status stream from another peer. -/
lemma statusStreamHandler_keeps (hk : (k ()).Keeps law.P law.Ok) (remote : ID) (sid : ℕ) :
    (statusStreamHandler env ⟨remote, sid, true, none⟩ k).Keeps law.P law.Ok := by
  refine Code.keeps_read fun s => Code.keeps_read fun s' => ?_
  dsimp only
  rw [Go.ite_apply]
  split
  · exact hk
  · refine Code.keeps_ask (fun _ _ => trivial) fun r => ?_
    cases r with
    | status opposite =>
      refine (Code.keeps_act (fun s => law.auths_iff s _ _) fun _ =>
        Code.keeps_read fun s => ?_).ready
      refine createPeerInfo_keeps (fun info hinfo => ?_) _ _
      refine fun s => ⟨Iff.rfl, fun r s₁ hs₁ => ?_⟩
      by_cases hblocked : (s'.conf.getBlockedPeer (string remote)).isSome = true
      · simp only [if_pos hblocked]
        exact (hk.ready s₁ hs₁).congr (iff_of_true trivial (by simp [Ok, hinfo, hblocked]))
      · simp only [if_neg hblocked]
        refine (processPeerStatusInfo_seg hk hs₁ remote opposite).congr ?_
        simp [Ok, hinfo, hblocked]
    | _ => exact hk.ready

/-! ### Adding peers -/

lemma introduce_ready (id : ID) (confirmed : Bool) :
    (introduce env id confirmed).code.Ready law.P law.Ok := by
  have hexchange : ∀ s : Node ID, (exchangeNewStatusInfo env id
      ((s.conf.getPeer (string id)).getD {}) fun _ => .done).Keeps law.P law.Ok :=
    fun s => exchangeNewStatusInfo_keeps Code.keeps_done id _
  cases confirmed with
  | true => exact (Code.keeps_read hexchange).ready
  | false =>
    have hrest := Code.keeps_read hexchange
    exact (Code.keeps_read fun s => sendAuthRequest_keeps hrest id _).ready

/-- `AddPeer` always keeps the property. -/
lemma addPeer_ready {k : Except AddPeerError Unit → Code (Node ID) (Req ID) Resp}
    (hk : ∀ r, (k r).Keeps law.P law.Ok) {id : ID} (hid : id ≠ zero) (name peerAlias : String)
    (confirmed : Bool) (ipAddr : String) :
    (addPeer env id name peerAlias confirmed ipAddr k).Ready law.P law.Ok := by
  intro s hs
  simp only [addPeer, bind_apply, read_apply, Go.ite_apply, Code.Seg, id_eq]
  split
  · exact (hk _).ready s hs
  · simp only [Code.Seg, id_eq]
    split
    · exact (hk _).ready s hs
    · simp only [Code.Seg, id_eq]
      cases chooseIP s.conf (string id) ipAddr with
      | error e => exact (hk _).ready s hs
      | ok ip =>
        simp only [bind_apply, read_apply, modify_apply, spawn_apply, Code.Seg, id_eq]
        exact ⟨introduce_ready id confirmed, (hk _).ready _ (law.adds s id _ hs hid rfl)⟩

/-! ### Calls -/

lemma authStreamHandler_ready {remote : ID} (hid : remote ≠ zero) (sid : ℕ) :
    (authStreamHandler env ⟨remote, sid, true, none⟩).code.Ready law.P law.Ok := by
  refine (Code.keeps_ask (fun _ _ => trivial) fun r => ?_).ready
  cases r with
  | auth authPeer =>
    refine (Code.keeps_read fun s₁ => Code.keeps_read fun s₂ => Code.keeps_read fun s₃ => ?_).ready
    simp only [bind_apply, Go.ite_apply, modify_apply, block_apply, read_apply, pure_apply]
    -- after the answer the peer is added if auto-accept says so
    have hadd : ∀ (c : Prop) [Decidable c], Code.Ready law.P law.Ok
        (if c then .act id fun s => addPeer env remote authPeer.name
            (Config.genUniqPeerAlias s.conf.aliases authPeer.name "").1 true "" fun _ => .done
          else .done) := by
      intro c _ s hs
      split
      · exact addPeer_ready (fun _ => Code.keeps_done) hid _ _ _ _ s hs
      · exact Code.keeps_done.ready s hs
    split
    · exact Code.keeps_act (fun s => law.auths_iff s _ _) fun _ =>
        Code.keeps_ask (fun _ _ => trivial) fun _ => hadd _
    · exact Code.keeps_ask (fun _ _ => trivial) fun _ => hadd _
  | _ => exact Code.keeps_done.ready

lemma onPeerConnected_keeps (id : ID) :
    (onPeerConnected env id).code.Keeps law.P law.Ok := by
  refine Code.keeps_read fun s₁ => Code.keeps_read fun s₂ => ?_
  dsimp only
  rw [Go.ite_apply]
  split
  · exact Code.keeps_done
  · refine Code.keeps_act (fun s => law.seen s _) fun _ => Code.keeps_fork ?_ Code.keeps_done
    cases s₂.conf.getPeer (string id) with
    | some knownPeer =>
      have hexchange : Code.Keeps law.P law.Ok
          (exchangeNewStatusInfo env id knownPeer fun _ => .done) :=
        exchangeNewStatusInfo_keeps Code.keeps_done id knownPeer
      cases s₁.outgoingAuths.lookup id with
      | some authPeer => exact (sendAuthRequest_keeps hexchange id authPeer).ready
      | none => exact hexchange.ready
    | none =>
      cases s₁.outgoingAuths.lookup id with
      | some authPeer => exact (sendAuthRequest_keeps Code.keeps_done id authPeer).ready
      | none => exact Code.keeps_done.ready

lemma onPeerDisconnected_keeps (id : ID) :
    (onPeerDisconnected id).code.Keeps law.P law.Ok := by
  refine Code.keeps_read fun s => ?_
  dsimp only
  rw [Go.ite_apply]
  split
  · exact Code.keeps_done
  · exact Code.keeps_act (fun s => law.seen s _) fun _ => Code.keeps_done

lemma exchangeAll_keeps (peers : List String) :
    (exchangeAll env peers : Prog ID Unit).code.Keeps law.P law.Ok := by
  induction peers with
  | nil => exact Code.keeps_done
  | cons key peers ih =>
    refine Code.keeps_read fun s => ?_
    dsimp only
    cases s.conf.getPeer key with
    | some kp => exact exchangeNewStatusInfo_keeps ih kp.peerId kp
    | none => exact ih

lemma sendAll_keeps (auths : List (ID × AuthPeer)) :
    (sendAll auths).code.Keeps law.P law.Ok := by
  induction auths with
  | nil => exact Code.keeps_done
  | cons auth auths ih => exact sendAuthRequest_keeps ih auth.1 auth.2

/-- A friend that is blocked is told so. -/
lemma blockPeer_seg {s : Node ID} (hs : law.P s) {id : ID} (hid : id ≠ zero) (name : String) :
    ((blockPeer env id name) fun _ => .done).Seg law.P law.Ok s (law.Blocks s id) :=
  ⟨(exchangeNewStatusInfo_keeps Code.keeps_done id {}).ready, law.blocks s id name hs hid⟩

lemma acceptFriend_seg {s : Node ID} (hs : law.P s) (req : FriendRequestReply) :
    (Api.acceptFriend env req : Prog ID Answer).code.Seg law.P law.Ok s
      (∀ id, Declines env s req id → law.Blocks s id) := by
  -- a request that is turned away or accepted does not decline
  have hdone : (∀ id, ¬ Declines env s req id) →
      (True ↔ ∀ id, Declines env s req id → law.Blocks s id) :=
    fun hno => iff_of_true trivial fun id hd => absurd hd (hno id)
  have hstop : (∀ id, ¬ Declines env s req id) →
      (law.P s ↔ ∀ id, Declines env s req id → law.Blocks s id) :=
    fun hno => (iff_true_intro hs).trans (hdone hno)
  simp only [Api.acceptFriend, Go.code]
  rw [Go.ite_apply]
  split
  · rename_i hv
    exact hstop fun id hd => by rw [hd.valid] at hv; cases hv
  · rename_i hv
    cases hdec : (decode req.peerID : Option ID) with
    | none => exact hstop fun id hd => Option.some_ne_none id (hd.decodes.symm.trans hdec)
    | some id =>
      simp only [bind_apply, read_apply, Code.Seg, id_eq, Go.ite_apply]
      split
      · rename_i hself
        exact hstop fun id hd => hd.other hself
      · rename_i hself
        simp only [Code.Seg, id_eq]
        cases hauth : s.getIngoingAuthRequests.lookup req.peerID with
        | none =>
          exact hstop fun id hd => by
            have hasked := hd.asked
            rw [hauth] at hasked
            cases hasked
        | some auth =>
          have hid : id ≠ zero := ne_zero_of_decode hdec
          simp only [Go.ite_apply]
          split
          · rename_i hdecline
            refine Code.Seg.congr (blockPeer_seg hs hid auth.name)
              ⟨fun hb id' hd => ?_, fun h => ?_⟩
            · cases hdec.symm.trans hd.decodes
              exact hb
            · exact h id ⟨by simpa using hv, hdec, hself, by rw [hauth]; rfl, hdecline⟩
          · rename_i hdecline
            refine Code.Seg.congr ?_ (hdone fun id hd => hdecline hd.decline)
            exact addPeer_ready (fun _ => Code.keeps_done) hid _ _ _ _ s hs

lemma sendFriendRequest_seg {s : Node ID} (hs : law.P s) (req : FriendRequest) :
    (Api.sendFriendRequest env req : Prog ID Answer).code.Seg law.P law.Ok s True := by
  simp only [Api.sendFriendRequest, Go.code]
  rw [Go.ite_apply]
  split
  · exact iff_true_intro hs
  · cases hdec : (decode req.peerID : Option ID) with
    | none => exact iff_true_intro hs
    | some id =>
      have hid : id ≠ zero := ne_zero_of_decode hdec
      simp only [bind_apply, read_apply, Code.Seg, id_eq, Go.ite_apply]
      split
      · exact iff_true_intro hs
      · exact addPeer_ready (fun _ => Code.keeps_done) hid _ _ _ _ s hs

lemma removePeer_seg {s : Node ID} (hs : law.P s) (req : PeerIDRequest) :
    (Api.removePeer env req : Prog ID Answer).code.Seg law.P law.Ok s
      (∀ id, decode req.peerID = some id → (s.conf.getPeer req.peerID).isSome →
        law.Removes s req.peerID id) := by
  simp only [Api.removePeer, Go.code]
  rw [Go.ite_apply]
  split
  · rename_i hempty
    refine iff_of_true hs fun id hd => ?_
    rw [hempty, decode_empty] at hd
    cases hd
  · cases hdec : (decode req.peerID : Option ID) with
    | none => exact iff_of_true hs fun id hd => absurd hd (by simp)
    | some id =>
      have hid : id ≠ zero := ne_zero_of_decode hdec
      simp only [bind_apply, locked_apply, Code.Seg]
      cases hk : s.conf.getPeer req.peerID with
      | none =>
        have hsame : s.removePeer req.peerID = s := by simp [Node.removePeer, hk]
        refine iff_of_true (hsame.symm ▸ hs) fun id _ hsome => ?_
        cases hsome
      | some kp =>
        refine ⟨(exchangeNewStatusInfo_keeps Code.keeps_done id {}).ready, ?_⟩
        refine (law.removes s req.peerID id kp.displayName hs hdec (by rw [hk]; rfl)).trans ?_
        simp

lemma updatePeerSettings_seg {s : Node ID} (hs : law.P s) (req : UpdatePeerSettingsRequest) :
    (Api.updatePeerSettings env req : Prog ID Answer).code.Seg law.P law.Ok s
      (∀ kp, Api.Accepts env s.conf req kp → law.Settings s req.peerID) := by
  have hstop : (∀ kp, ¬ Api.Accepts env s.conf req kp) →
      (law.P s ↔ ∀ kp, Api.Accepts env s.conf req kp → law.Settings s req.peerID) :=
    fun hno => iff_of_true hs fun kp ha => absurd ha (hno kp)
  simp only [Api.updatePeerSettings, Go.code]
  rw [Go.ite_apply]
  split
  · rename_i hv
    exact hstop fun kp ha => by rw [ha.valid] at hv; cases hv
  · rename_i hv
    rw [Go.ite_apply]
    split
    · rename_i hd
      exact hstop fun kp ha => by rw [ha.domain] at hd; cases hd
    · rename_i hd
      simp only [bind_apply, read_apply, Code.Seg, id_eq]
      cases hk : s.conf.getPeer req.peerID with
      | none => exact hstop fun kp ha => Option.some_ne_none kp (ha.known.symm.trans hk)
      | some kp =>
        simp only [bind_apply, read_apply, locked_apply, Code.Seg, id_eq, Go.ite_apply]
        split
        · rename_i hu
          exact hstop fun kp ha => by rw [ha.uniq] at hu; cases hu
        · rename_i hu
          simp only [Code.Seg]
          by_cases hip : s.conf.checkIPUnique req.ipAddr kp.peerID = .ok
          · have hacc : Api.Accepts env s.conf req kp :=
              ⟨by simpa using hv, by simpa using hd, hk, by simpa using hu, hip⟩
            simp only [hip, if_true, ne_eq, not_true_eq_false, if_false]
            refine ⟨(exchangeNewStatusInfo_keeps Code.keeps_done _ _).ready, ?_⟩
            refine (law.settings s req.peerID kp (Api.withSettings kp req) hs hk rfl).trans ?_
            exact ⟨fun h _ _ => h, fun h => h kp hacc⟩
          · simp only [hip, if_false, ne_eq, not_false_eq_true, if_true]
            refine hstop fun kp' ha => ?_
            cases hk.symm.trans ha.known
            exact hip ha.ip

/-- **What a call does to the property**, for every law. -/
theorem call_seg (law : Law ID) (env : Env) (l : Call ID) (s : Node ID) (hs : law.P s) :
    (l.code env).Seg law.P law.Ok s (law.OkCall env l s) := by
  cases l with
  | sendFriendRequest req => exact sendFriendRequest_seg hs req
  | acceptFriend req => exact acceptFriend_seg hs req
  | removePeer req => exact removePeer_seg hs req
  | updatePeerSettings req => exact updatePeerSettings_seg hs req
  | authStream remote valid sid => exact authStreamHandler_ready valid sid s hs
  | statusStream remote valid sid =>
    exact (statusStreamHandler_keeps Code.keeps_done remote sid).ready s hs
  | peerConnected id => exact (onPeerConnected_keeps id).ready s hs
  | peerDisconnected id => exact (onPeerDisconnected_keeps id).ready s hs
  | exchangeStatusInfo order =>
    exact (Code.keeps_read fun s => exchangeAll_keeps _).ready s hs
  | retryAuthRequests order => exact (Code.keeps_read fun s => sendAll_keeps _).ready s hs

/-- **Runs**: a law holds in every state exactly if every event meets its condition. -/
theorem holds_iff_meets (law : Law ID) (env : Env) {s : Node ID} (hs : law.P s)
    (es : List (Event (Call ID) Resp)) :
    Runs.Holds (Machine.step (Call.code env)) (fun m => law.P m.state) ⟨s, []⟩ es ↔
      Runs.Meets (Machine.step (Call.code env)) (Machine.Cond (law.OkCall env) law.Ok) ⟨s, []⟩
        es :=
  Machine.holds_iff_meets (fun l s hs => law.call_seg env l s hs) es hs (by simp)

end

end Law

end Awl
