import Awl.FriendsCode

/-!
The permission to use a node as an exit node, as the two nodes of a network of two see it.

A node keeps the permission it gives, and the one it has been given, in its record of the other
node `y`. A status carries the former and overwrites the latter. Between two changes of the
settings every status of a node says the same; the streams opened since the last change are
those from the number `N` on.
-/

namespace Awl

open Text PeerCodec Go AuthStatus Contract Goal

variable {ID : Type} [PeerCodec ID]

/-- Whether the node lets `y` use it, if it knows `y`. -/
def grants (y : ID) (s : Node ID) : Option Bool :=
  (s.conf.knownPeers.lookup (string y)).map KnownPeer.weAllowUsingAsExitNode

/-- Whether `y` lets the node use it, as far as the node knows. -/
def granted (y : ID) (s : Node ID) : Option Bool :=
  (s.conf.knownPeers.lookup (string y)).map KnownPeer.allowedUsingAsExitNode

section

variable {y : ID} {s : Node ID} {kp : KnownPeer}

lemma lookup_upsertPeer (hid : kp.peerID = string y) :
    (s.upsertPeer kp).conf.knownPeers.lookup (string y) = some kp := by
  rw [← hid]
  exact Finmap.lookup_insert _

lemma grants_upsertPeer (hid : kp.peerID = string y) :
    grants y (s.upsertPeer kp) = some kp.weAllowUsingAsExitNode := by
  rw [grants, lookup_upsertPeer hid, Option.map_some]

lemma granted_upsertPeer (hid : kp.peerID = string y) :
    granted y (s.upsertPeer kp) = some kp.allowedUsingAsExitNode := by
  rw [granted, lookup_upsertPeer hid, Option.map_some]

lemma grants_eq_some {v : Bool} (h : grants y s = some v) :
    ∃ kp, s.conf.knownPeers.lookup (string y) = some kp ∧ kp.weAllowUsingAsExitNode = v :=
  Option.map_eq_some_iff.mp h

/-- The time of the last contact says nothing about permissions. -/
lemma lookup_updatePeerLastSeen (key : String) :
    grants y (s.updatePeerLastSeen key) = grants y s ∧
      granted y (s.updatePeerLastSeen key) = granted y s := by
  unfold grants granted Node.updatePeerLastSeen Config.updatePeerLastSeen
  rcases hk : s.conf.knownPeers.lookup key with _ | kp
  · exact ⟨rfl, rfl⟩
  · dsimp only
    rw [GoMap.lookup_insert_ite]
    split
    · next he =>
      subst he
      rw [hk]
      exact ⟨rfl, rfl⟩
    · exact ⟨rfl, rfl⟩

end

/-- What a node does between two changes of the settings, when it lets `y` use it if `v`, and
`y` lets it if `w`. Below `g` are the streams opened so far. -/
def permitting (y : ID) (N : ℕ) (v w : Bool) : Contract (Node ID) (Req ID) Resp Unit ℕ where
  inv _ _ s := Friendly y s ∧ grants y s = some v
  owed _ g
    | .sendStatus stream info => stream.sid < g ∧ info.declined = false ∧
      (N ≤ stream.sid → info.allowUsingAsExitNode = v)
    | .sendAuthResponse _ response => response.declined = false
    | _ => True
  allowed g
    | .newStream _ _, .stream sid => N ≤ sid ∧ sid < g
    | .receiveStatus stream, .status info =>
      info.declined = false ∧ (N ≤ stream.sid → info.allowUsingAsExitNode = w)
    | .receiveAuthResponse _, .authResponse response => response.declined = false
    | _, _ => True
  guar s s' _ := granted y s' = granted y s ∨ granted y s' = some w
  inv_mono _ h := h
  owed_mono {_ _ _ _ q} _ hg h := by
    cases q with
    | sendStatus stream info => exact ⟨h.1.trans_le hg, h.2⟩
    | _ => exact h
  guar_refl _ _ := Or.inl rfl

namespace Permission

variable {y : ID} {N g : ℕ} {v w : Bool} {env : Env}

lemma safe_done : (permitting y N v w).Safe (.done : Code (Node ID) (Req ID) Resp) () g := trivial

/-- A critical section that leaves the known and the blocked peers alone. -/
lemma safe_quiet {upd : Node ID → Node ID} {next : Node ID → Code (Node ID) (Req ID) Resp}
    (hk : ∀ s, (upd s).conf.knownPeers = s.conf.knownPeers)
    (hb : ∀ s, (upd s).conf.blockedPeers = s.conf.blockedPeers)
    (h : ∀ s, (permitting y N v w).Safe (next s) () g) :
    (permitting y N v w).Safe (.act upd next) () g := by
  have hlook : ∀ s, grants y (upd s) = grants y s ∧ granted y (upd s) = granted y s := by
    intro s
    unfold grants granted
    rw [hk s]
    exact ⟨rfl, rfl⟩
  exact safe_act (fun _ _ _ _ s _ => Or.inl (hlook s).2)
    (fun _ _ _ _ s hs => ⟨hs.1.of_eq (hk s) (hb s), (hlook s).1.trans hs.2⟩) h

/-- An operation that may be begun at any time, and whose answer says nothing. -/
lemma safe_block {q : Req ID} {next : Resp → Code (Node ID) (Req ID) Resp}
    (hq : (permitting y N v w).owed () g q) (h : ∀ r, (permitting y N v w).Safe (next r) () g) :
    (permitting y N v w).Safe (.ask q next) () g :=
  safe_ask hq fun _ hg r _ => (h r).mono (le_refl ()) hg

/-- The record of `y` is read. -/
lemma safe_record {next : Node ID → Code (Node ID) (Req ID) Resp}
    (h : ∀ g' ≥ g, ∀ s kp, Friendly y s → s.conf.getPeer (string y) = some kp →
      kp.peerID = string y → kp.weAllowUsingAsExitNode = v →
      (permitting y N v w).Safe (next s) () g') :
    (permitting y N v w).Safe (.act id next) () g := by
  refine safe_read fun _ _ g' hg s hs => ?_
  obtain ⟨kp, hkp, hv⟩ := grants_eq_some hs.2
  exact h g' hg s kp hs.1 hkp (hs.1.records _ kp hkp).2.1 hv

section

variable {k : Unit → Code (Node ID) (Req ID) Resp}

/-! ### Status exchange -/

/-- The record is written back with what the status says. -/
lemma safe_write (hk : (permitting y N v w).Safe (k ()) () g) {peer : KnownPeer}
    (hid : peer.peerID = string y) (hd : peer.declined = false)
    (hv : peer.weAllowUsingAsExitNode = v) (hw : peer.allowedUsingAsExitNode = w)
    (f : String → String) :
    (permitting y N v w).Safe (.act (Node.upsertPeer peer) fun _ =>
      .act (Node.setUsingPeerID f) fun _ => k ()) () g := by
  refine safe_act (fun _ _ _ _ s _ => Or.inr ?_) (fun _ _ _ _ s hs => ⟨?_, ?_⟩) fun _ =>
    safe_quiet (fun _ => rfl) (fun _ => rfl) fun _ => hk
  · rw [granted_upsertPeer hid, hw]
  · exact hs.1.upsertPeer hid hd
  · rw [grants_upsertPeer hid, hv]

lemma safe_process (hk : (permitting y N v w).Safe (k ()) () g) {peer : KnownPeer}
    (hid : peer.peerID = string y) (hv : peer.weAllowUsingAsExitNode = v)
    {info : PeerStatusInfo} (hd : info.declined = false) (hw : info.allowUsingAsExitNode = w) :
    (permitting y N v w).Safe (processPeerStatusInfo env peer info k) () g := by
  simp only [processPeerStatusInfo, bind_apply, read_apply, modify_apply, pure_apply,
    Go.ite_apply, hd, Bool.false_eq_true, if_false]
  refine safe_read fun _ _ g₁ hg₁ s _ => ?_
  have hk := hk.mono (le_refl ()) hg₁
  split
  · refine safe_read fun _ _ g₂ hg₂ _ _ => safe_write (hk.mono (le_refl ()) hg₂) ?_ rfl ?_ ?_ _
    · exact hid
    · exact hv
    · exact hw
  · refine safe_write hk ?_ rfl ?_ ?_ _
    · exact hid
    · exact hv
    · exact hw

lemma safe_finish (hk : (permitting y N v w).Safe (k ()) () g) {info : PeerStatusInfo}
    (hinfo : info.declined = false ∧ info.allowUsingAsExitNode = w) :
    (permitting y N v w).Safe (.act id fun s => processPeerStatusInfo env
      ((s.conf.getPeer (string y)).getD {}) info k) () g := by
  refine safe_record fun g' hg s kp _ hkp hid hv => ?_
  rw [hkp]
  exact safe_process (hk.mono (le_refl ()) hg) hid hv hinfo.1 hinfo.2

variable [DecidableEq ID]

lemma safe_exchange (hk : (permitting y N v w).Safe (k ()) () g) {peer : KnownPeer}
    (hv : peer.weAllowUsingAsExitNode = v) :
    (permitting y N v w).Safe (exchangeNewStatusInfo env y peer k) () g := by
  refine safe_quiet (fun _ => rfl) (fun _ => rfl) fun _ => safe_block trivial fun r => ?_
  cases r with
  | ok =>
    refine safe_ask trivial fun g₁ hg₁ r hr => ?_
    have hk := hk.mono (le_refl ()) hg₁
    cases r with
    | stream sid =>
      obtain ⟨hN, hsid⟩ := hr
      refine safe_read fun _ _ g₂ hg₂ s hs => safe_read fun _ _ g₃ hg₃ _ _ => ?_
      simp only [hs.1.not_blocked, createPeerInfo, Bool.false_eq_true, if_false]
      refine safe_read fun _ _ g₄ hg₄ _ _ => safe_block ?_ fun r => ?_
      · exact ⟨((hsid.trans_le hg₂).trans_le hg₃).trans_le hg₄, rfl, fun _ => hv⟩
      have hk := hk.mono (le_refl ()) ((hg₂.trans hg₃).trans hg₄)
      cases r with
      | ok =>
        refine safe_ask trivial fun g₅ hg₅ r hr => ?_
        have hk := hk.mono (le_refl ()) hg₅
        cases r with
        | status opposite => exact safe_finish hk ⟨hr.1, hr.2 hN⟩
        | _ => exact hk
      | _ => exact hk
    | _ => exact hk
  | _ => exact hk

lemma safe_statusStreamHandler {sid : ℕ} (hN : N ≤ sid) (hsid : sid < g) :
    (permitting y N v w).Safe (statusStreamHandler env ⟨y, sid, true, none⟩).code () g := by
  refine safe_record fun g₁ hg₁ s kp _ hkp _ hv => safe_read fun _ _ g₂ hg₂ s' hs' => ?_
  simp only [hkp, hs'.1.not_blocked, createPeerInfo, Option.isNone_some, Bool.false_and,
    Bool.false_eq_true, if_false]
  refine safe_ask trivial fun g₃ hg₃ r hr => ?_
  cases r with
  | status opposite =>
    refine safe_quiet (fun _ => rfl) (fun _ => rfl) fun _ => safe_read fun _ _ g₄ hg₄ _ _ =>
      safe_read fun _ _ g₅ hg₅ _ _ => safe_block ⟨?_, rfl, fun _ => hv⟩ fun _ => ?_
    · exact hsid.trans_le ((((hg₁.trans hg₂).trans hg₃).trans hg₄).trans hg₅)
    · exact safe_finish (k := fun _ => .done) safe_done ⟨hr.1, hr.2 hN⟩
  | _ => exact safe_done

/-! ### Auth requests -/

lemma safe_sendAuthRequest (hk : (permitting y N v w).Safe (k ()) () g) (peerID : ID)
    (req : AuthPeer) : (permitting y N v w).Safe (sendAuthRequest peerID req k) () g := by
  refine safe_quiet (fun _ => rfl) (fun _ => rfl) fun _ => safe_block trivial fun r => ?_
  cases r with
  | ok =>
    refine safe_block trivial fun r => ?_
    cases r with
    | stream sid =>
      refine safe_block trivial fun r => ?_
      cases r with
      | ok =>
        refine safe_ask trivial fun g₁ hg₁ r hr => ?_
        have hk := hk.mono (le_refl ()) hg₁
        cases r with
        | authResponse response =>
          obtain ⟨confirmed, declined⟩ := response
          replace hr : declined = false := hr
          subst hr
          cases confirmed with
          | false => exact hk
          | true => exact safe_quiet (fun _ => rfl) (fun _ => rfl) fun _ => hk
        | _ => exact hk
      | _ => exact hk
    | _ => exact hk
  | _ => exact hk

/-- The other node is known, so its request is answered and nothing else. -/
lemma safe_authStreamHandler (sid : ℕ) :
    (permitting y N v w).Safe (authStreamHandler env ⟨y, sid, true, none⟩).code () g := by
  refine safe_block trivial fun r => ?_
  cases r with
  | auth authPeer =>
    refine safe_read fun _ _ g₁ _ s hs => ?_
    have hb := hs.1.not_blocked (string y)
    refine safe_record fun g₂ _ s' kp _ hkp _ _ => safe_read fun _ _ g₃ _ _ _ => ?_
    simp only [hkp, hb, Option.isSome_some, Bool.not_true, Bool.false_and, Bool.false_eq_true,
      if_false]
    exact safe_block rfl fun _ => safe_done
  | _ => exact safe_done

/-! ### Calls -/

omit [DecidableEq ID] in
lemma safe_updatePeerLastSeen {next : Node ID → Code (Node ID) (Req ID) Resp} (key : String)
    (h : ∀ s, (permitting y N v w).Safe (next s) () g) :
    (permitting y N v w).Safe (.act (Node.updatePeerLastSeen key) next) () g := by
  refine safe_act (fun _ _ _ _ s _ => Or.inl (lookup_updatePeerLastSeen key).2)
    (fun _ _ _ _ s hs => ⟨⟨fun k' kp' hk' => ?_, ?_⟩, ?_⟩) h
  · unfold Node.updatePeerLastSeen Config.updatePeerLastSeen at hk'
    rcases hk : s.conf.knownPeers.lookup key with _ | kp
    · rw [hk] at hk'
      exact hs.1.records k' kp' hk'
    · simp only [hk, GoMap.lookup_insert_ite] at hk'
      split_ifs at hk' with he
      · cases hk'
        exact hs.1.records k' kp (he ▸ hk)
      · exact hs.1.records k' kp' hk'
  · have hb : (s.updatePeerLastSeen key).conf.blockedPeers = s.conf.blockedPeers := by
      unfold Node.updatePeerLastSeen Config.updatePeerLastSeen
      split <;> rfl
    rw [hb]
    exact hs.1.blocked
  · exact (lookup_updatePeerLastSeen key).1.trans hs.2

lemma safe_onPeerConnected (peerID : ID) :
    (permitting y N v w).Safe (onPeerConnected env peerID).code () g := by
  refine safe_read fun _ _ g₁ _ s₁ _ => safe_read fun _ _ g₂ _ s₂ hs₂ => ?_
  dsimp only
  rw [Go.ite_apply]
  split
  · exact safe_done
  refine safe_updatePeerLastSeen _ fun _ => ⟨?_, safe_done⟩
  cases hk : s₂.conf.getPeer (string peerID) with
  | some kp =>
    obtain ⟨hy, -⟩ := hs₂.1.records _ kp hk
    obtain rfl := string_inj hy
    obtain ⟨kp', hkp', hv⟩ := grants_eq_some hs₂.2
    cases hkp'.symm.trans hk
    have hexchange : (permitting peerID N v w).Safe
        (exchangeNewStatusInfo env peerID kp fun _ => .done) () g₂ := safe_exchange safe_done hv
    cases s₁.outgoingAuths.lookup peerID with
    | some auth => exact safe_sendAuthRequest hexchange peerID auth
    | none => exact hexchange
  | none =>
    cases s₁.outgoingAuths.lookup peerID with
    | some auth => exact safe_sendAuthRequest safe_done peerID auth
    | none => exact safe_done

lemma safe_exchangeAll (hz : y ≠ zero) (order : List String) :
    ∀ {g : ℕ}, (permitting y N v w).Safe (exchangeAll env order : Prog ID Unit).code () g := by
  induction order with
  | nil => exact safe_done
  | cons key order ih =>
    intro g
    refine safe_read fun _ _ g₁ _ s hs => ?_
    dsimp only
    cases hk : s.conf.getPeer key with
    | none => exact ih
    | some kp =>
      obtain ⟨rfl, hid, -⟩ := hs.1.records key kp hk
      obtain ⟨kp', hkp', hv⟩ := grants_eq_some hs.2
      cases hkp'.symm.trans hk
      have hy : kp.peerId = y := by
        rw [KnownPeer.peerId, hid, decode_string y hz, Option.getD_some]
      simp only [hy]
      exact safe_exchange ih hv

lemma safe_sendAll (auths : List (ID × AuthPeer)) :
    (permitting y N v w).Safe (sendAll auths).code () g := by
  induction auths with
  | nil => exact safe_done
  | cons e auths ih => exact safe_sendAuthRequest ih e.1 e.2

end

end Permission

/-- What starts exchanges, by itself or by a timer. -/
def Call.Exchanges : Call ID → Prop
  | .peerConnected _ | .peerDisconnected _ | .exchangeStatusInfo _ | .retryAuthRequests _ => True
  | _ => False

instance : (l : Call ID) → Decidable l.Exchanges
  | .peerConnected _ | .peerDisconnected _ | .exchangeStatusInfo _ | .retryAuthRequests _ =>
    instDecidableTrue
  | .sendFriendRequest _ | .acceptFriend _ | .removePeer _ | .updatePeerSettings _
  | .authStream _ _ _ | .statusStream _ _ _ => instDecidableFalse

def Call.ChangesSettings : Call ID → Prop
  | .updatePeerSettings _ => True
  | _ => False

instance : (l : Call ID) → Decidable l.ChangesSettings
  | .updatePeerSettings _ => instDecidableTrue
  | .sendFriendRequest _ | .acceptFriend _ | .removePeer _ | .peerConnected _
  | .peerDisconnected _ | .exchangeStatusInfo _ | .retryAuthRequests _
  | .authStream _ _ _ | .statusStream _ _ _ => instDecidableFalse

namespace Permission

variable [DecidableEq ID] {y : ID} {N g : ℕ} {v w : Bool} {env : Env}

lemma safe_call (hz : y ≠ zero) {l : Call ID} (hl : l.Exchanges) :
    (permitting y N v w).Safe (l.code env) () g := by
  cases l with
  | peerConnected peerID => exact safe_onPeerConnected peerID
  | peerDisconnected peerID =>
    refine safe_read fun _ _ _ _ s _ => ?_
    dsimp only
    rw [Go.ite_apply]
    split
    · exact safe_done
    · exact safe_updatePeerLastSeen _ fun _ => safe_done
  | exchangeStatusInfo order => exact safe_read fun _ _ _ _ _ _ => safe_exchangeAll hz _
  | retryAuthRequests order => exact safe_read fun _ _ _ _ _ _ => safe_sendAll _
  | _ => exact hl.elim

/-! ### The new permission arrives -/

/-- What `y` says on the streams from `N` on, that it lets the node use it if `w`, gets into
the record. -/
def taking (y : ID) (N : ℕ) (w : Bool) : Goal (Node ID) (Req ID) Resp where
  inv s := Friendly y s ∧ Knows y s
  answers
    | .receiveStatus stream, r => stream.inbound = true →
      ∃ info : PeerStatusInfo, info.declined = false ∧ r = .status info ∧
        (N ≤ stream.sid → info.allowUsingAsExitNode = w)
    | _, _ => True
  made s := granted y s = some w
  waits _ _ := False
  handoff := False

omit [DecidableEq ID] in
lemma taking_process {k : Unit → Code (Node ID) (Req ID) Resp} {peer : KnownPeer}
    (hid : peer.peerID = string y) {info : PeerStatusInfo} (hd : info.declined = false)
    (hw : info.allowUsingAsExitNode = w) :
    (taking y N w).Leads (processPeerStatusInfo env peer info k) := by
  have hwrite : ∀ (peer' : KnownPeer) (next : Node ID → Code (Node ID) (Req ID) Resp),
      peer'.peerID = peer.peerID → peer'.allowedUsingAsExitNode = w →
      (taking y N w).Leads (.act (Node.upsertPeer peer') next) := by
    intro peer' next hid' hw' s _
    left
    change granted y (s.upsertPeer peer') = some w
    rw [granted_upsertPeer (hid'.trans hid), hw']
  simp only [processPeerStatusInfo, bind_apply, read_apply, modify_apply, pure_apply,
    Go.ite_apply, hd, Bool.false_eq_true, if_false]
  refine leads_act fun s _ => ?_
  split
  · refine leads_act fun _ _ => hwrite _ _ ?_ ?_
    · rfl
    · exact hw
  · refine hwrite _ _ ?_ ?_
    · rfl
    · exact hw

/-- The handler of a status stream takes up what it hears. -/
lemma taking_statusStreamHandler {sid : ℕ} (hN : N ≤ sid) :
    (taking y N w).Leads (statusStreamHandler env ⟨y, sid, true, none⟩).code := by
  refine leads_act fun s hs => leads_act fun s' hs' => ?_
  obtain ⟨kp, hkp⟩ := Finmap.mem_iff.mp hs.2
  have hknown : s.conf.getPeer (string y) = some kp := hkp
  simp only [hknown, hs'.1.not_blocked, createPeerInfo, Option.isNone_some, Bool.false_and,
    Bool.false_eq_true, if_false]
  refine leads_ask fun r hr => ?_
  obtain ⟨opposite, hd, rfl, hw⟩ := hr rfl
  refine leads_act fun _ _ => leads_act fun _ _ => leads_act fun _ _ => leads_ask fun _ _ =>
    leads_act fun s hs => ?_
  obtain ⟨kp, hkp⟩ := Finmap.mem_iff.mp hs.2
  have hknown : s.conf.getPeer (string y) = some kp := hkp
  simp only [hknown, Option.getD_some]
  exact taking_process (hs.1.records _ kp hkp).2.1 hd (hw hN)

end Permission

end Awl
