import Awl.Duties
import Awl.Calls

/-!
Requests that have not been answered yet.

A known peer that has neither confirmed nor declined is to be asked again, in each round of
`BackgroundRetryAuthRequests`. For that it has to be among the outgoing requests. `AddPeer` does not
put it there, but the goroutine it starts does; a restart does for all such peers; and an entry is
taken out only when the peer answers its request, or opens a status stream of its own. A stale
record that is written back may bring back a peer that has been removed; its entry is there still.
-/

namespace Awl

open Text PeerCodec Go AuthStatus Duty

variable {ID : Type} [PeerCodec ID]

/-- `y` is known, and has neither confirmed nor declined. -/
def Config.Unanswered (y : ID) (c : Config) : Prop :=
  ∃ kp, c.getPeer (string y) = some kp ∧ kp.confirmed = false ∧ kp.declined = false

/-- Every record stands under its own ID. -/
def Config.UnderOwnIDs (c : Config) : Prop :=
  ∀ k kp, c.knownPeers.lookup k = some kp → kp.peerID = k

/-- What takes the entry of `y` out of the outgoing requests: it answers the request, or opens a
status stream. -/
def AnswerOf (y : ID) : Req ID → Resp → Prop
  | .receiveAuthResponse stream, .authResponse response =>
    stream.remote = y ∧ (response.confirmed || response.declined) = true
  | .receiveStatus stream, .status _ => stream.remote = y ∧ stream.inbound = true
  | _, _ => False

instance [DecidableEq ID] (y : ID) (q : Req ID) (r : Resp) : Decidable (AnswerOf y q r) :=
  match q, r with
  | .receiveAuthResponse .., .authResponse .. | .receiveStatus .., .status .. => instDecidableAnd
  | .receiveAuthResponse .., .error | .receiveAuthResponse .., .ok
  | .receiveAuthResponse .., .stream .. | .receiveAuthResponse .., .status ..
  | .receiveAuthResponse .., .auth ..
  | .receiveStatus .., .error | .receiveStatus .., .ok | .receiveStatus .., .stream ..
  | .receiveStatus .., .auth .. | .receiveStatus .., .authResponse ..
  | .connectPeer .., _ | .newStream .., _ | .sendStatus .., _ | .sendAuth .., _
  | .receiveAuth .., _ | .sendAuthResponse .., _ => instDecidableFalse

/-- The duty to ask `y` again. -/
def asking (y : ID) : Duty (Node ID) (Req ID) Resp where
  inv s := s.conf.UnderOwnIDs ∧ s.disk.UnderOwnIDs
  answers q r := ¬ AnswerOf y q r
  due s := s.conf.Unanswered y
  met s := y ∈ s.outgoingAuths

/-! ### Critical sections -/

lemma Config.UnderOwnIDs.upsertPeer {c : Config} (h : c.UnderOwnIDs) (peer : KnownPeer) :
    (c.upsertPeer peer).UnderOwnIDs := by
  intro k kp hk
  replace hk : (c.knownPeers.insert peer.peerID peer).lookup k = some kp := hk
  rw [GoMap.lookup_insert_ite] at hk
  split_ifs at hk with he
  · cases hk
    exact he.symm
  · exact h k kp hk

lemma Config.UnderOwnIDs.removePeer {c : Config} (h : c.UnderOwnIDs) (key : String) :
    (c.removePeer key).UnderOwnIDs := by
  intro k kp hk
  replace hk : (c.knownPeers.erase key).lookup k = some kp := hk
  rw [GoMap.lookup_erase_ite] at hk
  split_ifs at hk
  exact h k kp hk

lemma Config.UnderOwnIDs.updatePeerLastSeen {c : Config} (h : c.UnderOwnIDs) (key : String)
    (now : ℕ) : (c.updatePeerLastSeen key now).UnderOwnIDs := by
  unfold Config.updatePeerLastSeen
  split
  · next kp hkp =>
    intro k kp' hk
    rw [GoMap.lookup_insert_ite] at hk
    split_ifs at hk with he
    · cases hk
      exact (h key kp hkp).trans he.symm
    · exact h k kp' hk
  · exact h

lemma Config.unanswered_upsertPeer {y : ID} {c : Config} {peer : KnownPeer}
    (h : (c.upsertPeer peer).Unanswered y) :
    c.Unanswered y ∨ (peer.peerID = string y ∧ peer.confirmed = false ∧ peer.declined = false) := by
  obtain ⟨kp, hk, hflags⟩ := h
  replace hk : (c.knownPeers.insert peer.peerID peer).lookup (string y) = some kp := hk
  rw [GoMap.lookup_insert_ite] at hk
  split_ifs at hk with he
  · cases hk
    exact Or.inr ⟨he.symm, hflags⟩
  · exact Or.inl ⟨kp, hk, hflags⟩

lemma Config.unanswered_removePeer {y : ID} {c : Config} {key : String}
    (h : (c.removePeer key).Unanswered y) : c.Unanswered y := by
  obtain ⟨kp, hk, hflags⟩ := h
  replace hk : (c.knownPeers.erase key).lookup (string y) = some kp := hk
  rw [GoMap.lookup_erase_ite] at hk
  split_ifs at hk
  exact ⟨kp, hk, hflags⟩

lemma Config.unanswered_updatePeerLastSeen {y : ID} {c : Config} {key : String} {now : ℕ}
    (h : (c.updatePeerLastSeen key now).Unanswered y) : c.Unanswered y := by
  unfold Config.updatePeerLastSeen at h
  split at h
  · next kp hkp =>
    obtain ⟨kp', hk, hflags⟩ := h
    replace hk : (c.knownPeers.insert key _).lookup (string y) = some kp' := hk
    rw [GoMap.lookup_insert_ite] at hk
    split_ifs at hk with he
    · cases hk
      exact ⟨kp, he ▸ hkp, hflags⟩
    · exact ⟨kp', hk, hflags⟩
  · exact h

variable {y : ID}

/-- An update that neither leaves `y` unanswered nor forgets its entry. -/
structure Harmless (y : ID) (upd : Node ID → Node ID) : Prop where
  inv : ∀ s, (asking y).inv s → (asking y).inv (upd s)
  met : ∀ s, (asking y).met s → (asking y).met (upd s)
  due : ∀ s, (asking y).due (upd s) → (asking y).due s

namespace Harmless

lemma of_eq {upd : Node ID → Node ID}
    (hconf : ∀ s, (upd s).conf.knownPeers = s.conf.knownPeers)
    (hdisk : ∀ s, (upd s).disk.knownPeers = s.disk.knownPeers ∨
      (upd s).disk.knownPeers = s.conf.knownPeers)
    (hout : ∀ s, y ∈ s.outgoingAuths → y ∈ (upd s).outgoingAuths) : Harmless y upd where
  inv s hs := by
    refine ⟨fun k kp hk => hs.1 k kp (hconf s ▸ hk), fun k kp hk => ?_⟩
    rcases hdisk s with hd | hd
    · exact hs.2 k kp (hd ▸ hk)
    · exact hs.1 k kp (hd ▸ hk)
  met := hout
  due s hdue := by
    obtain ⟨kp, hk, hflags⟩ := hdue
    exact ⟨kp, by rw [Config.getPeer, ← hconf s]; exact hk, hflags⟩

lemma upsertPeer {peer : KnownPeer}
    (h : peer.confirmed = true ∨ peer.declined = true ∨ peer.peerID ≠ string y) :
    Harmless y (Node.upsertPeer peer) where
  inv _ hs := ⟨hs.1.upsertPeer peer, hs.1.upsertPeer peer⟩
  met _ hs := hs
  due s hdue := by
    refine (Config.unanswered_upsertPeer hdue).resolve_right fun hnew => ?_
    rcases h with h | h | h
    · exact Bool.false_ne_true (hnew.2.1.symm.trans h)
    · exact Bool.false_ne_true (hnew.2.2.symm.trans h)
    · exact h hnew.1

lemma removePeer (key : String) : Harmless y (Node.removePeer key) where
  inv s hs := by
    unfold Node.removePeer
    split
    · exact ⟨hs.1.removePeer key, hs.1.removePeer key⟩
    · exact hs
  met s hs := by
    unfold Node.removePeer
    split <;> exact hs
  due s hdue := by
    unfold Node.removePeer at hdue
    split at hdue
    · exact Config.unanswered_removePeer hdue
    · exact hdue

lemma updatePeerLastSeen (key : String) : Harmless y (Node.updatePeerLastSeen key) where
  inv s hs := ⟨hs.1.updatePeerLastSeen key s.now, hs.2⟩
  met _ hs := hs
  due _ hdue := Config.unanswered_updatePeerLastSeen hdue

lemma upsertBlockedPeer (key name : String) : Harmless y (Node.upsertBlockedPeer key name) :=
  of_eq (fun _ => rfl) (fun _ => Or.inr rfl) fun _ h => h

lemma removeBlockedPeer (peerID : ID) : Harmless y (Node.removeBlockedPeer peerID) := by
  refine of_eq (fun s => ?_) (fun s => ?_) fun s h => ?_
  · unfold Node.removeBlockedPeer
    dsimp only
    split <;> rfl
  · unfold Node.removeBlockedPeer
    dsimp only
    split
    · exact Or.inr rfl
    · exact Or.inl rfl
  · unfold Node.removeBlockedPeer
    dsimp only
    split
    · exact h
    · exact h

lemma setUsingPeerID (f : String → String) : Harmless y (Node.setUsingPeerID f) :=
  of_eq (fun _ => rfl) (fun _ => Or.inl rfl) fun _ h => h

lemma ingoing (f : GoMap ID AuthPeer → GoMap ID AuthPeer) :
    Harmless y (fun s : Node ID => { s with ingoingAuths := f s.ingoingAuths }) :=
  of_eq (fun _ => rfl) (fun _ => Or.inl rfl) fun _ h => h

variable [DecidableEq ID]

lemma insertOutgoing (peerID : ID) (req : AuthPeer) :
    Harmless y (fun s : Node ID => { s with outgoingAuths := s.outgoingAuths.insert peerID req }) :=
  of_eq (fun _ => rfl) (fun _ => Or.inl rfl) fun _ h => Finmap.mem_insert.mpr (Or.inr h)

lemma eraseOutgoing {peerID : ID} (h : peerID ≠ y) :
    Harmless y (fun s : Node ID => { s with outgoingAuths := s.outgoingAuths.erase peerID }) :=
  of_eq (fun _ => rfl) (fun _ => Or.inl rfl) fun _ hy => Finmap.mem_erase.mpr ⟨h.symm, hy⟩

end Harmless

lemma minds_harmless {known : Prop} {upd : Node ID → Node ID}
    {next : Node ID → Code (Node ID) (Req ID) Resp} (hupd : Harmless y upd)
    (h : ∀ s, (asking y).Minds (next s) known) : (asking y).Minds (.act upd next) known :=
  minds_act hupd.inv hupd.met (fun s _ hdue => Or.inr (hupd.due s hdue)) fun s _ => h s

/-- What is read does not matter. -/
lemma minds_skip {known : Prop} {next : Node ID → Code (Node ID) (Req ID) Resp}
    (h : ∀ s, (asking y).Minds (next s) known) : (asking y).Minds (.act id next) known :=
  minds_read fun s _ => (h s).mono Or.inl

/-! ### Status exchange -/

section

variable {known : Prop} {env : Env} {k : Unit → Code (Node ID) (Req ID) Resp}

lemma minds_processPeerStatusInfo (hk : (asking y).Minds (k ()) known) (peer : KnownPeer)
    (info : PeerStatusInfo) :
    (asking y).Minds (processPeerStatusInfo env peer info k) known := by
  have hwrite : ∀ (peer' : KnownPeer) (f : String → String),
      peer'.confirmed = true ∨ peer'.declined = true →
      (asking y).Minds (.act (Node.upsertPeer peer') fun _ =>
        .act (Node.setUsingPeerID f) fun _ => k ()) known := fun peer' f hflag =>
    minds_harmless (.upsertPeer (hflag.imp_right Or.inl)) fun _ =>
      minds_harmless (.setUsingPeerID f) fun _ => hk
  simp only [processPeerStatusInfo, bind_apply, read_apply, modify_apply, Go.ite_apply, pure_apply]
  refine minds_skip fun s => ?_
  by_cases hd : info.declined = true
  · rw [if_pos hd]
    exact hwrite _ _ (Or.inr rfl)
  · rw [if_neg hd]
    split
    · exact minds_skip fun _ => hwrite _ _ (Or.inl rfl)
    · exact hwrite _ _ (Or.inl rfl)

lemma minds_createPeerInfo {k : PeerStatusInfo → Code (Node ID) (Req ID) Resp}
    (hk : ∀ info, (asking y).Minds (k info) known) (peer : KnownPeer) (name : String)
    (declined : Bool) : (asking y).Minds (createPeerInfo peer name declined k) known := by
  cases declined with
  | true => exact hk _
  | false => exact minds_skip fun _ => hk _

variable [DecidableEq ID]

lemma minds_statusStreamHandler (remote : ID) (sid : ℕ) :
    (asking y).Minds (statusStreamHandler env ⟨remote, sid, true, none⟩).code known := by
  refine minds_skip fun s₁ => minds_skip fun s₂ => ?_
  dsimp only
  rw [Go.ite_apply]
  split
  · exact minds_done
  · intro r hr
    cases r with
    | status info =>
      have hne : remote ≠ y := fun he => hr ⟨he, rfl⟩
      refine minds_harmless (.eraseOutgoing hne) fun _ => minds_skip fun _ => ?_
      refine minds_createPeerInfo (fun myInfo => ?_) _ _ _
      intro r _
      dsimp only
      rw [Go.ite_apply]
      split
      · exact minds_done
      · exact minds_skip fun _ => minds_processPeerStatusInfo minds_done _ _
    | _ => exact minds_done

lemma minds_exchangeNewStatusInfo (hk : (asking y).Minds (k ()) known) (peerID : ID)
    (peer : KnownPeer) : (asking y).Minds (exchangeNewStatusInfo env peerID peer k) known := by
  refine minds_harmless (.ingoing _) fun _ => fun r _ => ?_
  cases r with
  | ok =>
    intro r _
    cases r with
    | stream sid =>
      refine minds_skip fun _ => minds_skip fun _ => ?_
      refine minds_createPeerInfo (fun myInfo => ?_) _ _ _
      intro r _
      cases r with
      | ok =>
        intro r _
        cases r with
        | status info =>
          dsimp only
          rw [Go.ite_apply]
          split
          · exact hk
          · exact minds_skip fun _ => minds_processPeerStatusInfo hk _ _
        | _ => exact hk
      | _ => exact hk
    | _ => exact hk
  | _ => exact hk

lemma minds_blockPeer (hk : (asking y).Minds (k ()) known) (peerID : ID) (name : String) :
    (asking y).Minds (blockPeer env peerID name k) known :=
  minds_harmless (.upsertBlockedPeer _ _) fun _ =>
    ⟨minds_exchangeNewStatusInfo (k := fun _ => .done) minds_done _ _, hk⟩

/-! ### Auth requests -/

/-- The entry of `y` is taken out only if `y` has answered. -/
lemma minds_sendAuthRequest (hk : (asking y).Minds (k ()) known) (peerID : ID) (req : AuthPeer) :
    (asking y).Minds (sendAuthRequest peerID req k) known := by
  refine minds_harmless (.insertOutgoing peerID req) fun _ => fun r _ => ?_
  cases r with
  | ok =>
    intro r _
    cases r with
    | stream sid =>
      intro r _
      cases r with
      | ok =>
        intro r hr
        cases r with
        | authResponse response =>
          obtain ⟨confirmed, declined⟩ := response
          have hne : (confirmed || declined) = true → peerID ≠ y := fun hflag he => hr ⟨he, hflag⟩
          cases declined with
          | false =>
            cases confirmed with
            | false => exact hk
            | true => exact minds_harmless (.eraseOutgoing (hne rfl)) fun _ => hk
          | true =>
            simp only [Bool.or_true, if_true, bind_apply, modify_apply, read_apply]
            refine minds_harmless (.eraseOutgoing (hne (Bool.or_true _))) fun _ =>
              minds_skip fun s => ?_
            cases s.conf.getPeer (string peerID) with
            | some kp => exact minds_harmless (.upsertPeer (Or.inr (Or.inl rfl))) fun _ => hk
            | none => exact hk
        | _ => exact hk
      | _ => exact hk
    | _ => exact hk
  | _ => exact hk

lemma minds_introduce (peerID : ID) (confirmed : Bool) :
    (asking y).Minds (introduce env peerID confirmed).code known := by
  have hexchange : (asking y).Minds (.act id fun s : Node ID =>
      exchangeNewStatusInfo env peerID ((s.conf.getPeer (string peerID)).getD {}) fun _ => .done)
      known :=
    minds_skip fun _ => minds_exchangeNewStatusInfo minds_done _ _
  cases confirmed with
  | true => exact hexchange
  | false => exact minds_skip fun _ => minds_sendAuthRequest hexchange _ _

/-- The goroutine of `AddPeer` notes the request before it does anything else. -/
lemma leads_introduce : (asking y).goal.Leads (introduce env y false).code :=
  Goal.leads_act fun _ _ _ _ => Or.inl (Finmap.mem_insert.mpr (Or.inl rfl))

lemma minds_addPeer {k : Except AddPeerError Unit → Code (Node ID) (Req ID) Resp}
    (hk : ∀ r, (asking y).Minds (k r) known) (peerID : ID) (confirmed : Bool)
    (name peerAlias ipAddr : String) :
    (asking y).Minds (addPeer env peerID name peerAlias confirmed ipAddr k) known := by
  simp only [addPeer, bind_apply, read_apply, pure_apply, Go.ite_apply]
  refine minds_skip fun s => ?_
  split
  · exact hk _
  refine minds_skip fun s => ?_
  split
  · exact hk _
  refine minds_skip fun s => ?_
  cases chooseIP s.conf (string peerID) ipAddr with
  | error e => exact hk _
  | ok ip =>
    refine minds_skip fun s => minds_harmless (.removeBlockedPeer peerID) fun _ => ?_
    by_cases hnew : confirmed = false ∧ peerID = y
    · -- here the request becomes due, and the goroutine that is started makes it
      obtain ⟨rfl, rfl⟩ := hnew
      refine minds_lead (fun s hs => ⟨hs.1.upsertPeer _, hs.1.upsertPeer _⟩) (fun s hs => hs)
        (fun _ _ => Or.inl ⟨trivial, leads_introduce⟩) fun _ _ =>
          ⟨minds_introduce _ _, (hk _).mono fun _ => trivial⟩
    · refine minds_harmless (.upsertPeer ?_) fun _ => ⟨minds_introduce _ _, hk _⟩
      rcases Bool.eq_false_or_eq_true confirmed with hc | hc
      · exact Or.inl hc
      · exact Or.inr (Or.inr fun hid => hnew ⟨hc, string_inj hid⟩)

lemma minds_authStreamHandler (stream : Stream ID) :
    (asking y).Minds (authStreamHandler env stream).code known := by
  intro r _
  cases r with
  | auth authPeer =>
    refine minds_skip fun s₁ => minds_skip fun s₂ => minds_skip fun s₃ => ?_
    have hrest : (asking y).Minds (.ask (.sendAuthResponse stream
        ⟨(s₂.conf.getPeer (string stream.remote)).isSome,
          (s₁.conf.getBlockedPeer (string stream.remote)).isSome⟩) fun _ =>
        (if !(s₂.conf.getPeer (string stream.remote)).isSome &&
            !(s₁.conf.getBlockedPeer (string stream.remote)).isSome &&
            s₃.conf.p2pNode.autoAcceptAuthRequests then do
          let peerAlias ← read fun s => (Config.genUniqPeerAlias s.conf.aliases authPeer.name "").1
          let _ ← addPeer env stream.remote authPeer.name peerAlias true ""
        else pure () : Prog ID Unit) fun _ => .done) known := by
      intro r _
      rw [Go.ite_apply]
      split
      · exact minds_skip fun _ => minds_addPeer (fun _ => minds_done) _ _ _ _ _
      · exact minds_done
    dsimp only
    rw [Go.ite_apply]
    split
    · exact minds_harmless (.ingoing _) fun _ => hrest
    · exact hrest
  | _ => exact minds_done

/-! ### Calls -/

lemma minds_updatePeerSettings (req : UpdatePeerSettingsRequest) :
    (asking y).Minds (Api.updatePeerSettings env req : Prog ID Answer).code known := by
  simp only [Api.updatePeerSettings, Go.code, Go.ite_apply, bind_apply, read_apply, pure_apply]
  split
  · exact minds_done
  split
  · exact minds_done
  refine minds_read fun s hs => ?_
  rcases hkp : s.conf.getPeer req.peerID with _ | kp
  · exact minds_done
  -- the record that is written back was unanswered when it was read
  have hstale : kp.peerID = string y → kp.confirmed = false → kp.declined = false →
      s.conf.Unanswered y := fun hid hc hd =>
    ⟨kp, by rw [← hid, hs.1 req.peerID kp hkp, hkp], hc, hd⟩
  simp only [bind_apply, read_apply, Go.ite_apply, pure_apply, locked_apply, spawn_apply]
  refine minds_skip fun s' => ?_
  split
  · exact minds_done
  obtain ⟨hid, hdeclined, -, hconfirmed, -⟩ := Api.withSettings_kept kp req
  refine minds_act (fun t ht => ?_) (fun t ht => ?_) (fun t _ hdue => ?_) fun t _ => ?_
  · split
    · exact ⟨ht.1.upsertPeer _, ht.1.upsertPeer _⟩
    · exact ht
  · split <;> exact ht
  · split at hdue
    · rcases Config.unanswered_upsertPeer hdue with hold | ⟨hid', hc, hd⟩
      · exact Or.inr hold
      · exact Or.inl (Or.inr (hstale (hid ▸ hid') (hconfirmed ▸ hc) (hdeclined ▸ hd)))
    · exact Or.inr hdue
  · split
    · exact minds_done
    · exact ⟨minds_exchangeNewStatusInfo (k := fun _ => .done) minds_done _ _, minds_done⟩

lemma minds_removePeer (req : PeerIDRequest) :
    (asking y).Minds (Api.removePeer env req : Prog ID Answer).code known := by
  simp only [Api.removePeer, Go.code, Go.ite_apply]
  split
  · exact minds_done
  cases (decode req.peerID : Option ID) with
  | none => exact minds_done
  | some peerID =>
    refine minds_harmless (.removePeer _) fun s => ?_
    dsimp only
    cases s.conf.getPeer req.peerID with
    | none => exact minds_done
    | some kp => exact minds_blockPeer (k := fun _ => .done) minds_done _ _

lemma minds_acceptFriend (req : FriendRequestReply) :
    (asking y).Minds (Api.acceptFriend env req : Prog ID Answer).code known := by
  simp only [Api.acceptFriend, Go.code, Go.ite_apply]
  split
  · exact minds_done
  cases (decode req.peerID : Option ID) with
  | none => exact minds_done
  | some peerID =>
    simp only [bind_apply, read_apply, Go.ite_apply]
    refine minds_skip fun s => ?_
    split
    · exact minds_done
    refine minds_skip fun s => ?_
    cases s.getIngoingAuthRequests.lookup req.peerID with
    | none => exact minds_done
    | some auth =>
      dsimp only
      rw [Go.ite_apply]
      split
      · exact minds_blockPeer minds_done _ _
      · exact minds_addPeer (fun _ => minds_done) _ _ _ _ _

lemma minds_sendFriendRequest (req : FriendRequest) :
    (asking y).Minds (Api.sendFriendRequest env req : Prog ID Answer).code known := by
  simp only [Api.sendFriendRequest, Go.code, Go.ite_apply]
  split
  · exact minds_done
  cases (decode req.peerID : Option ID) with
  | none => exact minds_done
  | some peerID =>
    simp only [bind_apply, read_apply, Go.ite_apply]
    refine minds_skip fun s => ?_
    split
    · exact minds_done
    · exact minds_addPeer (fun _ => minds_done) _ _ _ _ _

lemma minds_onPeerConnected (peerID : ID) :
    (asking y).Minds (onPeerConnected env peerID).code known := by
  refine minds_skip fun s => minds_skip fun s' => ?_
  dsimp only
  rw [Go.ite_apply]
  split
  · exact minds_done
  refine minds_harmless (.updatePeerLastSeen _) fun _ => ⟨?_, minds_done⟩
  cases s'.conf.getPeer (string peerID) with
  | some kp =>
    have hexchange : (asking y).Minds (exchangeNewStatusInfo env peerID kp fun _ => .done) known :=
      minds_exchangeNewStatusInfo minds_done _ _
    cases s.outgoingAuths.lookup peerID with
    | some auth => exact minds_sendAuthRequest hexchange _ _
    | none => exact hexchange
  | none =>
    cases s.outgoingAuths.lookup peerID with
    | some auth => exact minds_sendAuthRequest minds_done _ _
    | none => exact minds_done

omit [DecidableEq ID] in
lemma minds_onPeerDisconnected (peerID : ID) :
    (asking y).Minds (onPeerDisconnected peerID).code known := by
  refine minds_skip fun s => ?_
  dsimp only
  rw [Go.ite_apply]
  split
  · exact minds_done
  · exact minds_harmless (.updatePeerLastSeen _) fun _ => minds_done

lemma minds_exchangeAll (peers : List String) :
    (asking y).Minds (exchangeAll env peers : Prog ID Unit).code known := by
  induction peers with
  | nil => exact minds_done
  | cons key peers ih =>
    refine minds_skip fun s => ?_
    dsimp only
    cases s.conf.getPeer key with
    | none => exact ih
    | some kp =>
      exact minds_exchangeNewStatusInfo (k := fun _ => (exchangeAll env peers).code) ih _ _

lemma minds_sendAll (auths : List (ID × AuthPeer)) :
    (asking y).Minds (sendAll auths).code known := by
  induction auths with
  | nil => exact minds_done
  | cons e auths ih => exact minds_sendAuthRequest ih _ _

/-- **Everything that is started on a node** minds the duty to ask `y` again. -/
lemma minds_call (l : Call ID) : (asking y).Minds (l.code env) known := by
  cases l with
  | sendFriendRequest req => exact minds_sendFriendRequest req
  | acceptFriend req => exact minds_acceptFriend req
  | removePeer req => exact minds_removePeer req
  | updatePeerSettings req => exact minds_updatePeerSettings req
  | authStream remote _ sid => exact minds_authStreamHandler _
  | statusStream remote _ sid => exact minds_statusStreamHandler remote sid
  | peerConnected peerID => exact minds_onPeerConnected peerID
  | peerDisconnected peerID => exact minds_onPeerDisconnected peerID
  | exchangeStatusInfo order => exact minds_skip fun s => minds_exchangeAll _
  | retryAuthRequests order => exact minds_skip fun s => minds_sendAll _

end

end Awl
