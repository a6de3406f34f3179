import Awl.Addresses
import Awl.RaceThreads
import Awl.Records

/-!
One request for new settings of a peer and one status exchange with it, interleaved at every
critical section.

Both copy the record of the peer, and write the whole record back in a later critical section.
Unless one of them has written before the other makes its copy, what was written first is lost.
-/

namespace Awl

open PeerCodec Text AuthStatus

variable {ID : Type} [PeerCodec ID]

/-! ### The two goroutines -/

/-- The request, as a transaction on the record. -/
def settingsTx (req : UpdatePeerSettingsRequest) : Tx KnownPeer :=
  .readWrite (fun kp => Api.withSettings kp req) 0 1 1

instance : Inhabited Resp := ⟨.ok⟩

variable {env : Env} {net : Req ID → Resp} {req : UpdatePeerSettingsRequest}
  {info : PeerStatusInfo} {s₀ : Node ID} {kp : KnownPeer} {key : String}

lemma implements_settings [DecidableEq ID] (hid : kp.peerID = req.peerID)
    (hacc : Api.Accepts env s₀.conf req kp) :
    Implements net (Undisturbed req.peerID s₀) (record req.peerID) (settingsTx req)
      (Api.updatePeerSettings env req).code := by
  simp only [Api.updatePeerSettings, Go.code, hacc.valid, hacc.domain, Bool.not_true,
    Bool.false_eq_true, if_false, Go.bind_apply, Go.read_apply]
  refine .read fun s hs => ?_
  simp only [hs.getPeer, Go.bind_apply, Go.read_apply]
  refine .skip fun s₁ hs₁ => ?_
  simp only [(hs₁.accepts hid hacc).uniq, Bool.not_true, Bool.false_eq_true, if_false,
    Go.bind_apply, Go.locked_apply]
  refine .write fun s₂ hs₂ => ?_
  have hip : s₂.conf.checkIPUnique req.ipAddr (record req.peerID s).peerID = .ok := by
    rw [hs.peerID, ← hs₂.peerID]
    exact (hs₂.accepts hid hacc).ip
  obtain ⟨hframe, hrec⟩ := hs₂.upsertPeer (Api.withSettings (record req.peerID s) req) hs.peerID
  simp only [hip, if_true, ne_eq, not_true_eq_false, if_false, Go.bind_apply, Go.spawn_apply]
  exact ⟨hframe, hrec, .fork rfl⟩

/-- What a status makes of the copy `kp`, if the record is `c` when an alias is looked for. -/
def statusRecord (env : Env) (s₀ : Node ID) (key : String) (info : PeerStatusInfo)
    (kp c : KnownPeer) : KnownPeer :=
  recorded env (insert c.peerAlias (s₀.conf.removePeer key).aliases) s₀.now info kp

/-- The status looks for an alias. -/
def needsAlias (info : PeerStatusInfo) (kp : KnownPeer) : Bool :=
  !info.declined && kp.peerAlias = ""

omit [PeerCodec ID] in
/-- After the copy has been made. -/
lemma implements_process (hid : kp.peerID = key) :
    Implements net (Undisturbed key s₀) (record key)
      (.quiet (if needsAlias info kp then
          .consult fun c => .write (statusRecord env s₀ key info kp c) (.quiet .done)
        else .write (statusRecord env s₀ key info kp kp) (.quiet .done)))
      (processPeerStatusInfo env kp info).code := by
  have hend : ∀ (f : String → String), Implements net (Undisturbed key s₀) (record key)
      (.quiet .done) (.act (Node.setUsingPeerID f) fun _ => (.done : Code _ (Req ID) Resp)) :=
    fun f => .act fun s hs => by
      obtain ⟨hframe, hrec⟩ := hs.of_eq (s.setUsingPeerID f) rfl rfl rfl rfl
      exact ⟨hframe, hrec, rfl⟩
  have hwrite : ∀ (c kp' : KnownPeer) (f : String → String),
      kp' = statusRecord env s₀ key info kp c →
      Implements net (Undisturbed key s₀) (record key)
        (.write (statusRecord env s₀ key info kp c) (.quiet .done))
        (.act (Node.upsertPeer kp') fun _ => .act (Node.setUsingPeerID f) fun _ => .done) := by
    rintro c kp' f rfl
    refine .write fun s hs => ?_
    obtain ⟨hframe, hrec⟩ := hs.upsertPeer (statusRecord env s₀ key info kp c)
      (recorded_peerID.trans hid)
    exact ⟨hframe, hrec, hend f⟩
  simp only [processPeerStatusInfo, Go.code, Go.bind_apply, Go.read_apply]
  refine .skip fun s hs => ?_
  rw [Go.ite_apply]
  by_cases hd : info.declined = true
  · have hlook : needsAlias info kp = false := by simp [needsAlias, hd]
    simp only [hd, hlook, if_true, Bool.false_eq_true, if_false, Go.bind_apply, Go.modify_apply]
    refine hwrite kp _ _ ?_
    rw [statusRecord, recorded_of_declined hd, hs.now]
  · have hd' : info.declined = false := by simpa using hd
    simp only [hd', Bool.false_eq_true, if_false, Go.bind_apply, Go.ite_apply]
    by_cases ha : kp.peerAlias = ""
    · have hlook : needsAlias info kp = true := by simp [needsAlias, hd', ha]
      have ha' : (confirmPeer env { kp with lastSeen := s.now } info).peerAlias = "" := ha
      simp only [hlook, ha', if_true, Go.read_apply, Go.modify_apply]
      refine .consult fun s' hs' => hwrite _ _ _ ?_
      rw [statusRecord, ← hs'.aliases, ← hs.now]
      simp only [recorded, hd', Bool.false_eq_true, if_false, ha', if_true]
    · have hlook : needsAlias info kp = false := by simp [needsAlias, ha]
      have ha' : (confirmPeer env { kp with lastSeen := s.now } info).peerAlias ≠ "" := ha
      simp only [hlook, ha', Bool.false_eq_true, if_false, Go.pure_apply, Go.modify_apply]
      refine hwrite kp _ _ ?_
      rw [statusRecord, ← hs.now]
      simp only [recorded, hd', Bool.false_eq_true, if_false, ha']

namespace Exchange

/-- The critical sections and the operations before the copy is made. -/
def before : Exchange → ℕ
  | .inbound _ => 7
  | .outbound _ => 8

/-- The exchange, as a transaction on the record. With a blocked peer it does not come to the
record, and the exit node is not reported. -/
def tx (env : Env) (s₀ : Node ID) (y : ID) (info : PeerStatusInfo) (x : Exchange) :
    Tx KnownPeer :=
  if (s₀.conf.getBlockedPeer (string y)).isSome then Tx.done.quiets (x.before - 1)
  else .readLookWrite (needsAlias info) (statusRecord env s₀ (string y) info) x.before 1 1

lemma emits_tx {env : Env} {s₀ : Node ID} {y : ID} {info : PeerStatusInfo} {x : Exchange}
    {l : List (Access × KnownPeer)} (h : (x.tx env s₀ y info).Emits l) :
    l = [] ∨ (∃ c, l = [(.read, c), (.write, statusRecord env s₀ (string y) info c c)]) ∨
      ∃ c c', l = [(.read, c), (.consult, c'),
        (.write, statusRecord env s₀ (string y) info c c')] := by
  unfold tx at h
  split_ifs at h
  · exact Or.inl (Tx.emits_quiets.mp h)
  · exact Or.inr (Tx.emits_readLookWrite h)

end Exchange

/-- The exchange takes place, and the peer sends `info`. -/
structure Delivers (net : Req ID → Resp) (info : PeerStatusInfo) : Prop where
  connect : ∀ id, net (.connectPeer id) = .ok
  opened : ∀ id proto, ∃ sid, net (.newStream id proto) = .stream sid
  sent : ∀ stream i, stream.inbound = false → net (.sendStatus stream i) = .ok
  received : ∀ stream, net (.receiveStatus stream) = .status info

lemma implements_reread {y : ID} :
    Implements net (Undisturbed (string y) s₀) (record (string y))
      (.readLookWrite (needsAlias info) (statusRecord env s₀ (string y) info) 0 1 1)
      (.act id fun s => (processPeerStatusInfo env ((s.conf.getPeer (string y)).getD {})
        info).code) :=
  .read fun _ hs => implements_process hs.peerID

omit [PeerCodec ID] in
/-- A critical section on the pending requests. -/
lemma Implements.auths {key : String} {upd : Node ID → Node ID}
    {next : Node ID → Code (Node ID) (Req ID) Resp} {t : Tx KnownPeer}
    (hconf : ∀ s, (upd s).conf = s.conf ∧ (upd s).now = s.now)
    (h : ∀ s, Implements net (Undisturbed key s₀) (record key) t (next s)) :
    Implements net (Undisturbed key s₀) (record key) (.quiet t) (.act upd next) := by
  refine .act fun s hs => ?_
  obtain ⟨hc, hn⟩ := hconf s
  obtain ⟨hframe, hrec⟩ := hs.of_eq (upd s) (by rw [hc]) (by rw [hc]) (by rw [hc]) hn
  exact ⟨hframe, hrec, h s⟩

lemma implements_inbound [DecidableEq ID] {y : ID} (hnet : Delivers net info) (sid : ℕ) :
    Implements net (Undisturbed (string y) s₀) (record (string y))
      ((Exchange.inbound sid).tx env s₀ y info) ((Exchange.inbound sid).code env y) := by
  simp only [Exchange.code, statusStreamHandler, Go.code, Go.bind_apply, Go.read_apply,
    Exchange.tx, Exchange.before]
  by_cases hb : (s₀.conf.getBlockedPeer (string y)).isSome = true
  · rw [if_pos hb]
    refine .skip fun s hs => .skip fun s₁ hs₁ => ?_
    simp only [hs.getPeer, hs₁.getBlockedPeer, hb, Option.isNone_some, Bool.false_and,
      Bool.false_eq_true, if_false, Go.bind_apply, Go.block_apply]
    refine .ask ?_
    rw [hnet.received]
    refine .auths (fun _ => ⟨rfl, rfl⟩) fun _ => .skip fun s₂ _ => ?_
    exact .ask rfl
  · rw [if_neg hb]
    refine .skip fun s hs => .skip fun s₁ hs₁ => ?_
    simp only [hs.getPeer, hs₁.getBlockedPeer, hb, Option.isNone_some, Bool.false_and,
      Bool.false_eq_true, if_false, Go.bind_apply, Go.block_apply]
    refine .ask ?_
    rw [hnet.received]
    refine .auths (fun _ => ⟨rfl, rfl⟩) fun _ => .skip fun s₂ _ => .skip fun s₃ _ => ?_
    exact .ask implements_reread

lemma implements_outbound [DecidableEq ID] {y : ID} (hnet : Delivers net info)
    (knownPeer : KnownPeer) :
    Implements net (Undisturbed (string y) s₀) (record (string y))
      ((Exchange.outbound knownPeer).tx env s₀ y info)
      ((Exchange.outbound knownPeer).code env y) := by
  simp only [Exchange.code, exchangeNewStatusInfo, Go.code, Go.bind_apply, Go.modify_apply,
    Go.block_apply, Exchange.tx, Exchange.before]
  obtain ⟨sid, hsid⟩ := hnet.opened y .status
  by_cases hb : (s₀.conf.getBlockedPeer (string y)).isSome = true
  · rw [if_pos hb]
    refine .auths (fun _ => ⟨rfl, rfl⟩) fun _ => .ask ?_
    rw [hnet.connect]
    refine .ask ?_
    rw [hsid]
    refine .skip fun s hs => .skip fun s₁ _ => ?_
    simp only [hs.getBlockedPeer, hb, createPeerInfo, if_true]
    refine .ask ?_
    rw [hnet.sent _ _ rfl]
    refine .ask ?_
    rw [hnet.received]
    rfl
  · rw [if_neg hb]
    refine .auths (fun _ => ⟨rfl, rfl⟩) fun _ => .ask ?_
    rw [hnet.connect]
    refine .ask ?_
    rw [hsid]
    refine .skip fun s hs => .skip fun s₁ _ => ?_
    simp only [hs.getBlockedPeer, hb, createPeerInfo, Bool.false_eq_true, if_false]
    refine .skip fun s₂ _ => .ask ?_
    rw [hnet.sent _ _ rfl]
    refine .ask ?_
    rw [hnet.received]
    exact implements_reread

lemma implements_exchange [DecidableEq ID] {y : ID} (hnet : Delivers net info) (x : Exchange) :
    Implements net (Undisturbed (string y) s₀) (record (string y)) (x.tx env s₀ y info)
      (x.code env y) := by
  cases x with
  | inbound sid => exact implements_inbound hnet sid
  | outbound knownPeer => exact implements_outbound hnet knownPeer

/-! ### What is lost -/

/-- The race of the two for the record. -/
def settingsRace (env : Env) (s : Node ID) (y : ID) (req : UpdatePeerSettingsRequest)
    (info : PeerStatusInfo) (x : Exchange) : Race KnownPeer :=
  ⟨record (string y) s, [settingsTx req, x.tx env s y info]⟩

/-- One of the two has written before the other makes its copy, or what the last write brings
back is what the other wants. -/
def NothingLost (env : Env) (s : Node ID) (req : UpdatePeerSettingsRequest)
    (info : PeerStatusInfo) (kp : KnownPeer) (l : List (ℕ × Access)) : Prop :=
  Precedes l (0, .write) (1, .read) ∨ Precedes l (1, .write) (0, .read) ∨
    if Precedes l (0, .write) (1, .write) then
      AsSet req (recorded env s.conf.aliases s.now info kp) ∧
        (kp.peerAlias = "" → ¬ Precedes l (0, .write) (1, .consult))
    else AsReported info kp

section

variable [DecidableEq ID] {s : Node ID} {y : ID} {l : List (ℕ × Access)} {x : Exchange}
  {w : List ℕ} {m : Machine (Node ID) (Req ID) Resp}

omit [PeerCodec ID] [DecidableEq ID] in
lemma Api.Accepts.texts {c : Config} (h : Api.Accepts env c req kp) :
    trimSpace req.peerAlias ≠ "" ∧ req.domainName ≠ "" := by
  have hvalid := h.valid
  simp only [Api.validSettings, Api.validText, Bool.and_eq_true, decide_eq_true_eq] at hvalid
  exact ⟨hvalid.1.1.1.2.2, hvalid.1.1.2.1⟩

omit [DecidableEq ID] in
/-- What the last write leaves has everything that both want, exactly if nothing is lost. -/
lemma lastWrite_iff (h : Undisturbed (string y) s s) (ha : trimSpace req.peerAlias ≠ "")
    (hd : req.domainName ≠ "") :
    (AsSet req (lastWrite (fun kp => Api.withSettings kp req)
        (statusRecord env s (string y) info) (record (string y) s) l) ∧
      AsReported info (lastWrite (fun kp => Api.withSettings kp req)
        (statusRecord env s (string y) info) (record (string y) s) l)) ↔
      NothingLost env s req info (record (string y) s) l := by
  set kp := record (string y) s with hkp
  unfold lastWrite NothingLost
  by_cases h1 : Precedes l (0, .write) (1, .read)
  · rw [if_pos h1]
    exact iff_of_true ⟨recorded_asSet withSettings_asSet ha hd, recorded_asReported⟩ (Or.inl h1)
  rw [if_neg h1]
  by_cases h2 : Precedes l (1, .write) (0, .read)
  · rw [if_pos h2]
    exact iff_of_true ⟨withSettings_asSet, withSettings_asReported_iff.mpr recorded_asReported⟩
      (Or.inr (Or.inl h2))
  rw [if_neg h2]
  simp only [h1, h2, false_or]
  split_ifs with h3 h4
  · -- an alias was looked for after the settings had been written
    refine (and_iff_left recorded_asReported).trans ?_
    by_cases hempty : kp.peerAlias = ""
    · refine iff_of_false (not_asSet_recorded hempty ha (Finset.mem_insert_self _ _)) ?_
      exact fun hlost => hlost.2 hempty h4
    · simp only [statusRecord, hempty, false_implies, and_true]
      rw [recorded_of_alias hempty s.conf.aliases]
  · refine (and_iff_left recorded_asReported).trans ?_
    rw [statusRecord, hkp, ← h.aliases]
    simp only [h4, not_false_eq_true, implies_true, and_true]
  · rw [withSettings_asReported_iff]
    exact and_iff_right withSettings_asSet

/-- **No lost update**, exactly when one of the two has written before the other makes its copy,
or the copy that is written back last is up to date. -/
theorem nothing_lost_iff (env : Env) (hkey : req.peerID = string y) (hid : kp.peerID = string y)
    (hacc : Api.Accepts env s.conf req kp) (hnet : Delivers net info) (x : Exchange)
    (hw : ∀ i ∈ w, i < 2)
    (hm : m = w.foldl (Machine.advance net)
      ⟨s, [(Api.updatePeerSettings env req).code, x.code env y]⟩)
    (hdone : ∀ i < 2, ∃ k, m.pool[i]? = some k ∧ k.isDone = true) :
    (∃ kp', m.state.conf.getPeer (string y) = some kp' ∧ AsSet req kp' ∧ AsReported info kp') ↔
      NothingLost env s req info kp ((settingsRace env s y req info x).accesses w) := by
  have hrec : record (string y) s = kp := by
    rw [record, ← hkey, hacc.known, Option.getD_some]
  have hrefl : Undisturbed (string y) s s :=
    ⟨Finmap.mem_iff.mpr ⟨kp, hkey ▸ hacc.known⟩, hrec ▸ hid, rfl, rfl, rfl, rfl⟩
  -- the goroutines race as the transactions do
  have hraces : Machine.Races net (Undisturbed (string y) s) (record (string y))
      ⟨s, [(Api.updatePeerSettings env req).code, x.code env y]⟩
      (settingsRace env s y req info x) := by
    refine ⟨hrefl, rfl, fun {i t} ht => ?_⟩
    rcases i with _ | _ | i
    · cases ht
      exact ⟨_, rfl, hkey ▸ implements_settings (hid.trans hkey.symm) hacc⟩
    · cases ht
      exact ⟨_, rfl, implements_exchange hnet x⟩
    · cases ht
  have hrun := hraces.run w hw
  rw [← hm] at hrun
  have hends : ∀ i < 2, (w.foldl Race.turn (settingsRace env s y req info x)).txs[i]? =
      some .done := by
    intro i hi
    obtain ⟨k, hk, hkdone⟩ := hdone i hi
    exact hrun.done ((Race.run_length w _).symm ▸ hi) hk hkdone
  have hvalue := hrun.value.trans (Race.value_eq_lastWrite (fun l => Tx.emits_readWrite)
    (fun l => Exchange.emits_tx) hends)
  have hfinal : (∃ kp', m.state.conf.getPeer (string y) = some kp' ∧ AsSet req kp' ∧
      AsReported info kp') ↔
      AsSet req (record (string y) m.state) ∧ AsReported info (record (string y) m.state) := by
    rw [hrun.frame.getPeer]
    constructor
    · rintro ⟨kp', he, h⟩
      cases he
      exact h
    · exact fun h => ⟨_, rfl, h⟩
  obtain ⟨halias, hdomain⟩ := Api.Accepts.texts hacc
  rw [hfinal, hvalue, lastWrite_iff hrefl halias hdomain, settingsRace, hrec]

end

section

open BootstrapPeer

/-- A network in which every exchange takes place and the peer sends `info`. -/
def delivering (info : PeerStatusInfo) : Req BootstrapPeer → Resp
  | .newStream _ _ => .stream 0
  | .receiveStatus _ => .status info
  | .connectPeer _ | .sendStatus _ _ | .sendAuth _ _ | .sendAuthResponse _ _ => .ok
  | .receiveAuth _ | .receiveAuthResponse _ => .error

lemma delivering_delivers (info : PeerStatusInfo) : Delivers (delivering info) info :=
  ⟨fun _ => rfl, fun _ _ => ⟨0, rfl⟩, fun _ _ _ => rfl, fun _ => rfl⟩

/-- A friend that may use this node as its exit node. -/
def sharer : KnownPeer :=
  { peerID := rus2.text, peerAlias := "friend", ipAddr := "10.66.0.2", domainName := "friend",
    confirmed := true, weAllowUsingAsExitNode := true }

def sharingNode : Node BootstrapPeer :=
  { freshNode with
    conf := { freshNode.conf with
      knownPeers := (∅ : GoMap String KnownPeer).insert rus2.text sharer } }

/-- The permission is withdrawn. -/
def revocation : UpdatePeerSettingsRequest := ⟨rus2.text, "friend", "friend", "10.66.0.2", false⟩

lemma revocation_accepted : Api.Accepts sampleEnv sharingNode.conf revocation sharer :=
  ⟨by decide +kernel, by decide +kernel, by decide +kernel, by decide +kernel, by decide +kernel⟩

/-- The status handler has made its copy when the permission is withdrawn. -/
def lateStatus : List ℕ := List.replicate 8 1 ++ List.replicate 4 0 ++ List.replicate 3 1

def twoRacing : Machine (Node BootstrapPeer) (Req BootstrapPeer) Resp :=
  ⟨sharingNode, [(Api.updatePeerSettings sampleEnv revocation).code,
    (Exchange.inbound 0).code sampleEnv rus2]⟩

theorem lateStatus_loses_revocation :
    (Api.Accepts sampleEnv sharingNode.conf revocation sharer ∧ Delivers (delivering {}) {}) ∧
      (∀ i < 2, ((lateStatus.foldl (Machine.advance (delivering {})) twoRacing).pool[i]?).map
        Code.isDone = some true) ∧
      ¬ ∃ kp', (lateStatus.foldl (Machine.advance (delivering {})) twoRacing).state.conf.getPeer
        (string rus2) = some kp' ∧ AsSet revocation kp' ∧ AsReported {} kp' := by
  refine ⟨⟨revocation_accepted, delivering_delivers _⟩, by decide +kernel, ?_⟩
  rintro ⟨kp', hkp', hset, -⟩
  have hshared : ((lateStatus.foldl (Machine.advance (delivering {})) twoRacing).state.conf.getPeer
      (string rus2)).map KnownPeer.weAllowUsingAsExitNode = some true := by decide +kernel
  rw [hkp', Option.map_some, hset.weAllow] at hshared
  cases hshared

/-- The same request, handled before the status handler makes its copy. -/
theorem revocation_kept :
    ∃ kp', ((List.replicate 7 1 ++ List.replicate 4 0 ++ List.replicate 4 1).foldl
      (Machine.advance (delivering {})) twoRacing).state.conf.getPeer (string rus2) = some kp' ∧
      AsSet revocation kp' ∧ AsReported {} kp' := by
  refine (nothing_lost_iff sampleEnv rfl rfl revocation_accepted (delivering_delivers {})
    (.inbound 0) (by decide) rfl fun i hi => ?_).mpr (Or.inl (by decide +kernel))
  have hends : ∀ i < 2, ∃ k ∈ ((List.replicate 7 1 ++ List.replicate 4 0 ++
      List.replicate 4 1).foldl (Machine.advance (delivering {})) twoRacing).pool[i]?,
      k.isDone = true := by decide +kernel
  exact hends i hi

end

end Awl
