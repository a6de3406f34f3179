import Awl.Saved

/-!
Aliases, over the whole life of a node: its operations one after the other, and restarts.

A new alias is compared with the aliases of all peers except those filed under the empty ID,
and an empty alias is not replaced when a peer declines. Both matter only once the record of a
peer that is not known has been written.
-/

namespace Awl

open PeerCodec Text AuthStatus

variable {ID : Type}

/-- What happens to a node. The configuration is loaded in the order that `order` gives. -/
inductive LifeEvent (ID : Type) [PeerCodec ID]
  | operation (op : Operation ID)
  | restart (order : Config → List String)
      (valid : ∀ c, GoMap.Ranges c.knownPeers (order c)) (ks' : List String)

/-- The known peers are filed under the ID of their record. -/
def Config.Filed (c : Config) : Prop := ∀ ⦃k kp⦄, c.knownPeers.lookup k = some kp → kp.peerID = k

section

variable {c c' : Config}

lemma Config.ByPeerID.filed (h : c.ByPeerID) : c.Filed := fun _ _ hk => (h hk).2

lemma Config.Filed.setDefaults (h : c.Filed) (env : Env) (ks : List String) :
    (c.setDefaults env ks).Filed := by
  intro k kp' hk
  obtain ⟨kp, hkp, hfill⟩ := (setDefaults_loaded env ks c).peers hk
  exact hfill.peerID.trans (h hkp)

lemma Config.Filed.insert (h : c.Filed) (peer : KnownPeer)
    (hk : c'.knownPeers = c.knownPeers.insert peer.peerID peer) : c'.Filed := by
  intro k kp hl
  rw [hk, GoMap.lookup_insert_ite] at hl
  split_ifs at hl with he
  · cases hl
    exact he.symm
  · exact h hl

lemma Config.Filed.erase (h : c.Filed) {k₀ : String}
    (hk : c'.knownPeers = c.knownPeers.erase k₀) : c'.Filed := by
  intro k kp hl
  rw [hk, GoMap.lookup_erase_ite] at hl
  split_ifs at hl
  exact h hl

lemma Config.Filed.congr (h : c.Filed) (hk : c'.knownPeers = c.knownPeers) : c'.Filed :=
  fun _ _ hl => h (hk ▸ hl)

end

variable [PeerCodec ID] [DecidableEq ID]

/-! ### What an operation writes -/

/-- The records after an operation, in memory and on disk. -/
structure Node.Files (s s' : Node ID) : Prop where
  known : s'.conf.knownPeers = s.conf.knownPeers ∨
    (∃ k, s'.conf.knownPeers = s.conf.knownPeers.erase k) ∨
    ∃ peer : KnownPeer, s'.conf.knownPeers = s.conf.knownPeers.insert peer.peerID peer
  disk : s'.disk = s.disk ∨ s'.disk.knownPeers = s'.conf.knownPeers

namespace Node.Files

variable {env : Env} {s s₁ s' : Node ID}

omit [PeerCodec ID] [DecidableEq ID] in
lemma of_same (h : Node.Same s s') : Node.Files s s' :=
  ⟨Or.inl (by rw [h.conf]), Or.inl h.disk⟩

omit [PeerCodec ID] [DecidableEq ID] in
lemma congr (h : Node.Files s s₁) (hsame : Node.Same s₁ s') : Node.Files s s' := by
  refine ⟨?_, ?_⟩
  · rw [hsame.conf]
    exact h.known
  · rw [hsame.disk, hsame.conf]
    exact h.disk

omit [DecidableEq ID] in
lemma takeCall (env : Env) (c : AddCall ID) (s : Node ID) : Node.Files s (s.takeCall env c) := by
  rcases ho : c.outcome env s with e | peer
  · rw [Node.takeCall_error ho]
    exact of_same (Node.Same.refl s)
  · obtain ⟨blocked, hconf, hdisk⟩ := Node.takeCall_ok ho
    exact ⟨Or.inr (Or.inr ⟨peer, by rw [hconf]⟩), Or.inr (by rw [hdisk])⟩

omit [DecidableEq ID] in
lemma takeStatus (env : Env) (y : ID) (info : PeerStatusInfo) (s : Node ID) :
    Node.Files s (s.takeStatus env y info) := by
  refine ⟨Or.inr (Or.inr ⟨recorded env s.conf.aliases s.now info
    ((s.conf.getPeer (string y)).getD {}), ?_⟩), Or.inr (by rw [Node.takeStatus_disk])⟩
  rw [Node.takeStatus_known rfl, recorded_peerID]

lemma run (env : Env) (s : Node ID) (op : Operation ID) : Node.Files s (op.run env s) := by
  cases op with
  | statusExchange y hy x net =>
    refine congr ?_ (Operation.run_statusExchange y hy x net)
    rcases x.hears y net s with _ | info
    · exact of_same (Node.Same.refl s)
    · exact takeStatus env y info s
  | authRequest y req net =>
    rcases Operation.run_authRequest_cases env s y req net with hsame | ⟨kp, -, hsame⟩
    · exact of_same hsame
    · refine congr ⟨Or.inr (Or.inr ⟨{ kp with declined := true }, rfl⟩), Or.inr rfl⟩ hsame
  | authStream y hy sid net =>
    refine congr ?_ (Operation.run_authStream y hy sid net)
    rcases autoAccepted y sid net s with _ | c
    · exact of_same (Node.Same.refl s)
    · exact takeCall env c s
  | addPeer c hc =>
    rw [Operation.run_addPeer]
    exact takeCall env c s
  | updatePeerSettings req =>
    by_cases hacc : ∃ kp, Api.Accepts env s.conf req kp
    · obtain ⟨kp, hkp⟩ := hacc
      rw [Operation.run_updatePeerSettings hkp]
      exact ⟨Or.inr (Or.inr ⟨Api.withSettings kp req, rfl⟩), Or.inr rfl⟩
    · rw [Operation.run_updatePeerSettings_refused fun kp hkp => hacc ⟨kp, hkp⟩]
      exact of_same (Node.Same.refl s)
  | removePeer req =>
    rcases hd : (decode req.peerID : Option ID) with _ | peerID
    · rw [Operation.run_removePeer, hd]
      exact of_same (Node.Same.refl s)
    rcases hk : s.conf.getPeer req.peerID with _ | kp
    · rw [Operation.run_removePeer, hd, hk]
      exact of_same (Node.Same.refl s)
    obtain ⟨blocked, hconf, hdisk⟩ := Operation.run_removePeer_known env hd hk
    exact ⟨Or.inr (Or.inl ⟨req.peerID, by rw [hconf]⟩), Or.inr (by rw [hdisk])⟩
  | upsertBlockedPeer peerID displayName => exact ⟨Or.inl rfl, Or.inr rfl⟩
  | updateProxySettings u =>
    rw [Operation.run_updateProxySettings]
    split_ifs
    · exact ⟨Or.inl rfl, Or.inr rfl⟩
    · exact of_same (Node.Same.refl s)
  | updateMySettings name order => exact ⟨Or.inl rfl, Or.inr rfl⟩

omit [PeerCodec ID] [DecidableEq ID] in
lemma conf_filed (h : Node.Files s s') (hconf : s.conf.Filed) : s'.conf.Filed := by
  rcases h.known with hk | ⟨k, hk⟩ | ⟨peer, hk⟩
  · exact hconf.congr hk
  · exact hconf.erase hk
  · exact hconf.insert peer hk

omit [PeerCodec ID] [DecidableEq ID] in
lemma filed (h : Node.Files s s') (hconf : s.conf.Filed) (hdisk : s.disk.Filed) :
    s'.conf.Filed ∧ s'.disk.Filed := by
  refine ⟨h.conf_filed hconf, ?_⟩
  rcases h.disk with hd | hd
  · rwa [hd]
  · exact (h.conf_filed hconf).congr hd

end Node.Files

/-! ### What an operation does to the aliases -/

/-- When an operation keeps the aliases distinct. -/
def Operation.KeepsAliases (env : Env) (s : Node ID) : Operation ID → Prop
  | .statusExchange y _ x net => ∀ info ∈ x.hears y net s,
      s.conf.getPeer (string y) = none → info.declined = true →
        ∀ k kp, k ≠ "" → s.conf.getPeer k = some kp → kp.peerAlias ≠ ""
  | .authStream y _ sid net => ∀ c ∈ autoAccepted y sid net s, ∀ peer,
      c.outcome env s = .ok peer → ∀ kp ∈ s.conf.getPeer "", kp.peerAlias ≠ trimSpace c.peerAlias
  | .addPeer c _ => ∀ peer, c.outcome env s = .ok peer →
      ∀ kp ∈ s.conf.getPeer "", kp.peerAlias ≠ trimSpace c.peerAlias
  | _ => True

def LifeEvent.run (env : Env) (s : Node ID) : LifeEvent ID → Node ID
  | .operation op => op.run env s
  | .restart order _ ks' => s.restart env (order s.disk) ks'

/-- When what happens keeps the aliases distinct. -/
def LifeEvent.KeepsAliases (env : Env) (s : Node ID) : LifeEvent ID → Prop
  | .operation op => op.KeepsAliases env s
  | .restart _ _ _ => True

lemma recorded_peerAlias_cases (env : Env) (taken : Finset String) (now : ℕ)
    (info : PeerStatusInfo) (kp : KnownPeer) :
    (recorded env taken now info kp).peerAlias = kp.peerAlias ∨
      (recorded env taken now info kp).peerAlias ∉ taken := by
  unfold recorded
  split_ifs with hd
  · exact Or.inl rfl
  · by_cases ha : kp.peerAlias = ""
    · refine Or.inr ?_
      simp only [confirmPeer, ha, if_true]
      exact (Config.genUniqPeerAlias_spec taken _ _).1
    · refine Or.inl ?_
      simp only [confirmPeer, ha, if_false]

namespace Config.DistinctAliases

variable {env : Env} {s : Node ID}

omit [DecidableEq ID] in
/-- A status of a peer that is known. -/
lemma takeStatus_known (h : s.conf.DistinctAliases) (hf : s.conf.Filed) {y : ID}
    {kp : KnownPeer} (hk : s.conf.getPeer (string y) = some kp) (info : PeerStatusInfo) :
    (s.takeStatus env y info).conf.DistinctAliases := by
  refine (h.insert_iff _ _ (Node.takeStatus_known (by rw [hk, Option.getD_some]))).mpr ?_
  intro k kp' hne hl he
  rcases recorded_peerAlias_cases env s.conf.aliases s.now info kp with ha | ha
  · -- the alias is the one the peer had
    have hkey := h hl hk (he.trans ha)
    exact hne (hkey.trans (hf hk).symm)
  · exact ha (he ▸ mem_aliases.mpr ⟨k, kp', hl, rfl⟩)

omit [DecidableEq ID] in
/-- A status of a peer that is not known. -/
lemma takeStatus_unknown (h : s.conf.DistinctAliases) {y : ID}
    (hk : s.conf.getPeer (string y) = none) (info : PeerStatusInfo) :
    (s.takeStatus env y info).conf.DistinctAliases ↔
      (info.declined = true → ∀ k kp, k ≠ "" → s.conf.getPeer k = some kp →
        kp.peerAlias ≠ "") := by
  rw [h.insert_iff _ _ (Node.takeStatus_known (by rw [hk, Option.getD_none]))]
  rcases hd : info.declined with _ | _
  · refine iff_of_true ?_ (by simp)
    intro k kp _ hl he
    have hgen : (recorded env s.conf.aliases s.now info {}).peerAlias ∉ s.conf.aliases := by
      simp only [recorded, hd, Bool.false_eq_true, if_false, confirmPeer, if_true]
      exact (genUniqPeerAlias_spec s.conf.aliases _ _).1
    exact hgen (he ▸ mem_aliases.mpr ⟨k, kp, hl, rfl⟩)
  · rw [recorded_of_declined hd]
    simp only [true_implies]
    rfl

omit [DecidableEq ID] in
/-- A call of `AddPeer`: the check does not see the peer with the empty ID. -/
lemma takeCall_iff (h : s.conf.DistinctAliases) (hf : s.conf.Filed) {c : AddCall ID}
    (hc : c.peerID ≠ zero) :
    (s.takeCall env c).conf.DistinctAliases ↔ ∀ peer, c.outcome env s = .ok peer →
      ∀ kp ∈ s.conf.getPeer "", kp.peerAlias ≠ trimSpace c.peerAlias := by
  rcases ho : c.outcome env s with e | peer
  · rw [Node.takeCall_error ho]
    exact iff_of_true h fun peer hp => by simp at hp
  · obtain ⟨blocked, hconf, -⟩ := Node.takeCall_ok ho
    obtain ⟨-, huniq, ipAddr, -, hpeer⟩ := AddCall.outcome_ok ho
    have hid : peer.peerID = string c.peerID := by rw [hpeer]; rfl
    have halias : peer.peerAlias = trimSpace c.peerAlias := by rw [hpeer]; rfl
    rw [h.insert_iff peer.peerID peer (by rw [hconf]), halias, hid]
    constructor
    · intro hfree _ _ kp hkp
      exact hfree "" kp (string_ne_empty hc).symm hkp
    · intro hfree k kp _ hl
      rcases Config.isUniqPeerAlias_iff.mp huniq k kp hl with hempty | hne
      · have hkey : k = "" := (hf hl).symm.trans hempty
        exact hfree peer rfl kp (hkey ▸ hl)
      · exact hne

/-- **One operation** keeps the aliases distinct exactly under its condition. -/
theorem run_iff (h : s.conf.DistinctAliases) (hf : s.conf.Filed) (op : Operation ID) :
    (op.run env s).conf.DistinctAliases ↔ op.KeepsAliases env s := by
  cases op with
  | statusExchange y hy x net =>
    rw [(Operation.run_statusExchange y hy x net).conf, Operation.KeepsAliases]
    rcases x.hears y net s with _ | info
    · exact iff_of_true h (by simp)
    · simp only [Option.elim_some, Option.mem_some_iff, forall_eq']
      rcases hk : s.conf.getPeer (string y) with _ | kp
      · simp only [true_implies]
        exact h.takeStatus_unknown hk info
      · exact iff_of_true (h.takeStatus_known hf hk info) (by simp)
  | authRequest y req net =>
    refine iff_of_true ?_ trivial
    rcases Operation.run_authRequest_cases env s y req net with hsame | ⟨kp, hk, hsame⟩
    · rwa [hsame.conf]
    · rw [hsame.conf]
      refine (h.insert_iff kp.peerID { kp with declined := true } rfl).mpr ?_
      exact fun k kp' hne hl he => hne ((h hl hk he).trans (hf hk).symm)
  | authStream y hy sid net =>
    rw [(Operation.run_authStream y hy sid net).conf, Operation.KeepsAliases]
    rcases ha : autoAccepted y sid net s with _ | c
    · exact iff_of_true h (by simp)
    · simp only [Option.elim_some, Option.mem_some_iff, forall_eq']
      exact h.takeCall_iff hf (autoAccepted_peerID ha ▸ hy)
  | addPeer c hc =>
    rw [Operation.run_addPeer]
    exact h.takeCall_iff hf hc
  | updatePeerSettings req =>
    refine iff_of_true ?_ trivial
    by_cases hacc : ∃ kp, Api.Accepts env s.conf req kp
    · obtain ⟨kp, hkp⟩ := hacc
      rw [Operation.run_updatePeerSettings hkp]
      refine (h.insert_iff kp.peerID (Api.withSettings kp req) rfl).mpr ?_
      intro k kp' hne hl
      rcases Config.isUniqPeerAlias_iff.mp hkp.uniq k kp' hl with hsame | hother
      · exact absurd ((hf hl).symm.trans (hsame.trans (hf hkp.known).symm)) hne
      · exact hother
    · rwa [Operation.run_updatePeerSettings_refused fun kp hkp => hacc ⟨kp, hkp⟩]
  | removePeer req =>
    refine iff_of_true ?_ trivial
    rcases hd : (decode req.peerID : Option ID) with _ | peerID
    · rwa [Operation.run_removePeer, hd]
    rcases hk : s.conf.getPeer req.peerID with _ | kp
    · rwa [Operation.run_removePeer, hd, hk]
    obtain ⟨blocked, hconf, -⟩ := Operation.run_removePeer_known env hd hk
    refine h.mono fun k kp hl => ?_
    rw [hconf, GoMap.lookup_erase_ite] at hl
    split_ifs at hl
    exact hl
  | upsertBlockedPeer peerID displayName => exact iff_of_true h trivial
  | updateProxySettings u =>
    refine iff_of_true ?_ trivial
    rw [Operation.run_updateProxySettings]
    split_ifs
    · exact h
    · exact h
  | updateMySettings name order => exact iff_of_true h trivial

end Config.DistinctAliases

/-- **The aliases are distinct** all along exactly when a peer is never added under the alias of
the record with the empty ID, and that record is never written with an empty alias where another
peer has it. -/
theorem aliases_distinct_iff {env : Env} {s : Node ID} {c : Config} (hc : c.ByPeerID)
    {ks : List String} (hks : GoMap.Ranges c.knownPeers ks)
    (hconf : s.conf = c.setDefaults env ks) (hdisk : s.disk = c) (es : List (LifeEvent ID)) :
    Runs.Holds (LifeEvent.run env) (fun s => s.conf.DistinctAliases) s es ↔
      Runs.Meets (LifeEvent.run env) (fun s e => e.KeepsAliases env s) s es := by
  refine Runs.holds_iff_meets (I := fun s => s.conf.Filed ∧ s.disk.Filed)
    (fun s e hI _ => ?_) (fun s e hI h => ?_) es s ⟨?_, ?_⟩ ?_
  · cases e with
    | operation op => exact (Node.Files.run env s op).filed hI.1 hI.2
    | restart order valid ks' => exact ⟨hI.2.setDefaults env (order s.disk), hI.2⟩
  · cases e with
    | operation op => exact h.run_iff hI.1 op
    | restart order valid ks' =>
      exact iff_of_true (Config.setDefaults_complete env (valid s.disk)).distinct trivial
  · rw [hconf]
    exact hc.filed.setDefaults env ks
  · rw [hdisk]
    exact hc.filed
  · rw [hconf]
    exact (Config.setDefaults_complete env hks).distinct

section

open BootstrapPeer

/-- A configuration with a friend whose ID is written as a CID. -/
def cidConf : Config :=
  { freshNode.conf with
    knownPeers := (∅ : GoMap String KnownPeer).insert rus2.cidText
      { sharer with peerID := rus2.cidText } }

def cidNode : Node BootstrapPeer :=
  { freshNode with conf := cidConf.setDefaults sampleEnv [rus2.cidText], disk := cidConf }

lemma cidConf_byPeerID : cidConf.ByPeerID := by
  intro k kp hk
  rw [show cidConf.knownPeers = (∅ : GoMap String KnownPeer).insert rus2.cidText
    { sharer with peerID := rus2.cidText } from rfl, GoMap.lookup_insert_ite] at hk
  split_ifs at hk with he
  · cases hk
    exact ⟨he ▸ by decide, he.symm⟩
  · cases hk

lemma rus2_ne_zero : rus2 ≠ zero := by decide

lemma ita1_ne_zero : ita1 ≠ zero := by decide

/-- The exchange with the friend that runs in the background: its record is not found under the
ID that it decodes to. -/
def namelessExchange : LifeEvent BootstrapPeer :=
  .operation (.statusExchange rus2 rus2_ne_zero
    (.outbound { sharer with peerID := rus2.cidText }) (delivering { name := "bob" }))

/-- Then another peer is added as `bob`. -/
def addBob : LifeEvent BootstrapPeer :=
  .operation (.addPeer { peerID := ita1, name := "", peerAlias := "bob", confirmed := false }
    ita1_ne_zero)

theorem sameAlias_after_nameless :
    (cidConf.ByPeerID ∧ GoMap.Ranges cidConf.knownPeers [rus2.cidText] ∧
      cidNode.conf = cidConf.setDefaults sampleEnv [rus2.cidText] ∧ cidNode.disk = cidConf) ∧
      ¬ Runs.Holds (LifeEvent.run sampleEnv) (fun s => s.conf.DistinctAliases) cidNode
        [namelessExchange, addBob] := by
  refine ⟨⟨cidConf_byPeerID, by decide +kernel, rfl, rfl⟩, fun h => ?_⟩
  set s := [namelessExchange, addBob].foldl (LifeEvent.run sampleEnv) cidNode with hs
  have hnameless : (s.conf.getPeer "").map KnownPeer.peerAlias = some "bob" := by decide +kernel
  have hbob : (s.conf.getPeer ita1.text).map KnownPeer.peerAlias = some "bob" := by decide +kernel
  obtain ⟨kp, hk, ha⟩ := Option.map_eq_some_iff.mp hnameless
  obtain ⟨kp', hk', ha'⟩ := Option.map_eq_some_iff.mp hbob
  exact absurd (h.last hk hk' (ha.trans ha'.symm)) (by decide)

/-- The peer is added before the exchange, and the node is restarted. -/
theorem distinctAliases_bob_first :
    Runs.Holds (LifeEvent.run sampleEnv) (fun s => s.conf.DistinctAliases) cidNode
      [addBob, namelessExchange,
        .restart (fun c => c.knownPeers.keys.toList) (fun c => c.knownPeers.ranges_toList) []] := by
  refine (aliases_distinct_iff cidConf_byPeerID (by decide +kernel) rfl rfl _).mpr
    ⟨fun peer _ kp hkp => ?_, fun info hinfo _ hd => ?_, trivial, trivial⟩
  · have hnone : cidNode.conf.getPeer "" = none := by decide +kernel
    rw [hnone] at hkp
    cases hkp
  · have hheard : (Exchange.outbound { sharer with peerID := rus2.cidText }).hears rus2
        (delivering { name := "bob" }) (addBob.run sampleEnv cidNode) =
        some { name := "bob" } := by decide +kernel
    rw [hheard] at hinfo
    cases hinfo
    cases hd

end

end Awl
