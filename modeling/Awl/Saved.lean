import Awl.Reload
import Awl.Selection

/-!
Memory and disk: what a node that loads its configuration again gets, against what it has in
memory.

A mutation that is not saved is seen here at once, and so is a record that is saved with
something missing in it, since loading fills that in.
-/

namespace Awl

open PeerCodec Text AuthStatus

variable {ID : Type}

/-- The record without the time at which the peer was last seen. -/
def KnownPeer.unseen (kp : KnownPeer) : KnownPeer := { kp with lastSeen := 0 }

/-- The same peers, the same name and the same exit node. -/
structure SameSettings (c c' : Config) : Prop where
  known : ∀ k, (c.getPeer k).map KnownPeer.unseen = (c'.getPeer k).map KnownPeer.unseen
  blocked : c.blockedPeers = c'.blockedPeers
  name : c.p2pNode.name = c'.p2pNode.name
  exitNode : c.socks5.usingPeerID = c'.socks5.usingPeerID

/-- Loading what is on disk gives what is in memory, whatever the order of the loop. -/
def Saved (env : Env) (s : Node ID) : Prop :=
  ∀ ks, GoMap.Ranges s.disk.knownPeers ks → SameSettings (s.disk.setDefaults env ks) s.conf

/-- The known peers are filed under their IDs. -/
def Config.ByPeerID (c : Config) : Prop :=
  ∀ ⦃k kp⦄, c.knownPeers.lookup k = some kp → k ≠ "" ∧ kp.peerID = k

/-- A configuration as loading leaves it. -/
structure Config.Proper (env : Env) (c : Config) : Prop where
  byPeerID : c.ByPeerID
  complete : c.Complete env

section

variable {env : Env} {s s' : Node ID} {c c' : Config} {ks : List String}

lemma Config.ByPeerID.setDefaults (h : c.ByPeerID) (env : Env) (ks : List String) :
    (c.setDefaults env ks).ByPeerID := by
  intro k kp' hk
  obtain ⟨kp, hkp, hfill⟩ := (setDefaults_loaded env ks c).peers hk
  exact ⟨(h hkp).1, hfill.peerID.trans (h hkp).2⟩

lemma Config.ByPeerID.proper (h : c.ByPeerID) (hks : GoMap.Ranges c.knownPeers ks) :
    (c.setDefaults env ks).Proper env :=
  ⟨h.setDefaults env ks, setDefaults_complete env hks⟩

/-- A record is written, of a peer with an alias that no other has. -/
lemma Config.Proper.insert (h : c.Proper env) (peer : KnownPeer) (hid : peer.peerID ≠ "")
    (hpeer : peer.Complete env)
    (halias : ∀ k kp, k ≠ peer.peerID → c.knownPeers.lookup k = some kp →
      kp.peerAlias ≠ peer.peerAlias)
    (hk : c'.knownPeers = c.knownPeers.insert peer.peerID peer) : c'.Proper env := by
  refine ⟨fun k kp hl => ?_, fun {k kp} hl => ?_,
    (h.complete.distinct.insert_iff _ peer hk).mpr halias⟩
  · rw [hk, GoMap.lookup_insert_ite] at hl
    split_ifs at hl with he
    · cases hl
      exact ⟨he ▸ hid, he.symm⟩
    · exact h.byPeerID hl
  · rw [hk, GoMap.lookup_insert_ite] at hl
    split_ifs at hl with he
    · cases hl
      exact hpeer
    · exact h.complete.records hl

lemma Config.Proper.mono (h : c.Proper env)
    (hsub : ∀ ⦃k kp⦄, c'.knownPeers.lookup k = some kp → c.knownPeers.lookup k = some kp) :
    c'.Proper env :=
  ⟨fun _ _ hl => h.byPeerID (hsub hl), fun hl => h.complete.records (hsub hl),
    h.complete.distinct.mono hsub⟩

lemma Config.Proper.congr (h : c.Proper env) (hk : c'.knownPeers = c.knownPeers) :
    c'.Proper env :=
  h.mono fun _ _ hl => hk ▸ hl

lemma Config.Proper.erase (h : c.Proper env) {k₀ : String}
    (hk : c'.knownPeers = c.knownPeers.erase k₀) : c'.Proper env := by
  refine h.mono fun k kp hl => ?_
  rw [hk, GoMap.lookup_erase_ite] at hl
  split_ifs at hl
  exact hl

/-! ### What is saved -/

lemma Node.Same.saved_iff (h : Node.Same s s') : Saved env s' ↔ Saved env s := by
  rw [Saved, h.conf, h.disk]
  rfl

/-- In memory and on disk nothing is missing, and they differ at most in the exit node. -/
lemma saved_iff (h : s.conf.Proper env) (socks5 : SOCKS5Config)
    (hd : s.disk = { s.conf with socks5 := socks5 }) :
    Saved env s ↔ socks5.usingPeerID = exitNode s := by
  have hc : s.disk.Complete env := by
    rw [hd]
    exact ⟨h.complete.records, h.complete.distinct⟩
  constructor
  · intro hsaved
    obtain ⟨ks, hks⟩ := GoMap.exists_ranges s.disk.knownPeers
    have he := (hsaved ks hks).exitNode
    rw [(Config.setDefaults_settings env ks s.disk).2.2, hd] at he
    exact he
  · intro he ks hks
    obtain ⟨hb, hn, hu⟩ := Config.setDefaults_settings env ks s.disk
    have hk := Config.setDefaults_of_complete hc hks
    refine ⟨fun k => ?_, hb.trans (by rw [hd]), hn.trans (by rw [hd]), hu.trans ?_⟩
    · rw [Config.getPeer, hk, hd]
      rfl
    · rw [hd]
      exact he

lemma saved_of_disk (h : s.conf.Proper env) (hd : s.disk = s.conf) : Saved env s :=
  (saved_iff h s.conf.socks5 hd).mpr rfl

/-- A record in which something is missing comes back changed. -/
lemma Saved.filled (h : Saved env s) {k : String} {kp : KnownPeer}
    (hk : s.conf.getPeer k = some kp) : kp.peerAlias ≠ "" ∧ kp.ipAddr ≠ "" := by
  obtain ⟨ks, hks⟩ := GoMap.exists_ranges s.disk.knownPeers
  have hsame := (h ks hks).known k
  rw [hk, Option.map_some, Option.map_eq_some_iff] at hsame
  obtain ⟨kp', hkp', hu⟩ := hsame
  have hfull := (Config.setDefaults_complete env hks).records hkp'
  have halias : kp'.unseen.peerAlias = kp.unseen.peerAlias := by rw [hu]
  have hip : kp'.unseen.ipAddr = kp.unseen.ipAddr := by rw [hu]
  exact ⟨fun he => hfull.peerAlias (halias.trans he), fun he => hfull.ipAddr (hip.trans he)⟩

end

/-! ### The records that are written -/

section

variable {env : Env} {s : Node ID} {kp : KnownPeer}

lemma KnownPeer.Complete.displayName (h : kp.Complete env) : kp.displayName = kp.peerAlias :=
  if_pos h.peerAlias

/-- A status changes neither the alias nor the domain name. -/
lemma KnownPeer.Complete.recorded (h : kp.Complete env) (taken : Finset String) (now : ℕ)
    (info : PeerStatusInfo) :
    (recorded env taken now info kp).Complete env ∧
      (Awl.recorded env taken now info kp).peerAlias = kp.peerAlias := by
  have hdomain := h.domainName
  rw [h.displayName] at hdomain
  rcases hd : info.declined with _ | _
  · simp only [Awl.recorded, hd, Bool.false_eq_true, if_false, confirmPeer, h.peerAlias]
    refine ⟨⟨h.peerAlias, h.ipAddr, ?_⟩, trivial⟩
    simp only [KnownPeer.displayName, ne_eq, h.peerAlias, not_false_eq_true, if_true]
    split_ifs with he
    · exact id
    · exact fun h' => absurd h' he
  · rw [recorded_of_declined hd]
    exact ⟨⟨h.peerAlias, h.ipAddr, h.domainName⟩, rfl⟩

lemma Config.checkIPUnique_ne_empty {c : Config} {checkIP exceptPeerID : String}
    (h : c.checkIPUnique checkIP exceptPeerID = .ok) : checkIP ≠ "" := by
  rintro rfl
  obtain ⟨⟨addr, -, haddr, -⟩, -⟩ := Config.checkIPUnique_eq_ok.mp h
  have hnone : NetIP.parseAddr "" = none := by decide
  rw [hnone] at haddr
  cases haddr

lemma chooseIP_ne_empty {c : Config} {peerID ipAddr ip : String}
    (h : AuthStatus.chooseIP c peerID ipAddr = .ok ip) : ip ≠ "" := by
  rcases AuthStatus.chooseIP_eq_ok h with ⟨-, rfl⟩ | ⟨hne, rfl, -⟩
  · exact c.generateNextIpAddr_ne_empty
  · exact hne

/-- The record of a new peer lacks at most the alias. -/
lemma newPeer_complete {peerID name peerAlias ipAddr : String} {confirmed : Bool} {now : ℕ}
    (ha : peerAlias ≠ "") (hip : ipAddr ≠ "") :
    (newPeer env peerID name peerAlias ipAddr confirmed now).Complete env := by
  refine ⟨ha, hip, ?_⟩
  simp only [newPeer, KnownPeer.displayName, imp_self]

variable [PeerCodec ID]

lemma Config.Proper.getPeer_string {c : Config} (h : c.Proper env) {y : ID}
    (hk : c.getPeer (string y) = some kp) : kp.peerID = string y ∧ string y ≠ "" :=
  ⟨(h.byPeerID hk).2, (h.byPeerID hk).1⟩

/-- Other records have other aliases than one that is there. -/
lemma Config.Proper.others {c : Config} (h : c.Proper env) {k₀ : String}
    (hk₀ : c.knownPeers.lookup k₀ = some kp) (k : String) (kp' : KnownPeer) (hne : k ≠ k₀)
    (hk : c.knownPeers.lookup k = some kp') : kp'.peerAlias ≠ kp.peerAlias :=
  fun he => hne (h.complete.distinct hk hk₀ he)

/-- A new peer with an alias. -/
lemma Config.Proper.takeCall (h : s.conf.Proper env) {c : AddCall ID} (hc : c.peerID ≠ zero)
    (ha : trimSpace c.peerAlias ≠ "") : (s.takeCall env c).conf.Proper env := by
  rcases ho : c.outcome env s with e | peer
  · rwa [Node.takeCall_error ho]
  · obtain ⟨blocked, hconf, -⟩ := Node.takeCall_ok ho
    obtain ⟨-, huniq, ipAddr, hip, hpeer⟩ := AddCall.outcome_ok ho
    have hid : peer.peerID = string c.peerID := by rw [hpeer]; rfl
    have halias : peer.peerAlias = trimSpace c.peerAlias := by rw [hpeer]; rfl
    refine h.insert peer (hid ▸ string_ne_empty hc) (hpeer ▸ newPeer_complete ha
      (chooseIP_ne_empty hip)) (fun k kp _ hk he => ?_) (by rw [hconf])
    rcases Config.isUniqPeerAlias_iff.mp huniq k kp hk with hempty | hne
    · exact (h.byPeerID hk).1 ((h.byPeerID hk).2.symm.trans hempty)
    · exact hne (he.trans halias)

end

/-! ### The operations -/

section

variable [PeerCodec ID] [DecidableEq ID] {env : Env} {s : Node ID}

/-- When what an operation has done is saved. -/
def Operation.Saves (env : Env) (s : Node ID) : Operation ID → Prop
  | .statusExchange y _ x net => ∀ info ∈ x.hears y net s,
      (s.conf.getPeer (string y)).isSome ∧
        if info.declined = false ∧ info.allowUsingAsExitNode = true then exitNode s ≠ ""
        else exitNode s ≠ string y
  | .authStream y _ sid net => ∀ c ∈ autoAccepted y sid net s, ∀ peer,
      c.outcome env s = .ok peer → trimSpace c.peerAlias ≠ ""
  | .addPeer c _ => ∀ peer, c.outcome env s = .ok peer → trimSpace c.peerAlias ≠ ""
  | _ => True

/-- An operation leaves memory and disk in agreement exactly under its condition, and then the
configuration is as loading leaves it. -/
structure Operation.Exact (env : Env) (s : Node ID) (op : Operation ID) : Prop where
  saved_iff : Saved env (op.run env s) ↔ op.Saves env s
  proper : Saved env (op.run env s) → (op.run env s).conf.Proper env

namespace Operation.Exact

variable {op : Operation ID}

lemma of_same (h : s.conf.Proper env) (hs : Saved env s) (hsame : Node.Same s (op.run env s))
    (hc : op.Saves env s) : op.Exact env s :=
  ⟨iff_of_true (hsame.saved_iff.mpr hs) hc, fun _ => by rwa [hsame.conf]⟩

lemma of_disk (h : (op.run env s).conf.Proper env)
    (hd : (op.run env s).disk = (op.run env s).conf) (hc : op.Saves env s) : op.Exact env s :=
  ⟨iff_of_true (saved_of_disk h hd) hc, fun _ => h⟩

/-- A call of `AddPeer`, as part of an operation whose condition is about the alias. -/
lemma of_takeCall (h : s.conf.Proper env) (hs : Saved env s) {c : AddCall ID}
    (hc : c.peerID ≠ zero) (hsame : Node.Same (s.takeCall env c) (op.run env s))
    (hcond : op.Saves env s ↔ ∀ peer, c.outcome env s = .ok peer → trimSpace c.peerAlias ≠ "") :
    op.Exact env s := by
  rcases ho : c.outcome env s with e | peer
  · rw [Node.takeCall_error ho] at hsame
    exact of_same h hs hsame (hcond.mpr fun peer hp => by simp [ho] at hp)
  · obtain ⟨blocked, hconf, hdisk⟩ := Node.takeCall_ok ho
    by_cases ha : trimSpace c.peerAlias = ""
    · -- the record comes back with an alias
      have hnot : ¬ Saved env (op.run env s) := by
        intro hsaved
        obtain ⟨-, -, ipAddr, -, hpeer⟩ := AddCall.outcome_ok ho
        have hk : (op.run env s).conf.getPeer peer.peerID = some peer := by
          rw [hsame.conf, hconf, Config.getPeer, Finmap.lookup_insert]
        refine (hsaved.filled hk).1 ?_
        rw [hpeer]
        exact ha
      exact ⟨iff_of_false hnot fun hop => hcond.mp hop peer ho ha, fun hsaved => absurd hsaved hnot⟩
    · have hp : (op.run env s).conf.Proper env := by
        rw [hsame.conf]
        exact h.takeCall hc ha
      exact of_disk hp (by rw [hsame.conf, hsame.disk, hdisk]) (hcond.mpr fun _ _ => ha)

lemma statusExchange (h : s.conf.Proper env) (hs : Saved env s) {y : ID} (hy : y ≠ zero)
    (x : Exchange) (net : Req ID → Resp) : (Operation.statusExchange y hy x net).Exact env s := by
  have hsame : Node.Same _ ((Operation.statusExchange y hy x net).run env s) :=
    Operation.run_statusExchange y hy x net
  rcases hh : x.hears y net s with _ | info
  · rw [hh] at hsame
    exact of_same h hs hsame (by simp [Operation.Saves, hh])
  rw [hh, Option.elim_some] at hsame
  rcases hk : s.conf.getPeer (string y) with _ | kp
  · -- the zero record has no address
    have hnot : ¬ Saved env ((Operation.statusExchange y hy x net).run env s) := by
      intro hsaved
      have hzero : ∃ peer, ((Operation.statusExchange y hy x net).run env s).conf.getPeer "" =
          some peer ∧ peer.ipAddr = "" := by
        refine ⟨recorded env s.conf.aliases s.now info {}, ?_, recorded_ipAddr⟩
        rw [hsame.conf, Config.getPeer, Node.takeStatus_known (by rw [hk, Option.getD_none])]
        exact Finmap.lookup_insert _
      obtain ⟨peer, hpeer, hip⟩ := hzero
      exact (hsaved.filled hpeer).2 hip
    exact ⟨iff_of_false hnot (by simp [Operation.Saves, hh, hk]), fun hsaved => absurd hsaved hnot⟩
  · obtain ⟨hid, hne⟩ := h.getPeer_string hk
    obtain ⟨hfull, halias⟩ := (h.complete.records hk).recorded s.conf.aliases s.now info
    have hget : (s.conf.getPeer (string y)).getD {} = kp := by rw [hk]; rfl
    have hpid : (recorded env s.conf.aliases s.now info kp).peerID = string y := by
      rw [recorded_peerID, hid]
    have hproper : (s.takeStatus env y info).conf.Proper env := by
      refine h.insert _ (hpid ▸ hne) hfull (fun k kp' hk' hl => ?_)
        (by rw [Node.takeStatus_known hget, recorded_peerID])
      rw [halias]
      exact h.others hk k kp' (hpid ▸ hk') hl
    have hiff := Awl.saved_iff hproper s.conf.socks5 (Node.takeStatus_disk env y info s)
    rw [exitNode, Node.takeStatus_using hget, hid, eq_comm, reselect_eq_iff hne] at hiff
    refine ⟨hsame.saved_iff.trans (hiff.trans ?_), fun _ => by rwa [hsame.conf]⟩
    simp only [Operation.Saves, hh, hk, Option.mem_some_iff, forall_eq', Option.isSome_some,
      true_and]
    rfl

/-- **One operation.** -/
theorem run (h : s.conf.Proper env) (hs : Saved env s) (op : Operation ID) : op.Exact env s := by
  cases op with
  | statusExchange y hy x net => exact statusExchange h hs hy x net
  | authRequest y req net =>
    rcases Operation.run_authRequest_cases env s y req net with hsame | ⟨kp, hk, hsame⟩
    · exact of_same h hs hsame trivial
    · obtain ⟨hid, hne⟩ := h.getPeer_string hk
      have hfull := h.complete.records hk
      refine of_disk ?_ (by rw [hsame.conf, hsame.disk]; rfl) trivial
      rw [hsame.conf]
      refine h.insert { kp with declined := true } (hid ▸ hne)
        ⟨hfull.peerAlias, hfull.ipAddr, hfull.domainName⟩ (fun k kp' hk' hl => ?_) rfl
      exact h.others hk k kp' (hid ▸ hk') hl
  | authStream y hy sid net =>
    have hsame : Node.Same _ ((Operation.authStream y hy sid net).run env s) :=
      Operation.run_authStream y hy sid net
    rcases ha : autoAccepted y sid net s with _ | c
    · rw [ha] at hsame
      exact of_same h hs hsame (by simp [Operation.Saves, ha])
    · rw [ha] at hsame
      have hc : c.peerID ≠ zero := autoAccepted_peerID ha ▸ hy
      exact of_takeCall h hs hc hsame (by simp [Operation.Saves, ha])
  | addPeer c hc =>
    exact of_takeCall h hs hc (by rw [Operation.run_addPeer]) Iff.rfl
  | updatePeerSettings req =>
    by_cases hacc : ∃ kp, Api.Accepts env s.conf req kp
    · obtain ⟨kp, hkp⟩ := hacc
      have hkey := h.byPeerID hkp.known
      obtain ⟨halias, hdomain⟩ := hkp.texts
      have hrun : (Operation.updatePeerSettings req : Operation ID).run env s = _ :=
        Operation.run_updatePeerSettings hkp
      refine of_disk ?_ (by rw [hrun]; rfl) trivial
      rw [hrun]
      refine h.insert (Api.withSettings kp req) (hkey.2 ▸ hkey.1)
        ⟨halias, Config.checkIPUnique_ne_empty hkp.ip, fun he => absurd he hdomain⟩
        (fun k kp' hk' hl he => ?_) rfl
      rcases Config.isUniqPeerAlias_iff.mp hkp.uniq k kp' hl with hsame | hne
      · exact hk' ((h.byPeerID hl).2.symm.trans (hsame.trans hkey.2.symm))
      · exact hne he
    · have hrun : (Operation.updatePeerSettings req : Operation ID).run env s = s :=
        Operation.run_updatePeerSettings_refused fun kp hkp => hacc ⟨kp, hkp⟩
      exact of_same h hs (by rw [hrun]) trivial
  | removePeer req =>
    rcases hd : (decode req.peerID : Option ID) with _ | peerID
    · exact of_same h hs (by rw [Operation.run_removePeer, hd]) trivial
    rcases hk : s.conf.getPeer req.peerID with _ | kp
    · exact of_same h hs (by rw [Operation.run_removePeer, hd, hk]) trivial
    obtain ⟨blocked, hconf, hdisk⟩ := Operation.run_removePeer_known env hd hk
    exact of_disk (h.erase (by rw [hconf])) hdisk trivial
  | upsertBlockedPeer peerID displayName => exact of_disk (h.congr rfl) rfl trivial
  | updateProxySettings u =>
    by_cases hu : u = "" ∨ (s.conf.getPeer u).any KnownPeer.allowedUsingAsExitNode = true
    · have hrun : (Operation.updateProxySettings u : Operation ID).run env s = _ :=
        Operation.run_updateProxySettings u
      rw [if_pos hu] at hrun
      exact of_disk (by rw [hrun]; exact h.congr rfl) (by rw [hrun]; rfl) trivial
    · exact of_same h hs (by rw [Operation.run_updateProxySettings, if_neg hu]) trivial
  | updateMySettings name order => exact of_disk (h.congr rfl) rfl trivial

end Operation.Exact

/-- **Memory and disk agree** after every operation exactly when no status changes the selected
exit node or comes from a peer that is not known, and no peer is added without an alias. -/
theorem saved_iff_of_loaded {c : Config} (hc : c.ByPeerID) {ks : List String}
    (hks : GoMap.Ranges c.knownPeers ks) (hconf : s.conf = c.setDefaults env ks)
    (hs : Saved env s) (ops : List (Operation ID)) :
    Runs.Holds (Operation.run env) (Saved env) s ops ↔
      Runs.Meets (Operation.run env) (Operation.Saves env) s ops :=
  Runs.holds_iff_meets_of_kept (I := fun s => s.conf.Proper env)
    (fun _ op h hs => (Operation.Exact.run h hs op).proper)
    (fun _ op h hs => (Operation.Exact.run h hs op).saved_iff) ops s
    (hconf ▸ hc.proper hks) hs

end

section

open BootstrapPeer

/-- The node has loaded its configuration and saved it. -/
def loadedNode : Node BootstrapPeer :=
  { sharingNode with
    conf := sharingNode.conf.setDefaults sampleEnv [rus2.text]
    disk := sharingNode.conf.setDefaults sampleEnv [rus2.text] }

lemma sharing_byPeerID : sharingNode.conf.ByPeerID := by
  intro k kp hk
  rw [show sharingNode.conf.knownPeers = (∅ : GoMap String KnownPeer).insert rus2.text sharer
    from rfl, GoMap.lookup_insert_ite] at hk
  split_ifs at hk with he
  · cases hk
    exact ⟨he ▸ by decide, he.symm⟩
  · cases hk

lemma sharing_ranges : GoMap.Ranges sharingNode.conf.knownPeers [rus2.text] := by decide +kernel

lemma loaded_saved : Saved sampleEnv loadedNode :=
  saved_of_disk (sharing_byPeerID.proper sharing_ranges) rfl

/-- The exit node that a status selects is forgotten. -/
theorem offer_not_saved :
    (sharingNode.conf.ByPeerID ∧ GoMap.Ranges sharingNode.conf.knownPeers [rus2.text] ∧
      loadedNode.conf = sharingNode.conf.setDefaults sampleEnv [rus2.text] ∧
      Saved sampleEnv loadedNode) ∧
      ¬ Runs.Holds (Operation.run sampleEnv) (Saved sampleEnv) loadedNode [offering] := by
  refine ⟨⟨sharing_byPeerID, sharing_ranges, rfl, loaded_saved⟩, fun h => ?_⟩
  obtain ⟨ks, hks⟩ := GoMap.exists_ranges (offering.run sampleEnv loadedNode).disk.knownPeers
  have he := (h.last ks hks).exitNode
  rw [(Config.setDefaults_settings _ _ _).2.2] at he
  revert he
  decide +kernel

/-- A status without an offer, and new settings. -/
theorem settings_saved :
    Runs.Holds (Operation.run sampleEnv) (Saved sampleEnv) loadedNode
      [.statusExchange rus2 (by decide) (.inbound 0) (delivering {}),
        .updatePeerSettings revocation] := by
  refine (saved_iff_of_loaded sharing_byPeerID sharing_ranges rfl loaded_saved _).mpr
    ⟨fun info hinfo => ?_, trivial, trivial⟩
  have hheard : (Exchange.inbound 0).hears rus2 (delivering {}) loadedNode = some {} := by
    decide +kernel
  rw [hheard] at hinfo
  cases hinfo
  decide +kernel

end

end Awl
