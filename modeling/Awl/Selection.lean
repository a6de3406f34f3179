import Awl.LostUpdate
import Awl.Operations

/-!
The exit node that a node has selected.

The selection is the ID of a peer, kept beside the records. A status of the peer repairs it;
what else takes the peer away, or withdraws what it offers, does not.
-/

namespace Awl

open PeerCodec AuthStatus

variable {ID : Type}

/-- The selected exit node. -/
def exitNode (s : Node ID) : String := s.conf.socks5.usingPeerID

/-- The peer can be used as an exit node. -/
def KnownPeer.Offers (kp : KnownPeer) : Prop :=
  kp.allowedUsingAsExitNode = true ∧ kp.declined = false

instance (kp : KnownPeer) : Decidable kp.Offers := inferInstanceAs (Decidable (_ ∧ _))

/-- No exit node is selected, or a known peer that can be used as one. -/
def ValidSelection (s : Node ID) : Prop :=
  exitNode s = "" ∨ ∃ kp ∈ s.conf.getPeer (exitNode s), kp.Offers

section

variable {s s' : Node ID}

lemma Node.Same.validSelection (h : Node.Same s s') : ValidSelection s' ↔ ValidSelection s := by
  rw [ValidSelection, exitNode, h.conf]
  rfl

/-- A record is written: the selection is valid still, unless it is this peer and the record
does not offer. -/
lemma ValidSelection.insert_iff (h : ValidSelection s) (s' : Node ID) (peer : KnownPeer)
    (hk : s'.conf.knownPeers = s.conf.knownPeers.insert peer.peerID peer)
    (hu : exitNode s' = exitNode s) :
    ValidSelection s' ↔ exitNode s = "" ∨ exitNode s ≠ peer.peerID ∨ peer.Offers := by
  rw [ValidSelection, hu, Config.getPeer, hk, GoMap.lookup_insert_ite]
  by_cases he : exitNode s = ""
  · exact iff_of_true (Or.inl he) (Or.inl he)
  · simp only [he, false_or]
    by_cases hp : exitNode s = peer.peerID
    · rw [if_pos hp]
      simp [hp]
    · rw [if_neg hp]
      refine iff_of_true ?_ (Or.inl hp)
      exact h.resolve_left he

end

variable [PeerCodec ID]

/-! ### Status exchanges -/

/-- A status keeps the selection valid: it selects a peer that offers, and no peer that does
not. -/
lemma ValidSelection.takeStatus {s : Node ID} (h : ValidSelection s) (env : Env) (y : ID)
    (info : PeerStatusInfo) : ValidSelection (s.takeStatus env y info) := by
  set kp := (s.conf.getPeer (string y)).getD {} with hkp
  set peer := recorded env s.conf.aliases s.now info kp with hpeer
  have hknown : (s.takeStatus env y info).conf.knownPeers =
      s.conf.knownPeers.insert peer.peerID peer := rfl
  have huse : exitNode (s.takeStatus env y info) = reselect info peer.peerID (exitNode s) := rfl
  have hreported : AsReported info peer := recorded_asReported
  rw [ValidSelection, huse, Config.getPeer, hknown, GoMap.lookup_insert_ite]
  -- a selection that stays and is another peer is as valid as before
  have hstays : exitNode s ≠ peer.peerID → exitNode s = "" ∨
      ∃ kp ∈ s.conf.knownPeers.lookup (exitNode s), kp.Offers := fun _ => h
  unfold reselect
  by_cases hd : info.declined = true
  · rw [if_pos hd]
    by_cases hu : exitNode s = peer.peerID
    · exact Or.inl (if_pos hu)
    · rw [if_neg hu, if_neg hu]
      exact hstays hu
  · have hd' : info.declined = false := by simpa using hd
    rw [if_neg hd]
    by_cases ha : info.allowUsingAsExitNode = true
    · have hoffers : peer.Offers := ⟨(hreported.allowed hd').trans ha, hreported.declined.trans hd'⟩
      rw [if_pos ha]
      by_cases hu : exitNode s = ""
      · rw [if_pos hu, if_pos rfl]
        exact Or.inr ⟨peer, rfl, hoffers⟩
      · rw [if_neg hu]
        by_cases hp : exitNode s = peer.peerID
        · rw [if_pos hp]
          exact Or.inr ⟨peer, rfl, hoffers⟩
        · rw [if_neg hp]
          exact hstays hp
    · rw [if_neg ha]
      by_cases hu : exitNode s = peer.peerID
      · exact Or.inl (if_pos hu)
      · rw [if_neg hu, if_neg hu]
        exact hstays hu

/-! ### The other operations -/

/-- When an operation keeps the selection valid. -/
def Operation.KeepsSelection (env : Env) (s : Node ID) : Operation ID → Prop
  | .authRequest y req net => ∀ response ∈ authAnswer y req net, response.declined = true →
      ∀ kp ∈ s.conf.getPeer (string y), exitNode s = "" ∨ exitNode s ≠ kp.peerID
  | .updatePeerSettings req => ∀ kp, Api.Accepts env s.conf req kp →
      exitNode s = "" ∨ exitNode s ≠ kp.peerID ∨ kp.Offers
  | .removePeer req => (decode req.peerID : Option ID).isSome →
      (s.conf.getPeer req.peerID).isSome → exitNode s ≠ req.peerID
  | .updateProxySettings u => ∀ kp ∈ s.conf.getPeer u, u ≠ "" →
      kp.allowedUsingAsExitNode = true → kp.declined = false
  | _ => True

namespace ValidSelection

variable [DecidableEq ID] {env : Env} {s : Node ID}

lemma authRequest_iff (h : ValidSelection s) (y : ID) (req : AuthPeer) (net : Req ID → Resp) :
    ValidSelection ((Operation.authRequest y req net).run env s) ↔
      (Operation.authRequest y req net).KeepsSelection env s := by
  rw [(Operation.run_authRequest y req net).validSelection, Operation.KeepsSelection]
  rcases ha : authAnswer y req net with _ | response
  · exact iff_of_true h (by simp)
  rcases hk : s.conf.getPeer (string y) with _ | kp
  · exact iff_of_true h (by simp)
  rcases hd : response.declined with _ | _
  · simpa [hd] using h
  · have hins := h.insert_iff (s.upsertPeer { kp with declined := true })
      { kp with declined := true } rfl rfl
    simpa [hd, KnownPeer.Offers] using hins

lemma updatePeerSettings_iff (h : ValidSelection s) (req : UpdatePeerSettingsRequest) :
    ValidSelection ((Operation.updatePeerSettings req : Operation ID).run env s) ↔
      (Operation.updatePeerSettings req : Operation ID).KeepsSelection env s := by
  by_cases hacc : ∃ kp, Api.Accepts env s.conf req kp
  · obtain ⟨kp, hkp⟩ := hacc
    rw [Operation.run_updatePeerSettings hkp]
    rw [h.insert_iff (s.upsertPeer (Api.withSettings kp req)) (Api.withSettings kp req) rfl rfl]
    constructor
    · intro hkeep kp' hkp'
      obtain rfl : kp = kp' := Option.some.inj (hkp.known.symm.trans hkp'.known)
      exact hkeep
    · exact fun hkeep => hkeep kp hkp
  · rw [Operation.run_updatePeerSettings_refused fun kp hkp => hacc ⟨kp, hkp⟩]
    exact iff_of_true h fun kp hkp => absurd ⟨kp, hkp⟩ hacc

lemma removePeer_iff (h : ValidSelection s) (req : PeerIDRequest) :
    ValidSelection ((Operation.removePeer req : Operation ID).run env s) ↔
      (Operation.removePeer req : Operation ID).KeepsSelection env s := by
  rw [Operation.KeepsSelection]
  rcases hd : (decode req.peerID : Option ID) with _ | peerID
  · rw [Operation.run_removePeer, hd]
    exact iff_of_true h (by simp)
  rcases hk : s.conf.getPeer req.peerID with _ | kp
  · rw [Operation.run_removePeer, hd, hk]
    exact iff_of_true h (by simp)
  have hne : req.peerID ≠ "" := by
    intro he
    rw [he, decode_empty] at hd
    cases hd
  obtain ⟨blocked, hconf, -⟩ := Operation.run_removePeer_known env hd hk
  simp only [Option.isSome_some, true_implies]
  rw [ValidSelection, exitNode, hconf, Config.getPeer, GoMap.lookup_erase_ite]
  change exitNode s = "" ∨ (∃ kp ∈ if exitNode s = req.peerID then none else
    s.conf.getPeer (exitNode s), kp.Offers) ↔ exitNode s ≠ req.peerID
  by_cases hu : exitNode s = req.peerID
  · simp [hu, hne]
  · rw [if_neg hu]
    exact iff_of_true h hu

lemma updateProxySettings_iff (h : ValidSelection s) (u : String) :
    ValidSelection ((Operation.updateProxySettings u : Operation ID).run env s) ↔
      (Operation.updateProxySettings u : Operation ID).KeepsSelection env s := by
  rw [Operation.run_updateProxySettings, Operation.KeepsSelection]
  by_cases hset : u = "" ∨ (s.conf.getPeer u).any KnownPeer.allowedUsingAsExitNode = true
  · have hvalid : ValidSelection ((s.setUsingPeerID fun _ => u).save
        (s.setUsingPeerID fun _ => u).conf) ↔ u = "" ∨ ∃ kp ∈ s.conf.getPeer u, kp.Offers :=
      Iff.rfl
    rw [if_pos hset, hvalid]
    rcases hset with rfl | hany
    · simp
    · obtain ⟨kp, hk, ha⟩ : ∃ kp, s.conf.getPeer u = some kp ∧
          kp.allowedUsingAsExitNode = true := by
        simpa [Option.any_eq_true] using hany
      by_cases hu : u = ""
      · simp [hu]
      · simp [hk, hu, ha, KnownPeer.Offers]
  · rw [if_neg hset]
    refine iff_of_true h fun kp hk hu ha => absurd (Or.inr ?_) hset
    rw [Option.mem_def.mp hk]
    exact ha

omit [DecidableEq ID] in
/-- `AddPeer` writes the record of a peer that was not known, and so not selected. -/
lemma takeCall (h : ValidSelection s) (env : Env) (c : AddCall ID) :
    ValidSelection (s.takeCall env c) := by
  rcases hc : c.outcome env s with e | peer
  · rwa [Node.takeCall_error hc]
  · obtain ⟨blocked, hconf, -⟩ := Node.takeCall_ok hc
    obtain ⟨hnone, -, ipAddr, -, hpeer⟩ := AddCall.outcome_ok hc
    have hid : peer.peerID = string c.peerID := by rw [hpeer]; rfl
    rw [h.insert_iff _ peer (by rw [hconf]) (by rw [exitNode, hconf]; rfl)]
    by_cases he : exitNode s = ""
    · exact Or.inl he
    · obtain ⟨kp, hkp, -⟩ := h.resolve_left he
      refine Or.inr (Or.inl fun hp => ?_)
      rw [hp, hid, hnone] at hkp
      cases hkp

/-- **One operation** keeps the selection valid exactly under its condition. -/
theorem run_iff (h : ValidSelection s) (op : Operation ID) :
    ValidSelection (op.run env s) ↔ op.KeepsSelection env s := by
  cases op with
  | statusExchange y hy x net =>
    refine iff_of_true ((Operation.run_statusExchange y hy x net).validSelection.mpr ?_) trivial
    rcases x.hears y net s with _ | info
    · exact h
    · exact h.takeStatus env y info
  | authRequest y req net => exact h.authRequest_iff y req net
  | authStream y hy sid net =>
    refine iff_of_true ((Operation.run_authStream y hy sid net).validSelection.mpr ?_) trivial
    rcases autoAccepted y sid net s with _ | c
    · exact h
    · exact h.takeCall env c
  | addPeer c hc => exact iff_of_true (Operation.run_addPeer c hc ▸ h.takeCall env c) trivial
  | updatePeerSettings req => exact h.updatePeerSettings_iff req
  | removePeer req => exact h.removePeer_iff req
  | upsertBlockedPeer peerID displayName => exact iff_of_true h trivial
  | updateProxySettings u => exact h.updateProxySettings_iff u
  | updateMySettings name order => exact iff_of_true h trivial

end ValidSelection

/-- **The selection is valid** after every operation exactly when no operation takes away the
selected peer, or what it offers, in another way than by a status of the peer. -/
theorem selection_valid_iff [DecidableEq ID] (env : Env) {s : Node ID} (h : exitNode s = "")
    (ops : List (Operation ID)) :
    Runs.Holds (Operation.run env) ValidSelection s ops ↔
      Runs.Meets (Operation.run env) (fun s op => op.KeepsSelection env s) s ops :=
  Runs.holds_iff_meets (I := fun _ => True) (fun _ _ _ _ => trivial)
    (fun _ op _ hs => hs.run_iff op) ops s trivial (Or.inl h)

section

open BootstrapPeer

/-- A status of the friend that offers to be the exit node. -/
def offering : Operation BootstrapPeer :=
  .statusExchange rus2 (by decide) (.inbound 0) (delivering { allowUsingAsExitNode := true })

/-- The selected exit node is removed. -/
theorem removed_stays_selected :
    exitNode sharingNode = "" ∧ ¬ Runs.Holds (Operation.run sampleEnv) ValidSelection sharingNode
      [offering, .removePeer ⟨rus2.text⟩] := by
  refine ⟨by decide +kernel, fun h => ?_⟩
  have hsel : exitNode ([offering, .removePeer ⟨rus2.text⟩].foldl (Operation.run sampleEnv)
      sharingNode) = rus2.text := by decide +kernel
  have hgone : ([offering, .removePeer ⟨rus2.text⟩].foldl (Operation.run sampleEnv)
      sharingNode).conf.getPeer rus2.text = none := by decide +kernel
  have hlast := h.last
  rw [ValidSelection, hsel, hgone] at hlast
  revert hlast
  decide +kernel

/-- The offer is withdrawn, and then the peer is removed. -/
theorem withdrawn_then_removed :
    Runs.Holds (Operation.run sampleEnv) ValidSelection sharingNode
      [offering, .statusExchange rus2 (by decide) (.inbound 1) (delivering {}),
        .removePeer ⟨rus2.text⟩] :=
  (selection_valid_iff sampleEnv (by decide +kernel) _).mpr
    ⟨trivial, trivial, fun _ _ => by decide +kernel, trivial⟩

end

/-! ### A selection that is taken back -/

/-- A status exchange, with the peer it is with. -/
structure Encounter (ID : Type) [PeerCodec ID] where
  peer : ID
  peer_ne : peer ≠ zero
  exchange : Exchange
  net : Req ID → Resp

namespace Encounter

variable [DecidableEq ID] {env : Env} {s : Node ID}

def run (env : Env) (s : Node ID) (e : Encounter ID) : Node ID :=
  (Operation.statusExchange e.peer e.peer_ne e.exchange e.net).run env s

/-- When an exchange selects no exit node: the peer offers nothing, or has no record. -/
def KeepsDisabled (s : Node ID) (e : Encounter ID) : Prop :=
  ∀ info ∈ e.exchange.hears e.peer e.net s, info.declined = false →
    info.allowUsingAsExitNode = true → ((s.conf.getPeer (string e.peer)).getD {}).peerID = ""

lemma exitNode_run_iff (h : exitNode s = "") (e : Encounter ID) :
    exitNode (e.run env s) = "" ↔ e.KeepsDisabled s := by
  rw [run, exitNode, (Operation.run_statusExchange e.peer e.peer_ne e.exchange e.net).conf,
    KeepsDisabled]
  rcases e.exchange.hears e.peer e.net s with _ | info
  · exact iff_of_true h (by simp)
  · rw [exitNode] at h
    simp only [Option.elim_some, Node.takeStatus_using rfl, h, reselect, Option.mem_some_iff,
      forall_eq']
    rcases info.declined with _ | _ <;> rcases info.allowUsingAsExitNode with _ | _ <;> simp

end Encounter

/-- **A selection that is taken back stays so** exactly as long as no peer with a record offers
to be the exit node. -/
theorem disabled_stays_iff [DecidableEq ID] (env : Env) (s : Node ID)
    (es : List (Encounter ID)) :
    Runs.Holds (Encounter.run env) (fun s => exitNode s = "")
        ((Operation.updateProxySettings "" : Operation ID).run env s) es ↔
      Runs.Meets (Encounter.run env) Encounter.KeepsDisabled
        ((Operation.updateProxySettings "" : Operation ID).run env s) es := by
  refine Runs.holds_iff_meets (I := fun _ => True) (fun _ _ _ _ => trivial)
    (fun _ e _ hs => Encounter.exitNode_run_iff hs e) es _ trivial ?_
  rw [Operation.run_updateProxySettings, if_pos (Or.inl rfl)]
  rfl

section

open BootstrapPeer

/-- The friend goes on offering. -/
theorem offer_selects_again :
    exitNode ((Operation.updateProxySettings "").run sampleEnv sharingNode) = "" ∧
      ¬ Runs.Holds (Encounter.run sampleEnv) (fun s => exitNode s = "")
        ((Operation.updateProxySettings "").run sampleEnv sharingNode)
        [⟨rus2, by decide, .inbound 0, delivering { allowUsingAsExitNode := true }⟩] :=
  ⟨by decide +kernel, fun h => absurd h.last (by decide +kernel)⟩

end

end Awl
