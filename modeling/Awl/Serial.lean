import Awl.PeersApi

/-!
What the calls that change the set of known peers do when nothing else runs meanwhile: each
of them runs to its end, and the goroutine it starts is not scheduled.
-/

namespace Awl

open PeerCodec Text AuthStatus

variable {ID : Type} [DecidableEq ID] [PeerCodec ID]

/-- The state a program leads to on its own. -/
def Go.serial {α : Type} (p : Prog ID α) (s : Node ID) : Node ID := (p.code.runSeg s).1

namespace AuthStatus

lemma chooseIP_generated (c : Config) (peerID : String) :
    chooseIP c peerID "" = .ok c.generateNextIpAddr := if_pos rfl

lemma chooseIP_ok {c : Config} {peerID ip : String} (h0 : ip ≠ "")
    (h : c.checkIPUnique ip peerID = .ok) : chooseIP c peerID ip = .ok ip := by
  rw [chooseIP, if_neg h0, h]

lemma chooseIP_error {c : Config} {peerID ip : String} (h0 : ip ≠ "")
    (h : c.checkIPUnique ip peerID ≠ .ok) : ∃ e, chooseIP c peerID ip = .error e := by
  rw [chooseIP, if_neg h0]
  rcases hc : c.checkIPUnique ip peerID with _ | _ | _ | _ | _
  · exact absurd hc h
  all_goals exact ⟨_, rfl⟩

/-- `AddPeer` lets the peer and its alias through. -/
def Admits (c : Config) (peerID : ID) (peerAlias : String) : Prop :=
  c.getPeer (string peerID) = none ∧ c.isUniqPeerAlias "" (trimSpace peerAlias) = true

lemma addPeer_refused {env : Env} {peerID : ID} {name peerAlias ipAddr : String}
    {confirmed : Bool} {s : Node ID} (h : ¬ Admits s.conf peerID peerAlias) :
    (addPeer env peerID name peerAlias confirmed ipAddr).serial s = s := by
  unfold addPeer Go.serial
  simp only [Go.code, Go.bind_apply, Go.read_apply, Code.runSeg, id, Go.ite_apply, Go.pure_apply]
  split_ifs with h1
  · rfl
  · have h2 : s.conf.isUniqPeerAlias "" (trimSpace peerAlias) = false :=
      Bool.eq_false_iff.mpr fun h2 => h ⟨by simpa using h1, h2⟩
    simp [Code.runSeg, h2]

lemma addPeer_badIP {env : Env} {peerID : ID} {name peerAlias ipAddr : String}
    {confirmed : Bool} {s : Node ID} {e : AddPeerError}
    (h : chooseIP s.conf (string peerID) ipAddr = .error e) :
    (addPeer env peerID name peerAlias confirmed ipAddr).serial s = s := by
  by_cases ha : Admits s.conf peerID peerAlias
  · simp [addPeer, Go.serial, Go.code, Code.runSeg, ha.1, ha.2, h]
  · exact addPeer_refused ha

lemma addPeer_added {env : Env} {peerID : ID} {name peerAlias ipAddr ip : String}
    {confirmed : Bool} {s : Node ID} (ha : Admits s.conf peerID peerAlias)
    (h : chooseIP s.conf (string peerID) ipAddr = .ok ip) :
    (addPeer env peerID name peerAlias confirmed ipAddr).serial s =
      (s.removeBlockedPeer peerID).upsertPeer
        (newPeer env (string peerID) name (trimSpace peerAlias) ip confirmed s.now) := by
  simp [addPeer, Go.serial, Go.code, Code.runSeg, ha.1, ha.2, h]

end AuthStatus

namespace Api

/-- `UpdatePeerSettings` finds the record `kp` and lets the request through. -/
structure Accepts (env : Env) (c : Config) (req : UpdatePeerSettingsRequest) (kp : KnownPeer) :
    Prop where
  valid : validSettings env req = true
  domain : env.isValidDomainName req.domainName = true
  known : c.getPeer req.peerID = some kp
  uniq : c.isUniqPeerAlias req.peerID (trimSpace req.peerAlias) = true
  ip : c.checkIPUnique req.ipAddr kp.peerID = .ok

lemma updatePeerSettings_runSeg {env : Env} {req : UpdatePeerSettingsRequest} {s : Node ID}
    {kp : KnownPeer} (h : Accepts env s.conf req kp) :
    (updatePeerSettings env req : Prog ID Answer).code.runSeg s =
      (s.upsertPeer (withSettings kp req),
        [(exchangeNewStatusInfo env kp.peerId (withSettings kp req)).code], .done) := by
  simp [updatePeerSettings, Go.code, Code.runSeg, h.valid, h.domain, h.known, h.uniq, h.ip]

lemma updatePeerSettings_runSeg_refused {env : Env} {req : UpdatePeerSettingsRequest}
    {s : Node ID} (h : ∀ kp, ¬ Accepts env s.conf req kp) :
    (updatePeerSettings env req : Prog ID Answer).code.runSeg s = (s, [], .done) := by
  by_cases hv : validSettings env req = true
  · by_cases hd : env.isValidDomainName req.domainName = true
    · rcases hk : s.conf.getPeer req.peerID with _ | kp
      · simp [updatePeerSettings, Go.code, Code.runSeg, hv, hd, hk]
      · by_cases hu : s.conf.isUniqPeerAlias req.peerID (trimSpace req.peerAlias) = true
        · have hip : s.conf.checkIPUnique req.ipAddr kp.peerID ≠ .ok := fun hip =>
            h kp ⟨hv, hd, hk, hu, hip⟩
          simp [updatePeerSettings, Go.code, Code.runSeg, hv, hd, hk, hu, hip]
        · simp [updatePeerSettings, Go.code, Code.runSeg, hv, hd, hk, hu]
    · simp [updatePeerSettings, Go.code, Code.runSeg, hv, hd]
  · simp [updatePeerSettings, Go.code, Code.runSeg, hv]

lemma updatePeerSettings_accepted {env : Env} {req : UpdatePeerSettingsRequest} {s : Node ID}
    {kp : KnownPeer} (h : Accepts env s.conf req kp) :
    (updatePeerSettings env req : Prog ID Answer).serial s =
      s.upsertPeer (withSettings kp req) := by
  rw [Go.serial, updatePeerSettings_runSeg h]

lemma updatePeerSettings_refused {env : Env} {req : UpdatePeerSettingsRequest} {s : Node ID}
    (h : ∀ kp, ¬ Accepts env s.conf req kp) :
    (updatePeerSettings env req : Prog ID Answer).serial s = s := by
  rw [Go.serial, updatePeerSettings_runSeg_refused h]

/-- `RemovePeer` does nothing, or removes the peer and blocks the ID its text stands for. -/
lemma removePeer_serial (env : Env) (req : PeerIDRequest) (s : Node ID) :
    (removePeer env req : Prog ID Answer).serial s = s ∨
    ∃ (peerID : ID) (kp : KnownPeer), decode req.peerID = some peerID ∧
      s.conf.getPeer req.peerID = some kp ∧
      (removePeer env req : Prog ID Answer).serial s =
        (s.removePeer req.peerID).upsertBlockedPeer (string peerID) kp.displayName := by
  by_cases he : req.peerID = ""
  · exact Or.inl (by simp [removePeer, Go.serial, Go.code, Code.runSeg, he])
  · rcases hd : (decode req.peerID : Option ID) with _ | peerID
    · exact Or.inl (by simp [removePeer, Go.serial, Go.code, Code.runSeg, he, hd])
    · rcases hk : s.conf.getPeer req.peerID with _ | kp
      · refine Or.inl ?_
        simp [removePeer, Go.serial, Go.code, Code.runSeg, he, hd, hk, Node.removePeer]
      · refine Or.inr ⟨peerID, kp, rfl, rfl, ?_⟩
        simp [removePeer, blockPeer, Go.serial, Go.code, Code.runSeg, he, hd, hk]

end Api

end Awl
