import Awl.AddCalls
import Awl.Records

/-!
The operations of a node, one at a time: each of them runs to its end, with the answers it gets
from the network, and the goroutines it starts are operations of their own.

What an operation does to the configuration, in memory and on disk, is described by a function
of its arguments and of what it has heard from the network.
-/

namespace Awl

open PeerCodec Text AuthStatus

namespace Code

variable {S Q R : Type}

/-- Run to the end, where `net` answers every operation. -/
def finish (net : Q → R) : Code S Q R → S → S
  | done, s => s
  | act upd next, s => (next s).finish net (upd s)
  | ask q next, s => (next (net q)).finish net s
  | fork _ next, s => next.finish net s

@[simp] lemma finish_done (net : Q → R) (s : S) : (done : Code S Q R).finish net s = s := rfl

@[simp] lemma finish_act (net : Q → R) (upd : S → S) (next : S → Code S Q R) (s : S) :
    (act upd next).finish net s = (next s).finish net (upd s) := rfl

@[simp] lemma finish_ask (net : Q → R) (q : Q) (next : R → Code S Q R) (s : S) :
    (ask q next).finish net s = (next (net q)).finish net s := rfl

@[simp] lemma finish_fork (net : Q → R) (child next : Code S Q R) (s : S) :
    (fork child next).finish net s = next.finish net s := rfl

/-- A program without blocking operations. -/
lemma finish_of_runSeg (net : Q → R) {k : Code S Q R} : ∀ {s : S},
    (k.runSeg s).2.2 = done → k.finish net s = (k.runSeg s).1 := by
  induction k with
  | done => exact fun _ => rfl
  | act upd next ih => exact fun h => ih _ h
  | ask q next _ => exact fun h => nomatch h
  | fork child next _ ih => exact fun h => ih h

end Code

variable {ID : Type} [PeerCodec ID]

/-! ### The settings API -/

/-- `SetProxyPeerID`. -/
def SOCKS5.setProxyPeerID (peerID : String) : Prog ID Unit := do
  Go.modify (Node.setUsingPeerID fun _ => peerID)
  Go.modify fun s => s.save s.conf

inductive ProxyAnswer
  | noContent | notFound | notAllowed
  deriving DecidableEq

namespace Api

def updateProxySettings (usingPeerID : String) : Prog ID ProxyAnswer := do
  let peer ← Go.read fun s => s.conf.getPeer usingPeerID
  if usingPeerID = "" then
    SOCKS5.setProxyPeerID usingPeerID
    return .noContent
  match peer with
  | none => return .notFound
  | some peer =>
    if !peer.allowedUsingAsExitNode then return .notAllowed
    SOCKS5.setProxyPeerID usingPeerID
    return .noContent

/-- `UpdateMySettings`; `order` is the order in which the known peers are told. -/
def updateMySettings [DecidableEq ID] (env : Env) (name : String) (order : List String) :
    Prog ID Unit := do
  Go.modify fun s => { s with conf := { s.conf with
    p2pNode := { s.conf.p2pNode with name := name } } }
  Go.modify fun s => s.save s.conf
  Go.spawn (exchangeStatusInfoWithAllKnownPeers env order)

end Api

/-! ### Operations -/

/-- The operations; `net` answers what they ask of the network. -/
inductive Operation (ID : Type) [PeerCodec ID]
  | statusExchange (y : ID) (hy : y ≠ zero) (x : Exchange) (net : Req ID → Resp)
  | authRequest (y : ID) (req : AuthPeer) (net : Req ID → Resp)
  | authStream (y : ID) (hy : y ≠ zero) (sid : ℕ) (net : Req ID → Resp)
  | addPeer (c : AddCall ID) (hc : c.peerID ≠ zero)
  | updatePeerSettings (req : UpdatePeerSettingsRequest)
  | removePeer (req : PeerIDRequest)
  | upsertBlockedPeer (peerID displayName : String)
  | updateProxySettings (usingPeerID : String)
  | updateMySettings (name : String) (order : List String)

/-- Nothing is heard from the network. -/
def silent : Req ID → Resp := fun _ => .error

namespace Operation

def run [DecidableEq ID] (env : Env) (s : Node ID) : Operation ID → Node ID
  | .statusExchange y _ x net => (x.code env y).finish net s
  | .authRequest y req net => (sendAuthRequest y req).code.finish net s
  | .authStream y _ sid net =>
    (authStreamHandler env { remote := y, sid := sid, inbound := true }).code.finish net s
  | .addPeer c _ =>
    (AuthStatus.addPeer env c.peerID c.name c.peerAlias c.confirmed c.ipAddr).code.finish silent s
  | .updatePeerSettings req => (Api.updatePeerSettings env req).code.finish silent s
  | .removePeer req => (Api.removePeer env req).code.finish silent s
  | .upsertBlockedPeer peerID displayName => s.upsertBlockedPeer peerID displayName
  | .updateProxySettings usingPeerID =>
    (Api.updateProxySettings usingPeerID).code.finish silent s
  | .updateMySettings name order => (Api.updateMySettings env name order).code.finish silent s

end Operation

/-! ### What is heard -/

/-- The status that an exchange comes to process. -/
def Exchange.hears (y : ID) (net : Req ID → Resp) (s : Node ID) :
    Exchange → Option PeerStatusInfo
  | .inbound sid =>
    if (s.conf.getBlockedPeer (string y)).isSome || (s.conf.getPeer (string y)).isNone then none
    else match net (.receiveStatus { remote := y, sid := sid, inbound := true }) with
      | .status info => some info
      | _ => none
  | .outbound knownPeer =>
    if (s.conf.getBlockedPeer (string y)).isSome then none
    else match net (.connectPeer y), net (.newStream y .status) with
      | .ok, .stream sid =>
        let stream : Stream ID := { remote := y, sid := sid, inbound := false }
        let myPeerInfo : PeerStatusInfo := {
          name := s.conf.p2pNode.name
          allowUsingAsExitNode := knownPeer.weAllowUsingAsExitNode
          usingPeerID := s.conf.socks5.usingPeerID }
        match net (.sendStatus stream myPeerInfo),
          net (.receiveStatus { stream with sent := some myPeerInfo }) with
        | .ok, .status info => some info
        | _, _ => none
      | _, _ => none

/-- The answer to an auth request. -/
def authAnswer (y : ID) (req : AuthPeer) (net : Req ID → Resp) : Option AuthPeerResponse :=
  match net (.connectPeer y), net (.newStream y .auth) with
  | .ok, .stream sid =>
    let stream : Stream ID := { remote := y, sid := sid, inbound := false }
    match net (.sendAuth stream req), net (.receiveAuthResponse stream) with
    | .ok, .authResponse response => some response
    | _, _ => none
  | _, _ => none

/-- The call of `AddPeer` with which an auth request is accepted automatically. -/
def autoAccepted (y : ID) (sid : ℕ) (net : Req ID → Resp) (s : Node ID) : Option (AddCall ID) :=
  match net (.receiveAuth { remote := y, sid := sid, inbound := true }) with
  | .auth authPeer =>
    if (s.conf.getPeer (string y)).isNone && (s.conf.getBlockedPeer (string y)).isNone
        && s.conf.p2pNode.autoAcceptAuthRequests then
      some { peerID := y, name := authPeer.name, confirmed := true,
             peerAlias := (Config.genUniqPeerAlias s.conf.aliases authPeer.name "").1 }
    else none
  | _ => none

lemma autoAccepted_peerID {y : ID} {sid : ℕ} {net : Req ID → Resp} {s : Node ID} {c : AddCall ID}
    (h : autoAccepted y sid net s = some c) : c.peerID = y := by
  unfold autoAccepted at h
  split at h
  · split_ifs at h
    cases h
    rfl
  · cases h

/-! ### What is done -/

/-- What becomes of the selected exit node `u` when a status of the peer `peerID` is
processed. -/
def reselect (info : PeerStatusInfo) (peerID u : String) : String :=
  if info.declined then (if u = peerID then "" else u)
  else if info.allowUsingAsExitNode then (if u = "" then peerID else u)
  else if u = peerID then "" else u

/-- When it is left as it is. -/
lemma reselect_eq_iff {info : PeerStatusInfo} {peerID u : String} (h : peerID ≠ "") :
    reselect info peerID u = u ↔
      if info.declined = false ∧ info.allowUsingAsExitNode = true then u ≠ "" else u ≠ peerID := by
  unfold reselect
  rcases info.declined with _ | _ <;> rcases info.allowUsingAsExitNode with _ | _
  case false.true =>
    by_cases hu : u = "" <;> simp [hu, h]
  all_goals by_cases hu : u = peerID <;> simp [hu, h.symm]

namespace Node

/-- What a status of `y` does. -/
def takeStatus (env : Env) (y : ID) (info : PeerStatusInfo) (s : Node ID) : Node ID :=
  let peer := recorded env s.conf.aliases s.now info ((s.conf.getPeer (string y)).getD {})
  (s.upsertPeer peer).setUsingPeerID (reselect info peer.peerID)

/-- What a call of `AddPeer` does. -/
def takeCall (env : Env) (c : AddCall ID) (s : Node ID) : Node ID :=
  match c.outcome env s with
  | .error _ => s
  | .ok peer => (s.removeBlockedPeer c.peerID).upsertPeer peer

/-- The same configuration in memory and on disk, at the same time. -/
structure Same (s s' : Node ID) : Prop where
  conf : s'.conf = s.conf
  disk : s'.disk = s.disk
  now : s'.now = s.now

omit [PeerCodec ID] in
@[refl] lemma Same.refl (s : Node ID) : Same s s := ⟨rfl, rfl, rfl⟩

lemma Same.takeStatus {s s' : Node ID} (h : Same s s') (env : Env) (y : ID)
    (info : PeerStatusInfo) : Same (s.takeStatus env y info) (s'.takeStatus env y info) := by
  have hrec : recorded env s'.conf.aliases s'.now info ((s'.conf.getPeer (string y)).getD {}) =
      recorded env s.conf.aliases s.now info ((s.conf.getPeer (string y)).getD {}) := by
    rw [h.conf, h.now]
  simp only [Node.takeStatus, hrec]
  refine ⟨?_, ?_, h.now⟩
  · simp only [Node.setUsingPeerID, Node.upsertPeer, Node.save, h.conf]
  · simp only [Node.setUsingPeerID, Node.upsertPeer, Node.save, h.conf]

lemma takeStatus_known {env : Env} {y : ID} {info : PeerStatusInfo} {s : Node ID} {kp : KnownPeer}
    (h : (s.conf.getPeer (string y)).getD {} = kp) :
    (s.takeStatus env y info).conf.knownPeers =
      s.conf.knownPeers.insert kp.peerID (recorded env s.conf.aliases s.now info kp) := by
  simp only [takeStatus, h, Node.setUsingPeerID, Node.upsertPeer, Node.save, Config.upsertPeer,
    recorded_peerID]

lemma takeStatus_using {env : Env} {y : ID} {info : PeerStatusInfo} {s : Node ID} {kp : KnownPeer}
    (h : (s.conf.getPeer (string y)).getD {} = kp) :
    (s.takeStatus env y info).conf.socks5.usingPeerID =
      reselect info kp.peerID s.conf.socks5.usingPeerID := by
  simp only [takeStatus, h, recorded_peerID]
  rfl

/-- What is selected is not saved. -/
lemma takeStatus_disk (env : Env) (y : ID) (info : PeerStatusInfo) (s : Node ID) :
    (s.takeStatus env y info).disk =
      { (s.takeStatus env y info).conf with socks5 := s.conf.socks5 } := rfl

/-- A call of `AddPeer` that goes through. -/
lemma takeCall_ok {env : Env} {c : AddCall ID} {s : Node ID} {peer : KnownPeer}
    (h : c.outcome env s = .ok peer) :
    ∃ blocked, (s.takeCall env c).conf = { s.conf with
        knownPeers := s.conf.knownPeers.insert peer.peerID peer, blockedPeers := blocked } ∧
      (s.takeCall env c).disk = (s.takeCall env c).conf := by
  simp only [takeCall, h, Node.removeBlockedPeer]
  split_ifs
  · exact ⟨_, rfl, rfl⟩
  · exact ⟨_, rfl, rfl⟩

lemma takeCall_error {env : Env} {c : AddCall ID} {s : Node ID} {e : AddPeerError}
    (h : c.outcome env s = .error e) : s.takeCall env c = s := by
  simp only [takeCall, h]

end Node

/-- The address is the next one, or the one that was asked for and has passed the check. -/
lemma AuthStatus.chooseIP_eq_ok {conf : Config} {peerID ipAddr ip : String}
    (h : AuthStatus.chooseIP conf peerID ipAddr = .ok ip) :
    ipAddr = "" ∧ ip = conf.generateNextIpAddr ∨
      ipAddr ≠ "" ∧ ip = ipAddr ∧ conf.checkIPUnique ipAddr peerID = .ok := by
  unfold AuthStatus.chooseIP at h
  split_ifs at h with hempty
  · cases h
    exact Or.inl ⟨hempty, rfl⟩
  · split at h
    · next hcheck =>
      cases h
      exact Or.inr ⟨hempty, rfl, hcheck⟩
    · cases h

namespace AddCall

variable {env : Env} {c : AddCall ID} {s : Node ID} {peer : KnownPeer}

/-- The record that a call writes is of a peer that was not known, and its alias is free. -/
lemma outcome_ok (h : c.outcome env s = .ok peer) :
    s.conf.getPeer (string c.peerID) = none ∧
      s.conf.isUniqPeerAlias "" (trimSpace c.peerAlias) = true ∧
      ∃ ipAddr, AuthStatus.chooseIP s.conf (string c.peerID) c.ipAddr = .ok ipAddr ∧
        peer = newPeer env (string c.peerID) c.name (trimSpace c.peerAlias) ipAddr c.confirmed
          s.now := by
  unfold outcome at h
  rcases h1 : s.conf.getPeer (string c.peerID) with _ | kp
  · rcases h2 : s.conf.isUniqPeerAlias "" (trimSpace c.peerAlias) with _ | _
    · simp [h1, h2] at h
    · rcases h3 : AuthStatus.chooseIP s.conf (string c.peerID) c.ipAddr with e | ipAddr
      · simp [h1, h2, h3] at h
      · refine ⟨rfl, rfl, ipAddr, rfl, ?_⟩
        simpa [h1, h2, h3] using h.symm
  · simp [h1] at h

end AddCall

namespace Operation

variable [DecidableEq ID] {env : Env} {s : Node ID}

/-! ### What each operation does -/

omit [PeerCodec ID] [DecidableEq ID] in
lemma finish_process (net : Req ID → Resp) (kp : KnownPeer) (info : PeerStatusInfo) (s : Node ID) :
    (processPeerStatusInfo env kp info).code.finish net s =
      (s.upsertPeer (recorded env s.conf.aliases s.now info kp)).setUsingPeerID
        (reselect info kp.peerID) := by
  simp only [processPeerStatusInfo, Go.code, Go.bind_apply, Go.read_apply, Code.finish_act,
    Go.ite_apply, id]
  by_cases hd : info.declined = true
  · have hre : reselect info kp.peerID = fun u => if u = kp.peerID then "" else u := by
      funext u
      simp only [reselect, hd, if_true]
    simp only [hd, hre, if_true, Go.modify_apply, Code.finish_act, Code.finish_done, recorded]
  · have hd' : info.declined = false := by simpa using hd
    have hre : reselect info kp.peerID = fun u => if info.allowUsingAsExitNode then
        (if u = "" then kp.peerID else u) else if u = kp.peerID then "" else u := by
      funext u
      simp only [reselect, hd', Bool.false_eq_true, if_false]
    by_cases ha : kp.peerAlias = ""
    · simp [hd', ha, hre, recorded, confirmPeer]
    · simp [hd', ha, hre, recorded, confirmPeer]

omit [DecidableEq ID] in
/-- The status is processed, after sections that do not touch the configuration. -/
lemma same_process {s₁ : Node ID} (h : Node.Same s s₁) (net : Req ID → Resp) (y : ID)
    (info : PeerStatusInfo) :
    Node.Same (s.takeStatus env y info) ((processPeerStatusInfo env
      ((s₁.conf.getPeer (string y)).getD {}) info).code.finish net s₁) := by
  rw [finish_process]
  have := h.takeStatus env y info
  simpa only [Node.takeStatus, recorded_peerID] using this

lemma run_inbound (y : ID) (sid : ℕ) (net : Req ID → Resp) :
    Node.Same (((Exchange.inbound sid).hears y net s).elim s fun info => s.takeStatus env y info)
      (((Exchange.inbound sid).code env y).finish net s) := by
  simp only [Exchange.code, statusStreamHandler, Exchange.hears, Go.code, Go.bind_apply,
    Go.read_apply, Code.finish_act, Go.ite_apply, Go.pure_apply, Go.block_apply, id]
  rcases hb : (s.conf.getBlockedPeer (string y)).isSome with _ | _
  · rcases hk : s.conf.getPeer (string y) with _ | kp
    · exact Node.Same.refl s
    · simp only [Option.isNone_some, Bool.false_and, Bool.or_false, Bool.false_eq_true, if_false,
        Code.finish_ask]
      rcases net (.receiveStatus { remote := y, sid := sid, inbound := true }) with
        _ | _ | _ | info | _ | _
      case status =>
        have hsame : Node.Same s { s with outgoingAuths := s.outgoingAuths.erase y } :=
          ⟨rfl, rfl, rfl⟩
        exact same_process hsame net y info
      all_goals exact Node.Same.refl s
  · simp only [Bool.not_true, Bool.and_false, Bool.true_or, Bool.false_eq_true, if_true, if_false,
      Code.finish_ask, Option.elim_none]
    rcases net (.receiveStatus { remote := y, sid := sid, inbound := true }) with
      _ | _ | _ | info | _ | _
    case status => exact ⟨rfl, rfl, rfl⟩
    all_goals exact Node.Same.refl s

lemma run_outbound (y : ID) (knownPeer : KnownPeer) (net : Req ID → Resp) :
    Node.Same (((Exchange.outbound knownPeer).hears y net s).elim s fun info =>
        s.takeStatus env y info)
      (((Exchange.outbound knownPeer).code env y).finish net s) := by
  have hsame : Node.Same s { s with ingoingAuths := s.ingoingAuths.erase y } := ⟨rfl, rfl, rfl⟩
  simp only [Exchange.code, exchangeNewStatusInfo, Exchange.hears, Go.code, Go.bind_apply,
    Go.modify_apply, Code.finish_act, Go.block_apply, Code.finish_ask]
  rcases hc : net (.connectPeer y) with _ | _ | _ | _ | _ | _
  case ok =>
    simp only [Go.bind_apply, Go.block_apply, Code.finish_ask]
    rcases hn : net (.newStream y .status) with _ | _ | sid | _ | _ | _
    case stream =>
      simp only [Go.bind_apply, Go.read_apply, Code.finish_act, id]
      set stream : Stream ID := { remote := y, sid := sid, inbound := false }
      rcases hb : (s.conf.getBlockedPeer (string y)).isSome with _ | _
      · simp only [createPeerInfo, Go.ite_apply, Go.bind_apply, Go.read_apply, Go.pure_apply,
          Code.finish_act, Go.block_apply, Code.finish_ask, Bool.false_eq_true, if_false, id]
        set info : PeerStatusInfo := {
          name := s.conf.p2pNode.name
          allowUsingAsExitNode := knownPeer.weAllowUsingAsExitNode
          usingPeerID := s.conf.socks5.usingPeerID }
        rcases net (.sendStatus stream info) with _ | _ | _ | _ | _ | _
        case ok =>
          simp only [Go.bind_apply, Go.block_apply, Code.finish_ask]
          rcases net (.receiveStatus { stream with sent := some info }) with
            _ | _ | _ | heard | _ | _
          case status => exact same_process hsame net y heard
          all_goals exact hsame
        all_goals exact hsame
      · simp only [createPeerInfo, Go.ite_apply, Go.pure_apply, Go.block_apply, Code.finish_ask,
          if_true, Option.elim_none]
        rcases net (.sendStatus stream { declined := true }) with _ | _ | _ | _ | _ | _
        case ok =>
          simp only [Go.bind_apply, Go.block_apply, Code.finish_ask]
          rcases net (.receiveStatus { stream with sent := some { declined := true } }) with
            _ | _ | _ | heard | _ | _
          all_goals exact hsame
        all_goals exact hsame
    all_goals
      simp only [ite_self, Option.elim_none]
      exact hsame
  all_goals
    simp only [ite_self, Option.elim_none]
    exact hsame

/-- A status exchange. -/
lemma run_statusExchange (y : ID) (hy : y ≠ zero) (x : Exchange) (net : Req ID → Resp) :
    Node.Same ((x.hears y net s).elim s fun info => s.takeStatus env y info)
      ((statusExchange y hy x net).run env s) := by
  cases x with
  | inbound sid => exact run_inbound y sid net
  | outbound knownPeer => exact run_outbound y knownPeer net

/-- An auth request: the record of a peer that declines says so. -/
lemma run_authRequest (y : ID) (req : AuthPeer) (net : Req ID → Resp) :
    Node.Same (match authAnswer y req net, s.conf.getPeer (string y) with
        | some response, some kp =>
          if response.declined then s.upsertPeer { kp with declined := true } else s
        | _, _ => s)
      ((authRequest y req net).run env s) := by
  have hsame : Node.Same s { s with outgoingAuths := s.outgoingAuths.insert y req } :=
    ⟨rfl, rfl, rfl⟩
  simp only [run, sendAuthRequest, authAnswer, Go.code, Go.bind_apply, Go.modify_apply,
    Code.finish_act, Go.block_apply, Code.finish_ask]
  rcases net (.connectPeer y) with _ | _ | _ | _ | _ | _
  case ok =>
    simp only [Go.bind_apply, Go.block_apply, Code.finish_ask]
    rcases net (.newStream y .auth) with _ | _ | sid | _ | _ | _
    case stream =>
      set stream : Stream ID := { remote := y, sid := sid, inbound := false }
      simp only [Go.bind_apply, Go.block_apply, Code.finish_ask]
      rcases net (.sendAuth stream req) with _ | _ | _ | _ | _ | _
      case ok =>
        simp only [Go.bind_apply, Go.block_apply, Code.finish_ask]
        rcases net (.receiveAuthResponse stream) with _ | _ | _ | _ | _ | response
        case authResponse =>
          obtain ⟨confirmed, declined⟩ := response
          rcases hk : s.conf.getPeer (string y) with _ | kp
          · cases confirmed <;> cases declined <;> simp [hk] <;> exact ⟨rfl, rfl, rfl⟩
          · cases confirmed <;> cases declined <;> simp [hk] <;> exact ⟨rfl, rfl, rfl⟩
        all_goals exact hsame
      all_goals exact hsame
    all_goals exact hsame
  all_goals exact hsame

lemma run_authRequest_cases (env : Env) (s : Node ID) (y : ID) (req : AuthPeer)
    (net : Req ID → Resp) :
    Node.Same s ((authRequest y req net).run env s) ∨ ∃ kp, s.conf.getPeer (string y) = some kp ∧
      Node.Same (s.upsertPeer { kp with declined := true })
        ((authRequest y req net).run env s) := by
  have hsame : Node.Same _ ((authRequest y req net).run env s) := run_authRequest y req net
  rcases hk : s.conf.getPeer (string y) with _ | kp <;>
    rcases ha : authAnswer y req net with _ | response <;> simp only [hk, ha] at hsame
  case some.some =>
    split_ifs at hsame
    · exact Or.inr ⟨kp, rfl, hsame⟩
    · exact Or.inl hsame
  all_goals exact Or.inl hsame

/-- A call of `AddPeer`. -/
lemma finish_addPeer (net : Req ID → Resp) (c : AddCall ID) (s : Node ID) :
    (AuthStatus.addPeer env c.peerID c.name c.peerAlias c.confirmed c.ipAddr).code.finish net s =
      s.takeCall env c := by
  rcases h1 : s.conf.getPeer (string c.peerID) with _ | kp
  · rcases h2 : s.conf.isUniqPeerAlias "" (trimSpace c.peerAlias) with _ | _
    · simp [AuthStatus.addPeer, Go.code, h1, h2, Node.takeCall, AddCall.outcome]
    · rcases h3 : AuthStatus.chooseIP s.conf (string c.peerID) c.ipAddr with e | ipAddr
      · simp [AuthStatus.addPeer, Go.code, h1, h2, h3, Node.takeCall, AddCall.outcome]
      · simp [AuthStatus.addPeer, Go.code, h1, h2, h3, Node.takeCall, AddCall.outcome]
  · simp [AuthStatus.addPeer, Go.code, h1, Node.takeCall, AddCall.outcome]

lemma run_addPeer (c : AddCall ID) (hc : c.peerID ≠ zero) :
    (addPeer c hc).run env s = s.takeCall env c := finish_addPeer silent c s

/-- An auth request from another node. -/
lemma run_authStream (y : ID) (hy : y ≠ zero) (sid : ℕ) (net : Req ID → Resp) :
    Node.Same ((autoAccepted y sid net s).elim s fun c => s.takeCall env c)
      ((authStream y hy sid net).run env s) := by
  simp only [run, authStreamHandler, autoAccepted, Go.code, Go.bind_apply, Go.block_apply,
    Code.finish_ask]
  rcases net (.receiveAuth { remote := y, sid := sid, inbound := true }) with
    _ | _ | _ | _ | authPeer | _
  case auth =>
    have hsame : Node.Same s { s with ingoingAuths := s.ingoingAuths.insert y authPeer } :=
      ⟨rfl, rfl, rfl⟩
    rcases hk : s.conf.getPeer (string y) with _ | kp
    · rcases hb : s.conf.getBlockedPeer (string y) with _ | b
      · rcases ha : s.conf.p2pNode.autoAcceptAuthRequests with _ | _
        · simpa [hk, hb, ha] using hsame
        · simp only [Go.bind_apply, Go.read_apply, Go.ite_apply, Go.pure_apply, Go.block_apply,
            Code.finish_act, Code.finish_ask, hk, hb, ha, Option.isSome_none, Option.isNone_none,
            Bool.not_false, Bool.not_true, Bool.and_true, Bool.and_false, Bool.false_eq_true,
            if_true, if_false, Option.elim_some, id]
          rw [← finish_addPeer net]
          exact Node.Same.refl _
      · simpa [hk, hb] using Node.Same.refl s
    · simpa [hk] using Node.Same.refl s
  all_goals exact Node.Same.refl s

/-- A request for new settings. -/
lemma run_updatePeerSettings {req : UpdatePeerSettingsRequest} {kp : KnownPeer}
    (h : Api.Accepts env s.conf req kp) :
    (updatePeerSettings req : Operation ID).run env s =
      s.upsertPeer (Api.withSettings kp req) := by
  have hrun := Api.updatePeerSettings_runSeg h
  rw [run, Code.finish_of_runSeg, hrun]
  rw [hrun]

lemma run_updatePeerSettings_refused {req : UpdatePeerSettingsRequest}
    (h : ∀ kp, ¬ Api.Accepts env s.conf req kp) :
    (updatePeerSettings req : Operation ID).run env s = s := by
  have hrun := Api.updatePeerSettings_runSeg_refused h
  rw [run, Code.finish_of_runSeg, hrun]
  rw [hrun]

/-- A removal. -/
lemma run_removePeer (req : PeerIDRequest) :
    (removePeer req : Operation ID).run env s =
      match (decode req.peerID : Option ID), s.conf.getPeer req.peerID with
      | some peerID, some kp =>
        (s.removePeer req.peerID).upsertBlockedPeer (string peerID) kp.displayName
      | _, _ => s := by
  by_cases he : req.peerID = ""
  · simp [run, Api.removePeer, Go.code, he, decode_empty]
  · rcases hd : (decode req.peerID : Option ID) with _ | peerID
    · simp [run, Api.removePeer, Go.code, he, hd]
    · rcases hk : s.conf.getPeer req.peerID with _ | kp
      · simp [run, Api.removePeer, Go.code, he, hd, hk, Node.removePeer]
      · simp [run, Api.removePeer, Go.code, he, hd, hk, blockPeer]

/-- A peer that was known. -/
lemma run_removePeer_known (env : Env) {req : PeerIDRequest} {peerID : ID} {kp : KnownPeer}
    (hd : decode req.peerID = some peerID) (hk : s.conf.getPeer req.peerID = some kp) :
    ∃ blocked, ((removePeer req : Operation ID).run env s).conf = { s.conf with
        knownPeers := s.conf.knownPeers.erase req.peerID, blockedPeers := blocked } ∧
      ((removePeer req : Operation ID).run env s).disk =
        ((removePeer req : Operation ID).run env s).conf := by
  rw [run_removePeer, hd, hk]
  simp only [Node.removePeer, hk, Option.isSome_some, if_true]
  exact ⟨_, rfl, rfl⟩

/-- The choice of an exit node. -/
lemma run_updateProxySettings (u : String) :
    (updateProxySettings u : Operation ID).run env s =
      if u = "" ∨ (s.conf.getPeer u).any KnownPeer.allowedUsingAsExitNode then
        (s.setUsingPeerID fun _ => u).save (s.setUsingPeerID fun _ => u).conf
      else s := by
  by_cases he : u = ""
  · simp [run, Api.updateProxySettings, SOCKS5.setProxyPeerID, Go.code, he]
  · rcases hk : s.conf.getPeer u with _ | kp
    · simp [run, Api.updateProxySettings, Go.code, he, hk]
    · rcases ha : kp.allowedUsingAsExitNode with _ | _
      · simp [run, Api.updateProxySettings, Go.code, he, hk, ha]
      · simp [run, Api.updateProxySettings, SOCKS5.setProxyPeerID, Go.code, he, hk, ha]

end Operation

end Awl
