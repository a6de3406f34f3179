import Awl.Defaults
import Awl.Goroutine

/-!
The service that makes friends: auth requests, status exchanges, and the peers they add,
confirm, decline and block.

Every method of `Config` that takes the lock is one critical section, as are the accesses to
the maps of pending requests. The blocking operations are those of the p2p service and of
its streams. A stream handle says who is at the other end, which side opened it, and what
this side has sent on it; closing it is left out, as are logging, metrics and the events
that are emitted.
-/

namespace Awl

open Text PeerCodec

inductive Proto
  | auth | status
  deriving DecidableEq

structure PeerStatusInfo where
  name : String := ""
  declined : Bool := false
  allowUsingAsExitNode : Bool := false
  usingPeerID : String := ""
  deriving DecidableEq

structure AuthPeer where
  name : String
  deriving DecidableEq

structure AuthPeerResponse where
  confirmed : Bool
  declined : Bool
  deriving DecidableEq

structure Stream (ID : Type) where
  remote : ID
  sid : ℕ
  inbound : Bool
  sent : Option PeerStatusInfo := none
  deriving DecidableEq

/-- The blocking operations. -/
inductive Req (ID : Type)
  | connectPeer (peerID : ID)
  | newStream (peerID : ID) (proto : Proto)
  | sendStatus (stream : Stream ID) (info : PeerStatusInfo)
  | receiveStatus (stream : Stream ID)
  | sendAuth (stream : Stream ID) (authPeer : AuthPeer)
  | receiveAuth (stream : Stream ID)
  | sendAuthResponse (stream : Stream ID) (response : AuthPeerResponse)
  | receiveAuthResponse (stream : Stream ID)

inductive Resp
  | error
  | ok
  | stream (sid : ℕ)
  | status (info : PeerStatusInfo)
  | auth (authPeer : AuthPeer)
  | authResponse (response : AuthPeerResponse)
  deriving DecidableEq

/-- The changes to the set of known peers that a user asked for or agreed to. -/
inductive Change (ID : Type)
  | added (peerID : ID)
  | removed (key : String)
  deriving DecidableEq

/-- A node: its configuration in memory and on disk, the pending requests, the clock, and the
history of additions and removals, which nothing reads. -/
structure Node (ID : Type) where
  conf : Config
  disk : Config
  ingoingAuths : GoMap ID AuthPeer
  outgoingAuths : GoMap ID AuthPeer
  now : ℕ
  history : List (Change ID)

namespace Node

variable {ID : Type} [DecidableEq ID] [PeerCodec ID]

/-- Change the configuration and save it. -/
def save (s : Node ID) (conf : Config) : Node ID := { s with conf := conf, disk := conf }

def upsertPeer (peer : KnownPeer) (s : Node ID) : Node ID := s.save (s.conf.upsertPeer peer)

def removePeer (peerID : String) (s : Node ID) : Node ID :=
  if (s.conf.getPeer peerID).isSome then
    { s.save (s.conf.removePeer peerID) with history := s.history ++ [.removed peerID] }
  else s

def upsertBlockedPeer (peerID displayName : String) (s : Node ID) : Node ID :=
  s.save (s.conf.upsertBlockedPeer peerID displayName s.now)

/-- `RemoveBlockedPeer`, which `AddPeer` calls once its checks have passed. -/
def removeBlockedPeer (peerID : ID) (s : Node ID) : Node ID :=
  let s : Node ID := { s with history := s.history ++ [.added peerID] }
  if (s.conf.getBlockedPeer (string peerID)).isSome then
    s.save (s.conf.removeBlockedPeer (string peerID))
  else s

def updatePeerLastSeen (peerID : String) (s : Node ID) : Node ID :=
  { s with conf := s.conf.updatePeerLastSeen peerID s.now }

def setUsingPeerID (f : String → String) (s : Node ID) : Node ID :=
  { s with conf := { s.conf with
      socks5 := { s.conf.socks5 with usingPeerID := f s.conf.socks5.usingPeerID } } }

/-- `GetIngoingAuthRequests`. -/
def getIngoingAuthRequests (s : Node ID) : GoMap String AuthPeer :=
  s.ingoingAuths.mapKeys string fun _ _ => string_inj

/-- The body of the loop of `restoreOutgoingAuths`. -/
def restoreOutgoingAuth (name : String) (outgoingAuths : GoMap ID AuthPeer)
    (knownPeer : KnownPeer) : GoMap ID AuthPeer :=
  if !knownPeer.confirmed && !knownPeer.declined then
    outgoingAuths.insert knownPeer.peerId ⟨name⟩
  else outgoingAuths

/-- The node after a restart: the configuration loaded from disk and `NewAuthStatus`; `ks`
and `ks'` are the orders in which its loops visit the known peers. -/
def restart (env : Env) (ks ks' : List String) (s : Node ID) : Node ID :=
  let conf := s.disk.setDefaults env ks
  { s with
    conf := conf
    ingoingAuths := ∅
    outgoingAuths := GoMap.rangeLoop conf.knownPeers
      (fun m _ kp => restoreOutgoingAuth conf.p2pNode.name m kp) ∅ ks' }

end Node

/-- Programs of a node. -/
abbrev Prog (ID : Type) := Go (Node ID) (Req ID) Resp

namespace AuthStatus

open Go

variable {ID : Type} [DecidableEq ID] [PeerCodec ID]

/-! ### Status exchange -/

def createPeerInfo (peer : KnownPeer) (myPeerName : String) (declined : Bool) :
    Prog ID PeerStatusInfo := do
  if declined then return { declined := true }
  let usingPeerID ← read fun s => s.conf.socks5.usingPeerID
  return {
    name := myPeerName
    allowUsingAsExitNode := peer.weAllowUsingAsExitNode
    usingPeerID := usingPeerID }

/-- What a status that does not decline makes of the record it is about. -/
def confirmPeer (env : Env) (peer : KnownPeer) (peerInfo : PeerStatusInfo) : KnownPeer :=
  let peer := { peer with name := peerInfo.name, confirmed := true, declined := false }
  { peer with
    domainName := if peer.domainName = "" then env.trimDomainName peer.displayName
      else peer.domainName }

def processPeerStatusInfo (env : Env) (peer : KnownPeer) (peerInfo : PeerStatusInfo) :
    Prog ID Unit := do
  let now ← read fun s => s.now
  let peer := { peer with lastSeen := now }
  if peerInfo.declined then
    let peer := { peer with declined := true }
    modify (Node.upsertPeer peer)
    modify (Node.setUsingPeerID fun u => if u = peer.peerID then "" else u)
  else
    let peer := confirmPeer env peer peerInfo
    let peerAlias ← if peer.peerAlias = "" then
        read fun s => (Config.genUniqPeerAlias s.conf.aliases peer.name peer.peerAlias).1
      else pure peer.peerAlias
    let peer := { peer with
      peerAlias := peerAlias
      allowedUsingAsExitNode := peerInfo.allowUsingAsExitNode
      reportedUsingPeerID := peerInfo.usingPeerID }
    modify (Node.upsertPeer peer)
    modify (Node.setUsingPeerID fun u =>
      if peer.allowedUsingAsExitNode then (if u = "" then peer.peerID else u)
      else if u = peer.peerID then "" else u)

def statusStreamHandler (env : Env) (stream : Stream ID) : Prog ID Unit := do
  let peerID := string stream.remote
  let knownPeer ← read fun s => s.conf.getPeer peerID
  let isBlocked ← read fun s => (s.conf.getBlockedPeer peerID).isSome
  if knownPeer.isNone && !isBlocked then return
  -- Receiving info
  let .status oppositePeerInfo ← block (.receiveStatus stream) | return
  modify fun s => { s with outgoingAuths := s.outgoingAuths.erase stream.remote }
  -- Sending info
  let myPeerName ← read fun s => s.conf.p2pNode.name
  let myPeerInfo ← createPeerInfo (knownPeer.getD {}) myPeerName isBlocked
  let _ ← block (.sendStatus stream myPeerInfo)
  if isBlocked then return
  -- Processing opposite peer info; whether the peer is still known is not looked at
  let knownPeer ← read fun s => s.conf.getPeer peerID
  processPeerStatusInfo env (knownPeer.getD {}) oppositePeerInfo

def exchangeNewStatusInfo (env : Env) (remotePeerID : ID) (knownPeer : KnownPeer) :
    Prog ID Unit := do
  modify fun s => { s with ingoingAuths := s.ingoingAuths.erase remotePeerID }
  let .ok ← block (.connectPeer remotePeerID) | return
  let .stream sid ← block (.newStream remotePeerID .status) | return
  let stream : Stream ID := { remote := remotePeerID, sid := sid, inbound := false }
  let isBlocked ← read fun s => (s.conf.getBlockedPeer (string remotePeerID)).isSome
  let myPeerName ← read fun s => s.conf.p2pNode.name
  let myPeerInfo ← createPeerInfo knownPeer myPeerName isBlocked
  let .ok ← block (.sendStatus stream myPeerInfo) | return
  let .status oppositePeerInfo ←
    block (.receiveStatus { stream with sent := some myPeerInfo }) | return
  if isBlocked then return
  -- whether the peer is still known is not looked at
  let knownPeer ← read fun s => s.conf.getPeer (string remotePeerID)
  processPeerStatusInfo env (knownPeer.getD {}) oppositePeerInfo

def blockPeer (env : Env) (peerID : ID) (name : String) : Prog ID Unit := do
  modify (Node.upsertBlockedPeer (string peerID) name)
  spawn (exchangeNewStatusInfo env peerID {})

/-! ### Auth requests -/

def sendAuthRequest (peerID : ID) (req : AuthPeer) : Prog ID Unit := do
  modify fun s => { s with outgoingAuths := s.outgoingAuths.insert peerID req }
  let .ok ← block (.connectPeer peerID) | return
  let .stream sid ← block (.newStream peerID .auth) | return
  let stream : Stream ID := { remote := peerID, sid := sid, inbound := false }
  let .ok ← block (.sendAuth stream req) | return
  let .authResponse authResponse ← block (.receiveAuthResponse stream) | return
  if authResponse.confirmed || authResponse.declined then
    modify fun s => { s with outgoingAuths := s.outgoingAuths.erase peerID }
  if authResponse.declined then
    let knownPeer ← read fun s => s.conf.getPeer (string peerID)
    match knownPeer with
    | some knownPeer => modify (Node.upsertPeer { knownPeer with declined := true })
    | none => return

inductive AddPeerError
  | alreadyAdded
  | aliasNotUnique
  | ip (check : IPCheck)
  deriving DecidableEq

/-- The address a new peer gets: the one asked for, if it passes the check, or the next. -/
def chooseIP (conf : Config) (peerID ipAddr : String) : Except AddPeerError String :=
  if ipAddr = "" then .ok conf.generateNextIpAddr
  else match conf.checkIPUnique ipAddr peerID with
    | .ok => .ok ipAddr
    | e => .error (.ip e)

/-- The record of a new peer. -/
def newPeer (env : Env) (peerID name peerAlias ipAddr : String) (confirmed : Bool) (now : ℕ) :
    KnownPeer :=
  let peer : KnownPeer := {
    peerID := peerID
    name := name
    peerAlias := peerAlias
    ipAddr := ipAddr
    confirmed := confirmed
    createdAt := now }
  { peer with domainName := env.trimDomainName peer.displayName }

/-- The goroutine that `AddPeer` starts. -/
def introduce (env : Env) (peerID : ID) (confirmed : Bool) : Prog ID Unit := do
  if !confirmed then
    let name ← read fun s => s.conf.p2pNode.name
    sendAuthRequest peerID ⟨name⟩
  let knownPeer ← read fun s => s.conf.getPeer (string peerID)
  exchangeNewStatusInfo env peerID (knownPeer.getD {})

def addPeer (env : Env) (peerID : ID) (name peerAlias : String) (confirmed : Bool)
    (ipAddr : String) : Prog ID (Except AddPeerError Unit) := do
  let exist ← read fun s => (s.conf.getPeer (string peerID)).isSome
  if exist then return .error .alreadyAdded
  let peerAlias := trimSpace peerAlias
  let uniq ← read fun s => s.conf.isUniqPeerAlias "" peerAlias
  if !uniq then return .error .aliasNotUnique
  match ← read fun s => chooseIP s.conf (string peerID) ipAddr with
  | .error e => return .error e
  | .ok ipAddr =>
    let now ← read fun s => s.now
    modify (Node.removeBlockedPeer peerID)
    modify (Node.upsertPeer (newPeer env (string peerID) name peerAlias ipAddr confirmed now))
    spawn (introduce env peerID confirmed)
    return .ok ()

def authStreamHandler (env : Env) (stream : Stream ID) : Prog ID Unit := do
  let peerID := string stream.remote
  let .auth authPeer ← block (.receiveAuth stream) | return
  let isBlocked ← read fun s => (s.conf.getBlockedPeer peerID).isSome
  let confirmed ← read fun s => (s.conf.getPeer peerID).isSome
  let autoAccept ← read fun s => s.conf.p2pNode.autoAcceptAuthRequests
  if !confirmed && !isBlocked && !autoAccept then
    modify fun s => { s with ingoingAuths := s.ingoingAuths.insert stream.remote authPeer }
  let _ ← block (.sendAuthResponse stream ⟨confirmed, isBlocked⟩)
  -- deferred
  if !confirmed && !isBlocked && autoAccept then
    let peerAlias ← read fun s => (Config.genUniqPeerAlias s.conf.aliases authPeer.name "").1
    let _ ← addPeer env stream.remote authPeer.name peerAlias true ""

/-! ### Connection events and timers -/

def onPeerConnected (env : Env) (peerID : ID) : Prog ID Unit := do
  let authPeer ← read fun s => s.outgoingAuths.lookup peerID
  let knownPeer ← read fun s => s.conf.getPeer (string peerID)
  if knownPeer.isNone && authPeer.isNone then return
  modify (Node.updatePeerLastSeen (string peerID))
  spawn do
    match authPeer with
    | some authPeer => sendAuthRequest peerID authPeer
    | none => pure ()
    match knownPeer with
    | some knownPeer => exchangeNewStatusInfo env peerID knownPeer
    | none => pure ()

def onPeerDisconnected (peerID : ID) : Prog ID Unit := do
  let knownPeer ← read fun s => s.conf.getPeer (string peerID)
  if knownPeer.isNone then return
  modify (Node.updatePeerLastSeen (string peerID))

def exchangeAll (env : Env) : List String → Prog ID Unit
  | [] => pure ()
  | peerID :: peers => do
    let knownPeer ← read fun s => s.conf.getPeer peerID
    match knownPeer with
    | some knownPeer => exchangeNewStatusInfo env knownPeer.peerId knownPeer
    | none => pure ()
    exchangeAll env peers

/-- One round of `BackgroundExchangeStatusInfo`, visiting the known peers in the order
`order`. -/
def exchangeStatusInfoWithAllKnownPeers (env : Env) (order : List String) : Prog ID Unit := do
  let peers ← read fun s => order.filter fun k => (s.conf.getPeer k).isSome
  exchangeAll env peers

def sendAll : List (ID × AuthPeer) → Prog ID Unit
  | [] => pure ()
  | (peerID, auth) :: rest => do
    sendAuthRequest peerID auth
    sendAll rest

/-- One round of `BackgroundRetryAuthRequests`, over a copy of the pending requests taken in
the order `order`. -/
def retryAuthRequests (order : List ID) : Prog ID Unit := do
  let outgoingAuthsCopy ← read fun s => order.filterMap fun id =>
    (s.outgoingAuths.lookup id).map fun auth => (id, auth)
  sendAll outgoingAuthsCopy

end AuthStatus

end Awl
