import Awl.AuthStatus

/-!
The HTTP handlers that change the set of known peers. A request that fails its validation is
answered before anything is read.
-/

namespace Awl

open Text PeerCodec Go

structure FriendRequest where
  peerID : String
  peerAlias : String
  ipAddr : String := ""

structure FriendRequestReply where
  peerID : String
  peerAlias : String
  decline : Bool := false
  ipAddr : String := ""

structure PeerIDRequest where
  peerID : String

structure UpdatePeerSettingsRequest where
  peerID : String
  peerAlias : String
  domainName : String
  ipAddr : String
  allowUsingAsExitNode : Bool

/-- Why a request is answered with `400 Bad Request`. -/
inductive BadRequest
  | validation
  | invalidPeerID
  | yourself
  | noFriendRequest
  | invalidDomainName
  | aliasNotUniq
  | addPeer (e : AuthStatus.AddPeerError)
  | ip (check : IPCheck)
  deriving DecidableEq

inductive Answer
  | noContent
  | badRequest (reason : BadRequest)
  | notFound
  deriving DecidableEq

namespace Api

variable {ID : Type} [DecidableEq ID] [PeerCodec ID]

/-- `required,trimmed_str_not_empty`. -/
def validText (s : String) : Bool := s ≠ "" && trimSpace s ≠ ""

/-- `omitempty,ipv4`. -/
def validOptionalIP (env : Env) (ip : String) : Bool := ip = "" || env.isIPv4 ip

def validSettings (env : Env) (req : UpdatePeerSettingsRequest) : Bool :=
  req.peerID ≠ "" && validText req.peerAlias && validText req.domainName
    && req.ipAddr ≠ "" && env.isIPv4 req.ipAddr

/-- A known peer with the settings of a request. -/
def withSettings (knownPeer : KnownPeer) (req : UpdatePeerSettingsRequest) : KnownPeer :=
  { knownPeer with
    peerAlias := trimSpace req.peerAlias
    domainName := req.domainName
    weAllowUsingAsExitNode := req.allowUsingAsExitNode
    ipAddr := req.ipAddr }

/-- New settings leave alone whose record it is, and what the peer reports. -/
lemma withSettings_kept (kp : KnownPeer) (req : UpdatePeerSettingsRequest) :
    (withSettings kp req).peerID = kp.peerID ∧ (withSettings kp req).declined = kp.declined ∧
      (withSettings kp req).name = kp.name ∧ (withSettings kp req).confirmed = kp.confirmed ∧
      (withSettings kp req).allowedUsingAsExitNode = kp.allowedUsingAsExitNode ∧
      (withSettings kp req).reportedUsingPeerID = kp.reportedUsingPeerID := by
  simp only [withSettings, and_self]

def updatePeerSettings (env : Env) (req : UpdatePeerSettingsRequest) : Prog ID Answer := do
  if !validSettings env req then return .badRequest .validation
  if !env.isValidDomainName req.domainName then return .badRequest .invalidDomainName
  let some knownPeer ← read fun s => s.conf.getPeer req.peerID | return .notFound
  let uniq ← read fun s => s.conf.isUniqPeerAlias req.peerID (trimSpace req.peerAlias)
  if !uniq then return .badRequest .aliasNotUniq
  -- the check and the update are made under one lock
  let check ← locked
    (fun s => if s.conf.checkIPUnique req.ipAddr knownPeer.peerID = .ok then
        s.upsertPeer (withSettings knownPeer req)
      else s)
    (fun s => s.conf.checkIPUnique req.ipAddr knownPeer.peerID)
  if check ≠ .ok then return .badRequest (.ip check)
  spawn (AuthStatus.exchangeNewStatusInfo env knownPeer.peerId (withSettings knownPeer req))
  return .noContent

/-- How the result of `AddPeer` is answered. -/
def answerAddPeer : Except AuthStatus.AddPeerError Unit → Answer
  | .ok () => .noContent
  | .error e => .badRequest (.addPeer e)

def sendFriendRequest (env : Env) (req : FriendRequest) : Prog ID Answer := do
  if !(req.peerID ≠ "" && validText req.peerAlias && validOptionalIP env req.ipAddr) then
    return .badRequest .validation
  let some peerID := (decode req.peerID : Option ID) | return .badRequest .invalidPeerID
  let self ← read fun s => s.conf.p2pNode.peerID
  if req.peerID = self then return .badRequest .yourself
  answerAddPeer <$> AuthStatus.addPeer env peerID "" req.peerAlias false req.ipAddr

def acceptFriend (env : Env) (req : FriendRequestReply) : Prog ID Answer := do
  if !(req.peerID ≠ "" && validText req.peerAlias && validOptionalIP env req.ipAddr) then
    return .badRequest .validation
  let some peerID := (decode req.peerID : Option ID) | return .badRequest .invalidPeerID
  let self ← read fun s => s.conf.p2pNode.peerID
  if req.peerID = self then return .badRequest .yourself
  let some auth ← read fun s => s.getIngoingAuthRequests.lookup req.peerID
    | return .badRequest .noFriendRequest
  if req.decline then
    AuthStatus.blockPeer env peerID auth.name
    return .noContent
  answerAddPeer <$> AuthStatus.addPeer env peerID auth.name req.peerAlias true req.ipAddr

def removePeer (env : Env) (req : PeerIDRequest) : Prog ID Answer := do
  if req.peerID = "" then return .badRequest .validation
  let some peerID := (decode req.peerID : Option ID) | return .badRequest .invalidPeerID
  let some knownPeer ← locked (Node.removePeer req.peerID) (fun s => s.conf.getPeer req.peerID)
    | return .notFound
  AuthStatus.blockPeer env peerID knownPeer.displayName
  return .noContent

end Api

end Awl
