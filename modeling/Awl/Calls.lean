import Awl.Parties
import Awl.PeersApi

/-!
What is started from outside on a node: the calls of its user, the streams other peers open,
the connection events and the timers.
-/

namespace Awl

open PeerCodec Go

/-- A stream is opened by an authenticated peer, so its ID is not the empty one. The lists
are the orders in which maps are visited. -/
inductive Call (ID : Type) [PeerCodec ID]
  | sendFriendRequest (req : FriendRequest)
  | acceptFriend (req : FriendRequestReply)
  | removePeer (req : PeerIDRequest)
  | updatePeerSettings (req : UpdatePeerSettingsRequest)
  | authStream (remote : ID) (valid : remote ≠ zero) (sid : ℕ)
  | statusStream (remote : ID) (valid : remote ≠ zero) (sid : ℕ)
  | peerConnected (peerID : ID)
  | peerDisconnected (peerID : ID)
  | exchangeStatusInfo (order : List String)
  | retryAuthRequests (order : List ID)

/-- What a call runs. -/
def Call.code {ID : Type} [DecidableEq ID] [PeerCodec ID] (env : Env) :
    Call ID → Code (Node ID) (Req ID) Resp
  | sendFriendRequest req => (Api.sendFriendRequest env req).code
  | acceptFriend req => (Api.acceptFriend env req).code
  | removePeer req => (Api.removePeer env req).code
  | updatePeerSettings req => (Api.updatePeerSettings env req).code
  | authStream remote _ sid =>
    (AuthStatus.authStreamHandler env { remote := remote, sid := sid, inbound := true }).code
  | statusStream remote _ sid =>
    (AuthStatus.statusStreamHandler env { remote := remote, sid := sid, inbound := true }).code
  | peerConnected peerID => (AuthStatus.onPeerConnected env peerID).code
  | peerDisconnected peerID => (AuthStatus.onPeerDisconnected peerID).code
  | exchangeStatusInfo order =>
    (AuthStatus.exchangeStatusInfoWithAllKnownPeers env order).code
  | retryAuthRequests order => (AuthStatus.retryAuthRequests order).code

/-- Two nodes and their goroutines. -/
abbrev Pair (ID : Type) := Parties Side (Node ID) (Req ID) Resp

end Awl
