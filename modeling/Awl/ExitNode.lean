import Awl.Calls
import Awl.ProxyConn

/-!
The SOCKS5 service of a node: streams of peers that use the node as their exit node, and
connections of local clients that are passed on to an exit node.

The critical sections are those of the configuration. What the SOCKS5 library does with a stream
or a connection, and what is copied between the two, is a blocking operation.
-/

namespace Awl

open PeerCodec Go Socks5

/-- A stream of one of the two protocols of the proxy. -/
structure ProxyStream (ID : Type) where
  remote : ID
  sid : ℕ
  protocol : Protocol
  deriving DecidableEq

/-- What a failure reply is sent to. -/
inductive Client (ID : Type)
  | conn (conn : ℕ)
  | stream (stream : ProxyStream ID)
  deriving DecidableEq

/-- The blocking operations. -/
inductive ProxyReq (ID : Type)
  /-- `NewStreamMulti`, with both protocols -/
  | newStreamMulti (peerID : ID)
  | handleLocalAuth (conn : ℕ)
  | handleStream (conn : ℕ) (stream : ProxyStream ID)
  | serveStreamConn (stream : ProxyStream ID)
  | serveStreamConnNoAuth (stream : ProxyStream ID)
  | sendServerFailureReply (client : Client ID)
  | reset (stream : ProxyStream ID)
  | close (conn : ℕ)
  deriving DecidableEq

/-- The blocking operations of a node. -/
abbrev NodeReq (ID : Type) := Req ID ⊕ ProxyReq ID

abbrev ProxyProg (ID : Type) := Go (Node ID) (NodeReq ID) Resp

namespace SOCKS5

variable {ID : Type} [PeerCodec ID]

/-! ### The exit node -/

/-- `ProxyStreamHandler` up to what it defers. -/
def handleProxyStream (stream : ProxyStream ID) : ProxyProg ID Unit := do
  let some knownPeer ← read fun s => s.conf.getPeer (string stream.remote) | return
  if !knownPeer.weAllowUsingAsExitNode then return
  let enabled ← read fun s => s.conf.socks5.proxyingEnabled
  if !enabled then
    if stream.protocol ≠ .noAuthMethod then
      let _ ← block (.inr (.sendServerFailureReply (.stream stream)))
    return
  -- errors are ignored
  if stream.protocol = .noAuthMethod then
    let _ ← block (.inr (.serveStreamConnNoAuth stream))
  else
    let _ ← block (.inr (.serveStreamConn stream))

def proxyStreamHandler (stream : ProxyStream ID) : ProxyProg ID Unit := do
  handleProxyStream stream
  -- deferred
  let _ ← block (.inr (.reset stream))

/-! ### The local clients -/

/-- `proxyConn` once a stream has been opened, up to what it defers, and whether it returns no
error. -/
def passOn (conn : ℕ) (stream : ProxyStream ID) : ProxyProg ID Bool := do
  if stream.protocol = .noAuthMethod then
    let .ok ← block (.inr (.handleLocalAuth conn)) | return false
  let _ ← block (.inr (.handleStream conn stream))
  return true

/-- `proxyConn`, and whether it returns no error; `protocol` says which protocol is negotiated on
each stream. -/
def proxyConn (protocol : ℕ → Protocol) (conn : ℕ) : ProxyProg ID Bool := do
  let usePeerID ← read fun s => s.conf.socks5.usingPeerID
  if usePeerID = "" then return false
  let some peer ← read fun s => s.conf.getPeer usePeerID | return false
  if !peer.allowedUsingAsExitNode then return false
  let remotePeerID : ID := peer.peerId
  let .ok ← block (.inl (.connectPeer remotePeerID)) | return false
  let .stream sid ← block (.inr (.newStreamMulti remotePeerID)) | return false
  let stream : ProxyStream ID := ⟨remotePeerID, sid, protocol sid⟩
  let ok ← passOn conn stream
  -- deferred
  let _ ← block (.inr (.reset stream))
  return ok

/-- The goroutine that `ServeConns` starts for a connection. -/
def serveConn (protocol : ℕ → Protocol) (conn : ℕ) : ProxyProg ID Unit := do
  let ok ← proxyConn protocol conn
  if !ok then
    let _ ← block (.inr (.sendServerFailureReply (.conn conn)))
  -- deferred
  let _ ← block (.inr (.close conn))

end SOCKS5

/-- What is started on a node, with the proxy. -/
inductive NodeCall (ID : Type) [PeerCodec ID]
  | call (l : Call ID)
  | proxyStream (stream : ProxyStream ID)
  | serveConn (conn : ℕ)

namespace NodeCall

variable {ID : Type} [DecidableEq ID] [PeerCodec ID]

def code (env : Env) (protocol : ℕ → Protocol) : NodeCall ID → Code (Node ID) (NodeReq ID) Resp
  | call l => (l.code env).mapAsk .inl
  | proxyStream stream => (SOCKS5.proxyStreamHandler stream).code
  | serveConn conn => (SOCKS5.serveConn protocol conn).code

omit [DecidableEq ID] in
/-- The settings that a call of the user asks for. -/
def settings : NodeCall ID → List UpdatePeerSettingsRequest
  | call (.updatePeerSettings req) => [req]
  | _ => []

end NodeCall

end Awl
