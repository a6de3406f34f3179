import Awl.Chan
import Awl.NetworkAddr
import Awl.Packet
import Mathlib.Logic.Relation

/-!
The tunnel: the peers it serves, the two maps that find them by ID and by address, and the
routing of packets read from the TUN device into the queues of those peers.

A `*VpnPeer` is a position in the list of all peers ever made. Every operation runs under
`peersLock` and is one function here; `none` is a panic (a send on a closed channel or a
second close). Queues hold the packets themselves; which buffer of the pool a packet sits in
is the subject of `Awl.Buffers`.
-/

namespace Awl

open NetIP

def packetHandlersChanCap : ℕ := 2000

structure VpnPeer (ID : Type) where
  peerID : ID
  localIP : IP
  four : localIP.length = 4
  inboundCh : Chan Packet
  outboundCh : Chan Packet

abbrev Ptr := ℕ

structure Tunnel (ID : Type) where
  isClosed : Bool
  heap : List (VpnPeer ID)
  peerIDToPeer : GoMap ID Ptr
  netIPToPeer : GoMap IP Ptr
  udpBroadcastAddr : IP

def newVpnPeer {ID : Type} (peerID : ID) (localIP : IP) (four : localIP.length = 4) :
    VpnPeer ID where
  peerID := peerID
  localIP := localIP
  four := four
  inboundCh := Chan.make Packet packetHandlersChanCap
  outboundCh := Chan.make Packet packetHandlersChanCap

/-- `VpnPeer.Close`. -/
def VpnPeer.close {ID : Type} (vp : VpnPeer ID) : Option (VpnPeer ID) := do
  let inboundCh ← vp.inboundCh.closeAndDrain
  let outboundCh ← vp.outboundCh.closeAndDrain
  return { vp with inboundCh := inboundCh, outboundCh := outboundCh }

lemma KnownPeer.ip4_four {kp : KnownPeer} (h : kp.ip4 ≠ []) : kp.ip4.length = 4 :=
  (to4_length _).resolve_left h

namespace Tunnel

variable {ID : Type} [DecidableEq ID] [PeerCodec ID]

/-- The tunnel of `NewTunnel` before its first refresh. -/
def empty (conf : Config) : Tunnel ID where
  isClosed := false
  heap := []
  peerIDToPeer := ∅
  netIPToPeer := ∅
  udpBroadcastAddr := getIPv4BroadcastAddress ⟨conf.vpnLocalIPMask.1, conf.vpnLocalIPMask.2⟩

def setPeer (t : Tunnel ID) (p : Ptr) (vp : VpnPeer ID) : Tunnel ID :=
  { t with heap := t.heap.set p vp }

/-! ### Refreshing the list of peers -/

/-- A peer of the tunnel whose address has changed. -/
def movePeer (t : Tunnel ID) (p : Ptr) (vp : VpnPeer ID) (newLocalIP : IP)
    (four : newLocalIP.length = 4) : Tunnel ID :=
  { t.setPeer p { vp with localIP := newLocalIP, four := four } with
    netIPToPeer := (t.netIPToPeer.erase vp.localIP).insert newLocalIP p }

def addPeer (t : Tunnel ID) (peerID : ID) (newLocalIP : IP) (four : newLocalIP.length = 4) :
    Tunnel ID :=
  { t with
    heap := t.heap ++ [newVpnPeer peerID newLocalIP four]
    peerIDToPeer := t.peerIDToPeer.insert peerID t.heap.length
    netIPToPeer := t.netIPToPeer.insert newLocalIP t.heap.length }

/-- The body of the loop over `KnownPeers`. -/
def refreshPeer (t : Tunnel ID) (knownPeer : KnownPeer) : Tunnel ID :=
  if h : knownPeer.ip4 = [] then t
  else
    match t.peerIDToPeer.lookup knownPeer.peerId with
    | some p =>
      match t.heap[p]? with
      | some prevPeer =>
        if equal prevPeer.localIP knownPeer.ip4 then t
        else t.movePeer p prevPeer knownPeer.ip4 (KnownPeer.ip4_four h)
      | none => t
    | none => t.addPeer knownPeer.peerId knownPeer.ip4 (KnownPeer.ip4_four h)

/-- Close a peer and drop it from both maps. -/
def closePeer (t : Tunnel ID) (p : Ptr) : Option (Tunnel ID) := do
  let vpnPeer ← t.heap[p]?
  let closed ← vpnPeer.close
  return { t.setPeer p closed with
    peerIDToPeer := t.peerIDToPeer.erase vpnPeer.peerID
    netIPToPeer := t.netIPToPeer.erase vpnPeer.localIP }

/-- The loop `for _, vpnPeer := range t.peerIDToPeer` that closes those `drop` holds of. -/
def closeWhere (drop : ID → Bool) (t : Tunnel ID) (ids : List ID) : Option (Tunnel ID) :=
  ids.foldlM (fun t id => match t.peerIDToPeer.lookup id with
    | some p => do
      let vpnPeer ← t.heap[p]?
      if drop vpnPeer.peerID then t.closePeer p else return t
    | none => return t) t

/-- The loop over `KnownPeers`, in the order `ks`. -/
def refreshKnown (conf : Config) (ks : List String) (t : Tunnel ID) : Tunnel ID :=
  GoMap.rangeLoop conf.knownPeers (fun t _ kp => t.refreshPeer kp) t ks

/-- The peers that are no longer in the configuration. -/
def unknown (conf : Config) (id : ID) : Bool := (conf.getPeer (PeerCodec.string id)).isNone

/-- `RefreshPeersList`, visiting `KnownPeers` in the order `ks` and then `peerIDToPeer` in the
order `ids`. -/
def refreshPeersList (conf : Config) (ks : List String) (ids : List ID) (t : Tunnel ID) :
    Option (Tunnel ID) :=
  (t.refreshKnown conf ks).closeWhere (unknown conf) ids

/-- `Tunnel.Close`. -/
def close (ids : List ID) (t : Tunnel ID) : Option (Tunnel ID) :=
  { t with isClosed := true }.closeWhere (fun _ => true) ids

/-! ### Packets read from the TUN device -/

/-- `net.IPv4bcast`. -/
def ipv4bcast : IP := v4InV6Prefix ++ [255, 255, 255, 255]

/-- The destinations that go to every connected peer. -/
def isBroadcast (t : Tunnel ID) (dst : IP) : Bool :=
  equal dst t.udpBroadcastAddr || equal dst ipv4bcast

/-- What the routing of one packet meets outside the tunnel: who is connected, and the order
in which `range` visits `netIPToPeer`. -/
structure Outside (ID : Type) where
  isConnected : ID → Bool
  order : List IP

/-- A non-blocking send to a peer's outbound queue, and whether there was room. -/
def sendOutbound (t : Tunnel ID) (p : Ptr) (packet : Packet) : Option (Tunnel ID × Bool) := do
  let vpnPeer ← t.heap[p]?
  match vpnPeer.outboundCh.trySend packet with
  | .sent ch => return (t.setPeer p { vpnPeer with outboundCh := ch }, true)
  | .full => return (t, false)
  | .panics => none

/-- A copy to every connected peer: the tunnel, and the peers that got one. -/
def broadcast (isConnected : ID → Bool) (packet : Packet) :
    List IP → Tunnel ID → Option (Tunnel ID × List Ptr)
  | [], t => some (t, [])
  | ip :: ips, t =>
    match t.netIPToPeer.lookup ip with
    | none => broadcast isConnected packet ips t
    | some p => do
      let vpnPeer ← t.heap[p]?
      if isConnected vpnPeer.peerID then
        let (t, sent) ← t.sendOutbound p packet
        let (t, ps) ← broadcast isConnected packet ips t
        return (t, if sent then p :: ps else ps)
      else broadcast isConnected packet ips t

/-- One packet: the tunnel, whether the packet itself was handed over, and the peers that got
it or a copy. -/
def handlePacket (out : Outside ID) (packet : Packet) (t : Tunnel ID) :
    Option (Tunnel ID × Bool × List Ptr) :=
  if t.isBroadcast packet.dstIP then do
    let (t, ps) ← t.broadcast out.isConnected packet out.order
    return (t, false, ps)
  else
    match t.netIPToPeer.lookup packet.dstIP with
    | none => some (t, false, [])
    | some p => do
      let (t, sent) ← t.sendOutbound p packet
      return (t, sent, if sent then [p] else [])

/-- The loop over the batch from slot `i` on: the tunnel, the slots with the handed-over ones
emptied, and for each enqueued packet its slot and the peer. -/
def handleLoop (out : ℕ → Outside ID) :
    ℕ → List (Option Packet) → Tunnel ID →
      Option (Tunnel ID × List (Option Packet) × List (ℕ × Ptr))
  | _, [], t => some (t, [], [])
  | i, none :: packets, t => do
    let (t, slots, log) ← handleLoop out (i + 1) packets t
    return (t, none :: slots, log)
  | i, some packet :: packets, t => do
    let (t, handed, ps) ← t.handlePacket (out i) packet
    let (t, slots, log) ← handleLoop out (i + 1) packets t
    return (t, (if handed then none else some packet) :: slots, ps.map (i, ·) ++ log)

/-- `HandleReadPackets`. -/
def handleReadPackets (out : ℕ → Outside ID) (packets : List (Option Packet)) (t : Tunnel ID) :
    Option (Tunnel ID × List (Option Packet) × List (ℕ × Ptr)) :=
  if t.isClosed then some (t, packets, []) else handleLoop out 0 packets t

/-! ### Packets from and to the other peers -/

/-- The section of `StreamHandler` that enqueues a packet: the tunnel, and whether the
handler goes on. -/
def enqueueInbound (peerID : ID) (packet : Packet) (t : Tunnel ID) : Option (Tunnel ID × Bool) :=
  match t.peerIDToPeer.lookup peerID with
  | none => some (t, false)
  | some p => do
    let vpnPeer ← t.heap[p]?
    match vpnPeer.inboundCh.trySend packet with
    | .sent ch => return (t.setPeer p { vpnPeer with inboundCh := ch }, true)
    | .full => return (t, true)
    | .panics => none

/-- The background handlers of a peer take the oldest packet of a queue. -/
def takeInbound (p : Ptr) (t : Tunnel ID) : Option (Packet × Tunnel ID) := do
  let vpnPeer ← t.heap[p]?
  let (packet, ch) ← vpnPeer.inboundCh.recv
  return (packet, t.setPeer p { vpnPeer with inboundCh := ch })

def takeOutbound (p : Ptr) (t : Tunnel ID) : Option (Packet × Tunnel ID) := do
  let vpnPeer ← t.heap[p]?
  let (packet, ch) ← vpnPeer.outboundCh.recv
  return (packet, t.setPeer p { vpnPeer with outboundCh := ch })

/-! ### Runs -/

/-- One section under `peersLock`, or one receive by a background handler. -/
inductive Step (t t' : Tunnel ID) : Prop
  | refresh (conf : Config) (ks : List String) (ids : List ID)
      (hks : GoMap.Ranges conf.knownPeers ks)
      (hids : GoMap.Ranges (t.refreshKnown conf ks).peerIDToPeer ids)
      (h : t.refreshPeersList conf ks ids = some t')
  | close (ids : List ID) (hids : GoMap.Ranges t.peerIDToPeer ids) (h : t.close ids = some t')
  | handle (out : ℕ → Outside ID) (packets slots : List (Option Packet)) (log : List (ℕ × Ptr))
      (hout : ∀ i, GoMap.Ranges t.netIPToPeer (out i).order)
      (h : t.handleReadPackets out packets = some (t', slots, log))
  | enqueue (peerID : ID) (packet : Packet) (goesOn : Bool)
      (h : t.enqueueInbound peerID packet = some (t', goesOn))
  | inbound (p : Ptr) (packet : Packet) (h : t.takeInbound p = some (packet, t'))
  | outbound (p : Ptr) (packet : Packet) (h : t.takeOutbound p = some (packet, t'))

/-- The states any interleaving of sections leads to. -/
def Reachable (conf : Config) (t : Tunnel ID) : Prop := Relation.ReflTransGen Step (empty conf) t

end Tunnel

end Awl
