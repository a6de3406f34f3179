import Awl.Checksum
import Awl.CutStream
import Awl.StreamLimit

/-!
The tunnel from one node to another: the queue of the peer at the sender, the handlers that send
batches of it, the streams, the handlers that read them, the queue at the receiver and the loop
that writes to the TUN device there, interleaved in any way.

A step is an access to a queue or a stream, or the write of a batch. Packets are values here;
which buffers of the pool they sit in is the subject of `Awl.Buffers` and `Awl.InboundPath`.
What the network does is an input of the steps: whether the peer is connected, whether a stream
can be opened, how much of a write gets through, where a stream breaks. A stream that a write
has failed on, or whose connection is gone, ends for its reader with an error; one that was
closed ends with `io.EOF`. Each packet that is given up is noted with the place where that
happens.
-/

namespace Awl

open NetIP

section

variable {R : Type} [Reader R]

/-- An iteration of the read loop of `StreamHandler` up to its section under `peersLock`. -/
def readFrame (fuel : ℕ) (data : Packet) (stream : R) : Option (Except Stop Packet × R) := do
  let (packetSize, stream) ← readUint64 fuel stream
  match packetSize with
  | .error err => return (.error (.readPacketSize err), stream)
  | .ok packetSize =>
    let wrappedStream : LimitedReader R := ⟨stream, int64 packetSize⟩
    let (packet, _, err, wrappedStream) ← data.readFrom fuel tunPacketOffset wrappedStream
    match err with
    | some err => return (.error (.readToPacket err), wrappedStream.r)
    | none => return (.ok packet, wrappedStream.r)

/-- The read loop is made of these iterations. -/
lemma streamLoop_succ {σ : Type} (pool : ℕ → Packet) (deliver : Packet → σ → Option (σ × Bool))
    (fuel i : ℕ) (stream : R) (s : σ) :
    streamLoop pool deliver (fuel + 1) i stream s = (do
      let (res, stream) ← readFrame fuel (pool i) stream
      match res with
      | .error stop => return (stop, stream, s)
      | .ok packet =>
        let (s, ok) ← deliver packet s
        if ok then streamLoop pool deliver fuel (i + 1) stream s
        else return (.unknownPeer, stream, s)) := by
  simp only [streamLoop, readFrame, Option.bind_eq_bind, Option.pure_def]
  rcases readUint64 fuel stream with _ | ⟨_ | packetSize, stream₁⟩
  · rfl
  · rfl
  · dsimp only [Option.bind_some]
    rcases (pool i).readFrom fuel tunPacketOffset
      (⟨stream₁, int64 packetSize⟩ : LimitedReader R) with _ | ⟨packet, n, _ | err, wrapped⟩
    · rfl
    · rfl
    · rfl

end

namespace Transit

/-- Where a packet is given up. -/
inductive Loss
  /-- `HandleReadPackets` finds the outbound queue full -/
  | outboundFull
  /-- `VpnPeer.Close` drains the queue it sits in -/
  | removed
  /-- the peer is not connected when the batch is to be sent -/
  | notConnected
  /-- no stream can be opened for the batch -/
  | noStream
  /-- the write of the batch fails before the packet is through -/
  | unsent
  /-- the stream breaks before the packet is read -/
  | broken
  /-- the receiver does not know the sender any more -/
  | unknownPeer
  /-- `StreamHandler` finds the inbound queue full -/
  | inboundFull
  /-- `Parse` rejects the packet at the receiver -/
  | invalid
  /-- `WritePacketsBatch` leaves out IPv6 -/
  | ipv6
  deriving DecidableEq

inductive SenderPhase
  /-- the `select` of the main loop -/
  | idle
  /-- `readBatchFromChan` -/
  | gather
  /-- the call of `IsConnected` -/
  | check
  | send
  | stopped
  deriving DecidableEq

/-- A `backgroundOutboundHandler`: its batch, the variables that count what a stream has
carried, and the number of its stream. -/
structure Sender where
  phase : SenderPhase := .idle
  batch : List Packet := []
  out : Outbound.State := {}
  stream : Option ℕ := none

/-- What the reader of a stream finds behind the bytes that are there. -/
inductive Ending
  | running
  | closed
  | broken
  deriving DecidableEq

inductive ReaderPhase
  | starting
  | reading
  | returned
  deriving DecidableEq

/-- A stream: what has been written and not read, how it ends, and its `StreamHandler`. It
keeps what it was given to carry and what was read from it, packet by packet. -/
structure Wire where
  unread : List UInt8 := []
  ending : Ending := .running
  reader : ReaderPhase := .starting
  carried : List (List UInt8) := []
  handed : List (List UInt8) := []

/-- A packet that went to the TUN device: its content as it was received, the address it was
given as its source, and the buffer of the write. -/
structure Delivery where
  content : List UInt8
  senderIP : IP
  buf : List UInt8

/-- The batch of `backgroundInboundHandler`, with the address it has loaded. -/
structure InBatch where
  senderIP : IP
  packets : List Packet
  ready : Bool

/-- The `VpnPeer` of the receiver at the sender, the streams, and the `VpnPeer` of the sender at
the receiver. -/
structure Link where
  outboundCh : Chan Packet
  senders : List Sender
  wires : List Wire
  inboundCh : Chan Packet
  localIP : IP
  inBatch : Option InBatch
  /-- the packets for the receiver that the sender has read from its TUN device -/
  offered : List Packet
  /-- those of them that the outbound queue has taken -/
  accepted : List Packet
  /-- the packets that the inbound queue has taken, each with the stream it came on -/
  arrived : List (ℕ × List UInt8)
  delivered : List Delivery
  lost : List (Loss × List UInt8)

/-- The contents of packets. -/
def contents (packets : List Packet) : List (List UInt8) := packets.map Packet.content

/-- Both peers have been started, the one at the sender with `n` parallel handlers. -/
def Link.init (n : ℕ) (localIP : IP) : Link where
  outboundCh := Chan.make Packet packetHandlersChanCap
  senders := List.replicate n {}
  wires := []
  inboundCh := Chan.make Packet packetHandlersChanCap
  localIP := localIP
  inBatch := none
  offered := []
  accepted := []
  arrived := []
  delivered := []
  lost := []

/-- `packets` are given up. -/
def given (why : Loss) (packets : List (List UInt8)) : List (Loss × List UInt8) :=
  packets.map (why, ·)

/-! ### The stream -/

namespace Wire

/-- A write of the frames of a batch, of which `failed` bytes get through if it fails; and the
packets that are not on the stream as a whole. Nothing gets through on a broken stream. -/
def write (w : Wire) (packets : List (List UInt8)) (failed : Option ℕ) :
    Wire × List (List UInt8) :=
  if w.ending = .broken then ({ w with carried := w.carried ++ packets }, packets)
  else
    let data := Outbound.State.frames packets
    let put := data.take (failed.getD data.length)
    ({ w with
        unread := w.unread ++ put
        ending := if failed.isSome then .broken else w.ending
        carried := w.carried ++ packets },
      packets.drop (frames put).1.length)

def close (w : Wire) : Wire :=
  { w with ending := if w.ending = .running then .closed else w.ending }

/-- The stream breaks, and of what has not been read only `n` bytes can still be; and the
packets that cannot be read any more. -/
def sever (w : Wire) (n : ℕ) : Wire × List (List UInt8) :=
  ({ w with unread := w.unread.take n, ending := .broken },
    (frames w.unread).1.drop (frames (w.unread.take n)).1.length)

/-- The bytes that the reader waits for are there. -/
def Arrived (w : Wire) : Prop :=
  8 ≤ w.unread.length ∧ uint64 w.unread ≤ (w.unread.drop 8).length

instance (w : Wire) : Decidable w.Arrived := inferInstanceAs (Decidable (_ ∧ _))

/-- What the reader reads from. The end may come with the last bytes, if the stream has been
closed. -/
def stream (w : Wire) (plan : ℕ → ℕ × Bool) : ByteStream where
  bytes := w.unread
  plan i := ((plan i).1, (plan i).2 && w.ending = .closed)
  calls := 0

end Wire

namespace Link

def closeStream (wires : List Wire) : Option ℕ → List Wire
  | none => wires
  | some k =>
    match wires[k]? with
    | none => wires
    | some w => wires.set k w.close

/-! ### The sender -/

/-- A packet of the TUN device is parsed and routed to the receiver. -/
def offer (s : Link) (raw : Packet) : Option Link := do
  let packet ← raw.parse
  match s.outboundCh.trySend packet with
  | .sent ch => return { s with
      outboundCh := ch
      offered := s.offered ++ [packet]
      accepted := s.accepted ++ [packet] }
  | .full => return { s with
      offered := s.offered ++ [packet]
      lost := s.lost ++ given .outboundFull [packet.content] }
  | .panics => none

/-- A receive of handler `h`: the first packet of a batch, a further one, or the end of
`readBatchFromChan`. When the queue is closed, the handler returns. -/
def receive (s : Link) (h : ℕ) : Option Link := do
  let x ← s.senders[h]?
  match x.phase with
  | .idle =>
    match s.outboundCh.recv with
    | some (packet, ch) => return { s with
        outboundCh := ch
        senders := s.senders.set h { x with phase := .gather, batch := [packet] } }
    | none =>
      if s.outboundCh.closed then
        return { s with
          wires := closeStream s.wires x.stream
          senders := s.senders.set h
            { x with phase := .stopped, out := x.out.closeStream, stream := none } }
      else none
  | .gather =>
    if x.batch.length = Outbound.packetsBatchSize then
      return { s with senders := s.senders.set h { x with phase := .check } }
    else
      match s.outboundCh.recv with
      | some (packet, ch) => return { s with
          outboundCh := ch
          senders := s.senders.set h { x with batch := x.batch ++ [packet] } }
      | none => return { s with senders := s.senders.set h { x with phase := .check } }
  | _ => none

/-- The call of `IsConnected`. -/
def check (s : Link) (h : ℕ) (isConnected : Bool) : Option Link := do
  let x ← s.senders[h]?
  match x.phase with
  | .check =>
    if isConnected then
      return { s with senders := s.senders.set h { x with phase := .send } }
    else return { s with
      senders := s.senders.set h { x with phase := .idle, batch := [] }
      lost := s.lost ++ given .notConnected (contents x.batch) }
  | _ => none

/-- The batch is sent, on the stream there is if it has room, or on a new one if one can be
`opened`; after an error the stream is closed. -/
def send (s : Link) (h : ℕ) (opened : Option Bool) (failed : Option ℕ) : Option Link := do
  let x ← s.senders[h]?
  match x.phase with
  | .send =>
    let packets := contents x.batch
    let full := (x.out.makeRoom packets).stream.isNone
    let wires := if full then closeStream s.wires x.stream else s.wires
    let sent : Sender := { out := x.out.step (.batch packets true opened failed) }
    match if full then none else x.stream, opened with
    | none, none => return { s with
        wires := wires
        senders := s.senders.set h sent
        lost := s.lost ++ given .noStream packets }
    | none, some _ =>
      let (w, unsent) := Wire.write {} packets failed
      return { s with
        wires := wires ++ [w]
        senders := s.senders.set h
          { sent with stream := if failed.isSome then none else some wires.length }
        lost := s.lost ++ given .unsent unsent }
    | some k, _ =>
      let w ← wires[k]?
      let (w, unsent) := w.write packets failed
      return { s with
        wires := wires.set k w
        senders := s.senders.set h
          { sent with stream := if failed.isSome then none else some k }
        lost := s.lost ++ given .unsent unsent }
  | _ => none

/-- The idle ticker. -/
def tick (s : Link) (h : ℕ) : Option Link := do
  let x ← s.senders[h]?
  match x.phase with
  | .idle =>
    if s.outboundCh.buf = [] then
      return { s with
        wires := closeStream s.wires x.stream
        senders := s.senders.set h { x with out := x.out.step (.tick true), stream := none } }
    else return s
  | _ => none

/-- `VpnPeer.Close` at the sender. -/
def removeReceiver (s : Link) : Option Link := do
  let ch ← s.outboundCh.closeAndDrain
  return { s with
    outboundCh := ch
    lost := s.lost ++ given .removed (contents s.outboundCh.buf) }

/-! ### The network -/

def sever (s : Link) (k n : ℕ) : Option Link := do
  let w ← s.wires[k]?
  let (w, gone) := w.sever n
  return { s with wires := s.wires.set k w, lost := s.lost ++ given .broken gone }

/-! ### The receiver -/

/-- `StreamHandler` is called, and looks whether it knows the peer. -/
def accept (s : Link) (k : ℕ) : Option Link := do
  let w ← s.wires[k]?
  match w.reader with
  | .starting => return { s with
      wires := s.wires.set k
        { w with reader := if s.inboundCh.closed then .returned else .reading } }
  | _ => none

/-- `StreamHandler` reads a packet into `data` and hands it to the peer, or returns. It waits
until the packet is there or the stream has been closed. A read that does not wait brings a byte
at least, so `maxContentSize` reads are enough. -/
def handle (s : Link) (k : ℕ) (data : Packet) (plan : ℕ → ℕ × Bool) : Option Link := do
  let w ← s.wires[k]?
  if w.reader = .reading ∧ (w.ending = .closed ∨ w.Arrived) then
    let (res, stream) ← readFrame maxContentSize data (w.stream plan)
    match res with
    | .error _ => return { s with
        wires := s.wires.set k { w with unread := stream.bytes, reader := .returned } }
    | .ok packet =>
      let w := { w with unread := stream.bytes, handed := w.handed ++ [packet.content] }
      if s.inboundCh.closed then
        return { s with
          wires := s.wires.set k { w with reader := .returned }
          lost := s.lost ++ given .unknownPeer [packet.content] }
      else
        match s.inboundCh.trySend packet with
        | .sent ch => return { s with
            wires := s.wires.set k w
            inboundCh := ch
            arrived := s.arrived ++ [(k, packet.content)] }
        | .full => return { s with
            wires := s.wires.set k w
            lost := s.lost ++ given .inboundFull [packet.content] }
        | .panics => none
  else none

/-- `StreamHandler` meets the error of a broken stream. -/
def fail (s : Link) (k : ℕ) : Option Link := do
  let w ← s.wires[k]?
  if w.reader = .reading ∧ w.ending = .broken then
    return { s with wires := s.wires.set k { w with reader := .returned } }
  else none

/-- A receive of `backgroundInboundHandler` with batches of `batchSize`: the first packet, a
further one, or the end of `readBatchFromChan`. -/
def gather (s : Link) (batchSize : ℕ) : Option Link :=
  match s.inBatch with
  | none => do
    let (packet, ch) ← s.inboundCh.recv
    return { s with inboundCh := ch, inBatch := some ⟨s.localIP, [packet], false⟩ }
  | some b =>
    if b.ready then none
    else if b.packets.length = batchSize then
      some { s with inBatch := some { b with ready := true } }
    else
      match s.inboundCh.recv with
      | some (packet, ch) => some { s with
          inboundCh := ch
          inBatch := some { b with packets := b.packets ++ [packet] } }
      | none => some { s with inBatch := some { b with ready := true } }

/-- The packets of the batch that are accepted go to the device with the address `deviceIP`;
`none` is a panic. -/
def deliver (s : Link) (deviceIP : IP) : Option Link := do
  let b ← s.inBatch
  if b.ready then
    let filteredPackets := b.packets.filterMap Packet.parse
    let bufs ← writePacketsBatch deviceIP filteredPackets b.senderIP
    let written := filteredPackets.filter fun p => !p.isIPv6
    return { s with
      inBatch := none
      delivered := s.delivered ++
        (written.zip bufs).map fun (p, buf) => ⟨p.content, b.senderIP, buf⟩
      lost := s.lost ++
        given .invalid (contents (b.packets.filter fun p => p.parse.isNone)) ++
        given .ipv6 (contents (filteredPackets.filter fun p => p.isIPv6)) }
  else none

/-- `RefreshPeersList` gives the sender another address. -/
def move (s : Link) (newLocalIP : IP) : Link := { s with localIP := newLocalIP }

/-- `VpnPeer.Close` at the receiver. -/
def removeSender (s : Link) : Option Link := do
  let ch ← s.inboundCh.closeAndDrain
  return { s with
    inboundCh := ch
    lost := s.lost ++ given .removed (contents s.inboundCh.buf) }

/-! ### Runs -/

inductive Event
  | offer (raw : Packet)
  | receive (h : ℕ)
  | check (h : ℕ) (isConnected : Bool)
  | send (h : ℕ) (opened : Option Bool) (failed : Option ℕ)
  | tick (h : ℕ)
  | removeReceiver
  | sever (k n : ℕ)
  | accept (k : ℕ)
  | handle (k : ℕ) (data : Packet) (plan : ℕ → ℕ × Bool)
  | fail (k : ℕ)
  | gather
  | deliver
  | move (newLocalIP : IP)
  | removeSender

/-- One step, with the receiver's device at `deviceIP` and its batches of `batchSize`. -/
def step (deviceIP : IP) (batchSize : ℕ) (s : Link) : Event → Option Link
  | .offer raw => s.offer raw
  | .receive h => s.receive h
  | .check h isConnected => s.check h isConnected
  | .send h opened failed => s.send h opened failed
  | .tick h => s.tick h
  | .removeReceiver => s.removeReceiver
  | .sever k n => s.sever k n
  | .accept k => s.accept k
  | .handle k data plan => s.handle k data plan
  | .fail k => s.fail k
  | .gather => s.gather batchSize
  | .deliver => s.deliver deviceIP
  | .move newLocalIP => some (s.move newLocalIP)
  | .removeSender => s.removeSender

/-- The state after a run; `none` when an event of it is not possible. -/
def run (deviceIP : IP) (batchSize : ℕ) (s : Link) (es : List Event) : Option Link :=
  es.foldlM (step deviceIP batchSize) s

end Link

end Transit

end Awl
