import Awl.Ownership
import Awl.Tunnel

/-!
The outbound path, buffer by buffer: the loop of `ReadTUNPackets`, the routing of its batch by
`HandleReadPackets`, the `backgroundOutboundHandler` loops of the peers and `VpnPeer.Close`,
interleaved in any way.

A `*Packet` is its number in the pool. A step is the least a goroutine does to a buffer that
the others can see: taking it from somewhere and storing it, sending it and clearing its slot,
putting it back and clearing its slot. What the bytes say is left open: whether a packet
parses, who it is for, who is connected and what the network does are inputs of the steps. A
step that panics has no successor.
-/

namespace Awl

abbrev Buf := ℕ

namespace Buffers

/-- The channels of a `VpnPeer`. -/
structure Queues where
  inboundCh : Chan Buf
  outboundCh : Chan Buf

inductive ReaderPhase
  /-- the loop that fills `packets`, `bufs` and `sizes` -/
  | fill (i : ℕ)
  | read
  /-- the loop over the packets read -/
  | parse (i : ℕ)
  /-- the loop of `HandleReadPackets`, under `peersLock` -/
  | handle (i : ℕ)
  /-- its inner loop: the peers of `netIPToPeer` still to visit -/
  | broadcast (i : ℕ) (peers : List Ptr)
  /-- the check of the error of `tun.Read` -/
  | next
  | stopped
  deriving DecidableEq

/-- Whether `HandleReadPackets` holds `peersLock`. -/
def ReaderPhase.locked : ReaderPhase → Bool
  | handle _ | broadcast _ _ => true
  | _ => false

structure TunReader where
  phase : ReaderPhase
  packets : List (Option Buf)
  bufs : List (Option Buf)
  sizes : List ℕ
  packetsCount : ℕ
  /-- the read returned no error, or `ErrTooManySegments` -/
  goesOn : Bool

inductive HandlerPhase
  /-- the `select` of the main loop -/
  | idle
  /-- `readBatchFromChan` -/
  | gather
  /-- the call of `IsConnected` -/
  | check
  /-- `sendPacket` -/
  | send
  /-- `clearTempPackets` -/
  | clear
  | stopped
  deriving DecidableEq

/-- A `backgroundOutboundHandler`; the slots of its batch that are in use. -/
structure Handler where
  peer : Ptr
  phase : HandlerPhase
  packetsBatch : List Buf

def packetsBatchSize : ℕ := 100

inductive ClosePhase
  | inbound
  | outbound

end Buffers

open Buffers in
structure Buffers where
  pool : Pool
  reader : TunReader
  peers : List Queues
  handlers : List Handler
  /-- a `VpnPeer.Close` under way, which holds `peersLock` -/
  closing : Option (Ptr × ClosePhase)

namespace Buffers

def init (batchSize : ℕ) : Buffers where
  pool := Pool.empty
  reader := {
    phase := .fill 0
    packets := List.replicate batchSize none
    bufs := List.replicate batchSize none
    sizes := []
    packetsCount := 0
    goesOn := true }
  peers := []
  handlers := []
  closing := none

/-- A non-blocking send to an outbound queue, and whether there was room. -/
def send (s : Buffers) (p : Ptr) (b : Buf) : Option (Buffers × Bool) :=
  match s.peers[p]? with
  | none => none
  | some q =>
    match q.outboundCh.trySend b with
    | .sent ch => some ({ s with peers := s.peers.set p { q with outboundCh := ch } }, true)
    | .full => some (s, false)
    | .panics => none

def toPhase (s : Buffers) (phase : ReaderPhase) : Buffers :=
  { s with reader := { s.reader with phase := phase } }

/-! ### The reader -/

/-- One iteration of the loop that fills the batch, or its end. -/
def fill (s : Buffers) (got : Option Buf) : Option Buffers :=
  match s.reader.phase with
  | .fill i =>
    match s.reader.packets[i]? with
    | none => some (s.toPhase .read)
    | some none => do
      let (b, pool) ← s.pool.get got
      return { s with
        pool := pool
        reader := { s.reader with
          phase := .fill (i + 1)
          packets := s.reader.packets.set i (some b)
          bufs := s.reader.bufs.set i (some b) } }
    | some (some b) => some { s with
        pool := s.pool.use b
        reader := { s.reader with
          phase := .fill (i + 1)
          bufs := s.reader.bufs.set i (some b) } }
  | _ => none

/-- `tun.Read` writes into `bufs`. -/
def read (s : Buffers) (sizes : List ℕ) (packetsCount : ℕ) (goesOn : Bool) : Option Buffers :=
  match s.reader.phase with
  | .read =>
    if packetsCount ≤ s.reader.bufs.length then
      some { s with
        pool := s.pool.useAll s.reader.bufs.reduceOption
        reader := { s.reader with
          phase := .parse 0
          sizes := sizes
          packetsCount := packetsCount
          goesOn := goesOn } }
    else none
  | _ => none

/-- One iteration of the loop over the packets read. -/
def parse (s : Buffers) (okay : Bool) : Option Buffers :=
  match s.reader.phase with
  | .parse i =>
    if i < s.reader.packetsCount then
      let size := s.reader.sizes.getD i 0
      if size = 0 ∨ maxContentSize < size then some (s.toPhase (.parse (i + 1)))
      -- the slice of the buffer is out of range
      else if maxContentSize < size + tunPacketOffset then none
      else
        match s.reader.packets[i]? with
        | some (some b) =>
          if okay then some { s.toPhase (.parse (i + 1)) with pool := s.pool.use b }
          else some { s with
            pool := (s.pool.use b).put b
            reader := { s.reader with
              phase := .parse (i + 1)
              packets := s.reader.packets.set i none } }
        | _ => none
    else none
  | _ => none

/-- The end of that loop and the start of `HandleReadPackets`. -/
def enter (s : Buffers) (isClosed : Bool) : Option Buffers :=
  match s.reader.phase with
  | .parse i =>
    if i < s.reader.packetsCount then none
    else if s.reader.packetsCount = 0 then some (s.toPhase .next)
    else if s.closing.isSome then none
    else some (s.toPhase (if isClosed then .next else .handle 0))
  | _ => none

/-- Where the destination of a packet leads. -/
inductive Route
  | nobody
  | peer (p : Ptr)
  | everyone (peers : List Ptr)

/-- One iteration of the loop of `HandleReadPackets`, or its end. -/
def route (s : Buffers) (r : Route) : Option Buffers :=
  match s.reader.phase with
  | .handle i =>
    if i < s.reader.packetsCount then
      match s.reader.packets[i]? with
      | some (some b) =>
        let s := { s with pool := s.pool.use b }
        match r with
        | .nobody => some (s.toPhase (.handle (i + 1)))
        | .everyone peers => some (s.toPhase (.broadcast i peers))
        | .peer p => do
          let (s, sent) ← s.send p b
          if sent then
            return { s with
              reader := { s.reader with
                phase := .handle (i + 1)
                packets := s.reader.packets.set i none } }
          else return s.toPhase (.handle (i + 1))
      | _ => some (s.toPhase (.handle (i + 1)))
    else some (s.toPhase .next)
  | _ => none

/-- One iteration of the loop that sends copies, or its end. -/
def copy (s : Buffers) (isConnected : Bool) (got : Option Buf) : Option Buffers :=
  match s.reader.phase with
  | .broadcast i [] => some (s.toPhase (.handle (i + 1)))
  | .broadcast i (p :: ps) =>
    if isConnected then
      match s.reader.packets[i]? with
      | some (some b) => do
        let (copyPacket, pool) ← s.pool.get got
        let s := { s.toPhase (.broadcast i ps) with pool := (pool.use b).use copyPacket }
        let (s, sent) ← s.send p copyPacket
        if sent then return s else return { s with pool := s.pool.put copyPacket }
      | _ => none
    else some (s.toPhase (.broadcast i ps))
  | _ => none

/-- After the batch: the next one, or the end of the reader. -/
def next (s : Buffers) : Option Buffers :=
  match s.reader.phase with
  | .next => some (s.toPhase (if s.reader.goesOn then .fill 0 else .stopped))
  | _ => none

/-! ### The handlers -/

/-- A receive of handler `h`: the first packet of a batch, a further one, or the end of
`readBatchFromChan`. -/
def receive (s : Buffers) (h : ℕ) : Option Buffers := do
  let x ← s.handlers[h]?
  let q ← s.peers[x.peer]?
  match x.phase with
  | .idle =>
    match q.outboundCh.recv with
    | some (b, ch) => return { s with
        peers := s.peers.set x.peer { q with outboundCh := ch }
        handlers := s.handlers.set h { x with phase := .gather, packetsBatch := [b] } }
    | none =>
      if q.outboundCh.closed then
        return { s with handlers := s.handlers.set h { x with phase := .stopped } }
      else none
  | .gather =>
    if x.packetsBatch.length = packetsBatchSize then
      return { s with handlers := s.handlers.set h { x with phase := .check } }
    else
      match q.outboundCh.recv with
      | some (b, ch) => return { s with
          peers := s.peers.set x.peer { q with outboundCh := ch }
          handlers := s.handlers.set h { x with packetsBatch := x.packetsBatch ++ [b] } }
      | none => return { s with handlers := s.handlers.set h { x with phase := .check } }
  | _ => none

/-- The call of `IsConnected`. -/
def check (s : Buffers) (h : ℕ) (isConnected : Bool) : Option Buffers := do
  let x ← s.handlers[h]?
  match x.phase with
  | .check => return { s with
      handlers := s.handlers.set h { x with phase := if isConnected then .send else .clear } }
  | _ => none

/-- `sendPacket` reads the packets of the batch, unless it gets no stream. -/
def sendPacket (s : Buffers) (h : ℕ) (opened : Bool) : Option Buffers := do
  let x ← s.handlers[h]?
  match x.phase with
  | .send => return { s with
      pool := if opened then s.pool.useAll x.packetsBatch else s.pool
      handlers := s.handlers.set h { x with phase := .clear } }
  | _ => none

/-- One iteration of `clearTempPackets`, or its end. -/
def clearTempPackets (s : Buffers) (h : ℕ) : Option Buffers := do
  let x ← s.handlers[h]?
  match x.phase with
  | .clear =>
    match x.packetsBatch with
    | [] => return { s with handlers := s.handlers.set h { x with phase := .idle } }
    | b :: rest => return { s with
        pool := s.pool.put b
        handlers := s.handlers.set h { x with packetsBatch := rest } }
  | _ => none

/-! ### Peers coming and going -/

/-- `NewVpnPeer` and `Start` with `n` parallel handlers. -/
def start (s : Buffers) (n : ℕ) : Buffers :=
  { s with
    peers := s.peers ++
      [⟨Chan.make Buf packetHandlersChanCap, Chan.make Buf packetHandlersChanCap⟩]
    handlers := s.handlers ++ List.replicate n ⟨s.peers.length, .idle, []⟩ }

/-- `VpnPeer.Close` up to its first loop. -/
def close (s : Buffers) (p : Ptr) : Option Buffers := do
  let q ← s.peers[p]?
  if s.closing.isSome ∨ s.reader.phase.locked then none
  else if q.inboundCh.closed ∨ q.outboundCh.closed then none
  else return { s with
    peers := s.peers.set p
      ⟨{ q.inboundCh with closed := true }, { q.outboundCh with closed := true }⟩
    closing := some (p, .inbound) }

/-- One iteration of the loops of `VpnPeer.Close`, or the end of one. -/
def drain (s : Buffers) : Option Buffers := do
  let (p, phase) ← s.closing
  let q ← s.peers[p]?
  match phase with
  | .inbound =>
    match q.inboundCh.recv with
    | some (b, ch) => return { s with
        pool := s.pool.put b
        peers := s.peers.set p { q with inboundCh := ch } }
    | none => return { s with closing := some (p, .outbound) }
  | .outbound =>
    match q.outboundCh.recv with
    | some (b, ch) => return { s with
        pool := s.pool.put b
        peers := s.peers.set p { q with outboundCh := ch } }
    | none => return { s with closing := none }

/-! ### Runs -/

inductive Event
  | fill (got : Option Buf)
  | read (sizes : List ℕ) (packetsCount : ℕ) (goesOn : Bool)
  | parse (okay : Bool)
  | enter (isClosed : Bool)
  | route (r : Route)
  | copy (isConnected : Bool) (got : Option Buf)
  | next
  | receive (h : ℕ)
  | check (h : ℕ) (isConnected : Bool)
  | sendPacket (h : ℕ) (opened : Bool)
  | clearTempPackets (h : ℕ)
  | start (n : ℕ)
  | close (p : Ptr)
  | drain
  | collect (b : Buf)

def step (s : Buffers) : Event → Option Buffers
  | .fill got => s.fill got
  | .read sizes packetsCount goesOn => s.read sizes packetsCount goesOn
  | .parse okay => s.parse okay
  | .enter isClosed => s.enter isClosed
  | .route r => s.route r
  | .copy isConnected got => s.copy isConnected got
  | .next => s.next
  | .receive h => s.receive h
  | .check h isConnected => s.check h isConnected
  | .sendPacket h opened => s.sendPacket h opened
  | .clearTempPackets h => s.clearTempPackets h
  | .start n => some (s.start n)
  | .close p => s.close p
  | .drain => s.drain
  | .collect b => (s.pool.collect b).map fun pool => { s with pool := pool }

/-- The state after a run; `none` when an event of it is not possible. -/
def run (s : Buffers) (es : List Event) : Option Buffers := es.foldlM step s

end Buffers

end Awl
