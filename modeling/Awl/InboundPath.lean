import Awl.Compaction
import Awl.Rewritten
import Awl.StreamLimit

/-!
The inbound path, buffer by buffer and with the bytes in them: the `StreamHandler` loops that
fill buffers of the pool, the inbound queue of a peer, the loop of `backgroundInboundHandler`
that parses, rewrites, writes and releases them slot by slot, and `VpnPeer.Close`, interleaved
in any way with one another and with the rest of the program, which takes buffers of the same
pool and writes to those that it has.

A packet is a buffer of the pool. The device is handed slices of the buffers, so what is
written is what they hold when `tun.Write` is called. The state keeps the contents of the
packets that entered the queue, of those the handler took from it and of those that `Close`
drained, and the calls of `tun.Write`.
-/

namespace Awl

open NetIP

namespace InboundPath

/-- A `StreamHandler`: between packets, with a buffer to read into, with a packet. -/
inductive Reading
  | idle
  | empty (b : Buf)
  | full (b : Buf)
  | returned
  deriving DecidableEq

inductive Phase
  /-- the receive of the first packet -/
  | idle
  /-- `readBatchFromChan` -/
  | gather
  /-- the loop that parses the packets -/
  | parse (i : ℕ)
  /-- the loop of `WritePacketsBatch` -/
  | rewrite (i : ℕ)
  /-- the call of `tun.Write` -/
  | write
  /-- the loop that gives the buffers back -/
  | release (i : ℕ)
  | stopped
  deriving DecidableEq

/-- `backgroundInboundHandler`. -/
structure Handler where
  phase : Phase
  senderIP : IP
  batch : Inbound

/-- A call of `tun.Write`. -/
structure WriteCall where
  senderIP : IP
  bufs : List (List UInt8)

end InboundPath

open InboundPath in
structure InboundPath where
  pool : Pool
  mem : Buf → Packet
  readers : List Reading
  inboundCh : Chan Buf
  localIP : IP
  handler : Handler
  /-- the buffers that the rest of the program has -/
  others : List Buf
  enqueued : List (List UInt8)
  handled : List (List UInt8)
  drained : List (List UInt8)
  written : List WriteCall

namespace InboundPath

def Handler.init (localIP : IP) : Handler := ⟨.idle, localIP, ⟨[], 0, []⟩⟩

/-- The peer has been started. -/
def init (localIP : IP) : InboundPath where
  pool := Pool.empty
  mem _ := Packet.new
  readers := []
  inboundCh := Chan.make Buf packetHandlersChanCap
  localIP := localIP
  handler := Handler.init localIP
  others := []
  enqueued := []
  handled := []
  drained := []
  written := []

/-- The bytes of a buffer are written. -/
def store (s : InboundPath) (b : Buf) (packet : Packet) : InboundPath :=
  { s with pool := s.pool.use b, mem := Function.update s.mem b packet }

/-- `PutTempPacket`. -/
def putTempPacket (s : InboundPath) (b : Buf) : InboundPath :=
  { s with pool := s.pool.put b, mem := Function.update s.mem b (s.mem b).clear }

/-! ### The stream handlers -/

/-- `StreamHandler` is called for a known peer. -/
def accept (s : InboundPath) : InboundPath := { s with readers := s.readers ++ [.idle] }

/-- `GetTempPacket` at the head of the read loop. -/
def take (s : InboundPath) (k : ℕ) (got : Option Buf) : Option InboundPath := do
  match ← s.readers[k]? with
  | .idle =>
    let (b, pool) ← s.pool.get got
    return { s with pool := pool, readers := s.readers.set k (.empty b) }
  | _ => none

/-- The packet is read, or the stream ends. -/
def read (s : InboundPath) (k fuel : ℕ) (stream : ByteStream) : Option InboundPath := do
  match ← s.readers[k]? with
  | .empty b =>
    let (packetSize, stream) ← readUint64 fuel stream
    match packetSize with
    | .error _ => return { s.putTempPacket b with readers := s.readers.set k .returned }
    | .ok packetSize =>
      let wrappedStream : LimitedReader ByteStream := ⟨stream, int64 packetSize⟩
      let (packet, _, err, _) ← (s.mem b).readFrom fuel tunPacketOffset wrappedStream
      let s := s.store b packet
      match err with
      | some _ => return { s.putTempPacket b with readers := s.readers.set k .returned }
      | none => return { s with readers := s.readers.set k (.full b) }
  | _ => none

/-- The section under `peersLock`. A peer whose queue is closed is not known any more. -/
def hand (s : InboundPath) (k : ℕ) : Option InboundPath := do
  match ← s.readers[k]? with
  | .full b =>
    if s.inboundCh.closed then
      return { s.putTempPacket b with readers := s.readers.set k .returned }
    else
      match s.inboundCh.trySend b with
      | .sent ch => return { s with
          inboundCh := ch
          readers := s.readers.set k .idle
          enqueued := s.enqueued ++ [(s.mem b).content] }
      | .full => return { s.putTempPacket b with readers := s.readers.set k .idle }
      | .panics => none
  | _ => none

/-! ### The handler -/

def toPhase (s : InboundPath) (phase : Phase) : InboundPath :=
  { s with handler := { s.handler with phase := phase } }

/-- A receive with batches of `batchSize`: the first packet, a further one, or the end of
`readBatchFromChan`. When the queue is closed, the handler returns. -/
def gather (s : InboundPath) (batchSize : ℕ) : Option InboundPath :=
  match s.handler.phase with
  | .idle =>
    match s.inboundCh.recv with
    | some (b, ch) => some { s with
        inboundCh := ch
        handler := ⟨.gather, s.localIP, ⟨[some b], 0, []⟩⟩
        handled := s.handled ++ [(s.mem b).content] }
    | none => if s.inboundCh.closed then some (s.toPhase .stopped) else none
  | .gather =>
    if s.handler.batch.packetsBatch.length = batchSize then some (s.toPhase (.parse 0))
    else
      match s.inboundCh.recv with
      | some (b, ch) => some { s with
          inboundCh := ch
          handler := { s.handler with batch := { s.handler.batch with
            packetsBatch := s.handler.batch.packetsBatch ++ [some b] } }
          handled := s.handled ++ [(s.mem b).content] }
      | none => some (s.toPhase (.parse 0))
  | _ => none

/-- One iteration of the loop that parses, or its end. -/
def parse (s : InboundPath) : Option InboundPath :=
  match s.handler.phase with
  | .parse i =>
    match s.handler.batch.packetsBatch[i]? with
    | none => some (s.toPhase (if 0 < s.handler.batch.newLen then .rewrite 0 else .release 0))
    | some none => none
    | some (some b) => do
      let batch ← s.handler.batch.parseSlot (fun b => (s.mem b).parse.isSome) i
      let handler : Handler := { s.handler with phase := .parse (i + 1), batch := batch }
      match (s.mem b).parse with
      | some packet => return { s.store b packet with handler := handler }
      | none => return { s.putTempPacket b with handler := handler }
  | _ => none

/-- One iteration of the loop of `WritePacketsBatch`, or its end; `none` is a panic. -/
def rewrite (s : InboundPath) (deviceIP : IP) : Option InboundPath :=
  match s.handler.phase with
  | .rewrite i =>
    match (s.handler.batch.packetsBatch.take s.handler.batch.newLen)[i]? with
    | none => some (s.toPhase .write)
    | some none => none
    | some (some b) =>
      if (s.mem b).isIPv6 then some (s.toPhase (.rewrite (i + 1)))
      else do
        let packet ← ((s.mem b).addressed s.handler.senderIP deviceIP).recalculateChecksum
        return (s.store b packet).toPhase (.rewrite (i + 1))
  | _ => none

/-- The buffers that `WritePacketsBatch` has collected. -/
def bufs (s : InboundPath) : List Buf :=
  (s.handler.batch.packetsBatch.take s.handler.batch.newLen).reduceOption.filter
    fun b => !(s.mem b).isIPv6

/-- `tun.Write`. -/
def write (s : InboundPath) : Option InboundPath :=
  match s.handler.phase with
  | .write => some { s.toPhase (.release 0) with
      pool := s.pool.useAll s.bufs
      written := s.written ++
        [⟨s.handler.senderIP, s.bufs.map fun b => (s.mem b).written⟩] }
  | _ => none

/-- One iteration of the last loop, or its end. -/
def release (s : InboundPath) : Option InboundPath :=
  match s.handler.phase with
  | .release i =>
    match s.handler.batch.packetsBatch[i]? with
    | none => some { s with handler := Handler.init s.handler.senderIP }
    | some slot => do
      let batch ← s.handler.batch.releaseSlot i
      let handler : Handler := { s.handler with phase := .release (i + 1), batch := batch }
      match slot with
      | none => return { s with handler := handler }
      | some b => return { s.putTempPacket b with handler := handler }
  | _ => none

/-! ### The peer and the rest of the program -/

/-- `RefreshPeersList` gives the peer another address. -/
def move (s : InboundPath) (newLocalIP : IP) : InboundPath := { s with localIP := newLocalIP }

/-- `VpnPeer.Close` up to its first loop. -/
def close (s : InboundPath) : Option InboundPath :=
  if s.inboundCh.closed then none
  else some { s with inboundCh := { s.inboundCh with closed := true } }

/-- One iteration of that loop. -/
def drain (s : InboundPath) : Option InboundPath := do
  if s.inboundCh.closed then
    let (b, ch) ← s.inboundCh.recv
    return { s.putTempPacket b with
      inboundCh := ch
      drained := s.drained ++ [(s.mem b).content] }
  else none

/-- Another goroutine takes a buffer. -/
def othersTake (s : InboundPath) (got : Option Buf) : Option InboundPath := do
  let (b, pool) ← s.pool.get got
  return { s with pool := pool, others := b :: s.others }

/-- It writes to a buffer that it has. -/
def othersStore (s : InboundPath) (b : Buf) (packet : Packet) : Option InboundPath :=
  if b ∈ s.others then some (s.store b packet) else none

/-- It gives the buffer back. -/
def othersPut (s : InboundPath) (b : Buf) : Option InboundPath :=
  if b ∈ s.others then some { s.putTempPacket b with others := s.others.erase b } else none

/-! ### Runs -/

inductive Event
  | accept
  | take (k : ℕ) (got : Option Buf)
  | read (k fuel : ℕ) (stream : ByteStream)
  | hand (k : ℕ)
  | gather
  | parse
  | rewrite
  | write
  | release
  | move (newLocalIP : IP)
  | close
  | drain
  | othersTake (got : Option Buf)
  | othersStore (b : Buf) (packet : Packet)
  | othersPut (b : Buf)
  | collect (b : Buf)

/-- One step, with the device at `deviceIP` and batches of `batchSize`. -/
def step (deviceIP : IP) (batchSize : ℕ) (s : InboundPath) : Event → Option InboundPath
  | .accept => some s.accept
  | .take k got => s.take k got
  | .read k fuel stream => s.read k fuel stream
  | .hand k => s.hand k
  | .gather => s.gather batchSize
  | .parse => s.parse
  | .rewrite => s.rewrite deviceIP
  | .write => s.write
  | .release => s.release
  | .move newLocalIP => some (s.move newLocalIP)
  | .close => s.close
  | .drain => s.drain
  | .othersTake got => s.othersTake got
  | .othersStore b packet => s.othersStore b packet
  | .othersPut b => s.othersPut b
  | .collect b => (s.pool.collect b).map fun pool => { s with pool := pool }

/-- The state after a run; `none` when an event of it is not possible. -/
def run (deviceIP : IP) (batchSize : ℕ) (s : InboundPath) (es : List Event) :
    Option InboundPath := es.foldlM (step deviceIP batchSize) s

end InboundPath

end Awl
