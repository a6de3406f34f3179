import Awl.Packet
import Awl.Reader
import Awl.Tunnel

/-!
Packets on a stream between two peers.

A packet travels as its length in eight big-endian bytes followed by its content. The reader
side limits the stream to that length and fills the buffer of a temporary packet until the
limited reader reports its end. What is shown is that any list of packets that fit the buffer
comes out as it went in, wherever the stream splits its bytes.
-/

namespace Awl

/-- `AppendPacketToBuf`. -/
def appendPacketToBuf (buf packet : List UInt8) : List UInt8 :=
  buf ++ putUint64 packet.length ++ packet

section

variable {R : Type} [Reader R]

/-- `ReadUint64`. -/
def readUint64 (fuel : ℕ) (stream : R) : Option (Except ReadErr ℕ × R) := do
  let res ← readFull fuel stream 8
  match res.err with
  | some err => return (.error err, res.next)
  | none =>
    if res.bytes.length ≠ 8 then return (.error .failed, res.next)
    else return (.ok (uint64 res.bytes), res.next)

namespace Packet

/-- The bytes a read puts into `Buffer[off:]`. -/
def fill (data : Packet) (off : ℕ) (bs : List UInt8) : Packet :=
  { data with
    buffer := data.buffer.take off ++ bs.take (maxContentSize - off) ++
      data.buffer.drop (off + bs.length)
    length_buffer := by
      have := data.length_buffer
      simp only [List.length_append, List.length_take, List.length_drop]
      omega }

/-- The loop of `ReadFrom`: the packet, the number of bytes read and the error. -/
def readFrom : ℕ → Packet → ℕ → R → Option (Packet × ℕ × Option ReadErr × R)
  | 0, _, _, _ => none
  | fuel + 1, data, totalRead, stream =>
    let res := Reader.read stream (maxContentSize - totalRead)
    let data := data.fill totalRead res.bytes
    let totalRead := totalRead + res.bytes.length
    match res.err with
    | some .eof =>
      some ({ data with len := totalRead - tunPacketOffset }, totalRead - tunPacketOffset, none,
        res.next)
    | some err => some (data, totalRead - tunPacketOffset, some err, res.next)
    | none => readFrom fuel data totalRead res.next

end Packet

/-- Why a stream handler returned. -/
inductive Stop
  | unknownPeer
  | readPacketSize (err : ReadErr)
  | readToPacket (err : ReadErr)
  deriving DecidableEq

/-- The read loop of `StreamHandler`. The pool hands out `pool i` in iteration `i`; `deliver`
is the section under `peersLock`, which says whether the peer is still known. -/
def streamLoop {σ : Type} (pool : ℕ → Packet) (deliver : Packet → σ → Option (σ × Bool)) :
    ℕ → ℕ → R → σ → Option (Stop × R × σ)
  | 0, _, _, _ => none
  | fuel + 1, i, stream, s => do
    let (packetSize, stream) ← readUint64 fuel stream
    match packetSize with
    | .error err => return (.readPacketSize err, stream, s)
    | .ok packetSize =>
      let wrappedStream : LimitedReader R := ⟨stream, int64 packetSize⟩
      let (packet, _, err, wrappedStream) ←
        (pool i).readFrom fuel tunPacketOffset wrappedStream
      match err with
      | some err => return (.readToPacket err, wrappedStream.r, s)
      | none =>
        let (s, ok) ← deliver packet s
        if ok then streamLoop pool deliver fuel (i + 1) wrappedStream.r s
        else return (.unknownPeer, wrappedStream.r, s)

/-- The read loop of `StreamHandler` as far as `fuel` goes: why it has returned, or `none` if it
is reading still, and the state it has come to. Only `deliver` can panic. -/
def streamLoopSoFar {σ : Type} (pool : ℕ → Packet) (deliver : Packet → σ → Option (σ × Bool)) :
    ℕ → ℕ → R → σ → Option (Option Stop × σ)
  | 0, _, _, s => some (none, s)
  | fuel + 1, i, stream, s =>
    match readUint64 fuel stream with
    | none => some (none, s)
    | some (.error err, _) => some (some (.readPacketSize err), s)
    | some (.ok packetSize, stream) =>
      match (pool i).readFrom fuel tunPacketOffset
          (⟨stream, int64 packetSize⟩ : LimitedReader R) with
      | none => some (none, s)
      | some (_, _, some err, _) => some (some (.readToPacket err), s)
      | some (packet, _, none, wrappedStream) => do
        let (s, ok) ← deliver packet s
        if ok then streamLoopSoFar pool deliver fuel (i + 1) wrappedStream.r s
        else return (some .unknownPeer, s)

/-- A loop that has returned has come to where it returns. -/
lemma streamLoop_soFar {σ : Type} {pool : ℕ → Packet} {deliver : Packet → σ → Option (σ × Bool)}
    {fuel i : ℕ} {stream stream' : R} {s s' : σ} {stop : Stop}
    (h : streamLoop pool deliver fuel i stream s = some (stop, stream', s')) :
    streamLoopSoFar pool deliver fuel i stream s = some (some stop, s') := by
  induction fuel generalizing i stream s with
  | zero => cases h
  | succ fuel ih =>
    obtain ⟨⟨size, stream₁⟩, hsize, h⟩ := Option.bind_eq_some_iff.mp h
    cases size with
    | error err =>
      cases h
      simp only [streamLoopSoFar, hsize]
    | ok packetSize =>
      obtain ⟨⟨packet, n, err, wrapped⟩, hread, h⟩ := Option.bind_eq_some_iff.mp h
      cases err with
      | some err =>
        cases h
        simp only [streamLoopSoFar, hsize, hread]
      | none =>
        obtain ⟨⟨s₁, ok⟩, hdeliver, h⟩ := Option.bind_eq_some_iff.mp h
        simp only [streamLoopSoFar, hsize, hread, hdeliver, Option.bind_eq_bind,
          Option.bind_some]
        cases ok with
        | true => exact ih h
        | false =>
          cases h
          rfl

/-- `StreamHandler` as far as `fuel` goes, when nothing else changes the tunnel meanwhile;
`none` is a panic. -/
def Tunnel.streamHandler {ID : Type} [DecidableEq ID] (pool : ℕ → Packet) (fuel : ℕ)
    (peerID : ID) (stream : R) (t : Tunnel ID) : Option (Option Stop × Tunnel ID) :=
  match t.peerIDToPeer.lookup peerID with
  | none => some (some .unknownPeer, t)
  | some _ =>
    streamLoopSoFar pool (fun packet t => t.enqueueInbound peerID packet) fuel 0 stream t

end

/-! ### One frame -/

lemma readUint64_frame (fuel : ℕ) {v : ℕ} {rest : List UInt8} {s : ByteStream} (hfuel : 8 < fuel)
    (hv : v < 2 ^ 64) (hs : s.bytes = putUint64 v ++ rest) :
    ∃ s', readUint64 fuel s = some (.ok v, s') ∧ s'.bytes = rest := by
  obtain ⟨s', hread, hs'⟩ := readFull_stream (s := s) hfuel (by simp [hs])
  have htake : s.bytes.take 8 = putUint64 v := by
    rw [hs, List.take_left' (putUint64_length v)]
  refine ⟨s', ?_, ?_⟩
  · simp [readUint64, hread, htake, uint64_putUint64 hv]
  · rw [hs', hs, List.drop_left' (putUint64_length v)]

namespace Packet

/-- What stands at the front of the packet after a read has put more behind it. -/
lemma fill_front (data : Packet) (t : ℕ) (bs : List UInt8)
    (h : tunPacketOffset + t + bs.length ≤ maxContentSize) :
    (data.fill (tunPacketOffset + t) bs).slice ⟨tunPacketOffset, t + bs.length⟩ =
      data.slice ⟨tunPacketOffset, t⟩ ++ bs := by
  have hlen := data.length_buffer
  have hbs : bs.take (maxContentSize - (tunPacketOffset + t)) = bs :=
    List.take_of_length_le (by omega)
  have hpre : data.buffer.take (tunPacketOffset + t) =
      data.buffer.take tunPacketOffset ++ (data.buffer.drop tunPacketOffset).take t :=
    List.take_add
  have h₁ : (data.buffer.take tunPacketOffset).length = tunPacketOffset := by
    rw [List.length_take]
    omega
  have h₂ : ((data.buffer.drop tunPacketOffset).take t ++ bs).length = t + bs.length := by
    simp only [List.length_append, List.length_take, List.length_drop]
    omega
  simp only [slice, fill, hbs, hpre, List.append_assoc]
  rw [List.drop_left' h₁, ← List.append_assoc, List.take_left' h₂]

/-- `ReadFrom` on a limited stream that has all the bytes: by induction on the reads, with
`t` bytes of the packet in place. -/
lemma readFrom_limited :
    ∀ (fuel : ℕ) (data : Packet) (t n : ℕ) (l : LimitedReader ByteStream), l.n = n →
      n ≤ l.r.bytes.length → tunPacketOffset + t + n ≤ maxContentSize → n < fuel →
      ∃ p l', data.readFrom fuel (tunPacketOffset + t) l = some (p, t + n, none, l') ∧
        p.content = data.slice ⟨tunPacketOffset, t⟩ ++ l.r.bytes.take n ∧
        l'.r.bytes = l.r.bytes.drop n := by
  intro fuel
  induction fuel with
  | zero => intro data t n l _ _ _ hfuel; omega
  | succ fuel ih =>
    intro data t n l hl hs hroom hfuel
    rcases Nat.eq_zero_or_pos n with rfl | hn
    · have hread := LimitedReader.read_done (l := l) (by omega)
        (maxContentSize - (tunPacketOffset + t))
      have hfront := data.fill_front t [] (by simpa using hroom)
      refine ⟨{ data.fill (tunPacketOffset + t) [] with len := t }, l, ?_, ?_, rfl⟩
      · simp [readFrom, hread]
      · simpa [content, slice] using hfront
    · obtain ⟨k, hk, hklen, hkn, hbytes, hnext, hn', herr⟩ :=
        LimitedReader.read_stream (l := l) (maxContentSize - (tunPacketOffset + t)) hl hn
          (by omega) hs
      have hlen : (l.r.bytes.take k).length = k := by
        rw [List.length_take]
        omega
      have hfront := data.fill_front t (l.r.bytes.take k) (by omega)
      rw [hlen] at hfront
      set data' := data.fill (tunPacketOffset + t) (l.r.bytes.take k)
      set res := Reader.read l (maxContentSize - (tunPacketOffset + t)) with hres
      rcases herr with herr | ⟨herr, hend⟩
      · obtain ⟨p, l', hrun, hp, hl'⟩ := ih data' (t + k) (n - k) res.next hn'
          (by rw [hnext, List.length_drop]; omega) (by omega) (by omega)
        refine ⟨p, l', ?_, ?_, ?_⟩
        · simp only [readFrom, ← hres, hbytes, herr, hlen]
          rw [Nat.add_assoc, hrun]
          congr 3
          omega
        · rw [hp, hfront, hnext, List.append_assoc, ← List.take_add]
          congr 2
          omega
        · rw [hl', hnext, List.drop_drop]
          congr 1
          omega
      · -- the stream ended with the last bytes of this very packet
        subst hend
        refine ⟨{ data' with len := t + n }, res.next, ?_, hfront, hnext⟩
        simp only [readFrom, ← hres, hbytes, herr, hlen]
        rw [Nat.add_assoc, Nat.add_sub_cancel_left]

end Packet

/-- **One iteration of the read loop** takes one frame off the stream and delivers a packet
with its content. -/
lemma streamLoop_frame (pool : ℕ → Packet) (fuel i : ℕ) (packet rest : List UInt8)
    {stream : ByteStream} (hfuel : maxContentSize ≤ fuel)
    (hroom : tunPacketOffset + packet.length ≤ maxContentSize)
    (hs : stream.bytes = putUint64 packet.length ++ (packet ++ rest)) :
    ∃ p stream', Packet.content p = packet ∧ stream'.bytes = rest ∧
      ∀ {σ : Type} (deliver : Packet → σ → Option (σ × Bool)) (s : σ),
        streamLoop pool deliver (fuel + 1) i stream s = (do
          let (s, ok) ← deliver p s
          if ok then streamLoop pool deliver fuel (i + 1) stream' s
          else return (.unknownPeer, stream', s)) := by
  have hmax : maxContentSize = 3600 := rfl
  have hoff : tunPacketOffset = 14 := rfl
  obtain ⟨stream₁, hsize, hs₁⟩ :=
    readUint64_frame fuel (by omega) (by omega) hs
  obtain ⟨p, l, hrun, hp, hl⟩ := (pool i).readFrom_limited fuel 0 packet.length
    ⟨stream₁, int64 packet.length⟩ (int64_of_lt (by omega)) (by simp [hs₁]) (by omega) (by omega)
  refine ⟨p, l.r, ?_, ?_, fun deliver s => ?_⟩
  · simpa [hs₁, Packet.slice] using hp
  · simpa [hs₁] using hl
  · simp only [streamLoop, hsize]
    simp only [Nat.add_zero] at hrun
    simp only [Option.bind_eq_bind, Option.bind_some, hrun]

/-! ### A whole stream -/

lemma foldl_appendPacketToBuf (buf : List UInt8) (packets : List (List UInt8)) :
    packets.foldl appendPacketToBuf buf =
      buf ++ packets.flatMap fun p => putUint64 p.length ++ p := by
  induction packets generalizing buf with
  | nil => simp
  | cons p packets ih => simp [ih, appendPacketToBuf]

/-- The read loop that keeps what it is given. -/
def collect (packet : Packet) (got : List Packet) : Option (List Packet × Bool) :=
  some (got ++ [packet], true)

lemma streamLoop_collect (pool : ℕ → Packet) :
    ∀ (packets : List (List UInt8)) (fuel i : ℕ) (stream : ByteStream) (got : List Packet),
      (∀ p ∈ packets, p.length ≤ maxContentSize - tunPacketOffset) →
      packets.length + maxContentSize < fuel →
      stream.bytes = packets.flatMap (fun p => putUint64 p.length ++ p) →
      ∃ more stream', streamLoop pool collect fuel i stream got =
          some (.readPacketSize .eof, stream', got ++ more) ∧
        more.map Packet.content = packets ∧ stream'.bytes = [] := by
  have hmax : maxContentSize = 3600 := rfl
  have hoff : tunPacketOffset = 14 := rfl
  intro packets
  induction packets with
  | nil =>
    intro fuel i stream got _ hfuel hs
    obtain ⟨fuel, rfl⟩ : ∃ f, fuel = f + 1 := ⟨fuel - 1, by omega⟩
    obtain ⟨stream', hread, hs'⟩ :=
      readFull_eof fuel 8 stream (by omega) (by omega) (by simpa using hs)
    exact ⟨[], stream', by simp [streamLoop, readUint64, hread], rfl, hs'⟩
  | cons packet packets ih =>
    intro fuel i stream got hsize hfuel hs
    obtain ⟨fuel, rfl⟩ : ∃ f, fuel = f + 1 := ⟨fuel - 1, by omega⟩
    have hp := hsize packet List.mem_cons_self
    rw [List.length_cons] at hfuel
    obtain ⟨p, stream₁, hcontent, hs₁, hloop⟩ := streamLoop_frame pool fuel i
      packet (packets.flatMap fun p => putUint64 p.length ++ p) (by omega)
      (by omega) (by simpa using hs)
    obtain ⟨more, stream', hrun, hmore, hend⟩ := ih fuel (i + 1) stream₁ (got ++ [p])
      (fun q hq => hsize q (List.mem_cons_of_mem packet hq)) (by omega) hs₁
    refine ⟨p :: more, stream', ?_, by simp [hcontent, hmore], hend⟩
    rw [hloop]
    simpa [collect] using hrun

/-- **Round trip**: the read loop of `StreamHandler`, run on packets appended one after the
other, yields exactly these packets, consumes every byte and stops with `io.EOF`. -/
theorem streamLoop_appended (pool : ℕ → Packet) (plan : ℕ → ℕ × Bool)
    (packets : List (List UInt8))
    (hsize : ∀ p ∈ packets, p.length ≤ maxContentSize - tunPacketOffset) {fuel : ℕ}
    (hfuel : packets.length + maxContentSize < fuel) :
    ∃ got stream', streamLoop pool collect fuel 0
          (⟨packets.foldl appendPacketToBuf [], plan, 0⟩ : ByteStream) [] =
        some (.readPacketSize .eof, stream', got) ∧
      got.map Packet.content = packets ∧ stream'.bytes = [] := by
  have hs : packets.foldl appendPacketToBuf [] =
      packets.flatMap fun p => putUint64 p.length ++ p := by
    simpa using foldl_appendPacketToBuf [] packets
  simpa using streamLoop_collect pool packets fuel 0
    ⟨packets.foldl appendPacketToBuf [], plan, 0⟩ [] hsize hfuel hs

/-- An empty and a short packet, the end reported with the last byte. -/
theorem streamLoop_appended_short :
    (∀ p ∈ ([[], [1, 2, 3]] : List (List UInt8)),
        p.length ≤ maxContentSize - tunPacketOffset) ∧
      2 + maxContentSize < 4000 ∧
      ∃ got stream', streamLoop (fun _ => Packet.new) collect 4000 0
            (⟨[[], [1, 2, 3]].foldl appendPacketToBuf [], fun i => (2 + i, true), 0⟩ :
              ByteStream) [] =
          some (.readPacketSize .eof, stream', got) ∧
        got.map Packet.content = [[], [1, 2, 3]] ∧ stream'.bytes = [] :=
  ⟨by decide, by decide, streamLoop_appended _ _ _ (by decide) (by decide)⟩

end Awl
