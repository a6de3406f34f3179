import Awl.Frames
import Awl.Oversize

/-!
What `StreamHandler` makes of a stream that is cut somewhere.

`ReadFrom` takes the end of the stream for the end of the frame, so the rest of a frame that is
cut becomes a packet. The exceptions are a header that is cut, and a frame that is too large and
fills the buffer before the stream ends.
-/

namespace Awl

/-! ### Streams of bytes -/

lemma readUint64_stream (fuel : ℕ) {s : ByteStream} (hfuel : 8 < fuel)
    (hs : 8 ≤ s.bytes.length) :
    ∃ s', readUint64 fuel s = some (.ok (uint64 s.bytes), s') ∧ s'.bytes = s.bytes.drop 8 ∧
      s'.plan = s.plan := by
  obtain ⟨s', hread, hs'⟩ := readFull_stream hfuel hs
  have hplan := readFullLoop_keeps (P := fun r : ByteStream => r.plan = s.plan)
    (fun r len hr => (r.read_plan len).trans hr) _ _ _ _ hread rfl
  refine ⟨s', ?_, hs', hplan⟩
  simp [readUint64, hread, uint64_take, hs]

lemma readUint64_short {s : ByteStream} (hs : s.bytes.length < 8) (fuel v : ℕ) (s' : ByteStream) :
    readUint64 fuel s ≠ some (.ok v, s') := by
  intro h
  simp only [readUint64, Option.bind_eq_bind, Option.bind_eq_some_iff] at h
  obtain ⟨res, hres, h⟩ := h
  have herr := readFullLoop_short ByteStream.follows fuel s [] res hres (by simpa using hs)
  rcases he : res.err with _ | err
  · exact herr he
  · simp [he] at h

/-- A stream of bytes ends with `io.EOF` and with nothing else, so `ReadFrom` returns no
error. -/
lemma Packet.readFrom_stream :
    ∀ (fuel : ℕ) (data : Packet) (totalRead : ℕ) (l : LimitedReader ByteStream)
      (packet : Packet) (n : ℕ) (err : Option ReadErr) (l' : LimitedReader ByteStream),
      data.readFrom fuel totalRead l = some (packet, n, err, l') →
      err = none ∧ l'.r.plan = l.r.plan := by
  intro fuel
  induction fuel with
  | zero => intro data totalRead l packet n err l' h; cases h
  | succ fuel ih =>
    intro data totalRead l packet n err l' h
    obtain ⟨herr, hplan⟩ := l.read_stream_err (maxContentSize - totalRead)
    simp only [readFrom] at h
    rcases herr with herr | herr
    · simp only [herr] at h
      obtain ⟨hnone, hl'⟩ := ih _ _ _ _ _ _ _ h
      exact ⟨hnone, hl'.trans hplan⟩
    · simp only [herr] at h
      cases h
      exact ⟨rfl, hplan⟩

/-! ### What is taken off the front -/

/-- One iteration on a complete frame. -/
lemma enqueued_frame (pool : ℕ → Packet) (fuel i : ℕ) {stream : ByteStream}
    (hfuel : maxContentSize ≤ fuel) (hs : 8 ≤ stream.bytes.length)
    (hsize : uint64 stream.bytes ≤ maxContentSize - tunPacketOffset)
    (hbody : uint64 stream.bytes ≤ (stream.bytes.drop 8).length) :
    ∃ (p : Packet) (stream' : ByteStream),
      enqueued pool (fuel + 1) i stream = p :: enqueued pool fuel (i + 1) stream' ∧
      p.content = (stream.bytes.drop 8).take (uint64 stream.bytes) ∧
      stream'.bytes = (stream.bytes.drop 8).drop (uint64 stream.bytes) ∧
      stream'.plan = stream.plan := by
  have hmax : maxContentSize = 3600 := rfl
  have hoff : tunPacketOffset = 14 := rfl
  obtain ⟨stream₁, hread, hs₁, hplan₁⟩ := readUint64_stream fuel (by omega) hs
  obtain ⟨p, l, hrun, hp, hl⟩ := (pool i).readFrom_limited fuel 0 (uint64 stream.bytes)
    ⟨stream₁, int64 (uint64 stream.bytes)⟩ (int64_of_lt (by omega)) (by rw [hs₁]; exact hbody)
    (by omega) (by omega)
  have hplan := ((pool i).readFrom_stream _ _ _ _ _ _ _ hrun).2
  rw [Nat.add_zero] at hrun
  refine ⟨p, l.r, ?_, ?_, ?_, hplan.trans hplan₁⟩
  · simp only [enqueued, hread, hrun]
  · simpa [hs₁, Packet.slice] using hp
  · rw [hl, hs₁]

/-- **The complete frames at the front of a stream are handed over**, and the loop comes to what
follows them. By induction on the frames. -/
lemma enqueued_completeFrames (pool : ℕ → Packet) :
    ∀ (rounds fuel i : ℕ) (stream : ByteStream), rounds + maxContentSize ≤ fuel →
      ∃ (packets : List Packet) (fuel' : ℕ) (stream' : ByteStream),
        enqueued pool fuel i stream =
          packets ++ enqueued pool fuel' (i + packets.length) stream' ∧
        packets.map Packet.content = (completeFrames rounds stream.bytes).1 ∧
        stream'.bytes = (completeFrames rounds stream.bytes).2 ∧
        stream'.plan = stream.plan ∧ fuel ≤ fuel' + rounds := by
  intro rounds
  induction rounds with
  | zero =>
    intro fuel i stream hfuel
    exact ⟨[], fuel, stream, rfl, rfl, rfl, rfl, le_rfl⟩
  | succ rounds ih =>
    intro fuel i stream hfuel
    obtain ⟨fuel, rfl⟩ : ∃ f, fuel = f + 1 := ⟨fuel - 1, by omega⟩
    by_cases hframe : 8 ≤ stream.bytes.length ∧
        uint64 stream.bytes ≤ maxContentSize - tunPacketOffset ∧
        uint64 stream.bytes ≤ (stream.bytes.drop 8).length
    · obtain ⟨p, stream₁, hrun, hp, hs₁, hplan₁⟩ :=
        enqueued_frame pool fuel i (by omega) hframe.1 hframe.2.1 hframe.2.2
      obtain ⟨packets, fuel', stream', hrest, hpackets, hs', hplan', hle⟩ :=
        ih fuel (i + 1) stream₁ (by omega)
      rw [hs₁] at hpackets hs'
      refine ⟨p :: packets, fuel', stream', ?_, ?_, ?_, hplan'.trans hplan₁, by omega⟩
      · rw [hrun, hrest, List.cons_append, List.length_cons, Nat.add_assoc, Nat.add_comm 1]
      · rw [completeFrames, if_pos hframe, List.map_cons, hp, hpackets]
      · rw [completeFrames, if_pos hframe, hs']
    · exact ⟨[], fuel + 1, stream, rfl, by rw [completeFrames, if_neg hframe]; rfl,
        by rw [completeFrames, if_neg hframe], rfl, by omega⟩

/-! ### What is left -/

/-- A rest of a stream that no packet is made of: it has no whole header, or its header declares
more than the buffer holds and the buffer is filled before the stream ends. -/
def Discarded (tail : List UInt8) : Prop :=
  tail.length < 8 ∨
    maxContentSize - tunPacketOffset < uint64 tail ∧ uint64 tail < 2 ^ 63 ∧
      maxContentSize - tunPacketOffset < (tail.drop 8).length

instance (tail : List UInt8) : Decidable (Discarded tail) :=
  inferInstanceAs (Decidable (tail.length < 8 ∨
    maxContentSize - tunPacketOffset < uint64 tail ∧ uint64 tail < 2 ^ 63 ∧
      maxContentSize - tunPacketOffset < (tail.drop 8).length))

lemma enqueued_discarded (pool : ℕ → Packet) (fuel i : ℕ) (stream : ByteStream)
    (h : Discarded stream.bytes) (hfuel : maxContentSize < fuel) :
    enqueued pool fuel i stream = [] := by
  have hmax : maxContentSize = 3600 := rfl
  have hoff : tunPacketOffset = 14 := rfl
  obtain ⟨fuel, rfl⟩ : ∃ f, fuel = f + 1 := ⟨fuel - 1, by omega⟩
  rcases h with hshort | ⟨hbig, hpos, hfull⟩
  · simp only [enqueued]
    split
    · next hread => exact absurd hread (readUint64_short hshort _ _ _)
    · rfl
  · rw [List.length_drop] at hfull
    obtain ⟨stream₁, hread, hs₁, -⟩ := readUint64_stream fuel (s := stream) (by omega)
      (by omega)
    have hlen := congrArg List.length hs₁
    rw [List.length_drop] at hlen
    have hhang : (pool i).readFrom fuel tunPacketOffset
        (⟨stream₁, int64 (uint64 stream.bytes)⟩ : LimitedReader ByteStream) = none := by
      refine Packet.readFrom_eq_none _ _ _ _ (by omega) ?_ (by dsimp only; omega) fun heq => ?_
      · rw [int64_of_lt hpos]
        dsimp only
        omega
      · dsimp only at heq
        omega
    simp only [enqueued, hread, hhang]

/-- A buffer that the end of the stream comes with. -/
lemma Packet.readFrom_filled (data : Packet) {fuel : ℕ} (hfuel : 0 < fuel) {stream : ByteStream}
    (hplan : stream.plan = fun _ => (maxContentSize, true)) {n : ℤ}
    (hlen : stream.bytes.length = maxContentSize - tunPacketOffset)
    (hn : maxContentSize - tunPacketOffset < n) :
    (data.readFrom fuel tunPacketOffset (⟨stream, n⟩ : LimitedReader ByteStream)).isSome := by
  have hmax : maxContentSize = 3600 := rfl
  have hoff : tunPacketOffset = 14 := rfl
  obtain ⟨fuel, rfl⟩ : ∃ f, fuel = f + 1 := ⟨fuel - 1, by omega⟩
  have hread := LimitedReader.read_of_pos (l := ⟨stream, n⟩) (show 0 < n by omega)
    (maxContentSize - tunPacketOffset)
  have hmin : min (maxContentSize - tunPacketOffset) n.toNat =
      maxContentSize - tunPacketOffset := by omega
  have hamount : stream.amount (maxContentSize - tunPacketOffset) =
      maxContentSize - tunPacketOffset := by
    rw [ByteStream.amount, hplan]
    dsimp only
    omega
  have herr : (Reader.read stream (maxContentSize - tunPacketOffset)).err = some .eof := by
    have hdrop : stream.bytes.drop (maxContentSize - tunPacketOffset) = [] :=
      List.drop_eq_nil_iff.2 hlen.le
    simp only [Reader.read, ByteStream.read, hamount, hdrop, hplan]
    rw [if_neg (by omega)]
    simp
  rw [hmin] at hread
  simp [readFrom, hread, herr]

/-- Of any other rest a packet is made, at least if the stream reports its end as soon as it
can. -/
lemma enqueued_ne_nil (pool : ℕ → Packet) {stream : ByteStream}
    (h : ¬ Discarded stream.bytes) (hplan : stream.plan = fun _ => (maxContentSize, true))
    {fuel : ℕ} (hfuel : maxContentSize < fuel) (i : ℕ) : enqueued pool fuel i stream ≠ [] := by
  have hmax : maxContentSize = 3600 := rfl
  have hoff : tunPacketOffset = 14 := rfl
  obtain ⟨fuel, rfl⟩ : ∃ f, fuel = f + 1 := ⟨fuel - 1, by omega⟩
  rw [Discarded, not_or, List.length_drop] at h
  obtain ⟨hlong, hrest⟩ := h
  obtain ⟨stream₁, hread, hs₁, hplan₁⟩ := readUint64_stream fuel (s := stream) (by omega)
    (by omega)
  have hlen := congrArg List.length hs₁
  rw [List.length_drop] at hlen
  have hsome : ((pool i).readFrom fuel tunPacketOffset
      (⟨stream₁, int64 (uint64 stream.bytes)⟩ : LimitedReader ByteStream)).isSome := by
    rcases Nat.lt_or_ge (uint64 stream.bytes) (2 ^ 63) with hpos | hneg
    · have hint := int64_of_lt hpos
      by_cases hfilled : maxContentSize - tunPacketOffset < uint64 stream.bytes ∧
          stream₁.bytes.length = maxContentSize - tunPacketOffset
      · refine Packet.readFrom_filled _ (by omega) (hplan₁.trans hplan) hfilled.2 ?_
        omega
      · refine Packet.readFrom_isSome ByteStream.follows _ _ _ _ (by omega) ?_ (by omega)
        dsimp only
        omega
    · have := int64_neg hneg (uint64_lt _)
      refine Packet.readFrom_isSome ByteStream.follows _ _ _ _ (by omega) (Or.inl ?_) (by omega)
      dsimp only
      omega
  obtain ⟨⟨packet, n, err, l⟩, hrun⟩ := Option.isSome_iff_exists.1 hsome
  obtain ⟨rfl, -⟩ := (pool i).readFrom_stream _ _ _ _ _ _ _ hrun
  simp only [enqueued, hread, hrun]
  exact List.cons_ne_nil _ _

/-- The packets that are read are those of the complete frames and one of what follows them, if
it is not discarded and the stream reports its end as soon as it can. -/
lemma enqueued_frames (pool : ℕ → Packet) (stream : ByteStream) {fuel : ℕ}
    (hfuel : stream.bytes.length + maxContentSize < fuel) :
    ∃ packets rest, enqueued pool fuel 0 stream = packets ++ rest ∧
      packets.map Packet.content = (frames stream.bytes).1 ∧
      (Discarded (frames stream.bytes).2 → rest = []) ∧
      (¬ Discarded (frames stream.bytes).2 → stream.plan = (fun _ => (maxContentSize, true)) →
        rest ≠ []) := by
  obtain ⟨packets, fuel', stream', hrun, hpackets, hs', hplan', hle⟩ :=
    enqueued_completeFrames pool stream.bytes.length fuel 0 stream (by omega)
  refine ⟨packets, _, hrun, hpackets, fun h => ?_, fun h hplan => ?_⟩
  · exact enqueued_discarded pool fuel' _ stream' (by rw [hs']; exact h) (by omega)
  · exact enqueued_ne_nil pool (by rw [hs']; exact h) (hplan'.trans hplan) (by omega) _

lemma take_append_eq_left {α : Type} {n : ℕ} {xs ys : List α} :
    (xs ++ ys).take n = xs ↔ xs.length ≤ n ∧ (ys = [] ∨ xs.length = n) := by
  constructor
  · intro h
    have hlen := congrArg List.length h
    rw [List.length_take, List.length_append] at hlen
    refine ⟨by omega, ?_⟩
    rcases ys with _ | ⟨y, ys⟩
    · exact Or.inl rfl
    · rw [List.length_cons] at hlen
      exact Or.inr (by omega)
  · rintro ⟨hle, rfl | rfl⟩
    · rw [List.append_nil, List.take_of_length_le hle]
    · exact List.take_left

/-- What the queue of a known peer holds once the stream has been read: the complete frames and
what is made of the rest of the stream, as far as there is room. -/
lemma streamHandler_queue {ID : Type} [DecidableEq ID] (pool : ℕ → Packet) (stream : ByteStream)
    {t : Tunnel ID} {peerID : ID} {p : Ptr} {vp : VpnPeer ID}
    (hp : t.peerIDToPeer.lookup peerID = some p) (hvp : t.heap[p]? = some vp)
    (hopen : vp.inboundCh.closed = false) (fuel : ℕ)
    (hfuel : stream.bytes.length + maxContentSize < fuel) :
    ∃ stop t' vp' rest, t.streamHandler pool fuel peerID stream = some (stop, t') ∧
      t'.heap[p]? = some vp' ∧
      vp'.inboundCh.buf.map Packet.content = ((vp.inboundCh.buf.map Packet.content ++
        (frames stream.bytes).1) ++ rest).take vp.inboundCh.cap ∧
      (Discarded (frames stream.bytes).2 → rest = []) ∧
      (¬ Discarded (frames stream.bytes).2 → stream.plan = (fun _ => (maxContentSize, true)) →
        rest ≠ []) := by
  obtain ⟨packets, rest, hread, hpackets, hnil, hcons⟩ := enqueued_frames pool stream hfuel
  obtain ⟨stop, t', vp', hrun, hvp', hbuf⟩ :=
    Tunnel.streamHandler_inbound pool fuel stream hp hvp hopen
  refine ⟨stop, t', vp', rest.map Packet.content, hrun, hvp', ?_, fun h => by rw [hnil h]; rfl,
    fun h hplan he => hcons h hplan (List.map_eq_nil_iff.mp he)⟩
  rw [hbuf, hread, ← hpackets, List.map_take, ← List.append_assoc, List.map_append,
    List.map_append]

/-- **The packets that `StreamHandler` enqueues for a known peer with an open queue are the
payloads of the complete frames at the front of the stream**, wherever the stream splits its
bytes, exactly if there is room for them and what follows them either comes to a full queue or
is discarded: less than a header, or a header that declares too much with more bytes behind it
than the buffer holds. -/
theorem streamHandler_frames_iff {ID : Type} [DecidableEq ID] (pool : ℕ → Packet)
    (bytes : List UInt8) {t : Tunnel ID} {peerID : ID} {p : Ptr} {vp : VpnPeer ID}
    (hp : t.peerIDToPeer.lookup peerID = some p) (hvp : t.heap[p]? = some vp)
    (hopen : vp.inboundCh.closed = false) :
    (∀ plan : ℕ → ℕ × Bool, ∃ enough, ∀ fuel ≥ enough, ∃ stop t' vp',
        t.streamHandler pool fuel peerID (⟨bytes, plan, 0⟩ : ByteStream) = some (stop, t') ∧
        t'.heap[p]? = some vp' ∧
        vp'.inboundCh.buf.map Packet.content =
          vp.inboundCh.buf.map Packet.content ++ (frames bytes).1) ↔
      vp.inboundCh.buf.length + (frames bytes).1.length ≤ vp.inboundCh.cap ∧
        (Discarded (frames bytes).2 ∨
          vp.inboundCh.buf.length + (frames bytes).1.length = vp.inboundCh.cap) := by
  rw [← List.length_map (f := Packet.content), ← List.length_append]
  constructor
  · intro h
    obtain ⟨enough, henough⟩ := h fun _ => (maxContentSize, true)
    obtain ⟨stop, t', vp', hrun, hvp', hqueue⟩ :=
      henough (enough + (bytes.length + maxContentSize + 1)) (Nat.le_add_right _ _)
    obtain ⟨stop₁, t₁, vp₁, rest, hrun₁, hvp₁, hbuf, -, hrest⟩ := streamHandler_queue pool
      ⟨bytes, fun _ => (maxContentSize, true), 0⟩ hp hvp hopen
      (enough + (bytes.length + maxContentSize + 1)) (by dsimp only; omega)
    rw [hrun] at hrun₁
    cases hrun₁
    rw [hvp'] at hvp₁
    cases hvp₁
    obtain ⟨hroom, hend⟩ := take_append_eq_left.mp (hbuf.symm.trans hqueue)
    refine ⟨hroom, hend.imp_left fun hnil => ?_⟩
    by_contra hcon
    exact hrest hcon rfl hnil
  · rintro ⟨hroom, hend⟩ plan
    refine ⟨bytes.length + maxContentSize + 1, fun fuel hfuel => ?_⟩
    obtain ⟨stop, t', vp', rest, hrun, hvp', hbuf, hnil, -⟩ := streamHandler_queue pool
      ⟨bytes, plan, 0⟩ hp hvp hopen fuel (by dsimp only; omega)
    exact ⟨stop, t', vp', hrun, hvp',
      hbuf.trans (take_append_eq_left.mpr ⟨hroom, hend.imp_left hnil⟩)⟩

section

open BootstrapPeer

/-- A tunnel with one peer and nothing in its queues. -/
def quietTunnel : Tunnel BootstrapPeer :=
  (Tunnel.empty (conf [])).addPeer rus2 [10, 66, 0, 2] rfl

/-- What is in the inbound queues of a tunnel. -/
def inboundContents (t : Tunnel BootstrapPeer) : List (List (List UInt8)) :=
  t.heap.map fun vp => vp.inboundCh.buf.map Packet.content

/-- Two frames and the first three bytes of a header. -/
def cutHeader : List UInt8 :=
  [0, 0, 0, 0, 0, 0, 0, 1, 7, 0, 0, 0, 0, 0, 0, 0, 2, 1, 2, 0, 0, 0]

theorem cutHeader_enqueued :
    ∃ vp, quietTunnel.heap[0]? = some vp ∧ vp.inboundCh.buf = [] ∧
      ∀ plan : ℕ → ℕ × Bool, ∃ enough, ∀ fuel ≥ enough, ∃ stop t' vp',
        quietTunnel.streamHandler (fun _ => Packet.new) fuel rus2
          (⟨cutHeader, plan, 0⟩ : ByteStream) = some (stop, t') ∧
        t'.heap[0]? = some vp' ∧ vp'.inboundCh.buf.map Packet.content = [[7], [1, 2]] := by
  have hp : quietTunnel.peerIDToPeer.lookup rus2 = some 0 := by decide
  have hvp : quietTunnel.heap[0]? = some (newVpnPeer rus2 [10, 66, 0, 2] rfl) := rfl
  exact ⟨_, hvp, rfl, (streamHandler_frames_iff (fun _ => Packet.new) cutHeader hp hvp rfl).mpr
    (by decide +kernel)⟩

/-- A payload of three bytes that is cut after the first. -/
theorem cutPayload_enqueued :
    (quietTunnel.streamHandler (fun _ => Packet.new) 10 rus2
        (⟨[0, 0, 0, 0, 0, 0, 0, 3, 1], fun _ => (8, false), 0⟩ : ByteStream)).map
          (fun r => (r.1, inboundContents r.2)) =
        some (some (.readPacketSize .eof), [[[1]]]) ∧
      (frames [0, 0, 0, 0, 0, 0, 0, 3, 1]).1 = [] := by
  decide +kernel

end

end Awl
