import Awl.Framing
import Awl.TunnelInv

/-!
The packets `StreamHandler` reads, and the frames a stream consists of.

The packets are read independently of what becomes of them, so they are a function of the stream
alone. What the handler does to the tunnel is to hand them over one after the other.
-/

namespace Awl

section

variable {R : Type} [Reader R]

/-- The packets the read loop of `StreamHandler` comes to enqueue, as far as `fuel` goes. Which of
them the queue takes is up to `Tunnel.enqueueInbound`. -/
def enqueued (pool : ℕ → Packet) : ℕ → ℕ → R → List Packet
  | 0, _, _ => []
  | fuel + 1, i, stream =>
    match readUint64 fuel stream with
    | some (.ok packetSize, stream) =>
      match (pool i).readFrom fuel tunPacketOffset
          (⟨stream, int64 packetSize⟩ : LimitedReader R) with
      | some (packet, _, none, wrappedStream) =>
        packet :: enqueued pool fuel (i + 1) wrappedStream.r
      | _ => []
    | _ => []

/-- The packets are handed over one after the other, until there is no peer to take them. -/
def deliverAll {σ : Type} (deliver : Packet → σ → Option (σ × Bool)) :
    List Packet → σ → Option σ
  | [], s => some s
  | packet :: packets, s => do
    let (s, ok) ← deliver packet s
    if ok then deliverAll deliver packets s else return s

/-- **The read loop hands over what it has read**, whether it returns or not: by induction on
the iterations. -/
lemma streamLoopSoFar_deliverAll {σ : Type} (pool : ℕ → Packet)
    (deliver : Packet → σ → Option (σ × Bool)) (fuel : ℕ) : ∀ (i : ℕ) (stream : R) (s : σ),
      (streamLoopSoFar pool deliver fuel i stream s).map Prod.snd =
        deliverAll deliver (enqueued pool fuel i stream) s := by
  induction fuel with
  | zero => intro i stream s; rfl
  | succ fuel ih =>
    intro i stream s
    rcases hsize : readUint64 fuel stream with _ | ⟨err | packetSize, stream₁⟩
    · simp [streamLoopSoFar, enqueued, hsize, deliverAll]
    · simp [streamLoopSoFar, enqueued, hsize, deliverAll]
    · rcases hread : (pool i).readFrom fuel tunPacketOffset
          (⟨stream₁, int64 packetSize⟩ : LimitedReader R) with
        _ | ⟨packet, n, _ | err, wrapped⟩
      · simp [streamLoopSoFar, enqueued, hsize, hread, deliverAll]
      · simp only [streamLoopSoFar, enqueued, hsize, hread, deliverAll, Option.bind_eq_bind]
        rcases deliver packet s with _ | ⟨s₁, _ | _⟩
        · rfl
        · rfl
        · exact ih (i + 1) wrapped.r s₁
      · simp [streamLoopSoFar, enqueued, hsize, hread, deliverAll]

end

/-! ### The queue of the peer -/

namespace Tunnel

variable {ID : Type} [DecidableEq ID] {peerID : ID} {p : Ptr}

lemma take_append_take {α : Type} (n : ℕ) (xs ys : List α) :
    (xs.take n ++ ys).take n = (xs ++ ys).take n := by
  rcases Nat.le_total xs.length n with hle | hle
  · rw [List.take_of_length_le hle]
  · rw [List.take_append_of_le_length hle,
      List.take_append_of_le_length (List.length_take_of_le hle).ge, List.take_take, min_self]

/-- One packet for a known peer: it is at the end of the queue if there was room, and dropped
otherwise. -/
lemma enqueueInbound_known {t : Tunnel ID} {vp : VpnPeer ID} (packet : Packet)
    (hp : t.peerIDToPeer.lookup peerID = some p) (hvp : t.heap[p]? = some vp)
    (hopen : vp.inboundCh.closed = false) :
    ∃ t' vp', t.enqueueInbound peerID packet = some (t', true) ∧
      t'.peerIDToPeer = t.peerIDToPeer ∧ t'.heap[p]? = some vp' ∧
      vp'.inboundCh.closed = false ∧ vp'.inboundCh.cap = vp.inboundCh.cap ∧
      vp'.inboundCh.buf = (vp.inboundCh.buf ++ [packet]).take vp.inboundCh.cap := by
  have hle := vp.inboundCh.le_cap
  by_cases hroom : vp.inboundCh.buf.length < vp.inboundCh.cap
  · refine ⟨t.setPeer p { vp with inboundCh := vp.inboundCh.push packet hroom }, _,
      by simp [enqueueInbound, hp, hvp, Chan.trySend, hopen, hroom], rfl,
      (setPeer_get (List.getElem?_eq_some_iff.mp hvp).1).trans (if_pos rfl), hopen, rfl, ?_⟩
    rw [List.take_of_length_le (by rw [List.length_append]; exact hroom)]
    rfl
  · refine ⟨t, vp, by simp [enqueueInbound, hp, hvp, Chan.trySend, hopen, hroom], rfl, hvp,
      hopen, rfl, ?_⟩
    rw [List.take_left' (by omega)]

/-- Packets for a known peer: the first ones, as far as there is room, end up in the queue. -/
lemma deliverAll_known (packets : List Packet) : ∀ (t : Tunnel ID) (vp : VpnPeer ID),
    t.peerIDToPeer.lookup peerID = some p → t.heap[p]? = some vp →
    vp.inboundCh.closed = false →
    ∃ t' vp', deliverAll (fun packet t => t.enqueueInbound peerID packet) packets t = some t' ∧
      t'.heap[p]? = some vp' ∧
      vp'.inboundCh.buf = (vp.inboundCh.buf ++ packets).take vp.inboundCh.cap := by
  induction packets with
  | nil =>
    intro t vp _ hvp _
    refine ⟨t, vp, rfl, hvp, ?_⟩
    rw [List.append_nil, List.take_of_length_le vp.inboundCh.le_cap]
  | cons packet packets ih =>
    intro t vp hp hvp hopen
    obtain ⟨t₁, vp₁, hsend, hbyID, hvp₁, hopen₁, hcap, hbuf⟩ :=
      enqueueInbound_known packet hp hvp hopen
    obtain ⟨t', vp', hall, hvp', hbuf'⟩ := ih t₁ vp₁ (by rw [hbyID, hp]) hvp₁ hopen₁
    refine ⟨t', vp', by simp [deliverAll, hsend, hall], hvp', ?_⟩
    rw [hbuf', hbuf, hcap, take_append_take, ← List.append_cons]

/-- **What `StreamHandler` has put into the queue of its peer**: the packets it has read, as far
as there is room. -/
lemma streamHandler_inbound {R : Type} [Reader R] (pool : ℕ → Packet) (fuel : ℕ) (stream : R)
    {t : Tunnel ID} {vp : VpnPeer ID} (hp : t.peerIDToPeer.lookup peerID = some p)
    (hvp : t.heap[p]? = some vp) (hopen : vp.inboundCh.closed = false) :
    ∃ stop t' vp', t.streamHandler pool fuel peerID stream = some (stop, t') ∧
      t'.heap[p]? = some vp' ∧
      vp'.inboundCh.buf =
        (vp.inboundCh.buf ++ enqueued pool fuel 0 stream).take vp.inboundCh.cap := by
  obtain ⟨t', vp', hall, hvp', hbuf⟩ :=
    deliverAll_known (enqueued pool fuel 0 stream) t vp hp hvp hopen
  rw [← streamLoopSoFar_deliverAll] at hall
  obtain ⟨⟨stop, t₁⟩, hrun, rfl⟩ := Option.map_eq_some_iff.mp hall
  exact ⟨stop, t₁, vp', by simp only [streamHandler, hp, hrun], hvp', hbuf⟩

end Tunnel

/-! ### The frames of a stream -/

/-- The payloads of the complete frames at the front of a stream, and what follows them. In each
round one frame is taken. -/
def completeFrames : ℕ → List UInt8 → List (List UInt8) × List UInt8
  | 0, bytes => ([], bytes)
  | rounds + 1, bytes =>
    let n := uint64 bytes
    let body := bytes.drop 8
    if 8 ≤ bytes.length ∧ n ≤ maxContentSize - tunPacketOffset ∧ n ≤ body.length then
      let (payloads, tail) := completeFrames rounds (body.drop n)
      (body.take n :: payloads, tail)
    else ([], bytes)

def frames (bytes : List UInt8) : List (List UInt8) × List UInt8 :=
  completeFrames bytes.length bytes

/-- What stands at the front of the stream is a frame with the given payload. -/
def StartsWith (bytes payload rest : List UInt8) : Prop :=
  payload.length ≤ maxContentSize - tunPacketOffset ∧
    bytes = putUint64 payload.length ++ (payload ++ rest)

lemma startsWith_iff {bytes : List UInt8} :
    (∃ payload rest, StartsWith bytes payload rest) ↔
      8 ≤ bytes.length ∧ uint64 bytes ≤ maxContentSize - tunPacketOffset ∧
        uint64 bytes ≤ (bytes.drop 8).length := by
  have hmax : maxContentSize = 3600 := rfl
  constructor
  · rintro ⟨payload, rest, hsize, rfl⟩
    have hn : uint64 (putUint64 payload.length ++ (payload ++ rest)) = payload.length := by
      rw [← uint64_take, List.take_left' (putUint64_length _), uint64_putUint64 (by omega)]
    rw [hn, List.drop_left' (putUint64_length _)]
    simp only [List.length_append, putUint64_length]
    omega
  · rintro ⟨hlong, hsize, hbody⟩
    have hlen : ((bytes.drop 8).take (uint64 bytes)).length = uint64 bytes :=
      List.length_take_of_le hbody
    refine ⟨(bytes.drop 8).take (uint64 bytes), (bytes.drop 8).drop (uint64 bytes), ?_, ?_⟩
    · rwa [hlen]
    · rw [hlen, putUint64_uint64 hlong, List.take_append_drop, List.take_append_drop]

/-- **`frames` takes the frames off the front**, all of them that are complete. By induction on
the frames; each is at least eight bytes long, so the rounds are enough. -/
theorem completeFrames_spec : ∀ (rounds : ℕ) (bytes : List UInt8), bytes.length ≤ rounds →
    bytes = (completeFrames rounds bytes).1.flatMap (fun p => putUint64 p.length ++ p) ++
        (completeFrames rounds bytes).2 ∧
      (∀ p ∈ (completeFrames rounds bytes).1, p.length ≤ maxContentSize - tunPacketOffset) ∧
      ∀ payload rest, ¬ StartsWith (completeFrames rounds bytes).2 payload rest := by
  intro rounds
  induction rounds with
  | zero =>
    intro bytes hle
    obtain rfl := List.length_eq_zero_iff.1 (Nat.le_zero.1 hle)
    refine ⟨rfl, by simp [completeFrames], fun payload rest h => ?_⟩
    have := (startsWith_iff.1 ⟨payload, rest, h⟩).1
    simp [completeFrames] at this
  | succ rounds ih =>
    intro bytes hle
    by_cases hframe : 8 ≤ bytes.length ∧ uint64 bytes ≤ maxContentSize - tunPacketOffset ∧
        uint64 bytes ≤ (bytes.drop 8).length
    · obtain ⟨hsplit, hsizes, hnext⟩ := ih ((bytes.drop 8).drop (uint64 bytes)) (by
        simp only [List.length_drop]
        omega)
      have hlen : ((bytes.drop 8).take (uint64 bytes)).length = uint64 bytes :=
        List.length_take_of_le hframe.2.2
      rw [completeFrames, if_pos hframe]
      refine ⟨?_, ?_, hnext⟩
      · dsimp only
        rw [List.flatMap_cons, hlen, putUint64_uint64 hframe.1, List.append_assoc, ← hsplit,
          List.append_assoc, List.take_append_drop, List.take_append_drop]
      · rw [List.forall_mem_cons]
        exact ⟨hlen.trans_le hframe.2.1, hsizes⟩
    · rw [completeFrames, if_neg hframe]
      exact ⟨rfl, by simp, fun payload rest h => hframe (startsWith_iff.1 ⟨payload, rest, h⟩)⟩

end Awl
