import Awl.Framing
import Awl.Runs
import Mathlib.Algebra.Order.BigOperators.Group.List

/-!
The streams of `backgroundOutboundHandler` and how much is written on each.

The limit of a stream is a number of bytes, the handler counts packets: it takes as many as would
fit if each had the size of the interface's MTU. On the stream a packet has eight bytes more.

A step is an iteration of the handler's loop. What comes from the channel, whether the peer is
connected, whether a stream can be opened and what becomes of a write are inputs of the steps.
The streams that have been closed are kept, with what was written on them.
-/

namespace Awl

namespace Outbound

def packetsBatchSize : ℕ := 100

def maxPacketsPerUnlimitedStream : ℕ := (5 <<< 30) / interfaceMTU

def maxPacketsPerLimitedStream : ℕ := (20 <<< 20) / interfaceMTU

/-- A stream to the peer: whether the connection is limited, and the bytes written so far. -/
structure TunnelStream where
  limited : Bool
  written : ℕ
  deriving DecidableEq

/-- The variables of the handler, and the streams it has closed. -/
structure State where
  stream : Option TunnelStream := none
  maxPacketsPerStream : ℕ := 0
  currentPacketsForStream : ℕ := 0
  closed : List TunnelStream := []

/-- All streams that have been opened. -/
def State.streams (s : State) : List TunnelStream := s.closed ++ s.stream.toList

inductive Event
  /-- packets are received; `opened` says what kind of stream can be opened, if need be, and
  `failed` after how many bytes the write fails, if it does -/
  | batch (packets : List (List UInt8)) (isConnected : Bool) (opened : Option Bool)
      (failed : Option ℕ)
  /-- the idle ticker; whether the channel is empty -/
  | tick (empty : Bool)

/-- A batch from the channel, of packets of at most `m` bytes. -/
def Event.Sized (m : ℕ) : Event → Prop
  | .batch packets _ _ _ => 1 ≤ packets.length ∧ packets.length ≤ packetsBatchSize ∧
      ∀ packet ∈ packets, packet.length ≤ m
  | .tick _ => True

namespace State

def closeStream (s : State) : State :=
  { s with
    stream := none
    currentPacketsForStream := 0
    closed := s.closed ++ s.stream.toList }

def maxPackets (limited : Bool) : ℕ :=
  if limited then maxPacketsPerLimitedStream else maxPacketsPerUnlimitedStream

/-- The first part of `sendPacket`: the stream is opened if there is none. -/
def openStream (s : State) (opened : Option Bool) : State :=
  match s.stream, opened with
  | none, some limited =>
    { s with stream := some ⟨limited, 0⟩, maxPacketsPerStream := maxPackets limited }
  | _, _ => s

/-- The frames of a batch. -/
def frames (packets : List (List UInt8)) : List UInt8 := packets.foldl appendPacketToBuf []

/-- `sendPacket`, and whether it returns no error. -/
def sendPacket (s : State) (packets : List (List UInt8)) (opened : Option Bool)
    (failed : Option ℕ) : State × Bool :=
  let s := s.openStream opened
  match s.stream with
  | none => (s, false)
  | some stream =>
    let data := frames packets
    let n := (failed.map (min data.length)).getD data.length
    ({ s with stream := some { stream with written := stream.written + n } }, failed.isNone)

/-- The stream is closed if it has no room for the batch. -/
def makeRoom (s : State) (packets : List (List UInt8)) : State :=
  if s.currentPacketsForStream + packets.length ≥ s.maxPacketsPerStream then s.closeStream else s

/-- The batch is counted and sent; after an error the stream is closed. -/
def sendBatch (s : State) (packets : List (List UInt8)) (opened : Option Bool)
    (failed : Option ℕ) : State :=
  let s := { s with currentPacketsForStream := s.currentPacketsForStream + packets.length }
  let sent := s.sendPacket packets opened failed
  if sent.2 then sent.1 else sent.1.closeStream

/-- An iteration of the loop of `backgroundOutboundHandler`. -/
def step (s : State) : Event → State
  | .batch packets isConnected opened failed =>
    if !isConnected then s else (s.makeRoom packets).sendBatch packets opened failed
  | .tick empty => if empty then s.closeStream else s

end State

/-- The number of bytes a stream is meant to carry. -/
def byteLimit (limited : Bool) : ℕ := if limited then 20 <<< 20 else 5 <<< 30

/-- No stream of the given kind has carried more than it is meant to. -/
def WithinLimit (limited : Bool) (s : State) : Prop :=
  ∀ stream ∈ s.streams, stream.limited = limited → stream.written ≤ byteLimit limited

/-! ### Packets and bytes -/

lemma frames_length (packets : List (List UInt8)) :
    (State.frames packets).length = (packets.map fun packet => packet.length + 8).sum := by
  have hloop : ∀ buf : List UInt8, (packets.foldl appendPacketToBuf buf).length =
      buf.length + (packets.map fun packet => packet.length + 8).sum := by
    induction packets with
    | nil => exact fun buf => rfl
    | cons packet packets ih =>
      intro buf
      rw [List.foldl_cons, ih, appendPacketToBuf, List.map_cons, List.sum_cons]
      simp only [List.length_append, putUint64_length]
      omega
  exact (hloop []).trans (Nat.zero_add _)

lemma frames_length_le {packets : List (List UInt8)} {m : ℕ}
    (h : ∀ packet ∈ packets, packet.length ≤ m) :
    (State.frames packets).length ≤ packets.length * (m + 8) := by
  have hsum := List.sum_le_card_nsmul (packets.map fun packet => packet.length + 8) (m + 8) (by
    intro n hn
    obtain ⟨packet, hpacket, rfl⟩ := List.mem_map.1 hn
    exact Nat.add_le_add_right (h packet hpacket) 8)
  rwa [List.length_map, nsmul_eq_mul, Nat.cast_id, ← frames_length] at hsum

/-! ### The invariant -/

lemma maxPackets_limited : State.maxPackets true = 5991 := rfl

lemma maxPackets_unlimited : State.maxPackets false = 1533916 := rfl

/-- A batch is smaller than any maximum. -/
lemma batch_lt_maxPackets (limited : Bool) : packetsBatchSize < State.maxPackets limited := by
  cases limited with
  | false => rw [maxPackets_unlimited]; decide
  | true => rw [maxPackets_limited]; decide

/-- The packets counted stand for the bytes written, and stay below the maximum. -/
structure Counted (m : ℕ) (s : State) : Prop where
  closed : ∀ stream ∈ s.closed,
    stream.written ≤ (State.maxPackets stream.limited - 1) * (m + 8)
  bytes : ∀ stream ∈ s.stream, stream.written ≤ s.currentPacketsForStream * (m + 8)
  below : ∀ stream ∈ s.stream, s.currentPacketsForStream < State.maxPackets stream.limited ∧
    s.maxPacketsPerStream = State.maxPackets stream.limited

/-- Without a stream, nothing is counted. -/
def Rested (s : State) : Prop := s.stream = none → s.currentPacketsForStream = 0

variable {m : ℕ} {s : State}

lemma Counted.streams (h : Counted m s) : ∀ stream ∈ s.streams,
    stream.written ≤ (State.maxPackets stream.limited - 1) * (m + 8) := by
  intro stream hstream
  rcases List.mem_append.1 hstream with hclosed | hopen
  · exact h.closed stream hclosed
  · have hmem := Option.mem_toList.1 hopen
    refine (h.bytes stream hmem).trans (Nat.mul_le_mul_right _ ?_)
    have := (h.below stream hmem).1
    omega

lemma Counted.closeStream (h : Counted m s) : Counted m s.closeStream := by
  refine ⟨h.streams, ?_, ?_⟩
  · rintro stream ⟨⟩
  · rintro stream ⟨⟩

lemma rested_closeStream (s : State) : Rested s.closeStream := fun _ => rfl

/-- The bytes that are written of a batch. -/
lemma written_le {packets : List (List UInt8)} (hsize : ∀ packet ∈ packets, packet.length ≤ m)
    (failed : Option ℕ) :
    (failed.map (min (State.frames packets).length)).getD (State.frames packets).length ≤
      packets.length * (m + 8) := by
  refine le_trans ?_ (frames_length_le hsize)
  cases failed with
  | none => exact le_rfl
  | some n => exact min_le_left _ _

/-- **A batch is sent** on the stream there is, if it has room for the batch, or on a new one. -/
lemma Counted.sendPacket (h : Counted m s) (hrest : Rested s) {packets : List (List UInt8)}
    (hbatch : packets.length ≤ packetsBatchSize) (hsize : ∀ packet ∈ packets, packet.length ≤ m)
    (hroom : s.stream = none ∨
      s.currentPacketsForStream + packets.length < s.maxPacketsPerStream)
    (opened : Option Bool) (failed : Option ℕ) :
    Counted m (({ s with
      currentPacketsForStream := s.currentPacketsForStream + packets.length } :
        State).sendPacket packets opened failed).1 := by
  have hwritten := written_le hsize failed
  rcases hstream : s.stream with _ | stream
  · have hzero := hrest hstream
    rcases opened with _ | limited
    · simp only [State.sendPacket, State.openStream]
      refine ⟨h.closed, ?_, ?_⟩
      · rintro stream ⟨⟩
      · rintro stream ⟨⟩
    · simp only [State.sendPacket, State.openStream]
      have hlt := batch_lt_maxPackets limited
      refine ⟨h.closed, ?_, ?_⟩
      · rintro stream ⟨⟩
        simp only [hzero, Nat.zero_add]
        exact hwritten
      · rintro stream ⟨⟩
        simp only [hzero, Nat.zero_add, and_true]
        omega
  · obtain ⟨-, hmax⟩ := h.below stream hstream
    have hbytes := h.bytes stream hstream
    have hlt := hroom.resolve_left (by rw [hstream]; exact Option.some_ne_none _)
    simp only [State.sendPacket, State.openStream]
    refine ⟨h.closed, ?_, ?_⟩
    · rintro stream' ⟨⟩
      simp only [Nat.add_mul]
      omega
    · rintro stream' ⟨⟩
      exact ⟨hmax ▸ hlt, hmax⟩

/-- After a batch has been sent there is a stream. -/
lemma rested_sendPacket {packets : List (List UInt8)} {opened : Option Bool} {failed : Option ℕ}
    (hok : (s.sendPacket packets opened failed).2 = true) :
    Rested (s.sendPacket packets opened failed).1 := by
  intro hnone
  simp only [State.sendPacket] at hok hnone
  rcases hstream : (s.openStream opened).stream with _ | stream
  · simp only [hstream] at hok
    cases hok
  · simp only [hstream] at hnone
    cases hnone

lemma Counted.makeRoom (h : Counted m s) (hrest : Rested s) (packets : List (List UInt8)) :
    Counted m (s.makeRoom packets) ∧ Rested (s.makeRoom packets) ∧
      ((s.makeRoom packets).stream = none ∨ (s.makeRoom packets).currentPacketsForStream +
        packets.length < (s.makeRoom packets).maxPacketsPerStream) := by
  unfold State.makeRoom
  split_ifs with hfull
  · exact ⟨h.closeStream, rested_closeStream s, Or.inl rfl⟩
  · exact ⟨h, hrest, Or.inr (Nat.lt_of_not_le hfull)⟩

/-- **One iteration** keeps the count. -/
lemma counted_step (h : Counted m s) (hrest : Rested s) {e : Event} (he : e.Sized m) :
    Counted m (s.step e) ∧ Rested (s.step e) := by
  cases e with
  | tick empty =>
    cases empty with
    | false => exact ⟨h, hrest⟩
    | true => exact ⟨h.closeStream, rested_closeStream s⟩
  | batch packets isConnected opened failed =>
    cases isConnected with
    | false => exact ⟨h, hrest⟩
    | true =>
      obtain ⟨-, hbatch, hsize⟩ := he
      obtain ⟨hcounted, hrest', hroom⟩ := h.makeRoom hrest packets
      have hsent := hcounted.sendPacket hrest' hbatch hsize hroom opened failed
      simp only [State.step, Bool.not_true, Bool.false_eq_true, if_false, State.sendBatch]
      split_ifs with hok
      · exact ⟨hsent, rested_sendPacket hok⟩
      · exact ⟨hsent.closeStream, rested_closeStream _⟩

/-! ### Filling a stream -/

/-- A batch of `j` packets of `len` bytes, for which a stream of the given kind can be opened and
which is written without error. -/
def fullBatch (limited : Bool) (len j : ℕ) : Event :=
  .batch (List.replicate j (List.replicate len 0)) true (some limited) none

/-- One stream has been opened, and `k` packets of `len` bytes have been sent on it. -/
def filling (limited : Bool) (len k : ℕ) : State where
  stream := some ⟨limited, k * (len + 8)⟩
  maxPacketsPerStream := State.maxPackets limited
  currentPacketsForStream := k

variable {limited : Bool} {len j k : ℕ}

lemma fullBatch_sized (hj : 1 ≤ j) (hj' : j ≤ packetsBatchSize) (hlen : len ≤ m) :
    (fullBatch limited len j).Sized m := by
  refine ⟨?_, ?_, fun packet hpacket => ?_⟩
  · rwa [List.length_replicate]
  · rwa [List.length_replicate]
  · rwa [List.eq_of_mem_replicate hpacket, List.length_replicate]

lemma frames_replicate (len j : ℕ) :
    (State.frames (List.replicate j (List.replicate len 0))).length = j * (len + 8) := by
  rw [frames_length, List.map_replicate, List.sum_replicate, List.length_replicate, nsmul_eq_mul,
    Nat.cast_id]

lemma step_first : ({} : State).step (fullBatch limited len j) = filling limited len j := by
  simp [State.step, fullBatch, State.makeRoom, State.closeStream, State.sendBatch,
    State.sendPacket, State.openStream, frames_replicate, filling]

lemma step_next (h : k + j < State.maxPackets limited) :
    (filling limited len k).step (fullBatch limited len j) = filling limited len (k + j) := by
  have hroom : ¬ State.maxPackets limited ≤ k + j := Nat.not_le_of_lt h
  simp [State.step, fullBatch, State.makeRoom, State.sendBatch, State.sendPacket,
    State.openStream, frames_replicate, filling, hroom, Nat.add_mul]

/-- Batch after batch, as long as the count stays below the maximum. -/
lemma run_full (n : ℕ) : ∀ {k}, k + n * j < State.maxPackets limited →
    (List.replicate n (fullBatch limited len j)).foldl State.step (filling limited len k) =
      filling limited len (k + n * j) := by
  induction n with
  | zero => exact fun _ => by rw [Nat.zero_mul]; rfl
  | succ n ih =>
    intro k h
    rw [Nat.add_mul, Nat.one_mul] at h ⊢
    rw [List.replicate_succ, List.foldl_cons, step_next (by omega), ih (by omega)]
    congr 1
    omega

/-- As many packets of `len` bytes as the handler sends on one stream. -/
def fullRun (limited : Bool) (len : ℕ) : List Event :=
  fullBatch limited len ((State.maxPackets limited - 1) % packetsBatchSize) ::
    List.replicate ((State.maxPackets limited - 1) / packetsBatchSize)
      (fullBatch limited len packetsBatchSize)

lemma run_fullRun (limited : Bool) (len : ℕ) :
    (fullRun limited len).foldl State.step {} =
      filling limited len (State.maxPackets limited - 1) := by
  have hpos := batch_lt_maxPackets limited
  have hdiv := Nat.mod_add_div' (State.maxPackets limited - 1) packetsBatchSize
  rw [fullRun, List.foldl_cons, step_first, run_full _ (by omega), hdiv]

lemma fullRun_sized (limited : Bool) (hlen : len ≤ m) :
    ∀ e ∈ fullRun limited len, e.Sized m := by
  intro e he
  rcases List.mem_cons.1 he with rfl | he
  · refine fullBatch_sized ?_ (Nat.mod_lt _ (by decide)).le hlen
    cases limited with
    | false => rw [maxPackets_unlimited]; decide
    | true => rw [maxPackets_limited]; decide
  · rw [List.eq_of_mem_replicate he]
    exact fullBatch_sized (by decide) le_rfl hlen

/-! ### The sizes at which the limit is kept -/

lemma byteLimit_iff (limited : Bool) (m : ℕ) :
    (State.maxPackets limited - 1) * (m + 8) ≤ byteLimit limited ↔
      m ≤ if limited then 3493 else 3492 := by
  cases limited with
  | false =>
    rw [maxPackets_unlimited, show byteLimit false = 5368709120 from rfl]
    simp only [Bool.false_eq_true, if_false]
    omega
  | true =>
    rw [maxPackets_limited, show byteLimit true = 20971520 from rfl]
    simp only [if_true]
    omega

/-- **No stream carries more than it is meant to**, whatever happens, exactly if the packets are
seven bytes smaller than the interface's MTU, or eight if the stream is not limited. -/
theorem stream_bytes_iff (limited : Bool) (m : ℕ) :
    (∀ es : List Event, (∀ e ∈ es, e.Sized m) →
      Runs.Holds State.step (WithinLimit limited) {} es) ↔
      m ≤ if limited then 3493 else 3492 := by
  rw [← byteLimit_iff]
  constructor
  · intro h
    have hlast := (h (fullRun limited m) (fullRun_sized limited le_rfl)).last
    rw [run_fullRun] at hlast
    exact hlast _ (List.mem_singleton_self _) rfl
  · intro hm es hes
    refine Runs.holds_of_meets (I := fun s => Counted m s ∧ Rested s)
      (C := fun _ e => e.Sized m) (fun s e h he => counted_step h.1 h.2 he)
      (fun s h stream hstream hkind => ?_) es _ ⟨⟨?_, ?_, ?_⟩, fun _ => rfl⟩
      (Runs.meets_of_forall es hes _)
    · have hbytes := h.1.streams stream hstream
      rw [hkind] at hbytes
      exact hbytes.trans hm
    · exact fun stream hstream => absurd hstream List.not_mem_nil
    · rintro stream ⟨⟩
    · rintro stream ⟨⟩

/-- Packets of the size of the MTU on a limited stream: ninety of them, and then 59 full batches. -/
theorem limitedStream_overrun :
    (∀ e ∈ fullRun true interfaceMTU, e.Sized interfaceMTU) ∧
      ((fullRun true interfaceMTU).foldl State.step {}).streams = [⟨true, 21012920⟩] ∧
      byteLimit true = 20971520 ∧
      ¬ Runs.Holds State.step (WithinLimit true) {} (fullRun true interfaceMTU) := by
  have hstreams : ((fullRun true interfaceMTU).foldl State.step {}).streams =
      [⟨true, 21012920⟩] := by
    rw [run_fullRun]
    rfl
  refine ⟨fullRun_sized true le_rfl, hstreams, rfl, fun h => ?_⟩
  have hle := h.last ⟨true, 21012920⟩ (by rw [hstreams]; exact List.mem_singleton_self _) rfl
  exact absurd hle (by decide)

end Outbound

end Awl
