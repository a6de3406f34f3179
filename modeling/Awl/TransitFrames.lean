import Awl.Transit
import Mathlib.Data.List.Perm.Basic

/-!
The frames on a stream of the tunnel.

A stream is written frame by frame and cut anywhere, so what is on it is a list of whole frames
and the front of another one. Cutting it once more keeps a front of the list; the reader takes
the frames off one by one.
-/

namespace Awl

namespace Transit

/-! ### Whole frames and the front of another one -/

/-- The frames of a list of packets. -/
def encoded (packets : List (List UInt8)) : List UInt8 :=
  packets.flatMap fun p => putUint64 p.length ++ p

lemma encoded_cons (p : List UInt8) (ps : List (List UInt8)) (rest : List UInt8) :
    encoded (p :: ps) ++ rest = putUint64 p.length ++ (p ++ (encoded ps ++ rest)) := by
  simp [encoded]

lemma frames_eq_encoded (packets : List (List UInt8)) :
    Outbound.State.frames packets = encoded packets := by
  simpa [Outbound.State.frames, encoded] using foldl_appendPacketToBuf [] packets

/-- The packet fits the buffer of the reader. -/
def Fits (p : List UInt8) : Prop := p.length ≤ maxContentSize - tunPacketOffset

lemma Fits.lt {p : List UInt8} (h : Fits p) : p.length < 2 ^ 64 :=
  Nat.lt_of_le_of_lt h (by decide)

lemma fits_content (p : Packet) : Fits p.content := by
  have hlen := p.length_buffer
  simp only [Fits, Packet.content, Packet.slice, List.length_take, List.length_drop]
  omega

/-- The front of a frame that is not whole. -/
def Cut (tail : List UInt8) : Prop :=
  ∃ p, Fits p ∧ tail <+: putUint64 p.length ++ p ∧ tail.length < 8 + p.length

lemma cut_nil : Cut [] := ⟨[], Nat.zero_le _, List.nil_prefix, by simp⟩

lemma Cut.take {tail : List UInt8} (h : Cut tail) (n : ℕ) : Cut (tail.take n) := by
  obtain ⟨p, hp, hpre, hlt⟩ := h
  refine ⟨p, hp, (List.take_prefix n tail).trans hpre, ?_⟩
  rw [List.length_take]
  omega

/-- A cut frame does not hold what its header declares, if it has a header. -/
lemma Cut.not_whole {tail : List UInt8} (h : Cut tail) (hlen : 8 ≤ tail.length) :
    (tail.drop 8).length < uint64 tail := by
  obtain ⟨p, hp, ⟨more, hmore⟩, hlt⟩ := h
  have htake : tail.take 8 = putUint64 p.length := by
    have := congrArg (List.take 8) hmore
    rwa [List.take_append_of_le_length hlen, List.take_left' (putUint64_length _)] at this
  rw [← uint64_take, htake, uint64_putUint64 hp.lt, List.length_drop]
  omega

/-- The bytes are those of `packets` and a cut frame. -/
structure Splits (bytes : List UInt8) (packets : List (List UInt8)) (tail : List UInt8) :
    Prop where
  eq : bytes = encoded packets ++ tail
  fits : ∀ p ∈ packets, Fits p
  cut : Cut tail

lemma splits_nil : Splits [] [] [] := ⟨rfl, by simp, cut_nil⟩

/-- A whole frame in front of the bytes. -/
lemma Splits.cons {bytes : List UInt8} {packets : List (List UInt8)} {tail p : List UInt8}
    (hp : Fits p) (h : Splits bytes packets tail) :
    Splits (putUint64 p.length ++ (p ++ bytes)) (p :: packets) tail where
  eq := by rw [encoded_cons, h.eq]
  fits := List.forall_mem_cons.mpr ⟨hp, h.fits⟩
  cut := h.cut

/-- What is behind the first frame. -/
lemma Splits.tail {bytes p tail : List UInt8} {packets : List (List UInt8)}
    (h : Splits bytes (p :: packets) tail) :
    bytes = putUint64 p.length ++ (p ++ (encoded packets ++ tail)) ∧ Fits p ∧
      Splits (encoded packets ++ tail) packets tail :=
  ⟨by rw [h.eq, encoded_cons], h.fits p List.mem_cons_self,
    rfl, fun q hq => h.fits q (List.mem_cons_of_mem p hq), h.cut⟩

/-- **`frames` reads the split off the bytes.** By induction on the packets. -/
lemma Splits.completeFrames_eq {packets : List (List UInt8)} {tail : List UInt8} :
    ∀ {bytes : List UInt8} {rounds : ℕ}, packets.length ≤ rounds →
      Splits bytes packets tail → completeFrames rounds bytes = (packets, tail) := by
  induction packets with
  | nil =>
    intro bytes rounds _ h
    have hbytes : bytes = tail := h.eq
    subst hbytes
    cases rounds with
    | zero => rfl
    | succ rounds =>
      refine if_neg fun hframe => ?_
      have := h.cut.not_whole hframe.1
      omega
  | cons p packets ih =>
    intro bytes rounds hrounds h
    obtain ⟨rounds, rfl⟩ : ∃ r, rounds = r + 1 := ⟨rounds - 1, by simp at hrounds; omega⟩
    obtain ⟨hbytes, hp, hrest⟩ := h.tail
    have hn : uint64 bytes = p.length := by
      rw [hbytes, ← uint64_take, List.take_left' (putUint64_length _), uint64_putUint64 hp.lt]
    have hbody : bytes.drop 8 = p ++ (encoded packets ++ tail) := by
      rw [hbytes, List.drop_left' (putUint64_length _)]
    have hlong : 8 ≤ bytes.length := by
      rw [hbytes, List.length_append, putUint64_length]
      omega
    have hframe : 8 ≤ bytes.length ∧ uint64 bytes ≤ maxContentSize - tunPacketOffset ∧
        uint64 bytes ≤ (bytes.drop 8).length := by
      rw [hn, hbody, List.length_append]
      exact ⟨hlong, hp, by omega⟩
    rw [completeFrames, if_pos hframe, hn, hbody, List.take_left, List.drop_left,
      ih (Nat.le_of_succ_le_succ hrounds) hrest]

lemma length_le_encoded (packets : List (List UInt8)) :
    packets.length ≤ (encoded packets).length := by
  induction packets with
  | nil => exact Nat.le_refl 0
  | cons p packets ih =>
    have := congrArg List.length (encoded_cons p packets [])
    simp only [List.append_nil, List.length_append, putUint64_length] at this
    rw [List.length_cons, this]
    omega

lemma Splits.frames_eq {bytes tail : List UInt8} {packets : List (List UInt8)}
    (h : Splits bytes packets tail) : frames bytes = (packets, tail) := by
  refine h.completeFrames_eq ?_
  have := length_le_encoded packets
  rw [h.eq, List.length_append]
  omega

/-! ### Writing and cutting -/

/-- A batch is written behind whole frames. -/
lemma Splits.append {bytes more tail : List UInt8} {packets packets' : List (List UInt8)}
    (h : Splits bytes packets []) (h' : Splits more packets' tail) :
    Splits (bytes ++ more) (packets ++ packets') tail where
  eq := by rw [h.eq, h'.eq]; simp [encoded]
  fits := by
    intro p hp
    rcases List.mem_append.mp hp with hp | hp
    · exact h.fits p hp
    · exact h'.fits p hp
  cut := h'.cut

lemma splits_encoded {packets : List (List UInt8)} (h : ∀ p ∈ packets, Fits p) :
    Splits (encoded packets) packets [] := ⟨(List.append_nil _).symm, h, cut_nil⟩

/-- **Cutting keeps a front of the packets.** -/
lemma Splits.take {packets : List (List UInt8)} {tail : List UInt8} :
    ∀ {bytes : List UInt8} (n : ℕ), Splits bytes packets tail →
      ∃ packets' tail', Splits (bytes.take n) packets' tail' ∧ packets' <+: packets := by
  induction packets with
  | nil =>
    intro bytes n h
    have hbytes : bytes = tail := h.eq
    subst hbytes
    exact ⟨[], bytes.take n, ⟨rfl, by simp, h.cut.take n⟩, List.nil_prefix⟩
  | cons p packets ih =>
    intro bytes n h
    obtain ⟨hbytes, hp, hrest⟩ := h.tail
    rcases Nat.lt_or_ge n (8 + p.length) with hn | hn
    · -- the cut goes through the first frame
      refine ⟨[], bytes.take n, ⟨rfl, by simp, p, hp, ?_, ?_⟩, List.nil_prefix⟩
      · rw [hbytes, ← List.append_assoc, List.take_append_of_le_length (by simp; omega)]
        exact List.take_prefix n _
      · rw [List.length_take]
        omega
    · obtain ⟨packets', tail', hsplit, hpre⟩ := ih (n - (8 + p.length)) hrest
      refine ⟨p :: packets', tail', ?_, List.cons_prefix_cons.mpr ⟨rfl, hpre⟩⟩
      have htake : bytes.take n = putUint64 p.length ++
          (p ++ (encoded packets ++ tail).take (n - (8 + p.length))) := by
        rw [hbytes, List.take_append, List.take_of_length_le (by simp; omega), List.take_append,
          List.take_of_length_le (by simp; omega)]
        simp only [putUint64_length, Nat.sub_sub]
      rw [htake]
      exact hsplit.cons hp

/-! ### Reading -/

/-- An iteration of the read loop takes the first frame. -/
lemma readFrame_whole (data : Packet) (stream : ByteStream) {p rest : List UInt8} (hp : Fits p)
    (hs : stream.bytes = putUint64 p.length ++ (p ++ rest)) :
    ∃ packet stream', readFrame maxContentSize data stream = some (.ok packet, stream') ∧
      packet.content = p ∧ stream'.bytes = rest := by
  have hmax : maxContentSize = 3600 := rfl
  have hoff : tunPacketOffset = 14 := rfl
  have hlen : p.length ≤ maxContentSize - tunPacketOffset := hp
  obtain ⟨stream₁, hsize, hs₁⟩ := readUint64_frame maxContentSize (by omega) hp.lt hs
  obtain ⟨packet, l, hrun, hcontent, hl⟩ := data.readFrom_limited maxContentSize 0 p.length
    ⟨stream₁, int64 p.length⟩ (int64_of_lt (by omega)) (by simp [hs₁]) (by omega) (by omega)
  refine ⟨packet, l.r, ?_, ?_, ?_⟩
  · rw [Nat.add_zero] at hrun
    simp only [readFrame, hsize, Option.bind_eq_bind, Option.bind_some, hrun]
    rfl
  · simpa [hs₁, Packet.slice] using hcontent
  · simpa [hs₁] using hl

/-- At the end of a closed stream the handler returns. -/
lemma readFrame_eof (data : Packet) (stream : ByteStream) (hs : stream.bytes = []) :
    ∃ stream', readFrame maxContentSize data stream =
      some (.error (.readPacketSize .eof), stream') ∧ stream'.bytes = [] := by
  obtain ⟨stream', hread, hs'⟩ :=
    readFull_eof maxContentSize 8 stream (by decide) (by omega) hs
  exact ⟨stream', by simp [readFrame, readUint64, hread], hs'⟩

end Transit

end Awl
