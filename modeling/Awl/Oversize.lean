import Awl.Framing

/-!
Frames whose declared size is more than a packet can hold.

`ReadFrom` reads until its reader returns an error. Once the buffer is full it reads into an
empty slice, and a stream that has more bytes then returns nothing and no error, so that only
the limit of the frame can end the loop.
-/

namespace Awl

namespace Packet

variable {R : Type} [Reader R] {left : R → List UInt8}

/-- `ReadFrom` returns if the limit or the end of the stream comes before the buffer is full. By
induction on the reads: each that does not end the loop takes a byte of the buffer. -/
lemma readFrom_isSome (hr : Follows left) :
    ∀ (fuel : ℕ) (data : Packet) (totalRead : ℕ) (l : LimitedReader R),
      totalRead ≤ maxContentSize →
      l.n + totalRead ≤ maxContentSize ∨ totalRead + (left l.r).length < maxContentSize →
      maxContentSize - totalRead < fuel → (data.readFrom fuel totalRead l).isSome := by
  intro fuel
  induction fuel with
  | zero => intro data totalRead l _ _ hfuel; omega
  | succ fuel ih =>
    intro data totalRead l hle hroom hfuel
    rcases Int.lt_or_le 0 l.n with hn | hn
    · have hread := LimitedReader.read_of_pos hn (maxContentSize - totalRead)
      set res := Reader.read l.r (min (maxContentSize - totalRead) l.n.toNat) with hres
      rcases herr : res.err with _ | err
      · have hbytes := List.length_pos_iff.2 (hr.bytes_ne_nil _ _ (by omega) herr)
        have hlen := Reader.length_le l.r (min (maxContentSize - totalRead) l.n.toNat)
        have hleft := congrArg List.length
          (hr.left_eq l.r (min (maxContentSize - totalRead) l.n.toNat))
        rw [← hres, List.length_append] at hleft
        rw [← hres] at hbytes hlen
        simp only [readFrom, hread, herr]
        refine ih _ _ _ (by omega) ?_ (by omega)
        dsimp only
        omega
      · rcases err with _ | _ | _ <;> simp [readFrom, hread, herr]
    · simp [readFrom, LimitedReader.read_done hn]

/-- `ReadFrom` does not return once it has come to a full buffer without the end of the stream
being reported. -/
lemma readFrom_eq_none :
    ∀ (fuel : ℕ) (data : Packet) (totalRead : ℕ) (l : LimitedReader ByteStream),
      totalRead ≤ maxContentSize → maxContentSize < l.n + totalRead →
      maxContentSize ≤ totalRead + l.r.bytes.length →
      (maxContentSize = totalRead + l.r.bytes.length → ∀ i, (l.r.plan i).2 = false) →
      data.readFrom fuel totalRead l = none := by
  intro fuel
  induction fuel with
  | zero => intro data totalRead l _ _ _ _; rfl
  | succ fuel ih =>
    intro data totalRead l hle hn hbytes hquiet
    have hread := LimitedReader.read_of_pos (l := l) (by omega) (maxContentSize - totalRead)
    have hmin : min (maxContentSize - totalRead) l.n.toNat = maxContentSize - totalRead := by
      omega
    rw [hmin] at hread
    rcases hle.eq_or_lt with rfl | hlt
    · -- The slice is empty: nothing is read, and everything is as before.
      have hempty : Reader.read l.r 0 = ⟨[], none, l.r⟩ := rfl
      rw [Nat.sub_self] at hread
      simp only [readFrom, Nat.sub_self, hread, hempty, List.length_nil, Nat.add_zero]
      exact ih _ _ _ le_rfl (by dsimp only; omega) hbytes hquiet
    · have hne : l.r.bytes ≠ [] := List.length_pos_iff.1 (by omega)
      obtain ⟨k, hk, hkle, hks, htake, hnext, herr⟩ :=
        l.r.read_spec (maxContentSize - totalRead) (by omega) hne
      have hnone : (Reader.read l.r (maxContentSize - totalRead)).err = none := by
        rcases herr with herr | ⟨-, hend⟩
        · exact herr
        · exact ByteStream.read_err hne (hquiet (by omega) _)
      have hlen : (l.r.bytes.take k).length = k := by
        rw [List.length_take]
        omega
      have hleft : (Reader.read l.r (maxContentSize - totalRead)).next.bytes.length =
          l.r.bytes.length - k := by
        rw [hnext, List.length_drop]
      simp only [readFrom, hread, hnone, htake, hlen]
      refine ih _ _ _ (by omega) (by dsimp only; omega) (by dsimp only; omega) fun heq => ?_
      dsimp only at heq ⊢
      rw [ByteStream.read_plan]
      exact hquiet (by omega)

/-- **`ReadFrom` returns after finitely many reads**, from every stream with the given bytes that
follows `io.Reader`, exactly if the declared size fits the buffer or is negative as an `int64`, or
if fewer bytes are sent than the buffer holds. -/
theorem readFrom_returns_iff (data : Packet) {packetSize : ℕ} (hsize : packetSize < 2 ^ 64)
    (bytes : List UInt8) :
    (∀ (R : Type) [Reader R] (left : R → List UInt8), Follows left → ∀ r, left r = bytes →
        ∃ fuel, (data.readFrom fuel tunPacketOffset
          (⟨r, int64 packetSize⟩ : LimitedReader R)).isSome) ↔
      packetSize ≤ maxContentSize - tunPacketOffset ∨ 2 ^ 63 ≤ packetSize ∨
        bytes.length < maxContentSize - tunPacketOffset := by
  have hmax : maxContentSize = 3600 := rfl
  have hoff : tunPacketOffset = 14 := rfl
  constructor
  · intro h
    by_contra hcon
    push Not at hcon
    obtain ⟨hbig, hpos, hlen⟩ := hcon
    -- A stream that never reports its end together with bytes.
    obtain ⟨fuel, hfuel⟩ := h ByteStream ByteStream.bytes ByteStream.follows
      ⟨bytes, fun _ => (1, false), 0⟩ rfl
    rw [readFrom_eq_none fuel data tunPacketOffset
      ⟨⟨bytes, fun _ => (1, false), 0⟩, int64 packetSize⟩ (by omega)
      (by rw [int64_of_lt hpos]; dsimp only; omega) (by dsimp only; omega)
      (fun _ _ => rfl)] at hfuel
    exact Bool.noConfusion hfuel
  · rintro hcond R _ left hr r rfl
    refine ⟨maxContentSize, readFrom_isSome hr _ _ _ _ (by omega) ?_ (by omega)⟩
    rcases Nat.lt_or_ge packetSize (2 ^ 63) with hpos | hneg
    · rw [int64_of_lt hpos]
      dsimp only
      omega
    · have := int64_neg hneg hsize
      dsimp only
      omega

/-- One byte more than a packet holds, declared and sent. -/
theorem oversizeFrame_hangs :
    Follows ByteStream.bytes ∧ ∀ (plan : ℕ → ℕ × Bool) (fuel : ℕ),
      Packet.new.readFrom fuel tunPacketOffset
        (⟨⟨List.replicate 3587 0, plan, 0⟩, int64 3587⟩ : LimitedReader ByteStream) = none := by
  have hmax : maxContentSize = 3600 := rfl
  have hoff : tunPacketOffset = 14 := rfl
  refine ⟨ByteStream.follows, fun plan fuel => readFrom_eq_none _ _ _ _ (by omega) ?_ ?_ ?_⟩
  · rw [int64_of_lt (by omega)]
    dsimp only
    omega
  all_goals
    rw [List.length_replicate]
    omega

/-- A frame that is cut short. -/
theorem cutFrame_returns : ∃ fuel,
    (Packet.new.readFrom fuel tunPacketOffset
      (⟨⟨[1], fun _ => (1, false), 0⟩, int64 3⟩ : LimitedReader ByteStream)).isSome :=
  (readFrom_returns_iff Packet.new (by decide) [1]).2 (Or.inl (by decide)) ByteStream
    ByteStream.bytes ByteStream.follows ⟨[1], fun _ => (1, false), 0⟩ rfl

end Packet

end Awl
