import Awl.Overwrite
import Awl.Runs
import Mathlib.Data.List.DropRight

/-!
The ring buffer in which the last part of the log is kept.

It is an array of twice the size that is filled from the front. Before a write, once more than
seventeen tenths of the size are filled, the newest part moves to the front. A write that comes
before that may find less room than it needs, and is cut off.
-/

namespace Awl

/-- `RingBuffer`, filled up to `pos`. What lies behind is left over from earlier. -/
structure RingBuffer where
  buf : List UInt8
  size : ℕ
  pos : ℕ
  length_buf : buf.length = size * 2
  pos_le : pos ≤ size * 2

namespace RingBuffer

def fillingRate : ℕ := 17

/-- `New`. -/
def new (size : ℕ) : RingBuffer where
  buf := List.replicate (size * 2) 0
  size := size
  pos := 0
  length_buf := List.length_replicate
  pos_le := Nat.zero_le _

/-- The bytes that are filled. -/
def filled (r : RingBuffer) : List UInt8 := r.buf.take r.pos

/-- `Bytes`. -/
def bytes (r : RingBuffer) : List UInt8 :=
  if r.pos = 0 then []
  else
    -- an index below zero is raised to zero
    let firstIndex := r.pos - r.size
    (r.buf.take r.pos).drop firstIndex

def reset (r : RingBuffer) : RingBuffer := { r with pos := 0, pos_le := Nat.zero_le _ }

lemma length_filled (r : RingBuffer) : r.filled.length = r.pos := by
  have hpos := r.pos_le
  rw [filled, List.length_take, r.length_buf]
  omega

lemma length_moved (r : RingBuffer) :
    (overwrite r.buf 0 (r.filled.drop (r.pos - r.size))).length = r.size * 2 := by
  rw [length_overwrite, r.length_buf]
  rw [List.length_drop, r.length_filled, r.length_buf]
  omega

lemma size_le (size : ℕ) : size ≤ size * 2 := by omega

/-- The newest part moves to the front when the threshold is passed. -/
def shift (r : RingBuffer) : RingBuffer :=
  if r.size * fillingRate / 10 < r.pos then
    let s := r.pos - r.size
    { r with
      buf := overwrite r.buf 0 ((r.buf.take r.pos).drop s)
      pos := r.size
      length_buf := r.length_moved
      pos_le := size_le r.size }
  else r

lemma length_copied (r : RingBuffer) (p : List UInt8) :
    (overwrite r.buf r.pos (p.take (r.buf.length - r.pos))).length = r.size * 2 := by
  have hpos := r.pos_le
  rw [length_overwrite, r.length_buf]
  rw [List.length_take, r.length_buf]
  omega

lemma pos_copied_le (r : RingBuffer) (p : List UInt8) :
    r.pos + (p.take (r.buf.length - r.pos)).length ≤ r.size * 2 := by
  have hpos := r.pos_le
  rw [List.length_take, r.length_buf]
  omega

/-- `copy(r.buf[r.pos:], p)`, as much as there is room for, and the new position. -/
def append (r : RingBuffer) (p : List UInt8) : RingBuffer :=
  { r with
    buf := overwrite r.buf r.pos (p.take (r.buf.length - r.pos))
    pos := r.pos + (p.take (r.buf.length - r.pos)).length
    length_buf := r.length_copied p
    pos_le := r.pos_copied_le p }

/-- `Write`: the buffer, and the number of bytes and the error that it returns. -/
def write (r : RingBuffer) (p : List UInt8) : RingBuffer × ℕ × Option String :=
  if p.length = 0 then (r, 0, none)
  else
    let r := r.shift
    let n := (p.take (r.buf.length - r.pos)).length
    (r.append p, n, none)

/-! ### What is filled -/

lemma bytes_eq (r : RingBuffer) : r.bytes = r.filled.rtake r.size := by
  rw [bytes, List.rtake, r.length_filled, filled]
  split_ifs with h
  · rw [h, List.take_zero, List.drop_nil]
  · rfl

lemma filled_append (r : RingBuffer) (p : List UInt8) :
    (r.append p).filled = r.filled ++ p.take (r.buf.length - r.pos) := by
  -- the copy has what was filled in front of it
  have hcopy : (r.append p).buf = (r.filled ++ p.take (r.buf.length - r.pos)) ++
      r.buf.drop (r.pos + (p.take (r.buf.length - r.pos)).length) := rfl
  rw [filled, hcopy]
  exact List.take_left' (by rw [List.length_append, r.length_filled]; rfl)

/-- Moving leaves the newest bytes. -/
lemma filled_shift (r : RingBuffer) :
    r.shift.filled = if r.size * fillingRate / 10 < r.pos then r.filled.rtake r.size
      else r.filled := by
  have hrate : r.size * fillingRate / 10 < r.pos → r.size ≤ r.pos := by
    rw [fillingRate]
    omega
  unfold shift
  split_ifs with h
  · have hlen : (r.filled.drop (r.pos - r.size)).length = r.size := by
      rw [List.length_drop, r.length_filled]
      have := hrate h
      omega
    rw [List.rtake, r.length_filled, filled]
    simp only [overwrite, List.take_zero, List.nil_append]
    exact List.take_left' hlen
  · rfl

lemma size_shift (r : RingBuffer) : r.shift.size = r.size := by
  unfold shift
  split_ifs with h
  · rfl
  · rfl

lemma size_write (r : RingBuffer) (p : List UInt8) : (r.write p).1.size = r.size := by
  unfold write
  split_ifs with h
  · rfl
  · exact r.size_shift

/-- There is room for a write, if need be after moving. -/
def Fits (r : RingBuffer) (p : List UInt8) : Prop :=
  r.size * fillingRate / 10 < r.pos ∨ r.pos + p.length ≤ r.size * 2

instance (r : RingBuffer) (p : List UInt8) : Decidable (r.Fits p) :=
  inferInstanceAs (Decidable (_ ∨ _))

/-- The room after moving. -/
lemma room_iff {r : RingBuffer} {p : List UInt8} (hp : p.length ≤ r.size) :
    p.length ≤ r.shift.buf.length - r.shift.pos ↔ r.Fits p := by
  have hpos := r.pos_le
  rw [r.shift.length_buf, r.size_shift, Fits]
  unfold shift
  split_ifs with h
  · refine iff_of_true ?_ (Or.inl h)
    show p.length ≤ r.size * 2 - r.size
    omega
  · rw [or_iff_right h]
    omega

/-- **What a write returns** is the length of the data exactly if there is room. -/
lemma write_returns_iff {r : RingBuffer} {p : List UInt8} (hp : p.length ≤ r.size) :
    (r.write p).2 = (p.length, none) ↔ r.Fits p := by
  have hpos := r.pos_le
  unfold write
  split_ifs with h0
  · refine iff_of_true (by rw [h0]) (Or.inr ?_)
    rw [h0]
    exact hpos
  · rw [← room_iff hp, Prod.mk.injEq, List.length_take]
    simp only [and_true]
    omega

/-- What is filled after a write that had room. -/
lemma filled_write {r : RingBuffer} {p : List UInt8} (hp : p.length ≤ r.size) (h : r.Fits p) :
    (r.write p).1.filled = r.filled ++ p ∨ (r.write p).1.filled = r.filled.rtake r.size ++ p := by
  unfold write
  split_ifs with h0
  · rw [List.length_eq_zero_iff] at h0
    exact Or.inl (by rw [h0, List.append_nil])
  · simp only [filled_append, filled_shift]
    rw [List.take_of_length_le ((room_iff hp).2 h)]
    split_ifs
    · exact Or.inr rfl
    · exact Or.inl rfl

end RingBuffer

/-! ### The newest part of a list -/

/-- What is older than the newest `n` can be forgotten before more is added. -/
lemma rtake_rtake_append {α : Type} (n : ℕ) (l l' : List α) :
    (l.rtake n ++ l').rtake n = (l ++ l').rtake n := by
  simp only [List.rtake_eq_reverse_take_reverse, List.reverse_append, List.reverse_reverse,
    List.take_append, List.take_take]
  rw [min_eq_left (Nat.sub_le n _)]

/-! ### Calls, one after the other -/

/-- A call, with at most `size` bytes of data. -/
inductive RingCall (size : ℕ)
  | write (p : List UInt8) (hp : p.length ≤ size)
  | reset

/-- The buffer, the data written since it was made or reset, and for every write so far the
length of its data and what was returned. -/
structure RingLog where
  ring : RingBuffer
  data : List UInt8
  returned : List (ℕ × ℕ × Option String)

namespace RingLog

variable {size : ℕ}

def new (size : ℕ) : RingLog := ⟨.new size, [], []⟩

def step (s : RingLog) : RingCall size → RingLog
  | .write p _ =>
    ⟨(s.ring.write p).1, s.data ++ p, s.returned ++ [(p.length, (s.ring.write p).2)]⟩
  | .reset => ⟨s.ring.reset, [], s.returned⟩

/-- Every write has returned the length of its data and no error, and what the buffer gives back
is the newest part of the data. -/
structure Newest (s : RingLog) : Prop where
  returned : ∀ e ∈ s.returned, e.2 = (e.1, none)
  bytes : s.ring.bytes = s.data.rtake s.ring.size

/-- A write finds room. -/
def Fits (s : RingLog) : RingCall size → Prop
  | .write p _ => s.ring.Fits p
  | .reset => True

instance (s : RingLog) : (e : RingCall size) → Decidable (s.Fits e)
  | .write p _ => inferInstanceAs (Decidable (s.ring.Fits p))
  | .reset => instDecidableTrue

lemma size_step (s : RingLog) (e : RingCall size) : (s.step e).ring.size = s.ring.size := by
  cases e with
  | write p hp => exact s.ring.size_write p
  | reset => rfl

/-- A write that has room keeps the newest bytes. -/
lemma bytes_write {s : RingLog} (h : s.ring.bytes = s.data.rtake s.ring.size) {p : List UInt8}
    (hp : p.length ≤ s.ring.size) (hfits : s.ring.Fits p) :
    (s.ring.write p).1.bytes = (s.data ++ p).rtake s.ring.size := by
  rw [RingBuffer.bytes_eq] at h
  rw [RingBuffer.bytes_eq, s.ring.size_write, ← rtake_rtake_append, ← h, rtake_rtake_append]
  rcases RingBuffer.filled_write hp hfits with hfilled | hfilled
  · rw [hfilled]
  · rw [hfilled, rtake_rtake_append]

/-- **One call** keeps the promise exactly if it finds room. -/
lemma newest_step_iff {s : RingLog} (h : s.Newest) (hsize : s.ring.size = size)
    (e : RingCall size) : (s.step e).Newest ↔ s.Fits e := by
  cases e with
  | write p hp =>
    subst hsize
    constructor
    · intro h'
      refine (RingBuffer.write_returns_iff hp).1 ?_
      exact h'.returned _ (List.mem_append_right _ (List.mem_singleton_self _))
    · intro hfits
      refine ⟨fun e he => ?_, ?_⟩
      · rcases List.mem_append.1 he with he | he
        · exact h.returned e he
        · rw [List.mem_singleton.1 he]
          exact (RingBuffer.write_returns_iff hp).2 hfits
      · rw [size_step]
        exact bytes_write h.bytes hp hfits
  | reset =>
    refine iff_of_true ⟨h.returned, ?_⟩ trivial
    rw [RingBuffer.bytes_eq]
    rfl

end RingLog

/-- **The newest bytes are kept**, and every write returns the length of its data, exactly as long
as no write comes to find less room than it needs behind a position at which nothing is moved. -/
theorem ring_newest_iff {size : ℕ} (es : List (RingCall size)) :
    Runs.Holds RingLog.step RingLog.Newest (RingLog.new size) es ↔
      Runs.Meets RingLog.step RingLog.Fits (RingLog.new size) es := by
  refine Runs.holds_iff_meets (I := fun s => s.ring.size = size) (fun s e hsize _ => ?_)
    (fun s e hsize h => RingLog.newest_step_iff h hsize e) es _ rfl ⟨?_, ?_⟩
  · rw [s.size_step, hsize]
  · exact fun e he => absurd he List.not_mem_nil
  · rw [RingBuffer.bytes_eq]
    rfl

/-- A buffer of ten bytes, filled with ten and then seven. Of ten more, three are written. -/
def tenSevenTen : List (RingCall 10) :=
  [.write (List.replicate 10 1) (by decide), .write (List.replicate 7 2) (by decide),
    .write (List.replicate 10 3) (by decide)]

theorem tenSevenTen_cut :
    (tenSevenTen.foldl RingLog.step (RingLog.new 10)).returned =
        [(10, 10, none), (7, 7, none), (10, 3, none)] ∧
      (tenSevenTen.foldl RingLog.step (RingLog.new 10)).ring.bytes =
        List.replicate 7 2 ++ List.replicate 3 3 ∧
      ¬ Runs.Holds RingLog.step RingLog.Newest (RingLog.new 10) tenSevenTen := by
  refine ⟨by decide, by decide, fun h => ?_⟩
  have hlast := h.last.bytes
  revert hlast
  decide

end Awl
