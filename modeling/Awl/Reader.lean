import Mathlib.Algebra.Group.Nat.Defs
import Mathlib.Data.List.Basic
import Mathlib.Data.Int.Notation
import Mathlib.Tactic.Common

/-!
Go's `io.Reader`: a byte stream that hands out its bytes in pieces of its own choosing, a
limited reader over another one, and the loop of `io.ReadFull`.

A read is given the length of the caller's slice and returns the bytes it put there, the
error and the reader after the call. A loop that reads until something happens need not end
with every reader, so it takes the number of reads it may make; `none` means that these were
not enough.
-/

namespace Awl

inductive ReadErr
  | eof
  | unexpectedEOF
  | failed
  deriving DecidableEq, Repr

/-- What one call of `Read` gives. -/
structure ReadResult (R : Type) where
  bytes : List UInt8
  err : Option ReadErr
  next : R

/-- A reader never returns more bytes than it was asked for. -/
class Reader (R : Type) where
  read : R → ℕ → ReadResult R
  length_le : ∀ r len, (read r len).bytes.length ≤ len

/-! ### A stream -/

/-- The bytes still to come, and for each call how many bytes it would like to return and
whether it reports the end together with the last of them. -/
structure ByteStream where
  bytes : List UInt8
  plan : ℕ → ℕ × Bool
  calls : ℕ

namespace ByteStream

/-- How many bytes the current call returns. -/
def amount (s : ByteStream) (len : ℕ) : ℕ := max 1 (min (s.plan s.calls).1 len)

def read (s : ByteStream) (len : ℕ) : ReadResult ByteStream :=
  if len = 0 then ⟨[], none, s⟩
  else
    let rest := s.bytes.drop (s.amount len)
    ⟨s.bytes.take (s.amount len),
      if s.bytes = [] ∨ rest = [] ∧ (s.plan s.calls).2 then some .eof else none,
      { s with bytes := rest, calls := s.calls + 1 }⟩

lemma amount_pos (s : ByteStream) (len : ℕ) : 0 < s.amount len := by
  unfold amount
  omega

lemma amount_le (s : ByteStream) {len : ℕ} (h : 0 < len) : s.amount len ≤ len := by
  unfold amount
  omega

instance : Reader ByteStream where
  read := read
  length_le s len := by
    unfold read
    split_ifs with h
    · simp
    · have := s.amount_le (Nat.pos_of_ne_zero h)
      simp only [List.length_take]
      omega

/-- What a read of a non-empty slice does while there are bytes. -/
lemma read_spec (s : ByteStream) (len : ℕ) (hlen : 0 < len) (hs : s.bytes ≠ []) :
    ∃ k, 0 < k ∧ k ≤ len ∧ k ≤ s.bytes.length ∧ (Reader.read s len).bytes = s.bytes.take k ∧
      (Reader.read s len).next.bytes = s.bytes.drop k ∧
      ((Reader.read s len).err = none ∨
        (Reader.read s len).err = some .eof ∧ s.bytes.length = k) := by
  have hpos := s.amount_pos len
  have hle := s.amount_le hlen
  have hs' : 0 < s.bytes.length := List.length_pos_iff.mpr hs
  refine ⟨min (s.amount len) s.bytes.length, by omega, by omega, by omega, ?_, ?_, ?_⟩
  all_goals simp only [Reader.read, read, if_neg (Nat.pos_iff_ne_zero.mp hlen)]
  · rw [← List.take_eq_take_min]
  · rw [← List.drop_eq_drop_min]
  · split_ifs with he
    · refine Or.inr ⟨rfl, ?_⟩
      have := List.drop_eq_nil_iff.mp (he.resolve_left hs).1
      omega
    · exact Or.inl rfl

/-- A stream without bytes is at its end, and stays there. -/
lemma read_nil {s : ByteStream} {len : ℕ} (hlen : 0 < len) (hs : s.bytes = []) :
    (Reader.read s len).bytes = [] ∧ (Reader.read s len).err = some .eof ∧
      (Reader.read s len).next.bytes = [] := by
  simp [Reader.read, read, Nat.pos_iff_ne_zero.mp hlen, hs]

/-- The end of the stream is reported with bytes only if the plan has it. -/
lemma read_err {s : ByteStream} {len : ℕ} (hs : s.bytes ≠ [])
    (h : (s.plan s.calls).2 = false) : (Reader.read s len).err = none := by
  rcases Nat.eq_zero_or_pos len with rfl | hlen
  · rfl
  · simp [Reader.read, read, Nat.pos_iff_ne_zero.mp hlen, hs, h]

lemma read_err_cases (s : ByteStream) (len : ℕ) :
    (Reader.read s len).err = none ∨ (Reader.read s len).err = some .eof := by
  simp only [Reader.read, read]
  split_ifs <;> simp

lemma read_plan (s : ByteStream) (len : ℕ) : (Reader.read s len).next.plan = s.plan := by
  simp only [Reader.read, read]
  split <;> rfl

end ByteStream

/-- What `io.Reader` asks of a stream that still has the finitely many bytes `left r`: a read of
a non-empty slice returns some of them or an error, and a read of an empty one returns neither
while there are any. -/
structure Follows {R : Type} [Reader R] (left : R → List UInt8) : Prop where
  left_eq : ∀ (r : R) (len : ℕ), left r = (Reader.read r len).bytes ++ left (Reader.read r len).next
  bytes_ne_nil : ∀ (r : R) (len : ℕ), 0 < len → (Reader.read r len).err = none →
    (Reader.read r len).bytes ≠ []
  empty_err : ∀ r : R, left r ≠ [] → (Reader.read r 0).err = none

lemma ByteStream.follows : Follows ByteStream.bytes where
  left_eq s len := by
    rcases Nat.eq_zero_or_pos len with rfl | hlen
    · rfl
    · simp [Reader.read, read, Nat.pos_iff_ne_zero.mp hlen]
  bytes_ne_nil s len hlen herr := by
    have hpos := s.amount_pos len
    simp only [Reader.read, read, if_neg (Nat.pos_iff_ne_zero.mp hlen)] at herr ⊢
    intro hnil
    rcases List.take_eq_nil_iff.mp hnil with h | h
    · omega
    · simp [h] at herr
  empty_err s _ := rfl

/-! ### `io.LimitedReader` -/

structure LimitedReader (R : Type) where
  r : R
  n : ℤ

namespace LimitedReader

variable {R : Type} [Reader R]

def read (l : LimitedReader R) (len : ℕ) : ReadResult (LimitedReader R) :=
  if l.n ≤ 0 then ⟨[], some .eof, l⟩
  else
    let res := Reader.read l.r (min len l.n.toNat)
    ⟨res.bytes, res.err, ⟨res.next, l.n - res.bytes.length⟩⟩

instance : Reader (LimitedReader R) where
  read := read
  length_le l len := by
    unfold read
    split_ifs
    · simp
    · exact Nat.le_trans (Reader.length_le l.r _) (Nat.min_le_left _ _)

lemma read_done {l : LimitedReader R} (h : l.n ≤ 0) (len : ℕ) :
    Reader.read l len = ⟨[], some .eof, l⟩ := by
  simp [Reader.read, read, h]

/-- A read that the limit has not stopped. -/
lemma read_of_pos {l : LimitedReader R} (h : 0 < l.n) (len : ℕ) :
    Reader.read l len =
      ⟨(Reader.read l.r (min len l.n.toNat)).bytes, (Reader.read l.r (min len l.n.toNat)).err,
        ⟨(Reader.read l.r (min len l.n.toNat)).next,
          l.n - (Reader.read l.r (min len l.n.toNat)).bytes.length⟩⟩ := by
  simp only [Reader.read, read]
  rw [if_neg (by omega)]

/-- A read of a non-empty slice from a stream that has the bytes up to the limit. -/
lemma read_stream {l : LimitedReader ByteStream} {n : ℕ} (len : ℕ) (hl : l.n = n) (hn : 0 < n)
    (hlen : 0 < len) (hs : n ≤ l.r.bytes.length) :
    ∃ k, 0 < k ∧ k ≤ len ∧ k ≤ n ∧ (Reader.read l len).bytes = l.r.bytes.take k ∧
      (Reader.read l len).next.r.bytes = l.r.bytes.drop k ∧
      (Reader.read l len).next.n = (n - k : ℕ) ∧
      ((Reader.read l len).err = none ∨ (Reader.read l len).err = some .eof ∧ n = k) := by
  have hread := read_of_pos (l := l) (by omega) len
  rw [hl, Int.toNat_natCast] at hread
  obtain ⟨k, hk, hkmin, hks, hbytes, hnext, herr⟩ :=
    l.r.read_spec (min len n) (by omega) (List.length_pos_iff.mp (by omega))
  refine ⟨k, hk, by omega, by omega, ?_, ?_, ?_, ?_⟩
  · rw [hread]
    exact hbytes
  · rw [hread]
    exact hnext
  · rw [hread]
    simp only [hbytes, List.length_take]
    omega
  · rw [hread]
    exact herr.imp_right fun h => ⟨h.1, by omega⟩

lemma read_stream_err (l : LimitedReader ByteStream) (len : ℕ) :
    ((Reader.read l len).err = none ∨ (Reader.read l len).err = some .eof) ∧
      (Reader.read l len).next.r.plan = l.r.plan := by
  rcases Int.lt_or_le 0 l.n with hn | hn
  · rw [read_of_pos hn]
    exact ⟨l.r.read_err_cases _, l.r.read_plan _⟩
  · rw [read_done hn]
    exact ⟨Or.inr rfl, rfl⟩

end LimitedReader

/-! ### `io.ReadFull` -/

section

variable {R : Type} [Reader R]

/-- The loop of `io.ReadFull`, with `got` read so far. -/
def readFullLoop (size : ℕ) : ℕ → R → List UInt8 → Option (ReadResult R)
  | 0, _, _ => none
  | fuel + 1, r, got =>
    if got.length < size then
      let res := Reader.read r (size - got.length)
      let got := got ++ res.bytes
      match res.err with
      | none => readFullLoop size fuel res.next got
      | some e =>
        if size ≤ got.length then some ⟨got, none, res.next⟩
        else if got ≠ [] ∧ e = .eof then some ⟨got, some .unexpectedEOF, res.next⟩
        else some ⟨got, some e, res.next⟩
    else some ⟨got, none, r⟩

def readFull (fuel : ℕ) (r : R) (size : ℕ) : Option (ReadResult R) :=
  readFullLoop size fuel r []

end

/-- What every read keeps is kept by `io.ReadFull`. -/
lemma readFullLoop_keeps {R : Type} [Reader R] {P : R → Prop} {size : ℕ}
    (hP : ∀ r len, P r → P (Reader.read r len).next) :
    ∀ (fuel : ℕ) (r : R) (got : List UInt8) (res : ReadResult R),
      readFullLoop size fuel r got = some res → P r → P res.next := by
  intro fuel
  induction fuel with
  | zero => intro r got res h _; cases h
  | succ fuel ih =>
    intro r got res h hr
    by_cases hfull : got.length < size
    · have hnext := hP r (size - got.length) hr
      simp only [readFullLoop, if_pos hfull] at h
      split at h
      · exact ih _ _ _ h hnext
      · split_ifs at h <;> (cases h; exact hnext)
    · simp only [readFullLoop, if_neg hfull] at h
      cases h
      exact hr

/-- A stream with too few bytes does not fill the slice. -/
lemma readFullLoop_short {R : Type} [Reader R] {left : R → List UInt8} (hr : Follows left)
    {size : ℕ} :
    ∀ (fuel : ℕ) (r : R) (got : List UInt8) (res : ReadResult R),
      readFullLoop size fuel r got = some res → got.length + (left r).length < size →
      res.err ≠ none := by
  intro fuel
  induction fuel with
  | zero => intro r got res h _; cases h
  | succ fuel ih =>
    intro r got res h hlt
    have hleft := congrArg List.length (hr.left_eq r (size - got.length))
    rw [List.length_append] at hleft
    simp only [readFullLoop, if_pos (show got.length < size by omega)] at h
    split at h
    · exact ih _ _ _ h (by rw [List.length_append]; omega)
    · rw [if_neg (by rw [List.length_append]; omega)] at h
      split_ifs at h <;> (cases h; exact Option.some_ne_none _)

/-- A stream with enough bytes fills the slice, however it splits them. -/
lemma readFullLoop_stream {size : ℕ} :
    ∀ (fuel : ℕ) (s : ByteStream) (got : List UInt8), size < fuel + got.length →
      got.length ≤ size → size ≤ got.length + s.bytes.length →
      ∃ s', readFullLoop size fuel s got =
          some ⟨got ++ s.bytes.take (size - got.length), none, s'⟩ ∧
        s'.bytes = s.bytes.drop (size - got.length) := by
  intro fuel
  induction fuel with
  | zero => intro s got hfuel hgot _; omega
  | succ fuel ih =>
    intro s got hfuel hgot hs
    by_cases hfull : got.length < size
    · obtain ⟨k, hk, hkle, hks, hbytes, hnext, herr⟩ :=
        s.read_spec (size - got.length) (by omega) (List.length_pos_iff.mp (by omega))
      have hlen : (got ++ s.bytes.take k).length = got.length + k := by
        simp only [List.length_append, List.length_take]
        omega
      rcases herr with herr | ⟨herr, hend⟩
      · obtain ⟨s', hloop, hs'⟩ := ih (Reader.read s (size - got.length)).next
          (got ++ s.bytes.take k)
          (by omega) (by omega) (by rw [hnext, List.length_drop]; omega)
        refine ⟨s', ?_, ?_⟩
        · simp only [readFullLoop, if_pos hfull, herr, hbytes, hloop, hnext, hlen]
          rw [List.append_assoc, ← List.take_add]
          congr 4
          omega
        · rw [hs', hnext, hlen, List.drop_drop]
          congr 1
          omega
      · -- the last bytes came with the end of the stream: the slice is full all the same
        refine ⟨(Reader.read s (size - got.length)).next, ?_, ?_⟩
        · simp only [readFullLoop, if_pos hfull, herr, hbytes, hlen]
          rw [if_pos (by omega)]
          congr 4
          omega
        · rw [hnext]
          congr 1
          omega
    · have he : size - got.length = 0 := by omega
      exact ⟨s, by simp [readFullLoop, hfull, he], by simp [he]⟩

lemma readFull_stream {fuel size : ℕ} {s : ByteStream} (hfuel : size < fuel)
    (hs : size ≤ s.bytes.length) :
    ∃ s', readFull fuel s size = some ⟨s.bytes.take size, none, s'⟩ ∧
      s'.bytes = s.bytes.drop size := by
  simpa [readFull] using readFullLoop_stream fuel s [] (by simpa using hfuel) (by simp)
    (by simpa using hs)

/-- At the end of a stream `io.ReadFull` returns `io.EOF` itself. -/
lemma readFull_eof (fuel size : ℕ) (s : ByteStream) (hfuel : 0 < fuel) (hsize : 0 < size)
    (hs : s.bytes = []) :
    ∃ s', readFull fuel s size = some ⟨[], some .eof, s'⟩ ∧ s'.bytes = [] := by
  obtain ⟨fuel, rfl⟩ := Nat.exists_eq_succ_of_ne_zero (Nat.pos_iff_ne_zero.mp hfuel)
  obtain ⟨hbytes, herr, hnext⟩ := ByteStream.read_nil hsize hs
  refine ⟨(Reader.read s size).next, ?_, hnext⟩
  simp [readFull, readFullLoop, Nat.pos_iff_ne_zero.mp hsize, hbytes, herr]

/-! ### Readers without errors -/

/-- A reader that delivers the finitely many bytes `left r` and reports no error but the end. It
may return few bytes at a time, or none, but `todo r` bounds the reads that end in no error. -/
structure ErrorFree {R : Type} [Reader R] (left : R → List UInt8) (todo : R → ℕ) : Prop where
  left_eq : ∀ (r : R) (len : ℕ), left r = (Reader.read r len).bytes ++ left (Reader.read r len).next
  err : ∀ (r : R) (len : ℕ), 0 < len →
    (Reader.read r len).err = none ∧ todo (Reader.read r len).next < todo r ∨
      (Reader.read r len).err = some .eof ∧ left (Reader.read r len).next = [] ∧
        todo (Reader.read r len).next ≤ todo r

lemma ByteStream.errorFree :
    ErrorFree ByteStream.bytes fun s : ByteStream => s.bytes.length where
  left_eq := ByteStream.follows.left_eq
  err s len hlen := by
    by_cases hs : s.bytes = []
    · obtain ⟨-, herr, hnext⟩ := read_nil hlen hs
      exact Or.inr ⟨herr, hnext, by rw [hnext]; exact Nat.zero_le _⟩
    · obtain ⟨k, hk, -, hks, -, hnext, herr⟩ := s.read_spec len hlen hs
      rw [hnext, List.length_drop]
      rcases herr with herr | ⟨herr, hend⟩
      · exact Or.inl ⟨herr, by omega⟩
      · exact Or.inr ⟨herr, List.drop_eq_nil_iff.mpr (Nat.le_of_eq hend), by omega⟩

/-- The error of `io.ReadFull` on a stream of these bytes. -/
def fullErr (size : ℕ) (bytes : List UInt8) : Option ReadErr :=
  if size ≤ bytes.length then none
  else if bytes = [] then some .eof
  else some .unexpectedEOF

/-- The three outcomes of `io.ReadFull`. -/
lemma fullErr_cases {size : ℕ} (hsize : 0 < size) (bytes : List UInt8) :
    bytes = [] ∧ fullErr size bytes = some .eof ∨
      bytes ≠ [] ∧ bytes.length < size ∧ fullErr size bytes = some .unexpectedEOF ∨
      bytes ≠ [] ∧ size ≤ bytes.length ∧ fullErr size bytes = none := by
  by_cases hle : size ≤ bytes.length
  · refine Or.inr (Or.inr ⟨?_, hle, if_pos hle⟩)
    rintro rfl
    exact absurd hle (Nat.not_le_of_lt hsize)
  · by_cases hnil : bytes = []
    · exact Or.inl ⟨hnil, by rw [fullErr, if_neg hle, if_pos hnil]⟩
    · exact Or.inr (Or.inl ⟨hnil, Nat.lt_of_not_le hle, by rw [fullErr, if_neg hle, if_neg hnil]⟩)

lemma ErrorFree.readFullLoop {R : Type} [Reader R] {left : R → List UInt8} {todo : R → ℕ}
    (h : ErrorFree left todo) {size : ℕ} :
    ∀ (fuel : ℕ) (r : R) (got : List UInt8), todo r < fuel → got.length ≤ size →
      ∃ next, readFullLoop size fuel r got =
          some ⟨(got ++ left r).take size, fullErr size (got ++ left r), next⟩ ∧
        left next = (got ++ left r).drop size ∧ todo next ≤ todo r := by
  intro fuel
  induction fuel with
  | zero => intro r got hfuel; omega
  | succ fuel ih =>
    intro r got hfuel hgot
    by_cases hfull : got.length < size
    · have hle := Reader.length_le r (size - got.length)
      have hleft := h.left_eq r (size - got.length)
      have herr := h.err r (size - got.length) (by omega)
      simp only [Awl.readFullLoop, if_pos hfull]
      generalize Reader.read r (size - got.length) = res at hle hleft herr ⊢
      have hlen : (got ++ res.bytes).length = got.length + res.bytes.length := List.length_append
      rcases herr with ⟨herr, htodo⟩ | ⟨herr, hend, htodo⟩
      · obtain ⟨next, hloop, hnext, hle'⟩ :=
          ih res.next (got ++ res.bytes) (by omega) (by omega)
        rw [List.append_assoc, ← hleft] at hloop hnext
        rw [herr]
        exact ⟨next, hloop, hnext, by omega⟩
      · -- the stream has ended, so that these were its last bytes
        rw [hend, List.append_nil] at hleft
        rw [herr, hleft, List.take_of_length_le (by omega), List.drop_eq_nil_of_le (by omega),
          fullErr]
        refine ⟨res.next, ?_, hend, htodo⟩
        by_cases hsize : size ≤ (got ++ res.bytes).length
        · simp only [if_pos hsize]
        · simp only [if_neg hsize]
          by_cases hnil : got ++ res.bytes = []
          · rw [if_neg fun he => he.1 hnil, if_pos hnil]
          · rw [if_pos ⟨hnil, trivial⟩, if_neg hnil]
    · have hsize : got.length = size := by omega
      refine ⟨r, ?_, ?_, Nat.le_refl _⟩
      · simp only [Awl.readFullLoop, if_neg hfull, fullErr, List.length_append]
        rw [if_pos (by omega), ← hsize, List.take_left]
      · rw [← hsize, List.drop_left]

/-- **`io.ReadFull` on a reader without errors.** -/
lemma ErrorFree.readFull {R : Type} [Reader R] {left : R → List UInt8} {todo : R → ℕ}
    (h : ErrorFree left todo) {fuel : ℕ} {r : R} (hfuel : todo r < fuel) (size : ℕ) :
    ∃ next, readFull fuel r size = some ⟨(left r).take size, fullErr size (left r), next⟩ ∧
      left next = (left r).drop size ∧ todo next ≤ todo r :=
  h.readFullLoop fuel r [] hfuel (Nat.zero_le size)

/-! ### Big-endian integers -/

/-- `binary.BigEndian.Uint64`. -/
def uint64 (bs : List UInt8) : ℕ := (bs.take 8).foldl (fun v b => v * 256 + b.toNat) 0

/-- `binary.BigEndian.PutUint64` into eight bytes. -/
def putUint64 (v : ℕ) : List UInt8 :=
  (List.range 8).map fun i => UInt8.ofNat (v / 256 ^ (7 - i))

lemma uint64_take (bs : List UInt8) : uint64 (bs.take 8) = uint64 bs := by
  rw [uint64, uint64, List.take_take, Nat.min_self]

lemma uint64_lt (bs : List UInt8) : uint64 bs < 2 ^ 64 := by
  have hfold : ∀ (l : List UInt8) (v : ℕ),
      l.foldl (fun v b => v * 256 + b.toNat) v < (v + 1) * 256 ^ l.length := by
    intro l
    induction l with
    | nil => intro v; simp
    | cons b l ih =>
      intro v
      have hb := b.toNat_lt
      calc (b :: l).foldl (fun v b => v * 256 + b.toNat) v
          < (v * 256 + b.toNat + 1) * 256 ^ l.length := ih _
        _ ≤ (v + 1) * 256 * 256 ^ l.length := Nat.mul_le_mul_right _ (by omega)
        _ = (v + 1) * 256 ^ (b :: l).length := by
          rw [List.length_cons, Nat.pow_succ, Nat.mul_comm (256 ^ _), Nat.mul_assoc]
  calc uint64 bs < (0 + 1) * 256 ^ (bs.take 8).length := hfold _ 0
    _ ≤ 256 ^ 8 := by
      rw [Nat.zero_add, Nat.one_mul]
      exact Nat.pow_le_pow_right (by omega) (List.length_take_le 8 bs)
    _ = 2 ^ 64 := rfl

@[simp] lemma putUint64_length (v : ℕ) : (putUint64 v).length = 8 := by simp [putUint64]

/-- Reading the last `n` bytes of a number gives it back modulo `256 ^ n`. -/
lemma foldl_bytes (n v : ℕ) :
    ((List.range n).map fun i => UInt8.ofNat (v / 256 ^ (n - 1 - i))).foldl
      (fun v b => v * 256 + b.toNat) 0 = v % 256 ^ n := by
  induction n generalizing v with
  | zero => simp [Nat.mod_one]
  | succ n ih =>
    -- all bytes but the last are those of `v / 256`
    have hinit : ((List.range n).map fun i => UInt8.ofNat (v / 256 ^ (n + 1 - 1 - i))) =
        (List.range n).map fun i => UInt8.ofNat (v / 256 / 256 ^ (n - 1 - i)) := by
      refine List.map_congr_left fun i hi => ?_
      have hexp : n + 1 - 1 - i = n - 1 - i + 1 := by
        have := List.mem_range.1 hi
        omega
      rw [hexp, Nat.pow_succ', Nat.div_div_eq_div_mul]
    rw [List.range_succ, List.map_append, List.foldl_append, hinit, ih, Nat.pow_succ', Nat.mod_mul]
    simp only [List.map_cons, List.map_nil, List.foldl_cons, List.foldl_nil, Nat.add_sub_cancel,
      Nat.sub_self, Nat.pow_zero, Nat.div_one, UInt8.toNat_ofNat']
    omega

lemma uint64_putUint64 {v : ℕ} (h : v < 2 ^ 64) : uint64 (putUint64 v) = v := by
  rw [uint64, List.take_of_length_le (Nat.le_of_eq (putUint64_length v)), putUint64]
  exact (foldl_bytes 8 v).trans (Nat.mod_eq_of_lt h)

lemma putUint64_uint64 {bs : List UInt8} (h : 8 ≤ bs.length) :
    putUint64 (uint64 bs) = bs.take 8 := by
  rcases bs with _ | ⟨b₀, _ | ⟨b₁, _ | ⟨b₂, _ | ⟨b₃, _ | ⟨b₄, _ | ⟨b₅, _ | ⟨b₆, _ | ⟨b₇, bs⟩⟩⟩⟩⟩⟩⟩⟩
  case cons.cons.cons.cons.cons.cons.cons.cons =>
    have h₀ := b₀.toNat_lt
    have h₁ := b₁.toNat_lt
    have h₂ := b₂.toNat_lt
    have h₃ := b₃.toNat_lt
    have h₄ := b₄.toNat_lt
    have h₅ := b₅.toNat_lt
    have h₆ := b₆.toNat_lt
    have h₇ := b₇.toNat_lt
    simp only [uint64, putUint64, List.range, List.range.loop, List.map_cons, List.map_nil,
      List.take_succ_cons, List.take_zero, List.foldl_cons, List.foldl_nil, List.cons.injEq,
      and_true, ← UInt8.toNat_inj, UInt8.toNat_ofNat']
    omega
  all_goals simp at h

/-- The conversion `int64(v)` of an unsigned integer. -/
def int64 (v : ℕ) : ℤ := (BitVec.ofNat 64 v).toInt

lemma int64_of_lt {v : ℕ} (h : v < 2 ^ 63) : int64 v = v := by
  rw [int64, BitVec.toInt_eq_toNat_of_lt]
  · rw [BitVec.toNat_ofNat]
    congr 1
    omega
  · rw [BitVec.toNat_ofNat]
    omega

lemma int64_neg {v : ℕ} (h : 2 ^ 63 ≤ v) (hv : v < 2 ^ 64) : int64 v < 0 := by
  rw [int64, BitVec.toInt_eq_toNat_cond, BitVec.toNat_ofNat, Nat.mod_eq_of_lt hv,
    if_neg (by omega)]
  omega

end Awl
