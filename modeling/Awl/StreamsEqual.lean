import Awl.Reader

/-!
The comparison of an embedded file with the one on disk. Both streams are read in chunks, and each
`io.ReadFull` of a round has three outcomes: a full chunk, the last bytes with
`io.ErrUnexpectedEOF`, or `io.EOF`.

A stream that ends at the end of a chunk says so only in the next round. If the other one then has
bytes left, but not for a whole chunk, the two outcomes are taken for a failure.
-/

namespace Awl

def chunkSize : ℕ := 4096

/-- The errors of the two sources, from which the text of the error is made. -/
structure CompareErr where
  err1 : Option ReadErr
  err2 : Option ReadErr
  deriving DecidableEq

section

variable {R₁ R₂ : Type} [Reader R₁] [Reader R₂]

/-- `streamsEqual`, which may go through so many rounds, with so many reads in each
`io.ReadFull`. -/
def streamsEqual (reads : ℕ) : ℕ → R₁ → R₂ → Option (Bool × Option CompareErr)
  | 0, _, _ => none
  | rounds + 1, s1, s2 =>
    match readFull reads s1 chunkSize, readFull reads s2 chunkSize with
    | some ⟨buf1, err1, s1⟩, some ⟨buf2, err2, s2⟩ =>
      if (err1 ≠ none ∧ err1 ≠ some .unexpectedEOF) ∨
          (err2 ≠ none ∧ err2 ≠ some .unexpectedEOF) then
        if (err1 = some .eof ∨ err1 = none) ∧ (err2 = some .eof ∨ err2 = none) then
          some (err1 = some .eof ∧ err2 = some .eof, none)
        else some (false, some ⟨err1, err2⟩)
      else if buf1 ≠ buf2 then some (false, none)
      else streamsEqual reads rounds s1 s2
    | _, _ => none

end

/-- The first stream ends with a chunk, and the second goes on for less than another one. -/
structure EndsBefore (x y : List UInt8) : Prop where
  whole : chunkSize ∣ x.length
  starts : x <+: y
  lt : x.length < y.length
  short : y.length < x.length + chunkSize

instance (x y : List UInt8) : Decidable (EndsBefore x y) :=
  decidable_of_iff
    (chunkSize ∣ x.length ∧ x <+: y ∧ x.length < y.length ∧ y.length < x.length + chunkSize)
    ⟨fun ⟨h1, h2, h3, h4⟩ => ⟨h1, h2, h3, h4⟩, fun ⟨h1, h2, h3, h4⟩ => ⟨h1, h2, h3, h4⟩⟩

/-- The outcome, from the bytes of the streams. -/
def compared (x y : List UInt8) : Bool × Option CompareErr :=
  if EndsBefore x y then (false, some ⟨some .eof, some .unexpectedEOF⟩)
  else if EndsBefore y x then (false, some ⟨some .unexpectedEOF, some .eof⟩)
  else (decide (x = y), none)

lemma chunkSize_pos : 0 < chunkSize := by decide

namespace EndsBefore

variable {x y : List UInt8}

lemma irrefl (x : List UInt8) : ¬ EndsBefore x x := fun h => Nat.lt_irrefl _ h.lt

lemma ne (h : EndsBefore x y) : x ≠ y := fun he => irrefl y (he ▸ h)

lemma not_symm (h : EndsBefore x y) : ¬ EndsBefore y x := fun h' => Nat.lt_asymm h.lt h'.lt

lemma nil_iff : EndsBefore [] y ↔ y ≠ [] ∧ y.length < chunkSize := by
  constructor
  · intro h
    have hshort := h.short
    rw [List.length_nil, Nat.zero_add] at hshort
    exact ⟨h.ne.symm, hshort⟩
  · rintro ⟨hne, hlt⟩
    refine ⟨Nat.dvd_zero _, List.nil_prefix, List.length_pos_iff.mpr hne, ?_⟩
    rw [List.length_nil, Nat.zero_add]
    exact hlt

lemma not_nil : ¬ EndsBefore x [] := fun h => Nat.not_lt_zero _ h.lt

/-- Unless it is empty, the stream that ends first has a whole chunk of the other one. -/
lemma take_eq (h : EndsBefore x y) (hx : x ≠ []) : x.take chunkSize = y.take chunkSize := by
  have hle := Nat.le_of_dvd (List.length_pos_iff.mpr hx) h.whole
  obtain ⟨z, rfl⟩ := h.starts
  rw [List.take_append_of_le_length hle]

/-- A chunk that both have in common does not matter. -/
lemma append_iff {c : List UInt8} (hc : c.length = chunkSize) :
    EndsBefore (c ++ x) (c ++ y) ↔ EndsBefore x y := by
  constructor
  · rintro ⟨hwhole, hstarts, hlt, hshort⟩
    simp only [List.length_append, hc] at hwhole hlt hshort
    exact ⟨(Nat.dvd_add_right (Nat.dvd_refl _)).mp hwhole,
      (List.prefix_append_right_inj c).mp hstarts, by omega, by omega⟩
  · rintro ⟨hwhole, hstarts, hlt, hshort⟩
    refine ⟨?_, (List.prefix_append_right_inj c).mpr hstarts, ?_, ?_⟩
    all_goals simp only [List.length_append, hc]
    · exact (Nat.dvd_add_right (Nat.dvd_refl _)).mpr hwhole
    · omega
    · omega

end EndsBefore

/-- The outcome does not depend on a chunk that both streams have in common. -/
lemma compared_drop {x y : List UInt8} (h : x.take chunkSize = y.take chunkSize) :
    compared (x.drop chunkSize) (y.drop chunkSize) = compared x y := by
  have hlen := congrArg List.length h
  simp only [List.length_take] at hlen
  by_cases hx : chunkSize ≤ x.length
  · have hc : (x.take chunkSize).length = chunkSize := List.length_take_of_le hx
    have hx' := List.take_append_drop chunkSize x
    have hy' := List.take_append_drop chunkSize y
    rw [← h] at hy'
    have heq : x.drop chunkSize = y.drop chunkSize ↔ x = y := by
      rw [← List.append_right_inj (x.take chunkSize), hx', hy']
    have h1 := EndsBefore.append_iff (x := x.drop chunkSize) (y := y.drop chunkSize) hc
    have h2 := EndsBefore.append_iff (x := y.drop chunkSize) (y := x.drop chunkSize) hc
    rw [hx', hy'] at h1 h2
    simp only [compared, h1, h2, heq]
  · -- neither has a whole chunk
    rw [List.take_of_length_le (by omega), List.take_of_length_le (by omega)] at h
    subst h
    rw [List.drop_eq_nil_of_le (by omega)]
    simp [compared, EndsBefore.irrefl]

/-- Chunks that differ decide. -/
lemma compared_of_take_ne {x y : List UInt8} (hx : x ≠ []) (hy : y ≠ [])
    (h : x.take chunkSize ≠ y.take chunkSize) : compared x y = (false, none) := by
  have hne : x ≠ y := fun he => h (by rw [he])
  have hxy : ¬ EndsBefore x y := fun hb => h (hb.take_eq hx)
  have hyx : ¬ EndsBefore y x := fun hb => h (hb.take_eq hy).symm
  rw [compared, if_neg hxy, if_neg hyx, decide_eq_false hne]

/-- A stream that has bytes is not at its end. -/
lemma not_ended {z : List UInt8} (hz : z ≠ []) :
    ¬ (fullErr chunkSize z ≠ none ∧ fullErr chunkSize z ≠ some .unexpectedEOF) := by
  rintro ⟨hnone, hshort⟩
  rcases fullErr_cases chunkSize_pos z with ⟨hnil, -⟩ | ⟨-, -, herr⟩ | ⟨-, -, herr⟩
  · exact hz hnil
  · exact hshort herr
  · exact hnone herr

section

variable {R₁ R₂ : Type} [Reader R₁] [Reader R₂] {left₁ : R₁ → List UInt8} {todo₁ : R₁ → ℕ}
  {left₂ : R₂ → List UInt8} {todo₂ : R₂ → ℕ}

/-- **What `streamsEqual` returns.** -/
lemma streamsEqual_eq (h₁ : ErrorFree left₁ todo₁) (h₂ : ErrorFree left₂ todo₂) {reads : ℕ} :
    ∀ (rounds : ℕ) (r₁ : R₁) (r₂ : R₂), (left₁ r₁).length < rounds → todo₁ r₁ < reads →
      todo₂ r₂ < reads →
      streamsEqual reads rounds r₁ r₂ = some (compared (left₁ r₁) (left₂ r₂)) := by
  intro rounds
  induction rounds with
  | zero => intro r₁ r₂ hrounds; omega
  | succ rounds ih =>
    intro r₁ r₂ hrounds htodo₁ htodo₂
    obtain ⟨next₁, hread₁, hleft₁, hle₁⟩ := h₁.readFull htodo₁ chunkSize
    obtain ⟨next₂, hread₂, hleft₂, hle₂⟩ := h₂.readFull htodo₂ chunkSize
    have hrest := ih next₁ next₂
    rw [hleft₁, hleft₂, List.length_drop] at hrest
    simp only [streamsEqual, hread₁, hread₂]
    have hpos := chunkSize_pos
    generalize left₁ r₁ = x at *
    generalize left₂ r₂ = y at *
    by_cases hx : x = []
    · -- the first stream has ended
      subst hx
      have hx : fullErr chunkSize [] = some .eof := rfl
      rcases fullErr_cases hpos y with ⟨rfl, -⟩ | ⟨hne, hlt, hy⟩ | ⟨hne, hle, hy⟩
      · simp [hx, compared, EndsBefore.irrefl]
      · simp [hx, hy, compared, EndsBefore.nil_iff, hne, hlt]
      · simp [hx, hy, compared, EndsBefore.nil_iff, EndsBefore.not_nil, hle, hne.symm]
    by_cases hy : y = []
    · -- the second stream has ended
      subst hy
      have hy : fullErr chunkSize [] = some .eof := rfl
      rcases fullErr_cases hpos x with ⟨hnil, -⟩ | ⟨-, hlt, herr⟩ | ⟨-, hle, herr⟩
      · exact absurd hnil hx
      · simp [herr, hy, compared, EndsBefore.nil_iff, EndsBefore.not_nil, hx, hlt]
      · simp [herr, hy, compared, EndsBefore.nil_iff, EndsBefore.not_nil, hx, hle]
    -- both have bytes, and the chunks are compared
    rw [if_neg (not_or.mpr ⟨not_ended hx, not_ended hy⟩)]
    by_cases htake : x.take chunkSize = y.take chunkSize
    · have hxpos := List.length_pos_iff.mpr hx
      rw [if_neg (not_not.mpr htake), hrest (by omega) (by omega) (by omega), compared_drop htake]
    · rw [if_pos htake, compared_of_take_ne hx hy htake]

/-- **`streamsEqual` decides equality**, for streams in any chunking, exactly if neither of them
ends with a chunk while the other goes on for less than another one. -/
theorem streamsEqual_decides_iff (h₁ : ErrorFree left₁ todo₁) (h₂ : ErrorFree left₂ todo₂)
    (r₁ : R₁) (r₂ : R₂) :
    (∃ n, ∀ reads ≥ n, ∀ rounds ≥ n,
        streamsEqual reads rounds r₁ r₂ = some (decide (left₁ r₁ = left₂ r₂), none)) ↔
      ¬ EndsBefore (left₁ r₁) (left₂ r₂) ∧ ¬ EndsBefore (left₂ r₂) (left₁ r₁) := by
  have hret : ∀ n, (left₁ r₁).length + todo₁ r₁ + todo₂ r₂ < n →
      streamsEqual n n r₁ r₂ = some (compared (left₁ r₁) (left₂ r₂)) := fun n hn =>
    streamsEqual_eq h₁ h₂ n r₁ r₂ (by omega) (by omega) (by omega)
  constructor
  · rintro ⟨n, hn⟩
    set m := n + (left₁ r₁).length + todo₁ r₁ + todo₂ r₂ + 1
    have hres := (hn m (by omega) m (by omega)).symm.trans (hret m (by omega))
    have herr : (compared (left₁ r₁) (left₂ r₂)).2 = none := by
      rw [← Option.some.inj hres]
    refine ⟨fun hb => ?_, fun hb => ?_⟩
    · rw [compared, if_pos hb] at herr
      cases herr
    · rw [compared, if_neg hb.not_symm, if_pos hb] at herr
      cases herr
  · rintro ⟨hxy, hyx⟩
    refine ⟨(left₁ r₁).length + todo₁ r₁ + todo₂ r₂ + 1, fun reads hreads rounds hrounds => ?_⟩
    rw [streamsEqual_eq h₁ h₂ rounds r₁ r₂ (by omega) (by omega) (by omega), compared, if_neg hxy,
      if_neg hyx]

end

/-- `bytes.NewReader`. -/
def bytesReader (data : List UInt8) : ByteStream := ⟨data, fun _ => (data.length, false), 0⟩

/-- The second of two streams has one byte, the first has none. -/
theorem oneByte_fails :
    (bytesReader []).bytes ≠ (bytesReader [65]).bytes ∧ ∀ reads ≥ 2, ∀ rounds ≥ 1,
      streamsEqual reads rounds (bytesReader []) (bytesReader [65]) =
        some (false, some ⟨some .eof, some .unexpectedEOF⟩) := by
  refine ⟨by decide, fun reads hreads rounds hrounds => ?_⟩
  have htodo : (bytesReader []).bytes.length < reads := Nat.lt_of_lt_of_le (by decide) hreads
  rw [streamsEqual_eq ByteStream.errorFree ByteStream.errorFree rounds (bytesReader [])
    (bytesReader [65]) hrounds htodo hreads]
  exact congrArg some (if_pos (by decide))

/-- The second stream comes byte by byte, and its end with the last one. -/
theorem sameBytes_equal : ∃ n, ∀ reads ≥ n, ∀ rounds ≥ n,
    streamsEqual reads rounds (bytesReader [65, 66])
      ({ bytes := [65, 66], plan := fun _ => (1, true), calls := 0 } : ByteStream) =
      some (true, none) :=
  (streamsEqual_decides_iff ByteStream.errorFree ByteStream.errorFree _ _).2
    ⟨EndsBefore.irrefl _, EndsBefore.irrefl _⟩

/-! ### The file on disk -/

/-- What `os.Stat` finds. -/
inductive FileStat
  | notExist
  | failed
  | size (n : ℕ)

inductive FileCheck
  | outOfFuel
  | panics
  | returns (equal : Bool)
  deriving DecidableEq

/-- `checkIsFileEqual`; `file` is what `os.Open` returns. -/
def checkIsFileEqual {R : Type} [Reader R] (reads rounds : ℕ) (stat : FileStat) (file : Option R)
    (data : List UInt8) : FileCheck :=
  match stat with
  | .notExist => .returns false
  -- the size is asked of a `nil`
  | .failed => .panics
  | .size n =>
    if n ≠ data.length then .returns false
    else
      match file with
      | none => .returns false
      | some file =>
        match streamsEqual reads rounds (bytesReader data) file with
        | none => .outOfFuel
        | some (equal, _) => .returns equal

/-- **The check of a file is right**, since it compares the sizes first: of two streams of one
length, neither goes on when the other has ended. -/
theorem checkIsFileEqual_eq {R : Type} [Reader R] {left : R → List UInt8} {todo : R → ℕ}
    (h : ErrorFree left todo) (file : R) (data : List UInt8) {reads rounds : ℕ}
    (hdata : data.length < reads) (htodo : todo file < reads) (hrounds : data.length < rounds) :
    checkIsFileEqual reads rounds (.size (left file).length) (some file) data =
      .returns (left file = data) := by
  by_cases hlen : (left file).length = data.length
  · have hdata' : ¬ EndsBefore data (left file) := fun hb => by have := hb.lt; omega
    have hfile : ¬ EndsBefore (left file) data := fun hb => by have := hb.lt; omega
    have heq := streamsEqual_eq ByteStream.errorFree h rounds (bytesReader data) file hrounds hdata
      htodo
    have hres : compared data (left file) = (decide (data = left file), none) := by
      rw [compared, if_neg hdata', if_neg hfile]
    simp only [checkIsFileEqual, hlen, ne_eq, not_true_eq_false, if_false, heq]
    rw [show compared (bytesReader data).bytes (left file) = _ from hres]
    simp only [eq_comm]
  · have hne : left file ≠ data := fun he => hlen (by rw [he])
    simp [checkIsFileEqual, hlen, hne]

end Awl
