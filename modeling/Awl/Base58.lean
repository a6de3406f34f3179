import Mathlib.Data.Nat.Digits.Lemmas
import Mathlib.Data.List.Basic

/-!
Base58: the bytes are read as one big-endian number, which is written with 58 digits; zero bytes
at the front are written as the digit `1` each.
-/

namespace Awl

namespace Base58

def alphabet : List Char :=
  "123456789ABCDEFGHJKLMNPQRSTUVWXYZabcdefghijkmnopqrstuvwxyz".toList

def digitChar (d : ℕ) : Char := alphabet.getD d '1'

def digitVal (c : Char) : Option ℕ := alphabet.idxOf? c

/-- The number that the bytes stand for. -/
def value (bytes : List UInt8) : ℕ := Nat.ofDigits 256 (bytes.reverse.map UInt8.toNat)

def encode (bytes : List UInt8) : String :=
  String.ofList (List.replicate (bytes.takeWhile (· == 0)).length '1' ++
    (Nat.digits 58 (value bytes)).reverse.map digitChar)

/-- An empty text and one with other characters are refused. -/
def decode (s : String) : Option (List UInt8) :=
  if s = "" then none
  else do
    let ds ← s.toList.mapM digitVal
    return List.replicate (ds.takeWhile (· == 0)).length 0 ++
      (Nat.digits 256 (Nat.ofDigits 58 ds.reverse)).reverse.map UInt8.ofNat

lemma digitVal_digitChar {d : ℕ} (h : d < 58) : digitVal (digitChar d) = some d := by
  revert d
  decide +kernel

lemma mapM_digitVal {ds : List ℕ} (h : ∀ d ∈ ds, d < 58) :
    (ds.map digitChar).mapM digitVal = some ds := by
  induction ds with
  | nil => rfl
  | cons d ds ih =>
    rw [List.forall_mem_cons] at h
    simp [digitVal_digitChar h.1, ih h.2]

/-- Bytes with zeros at the front and something else behind them. -/
lemma exists_zeros (bytes : List UInt8) :
    ∃ rest, bytes = List.replicate (bytes.takeWhile (· == 0)).length 0 ++ rest ∧
      ∀ h : rest ≠ [], rest.head h ≠ 0 := by
  refine ⟨bytes.dropWhile (· == 0), ?_, fun h => ?_⟩
  · have hzeros : bytes.takeWhile (· == 0) =
        List.replicate (bytes.takeWhile (· == 0)).length 0 :=
      List.eq_replicate_of_mem fun b hb =>
        beq_iff_eq.mp (List.all_eq_true.mp List.all_takeWhile b hb)
    rw [← hzeros, List.takeWhile_append_dropWhile]
  · simpa using List.head_dropWhile_not (· == 0) h

lemma value_replicate (z : ℕ) (rest : List UInt8) :
    value (List.replicate z 0 ++ rest) = value rest := by
  simp [value, Nat.ofDigits_append_replicate_zero]

lemma digits_value {rest : List UInt8} (h : ∀ hne : rest ≠ [], rest.head hne ≠ 0) :
    (Nat.digits 256 (value rest)).reverse.map UInt8.ofNat = rest := by
  have hdigits : Nat.digits 256 (value rest) = rest.reverse.map UInt8.toNat := by
    refine Nat.digits_ofDigits 256 (by decide) _ ?_ ?_
    · simp only [List.mem_map]
      rintro _ ⟨b, -, rfl⟩
      exact b.toNat_lt
    · intro hne
      have hrest : rest ≠ [] := by
        rintro rfl
        exact hne rfl
      rw [List.getLast_map, List.getLast_reverse]
      exact fun h0 => h hrest (UInt8.toNat_inj.mp h0)
  rw [hdigits, ← List.map_reverse, List.reverse_reverse, List.map_map]
  simp [Function.comp_def]

/-- Digits with zeros at the front, and none behind them that begins with one. -/
lemma takeWhile_zeros {z : ℕ} {ds : List ℕ} (h : ∀ hne : ds ≠ [], ds.getLast hne ≠ 0) :
    ((List.replicate z 0 ++ ds.reverse).takeWhile (· == 0)).length = z := by
  rw [List.takeWhile_append_of_pos (by simp)]
  have hnone : ds.reverse.takeWhile (· == 0) = [] := by
    rcases hds : ds.reverse with _ | ⟨d, l⟩
    · rfl
    · have hne : ds ≠ [] := by
        rintro rfl
        cases hds
      have hlast : ds.getLast hne = d := by
        rw [← List.head_reverse (by simpa using hne)]
        simp [hds]
      simp [← hlast, h hne]
  rw [hnone, List.append_nil, List.length_replicate]

/-- **Round trip.** -/
theorem decode_encode {bytes : List UInt8} (hne : bytes ≠ []) :
    decode (encode bytes) = some bytes := by
  obtain ⟨rest, hbytes, hrest⟩ := exists_zeros bytes
  set z := (bytes.takeWhile (· == 0)).length
  have hvalue : value bytes = value rest := by rw [hbytes, value_replicate]
  set ds := Nat.digits 58 (value rest) with hds
  have hlt : ∀ d ∈ List.replicate z 0 ++ ds.reverse, d < 58 := by
    intro d hd
    rcases List.mem_append.mp hd with hd | hd
    · rw [List.eq_of_mem_replicate hd]
      decide
    · exact Nat.digits_lt_base (by decide) (List.mem_reverse.mp hd)
  have hlast : ∀ hne : ds ≠ [], ds.getLast hne ≠ 0 := fun hne =>
    Nat.getLast_digit_ne_zero 58 fun h0 => hne (by rw [hds, h0, Nat.digits_zero])
  have htext : (encode bytes).toList = (List.replicate z 0 ++ ds.reverse).map digitChar := by
    rw [encode, String.toList_ofList, hvalue, List.map_append, List.map_replicate]
    rfl
  have hnot : encode bytes ≠ "" := by
    intro h
    rw [h] at htext
    have hnil := List.map_eq_nil_iff.mp htext.symm
    rw [List.append_eq_nil_iff, List.reverse_eq_nil_iff] at hnil
    have hzero : value rest = 0 := Nat.digits_eq_nil_iff_eq_zero.mp hnil.2
    have hnone : rest = [] := by
      rw [← digits_value hrest, hzero]
      simp
    have hz : z = 0 := (List.replicate_eq_nil_iff _).mp hnil.1
    exact hne (by rw [hbytes, hz, hnone]; rfl)
  rw [decode, if_neg hnot, htext, mapM_digitVal hlt]
  simp only [Option.bind_eq_bind, Option.bind_some, Option.pure_def, takeWhile_zeros hlast,
    List.reverse_append, List.reverse_reverse, List.reverse_replicate]
  rw [Nat.ofDigits_append_replicate_zero, hds, Nat.ofDigits_digits, digits_value hrest, ← hbytes]

example : encode "Hello World!".toUTF8.data.toList = "2NEpo7TZRRrLZSi2U" := by decide +kernel

end Base58

end Awl
