import Mathlib.Data.List.Basic
import Mathlib.Tactic.Common

/-!
UTF-8 in byte lists, as `unicode/utf8` and `bytes` read it: a byte that no rune starts with stands
for itself, and decoding goes on with the next one.

An ASCII byte is never a part of a longer rune. So a text can be decoded on both sides of one by
itself, whatever the rest is like.
-/

namespace Awl

namespace Utf8

/-- For the first byte of a longer rune: how many bytes follow, and the range of the next one. -/
def lead (b : UInt8) : Option (ℕ × UInt8 × UInt8) :=
  if b < 0xc2 then none
  else if b < 0xe0 then some (1, 0x80, 0xbf)
  else if b = 0xe0 then some (2, 0xa0, 0xbf)
  else if b = 0xed then some (2, 0x80, 0x9f)
  else if b < 0xf0 then some (2, 0x80, 0xbf)
  else if b = 0xf0 then some (3, 0x90, 0xbf)
  else if b < 0xf4 then some (3, 0x80, 0xbf)
  else if b = 0xf4 then some (3, 0x80, 0x8f)
  else none

/-- `n` bytes follow, the first of them from `lo` to `hi`. -/
def tails (lo hi : UInt8) : ℕ → List UInt8 → Bool
  | 0, _ => true
  | _ + 1, [] => false
  | n + 1, b :: l => lo ≤ b && b ≤ hi && tails 0x80 0xbf n l

/-- The width of the rune at the beginning, as in `utf8.DecodeRune`; `none` where that is an
error. -/
def runeLen : List UInt8 → Option ℕ
  | [] => none
  | b :: l =>
    if b < 0x80 then some 1
    else
      match lead b with
      | none => none
      | some (n, lo, hi) => if tails lo hi n l then some (n + 1) else none

/-- The bytes that remain, when the next `n` belong to the rune before. -/
def toValidFrom : ℕ → List UInt8 → List UInt8
  | _, [] => []
  | n + 1, b :: l => b :: toValidFrom n l
  | 0, b :: l =>
    match runeLen (b :: l) with
    | none => toValidFrom 0 l
    | some w => b :: toValidFrom (w - 1) l

/-- `bytes.ToValidUTF8`, with nothing as the replacement. -/
def toValid (l : List UInt8) : List UInt8 := toValidFrom 0 l

def validFrom : ℕ → List UInt8 → Bool
  | _, [] => true
  | n + 1, _ :: l => validFrom n l
  | 0, b :: l =>
    match runeLen (b :: l) with
    | none => false
    | some w => validFrom (w - 1) l

/-- `utf8.Valid`. -/
def valid (l : List UInt8) : Bool := validFrom 0 l

lemma lead_lo {b : UInt8} {n : ℕ} {lo hi : UInt8} (h : lead b = some (n, lo, hi)) : 0x80 ≤ lo := by
  unfold lead at h
  split_ifs at h <;> cases h <;> decide

lemma tails_length {n : ℕ} : ∀ {lo hi : UInt8} {l : List UInt8}, tails lo hi n l = true →
    n ≤ l.length := by
  induction n with
  | zero => exact fun _ => Nat.zero_le _
  | succ n ih =>
    intro lo hi l h
    cases l with
    | nil => cases h
    | cons b l =>
      unfold tails at h
      rw [Bool.and_eq_true] at h
      exact Nat.succ_le_succ (ih h.2)

lemma runeLen_le {l : List UInt8} {w : ℕ} (h : runeLen l = some w) : w ≤ l.length := by
  cases l with
  | nil => cases h
  | cons b l =>
    simp only [runeLen] at h
    split_ifs at h
    · cases h
      exact Nat.succ_le_succ (Nat.zero_le _)
    · split at h
      · cases h
      · split_ifs at h with ht
        cases h
        exact Nat.succ_le_succ (tails_length ht)

/-! ### ASCII bytes -/

variable {c : UInt8} (hc : c < 0x80)

include hc

lemma tails_append_ascii {n : ℕ} (l' : List UInt8) : ∀ {lo hi : UInt8}, 0x80 ≤ lo →
    ∀ l : List UInt8, tails lo hi n (l ++ c :: l') = tails lo hi n l := by
  induction n with
  | zero => exact fun _ _ => rfl
  | succ n ih =>
    intro lo hi hlo l
    cases l with
    | nil =>
      have hlt : ¬ lo ≤ c := fun hle => absurd (UInt8.lt_of_lt_of_le hc hlo) (UInt8.not_lt.mpr hle)
      simp [tails, hlt]
    | cons b l => simp only [List.cons_append, tails, ih (UInt8.le_refl _) l]

lemma runeLen_append_ascii {l : List UInt8} (h : l ≠ []) (l' : List UInt8) :
    runeLen (l ++ c :: l') = runeLen l := by
  obtain ⟨b, l, rfl⟩ := List.exists_cons_of_ne_nil h
  simp only [List.cons_append, runeLen]
  split_ifs
  · rfl
  · split
    · rfl
    · next n lo hi hlead => rw [tails_append_ascii hc l' (lead_lo hlead)]

lemma toValidFrom_append_ascii (l' : List UInt8) (l : List UInt8) : ∀ {n : ℕ}, n ≤ l.length →
    toValidFrom n (l ++ c :: l') = toValidFrom n l ++ c :: toValid l' := by
  induction l with
  | nil =>
    intro n hn
    obtain rfl : n = 0 := Nat.le_zero.mp hn
    simp [toValidFrom, runeLen, hc, toValid]
  | cons b l ih =>
    intro n hn
    cases n with
    | succ n =>
      simp only [List.cons_append, toValidFrom]
      rw [ih (Nat.le_of_succ_le_succ hn)]
    | zero =>
      have hlen := runeLen_append_ascii hc (List.cons_ne_nil b l) l'
      simp only [List.cons_append] at hlen ⊢
      simp only [toValidFrom, hlen]
      rcases hw : runeLen (b :: l) with _ | w
      · exact ih (Nat.zero_le _)
      · have hle : w - 1 ≤ l.length := Nat.sub_le_of_le_add (runeLen_le hw)
        simp only [ih hle, List.cons_append]

/-- **Both sides of an ASCII byte** are decoded by themselves. -/
lemma toValid_append_ascii (l l' : List UInt8) :
    toValid (l ++ c :: l') = toValid l ++ c :: toValid l' :=
  toValidFrom_append_ascii hc l' l (Nat.zero_le _)

omit hc

/-- A valid text stays as it is. -/
lemma toValidFrom_of_valid (l : List UInt8) : ∀ {n : ℕ}, validFrom n l = true →
    toValidFrom n l = l := by
  induction l with
  | nil => exact fun _ => by simp [toValidFrom]
  | cons b l ih =>
    intro n h
    cases n with
    | succ n => exact congrArg (b :: ·) (ih h)
    | zero =>
      unfold validFrom at h
      unfold toValidFrom
      rcases hw : runeLen (b :: l) with _ | w
      · rw [hw] at h
        cases h
      · rw [hw] at h
        exact congrArg (b :: ·) (ih h)

lemma toValid_of_valid {l : List UInt8} (h : valid l = true) : toValid l = l :=
  toValidFrom_of_valid l h

end Utf8

end Awl
