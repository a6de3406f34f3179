import Mathlib.Data.Nat.ModEq
import Mathlib.Tactic.Common
import Mathlib.Tactic.Ring

/-!
One's complement sums of 16-bit words, as RFC 1071 defines them, and the usual way to compute
them: add up in 32 bits and fold the carries back at the end.

A sum with end-around carry is determined by the sum of the words: it is congruent to it modulo
`0xffff`, and it is zero only if all words are. `carry` is the number with these properties.
-/

namespace Awl.OnesComplement

/-! ### The reference -/

/-- Addition with end-around carry. -/
def add (a b : ℕ) : ℕ := if a + b ≤ 0xffff then a + b else a + b - 0xffff

/-- The big-endian words of some bytes, the last one padded with zero. -/
def words : List UInt8 → List ℕ
  | a :: b :: bs => (256 * a.toNat + b.toNat) :: words bs
  | [a] => [256 * a.toNat]
  | [] => []

/-- The one's complement sum. -/
def sum (bs : List UInt8) : ℕ := (words bs).foldl add 0

/-! ### Its value -/

/-- `n` with all carries folded back. -/
def carry (n : ℕ) : ℕ := if n = 0 then 0 else (n - 1) % 0xffff + 1

lemma carry_le (n : ℕ) : carry n ≤ 0xffff := by
  unfold carry
  split_ifs
  · omega
  · have := Nat.mod_lt (n - 1) (show 0 < 0xffff by norm_num)
    omega

lemma carry_of_le {n : ℕ} (h : n ≤ 0xffff) : carry n = n := by
  unfold carry
  split_ifs with h0
  · exact h0.symm
  · rw [Nat.mod_eq_of_lt (by omega)]
    omega

/-- A carry that is folded back does not matter. -/
lemma carry_sub {n : ℕ} (h : 0xffff < n) : carry (n - 0xffff) = carry n := by
  unfold carry
  rw [if_neg (by omega), if_neg (by omega)]
  have hsub : n - 1 = n - 0xffff - 1 + 0xffff := by omega
  rw [hsub, Nat.add_mod_right]

lemma carry_modEq (n : ℕ) : carry n ≡ n [MOD 0xffff] := by
  unfold carry
  split_ifs with h0
  · rw [h0]
  · have hn : n = n - 1 + 1 := by omega
    conv_rhs => rw [hn]
    exact (Nat.mod_modEq _ _).add_right 1

lemma carry_eq_iff {n m : ℕ} (hn : 0 < n) (hm : 0 < m) :
    carry n = carry m ↔ n ≡ m [MOD 0xffff] := by
  constructor
  · intro h
    exact (carry_modEq n).symm.trans (h ▸ carry_modEq m)
  · intro h
    unfold carry
    rw [if_neg (by omega), if_neg (by omega)]
    have hpred : n - 1 ≡ m - 1 [MOD 0xffff] := by
      refine Nat.ModEq.add_right_cancel' 1 ?_
      rwa [Nat.sub_add_cancel hn, Nat.sub_add_cancel hm]
    rw [hpred]

lemma add_carry (n : ℕ) {w : ℕ} (hw : w ≤ 0xffff) : add (carry n) w = carry (n + w) := by
  have hle := carry_le n
  rcases Nat.eq_zero_or_pos (n + w) with h0 | hpos
  · have hn : n = 0 := by omega
    have hw0 : w = 0 := by omega
    subst hn hw0
    rfl
  · have hadd : add (carry n) w = carry (carry n + w) := by
      unfold add
      split_ifs with h
      · exact (carry_of_le h).symm
      · rw [← carry_sub (n := carry n + w) (by omega)]
        exact (carry_of_le (by omega)).symm
    have hsum : 0 < carry n + w := by
      rcases Nat.eq_zero_or_pos n with rfl | hn
      · omega
      · have : 0 < carry n := by
          unfold carry
          rw [if_neg (by omega)]
          omega
        omega
    rw [hadd, carry_eq_iff hsum hpos]
    exact (carry_modEq n).add_right w

lemma words_le (bs : List UInt8) : ∀ w ∈ words bs, w ≤ 0xffff := by
  induction bs using words.induct with
  | case1 a b bs ih =>
    have ha := a.toNat_lt
    have hb := b.toNat_lt
    intro w hw
    rcases List.mem_cons.mp hw with rfl | hw
    · omega
    · exact ih w hw
  | case2 a =>
    have ha := a.toNat_lt
    intro w hw
    rw [List.mem_singleton.mp hw]
    omega
  | case3 => exact fun w hw => absurd hw List.not_mem_nil

/-- **The value of a sum.** -/
theorem sum_eq (bs : List UInt8) : sum bs = carry (words bs).sum := by
  have hfold : ∀ (ws : List ℕ) (n : ℕ), (∀ w ∈ ws, w ≤ 0xffff) →
      ws.foldl add (carry n) = carry (n + ws.sum) := by
    intro ws
    induction ws with
    | nil => exact fun n _ => by rw [List.foldl_nil, List.sum_nil, Nat.add_zero]
    | cons w ws ih =>
      intro n h
      rw [List.foldl_cons, add_carry n (h w List.mem_cons_self),
        ih _ fun w hw => h w (List.mem_cons_of_mem _ hw), List.sum_cons, Nat.add_assoc]
  have h := hfold (words bs) 0 (words_le bs)
  rwa [Nat.zero_add] at h

/-- With the complement of a sum added, the sum is all ones. -/
lemma carry_add_complement (n : ℕ) : carry (n + (0xffff - carry n)) = 0xffff := by
  have hle := carry_le n
  have hpos : 0 < n + (0xffff - carry n) := by
    rcases Nat.eq_zero_or_pos n with rfl | hn
    · rw [show carry 0 = 0 from rfl]
      omega
    · omega
  have hcong : n + (0xffff - carry n) ≡ 0xffff [MOD 0xffff] := by
    have h := (carry_modEq n).symm.add_right (0xffff - carry n)
    rwa [Nat.add_sub_cancel' hle] at h
  calc carry (n + (0xffff - carry n)) = carry 0xffff := (carry_eq_iff hpos (by omega)).mpr hcong
    _ = 0xffff := carry_of_le le_rfl

/-! ### Words of parts -/

/-- After a part of even length a new word begins. -/
lemma words_append {as : List UInt8} (h : as.length % 2 = 0) (bs : List UInt8) :
    words (as ++ bs) = words as ++ words bs := by
  induction as using words.induct with
  | case1 a b as ih =>
    rw [List.length_cons, List.length_cons] at h
    rw [List.cons_append, List.cons_append, words, words, List.cons_append, ih (by omega)]
  | case2 a => cases h
  | case3 => rfl

lemma sum_words_le (bs : List UInt8) : (words bs).sum ≤ 0x8000 * (bs.length + 1) := by
  induction bs using words.induct with
  | case1 a b bs ih =>
    have ha := a.toNat_lt
    have hb := b.toNat_lt
    rw [words, List.sum_cons, List.length_cons, List.length_cons]
    omega
  | case2 a =>
    have ha := a.toNat_lt
    rw [words, List.sum_singleton, List.length_singleton]
    omega
  | case3 => exact Nat.zero_le _

/-! ### Adding up in 32 bits -/

/-- The accumulator after some additions. -/
def accumulate (v : UInt32) (addends : List UInt32) : UInt32 := addends.foldl (· + ·) v

/-- No addition overflows. -/
def NoWrap : UInt32 → List UInt32 → Prop
  | _, [] => True
  | v, a :: addends => v.toNat + a.toNat < 2 ^ 32 ∧ NoWrap (v + a) addends

lemma noWrap_of_sum_lt {addends : List UInt32} : ∀ {v : UInt32},
    v.toNat + (addends.map UInt32.toNat).sum < 2 ^ 32 → NoWrap v addends ∧
      (accumulate v addends).toNat = v.toNat + (addends.map UInt32.toNat).sum := by
  induction addends with
  | nil => exact fun _ => ⟨trivial, by simp [accumulate]⟩
  | cons a addends ih =>
    intro v h
    rw [List.map_cons, List.sum_cons] at h
    have hadd : (v + a).toNat = v.toNat + a.toNat := by
      rw [UInt32.toNat_add, Nat.mod_eq_of_lt (by omega)]
    obtain ⟨hno, hacc⟩ := ih (v := v + a) (by omega)
    refine ⟨⟨by omega, hno⟩, ?_⟩
    rw [accumulate, List.foldl_cons, ← accumulate, hacc, hadd, List.map_cons, List.sum_cons,
      Nat.add_assoc]

lemma toNat_shiftRight_sixteen (v : UInt32) : (v >>> 16).toNat = v.toNat / 2 ^ 16 := by
  rw [UInt32.toNat_shiftRight, Nat.shiftRight_eq_div_pow]
  rfl

lemma toNat_and_ffff (v : UInt32) : (v &&& 0xffff).toNat = v.toNat % 2 ^ 16 := by
  rw [UInt32.toNat_and, ← Nat.and_two_pow_sub_one_eq_mod]
  rfl

/-- Folding carries back does not overflow. -/
lemma fold_noWrap (v : UInt32) : (v >>> 16).toNat + (v &&& 0xffff).toNat < 2 ^ 32 := by
  have hv := v.toNat_lt
  rw [toNat_shiftRight_sixteen, toNat_and_ffff]
  omega

lemma toNat_fold (v : UInt32) :
    ((v >>> 16) + (v &&& 0xffff)).toNat = v.toNat / 2 ^ 16 + v.toNat % 2 ^ 16 := by
  rw [UInt32.toNat_add, Nat.mod_eq_of_lt (fold_noWrap v), toNat_shiftRight_sixteen,
    toNat_and_ffff]

lemma lt_iff_toNat (v : UInt32) : v > 0xffff ↔ 0xffff < v.toNat := by
  rw [gt_iff_lt, UInt32.lt_iff_toNat_lt]
  rfl

/-- The loop that folds the carries back. -/
def foldCarries (v : UInt32) : UInt32 :=
  if v > 0xffff then foldCarries ((v >>> 16) + (v &&& 0xffff)) else v
termination_by v.toNat
decreasing_by
  rename_i h
  rw [lt_iff_toNat] at h
  rw [toNat_fold]
  omega

/-- **What the loop computes.** -/
theorem toNat_foldCarries (v : UInt32) : (foldCarries v).toNat = carry v.toNat := by
  induction v using foldCarries.induct with
  | case1 v h ih =>
    rw [foldCarries, if_pos h, ih, toNat_fold]
    rw [lt_iff_toNat] at h
    -- both numbers are positive, and they differ by a multiple of 0xffff
    rw [carry_eq_iff (by omega) (by omega)]
    have hsplit : v.toNat = v.toNat / 2 ^ 16 + v.toNat % 2 ^ 16 + 0xffff * (v.toNat / 2 ^ 16) := by
      omega
    conv_rhs => rw [hsplit]
    exact (Nat.add_mul_mod_self_left _ _ _).symm
  | case2 v h =>
    rw [foldCarries, if_neg h, carry_of_le]
    rw [lt_iff_toNat] at h
    omega

/-- The checksum that goes with an accumulator. -/
def complement (v : UInt32) : UInt16 := ~~~(foldCarries v).toUInt16

lemma toNat_complement (v : UInt32) : (complement v).toNat = 0xffff - carry v.toNat := by
  have hle := carry_le v.toNat
  rw [complement, UInt16.toNat_not, UInt32.toNat_toUInt16, toNat_foldCarries,
    Nat.mod_eq_of_lt (by omega)]
  rfl

end Awl.OnesComplement
