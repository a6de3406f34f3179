import Mathlib.Data.List.Basic
import Mathlib.Tactic.Common

/-!
Writing over a part of a list, as into a buffer: the positions from `off` on get new values,
the others and the length stay. What is read afterwards is settled position by position.
-/

namespace Awl

variable {α : Type}

/-- `xs` written over `l` from the position `off` on. -/
def overwrite (l : List α) (off : ℕ) (xs : List α) : List α :=
  l.take off ++ xs ++ l.drop (off + xs.length)

variable {l xs ys : List α} {off off' a n : ℕ}

lemma length_overwrite (h : off + xs.length ≤ l.length) :
    (overwrite l off xs).length = l.length := by
  simp only [overwrite, List.length_append, List.length_take, List.length_drop]
  omega

lemma overwrite_getElem? (h : off + xs.length ≤ l.length) (i : ℕ) :
    (overwrite l off xs)[i]? =
      if off ≤ i ∧ i < off + xs.length then xs[i - off]? else l[i]? := by
  have hoff : (l.take off).length = off := by
    rw [List.length_take]
    omega
  rw [overwrite, List.append_assoc, List.getElem?_append, hoff]
  split_ifs with h1 h2 h2
  · omega
  · rw [List.getElem?_take, if_pos h1]
  · rw [List.getElem?_append_left (by omega)]
  · rw [List.getElem?_append_right (by omega), List.getElem?_drop]
    congr 1
    omega

lemma overwrite_getElem?_of_lt {i : ℕ} (h : off + xs.length ≤ l.length)
    (hi : i < off ∨ off + xs.length ≤ i) : (overwrite l off xs)[i]? = l[i]? := by
  rw [overwrite_getElem? h, if_neg (by omega)]

/-- What is written over again is as if it had not been written. -/
lemma overwrite_overwrite (h : off + xs.length ≤ l.length) (hxy : xs.length = ys.length) :
    overwrite (overwrite l off xs) off ys = overwrite l off ys := by
  refine List.ext_getElem? fun i => ?_
  rw [overwrite_getElem? (by rw [length_overwrite h]; omega), overwrite_getElem? h,
    overwrite_getElem? (by omega), hxy]
  split_ifs with hi
  · rfl
  · rfl

/-- Writes to disjoint parts can be exchanged. -/
lemma overwrite_comm (h : off + xs.length ≤ l.length) (h' : off' + ys.length ≤ l.length)
    (hdis : off + xs.length ≤ off' ∨ off' + ys.length ≤ off) :
    overwrite (overwrite l off xs) off' ys = overwrite (overwrite l off' ys) off xs := by
  refine List.ext_getElem? fun i => ?_
  rw [overwrite_getElem? (by rw [length_overwrite h]; omega), overwrite_getElem? h,
    overwrite_getElem? (by rw [length_overwrite h']; omega), overwrite_getElem? h']
  by_cases hi : off ≤ i ∧ i < off + xs.length
  · rw [if_neg (by omega), if_pos hi, if_pos hi]
  · by_cases hi' : off' ≤ i ∧ i < off' + ys.length
    · rw [if_pos hi', if_neg hi, if_pos hi']
    · rw [if_neg hi', if_neg hi, if_neg hi, if_neg hi']

/-! ### What is read afterwards -/

/-- The part that was written. -/
lemma overwrite_written (h : off + xs.length ≤ l.length) :
    ((overwrite l off xs).drop off).take xs.length = xs := by
  have hoff : (l.take off).length = off := by
    rw [List.length_take]
    omega
  rw [overwrite, List.append_assoc, List.drop_left' hoff, List.take_left' rfl]

/-- A part apart from it. -/
lemma overwrite_apart (h : off + xs.length ≤ l.length)
    (hdis : a + n ≤ off ∨ off + xs.length ≤ a) :
    ((overwrite l off xs).drop a).take n = (l.drop a).take n := by
  refine List.ext_getElem? fun i => ?_
  rw [List.getElem?_take, List.getElem?_take, List.getElem?_drop, List.getElem?_drop]
  split_ifs with hi
  · exact overwrite_getElem?_of_lt h (by omega)
  · rfl

/-- A part around it. -/
lemma overwrite_around (h : a ≤ off) (h' : off + xs.length ≤ a + n) (hn : a + n ≤ l.length) :
    ((overwrite l off xs).drop a).take n = overwrite ((l.drop a).take n) (off - a) xs := by
  have hlen : ((l.drop a).take n).length = n := by
    rw [List.length_take, List.length_drop]
    omega
  refine List.ext_getElem? fun i => ?_
  rw [overwrite_getElem? (by omega), List.getElem?_take, List.getElem?_take, List.getElem?_drop,
    List.getElem?_drop, overwrite_getElem? (by omega)]
  by_cases hi : i < n
  · rw [if_pos hi, if_pos hi]
    by_cases hw : off ≤ a + i ∧ a + i < off + xs.length
    · rw [if_pos hw, if_pos (by omega)]
      congr 1
      omega
    · rw [if_neg hw, if_neg (by omega)]
  · rw [if_neg hi, if_neg (by omega), if_neg hi]

/-- A write behind something else. -/
lemma append_overwrite (pre : List α) :
    pre ++ overwrite l off xs = overwrite (pre ++ l) (pre.length + off) xs := by
  rw [overwrite, overwrite, List.take_length_add_append, Nat.add_assoc,
    List.drop_length_add_append, List.append_assoc, List.append_assoc, List.append_assoc]

end Awl
