import Mathlib.Algebra.Order.Ring.Int
import Mathlib.Data.List.Pairwise

/-!
Sorting by a comparator whose sign says which of two elements comes first.

A sort is only asked for something on lists on which its comparator is a strict weak order. On the
others it may return any list, and elements that the comparator does not tell apart may come in any
order: `exists_sorts_eq` and `exists_isSorted_ties` are sorts that use this freedom.
-/

namespace Awl

/-- Of two members of a list, one comes before the other. -/
lemma pairwise_or {α : Type} {r : α → α → Prop} {l : List α} (h : l.Pairwise r) {a b : α}
    (ha : a ∈ l) (hb : b ∈ l) (hne : a ≠ b) : r a b ∨ r b a := by
  have hsymm : Std.Symm fun x y => r x y ∨ r y x := ⟨fun _ _ => Or.symm⟩
  have hor : l.Pairwise fun x y => r x y ∨ r y x := h.imp Or.inl
  exact hor.forall ha hb hne

namespace SortFunc

variable {α : Type} {cmp : α → α → ℤ} {l : List α}

/-- The comparator is a strict weak order on the members of the list. -/
structure StrictWeakOn (cmp : α → α → ℤ) (l : List α) : Prop where
  asymm : ∀ a ∈ l, ∀ b ∈ l, cmp a b < 0 → ¬ cmp b a < 0
  negTrans : ∀ a ∈ l, ∀ b ∈ l, ∀ c ∈ l, ¬ cmp a b < 0 → ¬ cmp b c < 0 → ¬ cmp a c < 0

/-- `out` has the elements of `l`, and none of them comes after one that it belongs before. -/
structure IsSorted (cmp : α → α → ℤ) (l out : List α) : Prop where
  perm : out.Perm l
  ordered : out.Pairwise fun a b => ¬ cmp b a < 0

/-- What a sort has to do. -/
def Sorts (sortFunc : (α → α → ℤ) → List α → List α) : Prop :=
  ∀ cmp l, StrictWeakOn cmp l → IsSorted cmp l (sortFunc cmp l)

/-- A comparator that follows a key. -/
lemma strictWeakOn_of_key {κ : Type} [LinearOrder κ] {key : α → κ}
    (h : ∀ a ∈ l, ∀ b ∈ l, cmp a b < 0 ↔ key a < key b) : StrictWeakOn cmp l where
  asymm a ha b hb hab := by
    rw [h a ha b hb] at hab
    rw [h b hb a ha]
    exact hab.asymm
  negTrans a ha b hb c hc hab hbc := by
    rw [h a ha b hb, not_lt] at hab
    rw [h b hb c hc, not_lt] at hbc
    rw [h a ha c hc, not_lt]
    exact hbc.trans hab

/-! ### Sorts exist -/

/-- A relation has to be total and transitive on the members only. -/
lemma exists_pairwise {r : α → α → Prop} (htotal : ∀ a ∈ l, ∀ b ∈ l, r a b ∨ r b a)
    (htrans : ∀ a ∈ l, ∀ b ∈ l, ∀ c ∈ l, r a b → r b c → r a c) :
    ∃ out : List α, out.Perm l ∧ out.Pairwise r := by
  classical
  let le : {x // x ∈ l} → {x // x ∈ l} → Bool := fun a b => decide (r a b)
  have hordered : (l.attach.mergeSort le).Pairwise fun a b => le a b = true := by
    apply List.pairwise_mergeSort
    · intro a b c hab hbc
      exact decide_eq_true
        (htrans a a.2 b b.2 c c.2 (of_decide_eq_true hab) (of_decide_eq_true hbc))
    · intro a b
      simpa only [le, Bool.or_eq_true, decide_eq_true_eq] using htotal a a.2 b b.2
  refine ⟨(l.attach.mergeSort le).map Subtype.val, ?_, ?_⟩
  · simpa only [List.attach_map_subtype_val] using
      (List.mergeSort_perm l.attach le).map Subtype.val
  · exact List.pairwise_map.2 (hordered.imp of_decide_eq_true)

/-- A sorted list in which the elements that the comparator does not tell apart are in the order of
a key. -/
lemma exists_isSorted_ties {κ : Type} [LinearOrder κ] (key : α → κ) (h : StrictWeakOn cmp l) :
    ∃ out, IsSorted cmp l out ∧ out.Pairwise fun a b => cmp a b < 0 ∨ key a ≤ key b := by
  obtain ⟨out, hperm, hordered⟩ : ∃ out : List α, out.Perm l ∧
      out.Pairwise fun a b => cmp a b < 0 ∨ ¬ cmp b a < 0 ∧ key a ≤ key b := by
    apply exists_pairwise
    · intro a ha b hb
      by_cases hab : cmp a b < 0
      · exact Or.inl (Or.inl hab)
      by_cases hba : cmp b a < 0
      · exact Or.inr (Or.inl hba)
      rcases le_total (key a) (key b) with hkey | hkey
      · exact Or.inl (Or.inr ⟨hba, hkey⟩)
      · exact Or.inr (Or.inr ⟨hab, hkey⟩)
    · intro a ha b hb c hc hab hbc
      -- what is not before `b` is not before what `b` is before, and the other way round
      have hle_lt : ¬ cmp b a < 0 → cmp b c < 0 → cmp a c < 0 := fun hba hlt => by
        by_contra hac
        exact h.negTrans b hb a ha c hc hba hac hlt
      have hlt_le : cmp a b < 0 → ¬ cmp c b < 0 → cmp a c < 0 := fun hlt hcb => by
        by_contra hac
        exact h.negTrans a ha c hc b hb hac hcb hlt
      rcases hab with hab | ⟨hab, hkey⟩
      · rcases hbc with hbc | ⟨hbc, -⟩
        · exact Or.inl (hlt_le hab (h.asymm b hb c hc hbc))
        · exact Or.inl (hlt_le hab hbc)
      · rcases hbc with hbc | ⟨hbc, hkey'⟩
        · exact Or.inl (hle_lt hab hbc)
        · exact Or.inr ⟨h.negTrans c hc b hb a ha hbc hab, hkey.trans hkey'⟩
  refine ⟨out, ⟨hperm, ?_⟩, hordered.imp fun hab => hab.imp_right And.right⟩
  refine hordered.imp_of_mem fun {a b} ha hb hab => ?_
  rcases hab with hab | ⟨hab, -⟩
  · exact h.asymm a (hperm.subset ha) b (hperm.subset hb) hab
  · exact hab

/-- A sort that returns a given list, if this is allowed. -/
lemma exists_sorts_eq {out : List α} (hout : StrictWeakOn cmp l → IsSorted cmp l out) :
    ∃ sortFunc, Sorts sortFunc ∧ sortFunc cmp l = out := by
  classical
  have hsorted : ∀ (cmp : α → α → ℤ) (l : List α),
      ∃ out, StrictWeakOn cmp l → IsSorted cmp l out := fun cmp l => by
    by_cases h : StrictWeakOn cmp l
    · obtain ⟨out, hout, -⟩ := exists_isSorted_ties (fun _ => 0 : α → ℤ) h
      exact ⟨out, fun _ => hout⟩
    · exact ⟨l, fun h' => absurd h' h⟩
  choose sortFunc hsort using hsorted
  refine ⟨fun cmp' l' => if cmp' = cmp ∧ l' = l then out else sortFunc cmp' l', ?_,
    if_pos ⟨rfl, rfl⟩⟩
  intro cmp' l' h
  by_cases hin : cmp' = cmp ∧ l' = l
  · obtain ⟨rfl, rfl⟩ := hin
    simpa using hout h
  · simpa only [if_neg hin] using hsort cmp' l' h

/-! ### What is determined -/

/-- Sorted lists of the same elements are the same if the comparator tells all of them apart. -/
lemma IsSorted.unique {l' out out' : List α} (h : IsSorted cmp l out) (h' : IsSorted cmp l' out')
    (hperm : l.Perm l') (hties : ∀ a ∈ l, ∀ b ∈ l, ¬ cmp a b < 0 → ¬ cmp b a < 0 → a = b) :
    out = out' := by
  refine List.Perm.eq_of_pairwise (fun a b ha hb hab hba => ?_) h.ordered h'.ordered
    ((h.perm.trans hperm).trans h'.perm.symm)
  exact hties a (h.perm.subset ha) b (hperm.symm.subset (h'.perm.subset hb)) hba hab

/-- Otherwise there are sorts that differ. -/
lemma exists_sorts_ne {κ : Type} [LinearOrder κ] (key : α → κ) (h : StrictWeakOn cmp l) {a b : α}
    (ha : a ∈ l) (hb : b ∈ l) (hab : ¬ cmp a b < 0) (hba : ¬ cmp b a < 0) (hkey : key a ≠ key b) :
    ∃ sortFunc sortFunc', Sorts sortFunc ∧ Sorts sortFunc' ∧
      sortFunc cmp l ≠ sortFunc' cmp l := by
  obtain ⟨out, hout, hup⟩ := exists_isSorted_ties key h
  obtain ⟨out', hout', hdown⟩ := exists_isSorted_ties (fun x => OrderDual.toDual (key x)) h
  obtain ⟨sortFunc, hsort, heq⟩ := exists_sorts_eq fun _ => hout
  obtain ⟨sortFunc', hsort', heq'⟩ := exists_sorts_eq fun _ => hout'
  refine ⟨sortFunc, sortFunc', hsort, hsort', fun hsame => ?_⟩
  rw [heq, heq'] at hsame
  subst hsame
  have hboth := hup.and hdown
  rcases pairwise_or hboth (hout.perm.symm.subset ha) (hout.perm.symm.subset hb)
      (fun he => hkey (congrArg key he)) with ⟨h₁, h₂⟩ | ⟨h₁, h₂⟩
  · exact hkey (le_antisymm (h₁.resolve_left hab) (h₂.resolve_left hab))
  · exact hkey (le_antisymm (h₂.resolve_left hba) (h₁.resolve_left hba))

/-- Elements that the order does not tell apart stay in their order. -/
lemma filter_mergeSort {le : α → α → Bool} (htrans : ∀ a b c, le a b → le b c → le a c)
    (htotal : ∀ a b, le a b || le b a) {p : α → Bool} (hties : ∀ a b, p a → p b → le a b)
    (l : List α) : (l.mergeSort le).filter p = l.filter p := by
  have hpairwise : (l.filter p).Pairwise fun a b => le a b = true :=
    List.pairwise_of_forall_mem_list fun a ha b hb =>
      hties a b (List.mem_filter.mp ha).2 (List.mem_filter.mp hb).2
  have hsub := (List.sublist_mergeSort htrans htotal hpairwise List.filter_sublist).filter p
  rw [List.filter_filter] at hsub
  simp only [Bool.and_self] at hsub
  exact (hsub.eq_of_length ((List.mergeSort_perm l le).filter p).length_eq.symm).symm

/-- What is sorted by a yes or no. -/
lemma eq_filter_append_filter {p : α → Bool} (h : l.Pairwise fun a b => p b = true → p a = true) :
    l = l.filter p ++ l.filter fun a => !p a := by
  induction l with
  | nil => rfl
  | cons a l ih =>
    obtain ⟨ha, hl⟩ := List.pairwise_cons.mp h
    cases hp : p a with
    | true =>
      rw [List.filter_cons_of_pos hp, List.filter_cons_of_neg (by simp [hp]), List.cons_append]
      exact congrArg _ (ih hl)
    | false =>
      have hnone : l.filter p = [] := List.filter_eq_nil_iff.mpr fun b hb hpb => by
        rw [ha b hb hpb] at hp
        cases hp
      have hall : l.filter (fun a => !p a) = l := by
        have hsame := ih hl
        rwa [hnone, List.nil_append, eq_comm] at hsame
      rw [List.filter_cons_of_neg (by simp [hp]), List.filter_cons_of_pos (by simp [hp]), hnone,
        hall, List.nil_append]

end SortFunc

end Awl
