import Mathlib.Data.List.Nodup
import Mathlib.Logic.Function.Basic
import Mathlib.Tactic.Common

/-!
A two-way index: where each key lives, and who lives at each address, updated one key at a
time.

Giving a key a new address drops whatever entry stands at its old address, without looking
whose it is. A sweep of assignments followed by a sweep of discards therefore turns the
index of one injective table into that of another exactly when every address that changes
hands is left by its old holder before the new one arrives.
-/

namespace Awl

@[ext] structure TwoWay (K A : Type) where
  fwd : K → Option A
  bwd : A → Option K

namespace TwoWay

variable {K A : Type} [DecidableEq K] [DecidableEq A]

def assign (x : TwoWay K A) (k : K) (a : A) : TwoWay K A :=
  if x.fwd k = some a then x
  else
    { fwd := Function.update x.fwd k (some a)
      bwd := fun a' =>
        if a' = a then some k else if x.fwd k = some a' then none else x.bwd a' }

def discard (x : TwoWay K A) (k : K) : TwoWay K A where
  fwd := Function.update x.fwd k none
  bwd := fun a => if x.fwd k = some a then none else x.bwd a

/-- Assign to each key of the list the address `new` has for it. -/
def assignAll (x : TwoWay K A) (new : K → Option A) (ks : List K) : TwoWay K A :=
  ks.foldl (fun x k => match new k with
    | some a => x.assign k a
    | none => x) x

def discardAll (x : TwoWay K A) (ks : List K) : TwoWay K A := ks.foldl discard x

/-- The index of the table `f`, in both directions. -/
def Mirrors (x : TwoWay K A) (f : K → Option A) : Prop :=
  x.fwd = f ∧ ∀ a k, x.bwd a = some k ↔ f k = some a

/-- Whoever is alone at its address is found there. -/
def FindsSole (x : TwoWay K A) : Prop :=
  ∀ k a, x.fwd k = some a → (∀ k', x.fwd k' = some a → k' = k) → x.bwd a = some k

/-! ### The sweep of assignments -/

lemma assign_fwd (x : TwoWay K A) (k : K) (a : A) :
    (x.assign k a).fwd = Function.update x.fwd k (some a) := by
  unfold assign
  split_ifs with h
  · rw [← h, Function.update_eq_self]
  · rfl

/-- A key that arrives, or stays where it is, does not hide anybody who is alone. -/
lemma FindsSole.assign {x : TwoWay K A} (h : x.FindsSole) {k : K} {a : A}
    (hk : ∀ b, x.fwd k = some b → b = a) : (x.assign k a).FindsSole := by
  by_cases hx : x.fwd k = some a
  · rwa [TwoWay.assign, if_pos hx]
  · have hnone : x.fwd k = none := by
      rcases hb : x.fwd k with _ | b
      · rfl
      · exact absurd (hk b hb ▸ hb) hx
    intro k' a' hk' hsole
    simp only [assign_fwd] at hk' hsole
    simp only [TwoWay.assign, hnone, reduceCtorEq, if_false]
    by_cases he : a' = a
    · subst he
      rw [if_pos rfl, hsole k (by simp)]
    · have hne : k' ≠ k := by
        rintro rfl
        rw [Function.update_self] at hk'
        exact he (Option.some.inj hk').symm
      rw [if_neg he]
      rw [Function.update_of_ne hne] at hk'
      refine h k' a' hk' fun k'' hk'' => hsole k'' ?_
      have hne' : k'' ≠ k := by
        rintro rfl
        rw [hnone] at hk''
        cases hk''
      rwa [Function.update_of_ne hne']

lemma assignAll_cons (x : TwoWay K A) (new : K → Option A) (k : K) (ks : List K) :
    x.assignAll new (k :: ks) = (match new k with
      | some a => x.assign k a
      | none => x).assignAll new ks := rfl

lemma assignAll_append (x : TwoWay K A) (new : K → Option A) (ks ks' : List K) :
    x.assignAll new (ks ++ ks') = (x.assignAll new ks).assignAll new ks' :=
  List.foldl_append

lemma assignAll_fwd_notMem {x : TwoWay K A} {new : K → Option A} {ks : List K} {k : K}
    (h : k ∉ ks) : (x.assignAll new ks).fwd k = x.fwd k := by
  induction ks generalizing x with
  | nil => rfl
  | cons k' ks ih =>
    obtain ⟨hne, hk⟩ := not_or.mp (List.mem_cons.not.mp h)
    rw [assignAll_cons, ih hk]
    cases new k' with
    | none => rfl
    | some a => rw [assign_fwd, Function.update_of_ne hne]

lemma assignAll_fwd_mem {x : TwoWay K A} {new : K → Option A} {ks : List K} {k : K}
    (h : k ∈ ks) (hn : ks.Nodup) (hk : new k ≠ none) :
    (x.assignAll new ks).fwd k = new k := by
  obtain ⟨pre, post, rfl⟩ := List.append_of_mem h
  obtain ⟨a, ha⟩ := Option.ne_none_iff_exists'.mp hk
  have hpost : k ∉ post := (List.nodup_cons.mp (List.nodup_append.mp hn).2.1).1
  rw [assignAll_append, assignAll_cons, assignAll_fwd_notMem hpost, ha]
  simp [assign_fwd]

/-- Assigning `k` its new address changes who is known to live at `a`. -/
def Touches (x : TwoWay K A) (new : K → Option A) (a : A) (k : K) : Prop :=
  new k ≠ none ∧ x.fwd k ≠ new k ∧ (x.fwd k = some a ∨ new k = some a)

lemma assignAll_bwd_untouched {x : TwoWay K A} {new : K → Option A} {ks : List K} {a : A}
    (hn : ks.Nodup) (h : ∀ k ∈ ks, ¬ x.Touches new a k) :
    (x.assignAll new ks).bwd a = x.bwd a := by
  induction ks generalizing x with
  | nil => rfl
  | cons k ks ih =>
    obtain ⟨hk, hn⟩ := List.nodup_cons.mp hn
    have hhead := h k (by simp)
    rw [assignAll_cons]
    cases hb : new k with
    | none => exact ih hn fun k' hk' => h k' (by simp [hk'])
    | some b =>
      -- the other keys of the list still live where they did
      have hfwd : ∀ k' ∈ ks, (x.assign k b).fwd k' = x.fwd k' := by
        intro k' hk'
        exact assign_fwd x k b ▸ Function.update_of_ne (ne_of_mem_of_not_mem hk' hk) _ _
      rw [ih hn fun k' hk' => by
        rw [Touches, hfwd k' hk']; exact h k' (by simp [hk'])]
      simp only [Touches, hb, ne_eq, reduceCtorEq, not_false_eq_true, true_and, not_and,
        not_or] at hhead
      by_cases hx : x.fwd k = some b
      · simp [assign, hx]
      · obtain ⟨h1, h2⟩ := hhead hx
        have hab : a ≠ b := fun e => h2 (e ▸ rfl)
        simp [assign, hx, hab, h1]

/-- **The last assignment that touches an address decides who lives there.** -/
lemma assignAll_bwd_last {x : TwoWay K A} {new : K → Option A} {pre post : List K} {k : K}
    {a b : A} (hn : (pre ++ k :: post).Nodup) (hb : new k = some b) (hne : x.fwd k ≠ some b)
    (hpost : ∀ k' ∈ post, ¬ x.Touches new a k') (ha : a = b ∨ x.fwd k = some a) :
    (x.assignAll new (pre ++ k :: post)).bwd a = if a = b then some k else none := by
  obtain ⟨-, hn2, hdis⟩ := List.nodup_append.mp hn
  obtain ⟨hkpost, hnpost⟩ := List.nodup_cons.mp hn2
  have hfwd : ∀ k' ∈ k :: post, (x.assignAll new pre).fwd k' = x.fwd k' := fun k' hk' =>
    assignAll_fwd_notMem fun hp => hdis k' hp k' hk' rfl
  rw [assignAll_append, assignAll_cons, hb]
  rw [assignAll_bwd_untouched hnpost]
  · simp only [assign, hfwd k (by simp), if_neg hne]
    split_ifs with h1 h2
    · rfl
    · rfl
    · exact absurd (ha.resolve_left h1) h2
  · intro k' hk'
    have hkk : k' ≠ k := fun e => hkpost (e ▸ hk')
    rw [Touches, assign_fwd, Function.update_of_ne hkk, hfwd k' (by simp [hk'])]
    exact hpost k' hk'

/-! ### The sweep of discards -/

lemma discard_of_none {x : TwoWay K A} {k : K} (h : x.fwd k = none) :
    x.discard k = x := by
  ext1
  · exact Function.update_eq_self_iff.mpr h.symm
  · simp [discard, h]

lemma discardAll_fwd (x : TwoWay K A) (ks : List K) (k : K) :
    (x.discardAll ks).fwd k = if k ∈ ks then none else x.fwd k := by
  induction ks generalizing x with
  | nil => rfl
  | cons k' ks ih =>
    rw [discardAll, List.foldl_cons, ← discardAll, ih]
    by_cases h : k = k'
    · subst h; simp [discard]
    · simp [discard, h, Function.update_of_ne]

lemma discardAll_bwd_none {x : TwoWay K A} {a : A} (h : x.bwd a = none) (ks : List K) :
    (x.discardAll ks).bwd a = none := by
  induction ks generalizing x with
  | nil => exact h
  | cons k ks ih => exact ih (by simp [discard, h])

lemma discardAll_bwd_mem {x : TwoWay K A} {ks : List K} {k : K} {a : A} (hk : k ∈ ks)
    (h : x.fwd k = some a) : (x.discardAll ks).bwd a = none := by
  induction ks generalizing x with
  | nil => cases hk
  | cons k' ks ih =>
    by_cases hk' : x.fwd k' = some a
    · exact discardAll_bwd_none (by simp [discard, hk']) ks
    · have hne : k ≠ k' := fun e => hk' (e ▸ h)
      exact ih ((List.mem_cons.mp hk).resolve_left hne) (by simp [discard, hne, h])

lemma discardAll_bwd_notMem {x : TwoWay K A} {ks : List K} {a : A}
    (h : ∀ k ∈ ks, x.fwd k ≠ some a) : (x.discardAll ks).bwd a = x.bwd a := by
  induction ks generalizing x with
  | nil => rfl
  | cons k ks ih =>
    have hk : x.fwd k ≠ some a := h k (by simp)
    have hrest : ∀ k' ∈ ks, (x.discard k).fwd k' ≠ some a := by
      intro k' hk'
      by_cases e : k' = k
      · subst e; simp [discard]
      · simpa [discard, e] using h k' (by simp [hk'])
    exact (ih hrest).trans (by simp [discard, hk])

/-! ### From one table to another -/

omit [DecidableEq K] in
lemma not_pair_sublist {pre post : List K} {b k : K} (hn : (pre ++ b :: post).Nodup)
    (hk : k ∈ post) : ¬ [k, b].Sublist (pre ++ b :: post) := by
  intro hs
  obtain ⟨r₁, r₂, he, hk₁, hb⟩ := List.cons_sublist_iff.mp hs
  have hb₂ : b ∈ r₂ := List.singleton_sublist.mp hb
  rw [he] at hn
  have hdis := (List.nodup_append.mp hn).2.2
  rcases List.append_eq_append_iff.mp he with ⟨u, rfl, hu⟩ | ⟨u, rfl, hu⟩
  · cases u with
    | nil => exact hdis k hk₁ k (by rw [List.nil_append] at hu; simp [← hu, hk]) rfl
    | cons c u =>
      obtain ⟨rfl, -⟩ := List.cons.inj hu
      exact hdis b (by simp) b hb₂ rfl
  · exact hdis k hk₁ k (by simp [hu, hk]) rfl

/-- The two sweeps that take the index from the table it mirrors to the table `new`. -/
structure Sweeps (x : TwoWay K A) (new : K → Option A) (ks ds : List K) : Prop where
  nodup : ks.Nodup
  mem_ks : ∀ k, k ∈ ks ↔ new k ≠ none
  mem_ds : ∀ k, k ∈ ds ↔ x.fwd k ≠ none ∧ new k = none

/-- Every address that passes from one key to another is left before it is taken. -/
def LeftFirst (old new : K → Option A) (ks : List K) : Prop :=
  ∀ d b a, old d = some a → new b = some a → d ≠ b → [d, b].Sublist ks

section

variable {x : TwoWay K A} {old new : K → Option A} {ks ds : List K}

lemma Sweeps.fwd (h : x.Sweeps new ks ds) (k : K) :
    ((x.assignAll new ks).discardAll ds).fwd k = new k := by
  rw [discardAll_fwd]
  by_cases hk : new k = none
  · have hks : k ∉ ks := fun e => (h.mem_ks k).mp e hk
    rw [assignAll_fwd_notMem hks, hk]
    split_ifs with hd
    · rfl
    · by_contra hx
      exact hd ((h.mem_ds k).mpr ⟨hx, hk⟩)
  · rw [if_neg fun hd => hk ((h.mem_ds k).mp hd).2,
      assignAll_fwd_mem ((h.mem_ks k).mpr hk) h.nodup hk]

/-- The keys that get discarded still live where they did before the first sweep. -/
lemma Sweeps.fwd_ds (h : x.Sweeps new ks ds) {k : K} (hk : k ∈ ds) :
    (x.assignAll new ks).fwd k = x.fwd k :=
  assignAll_fwd_notMem fun e => (h.mem_ks k).mp e ((h.mem_ds k).mp hk).2

omit [DecidableEq K] [DecidableEq A] in
lemma Mirrors.inj (hx : x.Mirrors old) {k k' : K} {a : A} (h : old k = some a)
    (h' : old k' = some a) : k = k' := by
  have e := (hx.2 a k).mpr h
  rw [(hx.2 a k').mpr h'] at e
  exact (Option.some.inj e).symm

variable (h : x.Sweeps new ks ds) (hx : x.Mirrors old)
  (hinj : ∀ k k' a, new k = some a → new k' = some a → k = k')

include h hx hinj

/-- A key whose address was free, or left before it came, is found there. -/
lemma Sweeps.bwd_arrival {b : K} {a : A} (hb : new b = some a)
    (hfirst : ∀ d, old d = some a → d ≠ b → [d, b].Sublist ks) :
    ((x.assignAll new ks).discardAll ds).bwd a = some b := by
  have hbks : b ∈ ks := (h.mem_ks b).mpr (by simp [hb])
  have hds : ∀ k ∈ ds, (x.assignAll new ks).fwd k ≠ some a := by
    intro k hk hka
    rw [h.fwd_ds hk, hx.1] at hka
    have hnone := ((h.mem_ds k).mp hk).2
    have hkb : k ≠ b := fun e => by rw [e, hb] at hnone; cases hnone
    have hmem : k ∈ ks := (hfirst k hka hkb).subset (by simp)
    exact (h.mem_ks k).mp hmem hnone
  rw [discardAll_bwd_notMem hds]
  by_cases hold : old b = some a
  · -- nobody moves in or out
    rw [assignAll_bwd_untouched h.nodup]
    · exact (hx.2 a b).mpr hold
    · rintro k - ⟨-, hne, hk | hk⟩
      · rw [hx.1] at hk hne
        obtain rfl := hx.inj hk hold
        exact hne (hk.trans hb.symm)
      · obtain rfl := hinj k b a hk hb
        exact hne (by rw [hx.1, hold, hb])
  · obtain ⟨pre, post, rfl⟩ := List.append_of_mem hbks
    rw [assignAll_bwd_last h.nodup hb (by rwa [hx.1]) ?_ (Or.inl rfl), if_pos rfl]
    rintro k hk ⟨-, -, hka | hka⟩
    · rw [hx.1] at hka
      have hkb : k ≠ b := fun e => hold (e ▸ hka)
      exact not_pair_sublist h.nodup hk (hfirst k hka hkb)
    · obtain rfl := hinj k b a hka hb
      exact (List.nodup_cons.mp (List.nodup_append.mp h.nodup).2.1).1 hk

omit hinj in
/-- A key that moves away after whoever takes its address, or is discarded, empties it. -/
lemma Sweeps.bwd_departure {d : K} {a : A} (hd : old d = some a) (hda : new d ≠ some a)
    (hlast : ∀ b, new b = some a → ¬ [d, b].Sublist ks) :
    ((x.assignAll new ks).discardAll ds).bwd a = none := by
  by_cases hnone : new d = none
  · have hmem : d ∈ ds := (h.mem_ds d).mpr ⟨by rw [hx.1, hd]; simp, hnone⟩
    exact discardAll_bwd_mem hmem (by rw [h.fwd_ds hmem, hx.1, hd])
  · obtain ⟨c, hc⟩ := Option.ne_none_iff_exists'.mp hnone
    have hac : a ≠ c := fun e => hda (e ▸ hc)
    obtain ⟨pre, post, rfl⟩ := List.append_of_mem ((h.mem_ks d).mpr hnone)
    refine discardAll_bwd_none ?_ ds
    have hdc : x.fwd d ≠ some c := by
      rw [hx.1, hd]
      exact fun e => hac (Option.some.inj e)
    rw [assignAll_bwd_last h.nodup hc hdc ?_ (Or.inr (by rw [hx.1, hd])), if_neg hac]
    rintro k hk ⟨-, -, hka | hka⟩
    · rw [hx.1] at hka
      obtain rfl := hx.inj hka hd
      exact (List.nodup_cons.mp (List.nodup_append.mp h.nodup).2.1).1 hk
    · refine hlast k hka (List.sublist_append_of_sublist_right ?_)
      exact (List.singleton_sublist.mpr hk).cons_cons d

/-- **The sweeps turn the index of one table into the index of the other exactly when every
address that changes hands is left first.** -/
theorem Sweeps.mirrors_iff :
    ((x.assignAll new ks).discardAll ds).Mirrors new ↔ LeftFirst old new ks := by
  constructor
  · intro hm d b a hd hb hdb
    by_contra hs
    have hda : new d ≠ some a := fun e => hdb (hinj d b a e hb)
    have hgone := h.bwd_departure hx hd hda fun b' hb' => hinj b' b a hb' hb ▸ hs
    rw [(hm.2 a b).mpr hb] at hgone
    cases hgone
  · intro hl
    refine ⟨funext h.fwd, fun a k => ⟨fun hk => ?_, fun hk => ?_⟩⟩
    · by_contra hka
      by_cases hsome : ∃ b, new b = some a
      · obtain ⟨b, hb⟩ := hsome
        rw [h.bwd_arrival hx hinj hb fun d hd hdb => hl d b a hd hb hdb] at hk
        exact hka (Option.some.inj hk ▸ hb)
      · have hfree : ∀ b, new b ≠ some a := fun b hb => hsome ⟨b, hb⟩
        rcases ho : x.bwd a with _ | d
        · -- the address was free and stays free
          have hold : ∀ k, x.fwd k ≠ some a := by
            intro k hk'
            rw [hx.1] at hk'
            rw [(hx.2 a k).mpr hk'] at ho
            cases ho
          rw [discardAll_bwd_notMem fun k hk' => h.fwd_ds hk' ▸ hold k,
            assignAll_bwd_untouched h.nodup, ho] at hk
          · cases hk
          · rintro k - ⟨-, -, hk' | hk'⟩
            · exact hold k hk'
            · exact hfree k hk'
        · rw [h.bwd_departure hx ((hx.2 a d).mp ho) (hfree d)
            fun b hb => absurd hb (hfree b)] at hk
          cases hk
    · exact h.bwd_arrival hx hinj hk fun d hd hdk => hl d k a hd hk hdk

end

end TwoWay

end Awl
