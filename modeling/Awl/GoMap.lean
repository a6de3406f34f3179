import Mathlib.Data.Finmap
import Mathlib.Tactic.Common

/-!
Go maps: finite maps without an order of their own, and the orders in which a `range` loop
may visit them.

A function of a map that must not depend on the order is written over the entries as a
multiset; a loop whose result does depend on it takes the order as a list of keys. The loop
looks each key up when it gets there, so an entry that was deleted before being reached is
not visited, as in Go.
-/

namespace Awl

abbrev GoMap (K V : Type) := Finmap fun _ : K => V

namespace GoMap

variable {K V : Type} [DecidableEq K]

lemma lookup_insert_ite (m : GoMap K V) (a k : K) (v : V) :
    (m.insert a v).lookup k = if k = a then some v else m.lookup k := by
  split
  · next h => subst h; exact Finmap.lookup_insert m
  · next h => exact Finmap.lookup_insert_of_ne m h

/-- Writing back what is there. -/
lemma insert_of_lookup {m : GoMap K V} {k : K} {v : V} (h : m.lookup k = some v) :
    m.insert k v = m := by
  refine Finmap.ext_lookup fun k' => ?_
  rw [lookup_insert_ite]
  split_ifs with he
  · rw [he, h]
  · rfl

lemma lookup_erase_ite (m : GoMap K V) (a k : K) :
    (m.erase a).lookup k = if k = a then none else m.lookup k := by
  split
  · next h => subst h; exact Finmap.lookup_erase k m
  · next h => exact Finmap.lookup_erase_ne h

lemma mem_entries {m : GoMap K V} {k : K} {v : V} :
    (⟨k, v⟩ : (_ : K) × V) ∈ m.entries ↔ m.lookup k = some v :=
  Finmap.lookup_eq_some_iff.symm

/-- No two keys have values that `f` takes for one. -/
def DistinctOn {W : Type} (f : V → W) (m : GoMap K V) : Prop :=
  ∀ ⦃k k' : K⦄ ⦃v v' : V⦄, m.lookup k = some v → m.lookup k' = some v' → f v = f v' → k = k'

/-- A value is written under the key `key`. -/
lemma DistinctOn.insert_iff {W : Type} {f : V → W} {m : GoMap K V} (h : DistinctOn f m) (key : K)
    (v₀ : V) :
    DistinctOn f (m.insert key v₀) ↔
      ∀ k v, k ≠ key → m.lookup k = some v → f v ≠ f v₀ := by
  constructor
  · intro hd k v hne hl he
    exact hne (hd (by rw [lookup_insert_ite, if_neg hne, hl])
      (by rw [lookup_insert_ite, if_pos rfl]) he)
  · intro hfree k k' v v' hl hl' he
    rw [lookup_insert_ite] at hl hl'
    split_ifs at hl hl' with h1 h2 h2
    · rw [h1, h2]
    · cases hl
      exact absurd he.symm (hfree k' v' h2 hl')
    · cases hl'
      exact absurd he (hfree k v h1 hl)
    · exact h hl hl' he

/-- The map with its keys replaced, as a loop that fills a new map makes it. -/
def mapKeys {K' : Type} (f : K → K') (hf : Function.Injective f) (m : GoMap K V) :
    GoMap K' V where
  entries := m.entries.map fun e => ⟨f e.1, e.2⟩
  nodupKeys := by
    rw [← Multiset.nodup_keys, Multiset.keys, Multiset.map_map]
    have h := (Multiset.nodup_keys.mpr m.nodupKeys).map hf
    rwa [Multiset.keys, Multiset.map_map] at h

omit [DecidableEq K] in
lemma lookup_mapKeys {K' : Type} [DecidableEq K'] {f : K → K'} (hf : Function.Injective f)
    {m : GoMap K V} {k' : K'} {v : V} :
    (m.mapKeys f hf).lookup k' = some v ↔ ∃ k, (⟨k, v⟩ : (_ : K) × V) ∈ m.entries ∧ f k = k' := by
  rw [← mem_entries, mapKeys, Multiset.mem_map]
  constructor
  · rintro ⟨⟨k, v'⟩, he, heq⟩
    cases heq
    exact ⟨k, he, rfl⟩
  · rintro ⟨k, he, rfl⟩
    exact ⟨⟨k, v⟩, he, rfl⟩

/-- An order in which a `range` loop may visit the keys of `m`. -/
def Ranges (m : GoMap K V) (ks : List K) : Prop := ks.Nodup ∧ ∀ k, k ∈ ks ↔ k ∈ m

instance (m : GoMap K V) (ks : List K) : Decidable (Ranges m ks) :=
  decidable_of_iff (ks.Nodup ∧ ks.toFinset = m.keys) (by
    simp only [Ranges, Finset.ext_iff, List.mem_toFinset, Finmap.mem_keys])

omit [DecidableEq K] in
lemma ranges_toList (m : GoMap K V) : Ranges m m.keys.toList :=
  ⟨Finset.nodup_toList _, fun k => by rw [Finset.mem_toList, Finmap.mem_keys]⟩

omit [DecidableEq K] in
lemma exists_ranges (m : GoMap K V) : ∃ ks, Ranges m ks := ⟨_, m.ranges_toList⟩

/-- The loop `for k, v := range m { body }`, in the order `ks`, over a map the body leaves
alone. -/
def rangeLoop {σ : Type} (m : GoMap K V) (body : σ → K → V → σ) (s : σ) (ks : List K) : σ :=
  ks.foldl (fun s k => match m.lookup k with
    | some v => body s k v
    | none => s) s

@[simp] lemma rangeLoop_nil {σ : Type} (m : GoMap K V) (body : σ → K → V → σ) (s : σ) :
    rangeLoop m body s [] = s := rfl

lemma rangeLoop_cons {σ : Type} (m : GoMap K V) (body : σ → K → V → σ) (s : σ) (k : K)
    (ks : List K) :
    rangeLoop m body s (k :: ks) =
      rangeLoop m body (match m.lookup k with
        | some v => body s k v
        | none => s) ks := rfl

/-- **What the body preserves, the loop preserves.** -/
lemma rangeLoop_inv {σ : Type} {m : GoMap K V} {body : σ → K → V → σ} (P : σ → Prop)
    (hbody : ∀ s k v, m.lookup k = some v → P s → P (body s k v)) {s : σ} (hs : P s)
    (ks : List K) : P (rangeLoop m body s ks) := by
  induction ks generalizing s with
  | nil => exact hs
  | cons k ks ih =>
    rw [rangeLoop_cons]
    refine ih ?_
    split
    · next v hv => exact hbody s k v hv hs
    · exact hs

/-- What the body brings about at one key, and keeps at the others, the loop brings about. -/
lemma rangeLoop_visits {σ : Type} {m : GoMap K V} {body : σ → K → V → σ} (P : σ → Prop)
    (hbody : ∀ s k v, m.lookup k = some v → P s → P (body s k v)) {k : K} {v : V}
    (hk : m.lookup k = some v) (hnew : ∀ s, P (body s k v)) (s : σ) {ks : List K} (hmem : k ∈ ks) :
    P (rangeLoop m body s ks) := by
  obtain ⟨before, after, rfl⟩ := List.append_of_mem hmem
  rw [rangeLoop, List.foldl_append]
  refine rangeLoop_inv P hbody ?_ after
  simp only [hk]
  exact hnew _

end GoMap

end Awl
