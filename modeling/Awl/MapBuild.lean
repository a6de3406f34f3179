import Awl.GoMap

/-!
Maps that a `range` loop fills. Where several entries are written under one key, the last one
stays; so what is found does not depend on the order exactly if all that is written under the
key is the same.
-/

namespace Awl

namespace GoMap

variable {K V K' V' : Type} [DecidableEq K] [DecidableEq K']

/-- Some entries are written, one after the other. -/
def insertAll (m : GoMap K' V') (es : List (K' × V')) : GoMap K' V' :=
  es.foldl (fun m e => m.insert e.1 e.2) m

/-- What is found was there or has been written. -/
lemma mem_of_insertAll {x : K'} {w : V'} (es : List (K' × V')) : ∀ {m : GoMap K' V'},
    (m.insertAll es).lookup x = some w → (x, w) ∈ es ∨ m.lookup x = some w := by
  induction es with
  | nil => exact fun h => Or.inr h
  | cons e es ih =>
    intro m h
    rcases ih h with h | h
    · exact Or.inl (List.mem_cons_of_mem _ h)
    · rw [lookup_insert_ite] at h
      split_ifs at h with he
      · cases h
        exact Or.inl (he ▸ List.mem_cons_self)
      · exact Or.inr h

lemma mem_insertAll {x : K'} (es : List (K' × V')) : ∀ {m : GoMap K' V'},
    x ∈ m.insertAll es ↔ x ∈ m ∨ ∃ w, (x, w) ∈ es := by
  induction es with
  | nil => simp [insertAll]
  | cons e es ih =>
    intro m
    have hstep : m.insertAll (e :: es) = insertAll (m.insert e.1 e.2) es := rfl
    have hhead : x = e.1 ↔ ∃ w, (x, w) = e := by
      constructor
      · rintro rfl
        exact ⟨e.2, rfl⟩
      · rintro ⟨w, rfl⟩
        rfl
    simp only [hstep, ih, Finmap.mem_insert, hhead, List.mem_cons, exists_or]
    tauto

/-- The map that a loop over `m` fills with the entries of each element. -/
def build (m : GoMap K V) (entries : K → V → List (K' × V')) (ks : List K) : GoMap K' V' :=
  m.rangeLoop (fun acc k v => acc.insertAll (entries k v)) ∅ ks

variable {m : GoMap K V} {entries : K → V → List (K' × V')} {ks : List K} {x : K'}

lemma mem_of_build {w : V'} (h : (m.build entries ks).lookup x = some w) :
    ∃ k v, m.lookup k = some v ∧ (x, w) ∈ entries k v := by
  revert w
  refine rangeLoop_inv (fun acc : GoMap K' V' => ∀ {w}, acc.lookup x = some w →
    ∃ k v, m.lookup k = some v ∧ (x, w) ∈ entries k v)
    (fun acc k v hk hacc w hw => ?_) (fun hw => ?_) ks
  · rcases mem_of_insertAll _ hw with hw | hw
    · exact ⟨k, v, hk, hw⟩
    · exact hacc hw
  · rw [Finmap.lookup_empty] at hw
    cases hw

/-- The last element visited. -/
lemma build_snoc (m : GoMap K V) (entries : K → V → List (K' × V')) (ks : List K) {k : K} {v : V}
    (hk : m.lookup k = some v) :
    m.build entries (ks ++ [k]) = (m.build entries ks).insertAll (entries k v) := by
  rw [build, rangeLoop, List.foldl_append, List.foldl_cons, List.foldl_nil]
  simp only [hk]
  rfl

lemma build_snoc_none (m : GoMap K V) (entries : K → V → List (K' × V')) (ks : List K) {k : K}
    (hk : m.lookup k = none) : m.build entries (ks ++ [k]) = m.build entries ks := by
  rw [build, rangeLoop, List.foldl_append, List.foldl_cons, List.foldl_nil]
  simp only [hk]
  rfl

/-- Whatever is written last, something is found. -/
lemma mem_build_of_mem {k : K} {v : V} {w : V'} (hmem : k ∈ ks) (hk : m.lookup k = some v)
    (hw : (x, w) ∈ entries k v) : x ∈ m.build entries ks := by
  induction ks using List.reverseRecOn with
  | nil => cases hmem
  | append_singleton ks k' ih =>
    rcases hk' : m.lookup k' with _ | v'
    · rw [build_snoc_none m entries ks hk']
      rcases List.mem_append.mp hmem with hmem | hmem
      · exact ih hmem
      · rw [List.mem_singleton.mp hmem, hk'] at hk
        cases hk
    · rw [build_snoc m entries ks hk', mem_insertAll]
      rcases List.mem_append.mp hmem with hmem | hmem
      · exact Or.inl (ih hmem)
      · rw [List.mem_singleton.mp hmem, hk'] at hk
        cases hk
        rw [List.mem_singleton.mp hmem] at hw
        exact Or.inr ⟨w, hw⟩

/-- **The order does not matter** where all that is written is the same. -/
theorem build_lookup {val : V'} (hks : ∀ k, k ∈ m → k ∈ ks)
    (hall : ∀ k v w, m.lookup k = some v → (x, w) ∈ entries k v → w = val)
    (hex : ∃ k v w, m.lookup k = some v ∧ (x, w) ∈ entries k v) :
    (m.build entries ks).lookup x = some val := by
  obtain ⟨k, v, w, hk, hw⟩ := hex
  have hmem := mem_build_of_mem (hks k (Finmap.mem_of_lookup_eq_some hk)) hk hw
  obtain ⟨w', hw'⟩ := Finmap.mem_iff.1 hmem
  obtain ⟨k', v', hk', hentry⟩ := mem_of_build hw'
  rw [hw', hall k' v' w' hk' hentry]

end GoMap

end Awl
