import Awl.Config
import Mathlib.Data.Finset.Card

/-!
The aliases that are generated: never empty and never taken. Nothing in the loop that looks for a
suffix bounds it; it ends because different numbers make different suffixes.
-/

namespace Awl

open Text BootstrapPeer

lemma Text.suffixed_injective (s : String) : Function.Injective (suffixed s) := by
  intro i j h
  have hrepr : Nat.repr i = Nat.repr j := (String.append_right_inj _).mp h
  have hdigits : Nat.toDigits 10 i = Nat.toDigits 10 j := String.ofList_injective hrepr
  -- the digits can be read back
  rw [← Nat.ofDigitChars_toDigits (b := 10) (n := i) (by decide) (by decide), hdigits,
    Nat.ofDigitChars_toDigits (by decide) (by decide)]

lemma Text.suffixed_ne_empty (s : String) (i : ℕ) : suffixed s i ≠ "" := by
  intro h
  have hlen := congrArg String.length h
  simp only [suffixed, String.length_append] at hlen
  have hone : "_".length = 1 := rfl
  have hzero : "".length = 0 := rfl
  omega

namespace Config

variable (taken : Finset String) (wanted : String)

/-- One of `card + 1` suffixes is free, and there is a first one. -/
lemma exists_first_free : ∃ i ≤ taken.card, suffixed wanted i ∉ taken ∧
    ∀ j < i, suffixed wanted j ∈ taken := by
  have hsome : ∃ i ≤ taken.card, suffixed wanted i ∉ taken := by
    by_contra hnone
    push Not at hnone
    have hsub : (Finset.range (taken.card + 1)).image (suffixed wanted) ⊆ taken := by
      intro b hb
      obtain ⟨j, hj, rfl⟩ := Finset.mem_image.mp hb
      exact hnone j (Nat.le_of_lt_succ (Finset.mem_range.mp hj))
    have hcard := Finset.card_le_card hsub
    rw [Finset.card_image_of_injective _ (suffixed_injective _), Finset.card_range] at hcard
    omega
  obtain ⟨i, hi, hfree⟩ := hsome
  have hex : ∃ i, suffixed wanted i ∉ taken := ⟨i, hfree⟩
  refine ⟨Nat.find hex, (Nat.find_min' hex hfree).trans hi, Nat.find_spec hex, fun j hj => ?_⟩
  exact not_not.mp (Nat.find_min hex hj)

variable {taken wanted}

/-- The loop stops at the first suffix that is free. -/
lemma suffixLoop_of_first {n : ℕ} (hfree : suffixed wanted n ∉ taken) :
    ∀ (fuel i : ℕ), i ≤ n → n < i + fuel → (∀ j < n, suffixed wanted j ∈ taken) →
      suffixLoop taken wanted fuel i = some (suffixed wanted n) := by
  intro fuel
  induction fuel with
  | zero => intro i hi hn; omega
  | succ fuel ih =>
    intro i hi hn hall
    rw [suffixLoop]
    rcases hi.eq_or_lt with rfl | hlt
    · rw [if_neg hfree]
    · rw [if_pos (hall i hlt)]
      exact ih (i + 1) hlt (by omega) hall

/-- What is asked for: the alias, else the name, else the default. -/
def requestedAlias (name peerAlias : String) : String :=
  if peerAlias = "" then (if name = "" then "peer" else name) else peerAlias

lemma requestedAlias_ne_empty (name peerAlias : String) : requestedAlias name peerAlias ≠ "" := by
  rw [requestedAlias]
  split_ifs with halias hname
  · decide
  · exact hname
  · exact halias

lemma genUniqPeerAlias_of_free {name peerAlias : String}
    (h : requestedAlias name peerAlias ∉ taken) :
    (genUniqPeerAlias taken name peerAlias).1 = requestedAlias name peerAlias := if_neg h

lemma genUniqPeerAlias_of_taken {name peerAlias : String} {n : ℕ}
    (h : requestedAlias name peerAlias ∈ taken) (hn : n ≤ taken.card)
    (hfree : suffixed (requestedAlias name peerAlias) n ∉ taken)
    (hall : ∀ j < n, suffixed (requestedAlias name peerAlias) j ∈ taken) :
    (genUniqPeerAlias taken name peerAlias).1 = suffixed (requestedAlias name peerAlias) n := by
  have hgen : (genUniqPeerAlias taken name peerAlias).1 =
      (suffixLoop taken (requestedAlias name peerAlias) (taken.card + 1) 0).getD
        (requestedAlias name peerAlias) := if_pos h
  rw [hgen, suffixLoop_of_first hfree _ 0 (Nat.zero_le n) (by omega) hall, Option.getD_some]

/-- **A generated alias is free, and not empty.** -/
lemma genUniqPeerAlias_spec (taken : Finset String) (name peerAlias : String) :
    (genUniqPeerAlias taken name peerAlias).1 ∉ taken ∧
      (genUniqPeerAlias taken name peerAlias).1 ≠ "" := by
  by_cases h : requestedAlias name peerAlias ∈ taken
  · obtain ⟨n, hn, hfree, hall⟩ := exists_first_free taken (requestedAlias name peerAlias)
    rw [genUniqPeerAlias_of_taken h hn hfree hall]
    exact ⟨hfree, suffixed_ne_empty _ _⟩
  · rw [genUniqPeerAlias_of_free h]
    exact ⟨h, requestedAlias_ne_empty _ _⟩

lemma mem_aliases {c : Config} {a : String} :
    a ∈ c.aliases ↔ ∃ k kp, c.knownPeers.lookup k = some kp ∧ kp.peerAlias = a := by
  simp only [aliases, Multiset.mem_toFinset, Multiset.mem_map]
  constructor
  · rintro ⟨⟨k, kp⟩, he, rfl⟩
    exact ⟨k, kp, GoMap.mem_entries.mp he, rfl⟩
  · rintro ⟨k, kp, hk, rfl⟩
    exact ⟨⟨k, kp⟩, GoMap.mem_entries.mpr hk, rfl⟩

/-- The check of an alias: only the peer that it is asked for may have it. -/
lemma isUniqPeerAlias_iff {c : Config} {excludePeerID peerAlias : String} :
    c.isUniqPeerAlias excludePeerID peerAlias = true ↔
      ∀ k kp, c.knownPeers.lookup k = some kp →
        kp.peerID = excludePeerID ∨ kp.peerAlias ≠ peerAlias := by
  rw [isUniqPeerAlias, decide_eq_true_iff]
  constructor
  · exact fun h k kp hk => h ⟨k, kp⟩ (GoMap.mem_entries.mpr hk)
  · exact fun h e he => h e.1 e.2 (GoMap.mem_entries.mp he)

/-! ### The alias for a given set, or for the known peers -/

/-- The loop over the known peers, in the order `ks`. -/
def collectAliases (c : Config) (ks : List String) : Finset String :=
  c.knownPeers.rangeLoop (fun uniqAliases _ kPeer => insert kPeer.peerAlias uniqAliases) ∅ ks

/-- The order does not matter. -/
lemma collectAliases_eq {c : Config} {ks : List String} (hks : GoMap.Ranges c.knownPeers ks) :
    c.collectAliases ks = c.aliases := by
  have hloop : ∀ (ks : List String) (s : Finset String) (a : String),
      a ∈ c.knownPeers.rangeLoop (fun uniqAliases _ kPeer => insert kPeer.peerAlias uniqAliases)
        s ks ↔ a ∈ s ∨ ∃ k ∈ ks, ∃ kp, c.knownPeers.lookup k = some kp ∧ kp.peerAlias = a := by
    intro ks
    induction ks with
    | nil => simp
    | cons k ks ih =>
      intro s a
      rw [GoMap.rangeLoop_cons, ih]
      rcases hk : c.knownPeers.lookup k with _ | kp
      · simp [hk]
      · simp [hk, or_assoc, or_left_comm, eq_comm]
  ext a
  rw [collectAliases, hloop, mem_aliases]
  constructor
  · rintro (hempty | ⟨k, -, kp, hk, ha⟩)
    · exact absurd hempty (Finset.notMem_empty a)
    · exact ⟨k, kp, hk, ha⟩
  · rintro ⟨k, kp, hk, ha⟩
    exact Or.inr ⟨k, (hks.2 k).2 (Finmap.mem_of_lookup_eq_some hk), kp, hk, ha⟩

/-- `genUniqPeerAlias`; without a set it takes the aliases of the known peers. -/
def genUniqPeerAliasBy (c : Config) (ks : List String) (name peerAlias : String)
    (uniqAliases : Option (Finset String)) : String × Finset String :=
  genUniqPeerAlias (uniqAliases.getD (c.collectAliases ks)) name peerAlias

/-- The alias that is generated when `wanted` is asked for, with the set that is left. -/
structure FreshAlias (taken : Finset String) (wanted : String) (result : String × Finset String) :
    Prop where
  /-- the loop, which runs if what is asked for is taken, ends after `card + 1` rounds at most -/
  stops : wanted ∈ taken → ∀ fuel, taken.card + 1 ≤ fuel →
    suffixLoop taken wanted fuel 0 = some result.1
  ne_empty : result.1 ≠ ""
  free : result.1 ∉ taken
  asked : wanted ∉ taken → result.1 = wanted
  first : wanted ∈ taken → ∃ i, result.1 = suffixed wanted i ∧ suffixed wanted i ∉ taken ∧
    ∀ j < i, suffixed wanted j ∈ taken
  added : result.2 = insert result.1 taken

/-- **The alias that is generated is fresh.** -/
theorem genUniqPeerAliasBy_fresh {c : Config} {ks : List String}
    (hks : GoMap.Ranges c.knownPeers ks) (uniqAliases : Option (Finset String))
    (name peerAlias : String) :
    FreshAlias (uniqAliases.getD c.aliases) (requestedAlias name peerAlias)
      (c.genUniqPeerAliasBy ks name peerAlias uniqAliases) := by
  rw [genUniqPeerAliasBy, collectAliases_eq hks]
  set taken := uniqAliases.getD c.aliases
  obtain ⟨n, hn, hfree, hall⟩ := exists_first_free taken (requestedAlias name peerAlias)
  obtain ⟨hnew, hne⟩ := genUniqPeerAlias_spec taken name peerAlias
  refine ⟨fun h fuel hfuel => ?_, hne, hnew, genUniqPeerAlias_of_free, fun h => ?_, rfl⟩
  · rw [genUniqPeerAlias_of_taken h hn hfree hall]
    exact suffixLoop_of_first hfree fuel 0 (Nat.zero_le n) (by omega) hall
  · exact ⟨n, genUniqPeerAlias_of_taken h hn hfree hall, hfree, hall⟩

/-- Two aliases are taken, one of which looks like a suffixed one. -/
theorem suffixedTaken_fresh :
    FreshAlias {"bob", "bob_0"} "bob"
      ((conf [(.rus2, "10.66.0.2")]).genUniqPeerAliasBy [BootstrapPeer.rus2.text] "bob" ""
        (some {"bob", "bob_0"})) :=
  genUniqPeerAliasBy_fresh (by decide) (some {"bob", "bob_0"}) "bob" ""

end Config

end Awl
