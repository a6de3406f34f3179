import Awl.DnsServer

/-!
The two maps of the resolver agree: names lead to addresses in any letter case, and an address
leads back to the shortest of its names.

Both are filled in one pass over a map in no particular order. The names written to the first are
apart; in the second a name gives way to a shorter one.
-/

namespace Awl

open Text

namespace Dns

/-- `strings.ToLower` on ASCII characters. -/
def LowersAscii (env : Env) : Prop := ∀ c : Char, c.toNat < 128 → env.toLower c = c.toLower

lemma lower_of_ascii {env : Env} (henv : LowersAscii env) {x : String} (hx : Ascii x) :
    env.lower x = String.ofList (x.toList.map Char.toLower) := by
  rw [Env.lower]
  exact congrArg String.ofList (List.map_congr_left fun c hc => henv c (hx c hc))

/-- For ASCII names, to be found as a key is to be the key in some letter case. -/
lemma lower_eq_zoneName_iff {env : Env} (henv : LowersAscii env) {hostname : String}
    (hhost : Ascii hostname) (key : String) :
    env.lower hostname = zoneName key ↔ SameLetters hostname (key ++ ".awl.") := by
  rw [lower_of_ascii henv hhost, zoneName_eq, SameLetters]
  exact ⟨fun h => String.ofList_injective h, congrArg String.ofList⟩

lemma ascii_zone {key : String} (h : Ascii key) : Ascii (key ++ ".awl.") := by
  intro c hc
  rw [String.toList_append, List.mem_append] at hc
  rcases hc with hc | hc
  · exact h c hc
  · have hzone : Ascii ".awl." := ascii_of_all (by decide)
    exact hzone c hc

/-! ### Shortest names -/

/-- What the second map has become when the names `done` have been visited. -/
structure Shortest (namesMapping : GoMap String String) (done : List String)
    (reverseMapping : GoMap String String) : Prop where
  named : ∀ ⦃ip name⦄, reverseMapping.lookup ip = some name →
    ∃ key ∈ done, namesMapping.lookup key = some ip ∧ name = zoneName key
  least : ∀ key ∈ done, ∀ ip, namesMapping.lookup key = some ip →
    ∃ name, reverseMapping.lookup ip = some name ∧
      name.utf8ByteSize ≤ (zoneName key).utf8ByteSize

/-- The name under which an address is filed when another one comes. -/
lemma receiveName_reverse (mappings : GoMap String String × GoMap String String)
    (key ip ip' : String) :
    (receiveName mappings key ip).2.lookup ip' =
      if ip' = ip ∧ ∀ existed ∈ mappings.2.lookup ip,
          (zoneName key).utf8ByteSize < existed.utf8ByteSize then some (zoneName key)
      else mappings.2.lookup ip' := by
  simp only [receiveName]
  rcases hold : mappings.2.lookup ip with _ | existed
  · simp only [Option.not_mem_none, false_implies, implies_true, and_true]
    exact GoMap.lookup_insert_ite _ _ _ _
  · simp only [Option.mem_some_iff, forall_eq']
    by_cases hlt : (zoneName key).utf8ByteSize < existed.utf8ByteSize
    · simp only [hlt, if_true, and_true]
      exact GoMap.lookup_insert_ite _ _ _ _
    · simp only [hlt, if_false, and_false]

variable {namesMapping : GoMap String String}

/-- One name more. -/
lemma Shortest.receive {done : List String} {mappings : GoMap String String × GoMap String String}
    (h : Shortest namesMapping done mappings.2) {key ip : String}
    (hkey : namesMapping.lookup key = some ip) :
    Shortest namesMapping (done ++ [key]) (receiveName mappings key ip).2 := by
  refine ⟨fun ip' name hname => ?_, fun key' hkey' ip' hip' => ?_⟩
  · rw [receiveName_reverse] at hname
    split_ifs at hname with hnew
    · obtain rfl := Option.some.inj hname
      exact ⟨key, List.mem_append_right _ (List.mem_singleton_self _), hnew.1 ▸ hkey, rfl⟩
    · obtain ⟨key', hdone, hrest⟩ := h.named hname
      exact ⟨key', List.mem_append_left _ hdone, hrest⟩
  · rw [receiveName_reverse]
    rcases List.mem_append.1 hkey' with hdone | hlast
    · obtain ⟨name, hname, hle⟩ := h.least key' hdone ip' hip'
      split_ifs with hnew
      · -- the name that gives way was short enough already
        have hlt := hnew.2 name (hnew.1 ▸ hname)
        exact ⟨zoneName key, rfl, by omega⟩
      · exact ⟨name, hname, hle⟩
    · rw [List.mem_singleton.1 hlast] at hip' ⊢
      obtain rfl : ip' = ip := Option.some.inj (hip'.symm.trans hkey)
      split_ifs with hnew
      · exact ⟨zoneName key, rfl, le_rfl⟩
      · push Not at hnew
        obtain ⟨existed, hexisted, hle⟩ := hnew rfl
        exact ⟨existed, hexisted, hle⟩

/-- **The second map** has the shortest name of every address, whatever the order. -/
lemma shortest_receiveConfiguration (namesMapping : GoMap String String) (upstreamDNS : String)
    (ns : List String) :
    Shortest namesMapping ns (receiveConfiguration upstreamDNS namesMapping ns).reverseMapping := by
  rw [receiveConfiguration]
  -- names that are not in the map are not visited
  induction ns using List.reverseRecOn with
  | nil =>
    refine ⟨fun ip name hname => ?_, fun key hkey => absurd hkey List.not_mem_nil⟩
    rw [GoMap.rangeLoop_nil, Finmap.lookup_empty] at hname
    cases hname
  | append_singleton ns n ih =>
    rw [GoMap.rangeLoop, List.foldl_append, List.foldl_cons, List.foldl_nil]
    rcases hn : namesMapping.lookup n with _ | ip
    · refine ⟨fun ip name hname => ?_, fun key hkey ip hip => ?_⟩
      · obtain ⟨key, hdone, hrest⟩ := ih.named hname
        exact ⟨key, List.mem_append_left _ hdone, hrest⟩
      · rcases List.mem_append.1 hkey with hdone | hlast
        · exact ih.least key hdone ip hip
        · rw [List.mem_singleton.1 hlast, hn] at hip
          cases hip
    · exact ih.receive hn

/-! ### Both maps -/

/-- The maps of the resolver say the same as the names they were made of. -/
structure Consistent (env : Env) (namesMapping : GoMap String String) (cfg : ResolverConfig) :
    Prop where
  /-- a key is found in any letter case -/
  spelled : ∀ ⦃key ip hostname⦄, namesMapping.lookup key = some ip →
    SameLetters hostname (key ++ ".awl.") → cfg.lookupHost env hostname = some ip
  /-- what is found is a key in some letter case -/
  only : ∀ ⦃hostname ip⦄, cfg.lookupHost env hostname = some ip →
    ∃ key, namesMapping.lookup key = some ip ∧ env.lower hostname = zoneName key ∧
      (Ascii hostname → SameLetters hostname (key ++ ".awl."))
  /-- an address leads back to the shortest of its names -/
  reverse : ∀ ⦃key ip⦄, namesMapping.lookup key = some ip →
    ∃ shortest, namesMapping.lookup shortest = some ip ∧
      cfg.reverseMapping.lookup ip = some (zoneName shortest) ∧
      (∀ key', namesMapping.lookup key' = some ip →
        (zoneName shortest).utf8ByteSize ≤ (zoneName key').utf8ByteSize) ∧
      cfg.directMapping.lookup (zoneName shortest) = some ip

/-- **The maps are consistent**, in whatever order the names are visited, if the names are ASCII
and apart from each other in lower case. -/
theorem receiveConfiguration_consistent {env : Env} (henv : LowersAscii env)
    (hascii : ∀ key ∈ namesMapping, Ascii key)
    (hapart : ∀ key ∈ namesMapping, ∀ key' ∈ namesMapping, zoneName key = zoneName key' →
      key = key')
    (upstreamDNS : String) {ns : List String} (hns : GoMap.Ranges namesMapping ns) :
    Consistent env namesMapping (receiveConfiguration upstreamDNS namesMapping ns) := by
  have hdirect : ∀ {key ip}, namesMapping.lookup key = some ip →
      (receiveConfiguration upstreamDNS namesMapping ns).directMapping.lookup (zoneName key) =
        some ip := by
    intro key ip hkey
    rw [directMapping_eq]
    refine GoMap.build_lookup (fun n hn => (hns.2 n).2 hn) (fun key' ip' w hkey' hw => ?_)
      ⟨key, ip, ip, hkey, List.mem_singleton_self _⟩
    obtain ⟨hzone, rfl⟩ := Prod.mk.inj (List.mem_singleton.1 hw)
    have hsame := hapart key (Finmap.mem_of_lookup_eq_some hkey) key'
      (Finmap.mem_of_lookup_eq_some hkey') hzone
    rw [← hsame, hkey] at hkey'
    exact (Option.some.inj hkey').symm
  refine ⟨fun key ip hostname hkey hspelled => ?_, fun hostname ip hfound => ?_,
    fun key ip hkey => ?_⟩
  · have hzone := ascii_zone (hascii key (Finmap.mem_of_lookup_eq_some hkey))
    have hlower := (lower_eq_zoneName_iff henv (hspelled.ascii hzone) key).2 hspelled
    rw [ResolverConfig.lookupHost, hlower]
    exact hdirect hkey
  · rw [ResolverConfig.lookupHost, directMapping_eq] at hfound
    obtain ⟨key, ip', hkey, hentry⟩ := GoMap.mem_of_build hfound
    obtain ⟨hlower, rfl⟩ := Prod.mk.inj (List.mem_singleton.1 hentry)
    exact ⟨key, hkey, hlower, fun hhost => (lower_eq_zoneName_iff henv hhost key).1 hlower⟩
  · have hshortest := shortest_receiveConfiguration namesMapping upstreamDNS ns
    have hvisited : ∀ {key ip}, namesMapping.lookup key = some ip → key ∈ ns :=
      fun hl => (hns.2 _).2 (Finmap.mem_of_lookup_eq_some hl)
    obtain ⟨name, hname, -⟩ := hshortest.least key (hvisited hkey) ip hkey
    obtain ⟨shortest, -, hip, rfl⟩ := hshortest.named hname
    refine ⟨shortest, hip, hname, fun key' hkey' => ?_, hdirect hip⟩
    obtain ⟨name', hname', hle⟩ := hshortest.least key' (hvisited hkey') ip hkey'
    rw [hname] at hname'
    rwa [← Option.some.inj hname'] at hle

/-- Two names for one address, as the resolver gets them for a peer. -/
def officeNames : GoMap String String :=
  ((∅ : GoMap String String).insert "12D3KooWGRjp" "10.66.0.2").insert "office" "10.66.0.2"

lemma mem_officeNames {key : String} (h : key ∈ officeNames) :
    key = "office" ∨ key = "12D3KooWGRjp" := by
  rw [officeNames, Finmap.mem_insert, Finmap.mem_insert] at h
  rcases h with h | h | h
  · exact Or.inl h
  · exact Or.inr h
  · exact absurd h Finmap.notMem_empty

theorem officeNames_consistent :
    Consistent sampleEnv officeNames
        (receiveConfiguration "1.1.1.1:53" officeNames ["12D3KooWGRjp", "office"]) ∧
      (receiveConfiguration "1.1.1.1:53" officeNames
        ["12D3KooWGRjp", "office"]).reverseMapping.lookup "10.66.0.2" = some "office.awl." := by
  refine ⟨receiveConfiguration_consistent (fun c _ => rfl) (fun key hkey => ?_)
    (fun key hkey key' hkey' hzone => ?_) _ (by decide), by decide⟩
  · rcases mem_officeNames hkey with rfl | rfl
    · exact ascii_of_all (by decide)
    · exact ascii_of_all (by decide)
  · rcases mem_officeNames hkey with rfl | rfl <;> rcases mem_officeNames hkey' with rfl | rfl
    · rfl
    · exact absurd hzone (by decide)
    · exact absurd hzone (by decide)
    · rfl

end Dns

end Awl
