import Awl.Aliases
import Awl.Alloc
import Awl.Defaults

/-!
Loading a configuration, as a repair: the loop of `setDefaults` gives every known peer an alias
of its own, an address and a domain name, and changes nothing where nothing is missing.
-/

namespace Awl

/-- Nothing is missing in the record. -/
structure KnownPeer.Complete (env : Env) (kp : KnownPeer) : Prop where
  peerAlias : kp.peerAlias ≠ ""
  ipAddr : kp.ipAddr ≠ ""
  domainName : kp.domainName = "" → env.trimDomainName kp.displayName = ""

namespace Config

/-- No two known peers have the same alias. -/
def DistinctAliases (c : Config) : Prop :=
  ∀ ⦃k k' : String⦄ ⦃kp kp' : KnownPeer⦄, c.knownPeers.lookup k = some kp →
    c.knownPeers.lookup k' = some kp' → kp.peerAlias = kp'.peerAlias → k = k'

section

variable {c c' : Config}

lemma DistinctAliases.mono (h : c.DistinctAliases)
    (hsub : ∀ ⦃k kp⦄, c'.knownPeers.lookup k = some kp → c.knownPeers.lookup k = some kp) :
    c'.DistinctAliases :=
  fun _ _ _ _ hk hk' => h (hsub hk) (hsub hk')

/-- A record is written under the key `key`. -/
lemma DistinctAliases.insert_iff (h : c.DistinctAliases) (key : String) (peer : KnownPeer)
    (hk : c'.knownPeers = c.knownPeers.insert key peer) :
    c'.DistinctAliases ↔ ∀ k kp, k ≠ key → c.knownPeers.lookup k = some kp →
      kp.peerAlias ≠ peer.peerAlias := by
  have hinsert : GoMap.DistinctOn KnownPeer.peerAlias (c.knownPeers.insert key peer) ↔ _ :=
    GoMap.DistinctOn.insert_iff h key peer
  rw [DistinctAliases, hk]
  exact hinsert

end

/-- Nothing is missing in the records, and the aliases are distinct. -/
structure Complete (env : Env) (c : Config) : Prop where
  records : ∀ {k kp}, c.knownPeers.lookup k = some kp → kp.Complete env
  distinct : c.DistinctAliases

variable {env : Env} {c : Config} {ks : List String}

lemma generateNextIpAddr_ne_empty (c : Config) : c.generateNextIpAddr ≠ "" :=
  NetIP.dotted_ne_empty _ _ _ _

lemma defaultPeer_complete (env : Env) (c : Config) (taken : Finset String) (kp : KnownPeer) :
    (c.defaultPeer env taken kp).1.Complete env := by
  refine ⟨(genUniqPeerAlias_spec taken kp.name kp.peerAlias).2, ?_, ?_⟩
  · simp only [defaultPeer]
    split_ifs with h
    · exact generateNextIpAddr_ne_empty c
    · exact h
  · by_cases h : kp.domainName = ""
    · simp only [defaultPeer, KnownPeer.displayName, h, if_true, imp_self]
    · simp only [defaultPeer, h, if_false, false_implies]

/-- A record with nothing missing and an alias that is free is left as it is. -/
lemma defaultPeer_of_complete {kp : KnownPeer} {taken : Finset String} (h : kp.Complete env)
    (hfree : kp.peerAlias ∉ taken) :
    c.defaultPeer env taken kp = (kp, insert kp.peerAlias taken) := by
  have hgen : genUniqPeerAlias taken kp.name kp.peerAlias =
      (kp.peerAlias, insert kp.peerAlias taken) := by
    simp [genUniqPeerAlias, h.peerAlias, hfree]
  have hdomain : (if kp.domainName = "" then env.trimDomainName kp.displayName
      else kp.domainName) = kp.domainName := by
    split_ifs with hd
    · rw [hd, h.domainName hd]
    · rfl
  simp only [defaultPeer, hgen, h.ipAddr, if_false]
  rw [show ({ kp with } : KnownPeer) = kp from rfl, hdomain]

/-! ### The loop, peer by peer -/

lemma visitPeer_some {s : Config × Finset String} {k : String} {kp : KnownPeer}
    (h : s.1.knownPeers.lookup k = some kp) :
    visitPeer env s k =
      ({ s.1 with
          knownPeers := s.1.knownPeers.insert k (s.1.defaultPeer env s.2 kp).1 },
        (s.1.defaultPeer env s.2 kp).2) := by
  simp only [visitPeer, h]

lemma visitPeer_none {s : Config × Finset String} {k : String}
    (h : s.1.knownPeers.lookup k = none) : visitPeer env s k = s := by
  simp only [visitPeer, h]

/-- The peers of `done` have been repaired, and their aliases are taken. -/
structure Repaired (env : Env) (done : List String) (s : Config × Finset String) : Prop where
  complete : ∀ {k kp}, k ∈ done → s.1.knownPeers.lookup k = some kp → kp.Complete env
  taken : ∀ {k kp}, k ∈ done → s.1.knownPeers.lookup k = some kp → kp.peerAlias ∈ s.2
  distinct : ∀ {k k' kp kp'}, k ∈ done → k' ∈ done → s.1.knownPeers.lookup k = some kp →
    s.1.knownPeers.lookup k' = some kp' → kp.peerAlias = kp'.peerAlias → k = k'

lemma Repaired.visit {done : List String} {s : Config × Finset String} {k : String}
    (h : Repaired env done s) : Repaired env (done ++ [k]) (visitPeer env s k) := by
  rcases hl : s.1.knownPeers.lookup k with _ | kp
  · rw [visitPeer_none hl]
    have hmem : ∀ {k' kp'}, k' ∈ done ++ [k] → s.1.knownPeers.lookup k' = some kp' →
        k' ∈ done := by
      intro k' kp' hk' hl'
      rcases List.mem_append.mp hk' with hk' | hk'
      · exact hk'
      · rw [List.mem_singleton.mp hk', hl] at hl'
        cases hl'
    exact ⟨fun h1 h2 => h.complete (hmem h1 h2) h2, fun h1 h2 => h.taken (hmem h1 h2) h2,
      fun h1 h2 h3 h4 => h.distinct (hmem h1 h3) (hmem h2 h4) h3 h4⟩
  · rw [visitPeer_some hl]
    set kp' := (s.1.defaultPeer env s.2 kp).1 with hkp'
    have hset : (s.1.defaultPeer env s.2 kp).2 = insert kp'.peerAlias s.2 := rfl
    have hfree : kp'.peerAlias ∉ s.2 := (genUniqPeerAlias_spec s.2 kp.name kp.peerAlias).1
    -- a peer of the longer list is the one visited now, or one of before
    have hcases : ∀ {j kpj}, j ∈ done ++ [k] →
        (s.1.knownPeers.insert k kp').lookup j = some kpj →
        j = k ∧ kpj = kp' ∨ j ∈ done ∧ s.1.knownPeers.lookup j = some kpj := by
      intro j kpj hj hlj
      rw [GoMap.lookup_insert_ite] at hlj
      split_ifs at hlj with he
      · exact Or.inl ⟨he, (Option.some.inj hlj).symm⟩
      · refine Or.inr ⟨?_, hlj⟩
        simpa [he] using hj
    refine ⟨fun hj hlj => ?_, fun hj hlj => ?_, fun hj hj' hlj hlj' he => ?_⟩
    · rcases hcases hj hlj with ⟨-, rfl⟩ | ⟨hj, hlj⟩
      · exact defaultPeer_complete env s.1 s.2 kp
      · exact h.complete hj hlj
    · rw [hset]
      rcases hcases hj hlj with ⟨-, rfl⟩ | ⟨hj, hlj⟩
      · exact Finset.mem_insert_self _ _
      · exact Finset.mem_insert_of_mem (h.taken hj hlj)
    · rcases hcases hj hlj with ⟨hk₁, hp₁⟩ | ⟨hj₁, hl₁⟩ <;>
        rcases hcases hj' hlj' with ⟨hk₂, hp₂⟩ | ⟨hj₂, hl₂⟩
      · rw [hk₁, hk₂]
      · exact absurd (h.taken hj₂ hl₂) (he ▸ hp₁ ▸ hfree)
      · exact absurd (h.taken hj₁ hl₁) (he ▸ hp₂ ▸ hfree)
      · exact h.distinct hj₁ hj₂ hl₁ hl₂ he

lemma repaired_loop (env : Env) (ks : List String) (c : Config) :
    Repaired env ks (ks.foldl (visitPeer env) (c, ∅)) := by
  induction ks using List.reverseRecOn with
  | nil => exact ⟨fun h _ => by simp at h, fun h _ => by simp at h, fun h => by simp at h⟩
  | append_singleton ks k ih =>
    rw [List.foldl_append]
    exact ih.visit

/-- **Loading repairs**: nothing is missing then, and the aliases are distinct. -/
theorem setDefaults_complete (env : Env) (hks : GoMap.Ranges c.knownPeers ks) :
    (c.setDefaults env ks).Complete env := by
  have h := repaired_loop env ks (c.setDefaultSettings env)
  have hmem : ∀ {k kp}, (c.setDefaults env ks).knownPeers.lookup k = some kp → k ∈ ks := by
    intro k kp hk
    rw [hks.2, ← (setDefaults_loaded env ks c).keys]
    exact Finmap.mem_of_lookup_eq_some hk
  exact ⟨fun hk => h.complete (hmem hk) hk,
    fun _ _ _ _ hk hk' he => h.distinct (hmem hk) (hmem hk') hk hk' he⟩

/-! ### Nothing to repair -/

/-- The loop over the peers `ks` of a complete configuration changes nothing. -/
lemma loop_of_complete (h : c.Complete env) (hks : ks.Nodup) :
    (ks.foldl (visitPeer env) (c, ∅)).1 = c ∧
      ∀ a ∈ (ks.foldl (visitPeer env) (c, ∅)).2, ∃ k ∈ ks, ∃ kp,
        c.knownPeers.lookup k = some kp ∧ kp.peerAlias = a := by
  induction ks using List.reverseRecOn with
  | nil => exact ⟨rfl, fun a ha => absurd ha (Finset.notMem_empty a)⟩
  | append_singleton ks k ih =>
    have hnodup := List.nodup_append.mp hks
    obtain ⟨hconf, htaken⟩ := ih hnodup.1
    rw [List.foldl_append, List.foldl_cons, List.foldl_nil]
    rcases hk : c.knownPeers.lookup k with _ | kp
    · rw [visitPeer_none (by rw [hconf, hk])]
      refine ⟨hconf, fun a ha => ?_⟩
      obtain ⟨k', hk', hrest⟩ := htaken a ha
      exact ⟨k', List.mem_append_left _ hk', hrest⟩
    · have hfree : kp.peerAlias ∉ (ks.foldl (visitPeer env) (c, ∅)).2 := by
        intro ha
        obtain ⟨k', hk', kp', hl', he⟩ := htaken _ ha
        refine hnodup.2.2 k' hk' k (List.mem_singleton_self k) ?_
        exact h.distinct hl' hk he
      rw [visitPeer_some (by rw [hconf, hk]), hconf,
        defaultPeer_of_complete (h.records hk) hfree, GoMap.insert_of_lookup hk]
      refine ⟨rfl, fun a ha => ?_⟩
      rcases Finset.mem_insert.mp ha with rfl | ha
      · exact ⟨k, List.mem_append_right _ (List.mem_singleton_self k), kp, hk, rfl⟩
      · obtain ⟨k', hk', hrest⟩ := htaken a ha
        exact ⟨k', List.mem_append_left _ hk', hrest⟩

/-- **Where nothing is missing**, loading leaves the known peers as they are. -/
theorem setDefaults_of_complete (h : c.Complete env) (hks : GoMap.Ranges c.knownPeers ks) :
    (c.setDefaults env ks).knownPeers = c.knownPeers := by
  have hset : (c.setDefaultSettings env).Complete env := ⟨h.records, h.distinct⟩
  rw [setDefaults, (loop_of_complete hset hks.1).1]
  rfl

/-! ### The other settings -/

lemma visitPeer_rest (env : Env) (s : Config × Finset String) (k : String) :
    (visitPeer env s k).1 = { s.1 with knownPeers := (visitPeer env s k).1.knownPeers } := by
  rcases h : s.1.knownPeers.lookup k with _ | kp
  · rw [visitPeer_none h]
  · rw [visitPeer_some h]

/-- The loop writes to the known peers only. -/
lemma setDefaults_rest (env : Env) (ks : List String) (c : Config) :
    c.setDefaults env ks =
      { c.setDefaultSettings env with knownPeers := (c.setDefaults env ks).knownPeers } := by
  have hloop : ∀ s : Config × Finset String, (ks.foldl (visitPeer env) s).1 =
      { s.1 with knownPeers := (ks.foldl (visitPeer env) s).1.knownPeers } := by
    induction ks with
    | nil => exact fun s => rfl
    | cons k ks ih =>
      intro s
      have hrest := ih (visitPeer env s k)
      rw [visitPeer_rest] at hrest
      exact hrest
  exact hloop _

lemma setDefaults_settings (env : Env) (ks : List String) (c : Config) :
    (c.setDefaults env ks).blockedPeers = c.blockedPeers ∧
      (c.setDefaults env ks).p2pNode.name = c.p2pNode.name ∧
      (c.setDefaults env ks).socks5.usingPeerID = c.socks5.usingPeerID := by
  rw [setDefaults_rest]
  refine ⟨rfl, rfl, ?_⟩
  simp only [setDefaultSettings]
  split_ifs <;> rfl

end Config

end Awl
