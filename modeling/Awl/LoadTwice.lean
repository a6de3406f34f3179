import Awl.Addresses
import Awl.AllocLoop
import Awl.Reload

/-!
Loading a configuration twice. What one pass of `setDefaults` leaves, a second one leaves as it is,
in whatever orders the loops of the two visit the known peers.

A pass need not come to its end: it panics if it has to allocate an address while the loop of the
allocator comes upon an IPv6 one that passes for one of the network.
-/

namespace Awl

open NetIP

namespace Config

/-! ### The pass with its panics -/

/-- What the loop over the known peers makes of one of them; `order` is the order in which the
allocator visits them, and `none` is a panic. -/
def defaultPeerBy (env : Env) (conf : Config) (order : List String) (uniqAliases : Finset String)
    (peer : KnownPeer) : Option (KnownPeer × Finset String) := do
  let (newAlias, uniqAliases) := genUniqPeerAlias uniqAliases peer.name peer.peerAlias
  let peer := { peer with peerAlias := newAlias }
  let ipAddr ← if peer.ipAddr = "" then conf.generateNextIpAddrExceptBy order []
    else pure peer.ipAddr
  let peer := { peer with ipAddr := ipAddr }
  return ({ peer with
    domainName := if peer.domainName = "" then env.trimDomainName peer.displayName
      else peer.domainName }, uniqAliases)

/-- The body of the loop over the known peers; `order` has an order of the allocator for every peer
that is visited. -/
def visitPeerBy (env : Env) (order : String → List String)
    (s : Option (Config × Finset String)) (peerID : String) :
    Option (Config × Finset String) := do
  let (conf, uniqAliases) ← s
  match conf.knownPeers.lookup peerID with
  | some peer =>
    let (peer, uniqAliases) ← conf.defaultPeerBy env (order peerID) uniqAliases peer
    return ({ conf with knownPeers := conf.knownPeers.insert peerID peer }, uniqAliases)
  | none => return (conf, uniqAliases)

/-- `setDefaults`, visiting the known peers in the order `ks`. -/
def setDefaultsBy (env : Env) (ks : List String) (order : String → List String) (conf : Config) :
    Option Config :=
  (ks.foldl (visitPeerBy env order) (some (conf.setDefaultSettings env, ∅))).map Prod.fst

/-- An address has to be allocated, and the network is one that an IPv6 address of a peer passes
for a part of. -/
def LoadPanics (c : Config) : Prop :=
  c.vpnLocalIPMask.1 ≠ [] ∧ c.vpnNet.contains [] = true ∧
    (∃ e ∈ c.knownPeers.entries, e.2.ipAddr = "") ∧
    ∃ e ∈ c.knownPeers.entries, parseIP e.2.ipAddr ≠ [] ∧ e.2.ip4 = []

/-! ### One peer -/

section

variable {env : Env} {c : Config} {order : List String} {taken : Finset String} {kp : KnownPeer}

lemma generateNextIpAddrExcept_nil (c : Config) :
    c.generateNextIpAddrExcept [] = some c.generateNextIpAddr := by
  simp [generateNextIpAddr, generateNextIpAddrExcept, nextIpAddr]

/-- Without a panic the record is the one that `defaultPeer` makes. -/
lemma defaultPeerBy_eq (h : kp.ipAddr = "" →
      c.generateNextIpAddrExceptBy order [] = some c.generateNextIpAddr) :
    c.defaultPeerBy env order taken kp = some (c.defaultPeer env taken kp) := by
  by_cases he : kp.ipAddr = ""
  · simp [defaultPeerBy, defaultPeer, he, h he]
  · simp [defaultPeerBy, defaultPeer, he]

lemma defaultPeerBy_panics (he : kp.ipAddr = "")
    (h : c.generateNextIpAddrExceptBy order [] = none) :
    c.defaultPeerBy env order taken kp = none := by
  simp [defaultPeerBy, he, h]

/-- An address that the loop fills in is an IPv4 one. -/
lemma defaultPeer_six (env : Env) (c : Config) (taken : Finset String) (kp : KnownPeer) :
    (parseIP (c.defaultPeer env taken kp).1.ipAddr ≠ [] ∧
        (c.defaultPeer env taken kp).1.ip4 = []) ↔ parseIP kp.ipAddr ≠ [] ∧ kp.ip4 = [] := by
  by_cases he : kp.ipAddr = ""
  · have hnew : (c.defaultPeer env taken kp).1.ipAddr = ipString (incrementIPAddr c.maxIp) := by
      simp only [defaultPeer, he, if_true, generateNextIpAddr_eq]
    have h4 : (c.defaultPeer env taken kp).1.ip4 = incrementIPAddr c.maxIp :=
      ip4_of_ipAddr rfl hnew
    have hempty : parseIP "" = [] := by decide
    refine iff_of_false (fun h => ?_) fun h => h.1 (by rw [he, hempty])
    rw [h4] at h
    cases h.2
  · have hold : (c.defaultPeer env taken kp).1.ipAddr = kp.ipAddr :=
      (defaultPeer_filled env c taken kp).ipAddr he
    rw [KnownPeer.ip4, hold, KnownPeer.ip4]

end

/-! ### The loop -/

section

variable {env : Env} {order : String → List String} {s : Config × Finset String} {k : String}

/-- A visit changes one record. -/
lemma exists_visitPeer_iff {p : KnownPeer → Prop}
    (hp : ∀ kp, s.1.knownPeers.lookup k = some kp → (p (s.1.defaultPeer env s.2 kp).1 ↔ p kp)) :
    (∃ e ∈ (visitPeer env s k).1.knownPeers.entries, p e.2) ↔
      ∃ e ∈ s.1.knownPeers.entries, p e.2 := by
  rcases hk : s.1.knownPeers.lookup k with _ | kp
  · rw [visitPeer_none hk]
  rw [visitPeer_some hk]
  constructor
  · rintro ⟨⟨k', kp'⟩, he, hp'⟩
    have hl := GoMap.mem_entries.1 he
    rw [GoMap.lookup_insert_ite] at hl
    split_ifs at hl with hkey
    · cases hl
      exact ⟨⟨k, kp⟩, GoMap.mem_entries.2 hk, (hp kp hk).1 hp'⟩
    · exact ⟨⟨k', kp'⟩, GoMap.mem_entries.2 hl, hp'⟩
  · rintro ⟨⟨k', kp'⟩, he, hp'⟩
    have hl := GoMap.mem_entries.1 he
    by_cases hkey : k' = k
    · subst hkey
      cases hl.symm.trans hk
      exact ⟨⟨k', _⟩, GoMap.mem_entries.2 (Finmap.lookup_insert _), (hp _ hk).2 hp'⟩
    · refine ⟨⟨k', kp'⟩, GoMap.mem_entries.2 ?_, hp'⟩
      rw [GoMap.lookup_insert_ite, if_neg hkey, hl]

/-- Whether the allocator would panic does not change. -/
lemma allocPanics_visitPeer (env : Env) (s : Config × Finset String) (k : String) :
    (visitPeer env s k).1.AllocPanics ↔ s.1.AllocPanics := by
  have hnet : (visitPeer env s k).1.vpnNet = s.1.vpnNet :=
    vpnNet_congr (visitPeer_spec env s k).2.1
  rw [AllocPanics, AllocPanics, hnet]
  exact and_congr_right fun _ =>
    exists_visitPeer_iff (p := fun kp => parseIP kp.ipAddr ≠ [] ∧ kp.ip4 = [])
      fun kp _ => defaultPeer_six env s.1 s.2 kp

/-- A visit that does not allocate in vain. -/
lemma visitPeerBy_eq (hlocal : s.1.vpnLocalIPMask.1.length = 4)
    (horder : GoMap.Ranges s.1.knownPeers (order k))
    (hquiet : ∀ kp, s.1.knownPeers.lookup k = some kp → kp.ipAddr = "" → ¬ s.1.AllocPanics) :
    visitPeerBy env order (some s) k = some (visitPeer env s k) := by
  rcases hk : s.1.knownPeers.lookup k with _ | kp
  · simp [visitPeerBy, visitPeer, hk]
  · have hpeer : s.1.defaultPeerBy env (order k) s.2 kp = some (s.1.defaultPeer env s.2 kp) :=
      defaultPeerBy_eq fun he => by
        rw [generateNextIpAddrExceptBy_eq (hquiet kp hk he) hlocal horder,
          generateNextIpAddrExcept_nil]
    simp [visitPeerBy, visitPeer, hk, hpeer]

/-- A visit that panics. -/
lemma visitPeerBy_panics {kp : KnownPeer} (hk : s.1.knownPeers.lookup k = some kp)
    (he : kp.ipAddr = "") (h : s.1.AllocPanics) (horder : GoMap.Ranges s.1.knownPeers (order k)) :
    visitPeerBy env order (some s) k = none := by
  have hpeer : s.1.defaultPeerBy env (order k) s.2 kp = none :=
    defaultPeerBy_panics he (generateNextIpAddrExceptBy_panics h horder [])
  simp [visitPeerBy, hk, hpeer]

end

/-- What the loop does not change of the configuration it starts from. -/
structure Visiting (c₀ : Config) (s : Config × Finset String) : Prop where
  vpn : s.1.vpnConfig = c₀.vpnConfig
  keys : ∀ k, k ∈ s.1.knownPeers ↔ k ∈ c₀.knownPeers
  panics : s.1.AllocPanics ↔ c₀.AllocPanics

namespace Visiting

variable {env : Env} {c₀ : Config} {s : Config × Finset String} {order : String → List String}

lemma refl (c : Config) (taken : Finset String) : Visiting c (c, taken) :=
  ⟨rfl, fun _ => Iff.rfl, Iff.rfl⟩

lemma visit (h : Visiting c₀ s) (env : Env) (k : String) : Visiting c₀ (visitPeer env s k) := by
  obtain ⟨-, hvpn, hkeys, -⟩ := visitPeer_spec env s k
  exact ⟨hvpn.trans h.vpn, fun k' => (hkeys k').trans (h.keys k'),
    (allocPanics_visitPeer env s k).trans h.panics⟩

lemma ranges (h : Visiting c₀ s) {ks : List String} (hks : GoMap.Ranges c₀.knownPeers ks) :
    GoMap.Ranges s.1.knownPeers ks := ⟨hks.1, fun k => (hks.2 k).trans (h.keys k).symm⟩

lemma local_length (h : Visiting c₀ s) (hlocal : c₀.vpnLocalIPMask.1.length = 4) :
    s.1.vpnLocalIPMask.1.length = 4 := by
  have hmask : s.1.vpnLocalIPMask = c₀.vpnLocalIPMask := vpnLocalIPMask_congr (by rw [h.vpn])
  rwa [hmask]

/-- **A loop that does not panic** makes the visits one after the other. -/
lemma foldl_eq (hlocal : c₀.vpnLocalIPMask.1.length = 4)
    (horder : ∀ k, GoMap.Ranges c₀.knownPeers (order k)) (ks : List String) : ∀ {s},
    Visiting c₀ s →
    (c₀.AllocPanics → ∀ e ∈ s.1.knownPeers.entries, e.2.ipAddr ≠ "") →
    ks.foldl (visitPeerBy env order) (some s) = some (ks.foldl (visitPeer env) s) := by
  induction ks with
  | nil => exact fun _ _ => rfl
  | cons k ks ih =>
    intro s h hquiet
    have hvisit : visitPeerBy env order (some s) k = some (visitPeer env s k) :=
      visitPeerBy_eq (h.local_length hlocal) (h.ranges (horder k)) fun kp hk he hpanics =>
        hquiet (h.panics.1 hpanics) ⟨k, kp⟩ (GoMap.mem_entries.2 hk) he
    rw [List.foldl_cons, List.foldl_cons, hvisit]
    refine ih (h.visit env k) fun hpanics e he => ?_
    obtain ⟨kp, hkp, hfilled⟩ := (visitPeer_spec env s k).2.2.2 (GoMap.mem_entries.1 he)
    have hne := hquiet hpanics ⟨e.1, kp⟩ (GoMap.mem_entries.2 hkp)
    rwa [hfilled.ipAddr hne]

/-- **A loop that panics**: it comes to a peer without an address, if not to an earlier one. -/
lemma foldl_panics (hpanics : c₀.AllocPanics) (hlocal : c₀.vpnLocalIPMask.1.length = 4)
    (horder : ∀ k, GoMap.Ranges c₀.knownPeers (order k)) {k₀ : String} {kp₀ : KnownPeer}
    (he₀ : kp₀.ipAddr = "") (ks : List String) : ∀ {s}, k₀ ∈ ks → Visiting c₀ s →
    s.1.knownPeers.lookup k₀ = some kp₀ → ks.foldl (visitPeerBy env order) (some s) = none := by
  have hstay : ∀ ks : List String, ks.foldl (visitPeerBy env order) none = none := by
    intro ks
    induction ks with
    | nil => rfl
    | cons k ks ih => exact ih
  induction ks with
  | nil => exact fun h => absurd h List.not_mem_nil
  | cons k ks ih =>
    intro s hmem h hk₀
    rw [List.foldl_cons]
    by_cases hempty : ∃ kp, s.1.knownPeers.lookup k = some kp ∧ kp.ipAddr = ""
    · obtain ⟨kp, hk, he⟩ := hempty
      rw [visitPeerBy_panics hk he (h.panics.2 hpanics) (h.ranges (horder k))]
      exact hstay ks
    · have hne : k ≠ k₀ := by
        rintro rfl
        exact hempty ⟨kp₀, hk₀, he₀⟩
      rw [visitPeerBy_eq (h.local_length hlocal) (h.ranges (horder k))
        fun kp hk he => absurd ⟨kp, hk, he⟩ hempty]
      refine ih ((List.mem_cons.1 hmem).resolve_left hne.symm) (h.visit env k) ?_
      rcases hk : s.1.knownPeers.lookup k with _ | kp
      · rwa [visitPeer_none hk]
      · rw [visitPeer_some hk, GoMap.lookup_insert_ite, if_neg hne.symm, hk₀]

end Visiting

/-! ### One pass -/

section

variable {env : Env} {c : Config} {ks : List String} {order : String → List String}

/-- The network that a pass works with is the one there was, or the default one. -/
lemma setDefaultSettings_net (env : Env) (c : Config) :
    (c.setDefaultSettings env).vpnLocalIPMask =
      if c.vpnLocalIPMask.1 = [] then ([10, 66, 0, 1], [255, 255, 255, 0])
      else c.vpnLocalIPMask := by
  by_cases h : c.vpnLocalIPMask.1 = []
  · have hnet : (c.setDefaultSettings env).vpnConfig.ipNet = defaultVPNNetworkSubnet := if_pos h
    rw [if_pos h, vpnLocalIPMask, hnet]
    decide
  · rw [if_neg h]
    exact vpnLocalIPMask_congr (if_neg h)

lemma setDefaultSettings_local (env : Env) (c : Config) :
    (c.setDefaultSettings env).vpnLocalIPMask.1.length = 4 := by
  rw [setDefaultSettings_net]
  split_ifs with h
  · rfl
  · exact local_length h

lemma setDefaultSettings_contains_nil (env : Env) (c : Config) :
    (c.setDefaultSettings env).vpnNet.contains [] = true ↔
      c.vpnLocalIPMask.1 ≠ [] ∧ c.vpnNet.contains [] = true := by
  rw [vpnNet, setDefaultSettings_net]
  split_ifs with h
  · exact iff_of_false (by decide) fun hand => hand.1 h
  · exact (and_iff_right h).symm

lemma loadPanics_iff (env : Env) (c : Config) :
    c.LoadPanics ↔ (c.setDefaultSettings env).AllocPanics ∧
      ∃ e ∈ c.knownPeers.entries, e.2.ipAddr = "" := by
  rw [AllocPanics, setDefaultSettings_contains_nil, LoadPanics]
  have hpeers : (c.setDefaultSettings env).knownPeers = c.knownPeers := rfl
  rw [hpeers]
  constructor
  · rintro ⟨hlocal, hnet, hempty, hsix⟩
    exact ⟨⟨⟨hlocal, hnet⟩, hsix⟩, hempty⟩
  · rintro ⟨⟨⟨hlocal, hnet⟩, hsix⟩, hempty⟩
    exact ⟨hlocal, hnet, hempty, hsix⟩

lemma setDefaultsBy_eq (h : ¬ c.LoadPanics)
    (horder : ∀ k, GoMap.Ranges c.knownPeers (order k)) :
    c.setDefaultsBy env ks order = some (c.setDefaults env ks) := by
  rw [setDefaultsBy, Visiting.foldl_eq (setDefaultSettings_local env c) horder ks
    (Visiting.refl _ _)]
  · rfl
  · intro hpanics e he hempty
    exact h ((loadPanics_iff env c).2 ⟨hpanics, e, he, hempty⟩)

lemma setDefaultsBy_panics (h : c.LoadPanics) (hks : GoMap.Ranges c.knownPeers ks)
    (horder : ∀ k, GoMap.Ranges c.knownPeers (order k)) : c.setDefaultsBy env ks order = none := by
  obtain ⟨hpanics, ⟨k₀, kp₀⟩, he, hempty⟩ := (loadPanics_iff env c).1 h
  have hk₀ := GoMap.mem_entries.1 he
  rw [setDefaultsBy, Visiting.foldl_panics hpanics (setDefaultSettings_local env c) horder hempty ks
    ((hks.2 k₀).2 (Finmap.mem_of_lookup_eq_some hk₀)) (Visiting.refl _ _) hk₀]
  rfl

end

/-! ### The other settings -/

/-- None of the settings is missing. -/
structure Settled (env : Env) (c : Config) : Prop where
  version : c.version = env.version
  bootstrapPeers : c.p2pNode.bootstrapPeers ≠ none
  listenAddresses : c.p2pNode.listenAddresses ≠ none
  reconnectionIntervalSec : c.p2pNode.reconnectionIntervalSec ≠ 0
  parallelSendingStreamsCount : c.p2pNode.parallelSendingStreamsCount ≠ 0
  loggerLevel : c.loggerLevel ≠ ""
  httpListenAddress : c.httpListenAddress ≠ ""
  ipNet : c.vpnLocalIPMask.1 ≠ []
  interfaceName : c.vpnConfig.interfaceName ≠ ""
  socks5 : c.socks5.listenAddress ≠ ""
  dns : c.dnsListenAddress ≠ ""
  updateServerURL : ¬ (c.update.updateServerURL = "" ∨
    c.update.updateServerURL = "http://example/example.json")
  trayAutoCheckInterval : ¬ (c.update.trayAutoCheckInterval = "" ∨
    c.update.trayAutoCheckInterval = "24h")

/-- A default that is none of the values it stands in for. -/
lemma ite_default {α : Type} {p : α → Prop} [DecidablePred p] {x d : α} (hd : ¬ p d) :
    ¬ p (if p x then d else x) := by
  split_ifs with h
  · exact hd
  · exact h

variable {env : Env} {c : Config}

/-- After a pass they are all there. -/
lemma setDefaultSettings_settled (env : Env) (c : Config) :
    (c.setDefaultSettings env).Settled env where
  version := rfl
  bootstrapPeers := Option.some_ne_none _
  listenAddresses := Option.some_ne_none _
  reconnectionIntervalSec := ite_default (p := (· = 0)) (by decide)
  parallelSendingStreamsCount := ite_default (p := (· = 0)) (by decide)
  loggerLevel := ite_default (p := (· = "")) (by decide)
  httpListenAddress := ite_default (p := (· = "")) (by decide)
  ipNet := List.ne_nil_of_length_pos (by rw [setDefaultSettings_local]; decide)
  interfaceName := ite_default (p := (· = "")) (by cases env.darwin <;> decide)
  socks5 := ite_default (p := (· = "")) (by decide)
  dns := ite_default (p := (· = "")) (by decide)
  updateServerURL := ite_default (p := fun u => u = "" ∨ u = "http://example/example.json")
    (by decide)
  trayAutoCheckInterval := ite_default (p := fun i => i = "" ∨ i = "24h") (by decide)

/-- Where they are, a pass leaves them as they are. -/
lemma Settled.setDefaultSettings (h : c.Settled env) (hversion : env.version ≠ "") :
    c.setDefaultSettings env = c := by
  have hsocks5 : c.socks5 ≠ {} := fun he => h.socks5 (by rw [he])
  obtain ⟨htray, htray'⟩ := not_or.1 h.trayAutoCheckInterval
  obtain ⟨listen, hlisten⟩ := Option.ne_none_iff_exists'.1 h.listenAddresses
  obtain ⟨boot, hboot⟩ := Option.ne_none_iff_exists'.1 h.bootstrapPeers
  simp only [Config.setDefaultSettings, h.version, hversion, hlisten, hboot,
    h.reconnectionIntervalSec, h.parallelSendingStreamsCount, h.loggerLevel, h.httpListenAddress,
    h.ipNet, h.interfaceName, hsocks5, h.socks5, h.dns, h.updateServerURL, htray, htray',
    Option.getD_some, decide_false, Bool.or_false, or_self, if_false]
  rw [← hlisten, ← hboot, ← h.version]

lemma Settled.withPeers (h : c.Settled env) (peers : GoMap String KnownPeer) :
    ({ c with knownPeers := peers } : Config).Settled env :=
  ⟨h.version, h.bootstrapPeers, h.listenAddresses, h.reconnectionIntervalSec,
    h.parallelSendingStreamsCount, h.loggerLevel, h.httpListenAddress, h.ipNet, h.interfaceName,
    h.socks5, h.dns, h.updateServerURL, h.trayAutoCheckInterval⟩

/-! ### Two passes -/

/-- What has all its settings and complete records is left as it is. -/
lemma Settled.setDefaults (h : c.Settled env) (hversion : env.version ≠ "")
    (hcomplete : c.Complete env) {ks : List String} (hks : GoMap.Ranges c.knownPeers ks) :
    c.setDefaults env ks = c := by
  rw [setDefaults_rest, setDefaults_of_complete hcomplete hks, h.setDefaultSettings hversion]

lemma Complete.not_loadPanics (h : c.Complete env) : ¬ c.LoadPanics := by
  rintro ⟨-, -, ⟨e, he, hempty⟩, -⟩
  exact (h.records (GoMap.mem_entries.1 he)).ipAddr hempty

/-- **A pass comes to a fixed point**, whatever the orders of this one and of the next, unless it
panics. -/
theorem setDefaultsBy_fixed_iff (env : Env) (hversion : env.version ≠ "") (c : Config) :
    (∀ ks order, GoMap.Ranges c.knownPeers ks → (∀ k, GoMap.Ranges c.knownPeers (order k)) →
      ∃ c', c.setDefaultsBy env ks order = some c' ∧
        (∀ ks' order', GoMap.Ranges c'.knownPeers ks' →
          (∀ k, GoMap.Ranges c'.knownPeers (order' k)) →
          c'.setDefaultsBy env ks' order' = some c') ∧
        c'.DistinctAliases ∧
        ∀ e ∈ c'.knownPeers.entries, e.2.peerAlias ≠ "" ∧ e.2.ipAddr ≠ "") ↔
    ¬ c.LoadPanics := by
  constructor
  · intro h hpanics
    obtain ⟨ks, hks⟩ := GoMap.exists_ranges c.knownPeers
    obtain ⟨c', hc', -⟩ := h ks (fun _ => ks) hks fun _ => hks
    rw [setDefaultsBy_panics hpanics hks fun _ => hks] at hc'
    cases hc'
  · intro h ks order hks horder
    have hcomplete : (c.setDefaults env ks).Complete env := setDefaults_complete env hks
    have hsettled : (c.setDefaults env ks).Settled env := by
      rw [setDefaults_rest]
      exact (setDefaultSettings_settled env c).withPeers _
    refine ⟨c.setDefaults env ks, setDefaultsBy_eq h horder, fun ks' order' hks' horder' => ?_,
      hcomplete.distinct, fun e he => ?_⟩
    · rw [setDefaultsBy_eq hcomplete.not_loadPanics horder',
        hsettled.setDefaults hversion hcomplete hks']
    · have hrecord := hcomplete.records (GoMap.mem_entries.1 he)
      exact ⟨hrecord.peerAlias, hrecord.ipAddr⟩

end Config

section

open BootstrapPeer

/-- The network is written as an IPv6 one; one peer has an IPv6 address, another has none. -/
def mappedNetwork : Config where
  vpnConfig := { ipNet := "::ffff:10.66.0.1/64" }
  knownPeers := (conf [(rus2, "::1"), (ita1, "")]).knownPeers

theorem mappedNetwork_panics :
    GoMap.Ranges mappedNetwork.knownPeers [rus2.text, ita1.text] ∧
      mappedNetwork.setDefaultsBy sampleEnv [rus2.text, ita1.text]
        (fun _ => [rus2.text, ita1.text]) = none :=
  ⟨by decide, Option.isNone_iff_eq_none.1 (by decide +kernel)⟩

/-- Two peers without address and alias, in the default network. -/
theorem bareRecords_fixed :
    ∃ c', (conf [(rus2, ""), (ita1, "")]).setDefaultsBy sampleEnv [rus2.text, ita1.text]
        (fun _ => [ita1.text, rus2.text]) = some c' ∧
      ∀ ks' order', GoMap.Ranges c'.knownPeers ks' →
        (∀ k, GoMap.Ranges c'.knownPeers (order' k)) →
        c'.setDefaultsBy sampleEnv ks' order' = some c' := by
  obtain ⟨c', hc', hfixed, -⟩ := (Config.setDefaultsBy_fixed_iff sampleEnv (by decide)
    (conf [(rus2, ""), (ita1, "")])).2 (fun h => absurd h.2.1 (by decide)) [rus2.text, ita1.text]
      (fun _ => [ita1.text, rus2.text]) (by decide) (fun _ => by decide)
  exact ⟨c', hc', hfixed⟩

end

end Awl
