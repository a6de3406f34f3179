import Awl.NetworkAddr

/-!
What `setDefaults` fills in when a configuration is loaded: missing settings, and aliases,
addresses and domain names of known peers, in the order in which `range` visits them.
-/

namespace Awl

namespace Config

def defaultVPNNetworkSubnet : String := "10.66.0.1/24"

/-- The settings apart from the known peers. -/
def setDefaultSettings (env : Env) (conf : Config) : Config :=
  { conf with
    version := env.version
    p2pNode := { conf.p2pNode with
      listenAddresses := some (conf.p2pNode.listenAddresses.getD [])
      bootstrapPeers := some (conf.p2pNode.bootstrapPeers.getD [])
      reconnectionIntervalSec := if conf.p2pNode.reconnectionIntervalSec = 0 then 20
        else conf.p2pNode.reconnectionIntervalSec
      parallelSendingStreamsCount := if conf.p2pNode.parallelSendingStreamsCount = 0 then 1
        else conf.p2pNode.parallelSendingStreamsCount }
    loggerLevel := if conf.loggerLevel = "" then "info" else conf.loggerLevel
    httpListenAddress := if conf.httpListenAddress = "" then "127.0.0.1:8639"
      else conf.httpListenAddress
    httpListenOnAdminHost := if conf.version = "" then true else conf.httpListenOnAdminHost
    vpnConfig := {
      -- an empty network is no CIDR either
      ipNet := if conf.vpnLocalIPMask.1 = [] then defaultVPNNetworkSubnet
        else conf.vpnConfig.ipNet
      interfaceName := if conf.vpnConfig.interfaceName = "" then
          (if env.darwin then "utun" else "awl0")
        else conf.vpnConfig.interfaceName }
    socks5 :=
      let socks5 := if conf.socks5 = {} then
          { conf.socks5 with listenerEnabled := true, proxyingEnabled := true }
        else conf.socks5
      { socks5 with
        listenAddress := if socks5.listenAddress = "" then "127.0.0.1:10808"
          else socks5.listenAddress }
    dnsListenAddress := if conf.dnsListenAddress = "" then "127.0.0.66:53"
      else conf.dnsListenAddress
    update := {
      updateServerURL :=
        if conf.update.updateServerURL = "" ∨
            conf.update.updateServerURL = "http://example/example.json" then
          "https://build.anywherelan.com/repository/releases.json"
        else conf.update.updateServerURL
      trayAutoCheckEnabled := conf.update.trayAutoCheckEnabled ||
        conf.update.trayAutoCheckInterval = ""
      trayAutoCheckInterval :=
        if conf.update.trayAutoCheckInterval = "" ∨ conf.update.trayAutoCheckInterval = "24h" then
          "8h"
        else conf.update.trayAutoCheckInterval } }

/-- What the loop over the known peers makes of one of them, and the aliases taken then. -/
def defaultPeer (env : Env) (conf : Config) (uniqAliases : Finset String) (peer : KnownPeer) :
    KnownPeer × Finset String :=
  let (newAlias, uniqAliases) := genUniqPeerAlias uniqAliases peer.name peer.peerAlias
  let peer := { peer with
    peerAlias := newAlias
    ipAddr := if peer.ipAddr = "" then conf.generateNextIpAddr else peer.ipAddr }
  ({ peer with
    domainName := if peer.domainName = "" then env.trimDomainName peer.displayName
      else peer.domainName }, uniqAliases)

/-- The body of the loop over the known peers. -/
def visitPeer (env : Env) (s : Config × Finset String) (peerID : String) :
    Config × Finset String :=
  match s.1.knownPeers.lookup peerID with
  | some peer =>
    let (peer, uniqAliases) := s.1.defaultPeer env s.2 peer
    ({ s.1 with knownPeers := s.1.knownPeers.insert peerID peer }, uniqAliases)
  | none => s

/-- `setDefaults`, visiting the known peers in the order `ks`. -/
def setDefaults (env : Env) (ks : List String) (conf : Config) : Config :=
  (ks.foldl (visitPeer env) (conf.setDefaultSettings env, ∅)).1

/-! ### What it leaves alone -/

/-- `kp'` is `kp` with the fields that `setDefaults` may fill in. -/
structure Filled (kp kp' : KnownPeer) : Prop where
  peerID : kp'.peerID = kp.peerID
  name : kp'.name = kp.name
  confirmed : kp'.confirmed = kp.confirmed
  declined : kp'.declined = kp.declined
  ipAddr : kp.ipAddr ≠ "" → kp'.ipAddr = kp.ipAddr

lemma Filled.refl (kp : KnownPeer) : Filled kp kp := ⟨rfl, rfl, rfl, rfl, fun _ => rfl⟩

lemma Filled.trans {a b c : KnownPeer} (h : Filled a b) (h' : Filled b c) : Filled a c :=
  ⟨h'.peerID.trans h.peerID, h'.name.trans h.name, h'.confirmed.trans h.confirmed,
    h'.declined.trans h.declined, fun e =>
      (h'.ipAddr (by rw [h.ipAddr e]; exact e)).trans (h.ipAddr e)⟩

lemma defaultPeer_filled (env : Env) (c : Config) (taken : Finset String) (kp : KnownPeer) :
    Filled kp (c.defaultPeer env taken kp).1 :=
  ⟨rfl, rfl, rfl, rfl, fun h => by simp [defaultPeer, h]⟩

/-- `c'` has the peers of `c`, filled in, and the same network. -/
structure Loaded (c c' : Config) : Prop where
  peers : ∀ {k kp'}, c'.knownPeers.lookup k = some kp' →
    ∃ kp, c.knownPeers.lookup k = some kp ∧ Filled kp kp'
  keys : ∀ k, k ∈ c'.knownPeers ↔ k ∈ c.knownPeers
  blocked : c'.blockedPeers = c.blockedPeers
  net : c.vpnLocalIPMask.1 ≠ [] → c'.vpnConfig.ipNet = c.vpnConfig.ipNet

lemma visitPeer_spec (env : Env) (s : Config × Finset String) (k : String) :
    (visitPeer env s k).1.blockedPeers = s.1.blockedPeers ∧
    (visitPeer env s k).1.vpnConfig = s.1.vpnConfig ∧
    (∀ k', k' ∈ (visitPeer env s k).1.knownPeers ↔ k' ∈ s.1.knownPeers) ∧
    ∀ {k' kp'}, (visitPeer env s k).1.knownPeers.lookup k' = some kp' →
      ∃ kp, s.1.knownPeers.lookup k' = some kp ∧ Filled kp kp' := by
  unfold visitPeer
  rcases hk : s.1.knownPeers.lookup k with _ | kp
  · exact ⟨rfl, rfl, fun _ => Iff.rfl, fun h => ⟨_, h, Filled.refl _⟩⟩
  · refine ⟨rfl, rfl, fun k' => ?_, fun {k' kp'} h => ?_⟩
    · rw [Finmap.mem_insert]
      exact or_iff_right_of_imp fun e => e ▸ Finmap.mem_of_lookup_eq_some hk
    · rw [GoMap.lookup_insert_ite] at h
      split_ifs at h with e
      · cases h
        exact ⟨kp, e ▸ hk, defaultPeer_filled env s.1 s.2 kp⟩
      · exact ⟨kp', h, Filled.refl _⟩

/-- **Loading fills in, and changes nothing else.** -/
theorem setDefaults_loaded (env : Env) (ks : List String) (c : Config) :
    Loaded c (c.setDefaults env ks) := by
  -- the loop, from any state that has the peers of `c`
  have hloop : ∀ s : Config × Finset String,
      Loaded c s.1 → Loaded c (ks.foldl (visitPeer env) s).1 := by
    induction ks with
    | nil => exact fun s h => h
    | cons k ks ih =>
      intro s h
      obtain ⟨hb, hv, hk, hp⟩ := visitPeer_spec env s k
      refine ih _ ⟨fun hl => ?_, fun k' => (hk k').trans (h.keys k'), hb.trans h.blocked,
        fun hn => by rw [hv]; exact h.net hn⟩
      obtain ⟨kp, hkp, hf⟩ := hp hl
      obtain ⟨kp₀, hkp₀, hf₀⟩ := h.peers hkp
      exact ⟨kp₀, hkp₀, hf₀.trans hf⟩
  refine hloop _ ⟨fun h => ⟨_, h, Filled.refl _⟩, fun _ => Iff.rfl, rfl, fun h => ?_⟩
  simp [setDefaultSettings, h]

end Config

end Awl
