import Awl.Config
import Awl.Json
import Mathlib.Data.Finset.Sort
import Mathlib.Data.String.Basic

/-!
The text of a saved configuration.

Fields that the model leaves out are written as they are when they have not been set. The clock
of the model has no unit: its reading `n` is written as the first moment of the year `n + 1`,
so that zero is Go's zero time.
-/

namespace Awl

/-- What the file holds: the configuration, with the private key as text. -/
structure StoredConfig where
  conf : Config
  identity : String

/-! ### Parts -/

def timeText (n : ℕ) : String :=
  String.ofList ((Nat.toDigits 10 (n + 1)).leftpad 4 '0') ++ "-01-01T00:00:00Z"

/-- A slice of strings, `null` if there is none. -/
def stringsJson : Option (List String) → Json
  | none => .null
  | some l => .arr (l.map .str)

/-- A field that is left out if it is empty. -/
def omitEmpty (key s : String) : List (String × Json) := if s = "" then [] else [(key, .str s)]

/-- A pointer to a flag, left out if it is `nil`. -/
def omitNil (key : String) : Option Bool → List (String × Json)
  | none => []
  | some b => [(key, .bool b)]

def GoMap.sortedKeys {K V : Type} [LinearOrder K] (m : GoMap K V) : List K := m.keys.sort (· ≤ ·)

/-- The entries of a map, with its keys in order. -/
def GoMap.fields {V : Type} (json : V → Json) (m : GoMap String V) : List (String × Json) :=
  m.sortedKeys.filterMap fun k => (m.lookup k).map fun v => (k, json v)

def KnownPeer.json (kp : KnownPeer) : Json :=
  .obj ([("peerId", .str kp.peerID), ("name", .str kp.name), ("alias", .str kp.peerAlias),
    ("ipAddr", .str kp.ipAddr), ("domainName", .str kp.domainName),
    ("createdAt", .str (timeText kp.createdAt)), ("lastSeen", .str (timeText kp.lastSeen)),
    ("confirmed", .bool kp.confirmed), ("declined", .bool kp.declined),
    ("weAllowUsingAsExitNode", .bool kp.weAllowUsingAsExitNode),
    ("allowedUsingAsExitNode", .bool kp.allowedUsingAsExitNode)] ++
    omitEmpty "reportedUsingPeerID" kp.reportedUsingPeerID)

def BlockedPeer.json (bp : BlockedPeer) : Json :=
  .obj [("peerId", .str bp.peerID), ("displayName", .str bp.displayName),
    ("createdAt", .str (timeText bp.createdAt))]

def P2pNodeConfig.json (identity : String) (p : P2pNodeConfig) : Json :=
  .obj ([("peerId", .str p.peerID), ("name", .str p.name), ("identity", .str identity),
    ("bootstrapPeers", stringsJson p.bootstrapPeers)] ++
    (omitNil "ignoreDefaultBootstrapPeers" p.ignoreDefaultBootstrapPeers ++
    [("listenAddresses", stringsJson p.listenAddresses),
    ("reconnectionIntervalSec", .int p.reconnectionIntervalSec),
    ("autoAcceptAuthRequests", .bool p.autoAcceptAuthRequests),
    ("useDedicatedConnForEachStream", .bool false),
    ("parallelSendingStreamsCount", .int p.parallelSendingStreamsCount)]))

def VPNConfig.json (v : VPNConfig) : Json :=
  .obj [("disableVPNInterface", .bool false), ("interfaceName", .str v.interfaceName),
    ("ipNet", .str v.ipNet)]

def SOCKS5Config.json (s : SOCKS5Config) : Json :=
  .obj [("listenerEnabled", .bool s.listenerEnabled), ("proxyingEnabled", .bool s.proxyingEnabled),
    ("listenAddress", .str s.listenAddress), ("usingPeerID", .str s.usingPeerID)]

def UpdateConfig.json (u : UpdateConfig) : Json :=
  .obj [("lowestPriorityChan", .str ""), ("updateServerURL", .str u.updateServerURL),
    ("trayAutoCheckEnabled", .bool u.trayAutoCheckEnabled),
    ("trayAutoCheckInterval", .str u.trayAutoCheckInterval)]

def StoredConfig.fields (c : StoredConfig) : List (String × Json) :=
  [("version", .str c.conf.version), ("loggerLevel", .str c.conf.loggerLevel),
    ("httpListenAddress", .str c.conf.httpListenAddress),
    ("httpListenOnAdminHost", .bool c.conf.httpListenOnAdminHost),
    ("httpBasicAuth", .obj [("username", .str ""), ("password", .str "")]),
    ("p2pNode", c.conf.p2pNode.json c.identity), ("vpn", c.conf.vpnConfig.json),
    ("socks5", c.conf.socks5.json),
    ("dns", .obj [("disableDNS", .bool false), ("listenAddress", .str c.conf.dnsListenAddress)]),
    ("knownPeers", .obj (GoMap.fields KnownPeer.json c.conf.knownPeers)),
    ("blockedPeers", .obj (GoMap.fields BlockedPeer.json c.conf.blockedPeers)),
    ("update", c.conf.update.json)]

/-- What `save` writes. -/
def StoredConfig.text (c : StoredConfig) : List UInt8 := (Json.obj c.fields).marshalIndent

/-! ### Nothing is lost -/

lemma timeText_injective : Function.Injective timeText := by
  have hvalue : ∀ n, Nat.ofDigitChars 10 ((Nat.toDigits 10 n).leftpad 4 '0') 0 = n := by
    intro n
    rw [List.leftpad, Nat.ofDigitChars_append, Nat.ofDigitChars_replicate_zero, Nat.mul_zero,
      Nat.ofDigitChars_toDigits (by decide) (by decide)]
  intro m n h
  have hchars := congrArg String.toList h
  simp only [timeText, String.toList_append, String.toList_ofList] at hchars
  have hdigits := List.append_cancel_right hchars
  exact Nat.succ.inj (by rw [← hvalue m.succ, ← hvalue n.succ, hdigits])

lemma stringsJson_injective : Function.Injective stringsJson := by
  rintro (_ | l) (_ | l') h
  · rfl
  · cases h
  · cases h
  · have hstr : Function.Injective Json.str := fun _ _ h => Json.str.inj h
    rw [hstr.list_map (Json.arr.inj h)]

lemma omitEmpty_injective (key : String) : Function.Injective (omitEmpty key) := by
  intro s t h
  by_cases hs : s = "" <;> by_cases ht : t = "" <;> simp_all [omitEmpty]

lemma KnownPeer.json_injective : Function.Injective KnownPeer.json := by
  rintro ⟨⟩ ⟨⟩ h
  simpa [json, timeText_injective.eq_iff, (omitEmpty_injective _).eq_iff] using h

lemma BlockedPeer.json_injective : Function.Injective BlockedPeer.json := by
  rintro ⟨⟩ ⟨⟩ h
  simpa [json, timeText_injective.eq_iff] using h

lemma P2pNodeConfig.json_inj {identity identity' : String} {p p' : P2pNodeConfig}
    (h : p.json identity = p'.json identity') : identity = identity' ∧ p = p' := by
  obtain ⟨_, _, _, ignore, _, _, _, _⟩ := p
  obtain ⟨_, _, _, ignore', _, _, _, _⟩ := p'
  rcases ignore with _ | b <;> rcases ignore' with _ | b' <;>
    simp_all [json, omitNil, stringsJson_injective.eq_iff]

lemma GoMap.mem_fields {V : Type} {json : V → Json} {m : GoMap String V} {k : String} {j : Json} :
    (k, j) ∈ GoMap.fields json m ↔ ∃ v, m.lookup k = some v ∧ json v = j := by
  simp only [fields, sortedKeys, List.mem_filterMap, Finset.mem_sort, Finmap.mem_keys,
    Option.map_eq_some_iff, Prod.mk.injEq]
  constructor
  · rintro ⟨_, -, v, hv, rfl, rfl⟩
    exact ⟨v, hv, rfl⟩
  · rintro ⟨v, hv, rfl⟩
    exact ⟨k, Finmap.mem_of_lookup_eq_some hv, v, hv, rfl, rfl⟩

lemma GoMap.fields_injective {V : Type} {json : V → Json} (hjson : Function.Injective json) :
    Function.Injective (GoMap.fields json) := by
  have hlookup : ∀ {m m' : GoMap String V}, GoMap.fields json m = GoMap.fields json m' →
      ∀ {k v}, m.lookup k = some v → m'.lookup k = some v := by
    intro m m' h k v hv
    have hmem : (k, json v) ∈ GoMap.fields json m := GoMap.mem_fields.mpr ⟨v, hv, rfl⟩
    rw [h] at hmem
    obtain ⟨v', hv', hj⟩ := GoMap.mem_fields.mp hmem
    rwa [hjson hj] at hv'
  exact fun m m' h => Finmap.ext_lookup fun k =>
    Option.ext fun v => ⟨hlookup h, hlookup h.symm⟩

lemma StoredConfig.fields_injective : Function.Injective StoredConfig.fields := by
  rintro ⟨⟨_, _, _, _, p, ⟨⟩, ⟨⟩, _, _, _, ⟨⟩⟩, _⟩ ⟨⟨_, _, _, _, p', ⟨⟩, ⟨⟩, _, _, _, ⟨⟩⟩, _⟩ h
  simp only [fields, VPNConfig.json, SOCKS5Config.json, UpdateConfig.json, List.cons.injEq,
    Prod.mk.injEq, Json.str.injEq, Json.bool.injEq, Json.obj.injEq, true_and, and_true,
    (GoMap.fields_injective KnownPeer.json_injective).eq_iff,
    (GoMap.fields_injective BlockedPeer.json_injective).eq_iff] at h
  have hnode := P2pNodeConfig.json_inj h.2.2.2.2.1
  simp_all

/-- No saved text is the beginning of another one. -/
lemma StoredConfig.eq_of_isPrefix {c c' : StoredConfig} (h : c.text <+: c'.text) : c = c' :=
  fields_injective (Json.obj_of_isPrefix h)

lemma StoredConfig.text_injective : Function.Injective StoredConfig.text := by
  intro c c' h
  refine eq_of_isPrefix ?_
  rw [h]

/-- Nothing that lacks the end is the text of a configuration. -/
lemma StoredConfig.text_ne_take (c c' : StoredConfig) {n : ℕ} (h : n < c.text.length) :
    c'.text ≠ c.text.take n := by
  intro htake
  have hpre : c'.text <+: c.text := by
    rw [htake]
    exact ⟨_, List.take_append_drop n c.text⟩
  rw [eq_of_isPrefix hpre] at htake
  have hlength := congrArg List.length htake
  rw [List.length_take] at hlength
  omega

end Awl
