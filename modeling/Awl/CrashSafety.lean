import Awl.Addresses
import Awl.Base58
import Awl.ConfigText

/-!
A process that stops while it saves its configuration, and the next start.

`os.WriteFile` truncates the file before it writes, so a stop may leave any part of the new
text, also none of it. What cannot be decoded is replaced by a new configuration with a new
identity, which is saved at once.
-/

namespace Awl

/-- What the program takes from `encoding/json`. The text of an object ends with the brace that
closes it, so nothing that lacks the end can be decoded. -/
structure JSON where
  marshalIndent : StoredConfig → List UInt8
  unmarshal : List UInt8 → Option StoredConfig
  unmarshal_marshalIndent : ∀ c, unmarshal (marshalIndent c) = some c
  unmarshal_take : ∀ c n, n < (marshalIndent c).length → unmarshal ((marshalIndent c).take n) = none

/-- What the program takes from the libraries for private keys and for Base58. -/
structure KeyCodec (Key : Type) where
  raw : Key → List UInt8
  unmarshalKey : List UInt8 → Option Key
  base58Encode : List UInt8 → String
  base58Decode : String → Option (List UInt8)
  peerID : Key → String
  unmarshalKey_raw : ∀ key, unmarshalKey (raw key) = some key
  base58Decode_encode : ∀ key, base58Decode (base58Encode (raw key)) = some (raw key)
  encode_raw_ne : ∀ key, base58Encode (raw key) ≠ ""

/-! ### Saving -/

/-- Where the process stops inside `os.WriteFile`. -/
inductive StopPoint
  | beforeTruncating
  | afterWriting (n : ℕ)

/-- What is left of the file. -/
def StopPoint.leaves (file : Option (List UInt8)) (data : List UInt8) :
    StopPoint → Option (List UInt8)
  | beforeTruncating => file
  | afterWriting n => some (data.take n)

/-- Nothing has been written yet, or everything. -/
def StopPoint.Harmless (data : List UInt8) : StopPoint → Prop
  | beforeTruncating => True
  | afterWriting n => data.length ≤ n

/-! ### Starting -/

section

variable {Key : Type} (json : JSON) (keys : KeyCodec Key) (env : Env)
  (order : Config → List String)

/-- `LoadConfig`, where `order` gives the order in which known peers are visited. -/
def loadConfig (file : Option (List UInt8)) : Option StoredConfig := do
  let data ← file
  let c ← json.unmarshal data
  return { c with conf := c.conf.setDefaults env (order c.conf) }

def newConfig : StoredConfig := ⟨({} : Config).setDefaults env (order {}), ""⟩

/-- The configuration that `SetupLoggerAndConfig` settles on. -/
def setupConfig (file : Option (List UInt8)) : StoredConfig :=
  (loadConfig json env order file).getD (newConfig env order)

/-- `PrivKey`. -/
def StoredConfig.privKey (c : StoredConfig) : Option (List UInt8) :=
  if c.identity = "" then none else keys.base58Decode c.identity

/-- The key of the host that `InitHost` makes; `fresh` is the one it would generate. -/
def initHost (fresh : Key) : Option (List UInt8) → Option Key
  | none => some fresh
  | some privKeyBytes => keys.unmarshalKey privKeyBytes

def StoredConfig.setIdentity (key : Key) (c : StoredConfig) : StoredConfig where
  conf := { c.conf with p2pNode := { c.conf.p2pNode with peerID := keys.peerID key } }
  identity := keys.base58Encode (keys.raw key)

/-- A start up to `SetIdentity`: the configuration in memory, and the file it has saved. -/
def startUp (fresh : Key) (file : Option (List UInt8)) : Option (StoredConfig × List UInt8) := do
  let conf := setupConfig json env order file
  let key ← initHost keys fresh (conf.privKey keys)
  let conf := conf.setIdentity keys key
  return (conf, json.marshalIndent conf)

/-- Memory and file have the identity and the known peers of `content`, as loading gives them. -/
structure Recovers (content : StoredConfig) (r : StoredConfig × List UInt8) : Prop where
  identity : r.1.identity = content.identity
  known : r.1.conf.knownPeers = (content.conf.setDefaults env (order content.conf)).knownPeers
  file : json.unmarshal r.2 = some r.1

end

section

variable {Key : Type} (json : JSON) (keys : KeyCodec Key) (env : Env)
  (order : Config → List String)

lemma KeyCodec.encode_raw_inj {key key' : Key}
    (h : keys.base58Encode (keys.raw key) = keys.base58Encode (keys.raw key')) : key = key' := by
  have hraw : keys.raw key = keys.raw key' := by
    have hdecode := keys.base58Decode_encode key
    rw [h, keys.base58Decode_encode] at hdecode
    exact (Option.some.inj hdecode).symm
  have hkey := keys.unmarshalKey_raw key
  rw [hraw, keys.unmarshalKey_raw] at hkey
  exact (Option.some.inj hkey).symm

/-- A complete file is loaded, and its identity is kept. -/
lemma startUp_complete (fresh : Key) (content : StoredConfig) {key : Key}
    (hid : content.identity = keys.base58Encode (keys.raw key)) :
    ∃ r, startUp json keys env order fresh (some (json.marshalIndent content)) = some r ∧
      Recovers json env order content r := by
  have hsetup : setupConfig json env order (some (json.marshalIndent content)) =
      { content with conf := content.conf.setDefaults env (order content.conf) } := by
    simp [setupConfig, loadConfig, json.unmarshal_marshalIndent]
  have hkey : initHost keys fresh
      (({ content with conf := content.conf.setDefaults env (order content.conf) } :
        StoredConfig).privKey keys) = some key := by
    rw [StoredConfig.privKey, if_neg (hid ▸ keys.encode_raw_ne key), hid,
      keys.base58Decode_encode, initHost, keys.unmarshalKey_raw]
  refine ⟨_, by rw [startUp, hsetup, hkey]; rfl, hid.symm, rfl, ?_⟩
  exact json.unmarshal_marshalIndent _

/-- What cannot be decoded is given up: a new identity, and no known peers. -/
lemma startUp_undecodable (fresh : Key) {file : Option (List UInt8)}
    (h : file.bind json.unmarshal = none) :
    ∃ r, startUp json keys env order fresh file = some r ∧
      r.1.identity = keys.base58Encode (keys.raw fresh) ∧ r.1.conf.knownPeers = ∅ := by
  have hload : loadConfig json env order file = none := by
    rcases file with _ | data
    · rfl
    · have hdata : json.unmarshal data = none := h
      simp [loadConfig, hdata]
  have hsetup : setupConfig json env order file = newConfig env order := by
    rw [setupConfig, hload, Option.getD_none]
  have hkey : initHost keys fresh ((newConfig env order).privKey keys) = some fresh := by
    rw [StoredConfig.privKey, newConfig, if_pos rfl, initHost]
  have hempty : (newConfig env order).conf.knownPeers = ∅ := by
    refine Finmap.ext_lookup fun k => ?_
    rw [Finmap.lookup_empty, Finmap.lookup_eq_none, newConfig,
      (Config.setDefaults_loaded env _ _).keys]
    exact Finmap.notMem_empty
  exact ⟨_, by rw [startUp, hsetup, hkey]; rfl, rfl, hempty⟩

/-- **A save that is interrupted** is survived exactly if nothing or everything was written. -/
theorem interrupted_save_iff {old new : StoredConfig} (oldKey newKey : Key) {fresh : Key}
    (hold : old.identity = keys.base58Encode (keys.raw oldKey))
    (hnew : new.identity = keys.base58Encode (keys.raw newKey))
    (hfresh : fresh ≠ oldKey ∧ fresh ≠ newKey) (stop : StopPoint) :
    (∃ r, startUp json keys env order fresh
        (stop.leaves (some (json.marshalIndent old)) (json.marshalIndent new)) = some r ∧
        (Recovers json env order old r ∨ Recovers json env order new r)) ↔
      stop.Harmless (json.marshalIndent new) := by
  cases stop with
  | beforeTruncating =>
    obtain ⟨r, hr, hrec⟩ := startUp_complete json keys env order fresh old hold
    exact iff_of_true ⟨r, hr, Or.inl hrec⟩ trivial
  | afterWriting n =>
    by_cases hn : (json.marshalIndent new).length ≤ n
    · obtain ⟨r, hr, hrec⟩ := startUp_complete json keys env order fresh new hnew
      refine iff_of_true ⟨r, ?_, Or.inr hrec⟩ hn
      rwa [StopPoint.leaves, List.take_of_length_le hn]
    · have hcut := json.unmarshal_take new n (Nat.lt_of_not_le hn)
      obtain ⟨r, hr, hid, -⟩ := startUp_undecodable json keys env order fresh
        (show (some ((json.marshalIndent new).take n)).bind json.unmarshal = none from hcut)
      refine iff_of_false ?_ hn
      rintro ⟨r', hr', hrec⟩
      obtain rfl : r = r' := Option.some.inj (hr.symm.trans hr')
      rcases hrec with hrec | hrec
      · exact hfresh.1 (keys.encode_raw_inj (hid.symm.trans (hrec.identity.trans hold)))
      · exact hfresh.2 (keys.encode_raw_inj (hid.symm.trans (hrec.identity.trans hnew)))

end

/-! ### The libraries on the texts that are saved -/

section

/-- `encoding/json` on what `save` writes. Everything else is refused, where the library would
accept a text with other blanks or without some fields. -/
noncomputable def goJSON : JSON where
  marshalIndent := StoredConfig.text
  unmarshal data :=
    open Classical in if h : ∃ c : StoredConfig, c.text = data then some h.choose else none
  unmarshal_marshalIndent c := by
    have h : ∃ c' : StoredConfig, c'.text = c.text := ⟨c, rfl⟩
    rw [dif_pos h, StoredConfig.text_injective h.choose_spec]
  unmarshal_take c n h := dif_neg fun hc => c.text_ne_take hc.choose h hc.choose_spec

lemma goJSON_length_pos (c : StoredConfig) : 0 < (goJSON.marshalIndent c).length :=
  List.length_pos_of_ne_nil (Json.marshalIndent_ne_nil _)

/-- A seed and the public key that belongs to it, 32 bytes each. -/
abbrev Ed25519Key := { bytes : List UInt8 // bytes.length = 64 }

/-- `crypto.UnmarshalEd25519PrivateKey`. Old versions have written the public key twice. -/
def unmarshalEd25519PrivateKey (data : List UInt8) : Option Ed25519Key :=
  if h : data.length = 64 then some ⟨data, h⟩
  else if h : data.length = 96 then
    if data.drop 64 = (data.take 64).drop 32 then some ⟨data.take 64, by simp [h]⟩ else none
  else none

/-- A peer ID contains the public key, as a message of two fields inside a multihash that leaves
its input as it is. -/
def Ed25519Key.peerID (key : Ed25519Key) : String :=
  Base58.encode ([0, 36, 8, 1, 18, 32] ++ key.1.drop 32)

example : (Base58.decode BootstrapPeer.rus2.text).map (fun bytes => (bytes.take 6, bytes.length)) =
    some ([0, 36, 8, 1, 18, 32], 38) := by decide +kernel

lemma Ed25519Key.ne_nil (key : Ed25519Key) : key.1 ≠ [] :=
  List.ne_nil_of_length_eq_add_one key.2

def ed25519Keys : KeyCodec Ed25519Key where
  raw key := key.1
  unmarshalKey := unmarshalEd25519PrivateKey
  base58Encode := Base58.encode
  base58Decode := Base58.decode
  peerID := Ed25519Key.peerID
  unmarshalKey_raw key := dif_pos key.2
  base58Decode_encode key := Base58.decode_encode key.ne_nil
  encode_raw_ne key h := by
    have hdecode := Base58.decode_encode key.ne_nil
    rw [h] at hdecode
    cases hdecode

/-- An order in which the known peers may be visited. -/
noncomputable def visitOrder (c : Config) : List String := c.knownPeers.keys.toList

/-- The key with these bytes. -/
def Ed25519Key.ofNat (n : ℕ) : Ed25519Key :=
  ⟨(List.range 64).map fun i => UInt8.ofNat (n / 256 ^ (63 - i)), by simp⟩

def nodeKey : Ed25519Key :=
  .ofNat (0x9d61b19deffd5a60ba844af492ec2cc44449c5697b326919703bac031cae7f60 * 2 ^ 256 +
    0xd75a980182b10ab7d54bfed3c964073a0ee172f3daa62325af021a68f707511a)

/-- The key that the host would generate. -/
def otherKey : Ed25519Key :=
  .ofNat (0x4ccd089b28ff96da9db6c346ec114e0f5b8a319f35aba624da8cf6ed4fb8a6fb * 2 ^ 256 +
    0x3d4017c3e843895a92b70aa74d1b7ebc9c982ccf2ec4968cc0cd55f12af4660c)

lemma otherKey_ne : otherKey ≠ nodeKey := by decide +kernel

/-- What a node with a friend has saved. -/
def friendStore : StoredConfig :=
  let conf := BootstrapPeer.conf [(.rus2, "10.66.0.2")]
  StoredConfig.setIdentity ed25519Keys nodeKey
    ⟨conf.setDefaults sampleEnv [BootstrapPeer.rus2.text], ""⟩

/-- The same node with a new name. -/
def renamedStore : StoredConfig :=
  { friendStore with conf :=
    { friendStore.conf with p2pNode := { friendStore.conf.p2pNode with name := "laptop" } } }

lemma friendStore_identity :
    friendStore.identity = ed25519Keys.base58Encode (ed25519Keys.raw nodeKey) := rfl

lemma renamedStore_identity :
    renamedStore.identity = ed25519Keys.base58Encode (ed25519Keys.raw nodeKey) := rfl

/-- The process stops when the file has been truncated. -/
theorem truncated_file_not_recovered :
    (friendStore.identity = ed25519Keys.base58Encode (ed25519Keys.raw nodeKey) ∧
      renamedStore.identity = ed25519Keys.base58Encode (ed25519Keys.raw nodeKey) ∧
      otherKey ≠ nodeKey) ∧
      ¬ ∃ r, startUp goJSON ed25519Keys sampleEnv visitOrder otherKey
        ((StopPoint.afterWriting 0).leaves (some (goJSON.marshalIndent friendStore))
          (goJSON.marshalIndent renamedStore)) = some r ∧
        (Recovers goJSON sampleEnv visitOrder friendStore r ∨
          Recovers goJSON sampleEnv visitOrder renamedStore r) := by
  refine ⟨⟨friendStore_identity, renamedStore_identity, otherKey_ne⟩, ?_⟩
  rintro ⟨r, hr, hrec⟩
  have hcut := goJSON.unmarshal_take renamedStore 0 (goJSON_length_pos _)
  obtain ⟨r', hr', hid, -⟩ := startUp_undecodable goJSON ed25519Keys sampleEnv visitOrder otherKey
    (show (some ((goJSON.marshalIndent renamedStore).take 0)).bind goJSON.unmarshal = none
      from hcut)
  obtain rfl : r' = r := Option.some.inj (hr'.symm.trans hr)
  rcases hrec with hrec | hrec
  · exact otherKey_ne (ed25519Keys.encode_raw_inj
      (hid.symm.trans (hrec.identity.trans friendStore_identity)))
  · exact otherKey_ne (ed25519Keys.encode_raw_inj
      (hid.symm.trans (hrec.identity.trans renamedStore_identity)))

/-- The process stops when the last byte has been written. -/
theorem complete_save_recovered :
    ∃ r, startUp goJSON ed25519Keys sampleEnv visitOrder otherKey
      ((StopPoint.afterWriting (goJSON.marshalIndent renamedStore).length).leaves
        (some (goJSON.marshalIndent friendStore)) (goJSON.marshalIndent renamedStore)) = some r ∧
      (Recovers goJSON sampleEnv visitOrder friendStore r ∨
        Recovers goJSON sampleEnv visitOrder renamedStore r) :=
  (interrupted_save_iff goJSON ed25519Keys sampleEnv visitOrder nodeKey nodeKey
    friendStore_identity renamedStore_identity ⟨otherKey_ne, otherKey_ne⟩
    (.afterWriting _)).mpr (Nat.le_refl _)

end

end Awl
