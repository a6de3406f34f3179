import Awl.GoMap
import Awl.Subnet
import Awl.Text

/-!
The configuration of a node: its records, the operations on the maps of known and blocked
peers, and the defaults filled in when a file is loaded.

Operations are given on the value under the lock; what `save` writes is the whole value, so
the last content on disk is the configuration at that moment. `CreatedAt` and `LastSeen` are
readings of a clock.
-/

namespace Awl

open NetIP Text

/-- What the program takes from go-libp2p about peer IDs: the text of an ID and its decoder.
`zero` is the empty ID that a failed decoding leaves behind. -/
class PeerCodec (ID : Type) where
  string : ID → String
  decode : String → Option ID
  zero : ID
  string_zero : string zero = ""
  decode_empty : decode "" = none
  decode_string : ∀ id, id ≠ zero → decode (string id) = some id
  decode_ne_zero : ∀ s, decode s ≠ some zero

namespace PeerCodec

variable {ID : Type} [PeerCodec ID]

lemma string_inj {a b : ID} (h : string a = string b) : a = b := by
  by_cases ha : a = zero <;> by_cases hb : b = zero
  · rw [ha, hb]
  · have := decode_string b hb
    rw [← h, ha, string_zero, decode_empty] at this
    cases this
  · have := decode_string a ha
    rw [h, hb, string_zero, decode_empty] at this
    cases this
  · have h1 := decode_string a ha
    rw [h, decode_string b hb] at h1
    exact (Option.some.inj h1).symm

lemma ne_zero_of_decode {s : String} {id : ID} (h : decode s = some id) : id ≠ zero :=
  fun hz => decode_ne_zero s (hz ▸ h)

lemma string_ne_empty {a : ID} (h : a ≠ zero) : string a ≠ "" := by
  intro he
  have := decode_string a h
  rw [he, decode_empty] at this
  cases this

end PeerCodec

/-- The IDs of four default bootstrap nodes, on which the model can be evaluated. -/
inductive BootstrapPeer
  | empty | rus2 | ita1 | cze1 | can1
  deriving DecidableEq

namespace BootstrapPeer

def text : BootstrapPeer → String
  | empty => ""
  | rus2 => "12D3KooWGRjpNYgFssihdgTDnr5rdhdh9ruMTbeT41h1fXfGmatZ"
  | ita1 => "12D3KooWRXyTH7ZxerZRu6UtYQx62uCmYeZ244SsLQZbjuxX7RrL"
  | cze1 => "12D3KooWJDDYCWbLYyCLTH16TFBZoxyDYD1Ypth2rtyznXYpnpza"
  | can1 => "12D3KooWQeAvoyVnRm6T5XzWpKD8AzM1buzBL6o95iCodCZVQAsV"

/-- The same ID written as a CID, which the decoder accepts as well. -/
def cidText : BootstrapPeer → String
  | empty => ""
  | rus2 => "bafzaajaiaejcayrv5wpkudqsgd3ve4sjkg3hdr72ucvz3e26kglbsnsdwzqui2dc"
  | ita1 => "bafzaajaiaejcb2miaols4h62m3mocfus7ziv4b5yuxl5zsl4rx3bmqx37xd4sbf5"
  | cze1 => "bafzaajaiaejca7fydch7eacihn633g7yqts7mg2x3nprosemnnzugia5ow4wuvh7"
  | can1 => "bafzaajaiaejcbxcczfjvzldhjs4gumwoz5zlfuepgu5hw2ka2psete5qqw6ris6m"

instance : PeerCodec BootstrapPeer where
  string := text
  decode s := [rus2, ita1, cze1, can1].find? fun id => id.text = s ∨ id.cidText = s
  zero := empty
  string_zero := rfl
  decode_empty := by decide
  decode_string := by intro id; cases id <;> decide
  decode_ne_zero s h := by
    have := List.mem_of_find?_eq_some h
    simp at this

lemma rus2_ne_zero : rus2 ≠ PeerCodec.zero := by decide

end BootstrapPeer

/-- What the build and the Unicode, DNS and validation libraries fix. -/
structure Env where
  version : String
  darwin : Bool
  toLower : Char → Char
  isDomainName : String → Bool
  isIPv4 : String → Bool

/-! ### Records -/

structure KnownPeer where
  peerID : String := ""
  name : String := ""
  peerAlias : String := ""
  ipAddr : String := ""
  domainName : String := ""
  createdAt : ℕ := 0
  lastSeen : ℕ := 0
  confirmed : Bool := false
  declined : Bool := false
  weAllowUsingAsExitNode : Bool := false
  allowedUsingAsExitNode : Bool := false
  reportedUsingPeerID : String := ""
  deriving DecidableEq

structure BlockedPeer where
  peerID : String := ""
  displayName : String := ""
  createdAt : ℕ := 0
  deriving DecidableEq

structure P2pNodeConfig where
  peerID : String := ""
  name : String := ""
  bootstrapPeers : Option (List String) := none
  ignoreDefaultBootstrapPeers : Option Bool := none
  listenAddresses : Option (List String) := none
  reconnectionIntervalSec : ℤ := 0
  autoAcceptAuthRequests : Bool := false
  parallelSendingStreamsCount : ℤ := 0
  deriving DecidableEq

structure VPNConfig where
  interfaceName : String := ""
  ipNet : String := ""
  deriving DecidableEq

structure SOCKS5Config where
  listenerEnabled : Bool := false
  proxyingEnabled : Bool := false
  listenAddress : String := ""
  usingPeerID : String := ""
  deriving DecidableEq

structure UpdateConfig where
  updateServerURL : String := ""
  trayAutoCheckEnabled : Bool := false
  trayAutoCheckInterval : String := ""
  deriving DecidableEq

/-- The configuration. A missing slice is `none`; a missing map reads as an empty one. -/
structure Config where
  version : String := ""
  loggerLevel : String := ""
  httpListenAddress : String := ""
  httpListenOnAdminHost : Bool := false
  p2pNode : P2pNodeConfig := {}
  vpnConfig : VPNConfig := {}
  socks5 : SOCKS5Config := {}
  dnsListenAddress : String := ""
  knownPeers : GoMap String KnownPeer := ∅
  blockedPeers : GoMap String BlockedPeer := ∅
  update : UpdateConfig := {}

/-- A configuration in the default network that knows some bootstrap nodes. -/
def BootstrapPeer.conf (peers : List (BootstrapPeer × String)) : Config where
  vpnConfig := { ipNet := "10.66.0.1/24" }
  knownPeers := peers.foldl (fun m e =>
    m.insert e.1.text { peerID := e.1.text, ipAddr := e.2 }) ∅

def KnownPeer.peerId {ID : Type} [PeerCodec ID] (kp : KnownPeer) : ID :=
  (PeerCodec.decode kp.peerID).getD PeerCodec.zero

def KnownPeer.displayName (kp : KnownPeer) : String :=
  if kp.peerAlias ≠ "" then kp.peerAlias else kp.name

/-- The four-byte address a record stands for in the tunnel, `nil` if its text is not one. -/
def KnownPeer.ip4 (kp : KnownPeer) : IP := to4 (parseIP kp.ipAddr)

/-- `awldns.TrimDomainName`. -/
def Env.trimDomainName (env : Env) (domain : String) : String :=
  String.ofList ((trimSpace domain).toList.map fun c => env.toLower (if isSpace c then '_' else c))

/-- `awldns.IsValidDomainName`. -/
def Env.isValidDomainName (env : Env) (domain : String) : Bool :=
  env.isDomainName (domain ++ "." ++ "awl") && domain == env.trimDomainName domain

namespace Config

/-! ### Known and blocked peers -/

def getPeer (c : Config) (peerID : String) : Option KnownPeer := c.knownPeers.lookup peerID

def getBlockedPeer (c : Config) (peerID : String) : Option BlockedPeer :=
  c.blockedPeers.lookup peerID

def removePeer (c : Config) (peerID : String) : Config :=
  { c with knownPeers := c.knownPeers.erase peerID }

def upsertPeer (c : Config) (peer : KnownPeer) : Config :=
  { c with knownPeers := c.knownPeers.insert peer.peerID peer }

def updatePeerLastSeen (c : Config) (peerID : String) (now : ℕ) : Config :=
  match c.knownPeers.lookup peerID with
  | some kp => { c with knownPeers := c.knownPeers.insert peerID { kp with lastSeen := now } }
  | none => c

def removeBlockedPeer (c : Config) (peerID : String) : Config :=
  { c with blockedPeers := c.blockedPeers.erase peerID }

def upsertBlockedPeer (c : Config) (peerID displayName : String) (now : ℕ) : Config :=
  let createdAt := match c.blockedPeers.lookup peerID with
    | some b => b.createdAt
    | none => now
  { c with blockedPeers := c.blockedPeers.insert peerID ⟨peerID, displayName, createdAt⟩ }

/-! ### Aliases -/

def isUniqPeerAlias (c : Config) (excludePeerID peerAlias : String) : Bool :=
  ∀ e ∈ c.knownPeers.entries, e.2.peerID = excludePeerID ∨ e.2.peerAlias ≠ peerAlias

/-- `for i := 0; ok; i++` over `alias_0, alias_1, …`; `none` when the fuel runs out. -/
def suffixLoop (taken : Finset String) (peerAlias : String) : ℕ → ℕ → Option String
  | 0, _ => none
  | fuel + 1, i =>
    if suffixed peerAlias i ∈ taken then suffixLoop taken peerAlias fuel (i + 1)
    else some (suffixed peerAlias i)

/-- The alias, and the set of taken aliases with it added. -/
def genUniqPeerAlias (taken : Finset String) (name peerAlias : String) : String × Finset String :=
  let peerAlias := if peerAlias = "" then (if name = "" then "peer" else name) else peerAlias
  let peerAlias := if peerAlias ∈ taken then
      (suffixLoop taken peerAlias (taken.card + 1) 0).getD peerAlias
    else peerAlias
  (peerAlias, insert peerAlias taken)

def aliases (c : Config) : Finset String :=
  (c.knownPeers.entries.map fun e => e.2.peerAlias).toFinset

end Config

end Awl
