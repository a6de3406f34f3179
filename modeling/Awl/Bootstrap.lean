import Awl.Config

/-!
The bootstrap peers of a node: those of its configuration and, unless these are to be ignored, the
public ones that come with the program.

Entries that are no multiaddrs are skipped one by one. Those that are have to end in a peer ID, all
of them: otherwise the public peers are taken instead. How go-libp2p splits addresses and collects
those of one peer is assumed.
-/

namespace Awl

/-! ### Multiaddrs -/

/-- A component of a multiaddr. -/
inductive Component (ID : Type)
  | p2p (id : ID)
  | other (protocol value : List UInt8)
  deriving DecidableEq

abbrev Multiaddr (ID : Type) := List (Component ID)

/-- What the program takes from go-multiaddr: the parser, which also decodes the peer IDs. -/
class MultiaddrParser (ID : Type) where
  newMultiaddr : String → Option (Multiaddr ID)

open MultiaddrParser

/-- `peer.AddrInfo`. -/
structure AddrInfo (ID : Type) where
  id : ID
  addrs : List (Multiaddr ID)
  deriving DecidableEq

namespace Multiaddr

variable {ID : Type}

/-- `peer.SplitAddr`: the transport, and the ID that the address ends in. -/
def splitAddr (m : Multiaddr ID) : Multiaddr ID × Option ID :=
  match m.getLast? with
  | some (.p2p id) => (m.dropLast, some id)
  | _ => (m, none)

/-- The peer that an address is of. -/
def peerOf (m : Multiaddr ID) : Option ID := (splitAddr m).2

variable [DecidableEq ID]

/-- The body of the loop of `peer.AddrInfosFromP2pAddrs`; `none` is an error. -/
def groupAddr (m : GoMap ID (List (Multiaddr ID))) (maddr : Multiaddr ID) :
    Option (GoMap ID (List (Multiaddr ID))) :=
  match splitAddr maddr with
  | (_, none) => none
  | (transport, some id) =>
    let addrs := (m.lookup id).getD []
    some (m.insert id (if transport = [] then addrs else addrs ++ [transport]))

/-- `peer.AddrInfosFromP2pAddrs`, where `order` is the order in which the peers are listed. -/
def addrInfosFromP2pAddrs (order : GoMap ID (List (Multiaddr ID)) → List ID)
    (maddrs : List (Multiaddr ID)) : Option (List (AddrInfo ID)) :=
  (maddrs.foldlM groupAddr ∅).map fun m =>
    (order m).filterMap fun id => (m.lookup id).map fun addrs => ⟨id, addrs⟩

end Multiaddr

open Multiaddr

/-! ### Bootstrap peers -/

/-- The entry of a peer at an address. -/
def bootstrapText (addr peerID : String) : String := addr ++ "/p2p/" ++ peerID

/-- The ID of the community relay server. -/
def relayServerID : String := "12D3KooWRMFSvGstJEEZYuYq6jgZdByqwT5zpvFRZebZZbfp9XY1"

open BootstrapPeer in
def defaultBootstrapTexts : List String :=
  [bootstrapText "/dnsaddr/rus-2.bootstrap.anywherelan.com" rus2.text,
    bootstrapText "/dnsaddr/ita-1.bootstrap.anywherelan.com" ita1.text,
    bootstrapText "/dnsaddr/cze-1.bootstrap.anywherelan.com" cze1.text,
    bootstrapText "/dnsaddr/can-1.bootstrap.anywherelan.com" can1.text,
    bootstrapText "/ip4/80.211.201.49/tcp/6150" cze1.text,
    bootstrapText "/ip4/80.211.201.49/udp/6150/quic-v1" cze1.text,
    bootstrapText "/ip4/167.114.152.120/tcp/6150" can1.text,
    bootstrapText "/ip4/167.114.152.120/udp/6150/quic-v1" can1.text,
    bootstrapText "/ip6/2607:5300:201:3100::6b5f/tcp/7250" can1.text,
    bootstrapText "/ip6/2607:5300:201:3100::6b5f/udp/7250/quic-v1" can1.text,
    bootstrapText "/ip4/45.67.230.223/tcp/6150" rus2.text,
    bootstrapText "/ip4/45.67.230.223/udp/6150/quic-v1" rus2.text,
    bootstrapText "/ip4/222.255.117.203/tcp/6150" relayServerID,
    bootstrapText "/ip4/222.255.117.203/udp/6150/quic-v1" relayServerID]

/-- `DefaultBootstrapPeers`. -/
def defaultBootstrapPeers (ID : Type) [MultiaddrParser ID] : List (Multiaddr ID) :=
  defaultBootstrapTexts.filterMap newMultiaddr

namespace Config

variable {ID : Type} [MultiaddrParser ID] [DecidableEq ID]

/-- The entries that are multiaddrs. -/
def bootstrapMultiaddrs (ID : Type) [MultiaddrParser ID] (c : Config) : List (Multiaddr ID) :=
  (c.p2pNode.bootstrapPeers.getD []).filterMap newMultiaddr

/-- `GetBootstrapPeers`; `none` is a panic. -/
def getBootstrapPeers (c : Config) (order : GoMap ID (List (Multiaddr ID)) → List ID) :
    Option (List (AddrInfo ID)) :=
  let allMultiaddrs := c.bootstrapMultiaddrs ID
  let ignoreDefaultBootstrapPeers := c.p2pNode.ignoreDefaultBootstrapPeers.getD false
  let allMultiaddrs :=
    if !ignoreDefaultBootstrapPeers then allMultiaddrs ++ defaultBootstrapPeers ID
    else allMultiaddrs
  match addrInfosFromP2pAddrs order allMultiaddrs with
  | some addrInfos => some addrInfos
  | none => addrInfosFromP2pAddrs order (defaultBootstrapPeers ID)

end Config

/-! ### Grouping -/

namespace Multiaddr

variable {ID : Type} [DecidableEq ID]

lemma groupAddr_eq_none {m : GoMap ID (List (Multiaddr ID))} {maddr : Multiaddr ID} :
    groupAddr m maddr = none ↔ peerOf maddr = none := by
  rw [groupAddr, peerOf]
  rcases splitAddr maddr with ⟨transport, _ | id⟩ <;> simp

lemma mem_groupAddr {m m' : GoMap ID (List (Multiaddr ID))} {maddr : Multiaddr ID}
    (h : groupAddr m maddr = some m') (id : ID) :
    id ∈ m' ↔ id ∈ m ∨ peerOf maddr = some id := by
  rw [groupAddr] at h
  rw [peerOf]
  rcases hsplit : splitAddr maddr with ⟨transport, _ | id'⟩
  · rw [hsplit] at h
    cases h
  · rw [hsplit] at h
    cases h
    rw [Finmap.mem_insert, or_comm, Option.some_inj, eq_comm]

/-- Every address has to have a peer. -/
lemma foldlM_groupAddr_eq_none : ∀ (maddrs : List (Multiaddr ID))
    (m : GoMap ID (List (Multiaddr ID))),
    maddrs.foldlM groupAddr m = none ↔ ∃ maddr ∈ maddrs, peerOf maddr = none := by
  intro maddrs
  induction maddrs with
  | nil => simp
  | cons maddr maddrs ih =>
    intro m
    rw [List.foldlM_cons]
    rcases hm : groupAddr m maddr with _ | m'
    · simpa using Or.inl (groupAddr_eq_none.1 hm)
    · have hne : peerOf maddr ≠ none := fun h => by
        rw [groupAddr_eq_none.2 h] at hm
        cases hm
      simpa [hne] using ih m'

/-- The peers are those of the addresses. -/
lemma mem_foldlM_groupAddr : ∀ {maddrs : List (Multiaddr ID)}
    {m m' : GoMap ID (List (Multiaddr ID))}, maddrs.foldlM groupAddr m = some m' →
    ∀ id, id ∈ m' ↔ id ∈ m ∨ ∃ maddr ∈ maddrs, peerOf maddr = some id := by
  intro maddrs
  induction maddrs with
  | nil =>
    intro m m' h id
    cases h
    simp
  | cons maddr maddrs ih =>
    intro m m' h id
    rw [List.foldlM_cons] at h
    rcases hm : groupAddr m maddr with _ | m₁
    · rw [hm] at h
      cases h
    · rw [hm] at h
      rw [ih h id, mem_groupAddr hm id, or_assoc, List.exists_mem_cons_iff]

variable {order : GoMap ID (List (Multiaddr ID)) → List ID} {maddrs : List (Multiaddr ID)}

lemma addrInfosFromP2pAddrs_eq_none :
    addrInfosFromP2pAddrs order maddrs = none ↔ ∃ maddr ∈ maddrs, peerOf maddr = none := by
  rw [addrInfosFromP2pAddrs, Option.map_eq_none_iff, foldlM_groupAddr_eq_none]

/-- **The peers that are returned.** -/
lemma mem_addrInfosFromP2pAddrs (horder : ∀ m, GoMap.Ranges m (order m))
    {infos : List (AddrInfo ID)} (h : addrInfosFromP2pAddrs order maddrs = some infos) (id : ID) :
    id ∈ infos.map AddrInfo.id ↔ ∃ maddr ∈ maddrs, peerOf maddr = some id := by
  obtain ⟨m, hm, rfl⟩ := Option.map_eq_some_iff.1 h
  have hmem := mem_foldlM_groupAddr hm id
  rw [or_iff_right (Finmap.notMem_empty)] at hmem
  simp only [← hmem, List.mem_map, List.mem_filterMap, Option.map_eq_some_iff]
  constructor
  · rintro ⟨info, ⟨id', -, addrs, hlookup, rfl⟩, rfl⟩
    exact Finmap.mem_of_lookup_eq_some hlookup
  · intro hid
    obtain ⟨addrs, hlookup⟩ := Finmap.mem_iff.1 hid
    exact ⟨⟨id, addrs⟩, ⟨id, ((horder m).2 id).2 hid, addrs, hlookup, rfl⟩, rfl⟩

end Multiaddr

/-! ### Private bootstrap peers -/

namespace Config

variable {ID : Type} [MultiaddrParser ID] [DecidableEq ID]

/-- The list of the configuration names the peer, in an entry that is a valid multiaddr. -/
def NamesBootstrapPeer (c : Config) (id : ID) : Prop :=
  ∃ maddr ∈ c.bootstrapMultiaddrs ID, peerOf maddr = some id

/-- Without the public peers. -/
lemma getBootstrapPeers_of_ignore {c : Config}
    (hignore : c.p2pNode.ignoreDefaultBootstrapPeers = some true)
    (order : GoMap ID (List (Multiaddr ID)) → List ID) :
    c.getBootstrapPeers order =
      match addrInfosFromP2pAddrs order (c.bootstrapMultiaddrs ID) with
      | some addrInfos => some addrInfos
      | none => addrInfosFromP2pAddrs order (defaultBootstrapPeers ID) := by
  rw [getBootstrapPeers, hignore]
  rfl

/-- An entry without a peer: the public peers are returned. -/
lemma getBootstrapPeers_fallback {c : Config}
    (hignore : c.p2pNode.ignoreDefaultBootstrapPeers = some true)
    (hdefault : ∀ maddr ∈ defaultBootstrapPeers ID, peerOf maddr ≠ none)
    {order : GoMap ID (List (Multiaddr ID)) → List ID}
    (horder : ∀ m, GoMap.Ranges m (order m)) {maddr : Multiaddr ID}
    (hmem : maddr ∈ c.bootstrapMultiaddrs ID) (hnone : peerOf maddr = none) :
    ∃ infos, c.getBootstrapPeers order = some infos ∧ ∀ id, id ∈ infos.map AddrInfo.id ↔
      ∃ maddr ∈ defaultBootstrapPeers ID, peerOf maddr = some id := by
  have hfail : addrInfosFromP2pAddrs order (c.bootstrapMultiaddrs ID) = none :=
    addrInfosFromP2pAddrs_eq_none.2 ⟨maddr, hmem, hnone⟩
  rw [getBootstrapPeers_of_ignore hignore, hfail]
  rcases hpublic : addrInfosFromP2pAddrs order (defaultBootstrapPeers ID) with _ | infos
  · obtain ⟨maddr, hmem, hnone⟩ := addrInfosFromP2pAddrs_eq_none.1 hpublic
    exact absurd hnone (hdefault maddr hmem)
  · exact ⟨infos, rfl, mem_addrInfosFromP2pAddrs horder hpublic⟩

/-- **Private bootstrap peers stay private**: only the peers of the list are returned, and all of
them, exactly if no valid entry is without a peer, or else the list names the public peers. -/
theorem getBootstrapPeers_private_iff (c : Config)
    (hignore : c.p2pNode.ignoreDefaultBootstrapPeers = some true)
    (hdefault : ∀ maddr ∈ defaultBootstrapPeers ID, peerOf maddr ≠ none)
    {order : GoMap ID (List (Multiaddr ID)) → List ID}
    (horder : ∀ m, GoMap.Ranges m (order m)) :
    (∃ infos, c.getBootstrapPeers order = some infos ∧
        ∀ id, id ∈ infos.map AddrInfo.id ↔ c.NamesBootstrapPeer id) ↔
      (∀ maddr ∈ c.bootstrapMultiaddrs ID, peerOf maddr ≠ none) ∨
        ∀ id, (∃ maddr ∈ defaultBootstrapPeers ID, peerOf maddr = some id) ↔
          c.NamesBootstrapPeer id := by
  by_cases hall : ∀ maddr ∈ c.bootstrapMultiaddrs ID, peerOf maddr ≠ none
  · refine iff_of_true ?_ (Or.inl hall)
    rw [getBootstrapPeers_of_ignore hignore]
    rcases hinfos : addrInfosFromP2pAddrs order (c.bootstrapMultiaddrs ID) with _ | infos
    · obtain ⟨maddr, hmem, hnone⟩ := addrInfosFromP2pAddrs_eq_none.1 hinfos
      exact absurd hnone (hall maddr hmem)
    · exact ⟨infos, rfl, mem_addrInfosFromP2pAddrs horder hinfos⟩
  · rw [or_iff_right hall]
    push Not at hall
    obtain ⟨maddr, hmem, hnone⟩ := hall
    obtain ⟨infos, hinfos, hpublic⟩ :=
      getBootstrapPeers_fallback hignore hdefault horder hmem hnone
    simp only [hinfos, Option.some.injEq, exists_eq_left', hpublic]

end Config

/-! ### A parser of the addresses above -/

def textBytes (s : String) : List UInt8 := s.toByteArray.data.toList

/-- The protocols that are followed by a value. -/
def valueProtocols : List (List UInt8) := ["ip4", "ip6", "tcp", "udp", "dnsaddr"].map textBytes

/-- The components of a text. -/
def parseComponents : List (List UInt8) → Option (Multiaddr (List UInt8))
  | [] => some []
  | name :: rest =>
    if name = textBytes "quic-v1" then (parseComponents rest).map (.other name [] :: ·)
    else
      match rest with
      | [] => none
      | value :: rest =>
        if value = [] then none
        else if name = textBytes "p2p" then (parseComponents rest).map (.p2p value :: ·)
        else if name ∈ valueProtocols then (parseComponents rest).map (.other name value :: ·)
        else none

/-- Addresses are separated by slashes, and begin with one. The IDs are left in their text form. -/
instance textParser : MultiaddrParser (List UInt8) where
  newMultiaddr s :=
    match (textBytes s).splitOn 0x2f with
    | [] :: name :: rest => parseComponents (name :: rest)
    | _ => none

lemma defaultBootstrapPeers_peerOf :
    ∀ maddr ∈ defaultBootstrapPeers (List UInt8), peerOf maddr ≠ none := by
  have h : (defaultBootstrapPeers (List UInt8)).all (fun maddr => (peerOf maddr).isSome) = true :=
    by decide +kernel
  exact fun maddr hmem => Option.isSome_iff_ne_none.1 (List.all_eq_true.1 h maddr hmem)

/-- A node in a private network, with these bootstrap peers. -/
def privateConf (bootstrapPeers : List String) : Config where
  p2pNode :=
    { bootstrapPeers := some bootstrapPeers
      ignoreDefaultBootstrapPeers := some true }

def privateID : String := "12D3KooWNWa2r6dJVogbjNf1CKrKNttVAhKZr1PpWRPJYX7o4t4M"

/-- One entry for the private peer, another one for its relay. -/
def relayedConf (relay : String) : Config :=
  privateConf [bootstrapText "/ip4/10.0.0.7/tcp/6150" privateID, relay]

/-- The entry of the relay has no peer ID: instead of the private peer, the public ones are
returned. -/
theorem missingID_public :
    (relayedConf "/ip4/10.0.0.8/tcp/6150").p2pNode.ignoreDefaultBootstrapPeers = some true ∧
      ∀ order : GoMap (List UInt8) (List (Multiaddr (List UInt8))) → List (List UInt8),
        (∀ m, GoMap.Ranges m (order m)) →
        ∃ infos, (relayedConf "/ip4/10.0.0.8/tcp/6150").getBootstrapPeers order = some infos ∧
          textBytes privateID ∉ infos.map AddrInfo.id ∧
          textBytes relayServerID ∈ infos.map AddrInfo.id := by
  refine ⟨rfl, fun order horder => ?_⟩
  have hmem : [.other (textBytes "ip4") (textBytes "10.0.0.8"),
      .other (textBytes "tcp") (textBytes "6150")] ∈
      (relayedConf "/ip4/10.0.0.8/tcp/6150").bootstrapMultiaddrs (List UInt8) := by decide +kernel
  obtain ⟨infos, hinfos, hpublic⟩ :=
    Config.getBootstrapPeers_fallback rfl defaultBootstrapPeers_peerOf horder hmem rfl
  refine ⟨infos, hinfos, ?_, ?_⟩
  · rw [hpublic]
    decide +kernel
  · rw [hpublic]
    decide +kernel

/-- The entry of the relay is no multiaddr. -/
theorem invalidEntry_private :
    ∃ infos, (relayedConf "10.0.0.8:6150").getBootstrapPeers (fun m => m.keys.toList) =
        some infos ∧
      ∀ id : List UInt8, id ∈ infos.map AddrInfo.id ↔ id = textBytes privateID := by
  have hlist : (relayedConf "10.0.0.8:6150").bootstrapMultiaddrs (List UInt8) =
      [[.other (textBytes "ip4") (textBytes "10.0.0.7"),
        .other (textBytes "tcp") (textBytes "6150"), .p2p (textBytes privateID)]] := by
    decide +kernel
  have hpeer : peerOf [.other (textBytes "ip4") (textBytes "10.0.0.7"),
      .other (textBytes "tcp") (textBytes "6150"), .p2p (textBytes privateID)] =
      some (textBytes privateID) := rfl
  obtain ⟨infos, hinfos, hids⟩ :=
    (Config.getBootstrapPeers_private_iff (relayedConf "10.0.0.8:6150") rfl
      defaultBootstrapPeers_peerOf GoMap.ranges_toList).2 (Or.inl (by simp [hlist, hpeer]))
  refine ⟨infos, hinfos, fun id => ?_⟩
  rw [hids, Config.NamesBootstrapPeer, hlist]
  simp [hpeer, eq_comm]

end Awl
