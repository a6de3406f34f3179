import Awl.Config
import Awl.SortFunc
import Awl.UserAgent
import Mathlib.Data.String.Basic
import Mathlib.Data.List.Sort

/-!
Lists of peers, as the API and the SOCKS5 service make them out of the map of known peers.

The known peers are sorted by their IDs, and then those that are connected are put first. The rows
are filled in one by one, while the configuration may change. A name given on the command line is
looked up in that list. The available exit nodes are sorted by their names alone.
-/

namespace Awl

open PeerCodec SortFunc

namespace Listings

variable {ID : Type} [PeerCodec ID]

/-! ### Known peers -/

/-- `entity.KnownPeersResponse`, without the connections and what is measured of them. -/
structure KnownPeersResponse where
  peerID : String
  name : String
  displayName : String
  peerAlias : String
  version : String
  ipAddr : String
  domainName : String
  connected : Bool
  confirmed : Bool
  declined : Bool
  weAllowUsingAsExitNode : Bool
  allowedUsingAsExitNode : Bool
  reportedUsingPeerID : String
  reportedUsingPeerName : String
  lastSeen : ℕ
  deriving DecidableEq

/-- What is read for one row: the record at one time, the name of the exit node of the peer at
another, and what the host knows. -/
structure Look (ID : Type) where
  record : Config
  reported : Config
  peerUserAgent : ID → String
  isConnected : ID → Bool

/-- The body of the loop of `getKnownPeers`. -/
def row (look : Look ID) (peerID : String) : KnownPeersResponse :=
  -- whether the peer is still known is not looked at
  let knownPeer := (look.record.getPeer peerID).getD {}
  let id : ID := knownPeer.peerId
  let reportedUsingPeerID := knownPeer.reportedUsingPeerID
  { peerID := peerID
    name := knownPeer.displayName
    displayName := knownPeer.displayName
    peerAlias := knownPeer.peerAlias
    version := String.ofList (UserAgent.versionFromUserAgent (look.peerUserAgent id).toList)
    ipAddr := knownPeer.ipAddr
    domainName := knownPeer.domainName
    connected := look.isConnected id
    confirmed := knownPeer.confirmed
    declined := knownPeer.declined
    weAllowUsingAsExitNode := knownPeer.weAllowUsingAsExitNode
    allowedUsingAsExitNode := knownPeer.allowedUsingAsExitNode
    reportedUsingPeerID := reportedUsingPeerID
    reportedUsingPeerName :=
      if reportedUsingPeerID ≠ "" then
        match look.reported.getPeer reportedUsingPeerID with
        | some p => p.displayName
        | none => ""
      else ""
    lastSeen := knownPeer.lastSeen }

/-- The comparison of the second sort, which is stable. -/
def less (a b : KnownPeersResponse) : Bool := a.connected && !b.connected

/-- `getKnownPeers`, where the known peers are visited in the order `order`, and `look` is what is
read for each of them. -/
def getKnownPeers (order : List String) (look : String → Look ID) : List KnownPeersResponse :=
  let peers := order.mergeSort fun a b => a ≤ b
  let result := peers.map fun peerID => row (look peerID) peerID
  result.mergeSort fun a b => !less b a

/-- `getPeerIdByAlias` of the command line; `none` is an error. -/
def getPeerIdByAlias (peers : List KnownPeersResponse) (peerAlias : String) : Option String :=
  if peerAlias = "" then none
  else (peers.find? fun p => p.peerAlias = peerAlias).map KnownPeersResponse.peerID

/-! ### The order of the known peers -/

/-- The second sort puts the connected peers first, and leaves everything else in its order. -/
lemma mergeSort_connected (rows : List KnownPeersResponse) :
    rows.mergeSort (fun a b => !less b a) =
      rows.filter (·.connected) ++ rows.filter fun r => !r.connected := by
  have htrans : ∀ a b c : KnownPeersResponse, (!less b a) = true → (!less c b) = true →
      (!less c a) = true := by
    intro a b c
    simp only [less]
    cases a.connected <;> cases b.connected <;> cases c.connected <;> simp
  have htotal : ∀ a b : KnownPeersResponse, (!less b a || !less a b) = true := by
    intro a b
    simp only [less]
    cases a.connected <;> cases b.connected <;> rfl
  have hsorted := List.pairwise_mergeSort htrans htotal rows
  have hpairwise : (rows.mergeSort fun a b => !less b a).Pairwise fun a b =>
      b.connected = true → a.connected = true := by
    refine hsorted.imp fun {a b} hab hb => ?_
    simpa [less, hb] using hab
  rw [eq_filter_append_filter hpairwise,
    filter_mergeSort htrans htotal (fun a b ha hb => by simp [less, ha]),
    filter_mergeSort htrans htotal (fun a b ha hb => ?_)]
  simp only [Bool.not_eq_eq_eq_not, Bool.not_true] at ha hb
  simp [less, hb]

/-- The first sort: the IDs in ascending order, each of them once. -/
lemma sorted_ids {m : GoMap String KnownPeer} {order : List String} (h : m.Ranges order) :
    (order.mergeSort fun a b => a ≤ b).Pairwise (· < ·) ∧
      ∀ k, k ∈ order.mergeSort (fun a b => a ≤ b) ↔ k ∈ m := by
  have hperm := List.mergeSort_perm order fun a b => decide (a ≤ b)
  have hle : (order.mergeSort fun a b => decide (a ≤ b)).Pairwise (· ≤ ·) :=
    (List.pairwise_mergeSort (fun a b c => by simpa using le_trans)
      (fun a b => by simpa using le_total a b) order).imp of_decide_eq_true
  have hne : (order.mergeSort fun a b => decide (a ≤ b)).Pairwise (· ≠ ·) :=
    hperm.nodup_iff.mpr h.1
  exact ⟨hle.imp₂ (fun a b hab hn => lt_of_le_of_ne hab hn) hne,
    fun k => hperm.mem_iff.trans (h.2 k)⟩

/-- **The list of known peers** does not depend on the order in which the map is visited: it has one
row for each peer that was known at the beginning, those that are connected first, and each of the
two groups in the order of the IDs. -/
theorem getKnownPeers_ordered (c : Config) (look : String → Look ID) :
    ∃ ids : List String, ids.Pairwise (· < ·) ∧ (∀ k, k ∈ ids ↔ k ∈ c.knownPeers) ∧
      ∀ order, c.knownPeers.Ranges order →
        getKnownPeers order look =
          (ids.map fun k => row (look k) k).filter (·.connected) ++
            (ids.map fun k => row (look k) k).filter fun r => !r.connected := by
  obtain ⟨order, horder⟩ := c.knownPeers.exists_ranges
  obtain ⟨hsorted, hmem⟩ := sorted_ids horder
  refine ⟨_, hsorted, hmem, fun order' horder' => ?_⟩
  obtain ⟨hsorted', hmem'⟩ := sorted_ids horder'
  have hperm : (order'.mergeSort fun a b => a ≤ b).Perm (order.mergeSort fun a b => a ≤ b) :=
    (List.perm_ext_iff_of_nodup (hsorted'.imp ne_of_lt) (hsorted.imp ne_of_lt)).mpr fun k =>
      (hmem' k).trans (hmem k).symm
  have hsame : (order'.mergeSort fun a b => a ≤ b) = order.mergeSort fun a b => a ≤ b :=
    hperm.eq_of_pairwise (fun a b _ _ hab hba => absurd hba hab.asymm) hsorted' hsorted
  rw [getKnownPeers, mergeSort_connected, hsame]

/-! ### Names on the command line -/

/-- What is read if nothing changes meanwhile. -/
def Look.still (c : Config) (peerUserAgent : ID → String) (isConnected : ID → Bool) : Look ID where
  record := c
  reported := c
  peerUserAgent := peerUserAgent
  isConnected := isConnected

lemma mem_getKnownPeers {c : Config} {order : List String} (h : c.knownPeers.Ranges order)
    {look : String → Look ID} {r : KnownPeersResponse} :
    r ∈ getKnownPeers order look ↔ ∃ k ∈ c.knownPeers, row (look k) k = r := by
  rw [getKnownPeers, (List.mergeSort_perm _ _).mem_iff, List.mem_map]
  simp only [(sorted_ids h).2]

/-- **A name leads to its peer**, for every name there is, exactly if no two known peers have the
same name. -/
theorem getPeerIdByAlias_iff (c : Config) (peerUserAgent : ID → String)
    (isConnected : ID → Bool) :
    (∀ order, c.knownPeers.Ranges order → ∀ k kp, c.getPeer k = some kp → kp.peerAlias ≠ "" →
        getPeerIdByAlias (getKnownPeers order fun _ => .still c peerUserAgent isConnected)
          kp.peerAlias = some k) ↔
      ∀ k k' kp kp', c.getPeer k = some kp → c.getPeer k' = some kp' →
        kp.peerAlias ≠ "" → kp.peerAlias = kp'.peerAlias → k = k' := by
  have hrow : ∀ {k kp}, c.getPeer k = some kp →
      (row (.still c peerUserAgent isConnected) k).peerAlias = kp.peerAlias := by
    intro k kp hk
    simp [row, Look.still, hk]
  constructor
  · intro hfind k k' kp kp' hk hk' hne heq
    obtain ⟨order, h⟩ := c.knownPeers.exists_ranges
    have hfound := hfind order h k kp hk hne
    rw [heq, hfind order h k' kp' hk' (heq ▸ hne)] at hfound
    exact (Option.some.inj hfound).symm
  · intro hdistinct order h k kp hk hne
    have hmem : ∀ {r}, r ∈ getKnownPeers order (fun _ => .still c peerUserAgent isConnected) ↔
        ∃ k ∈ c.knownPeers, row (.still c peerUserAgent isConnected) k = r := mem_getKnownPeers h
    generalize getKnownPeers order (fun _ => .still c peerUserAgent isConnected) = peers at hmem ⊢
    rw [getPeerIdByAlias, if_neg hne]
    cases hfind : peers.find? fun p => p.peerAlias = kp.peerAlias with
    | none =>
      have hself := hmem.mpr ⟨k, Finmap.mem_of_lookup_eq_some hk, rfl⟩
      exact absurd (hrow hk) (by simpa using List.find?_eq_none.mp hfind _ hself)
    | some r =>
      obtain ⟨k', hk', rfl⟩ := hmem.mp (List.mem_of_find?_eq_some hfind)
      obtain ⟨kp', hkp'⟩ := Finmap.mem_iff.mp hk'
      have halias : kp'.peerAlias = kp.peerAlias :=
        (hrow hkp').symm.trans (by simpa using List.find?_some hfind)
      exact congrArg some (hdistinct k k' kp kp' hk hkp' hne halias.symm).symm

/-! ### Exit nodes -/

/-- `entity.AvailableProxy`. -/
structure AvailableProxy where
  peerID : String
  peerName : String
  deriving DecidableEq

/-- The body of the loop of `ListAvailableProxies`; `none` is a peer that is left out. -/
def availableProxy (isConnected : ID → Bool) (peer : KnownPeer) : Option AvailableProxy :=
  if !peer.allowedUsingAsExitNode then none
  else if !isConnected peer.peerId then none
  else some ⟨peer.peerID, peer.displayName⟩

/-- `strings.Compare` of the names. -/
def compareNames (a b : AvailableProxy) : ℤ :=
  if a.peerName = b.peerName then 0 else if a.peerName < b.peerName then -1 else 1

def availableProxies (c : Config) (isConnected : ID → Bool) (order : List String) :
    List AvailableProxy :=
  order.filterMap fun k => (c.knownPeers.lookup k).bind (availableProxy isConnected)

/-- `ListAvailableProxies`, where the known peers are visited in the order `order`. -/
def listAvailableProxies
    (sortFunc : (AvailableProxy → AvailableProxy → ℤ) → List AvailableProxy → List AvailableProxy)
    (c : Config) (isConnected : ID → Bool) (order : List String) : List AvailableProxy :=
  sortFunc compareNames (availableProxies c isConnected order)

lemma compareNames_neg {a b : AvailableProxy} :
    compareNames a b < 0 ↔ a.peerName < b.peerName := by
  unfold compareNames
  split_ifs with heq hlt
  · simp [heq]
  · simp [hlt]
  · simp [hlt]

lemma compareNames_strictWeakOn (l : List AvailableProxy) : StrictWeakOn compareNames l :=
  strictWeakOn_of_key fun _ _ _ _ => compareNames_neg

lemma availableProxies_perm {c : Config} {isConnected : ID → Bool} {order order' : List String}
    (h : c.knownPeers.Ranges order) (h' : c.knownPeers.Ranges order') :
    (availableProxies c isConnected order).Perm (availableProxies c isConnected order') := by
  refine List.Perm.filterMap _ ?_
  exact (List.perm_ext_iff_of_nodup h.1 h'.1).mpr fun k => (h.2 k).trans (h'.2 k).symm

/-- **The list of exit nodes** is determined, whatever the order in which the map is visited and
however the sort treats equal names, exactly if no two exit nodes in it have the same name. -/
theorem listAvailableProxies_determined_iff (c : Config) (isConnected : ID → Bool) :
    (∀ sortFunc sortFunc' order order', Sorts sortFunc → Sorts sortFunc' →
        c.knownPeers.Ranges order → c.knownPeers.Ranges order' →
        listAvailableProxies sortFunc c isConnected order =
          listAvailableProxies sortFunc' c isConnected order') ↔
      ∀ k k' kp kp' a b, c.getPeer k = some kp → c.getPeer k' = some kp' →
        availableProxy isConnected kp = some a → availableProxy isConnected kp' = some b →
        a.peerName = b.peerName → a = b := by
  have hmem : ∀ {order}, c.knownPeers.Ranges order → ∀ {a},
      a ∈ availableProxies c isConnected order ↔
        ∃ k kp, c.getPeer k = some kp ∧ availableProxy isConnected kp = some a := by
    intro order horder a
    rw [availableProxies, List.mem_filterMap]
    constructor
    · rintro ⟨k, -, hk⟩
      exact ⟨k, Option.bind_eq_some_iff.mp hk⟩
    · rintro ⟨k, kp, hkp, ha⟩
      exact ⟨k, (horder.2 k).mpr (Finmap.mem_of_lookup_eq_some hkp),
        Option.bind_eq_some_iff.mpr ⟨kp, hkp, ha⟩⟩
  constructor
  · intro hsame k k' kp kp' a b hkp hkp' ha hb hname
    obtain ⟨order, horder⟩ := c.knownPeers.exists_ranges
    by_contra hne
    -- of two sorts, one lists the exit nodes of one name by their IDs and the other the other way
    have hid : a.peerID ≠ b.peerID := fun hid => hne (by
      cases a
      cases b
      simp_all)
    obtain ⟨sortFunc, sortFunc', hsort, hsort', hdiff⟩ := exists_sorts_ne AvailableProxy.peerID
      (compareNames_strictWeakOn _) ((hmem horder).mpr ⟨k, kp, hkp, ha⟩)
      ((hmem horder).mpr ⟨k', kp', hkp', hb⟩) (by rw [compareNames_neg, hname]; exact lt_irrefl _)
      (by rw [compareNames_neg, hname]; exact lt_irrefl _) hid
    exact hdiff (hsame sortFunc sortFunc' order order hsort hsort' horder horder)
  · intro hdistinct sortFunc sortFunc' order order' hsort hsort' horder horder'
    refine (hsort _ _ (compareNames_strictWeakOn _)).unique
      (hsort' _ _ (compareNames_strictWeakOn _)) (availableProxies_perm horder horder') ?_
    intro a ha b hb hab hba
    obtain ⟨k, kp, hkp, ha⟩ := (hmem horder).mp ha
    obtain ⟨k', kp', hkp', hb⟩ := (hmem horder).mp hb
    rw [compareNames_neg, not_lt] at hab hba
    exact hdistinct k k' kp kp' a b hkp hkp' ha hb (le_antisymm hba hab)

end Listings

end Awl
