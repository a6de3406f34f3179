import Awl.TunnelPeers
import Awl.TwoWay

/-!
The two maps of the tunnel as a two-way index, and what a refresh makes of it.

A refresh is a sweep of assignments over the known peers followed by a sweep of discards, so
it leaves the tunnel routing exactly as configured if and only if no address is handed over
the wrong way round: its old holder is still known and is visited before the new one.
-/

namespace Awl

open NetIP PeerCodec

/-- Keys are canonical IDs, equal to the ID in the record, and addresses are IPv4 addresses
of one peer each. -/
structure Config.Canonical (ID : Type) [PeerCodec ID] (c : Config) : Prop where
  key : ∀ e ∈ c.knownPeers.entries,
    e.2.peerID = e.1 ∧ (decode e.1 : Option ID).map string = some e.1
  valid : ∀ e ∈ c.knownPeers.entries, e.2.ip4 ≠ []
  distinct : ∀ e ∈ c.knownPeers.entries, ∀ e' ∈ c.knownPeers.entries,
    e.2.ip4 = e'.2.ip4 → e.1 = e'.1

instance (ID : Type) [PeerCodec ID] (c : Config) : Decidable (c.Canonical ID) :=
  decidable_of_iff
    ((∀ e ∈ c.knownPeers.entries,
        e.2.peerID = e.1 ∧ (decode e.1 : Option ID).map string = some e.1) ∧
      (∀ e ∈ c.knownPeers.entries, e.2.ip4 ≠ []) ∧
      ∀ e ∈ c.knownPeers.entries, ∀ e' ∈ c.knownPeers.entries,
        e.2.ip4 = e'.2.ip4 → e.1 = e'.1)
    ⟨fun h => ⟨h.1, h.2.1, h.2.2⟩, fun h => ⟨h.1, h.2, h.3⟩⟩

/-- Where the configuration puts each peer. -/
def Config.table {ID : Type} [PeerCodec ID] (c : Config) (id : ID) : Option IP :=
  (c.getPeer (string id)).map KnownPeer.ip4

lemma Config.mem_knownPeers_iff {ID : Type} [PeerCodec ID] {c : Config} (id : ID) :
    string id ∈ c.knownPeers ↔ c.table id ≠ none := by
  rw [table, Ne, Option.map_eq_none_iff, getPeer, Finmap.lookup_eq_none, not_not]

lemma Config.table_eq_some {ID : Type} [PeerCodec ID] {c : Config} {id : ID} {ip : IP} :
    c.table id = some ip ↔ ∃ kp, c.knownPeers.lookup (string id) = some kp ∧ kp.ip4 = ip :=
  Option.map_eq_some_iff

namespace Config.Canonical

variable {ID : Type} [PeerCodec ID] {c : Config}

/-- The ID a key stands for. -/
def idOf (ID : Type) [PeerCodec ID] (k : String) : ID := (decode k).getD zero

lemma string_idOf (h : c.Canonical ID) {k : String} (hk : k ∈ c.knownPeers) :
    string (idOf ID k) = k := by
  obtain ⟨kp, hkp⟩ := Finmap.mem_iff.mp hk
  obtain ⟨id, hid, hs⟩ := Option.map_eq_some_iff.mp (h.key _ (GoMap.mem_entries.mpr hkp)).2
  rw [idOf, hid, Option.getD_some, hs]

lemma idOf_string (h : c.Canonical ID) {id : ID} (hk : string id ∈ c.knownPeers) :
    idOf ID (string id) = id :=
  string_inj (h.string_idOf hk)

lemma peerId (h : c.Canonical ID) {k : String} {kp : KnownPeer}
    (hk : c.knownPeers.lookup k = some kp) : (kp.peerId : ID) = idOf ID k := by
  rw [KnownPeer.peerId, (h.key _ (GoMap.mem_entries.mpr hk)).1, idOf]

lemma table_idOf (h : c.Canonical ID) {k : String} {kp : KnownPeer}
    (hk : c.knownPeers.lookup k = some kp) : c.table (idOf ID k) = some kp.ip4 := by
  rw [table, h.string_idOf (Finmap.mem_of_lookup_eq_some hk), getPeer, hk, Option.map_some]

lemma table_inj (h : c.Canonical ID) {a b : ID} {ip : IP} (ha : c.table a = some ip)
    (hb : c.table b = some ip) : a = b := by
  obtain ⟨kp, hkp, rfl⟩ := Option.map_eq_some_iff.mp ha
  obtain ⟨kp', hkp', he⟩ := Option.map_eq_some_iff.mp hb
  exact string_inj (h.distinct _ (GoMap.mem_entries.mpr hkp) _ (GoMap.mem_entries.mpr hkp') he.symm)

lemma mem_map_idOf (h : c.Canonical ID) {ks : List String} (hks : GoMap.Ranges c.knownPeers ks)
    (id : ID) : id ∈ ks.map (idOf ID) ↔ c.table id ≠ none := by
  rw [table, Ne, Option.map_eq_none_iff, ← Ne, getPeer, Option.ne_none_iff_isSome,
    Finmap.lookup_isSome, List.mem_map]
  constructor
  · rintro ⟨k, hk, rfl⟩
    rw [h.string_idOf ((hks.2 k).mp hk)]
    exact (hks.2 k).mp hk
  · exact fun hk => ⟨string id, (hks.2 _).mpr hk, h.idOf_string hk⟩

lemma map_string_idOf (h : c.Canonical ID) {ks : List String}
    (hks : GoMap.Ranges c.knownPeers ks) : (ks.map (idOf ID)).map string = ks := by
  rw [List.map_map]
  exact (List.map_congr_left fun k hk => h.string_idOf ((hks.2 k).mp hk)).trans (List.map_id ks)

lemma nodup_map_idOf (h : c.Canonical ID) {ks : List String}
    (hks : GoMap.Ranges c.knownPeers ks) : (ks.map (idOf ID)).Nodup :=
  List.Nodup.of_map string (by rw [h.map_string_idOf hks]; exact hks.1)

lemma pair_sublist_iff (h : c.Canonical ID) {ks : List String}
    (hks : GoMap.Ranges c.knownPeers ks) (a b : ID) :
    [a, b].Sublist (ks.map (idOf ID)) ↔ [string a, string b].Sublist ks := by
  constructor
  · intro hs
    have := hs.map string
    rwa [h.map_string_idOf hks] at this
  · intro hs
    have ha : string a ∈ c.knownPeers := (hks.2 _).mp (hs.subset (by simp))
    have hb : string b ∈ c.knownPeers := (hks.2 _).mp (hs.subset (by simp))
    have := hs.map (idOf ID)
    rwa [List.map_cons, List.map_singleton, h.idOf_string ha, h.idOf_string hb] at this

end Config.Canonical

namespace Tunnel

variable {ID : Type} [DecidableEq ID]

/-! ### The index and its updates -/

/-- Where each peer lives, and who lives at each address. -/
def index (t : Tunnel ID) : TwoWay ID IP where
  fwd id := (t.peerIDToPeer.lookup id).bind fun p => (t.heap[p]?).map VpnPeer.localIP
  bwd ip := (t.netIPToPeer.lookup ip).bind fun p => (t.heap[p]?).map VpnPeer.peerID

lemma Inv.fwd_eq {t : Tunnel ID} {id : ID} {p : Ptr} {vp : VpnPeer ID}
    (hid : t.peerIDToPeer.lookup id = some p) (hvp : t.heap[p]? = some vp) :
    t.index.fwd id = some vp.localIP := by
  simp [index, hid, hvp]

lemma Inv.fwd_ne_none {t : Tunnel ID} (hi : t.Inv) (id : ID) :
    t.index.fwd id ≠ none ↔ id ∈ t.peerIDToPeer := by
  rcases hid : t.peerIDToPeer.lookup id with _ | p
  · simp [index, hid, Finmap.lookup_eq_none.mp hid]
  · obtain ⟨vp, hvp, -, -⟩ := hi.reg hid
    simp [Inv.fwd_eq hid hvp, Finmap.mem_of_lookup_eq_some hid]

/-- A peer found at an address is the registered one that lives there. -/
lemma Inv.bwd_iff {t : Tunnel ID} (hi : t.Inv) (ip : IP) (id : ID) :
    t.index.bwd ip = some id ↔
      ∃ p, t.netIPToPeer.lookup ip = some p ∧ t.peerIDToPeer.lookup id = some p := by
  constructor
  · intro h
    obtain ⟨p, hp, hmap⟩ := Option.bind_eq_some_iff.mp h
    obtain ⟨vp, hvp, -, hreg⟩ := hi.addr hp
    rw [hvp, Option.map_some] at hmap
    exact ⟨p, hp, Option.some.inj hmap ▸ hreg⟩
  · rintro ⟨p, hp, hid⟩
    obtain ⟨vp, hvp, rfl, -⟩ := hi.reg hid
    simp [index, hp, hvp]

lemma Inv.index_addPeer {t : Tunnel ID} (hi : t.Inv) {id : ID}
    (hid : t.peerIDToPeer.lookup id = none) {ip : IP} (h4 : ip.length = 4) :
    (t.addPeer id ip h4).index = t.index.assign id ip := by
  have hnone : t.index.fwd id = none := by simp [index, hid]
  rw [TwoWay.assign, hnone, if_neg (by simp)]
  ext1
  · funext id'
    simp only [index, Function.update_apply, addPeer_byID]
    split_ifs with h
    · simp [addPeer_get_new, newVpnPeer]
    · rcases hp : t.peerIDToPeer.lookup id' with _ | p
      · rfl
      · obtain ⟨vp, hvp, -, -⟩ := hi.reg hp
        simp [addPeer_get hvp, hvp]
  · funext ip'
    simp only [index, addPeer_byIP, reduceCtorEq, if_false]
    split_ifs with h
    · simp [addPeer_get_new, newVpnPeer]
    · rcases hp : t.netIPToPeer.lookup ip' with _ | p
      · rfl
      · obtain ⟨vp, hvp, -, -⟩ := hi.addr hp
        simp [addPeer_get hvp, hvp]

lemma Inv.index_movePeer {t : Tunnel ID} (hi : t.Inv) {p : Ptr} {vp : VpnPeer ID}
    (hid : t.peerIDToPeer.lookup vp.peerID = some p) (hvp : t.heap[p]? = some vp) {ip : IP}
    (h4 : ip.length = 4) (hne : vp.localIP ≠ ip) :
    (t.movePeer p vp ip h4).index = t.index.assign vp.peerID ip := by
  have hsome := Inv.fwd_eq hid hvp
  rw [TwoWay.assign, hsome, if_neg (by simpa using hne)]
  ext1
  · funext id'
    simp only [Function.update_apply]
    split_ifs with h
    · subst h
      exact Inv.fwd_eq (t := t.movePeer p vp ip h4) hid (by rw [movePeer_get hvp, if_pos rfl])
    · change (t.peerIDToPeer.lookup id').bind _ = (t.peerIDToPeer.lookup id').bind _
      rcases hp : t.peerIDToPeer.lookup id' with _ | q
      · rfl
      · obtain ⟨vq, hvq, hqid, -⟩ := hi.reg hp
        have hqp : q ≠ p := by
          rintro rfl
          rw [hvp] at hvq
          cases hvq
          exact h hqid.symm
        rw [Option.bind_some, Option.bind_some, movePeer_get hvp, if_neg hqp]
  · funext ip'
    simp only [index, movePeer_byIP, Option.some.injEq, eq_comm (a := vp.localIP)]
    split_ifs with h₁ h₂
    · simp [movePeer_get hvp]
    · rfl
    · rcases hp : t.netIPToPeer.lookup ip' with _ | q
      · rfl
      · rw [Option.bind_some, Option.bind_some, movePeer_get hvp]
        split_ifs with hq
        · rw [hq, hvp]; rfl
        · rfl

lemma Inv.index_closePeer {t t' : Tunnel ID} (hi : t.Inv) {id : ID} {p : Ptr}
    (hid : t.peerIDToPeer.lookup id = some p) (h : t.closePeer p = some t') :
    t'.index = t.index.discard id := by
  obtain ⟨t₁, vp, h₁, hvp, rfl, -, -, hbyID, hbyIP, hheap⟩ := closePeer_spec hi hid
  rw [h] at h₁
  cases h₁
  have hsome := Inv.fwd_eq hid hvp
  ext1
  · funext id'
    simp only [TwoWay.discard, Function.update_apply, index, hbyID, GoMap.lookup_erase_ite]
    split_ifs with he
    · rfl
    · rcases hp : t.peerIDToPeer.lookup id' with _ | q
      · rfl
      · obtain ⟨vq, hvq, hqid, -⟩ := hi.reg hp
        have hqp : q ≠ p := by
          rintro rfl
          rw [hvp] at hvq
          cases hvq
          exact he hqid.symm
        rw [Option.bind_some, Option.bind_some, hheap q hqp]
  · funext ip
    change (t'.netIPToPeer.lookup ip).bind _ = if t.index.fwd vp.peerID = some ip then none
      else (t.netIPToPeer.lookup ip).bind _
    simp only [hsome, Option.some.injEq, hbyIP, GoMap.lookup_erase_ite, eq_comm (a := vp.localIP)]
    split_ifs with he
    · rfl
    · rcases hp : t.netIPToPeer.lookup ip with _ | q
      · rfl
      · obtain ⟨vq, hvq, hip, -⟩ := hi.addr hp
        have hqp : q ≠ p := by
          rintro rfl
          rw [hvp] at hvq
          cases hvq
          exact he hip.symm
        rw [Option.bind_some, Option.bind_some, hheap q hqp]

/-- The loop that closes peers discards those it closes. -/
lemma index_closeWhere {drop : ID → Bool} {ids : List ID} {t t' : Tunnel ID} (hi : t.Inv)
    (h : t.closeWhere drop ids = some t') : t'.index = t.index.discardAll (ids.filter drop) := by
  induction ids generalizing t with
  | nil => cases h; rfl
  | cons id ids ih =>
    rw [List.filter_cons]
    rcases hp : t.peerIDToPeer.lookup id with _ | p
    · -- a peer that is not registered
      have hnone : t.index.fwd id = none := by simp [index, hp]
      rw [ih hi (by simpa [closeWhere, hp] using h)]
      split_ifs
      · rw [TwoWay.discardAll, TwoWay.discardAll, List.foldl_cons, TwoWay.discard_of_none hnone]
      · rfl
    · obtain ⟨vp, hvp, rfl, -⟩ := hi.reg hp
      by_cases hd : drop vp.peerID = true
      · obtain ⟨t₁, -, h₁, -⟩ := closePeer_spec hi hp
        rw [ih (hi.closePeer hp h₁) (by simpa [closeWhere, hp, hvp, hd, h₁] using h), if_pos hd,
          hi.index_closePeer hp h₁]
        rfl
      · rw [ih hi (by simpa [closeWhere, hp, hvp, hd] using h), if_neg hd]

end Tunnel

end Awl
