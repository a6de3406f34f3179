import Awl.TunnelIndex

/-!
Refreshing the list of peers, one configuration after another.

The tunnel routes as configured after a refresh exactly when no address is handed over the
wrong way round. If it is, the entry of the new holder is deleted together with the old one,
and since neither the peer nor its address changes any more, no later refresh repairs it.
-/

namespace Awl

open NetIP PeerCodec

namespace Tunnel

variable {ID : Type} [DecidableEq ID] [PeerCodec ID]

/-- The tunnel routes as configured: it serves the known peers, at their addresses, and finds
each of them at its address and nobody anywhere else. -/
structure Routed (t : Tunnel ID) (c : Config) : Prop where
  keys : ∀ id, id ∈ t.peerIDToPeer ↔ string id ∈ c.knownPeers
  home : ∀ id p, t.peerIDToPeer.lookup id = some p → ∃ vp kp, t.heap[p]? = some vp ∧
    c.knownPeers.lookup (string id) = some kp ∧ vp.localIP = kp.ip4
  owner : ∀ ip p, t.netIPToPeer.lookup ip = some p ↔ ∃ id kp, t.peerIDToPeer.lookup id = some p ∧
    c.knownPeers.lookup (string id) = some kp ∧ kp.ip4 = ip

/-- `RefreshPeersList` from `t` ends in `t'`, having visited `KnownPeers` in the order `ks`. -/
def Refreshed (t : Tunnel ID) (c : Config) (ks : List String) (t' : Tunnel ID) : Prop :=
  GoMap.Ranges c.knownPeers ks ∧ ∃ ids, GoMap.Ranges (t.refreshKnown c ks).peerIDToPeer ids ∧
    t.refreshPeersList c ks ids = some t'

/-- A known peer is given the address of another peer of the tunnel only if that one is known
as well and is visited first. -/
def NoHandover (t : Tunnel ID) (c : Config) (ks : List String) : Prop :=
  ∀ a b p vp kp, t.peerIDToPeer.lookup a = some p → t.heap[p]? = some vp →
    c.knownPeers.lookup (string b) = some kp → vp.localIP = kp.ip4 → a ≠ b →
    [string a, string b].Sublist ks

/-! ### One refresh -/

lemma Inv.index_refreshPeer {t : Tunnel ID} (hi : t.Inv) {kp : KnownPeer} (h : kp.ip4 ≠ []) :
    (t.refreshPeer kp).index = t.index.assign kp.peerId kp.ip4 := by
  rcases refreshPeer_cases hi kp with
    ⟨h0, -⟩ | ⟨h4, ⟨p, vp, hp, hvp, hid, ⟨he, hr⟩ | ⟨hne, hr⟩⟩ | ⟨hnew, hr⟩⟩
  · exact absurd h0 h
  · rw [hr, TwoWay.assign, if_pos (by rw [Inv.fwd_eq hp hvp, he])]
  · rw [hr, hi.index_movePeer (hid ▸ hp) hvp h4 hne, hid]
  · rw [hr, hi.index_addPeer hnew h4]

variable {c : Config} {ks : List String} {t t' : Tunnel ID}

/-- The loop over the known peers is a sweep of assignments. -/
lemma Inv.index_refreshKnown (hc : c.Canonical ID) (hi : t.Inv)
    (hks : ∀ k ∈ ks, k ∈ c.knownPeers) :
    (t.refreshKnown c ks).index =
      t.index.assignAll c.table (ks.map (Config.Canonical.idOf ID)) := by
  induction ks generalizing t with
  | nil => rfl
  | cons k ks ih =>
    obtain ⟨kp, hkp⟩ := Finmap.mem_iff.mp (hks k (by simp))
    have hv := hc.valid _ (GoMap.mem_entries.mpr hkp)
    have hrest : ∀ k' ∈ ks, k' ∈ c.knownPeers := fun k' hk' => hks k' (by simp [hk'])
    rw [Tunnel.refreshKnown, GoMap.rangeLoop_cons, hkp, ← Tunnel.refreshKnown,
      ih (hi.refreshPeer kp) hrest, List.map_cons, TwoWay.assignAll_cons, hc.table_idOf hkp,
      hi.index_refreshPeer hv, hc.peerId hkp]

/-- A refresh is the two sweeps that lead to the table of the configuration. -/
lemma Refreshed.index (hc : c.Canonical ID) (hi : t.Inv) (h : Refreshed t c ks t') :
    ∃ ds, t.index.Sweeps c.table (ks.map (Config.Canonical.idOf ID)) ds ∧
      t'.index = (t.index.assignAll c.table (ks.map (Config.Canonical.idOf ID))).discardAll ds := by
  obtain ⟨hks, ids, hids, hr⟩ := h
  have hindex := hi.index_refreshKnown hc fun k hk => (hks.2 k).mp hk
  have hi' := hi.refreshKnown c ks
  refine ⟨ids.filter (unknown c), ⟨hc.nodup_map_idOf hks, hc.mem_map_idOf hks, fun id => ?_⟩, ?_⟩
  · have hmem := hc.mem_map_idOf hks id
    have hun : unknown c id = true ↔ c.table id = none := by
      simp [unknown, Config.table]
    rw [List.mem_filter, hids.2, ← hi'.fwd_ne_none, hun, hindex]
    refine and_congr_left fun hn => ?_
    rw [TwoWay.assignAll_fwd_notMem fun hk => hmem.mp hk hn]
  · rw [index_closeWhere hi' hr, hindex]

lemma Refreshed.inv (hi : t.Inv) (h : Refreshed t c ks t') : t'.Inv := by
  obtain ⟨-, ids, -, hr⟩ := h
  obtain ⟨t₁, h₁, hi₁⟩ := refreshPeersList_spec hi c ks ids
  rw [hr] at h₁
  exact Option.some.inj h₁ ▸ hi₁

/-- Routing as configured is the index mirroring the table of the configuration. -/
lemma Inv.routed_iff (hi : t.Inv) : t.Routed c ↔ t.index.Mirrors c.table := by
  constructor
  · rintro ⟨hkeys, hhome, howner⟩
    refine ⟨funext fun id => ?_, fun ip id => ?_⟩
    · rcases hp : t.peerIDToPeer.lookup id with _ | p
      · have hk := (hkeys id).not.mp (Finmap.lookup_eq_none.mp hp)
        rw [Config.mem_knownPeers_iff, not_not] at hk
        simp [Tunnel.index, hp, hk]
      · obtain ⟨vp, kp, hvp, hkp, he⟩ := hhome id p hp
        rw [Inv.fwd_eq hp hvp, he, Config.table_eq_some.mpr ⟨kp, hkp, rfl⟩]
    · rw [hi.bwd_iff, Config.table_eq_some]
      constructor
      · rintro ⟨p, hip, hid⟩
        obtain ⟨id', kp, hid', hkp, he⟩ := (howner ip p).mp hip
        obtain ⟨vp, hvp, rfl, -⟩ := hi.reg hid
        obtain ⟨vp', hvp', rfl, -⟩ := hi.reg hid'
        rw [hvp] at hvp'
        exact Option.some.inj hvp' ▸ ⟨kp, hkp, he⟩
      · rintro ⟨kp, hkp, he⟩
        obtain ⟨p, hp⟩ := Finmap.mem_iff.mp
          ((hkeys id).mpr (Finmap.mem_of_lookup_eq_some hkp))
        exact ⟨p, (howner ip p).mpr ⟨id, kp, hp, hkp, he⟩, hp⟩
  · rintro ⟨hfwd, hbwd⟩
    refine ⟨fun id => ?_, fun id p hp => ?_, fun ip p => ⟨fun hip => ?_, ?_⟩⟩
    · rw [← hi.fwd_ne_none, hfwd, Config.mem_knownPeers_iff]
    · obtain ⟨vp, hvp, -, -⟩ := hi.reg hp
      obtain ⟨kp, hkp, he⟩ := Config.table_eq_some.mp
        ((congrFun hfwd id).symm.trans (Inv.fwd_eq hp hvp))
      exact ⟨vp, kp, hvp, hkp, he.symm⟩
    · obtain ⟨vp, hvp, rfl, hreg⟩ := hi.addr hip
      obtain ⟨kp, hkp, he⟩ := Config.table_eq_some.mp
        ((congrFun hfwd _).symm.trans (Inv.fwd_eq hreg hvp))
      exact ⟨vp.peerID, kp, hreg, hkp, he⟩
    · rintro ⟨id, kp, hid, hkp, he⟩
      obtain ⟨q, hq, hid'⟩ := (hi.bwd_iff ip id).mp
        ((hbwd ip id).mpr (Config.table_eq_some.mpr ⟨kp, hkp, he⟩))
      rw [hid] at hid'
      exact Option.some.inj hid' ▸ hq

lemma noHandover_iff (hc : c.Canonical ID) (hks : GoMap.Ranges c.knownPeers ks) :
    t.NoHandover c ks ↔
      TwoWay.LeftFirst t.index.fwd c.table (ks.map (Config.Canonical.idOf ID)) := by
  constructor
  · intro h a b ip ha hb hab
    obtain ⟨p, hp, hmap⟩ := Option.bind_eq_some_iff.mp ha
    obtain ⟨vp, hvp, hip⟩ := Option.map_eq_some_iff.mp hmap
    obtain ⟨kp, hkp, he⟩ := Config.table_eq_some.mp hb
    exact (hc.pair_sublist_iff hks a b).mpr (h a b p vp kp hp hvp hkp (hip.trans he.symm) hab)
  · intro h a b p vp kp hp hvp hkp he hab
    exact (hc.pair_sublist_iff hks a b).mp
      (h a b vp.localIP (Inv.fwd_eq hp hvp) (Config.table_eq_some.mpr ⟨kp, hkp, he.symm⟩) hab)

/-- **One refresh** of a tunnel that routes some table leaves it routing as configured exactly
when no address is handed over the wrong way round. -/
lemma Refreshed.routed_iff (hc : c.Canonical ID) (hi : t.Inv)
    (hm : t.index.Mirrors t.index.fwd) (h : Refreshed t c ks t') :
    t'.Routed c ↔ t.NoHandover c ks := by
  obtain ⟨ds, hsweeps, hindex⟩ := h.index hc hi
  rw [(h.inv hi).routed_iff, noHandover_iff hc h.1, hindex]
  exact hsweeps.mirrors_iff hm fun _ _ _ ha hb => hc.table_inj ha hb

/-! ### Any number of refreshes -/

/-- A refresh in a run: the configuration, the order, and the tunnel it leaves. -/
structure Visit (ID : Type) where
  conf : Config
  order : List String
  after : Tunnel ID

/-- A run of refreshes from `t`, each from a configuration with canonical keys and distinct
addresses. -/
def Run (t : Tunnel ID) : List (Visit ID) → Prop
  | [] => True
  | v :: vs => v.conf.Canonical ID ∧ Refreshed t v.conf v.order v.after ∧ v.after.Run vs

def NoHandovers (t : Tunnel ID) : List (Visit ID) → Prop
  | [] => True
  | v :: vs => t.NoHandover v.conf v.order ∧ v.after.NoHandovers vs

lemma run_routed_iff {vs : List (Visit ID)} (hi : t.Inv) (hm : t.index.Mirrors t.index.fwd)
    (h : t.Run vs) : (∀ v ∈ vs, v.after.Routed v.conf) ↔ t.NoHandovers vs := by
  induction vs generalizing t with
  | nil => simp [NoHandovers]
  | cons v vs ih =>
    obtain ⟨hc, hr, hrest⟩ := h
    have hi' := hr.inv hi
    rw [List.forall_mem_cons, NoHandovers, ← hr.routed_iff hc hi hm]
    refine and_congr_right fun hrouted => ?_
    have hm' := hi'.routed_iff.mp hrouted
    exact ih hi' (hm'.1 ▸ hm') hrest

/-- **After every refresh the tunnel routes as configured, exactly as long as no address has
been handed over the wrong way round.** -/
theorem refresh_routed_iff {conf : Config} {vs : List (Visit ID)}
    (h : (empty conf : Tunnel ID).Run vs) :
    (∀ v ∈ vs, v.after.Routed v.conf) ↔ (empty conf : Tunnel ID).NoHandovers vs :=
  run_routed_iff (inv_empty conf) ⟨rfl, by simp [Tunnel.index, empty]⟩ h

section

open BootstrapPeer

/-- The tunnel after a refresh in the given orders. -/
def refreshed (t : Tunnel BootstrapPeer) (c : Config) (ks : List String)
    (ids : List BootstrapPeer) : Tunnel BootstrapPeer :=
  (t.refreshPeersList c ks ids).getD t

lemma refreshed_spec {t : Tunnel BootstrapPeer} (hi : t.Inv) (c : Config) (ks : List String)
    (ids : List BootstrapPeer) (hks : GoMap.Ranges c.knownPeers ks)
    (hids : GoMap.Ranges (t.refreshKnown c ks).peerIDToPeer ids) :
    Refreshed t c ks (t.refreshed c ks ids) := by
  obtain ⟨t', ht, -⟩ := refreshPeersList_spec hi c ks ids
  exact ⟨hks, ids, hids, by rw [refreshed, ht, Option.getD_some]⟩

def twoPeers : Config := BootstrapPeer.conf [(rus2, "10.66.0.2"), (ita1, "10.66.0.3")]

/-- A tunnel that serves two peers. -/
def serving : Tunnel BootstrapPeer :=
  (empty twoPeers).refreshed twoPeers [rus2.text, ita1.text] [rus2, ita1]

lemma serving_refreshed :
    Refreshed (empty twoPeers) twoPeers [rus2.text, ita1.text] serving :=
  refreshed_spec (inv_empty twoPeers) _ _ _ (by decide) (by decide)

lemma serving_inv : serving.Inv := serving_refreshed.inv (inv_empty twoPeers)

def secondOnly : Config := BootstrapPeer.conf [(ita1, "10.66.0.2")]

def afterRemoval : Tunnel BootstrapPeer :=
  serving.refreshed secondOnly [ita1.text] [rus2, ita1]

/-- The first peer is removed and the second gets its address: the second loop deletes the
new entry along with the old peer. -/
theorem handover_from_removed :
    (empty twoPeers).Run [⟨twoPeers, [rus2.text, ita1.text], serving⟩,
        ⟨secondOnly, [ita1.text], afterRemoval⟩] ∧
      afterRemoval.netIPToPeer.lookup [10, 66, 0, 2] = none ∧
      ¬ afterRemoval.Routed secondOnly := by
  have hlook : afterRemoval.netIPToPeer.lookup [10, 66, 0, 2] = none := by decide
  have hstep : Refreshed serving secondOnly [ita1.text] afterRemoval :=
    refreshed_spec serving_inv _ _ _ (by decide) (by decide)
  refine ⟨⟨by decide, serving_refreshed, by decide, hstep, trivial⟩, hlook, fun h => ?_⟩
  have htable : secondOnly.table ita1 = some [10, 66, 0, 2] := by decide
  obtain ⟨kp, hkp, hip⟩ := Config.table_eq_some.mp htable
  have hfound := (h.owner [10, 66, 0, 2] 1).mpr ⟨ita1, kp, by decide, hkp, hip⟩
  exact Option.some_ne_none 1 (hfound.symm.trans hlook)

def firstMoved : Config := BootstrapPeer.conf [(rus2, "10.66.0.4"), (ita1, "10.66.0.2")]

def afterMove : Tunnel BootstrapPeer :=
  serving.refreshed firstMoved [rus2.text, ita1.text] [rus2, ita1]

/-- The first peer moves away before the second takes its address. -/
theorem handover_after_move :
    (empty twoPeers : Tunnel BootstrapPeer).Run [⟨twoPeers, [rus2.text, ita1.text], serving⟩,
        ⟨firstMoved, [rus2.text, ita1.text], afterMove⟩] ∧
      afterMove.Routed firstMoved := by
  have hstep : Refreshed serving firstMoved [rus2.text, ita1.text] afterMove :=
    refreshed_spec serving_inv _ _ _ (by decide) (by decide)
  have hrun : (empty twoPeers).Run [⟨twoPeers, [rus2.text, ita1.text], serving⟩,
      ⟨firstMoved, [rus2.text, ita1.text], afterMove⟩] :=
    ⟨by decide, serving_refreshed, by decide, hstep, trivial⟩
  have hfirst : (empty twoPeers : Tunnel BootstrapPeer).NoHandover twoPeers
      [rus2.text, ita1.text] := by
    intro a b p vp kp hp
    simp [empty] at hp
  have hsecond : serving.NoHandover firstMoved [rus2.text, ita1.text] := by
    have hc : firstMoved.Canonical BootstrapPeer := by decide
    refine (noHandover_iff hc (by decide)).mpr ?_
    have hold : ∀ a, serving.index.fwd a =
        [(rus2, [10, 66, 0, 2]), (ita1, [10, 66, 0, 3])].lookup a := by
      intro a; cases a <;> decide
    have hnew : ∀ b : BootstrapPeer, firstMoved.table b =
        [(rus2, [10, 66, 0, 4]), (ita1, [10, 66, 0, 2])].lookup b := by
      intro b; cases b <;> decide
    intro a b ip ha hb hab
    rw [hold] at ha
    rw [hnew] at hb
    cases a <;> cases b <;> first
      | exact absurd rfl hab
      | (cases ha; done)
      | (cases hb; done)
      | (cases ha; cases hb; done)
      | decide
  exact ⟨hrun, (refresh_routed_iff hrun).mpr ⟨hfirst, hsecond, trivial⟩
    ⟨firstMoved, [rus2.text, ita1.text], afterMove⟩ (by simp)⟩

end

end Tunnel

end Awl
