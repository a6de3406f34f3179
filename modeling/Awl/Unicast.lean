import Awl.Addresses
import Awl.Outbound
import Awl.TunnelRefresh

/-!
Who gets a packet, in a network that has only grown.

Peers are added one after the other, with generated addresses or explicit ones, and the tunnel
is refreshed now and then. No address ever changes hands then, so a peer that is alone at its
address is found there; a packet to that address goes to this peer and to nobody else, unless
the address is one of the two that mean everybody. The check of explicit addresses lets those
through.
-/

namespace Awl

open NetIP PeerCodec Text AuthStatus

variable {ID : Type} [DecidableEq ID] [PeerCodec ID]

/-- Keys are the texts of IDs and stand in their records. -/
def Config.Keyed (ID : Type) [PeerCodec ID] (c : Config) : Prop :=
  ∀ k kp, c.knownPeers.lookup k = some kp → kp.peerID = k ∧ ∃ id : ID, string id = k

omit [DecidableEq ID] in
lemma decode_string_getD (id : ID) : (decode (string id) : Option ID).getD zero = id := by
  by_cases h : id = zero
  · rw [h, string_zero, decode_empty, Option.getD_none]
  · rw [decode_string id h, Option.getD_some]

omit [DecidableEq ID] in
lemma Config.Keyed.string_peerId {c : Config} (h : c.Keyed ID) {k : String} {kp : KnownPeer}
    (hk : c.knownPeers.lookup k = some kp) : string (kp.peerId : ID) = k := by
  obtain ⟨hid, id, rfl⟩ := h k kp hk
  rw [KnownPeer.peerId, hid, decode_string_getD]

omit [DecidableEq ID] in
lemma Config.Keyed.table_peerId {c : Config} (h : c.Keyed ID) {k : String} {kp : KnownPeer}
    (hk : c.knownPeers.lookup k = some kp) : c.table (kp.peerId : ID) = some kp.ip4 :=
  Config.table_eq_some.mpr ⟨kp, by rw [h.string_peerId hk, hk], rfl⟩

/-- What `AddPeer` on its own does: nothing, or one more record. -/
lemma AuthStatus.addPeer_cases (env : Env) (peerID : ID) (name peerAlias : String)
    (confirmed : Bool) (ipAddr : String) (s : Node ID) :
    (addPeer env peerID name peerAlias confirmed ipAddr).serial s = s ∨
    ∃ peer : KnownPeer, peer.peerID = string peerID ∧
      s.conf.knownPeers.lookup (string peerID) = none ∧
      ((addPeer env peerID name peerAlias confirmed ipAddr).serial s).conf.knownPeers =
        s.conf.knownPeers.insert (string peerID) peer ∧
      ((addPeer env peerID name peerAlias confirmed ipAddr).serial s).conf.vpnConfig =
        s.conf.vpnConfig := by
  by_cases ha : Admits s.conf peerID peerAlias
  · rcases hip : chooseIP s.conf (string peerID) ipAddr with e | ip
    · exact Or.inl (addPeer_badIP hip)
    · refine Or.inr ⟨newPeer env (string peerID) name (trimSpace peerAlias) ip confirmed s.now,
        rfl, ha.1, ?_⟩
      rw [addPeer_added ha hip]
      exact AddressEvent.added_conf peerID _
  · exact Or.inl (addPeer_refused ha)

namespace Tunnel

/-- Peers are added to the node `s₀` and the tunnel is refreshed, in any order; in between
packets come and go. -/
inductive Grown (env : Env) (s₀ : Node ID) : Node ID → Tunnel ID → Prop
  | start : Grown env s₀ s₀ (empty s₀.conf)
  | addPeer {s : Node ID} {t : Tunnel ID} (peerID : ID) (name peerAlias : String)
      (confirmed : Bool) (ipAddr : String) (h : Grown env s₀ s t) :
      Grown env s₀ ((AuthStatus.addPeer env peerID name peerAlias confirmed ipAddr).serial s) t
  | refresh {s : Node ID} {t t' : Tunnel ID} (ks : List String) (h : Grown env s₀ s t)
      (hr : Refreshed t s.conf ks t') : Grown env s₀ s t'
  | traffic {s : Node ID} {t t' : Tunnel ID} (h : Grown env s₀ s t) (hf : SameFace t t') :
      Grown env s₀ s t'

/-- The tunnel has peers of the configuration only, at their addresses, and finds those that
are alone at theirs. -/
structure Serves (t : Tunnel ID) (c : Config) : Prop where
  inv : t.Inv
  home : ∀ id ip, t.index.fwd id = some ip → c.table id = some ip
  sole : t.index.FindsSole
  bcast : t.udpBroadcastAddr =
    getIPv4BroadcastAddress ⟨c.vpnLocalIPMask.1, c.vpnLocalIPMask.2⟩

/-! ### One step -/

variable {t t' : Tunnel ID} {c : Config}

lemma refreshPeer_bcast (t : Tunnel ID) (kp : KnownPeer) :
    (t.refreshPeer kp).udpBroadcastAddr = t.udpBroadcastAddr := by
  unfold refreshPeer
  split_ifs
  · rfl
  · split
    · split
      · split_ifs <;> rfl
      · rfl
    · rfl

omit [PeerCodec ID] in
lemma closeWhere_bcast {drop : ID → Bool} {ids : List ID} (hi : t.Inv)
    (h : t.closeWhere drop ids = some t') : t'.udpBroadcastAddr = t.udpBroadcastAddr := by
  induction ids generalizing t with
  | nil => cases h; rfl
  | cons id ids ih =>
    rcases hp : t.peerIDToPeer.lookup id with _ | p
    · exact ih hi (by simpa [closeWhere, hp] using h)
    · obtain ⟨vp, hvp, rfl, -⟩ := hi.reg hp
      by_cases hd : drop vp.peerID = true
      · obtain ⟨t₁, -, h₁, -, -, -, hb, -⟩ := closePeer_spec hi hp
        rw [ih (hi.closePeer hp h₁) (by simpa [closeWhere, hp, hvp, hd, h₁] using h), hb]
      · exact ih hi (by simpa [closeWhere, hp, hvp, hd] using h)

/-- The visit of a known peer: it is in the tunnel afterwards, and whoever was still is. -/
lemma Serves.refreshPeer (h : t.Serves c) (hc : c.Keyed ID) {k : String} {kp : KnownPeer}
    (hk : c.knownPeers.lookup k = some kp) :
    (t.refreshPeer kp).Serves c ∧
      (kp.ip4 ≠ [] → (t.refreshPeer kp).index.fwd kp.peerId = some kp.ip4) ∧
      ∀ id ip, t.index.fwd id = some ip → (t.refreshPeer kp).index.fwd id = some ip := by
  by_cases h0 : kp.ip4 = []
  · have hsame : t.refreshPeer kp = t := by simp [Tunnel.refreshPeer, h0]
    rw [hsame]
    exact ⟨h, fun hne => absurd h0 hne, fun _ _ hid => hid⟩
  · have hindex := h.inv.index_refreshPeer h0
    have htable := hc.table_peerId hk
    -- a peer of the tunnel already has its address
    have hold : ∀ b, t.index.fwd kp.peerId = some b → b = kp.ip4 := by
      intro b hb
      exact Option.some.inj ((h.home _ b hb).symm.trans htable)
    have hfwd : ∀ id, (t.refreshPeer kp).index.fwd id =
        if id = kp.peerId then some kp.ip4 else t.index.fwd id := by
      intro id
      rw [hindex, TwoWay.assign_fwd, Function.update_apply]
    refine ⟨⟨h.inv.refreshPeer kp, fun id ip hid => ?_, hindex ▸ h.sole.assign hold,
      (refreshPeer_bcast t kp).trans h.bcast⟩, fun _ => by rw [hfwd, if_pos rfl],
      fun id ip hid => ?_⟩
    · rw [hfwd] at hid
      split_ifs at hid with he
      · rw [he, htable, hid]
      · exact h.home id ip hid
    · rw [hfwd]
      split_ifs with he
      · rw [he] at hid
        rw [hold ip hid]
      · exact hid

/-- The loop over the known peers: by induction on the order, with those visited so far. -/
lemma Serves.refreshKnown (hc : c.Keyed ID) (ks : List String) :
    ∀ t : Tunnel ID, t.Serves c →
      (t.refreshKnown c ks).Serves c ∧
        (∀ k ∈ ks, ∀ kp, c.knownPeers.lookup k = some kp → kp.ip4 ≠ [] →
          (t.refreshKnown c ks).index.fwd kp.peerId = some kp.ip4) ∧
        ∀ id ip, t.index.fwd id = some ip → (t.refreshKnown c ks).index.fwd id = some ip := by
  induction ks with
  | nil => exact fun t h => ⟨h, by simp, fun _ _ hid => hid⟩
  | cons k ks ih =>
    intro t h
    rcases hk : c.knownPeers.lookup k with _ | kp
    · obtain ⟨hs, hin, hkeep⟩ := ih t h
      have hloop : t.refreshKnown c (k :: ks) = t.refreshKnown c ks := by
        rw [Tunnel.refreshKnown, GoMap.rangeLoop_cons, hk, ← Tunnel.refreshKnown]
      rw [hloop]
      refine ⟨hs, fun k' hk' kp' hkp' h0 => ?_, hkeep⟩
      rcases List.mem_cons.mp hk' with rfl | hk'
      · rw [hk] at hkp'
        cases hkp'
      · exact hin k' hk' kp' hkp' h0
    · obtain ⟨hs₁, hin₁, hkeep₁⟩ := h.refreshPeer hc hk
      obtain ⟨hs, hin, hkeep⟩ := ih (t.refreshPeer kp) hs₁
      have hloop : t.refreshKnown c (k :: ks) = (t.refreshPeer kp).refreshKnown c ks := by
        rw [Tunnel.refreshKnown, GoMap.rangeLoop_cons, hk, ← Tunnel.refreshKnown]
      rw [hloop]
      refine ⟨hs, fun k' hk' kp' hkp' h0 => ?_, fun id ip hid => hkeep id ip (hkeep₁ id ip hid)⟩
      rcases List.mem_cons.mp hk' with rfl | hk'
      · rw [hk] at hkp'
        cases hkp'
        exact hkeep _ _ (hin₁ h0)
      · exact hin k' hk' kp' hkp' h0

/-- A refresh: nobody is closed, and every known peer with an address is in the tunnel. -/
lemma Serves.refreshed (h : t.Serves c) (hc : c.Keyed ID) {ks : List String}
    (hr : Refreshed t c ks t') :
    t'.Serves c ∧ ∀ k kp, c.knownPeers.lookup k = some kp → kp.ip4 ≠ [] →
      t'.index.fwd kp.peerId = some kp.ip4 := by
  have hinv := hr.inv h.inv
  obtain ⟨hks, ids, hids, hr⟩ := hr
  obtain ⟨hs, hin, -⟩ := Serves.refreshKnown hc ks t h
  have hnone : ids.filter (unknown c) = [] := by
    rw [List.filter_eq_nil_iff]
    intro id hid
    obtain ⟨ip, hip⟩ := Option.ne_none_iff_exists'.mp
      ((hs.inv.fwd_ne_none id).mpr ((hids.2 id).mp hid))
    have htable := hs.home id ip hip
    have hknown : c.getPeer (string id) ≠ none := by
      intro hn
      rw [Config.table, hn] at htable
      cases htable
    simpa [unknown] using hknown
  have hindex : t'.index = (t.refreshKnown c ks).index := by
    rw [index_closeWhere hs.inv hr, hnone]
    rfl
  refine ⟨⟨hinv, hindex ▸ hs.home, hindex ▸ hs.sole,
    (closeWhere_bcast hs.inv hr).trans hs.bcast⟩, fun k kp hk h0 => ?_⟩
  rw [hindex]
  exact hin k ((hks.2 k).mpr (Finmap.mem_of_lookup_eq_some hk)) kp hk h0

omit [PeerCodec ID] in
lemma SameFace.index (h : SameFace t t') : t'.index = t.index := by
  have hpeers : ∀ {α : Type} (f : VpnPeer ID → α), (∀ vp vp' : VpnPeer ID,
      vp.face = vp'.face → f vp = f vp') → ∀ p : Ptr, (t'.heap[p]?).map f = (t.heap[p]?).map f := by
    intro α f hf p
    have hp := h.peers p
    rcases h₁ : t.heap[p]? with _ | vp <;> rcases h₂ : t'.heap[p]? with _ | vp'
    · rfl
    · rw [h₁, h₂] at hp
      cases hp
    · rw [h₁, h₂] at hp
      cases hp
    · rw [h₁, h₂] at hp
      rw [Option.map_some, Option.map_some, hf vp' vp (Option.some.inj hp)]
  ext1
  · funext id
    simp only [Tunnel.index, h.byID]
    congr 1
    funext p
    refine hpeers _ (fun vp vp' he => ?_) p
    simp only [VpnPeer.face, Prod.mk.injEq] at he
    exact he.2.1
  · funext ip
    simp only [Tunnel.index, h.byIP]
    congr 1
    funext p
    exact hpeers _ (fun vp vp' he => by simp only [VpnPeer.face, Prod.mk.injEq] at he; exact he.1) p

/-! ### Runs -/

/-- What holds all along. -/
lemma Grown.serves {env : Env} {s₀ s : Node ID} (h₀ : s₀.conf.knownPeers = ∅)
    (h : Grown env s₀ s t) :
    s.conf.Keyed ID ∧ t.Serves s.conf ∧ s.conf.vpnConfig = s₀.conf.vpnConfig := by
  induction h with
  | start =>
    refine ⟨fun k kp hk => ?_, ⟨inv_empty _, ?_, ?_, rfl⟩, rfl⟩
    · rw [h₀] at hk
      simp at hk
    · intro id ip hid
      simp [Tunnel.index, empty] at hid
    · intro id ip hid
      simp [Tunnel.index, empty] at hid
  | @addPeer s t peerID name peerAlias confirmed ipAddr _ ih =>
    obtain ⟨hkeyed, hserves, hnet⟩ := ih
    obtain hsame | ⟨peer, hpid, hnew, hpeers, hvpn⟩ :=
      AuthStatus.addPeer_cases env peerID name peerAlias confirmed ipAddr s
    · rw [hsame]
      exact ⟨hkeyed, hserves, hnet⟩
    · set s' := (AuthStatus.addPeer env peerID name peerAlias confirmed ipAddr).serial s
      have hlook : ∀ k, s'.conf.knownPeers.lookup k =
          if k = string peerID then some peer else s.conf.knownPeers.lookup k := fun k => by
        rw [hpeers, GoMap.lookup_insert_ite]
      refine ⟨fun k kp hk => ?_, { hserves with home := fun id ip hid => ?_, bcast := ?_ },
        hvpn.trans hnet⟩
      · rw [hlook] at hk
        split_ifs at hk with he
        · cases hk
          exact ⟨hpid.trans he.symm, peerID, he.symm⟩
        · exact hkeyed k kp hk
      · obtain ⟨kp, hkp, hip⟩ := Config.table_eq_some.mp (hserves.home id ip hid)
        have hne : string id ≠ string peerID := fun he => by
          rw [he, hnew] at hkp
          cases hkp
        exact Config.table_eq_some.mpr ⟨kp, by rw [hlook, if_neg hne, hkp], hip⟩
      · rw [hserves.bcast]
        simp only [Config.vpnLocalIPMask, hvpn]
  | refresh ks _ hr ih =>
    obtain ⟨hkeyed, hserves, hnet⟩ := ih
    exact ⟨hkeyed, (hserves.refreshed hkeyed hr).1, hnet⟩
  | traffic _ hf ih =>
    obtain ⟨hkeyed, hserves, hnet⟩ := ih
    exact ⟨hkeyed, ⟨hf.inv hserves.inv, hf.index ▸ hserves.home, hf.index ▸ hserves.sole,
      hf.bcast.trans hserves.bcast⟩, hnet⟩

/-- The destinations that mean everybody, for an IPv4 address. -/
lemma isBroadcast_four {l : IP} {n : ℕ} (hs : t.Serves c) (hnet : c.InNet l n) {ip : IP}
    (h4 : ip.length = 4) :
    t.isBroadcast ip = true ↔
      ip = getIPv4BroadcastAddress ⟨c.vpnLocalIPMask.1, c.vpnLocalIPMask.2⟩ ∨
        ip = [255, 255, 255, 255] := by
  have hlen : (getIPv4BroadcastAddress ⟨c.vpnLocalIPMask.1, c.vpnLocalIPMask.2⟩).length = 4 := by
    obtain ⟨a, b, x, d, hl⟩ := exists_four hnet.four
    simp [getIPv4BroadcastAddress, hnet.eq, hl, to4_four]
  have hall : equal ip ipv4bcast = true ↔ ip = [255, 255, 255, 255] := by
    simp [equal, h4, ipv4bcast, v4InV6Prefix]
  rw [isBroadcast, Bool.or_eq_true, hs.bcast, equal_four h4 hlen, hall]

/-- A peer that is alone at its address is found there. -/
lemma Serves.finds_owner (hs : t.Serves c) (hkeyed : c.Keyed ID) {k : String} {kp : KnownPeer}
    (hk : c.knownPeers.lookup k = some kp) (hin : t.index.fwd kp.peerId = some kp.ip4)
    (honly : ∀ k' kp', c.knownPeers.lookup k' = some kp' → kp'.ip4 = kp.ip4 → k' = k) :
    ∃ p, t.netIPToPeer.lookup kp.ip4 = some p ∧ t.peerIDToPeer.lookup kp.peerId = some p := by
  have hsole : ∀ id, t.index.fwd id = some kp.ip4 → id = kp.peerId := by
    intro id hid
    obtain ⟨kp', hkp', hip⟩ := Config.table_eq_some.mp (hs.home id _ hid)
    exact string_inj ((honly _ kp' hkp' hip).trans (hkeyed.string_peerId hk).symm)
  exact (hs.inv.bwd_iff _ _).mp (hs.sole _ _ hin hsole)

/-- **A packet to a peer goes to that peer and to it only**, in a network that has only grown,
when the address is held by no other known peer and does not mean everybody: no other queue
gets it, and an open tunnel puts it into the queue of the peer if there is room for the
batch. -/
theorem unicast_only_to_owner {env : Env} {s₀ s : Node ID} {ks : List String}
    (h₀ : s₀.conf.knownPeers = ∅) (hnet : ∃ l n, s₀.conf.InNet l n) (h : Grown env s₀ s t)
    (hr : Refreshed t s.conf ks t') {k : String} {kp : KnownPeer}
    (hk : s.conf.knownPeers.lookup k = some kp) (h4 : kp.ip4 ≠ [])
    (hsubnet : kp.ip4 ≠
      getIPv4BroadcastAddress ⟨s.conf.vpnLocalIPMask.1, s.conf.vpnLocalIPMask.2⟩)
    (hlocal : kp.ip4 ≠ [255, 255, 255, 255])
    (honly : ∀ k' kp', s.conf.knownPeers.lookup k' = some kp' → kp'.ip4 = kp.ip4 → k' = k) :
    ∃ p, t'.peerIDToPeer.lookup kp.peerId = some p ∧ t'.netIPToPeer.lookup kp.ip4 = some p ∧
      ∀ out packets, ∃ t'' slots log,
        t'.handleReadPackets out packets = some (t'', slots, log) ∧
        (∀ q, Gains t' t'' q (queued (fun i => packets[i]?.join) log q)) ∧
        (∀ e ∈ log, ∀ packet, packets[e.1]? = some (some packet) → packet.dstIP = kp.ip4 →
          e.2 = p) ∧
        (t'.isClosed = false → (∀ i, (out i).order.Nodup) →
          (∀ vp, t'.heap[p]? = some vp →
            vp.outboundCh.buf.length + packets.length ≤ vp.outboundCh.cap) →
          ∀ i packet, packets[i]? = some (some packet) → packet.dstIP = kp.ip4 →
            (i, p) ∈ log ∧ ∃ vp, t''.heap[p]? = some vp ∧ packet ∈ vp.outboundCh.buf) := by
  obtain ⟨hkeyed, hserves, hvpn⟩ := h.serves h₀
  obtain ⟨hs, hin⟩ := hserves.refreshed hkeyed hr
  obtain ⟨l, n, hnet⟩ := hnet
  have hnet' : s.conf.InNet l n := hnet.of_eq (by rw [hvpn])
  obtain ⟨p, hp, hid⟩ := hs.finds_owner hkeyed hk (hin k kp hk h4) honly
  refine ⟨p, hid, hp, fun out packets => ?_⟩
  have hb : t'.isBroadcast kp.ip4 = false := by
    rw [Bool.eq_false_iff]
    intro hb
    rcases (isBroadcast_four hs hnet' (KnownPeer.ip4_four h4)).mp hb with hb | hb
    · exact hsubnet hb
    · exact hlocal hb
  obtain ⟨t'', slots, log, hh, -, hd⟩ := handleReadPackets_spec hs.inv out packets
  refine ⟨t'', slots, log, hh, handleReadPackets_queued hh, fun e he packet hget hdst => ?_,
    fun hopen hout hroom i packet hget hdst => ?_⟩
  · obtain ⟨j, packet', hj, hget', hto⟩ := hd e he
    rw [hj, Nat.zero_add, hget'] at hget
    cases hget
    rw [hdst] at hto
    exact (Option.some.inj (hp.symm.trans (hto hb))).symm
  · obtain ⟨vp, hvp, -⟩ := hs.inv.found hp
    have hlog := handleReadPackets_reaches hout hs.inv hopen hh hvp (hroom vp hvp) hget
      (hdst ▸ hb) (hdst ▸ hp)
    exact ⟨hlog, mem_outboundCh_of_log hh hvp hget hlog⟩

section

open BootstrapPeer

/-- A generated address, then the last one of the network by hand. -/
def edgeNode : Node BootstrapPeer :=
  (AuthStatus.addPeer sampleEnv rus2 "" "b" false "10.66.0.255").serial
    ((AuthStatus.addPeer sampleEnv ita1 "" "a" false "").serial freshNode)

def edgeTunnel : Tunnel BootstrapPeer :=
  (empty freshNode.conf).refreshed edgeNode.conf [ita1.text, rus2.text] [ita1, rus2]

lemma edgeNode_grown : Grown sampleEnv freshNode edgeNode (empty freshNode.conf) :=
  .addPeer rus2 "" "b" false "10.66.0.255" (.addPeer ita1 "" "a" false "" .start)

lemma edgeTunnel_refreshed :
    Refreshed (empty freshNode.conf) edgeNode.conf [ita1.text, rus2.text] edgeTunnel :=
  refreshed_spec (inv_empty _) _ _ _ (by decide) (by decide)

/-- Everybody is connected. -/
def allConnected : ℕ → Outside BootstrapPeer := fun _ =>
  ⟨fun _ => true, [[10, 66, 0, 2], [10, 66, 0, 255]]⟩

/-- A packet to the peer at the last address of the network goes to the other peer as well. -/
theorem edge_packet_to_everybody :
    Grown sampleEnv freshNode edgeNode (empty freshNode.conf) ∧
      Refreshed (empty freshNode.conf) edgeNode.conf [ita1.text, rus2.text] edgeTunnel ∧
      edgeNode.conf.table rus2 = some [10, 66, 0, 255] ∧
      edgeTunnel.peerIDToPeer.lookup ita1 = some 0 ∧
      (headerTo 10 66 0 255).dstIP = [10, 66, 0, 255] ∧
      (edgeTunnel.handleReadPackets allConnected [some (headerTo 10 66 0 255)]).map
        (fun r => r.2.2) = some [(0, 0), (0, 1)] :=
  ⟨edgeNode_grown, edgeTunnel_refreshed, by decide, by decide, by decide, by decide⟩

lemma edgeNode_table (id : BootstrapPeer) :
    edgeNode.conf.table id = match id with
      | ita1 => some [10, 66, 0, 2] | rus2 => some [10, 66, 0, 255] | _ => none := by
  cases id <;> decide

/-- A packet for everybody, an empty slot and a packet to the peer at the generated address. -/
def edgeBatch : List (Option Packet) :=
  [some (headerTo 10 66 0 255), none, some (headerTo 10 66 0 2)]

/-- The last packet of the batch goes to its peer and to no other. -/
theorem edge_packet_to_owner :
    ∃ p, edgeTunnel.peerIDToPeer.lookup ita1 = some p ∧
      edgeTunnel.netIPToPeer.lookup [10, 66, 0, 2] = some p ∧
      ∃ t'' slots log,
        edgeTunnel.handleReadPackets allConnected edgeBatch = some (t'', slots, log) ∧
        (∀ e ∈ log, e.1 = 2 → e.2 = p) ∧ (2, p) ∈ log ∧
        ∃ vp, t''.heap[p]? = some vp ∧ headerTo 10 66 0 2 ∈ vp.outboundCh.buf := by
  have h₀ : freshNode.conf.knownPeers = ∅ := rfl
  have hkeyed := (edgeNode_grown.serves h₀).1
  obtain ⟨kp, hk, hip⟩ := Config.table_eq_some.mp (edgeNode_table ita1)
  have hid : (kp.peerId : BootstrapPeer) = ita1 := string_inj (hkeyed.string_peerId hk)
  have honly : ∀ k' kp', edgeNode.conf.knownPeers.lookup k' = some kp' → kp'.ip4 = kp.ip4 →
      k' = string ita1 := by
    intro k' kp' hk' he
    obtain ⟨-, id, rfl⟩ := hkeyed k' kp' hk'
    have htable := Config.table_eq_some.mpr ⟨kp', hk', rfl⟩
    rw [edgeNode_table, he, hip] at htable
    cases id <;> first | rfl | cases htable
  have hbcast : getIPv4BroadcastAddress ⟨edgeNode.conf.vpnLocalIPMask.1,
      edgeNode.conf.vpnLocalIPMask.2⟩ = [10, 66, 0, 255] := by decide
  have hroom : ∀ vp ∈ edgeTunnel.heap,
      vp.outboundCh.buf.length + edgeBatch.length ≤ vp.outboundCh.cap := by decide
  have hdst : (headerTo 10 66 0 2).dstIP = kp.ip4 := by rw [hip]; decide
  obtain ⟨p, hbyID, hbyIP, hall⟩ := unicast_only_to_owner h₀ freshNode_wellAddressed.net
    edgeNode_grown edgeTunnel_refreshed hk (by rw [hip]; simp) (by rw [hip, hbcast]; simp)
    (by rw [hip]; simp) honly
  obtain ⟨t'', slots, log, hh, -, hto, hreach⟩ := hall allConnected edgeBatch
  refine ⟨p, hid ▸ hbyID, hip ▸ hbyIP, t'', slots, log, hh, fun e he h2 => ?_, ?_⟩
  · exact hto e he _ (by rw [h2]; rfl) hdst
  · exact hreach (by decide) (fun _ => by simp [allConnected])
      (fun vp hvp => hroom vp (List.mem_of_getElem? hvp)) 2 _ rfl hdst

end

end Tunnel

end Awl
