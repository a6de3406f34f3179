import Awl.TunnelInv

/-!
Peers come, move and go: every section under `peersLock` keeps the invariant, so it holds in
every state that any interleaving of them leads to.
-/

namespace Awl

open NetIP VpnPeer

namespace Tunnel

variable {ID : Type} [DecidableEq ID]

/-! ### A new peer -/

section

variable {t : Tunnel ID} {id : ID} {ip : IP} {h4 : ip.length = 4}

lemma addPeer_byID (id' : ID) : (t.addPeer id ip h4).peerIDToPeer.lookup id' =
    if id' = id then some t.heap.length else t.peerIDToPeer.lookup id' :=
  GoMap.lookup_insert_ite _ _ _ _

lemma addPeer_byIP (ip' : IP) : (t.addPeer id ip h4).netIPToPeer.lookup ip' =
    if ip' = ip then some t.heap.length else t.netIPToPeer.lookup ip' :=
  GoMap.lookup_insert_ite _ _ _ _

lemma addPeer_get_new : (t.addPeer id ip h4).heap[t.heap.length]? = some (newVpnPeer id ip h4) :=
  List.getElem?_concat_length

/-- The heap only grows, so pointers keep what they point to. -/
lemma addPeer_get {p : Ptr} {vp : VpnPeer ID} (h : t.heap[p]? = some vp) :
    (t.addPeer id ip h4).heap[p]? = some vp :=
  (List.getElem?_append_left (List.getElem?_eq_some_iff.mp h).1).trans h

lemma Inv.addPeer (hi : t.Inv) (hid : t.peerIDToPeer.lookup id = none) :
    (t.addPeer id ip h4).Inv := by
  constructor
  · intro id' p hp
    rw [addPeer_byID] at hp
    split_ifs at hp with h
    · cases hp
      exact ⟨_, addPeer_get_new, h.symm, rfl, rfl⟩
    · obtain ⟨vp, hvp, hrest⟩ := hi.reg hp
      exact ⟨vp, addPeer_get hvp, hrest⟩
  · intro ip' p hp
    rw [addPeer_byIP] at hp
    split_ifs at hp with h
    · cases hp
      exact ⟨_, addPeer_get_new, h.symm, (addPeer_byID _).trans (if_pos rfl)⟩
    · obtain ⟨vp, hvp, hip, hreg⟩ := hi.addr hp
      have hne : vp.peerID ≠ id := fun e => by rw [e, hid] at hreg; cases hreg
      exact ⟨vp, addPeer_get hvp, hip, by rw [addPeer_byID, if_neg hne, hreg]⟩

end

/-! ### A peer that moves -/

section

variable {t : Tunnel ID} {p : Ptr} {vp : VpnPeer ID} {ip : IP} {h4 : ip.length = 4}

omit [DecidableEq ID] in
lemma movePeer_byIP (ip' : IP) : (t.movePeer p vp ip h4).netIPToPeer.lookup ip' =
    if ip' = ip then some p
    else if ip' = vp.localIP then none else t.netIPToPeer.lookup ip' := by
  rw [movePeer, GoMap.lookup_insert_ite, GoMap.lookup_erase_ite]

omit [DecidableEq ID] in
lemma movePeer_get (hvp : t.heap[p]? = some vp) (q : Ptr) :
    (t.movePeer p vp ip h4).heap[q]? =
      if q = p then some { vp with localIP := ip, four := h4 } else t.heap[q]? :=
  setPeer_get (List.getElem?_eq_some_iff.mp hvp).1

lemma Inv.movePeer (hi : t.Inv) (hid : t.peerIDToPeer.lookup vp.peerID = some p)
    (hvp : t.heap[p]? = some vp) : (t.movePeer p vp ip h4).Inv := by
  constructor
  · intro id' q hq
    obtain ⟨vq, hvq, hqid, hopen⟩ := hi.reg (p := q) hq
    rw [movePeer_get hvp]
    split_ifs with h
    · rw [h, hvp] at hvq
      cases hvq
      exact ⟨_, rfl, hqid, hopen⟩
    · exact ⟨vq, hvq, hqid, hopen⟩
  · intro ip' q hq
    rw [movePeer_byIP] at hq
    rw [movePeer_get hvp]
    split_ifs at hq with h₁ h₂
    · cases hq
      exact ⟨_, if_pos rfl, h₁.symm, hid⟩
    · obtain ⟨vq, hvq, hip, hreg⟩ := hi.addr hq
      -- the peer that moves is no longer found at any other address
      have hne : q ≠ p := by
        rintro rfl
        rw [hvp] at hvq
        cases hvq
        exact h₂ hip.symm
      exact ⟨vq, by rw [if_neg hne, hvq], hip, hreg⟩

end

/-! ### A peer that goes -/

/-- Closing a registered peer does not panic; it is then found neither by its ID nor at its
address, and everything else is where it was. -/
lemma closePeer_spec {t : Tunnel ID} (hi : t.Inv) {id : ID} {p : Ptr}
    (hid : t.peerIDToPeer.lookup id = some p) :
    ∃ t' vp, t.closePeer p = some t' ∧ t.heap[p]? = some vp ∧ vp.peerID = id ∧
      t'.isClosed = t.isClosed ∧ t'.udpBroadcastAddr = t.udpBroadcastAddr ∧
      t'.peerIDToPeer = t.peerIDToPeer.erase id ∧
      t'.netIPToPeer = t.netIPToPeer.erase vp.localIP ∧
      ∀ q ≠ p, t'.heap[q]? = t.heap[q]? := by
  obtain ⟨vp, hvp, rfl, hopen⟩ := hi.reg hid
  obtain ⟨vp', hclose, -⟩ := close_of_open hopen
  refine ⟨{ t.setPeer p vp' with
      peerIDToPeer := t.peerIDToPeer.erase vp.peerID
      netIPToPeer := t.netIPToPeer.erase vp.localIP }, vp, by simp [closePeer, hvp, hclose], hvp,
    rfl, rfl, rfl, rfl, rfl, ?_⟩
  intro q hq
  exact (setPeer_get (List.getElem?_eq_some_iff.mp hvp).1).trans (if_neg hq)

lemma Inv.closePeer {t t' : Tunnel ID} (hi : t.Inv) {id : ID} {p : Ptr}
    (hid : t.peerIDToPeer.lookup id = some p) (h : t.closePeer p = some t') : t'.Inv := by
  obtain ⟨t₁, vp, h₁, hvp, rfl, -, -, hbyID, hbyIP, hheap⟩ := closePeer_spec hi hid
  rw [h] at h₁
  cases h₁
  constructor
  · intro id' q hq
    rw [hbyID, GoMap.lookup_erase_ite] at hq
    split_ifs at hq with hne
    obtain ⟨vq, hvq, hqid, hopen⟩ := hi.reg hq
    have hqp : q ≠ p := by
      rintro rfl
      rw [hvp] at hvq
      cases hvq
      exact hne hqid.symm
    exact ⟨vq, by rw [hheap q hqp, hvq], hqid, hopen⟩
  · intro ip q hq
    rw [hbyIP, GoMap.lookup_erase_ite] at hq
    split_ifs at hq with hne
    obtain ⟨vq, hvq, hip, hreg⟩ := hi.addr hq
    have hqp : q ≠ p := by
      rintro rfl
      rw [hvp] at hvq
      cases hvq
      exact hne hip.symm
    refine ⟨vq, by rw [hheap q hqp, hvq], hip, ?_⟩
    rw [hbyID, GoMap.lookup_erase_ite, if_neg, hreg]
    -- two registered peers have different IDs
    intro he
    rw [he, hid] at hreg
    exact hqp (Option.some.inj hreg).symm

/-- A loop that closes registered peers does not panic and keeps the invariant. -/
lemma closeWhere_spec (drop : ID → Bool) (ids : List ID) :
    ∀ t : Tunnel ID, t.Inv → ∃ t', t.closeWhere drop ids = some t' ∧ t'.Inv := by
  induction ids with
  | nil => exact fun t hi => ⟨t, rfl, hi⟩
  | cons id ids ih =>
    intro t hi
    rcases hp : t.peerIDToPeer.lookup id with _ | p
    · simpa [closeWhere, hp] using ih t hi
    · obtain ⟨vp, hvp, -, -⟩ := hi.reg hp
      by_cases hd : drop vp.peerID = true
      · obtain ⟨t₁, -, h₁, -⟩ := closePeer_spec hi hp
        simpa [closeWhere, hp, hvp, hd, h₁] using ih t₁ (hi.closePeer hp h₁)
      · simpa [closeWhere, hp, hvp, hd] using ih t hi

/-! ### A refresh -/

variable [PeerCodec ID]

/-- What the visit of one known peer does: nothing if its address is no IPv4 address or has
not changed, otherwise a move or an addition. -/
lemma refreshPeer_cases {t : Tunnel ID} (hi : t.Inv) (kp : KnownPeer) :
    (kp.ip4 = [] ∧ t.refreshPeer kp = t) ∨
    ∃ h4 : kp.ip4.length = 4,
      (∃ p vp, t.peerIDToPeer.lookup kp.peerId = some p ∧ t.heap[p]? = some vp ∧
        vp.peerID = kp.peerId ∧
        (vp.localIP = kp.ip4 ∧ t.refreshPeer kp = t ∨
          vp.localIP ≠ kp.ip4 ∧ t.refreshPeer kp = t.movePeer p vp kp.ip4 h4)) ∨
      (t.peerIDToPeer.lookup (kp.peerId : ID) = none ∧
        t.refreshPeer kp = t.addPeer kp.peerId kp.ip4 h4) := by
  by_cases h : kp.ip4 = []
  · exact Or.inl ⟨h, by simp [refreshPeer, h]⟩
  · have h4 := KnownPeer.ip4_four h
    refine Or.inr ⟨h4, ?_⟩
    rcases hp : t.peerIDToPeer.lookup kp.peerId with _ | p
    · exact Or.inr ⟨rfl, by simp [refreshPeer, h, hp]⟩
    · obtain ⟨vp, hvp, hid, -⟩ := hi.reg hp
      refine Or.inl ⟨p, vp, rfl, hvp, hid, ?_⟩
      by_cases he : vp.localIP = kp.ip4
      · exact Or.inl ⟨he, by simp [refreshPeer, h, hp, hvp, (equal_four vp.four h4).mpr he]⟩
      · have hne : equal vp.localIP kp.ip4 = false :=
          Bool.eq_false_iff.mpr fun e => he ((equal_four vp.four h4).mp e)
        exact Or.inr ⟨he, by simp [refreshPeer, h, hp, hvp, hne]⟩

lemma Inv.refreshPeer {t : Tunnel ID} (hi : t.Inv) (kp : KnownPeer) : (t.refreshPeer kp).Inv := by
  rcases refreshPeer_cases hi kp with
    ⟨-, h⟩ | ⟨h4, ⟨p, vp, hp, hvp, hid, ⟨-, h⟩ | ⟨-, h⟩⟩ | ⟨hnew, h⟩⟩
  · rwa [h]
  · rwa [h]
  · rw [h]; exact hi.movePeer (hid ▸ hp) hvp
  · rw [h]; exact hi.addPeer hnew

lemma Inv.refreshKnown {t : Tunnel ID} (hi : t.Inv) (conf : Config) (ks : List String) :
    (t.refreshKnown conf ks).Inv :=
  GoMap.rangeLoop_inv Inv (fun _ _ kp _ h => h.refreshPeer kp) hi ks

/-- A refresh does not panic and keeps the invariant. -/
lemma refreshPeersList_spec {t : Tunnel ID} (hi : t.Inv) (conf : Config) (ks : List String)
    (ids : List ID) : ∃ t', t.refreshPeersList conf ks ids = some t' ∧ t'.Inv :=
  closeWhere_spec _ ids _ (hi.refreshKnown conf ks)

/-! ### Runs -/

lemma Step.inv {t t' : Tunnel ID} (h : Step t t') (hi : t.Inv) : t'.Inv := by
  cases h with
  | refresh conf ks ids _ _ h =>
    obtain ⟨t₁, h₁, hi₁⟩ := refreshPeersList_spec hi conf ks ids
    rw [h] at h₁
    exact Option.some.inj h₁ ▸ hi₁
  | close ids _ h =>
    have hi' : ({ t with isClosed := true } : Tunnel ID).Inv := ⟨hi.reg, hi.addr⟩
    obtain ⟨t₁, h₁, hi₁⟩ := closeWhere_spec (fun _ => true) ids _ hi'
    rw [Tunnel.close] at h
    rw [h] at h₁
    exact Option.some.inj h₁ ▸ hi₁
  | handle out packets slots log _ h =>
    obtain ⟨t₁, s₁, l₁, h₁, hf, -⟩ := handleReadPackets_spec hi out packets
    rw [h] at h₁
    cases h₁
    exact hf.inv hi
  | enqueue peerID packet goesOn h =>
    obtain ⟨t₁, g₁, h₁, hf⟩ := enqueueInbound_spec hi peerID packet
    rw [h] at h₁
    cases h₁
    exact hf.inv hi
  | inbound p packet h => exact (takeInbound_sameFace h).inv hi
  | outbound p packet h => exact (takeOutbound_sameFace h).inv hi

lemma Reachable.inv {conf : Config} {t : Tunnel ID} (h : Reachable conf t) : t.Inv := by
  induction h with
  | refl => exact inv_empty conf
  | tail _ hs ih => exact hs.inv ih

/-- **Every state of the tunnel is sound**: whoever is found at an address is registered under
its ID, lives there and has open queues; so neither routing nor an inbound stream ever sends
on a closed channel, and a packet that is no broadcast is only enqueued to a peer that lives
at its destination. -/
theorem reachable_sound {conf : Config} {t : Tunnel ID} (h : Reachable conf t) :
    (∀ k p, t.netIPToPeer.lookup k = some p →
      ∃ vp, t.heap[p]? = some vp ∧ t.peerIDToPeer.lookup vp.peerID = some p ∧ vp.localIP = k ∧
        vp.inboundCh.closed = false ∧ vp.outboundCh.closed = false) ∧
    (∀ out packets, ∃ t' slots log, t.handleReadPackets out packets = some (t', slots, log) ∧
      ∀ e ∈ log, ∃ packet, packets[e.1]? = some (some packet) ∧
        (t.isBroadcast packet.dstIP = false →
          ∃ vp, t.heap[e.2]? = some vp ∧ vp.localIP = packet.dstIP)) ∧
    (∀ peerID packet, ∃ r, t.enqueueInbound peerID packet = some r) := by
  have hi := h.inv
  refine ⟨fun k p hk => hi.found hk, fun out packets => ?_, fun peerID packet => ?_⟩
  · obtain ⟨t', slots, log, hh, -, hd⟩ := handleReadPackets_spec hi out packets
    refine ⟨t', slots, log, hh, fun e he => ?_⟩
    obtain ⟨j, packet, hj, hget, hto⟩ := hd e he
    refine ⟨packet, by rw [hj, Nat.zero_add, hget], fun hb => ?_⟩
    obtain ⟨vp, hvp, -, hip, -⟩ := hi.found (hto hb)
    exact ⟨vp, hvp, hip⟩
  · obtain ⟨t', g, hg, -⟩ := enqueueInbound_spec hi peerID packet
    exact ⟨_, hg⟩

section

open BootstrapPeer

/-- An IPv4 packet with a header only. -/
def headerTo (a b c d : UInt8) : Packet where
  buffer := List.replicate tunPacketOffset 0 ++ 0x45 :: List.replicate 15 0 ++ [a, b, c, d] ++
    List.replicate 3566 0
  length_buffer := by
    simp only [List.length_append, List.length_cons, List.length_replicate, List.length_nil]
    rfl
  len := 20
  src := ⟨tunPacketOffset + 12, 4⟩
  dst := ⟨tunPacketOffset + 16, 4⟩
  isIPv6 := false
  ipProtocol := 0

/-- Two peers, before and after they have swapped their addresses. -/
def beforeSwap : Config := conf [(rus2, "10.66.0.2"), (ita1, "10.66.0.3")]

def afterSwap : Config := conf [(rus2, "10.66.0.3"), (ita1, "10.66.0.2")]

def unswapped : Option (Tunnel BootstrapPeer) :=
  (empty beforeSwap).refreshPeersList beforeSwap [rus2.text, ita1.text] [rus2, ita1]

/-- The tunnel after a refresh from each of the two. The second one moves `rus2` first, to an
address that `ita1` still holds, and then drops that address when it moves `ita1`. -/
def swapped : Option (Tunnel BootstrapPeer) :=
  unswapped.bind (·.refreshPeersList afterSwap [rus2.text, ita1.text] [ita1, rus2])

lemma swapped_reachable {t : Tunnel BootstrapPeer} (h : swapped = some t) :
    Reachable beforeSwap t := by
  obtain ⟨t₁, ht₁, ht⟩ := Option.bind_eq_some_iff.mp h
  have hids : (unswapped.map fun t => decide (GoMap.Ranges
      (t.refreshKnown afterSwap [rus2.text, ita1.text]).peerIDToPeer [ita1, rus2])) =
      some true := by decide
  rw [ht₁] at hids
  exact .tail (.single (.refresh beforeSwap _ _ (by decide) (by decide) ht₁))
    (.refresh afterSwap _ _ (by decide) (of_decide_eq_true (Option.some.inj hids)) ht)

/-- A packet to each of the two addresses. -/
def toBoth : List (Option Packet) := [some (headerTo 10 66 0 3), some (headerTo 10 66 0 2)]

/-- After the swap one of the two is found at its address, and a packet there goes to it; a
packet to the other address goes to nobody. -/
theorem swapped_sound :
    ∃ t ∈ swapped, Reachable beforeSwap t ∧
      t.netIPToPeer.lookup [10, 66, 0, 2] = some 1 ∧ t.netIPToPeer.lookup [10, 66, 0, 3] = none ∧
      (∃ vp, t.heap[1]? = some vp ∧ vp.localIP = [10, 66, 0, 2] ∧
        vp.outboundCh.closed = false) ∧
      ∃ t' slots, t.handleReadPackets (fun _ => ⟨fun _ => true, [[10, 66, 0, 2]]⟩) toBoth =
        some (t', slots, [(1, 1)]) := by
  have hsome : swapped.isSome = true := by decide
  obtain ⟨t, ht⟩ := Option.isSome_iff_exists.mp hsome
  have hlook : (swapped.map fun t => (t.netIPToPeer.lookup [10, 66, 0, 2],
      t.netIPToPeer.lookup [10, 66, 0, 3])) = some (some 1, none) := by decide
  have hlog : (swapped.bind fun t => (t.handleReadPackets
      (fun _ => ⟨fun _ => true, [[10, 66, 0, 2]]⟩) toBoth).map fun r => r.2.2) =
      some [(1, 1)] := by decide
  rw [ht] at hlook hlog
  obtain ⟨h2, h3⟩ := Prod.mk.inj (Option.some.inj hlook)
  have hreach := swapped_reachable ht
  obtain ⟨hfound, hhandle, -⟩ := reachable_sound hreach
  obtain ⟨vp, hvp, -, hip, -, hopen⟩ := hfound [10, 66, 0, 2] 1 h2
  obtain ⟨t', slots, log, hh, -⟩ := hhandle (fun _ => ⟨fun _ => true, [[10, 66, 0, 2]]⟩) toBoth
  rw [Option.bind_some, hh] at hlog
  exact ⟨t, ht, hreach, h2, h3, ⟨vp, hvp, hip, hopen⟩, t', slots, by
    rw [hh, ← Option.some.inj hlog]⟩

end

end Tunnel

end Awl
