import Awl.Tunnel

/-!
What every state of the tunnel satisfies, whatever the configurations it was refreshed from:
a peer found by its ID has that ID and open queues, and a peer found by an address has that
address and can be found by its ID.
-/

namespace Awl

open NetIP

namespace VpnPeer

variable {ID : Type}

def Open (vp : VpnPeer ID) : Prop :=
  vp.inboundCh.closed = false ∧ vp.outboundCh.closed = false

/-- The part of a peer that does not depend on what its queues hold. -/
def face (vp : VpnPeer ID) : ID × IP × Bool × Bool :=
  (vp.peerID, vp.localIP, vp.inboundCh.closed, vp.outboundCh.closed)

lemma close_of_open {vp : VpnPeer ID} (h : vp.Open) :
    ∃ vp', vp.close = some vp' ∧ vp'.peerID = vp.peerID ∧ vp'.localIP = vp.localIP := by
  obtain ⟨i, hi⟩ := Chan.closeAndDrain_of_open h.1
  obtain ⟨o, ho⟩ := Chan.closeAndDrain_of_open h.2
  exact ⟨{ vp with inboundCh := i, outboundCh := o }, by simp [close, hi, ho], rfl, rfl⟩

end VpnPeer

namespace Tunnel

open VpnPeer

variable {ID : Type}

/-! ### Queues come and go, the maps stay -/

/-- `t'` is `t` up to what the queues hold. -/
structure SameFace (t t' : Tunnel ID) : Prop where
  isClosed : t'.isClosed = t.isClosed
  byID : t'.peerIDToPeer = t.peerIDToPeer
  byIP : t'.netIPToPeer = t.netIPToPeer
  bcast : t'.udpBroadcastAddr = t.udpBroadcastAddr
  peers : ∀ p : Ptr, (t'.heap[p]?).map face = (t.heap[p]?).map face

namespace SameFace

variable {t t' t'' : Tunnel ID}

lemma refl (t : Tunnel ID) : SameFace t t := ⟨rfl, rfl, rfl, rfl, fun _ => rfl⟩

lemma symm (h : SameFace t t') : SameFace t' t :=
  ⟨h.isClosed.symm, h.byID.symm, h.byIP.symm, h.bcast.symm, fun p => (h.peers p).symm⟩

lemma trans (h : SameFace t t') (h' : SameFace t' t'') : SameFace t t'' :=
  ⟨h'.isClosed.trans h.isClosed, h'.byID.trans h.byID, h'.byIP.trans h.byIP,
    h'.bcast.trans h.bcast, fun p => (h'.peers p).trans (h.peers p)⟩

lemma get (h : SameFace t t') {p : Ptr} {vp : VpnPeer ID} (hp : t.heap[p]? = some vp) :
    ∃ vp', t'.heap[p]? = some vp' ∧ vp'.face = vp.face := by
  have := h.peers p
  rw [hp, Option.map_some, Option.map_eq_some_iff] at this
  exact this

lemma isBroadcast (h : SameFace t t') (dst : IP) : t'.isBroadcast dst = t.isBroadcast dst := by
  rw [Tunnel.isBroadcast, Tunnel.isBroadcast, h.bcast]

end SameFace

lemma setPeer_get {t : Tunnel ID} {p q : Ptr} {vp : VpnPeer ID} (hp : p < t.heap.length) :
    (t.setPeer p vp).heap[q]? = if q = p then some vp else t.heap[q]? := by
  rw [setPeer, List.getElem?_set]
  by_cases h : p = q
  · subst h; simp [hp]
  · simp [h, Ne.symm h]

lemma sameFace_setPeer {t : Tunnel ID} {p : Ptr} {vp vp' : VpnPeer ID}
    (hp : t.heap[p]? = some vp) (hf : vp'.face = vp.face) : SameFace t (t.setPeer p vp') := by
  refine ⟨rfl, rfl, rfl, rfl, fun q => ?_⟩
  obtain ⟨hlt, -⟩ := List.getElem?_eq_some_iff.mp hp
  rw [setPeer_get hlt]
  split_ifs with h
  · rw [h, hp, Option.map_some, Option.map_some, hf]
  · rfl

/-- A send to an open peer does not panic and changes its queue only. -/
lemma sendOutbound_spec {t : Tunnel ID} {p : Ptr} {vp : VpnPeer ID} (hp : t.heap[p]? = some vp)
    (hopen : vp.Open) (packet : Packet) :
    ∃ t' sent, t.sendOutbound p packet = some (t', sent) ∧ SameFace t t' := by
  rcases Chan.trySend_cases hopen.2 packet with ⟨ch, hs, hc, -⟩ | hs
  · refine ⟨_, true, by simp [sendOutbound, hp, hs]; rfl, sameFace_setPeer hp ?_⟩
    simp [face, hc, hopen.2]
  · exact ⟨t, false, by simp [sendOutbound, hp, hs], SameFace.refl t⟩

lemma takeInbound_sameFace {t t' : Tunnel ID} {p : Ptr} {packet : Packet}
    (h : t.takeInbound p = some (packet, t')) : SameFace t t' := by
  simp only [takeInbound, Option.bind_eq_bind, Option.bind_eq_some_iff] at h
  obtain ⟨vp, hvp, ⟨x, ch⟩, hr, he⟩ := h
  cases he
  exact sameFace_setPeer hvp (by simp [face, Chan.recv_closed hr])

lemma takeOutbound_sameFace {t t' : Tunnel ID} {p : Ptr} {packet : Packet}
    (h : t.takeOutbound p = some (packet, t')) : SameFace t t' := by
  simp only [takeOutbound, Option.bind_eq_bind, Option.bind_eq_some_iff] at h
  obtain ⟨vp, hvp, ⟨x, ch⟩, hr, he⟩ := h
  cases he
  exact sameFace_setPeer hvp (by simp [face, Chan.recv_closed hr])

/-! ### The invariant -/

variable [DecidableEq ID]

structure Inv (t : Tunnel ID) : Prop where
  reg : ∀ {id p}, t.peerIDToPeer.lookup id = some p →
    ∃ vp, t.heap[p]? = some vp ∧ vp.peerID = id ∧ vp.Open
  addr : ∀ {ip p}, t.netIPToPeer.lookup ip = some p →
    ∃ vp, t.heap[p]? = some vp ∧ vp.localIP = ip ∧ t.peerIDToPeer.lookup vp.peerID = some p

lemma inv_empty (conf : Config) : (empty conf : Tunnel ID).Inv :=
  ⟨fun h => by simp [empty] at h, fun h => by simp [empty] at h⟩

/-- A peer that is found by an address is found by its ID, and is open. -/
lemma Inv.found {t : Tunnel ID} (hi : t.Inv) {ip : IP} {p : Ptr}
    (h : t.netIPToPeer.lookup ip = some p) :
    ∃ vp, t.heap[p]? = some vp ∧ t.peerIDToPeer.lookup vp.peerID = some p ∧
      vp.localIP = ip ∧ vp.Open := by
  obtain ⟨vp, hvp, hip, hreg⟩ := hi.addr h
  obtain ⟨vp', hvp', -, hopen⟩ := hi.reg hreg
  rw [hvp] at hvp'
  exact ⟨vp, hvp, hreg, hip, Option.some.inj hvp' ▸ hopen⟩

lemma SameFace.inv {t t' : Tunnel ID} (h : SameFace t t') (hi : t.Inv) : t'.Inv where
  reg hp := by
    rw [h.byID] at hp
    obtain ⟨vp, hvp, hid, hopen⟩ := hi.reg hp
    obtain ⟨vp', hvp', hf⟩ := h.get hvp
    simp only [face, Prod.mk.injEq] at hf
    exact ⟨vp', hvp', hf.1.trans hid, hf.2.2.1.trans hopen.1, hf.2.2.2.trans hopen.2⟩
  addr hp := by
    rw [h.byIP] at hp
    obtain ⟨vp, hvp, hip, hreg⟩ := hi.addr hp
    obtain ⟨vp', hvp', hf⟩ := h.get hvp
    simp only [face, Prod.mk.injEq] at hf
    exact ⟨vp', hvp', hf.2.1.trans hip, by rw [hf.1, h.byID, hreg]⟩

/-! ### Routing -/

lemma broadcast_spec (isConnected : ID → Bool) (packet : Packet) (ips : List IP) :
    ∀ t : Tunnel ID, t.Inv →
      ∃ t' ps, t.broadcast isConnected packet ips = some (t', ps) ∧ SameFace t t' := by
  induction ips with
  | nil => exact fun t _ => ⟨t, [], rfl, SameFace.refl t⟩
  | cons ip ips ih =>
    intro t hi
    rcases hp : t.netIPToPeer.lookup ip with _ | p
    · simpa [broadcast, hp] using ih t hi
    · obtain ⟨vp, hvp, -, -, hopen⟩ := hi.found hp
      by_cases hc : isConnected vp.peerID = true
      · obtain ⟨t₁, sent, h₁, hf₁⟩ := sendOutbound_spec hvp hopen packet
        obtain ⟨t₂, ps, h₂, hf₂⟩ := ih t₁ (hf₁.inv hi)
        exact ⟨t₂, if sent then p :: ps else ps, by simp [broadcast, hp, hvp, hc, h₁, h₂],
          hf₁.trans hf₂⟩
      · simpa [broadcast, hp, hvp, hc] using ih t hi

/-- Routing one packet does not panic, and a packet that is no broadcast goes at most to the
peer that lives at its destination. -/
lemma handlePacket_spec {t : Tunnel ID} (hi : t.Inv) (out : Outside ID) (packet : Packet) :
    ∃ t' handed ps, t.handlePacket out packet = some (t', handed, ps) ∧ SameFace t t' ∧
      (t.isBroadcast packet.dstIP = false →
        ∀ p ∈ ps, t.netIPToPeer.lookup packet.dstIP = some p) := by
  unfold handlePacket
  by_cases hb : t.isBroadcast packet.dstIP = true
  · obtain ⟨t', ps, h, hf⟩ := broadcast_spec out.isConnected packet out.order t hi
    exact ⟨t', false, ps, by simp [hb, h], hf, by simp [hb]⟩
  · rcases hp : t.netIPToPeer.lookup packet.dstIP with _ | p
    · exact ⟨t, false, [], by simp [hb], SameFace.refl t, by simp⟩
    · obtain ⟨vp, hvp, -, -, hopen⟩ := hi.found hp
      obtain ⟨t', sent, h, hf⟩ := sendOutbound_spec hvp hopen packet
      refine ⟨t', sent, if sent then [p] else [], by simp [hb, h], hf, fun _ q hq => ?_⟩
      cases sent <;> simp_all

/-- Where the packets of a batch may go: a packet that is no broadcast only to the peer that
lives at its destination. -/
def Delivers (t : Tunnel ID) (i : ℕ) (packets : List (Option Packet)) (log : List (ℕ × Ptr)) :
    Prop :=
  ∀ e ∈ log, ∃ j packet, e.1 = i + j ∧ packets[j]? = some (some packet) ∧
    (t.isBroadcast packet.dstIP = false → t.netIPToPeer.lookup packet.dstIP = some e.2)

lemma handleLoop_spec (out : ℕ → Outside ID) (packets : List (Option Packet)) :
    ∀ (i : ℕ) (t : Tunnel ID), t.Inv →
      ∃ t' slots log, t.handleLoop out i packets = some (t', slots, log) ∧ SameFace t t' ∧
        t.Delivers i packets log := by
  induction packets with
  | nil => exact fun i t _ => ⟨t, [], [], rfl, SameFace.refl t, by simp [Delivers]⟩
  | cons slot packets ih =>
    intro i t hi
    -- what the tail delivers, seen from the whole batch
    have htail : ∀ {t' : Tunnel ID} {log : List (ℕ × Ptr)}, SameFace t t' →
        t'.Delivers (i + 1) packets log → t.Delivers i (slot :: packets) log := by
      intro t' log hf hd e he
      obtain ⟨j, packet, hj, hget, hto⟩ := hd e he
      rw [hf.isBroadcast, hf.byIP] at hto
      exact ⟨j + 1, packet, by omega, by simpa using hget, hto⟩
    cases slot with
    | none =>
      obtain ⟨t', slots, log, h, hf, hd⟩ := ih (i + 1) t hi
      exact ⟨t', none :: slots, log, by simp [handleLoop, h], hf, htail (SameFace.refl t) hd⟩
    | some packet =>
      obtain ⟨t₁, handed, ps, h₁, hf₁, hps⟩ := handlePacket_spec hi (out i) packet
      obtain ⟨t₂, slots, log, h₂, hf₂, hd⟩ := ih (i + 1) t₁ (hf₁.inv hi)
      refine ⟨t₂, (if handed then none else some packet) :: slots, ps.map (i, ·) ++ log,
        by simp [handleLoop, h₁, h₂], hf₁.trans hf₂, fun e he => ?_⟩
      rcases List.mem_append.mp he with he | he
      · obtain ⟨p, hp, rfl⟩ := List.mem_map.mp he
        exact ⟨0, packet, by simp, by simp, fun hb => hps hb p hp⟩
      · exact htail hf₁ hd e he

lemma handleReadPackets_spec {t : Tunnel ID} (hi : t.Inv) (out : ℕ → Outside ID)
    (packets : List (Option Packet)) :
    ∃ t' slots log, t.handleReadPackets out packets = some (t', slots, log) ∧ SameFace t t' ∧
      t.Delivers 0 packets log := by
  unfold handleReadPackets
  split_ifs
  · exact ⟨t, packets, [], rfl, SameFace.refl t, by simp [Delivers]⟩
  · exact handleLoop_spec out packets 0 t hi

lemma enqueueInbound_spec {t : Tunnel ID} (hi : t.Inv) (peerID : ID) (packet : Packet) :
    ∃ t' goesOn, t.enqueueInbound peerID packet = some (t', goesOn) ∧ SameFace t t' := by
  unfold enqueueInbound
  rcases hp : t.peerIDToPeer.lookup peerID with _ | p
  · exact ⟨t, false, rfl, SameFace.refl t⟩
  · obtain ⟨vp, hvp, -, hopen⟩ := hi.reg hp
    rcases Chan.trySend_cases hopen.1 packet with ⟨ch, hs, hc, -⟩ | hs
    · refine ⟨_, true, by simp [hvp, hs]; rfl, sameFace_setPeer hvp ?_⟩
      simp [face, hc, hopen.1]
    · exact ⟨t, true, by simp [hvp, hs], SameFace.refl t⟩

end Tunnel

end Awl
