import Awl.TunnelInv

/-!
What the outbound queues get when a batch from the TUN device is routed: each queue gets at
its end the packets that the log has for its peer, and a peer whose queue has room for the
batch gets every packet for its address.
-/

namespace Awl

open NetIP

namespace Tunnel

variable {ID : Type} {t t' t'' : Tunnel ID}

/-- The outbound queue of the peer at `q` gets the packets `xs`. -/
def Gains (t t' : Tunnel ID) (q : Ptr) (xs : List Packet) : Prop :=
  ∀ vp, t.heap[q]? = some vp → ∃ vp', t'.heap[q]? = some vp' ∧
    vp'.localIP = vp.localIP ∧ vp'.outboundCh.cap = vp.outboundCh.cap ∧
    vp'.outboundCh.buf = vp.outboundCh.buf ++ xs

namespace Gains

variable {q : Ptr} {xs ys : List Packet}

lemma refl (t : Tunnel ID) (q : Ptr) : Gains t t q [] :=
  fun vp hvp => ⟨vp, hvp, rfl, rfl, (List.append_nil _).symm⟩

lemma trans (h : Gains t t' q xs) (h' : Gains t' t'' q ys) : Gains t t'' q (xs ++ ys) := by
  intro vp hvp
  obtain ⟨vp', hvp', hip, hcap, hbuf⟩ := h vp hvp
  obtain ⟨vp'', hvp'', hip', hcap', hbuf'⟩ := h' vp' hvp'
  exact ⟨vp'', hvp'', hip'.trans hip, hcap'.trans hcap,
    by rw [hbuf', hbuf, List.append_assoc]⟩

end Gains

lemma sendOutbound_gains {p : Ptr} {packet : Packet} {sent : Bool}
    (h : t.sendOutbound p packet = some (t', sent)) (q : Ptr) :
    Gains t t' q (List.replicate ((if sent then [p] else []).count q) packet) := by
  simp only [sendOutbound, Option.bind_eq_bind, Option.bind_eq_some_iff] at h
  obtain ⟨vp, hvp, h⟩ := h
  rcases hs : vp.outboundCh.trySend packet with ch | _ | _ <;> rw [hs] at h <;> cases h
  · intro vq hvq
    rw [setPeer_get (List.getElem?_eq_some_iff.mp hvp).1]
    by_cases hqp : q = p
    · subst hqp
      rw [hvp] at hvq
      cases hvq
      exact ⟨_, if_pos rfl, rfl, (Chan.trySend_cap hs).1, by simpa using Chan.trySend_buf hs⟩
    · exact ⟨vq, by rw [if_neg hqp, hvq], rfl, rfl, by simp [Ne.symm hqp]⟩
  · exact Gains.refl t q

lemma sendOutbound_of_room {p : Ptr} {packet : Packet} {sent : Bool} {vp : VpnPeer ID}
    (h : t.sendOutbound p packet = some (t', sent)) (hvp : t.heap[p]? = some vp)
    (hroom : vp.outboundCh.buf.length < vp.outboundCh.cap) : sent = true := by
  simp only [sendOutbound, hvp, Option.bind_eq_bind, Option.bind_some] at h
  unfold Chan.trySend at h
  rw [dif_pos hroom] at h
  split_ifs at h
  cases h
  rfl

/-! ### One packet -/

/-- One address of a broadcast: nobody is asked, or one peer is sent a copy. -/
lemma broadcast_cons {isConnected : ID → Bool} {packet : Packet} {ip : IP} {ips : List IP}
    {ps : List Ptr} (h : t.broadcast isConnected packet (ip :: ips) = some (t', ps)) :
    t.broadcast isConnected packet ips = some (t', ps) ∨
    ∃ p t₁ sent ps₁, t.netIPToPeer.lookup ip = some p ∧
      t.sendOutbound p packet = some (t₁, sent) ∧
      t₁.broadcast isConnected packet ips = some (t', ps₁) ∧
      ps = (if sent then [p] else []) ++ ps₁ := by
  rcases hp : t.netIPToPeer.lookup ip with _ | p
  · exact Or.inl (by simpa [broadcast, hp] using h)
  · simp only [broadcast, hp, Option.bind_eq_bind] at h
    obtain ⟨vp, -, h⟩ := Option.bind_eq_some_iff.mp h
    split_ifs at h with hc
    · obtain ⟨⟨t₁, sent⟩, h₁, h⟩ := Option.bind_eq_some_iff.mp h
      obtain ⟨⟨t₂, ps₁⟩, h₂, h⟩ := Option.bind_eq_some_iff.mp h
      cases h
      exact Or.inr ⟨p, t₁, sent, ps₁, rfl, h₁, h₂, by cases sent <;> rfl⟩
    · exact Or.inl h

lemma broadcast_gains {isConnected : ID → Bool} {packet : Packet} {ips : List IP} {ps : List Ptr}
    (h : t.broadcast isConnected packet ips = some (t', ps)) (q : Ptr) :
    Gains t t' q (List.replicate (ps.count q) packet) := by
  induction ips generalizing t ps with
  | nil => cases h; exact Gains.refl _ q
  | cons ip ips ih =>
    obtain h | ⟨p, t₁, sent, ps₁, -, h₁, h₂, rfl⟩ := broadcast_cons h
    · exact ih h
    · rw [List.count_append, ← List.replicate_append_replicate]
      exact (sendOutbound_gains h₁ q).trans (ih h₂)

variable [DecidableEq ID] in
/-- A peer is found at one address only, so it gets one copy for each time the loop comes to
that address. -/
lemma broadcast_count {isConnected : ID → Bool} {packet : Packet} {ips : List IP} {ps : List Ptr}
    (hi : t.Inv) (h : t.broadcast isConnected packet ips = some (t', ps)) {q : Ptr}
    {vq : VpnPeer ID} (hq : t.heap[q]? = some vq) : ps.count q ≤ ips.count vq.localIP := by
  induction ips generalizing t ps vq with
  | nil => cases h; simp
  | cons ip ips ih =>
    obtain h | ⟨p, t₁, sent, ps₁, hp, h₁, h₂, rfl⟩ := broadcast_cons h
    · exact (ih hi h hq).trans List.count_le_count_cons
    · obtain ⟨vp, hvp, -, hip, hopen⟩ := hi.found hp
      obtain ⟨t₁', sent', h₁', hf⟩ := sendOutbound_spec hvp hopen packet
      rw [h₁] at h₁'
      cases h₁'
      obtain ⟨vq₁, hq₁, hip₁, -⟩ := sendOutbound_gains h₁ q vq hq
      have hrest := ih (hf.inv hi) h₂ hq₁
      rw [hip₁] at hrest
      rw [List.count_append, List.count_cons, Nat.add_comm]
      refine Nat.add_le_add hrest ?_
      by_cases hqp : q = p
      · subst hqp
        rw [hvp] at hq
        cases hq
        cases sent <;> simp [hip]
      · cases sent <;> simp [Ne.symm hqp]

/-- One packet: to everybody, to nobody or to the peer found at its destination. -/
lemma handlePacket_cases {out : Outside ID} {packet : Packet} {handed : Bool} {ps : List Ptr}
    (h : t.handlePacket out packet = some (t', handed, ps)) :
    t.isBroadcast packet.dstIP = true ∧
        t.broadcast out.isConnected packet out.order = some (t', ps) ∨
      t.netIPToPeer.lookup packet.dstIP = none ∧ t' = t ∧ ps = [] ∨
      ∃ p sent, t.netIPToPeer.lookup packet.dstIP = some p ∧
        t.sendOutbound p packet = some (t', sent) ∧ ps = if sent then [p] else [] := by
  unfold handlePacket at h
  split_ifs at h with hb
  · obtain ⟨⟨t₁, ps₁⟩, h₁, h⟩ := Option.bind_eq_some_iff.mp h
    cases h
    exact Or.inl ⟨hb, h₁⟩
  · rcases hp : t.netIPToPeer.lookup packet.dstIP with _ | p
    · simp only [hp] at h
      cases h
      exact Or.inr (Or.inl ⟨rfl, rfl, rfl⟩)
    · simp only [hp] at h
      obtain ⟨⟨t₁, sent⟩, h₁, h⟩ := Option.bind_eq_some_iff.mp h
      cases h
      exact Or.inr (Or.inr ⟨p, sent, rfl, h₁, rfl⟩)

lemma handlePacket_gains {out : Outside ID} {packet : Packet} {handed : Bool} {ps : List Ptr}
    (h : t.handlePacket out packet = some (t', handed, ps)) (q : Ptr) :
    Gains t t' q (List.replicate (ps.count q) packet) := by
  obtain ⟨-, hb⟩ | ⟨-, rfl, rfl⟩ | ⟨p, sent, -, hs, rfl⟩ := handlePacket_cases h
  · exact broadcast_gains hb q
  · exact Gains.refl _ q
  · exact sendOutbound_gains hs q

variable [DecidableEq ID] in
/-- Nobody gets a packet twice. -/
lemma handlePacket_count {out : Outside ID} {packet : Packet} {handed : Bool} {ps : List Ptr}
    (hi : t.Inv) (hout : out.order.Nodup) (h : t.handlePacket out packet = some (t', handed, ps))
    {q : Ptr} {vq : VpnPeer ID} (hq : t.heap[q]? = some vq) : ps.count q ≤ 1 := by
  obtain ⟨-, hb⟩ | ⟨-, -, rfl⟩ | ⟨p, sent, -, -, rfl⟩ := handlePacket_cases h
  · exact (broadcast_count hi hb hq).trans (List.nodup_iff_count_le_one.mp hout _)
  · simp
  · cases sent
    · simp
    · exact List.count_le_length

/-- The peer found at the destination gets the packet if its queue has room. -/
lemma handlePacket_reaches {out : Outside ID} {packet : Packet} {handed : Bool} {ps : List Ptr}
    (h : t.handlePacket out packet = some (t', handed, ps))
    (hb : t.isBroadcast packet.dstIP = false) {p : Ptr} {vp : VpnPeer ID}
    (hp : t.netIPToPeer.lookup packet.dstIP = some p) (hvp : t.heap[p]? = some vp)
    (hroom : vp.outboundCh.buf.length < vp.outboundCh.cap) : p ∈ ps := by
  obtain ⟨hb', -⟩ | ⟨hp', -⟩ | ⟨p', sent, hp', hs, rfl⟩ := handlePacket_cases h
  · rw [hb] at hb'
    cases hb'
  · rw [hp] at hp'
    cases hp'
  · rw [hp] at hp'
    cases hp'
    rw [sendOutbound_of_room hs hvp hroom]
    exact List.mem_singleton_self p

/-! ### A batch -/

/-- The packets that the peer at `q` was sent, in order: those of the slots that the log has
for it. -/
def queued (slot : ℕ → Option Packet) (log : List (ℕ × Ptr)) (q : Ptr) : List Packet :=
  log.filterMap fun e => if e.2 = q then slot e.1 else none

lemma queued_map {slot : ℕ → Option Packet} {i : ℕ} {packet : Packet} (h : slot i = some packet)
    (ps : List Ptr) (q : Ptr) :
    queued slot (ps.map (i, ·)) q = List.replicate (ps.count q) packet := by
  induction ps with
  | nil => rfl
  | cons p ps ih =>
    rw [queued] at ih ⊢
    by_cases hp : p = q
    · simp [hp, h, ih, List.replicate_succ]
    · simp [hp, ih]

/-- The loop over the batch: the log says what the queues got. -/
lemma handleLoop_gains {out : ℕ → Outside ID} {slot : ℕ → Option Packet}
    {packets slots : List (Option Packet)} {log : List (ℕ × Ptr)} {i : ℕ}
    (h : t.handleLoop out i packets = some (t', slots, log))
    (hslot : ∀ j, slot (i + j) = packets[j]?.join) (q : Ptr) :
    Gains t t' q (queued slot log q) := by
  induction packets generalizing t i slots log with
  | nil => cases h; exact Gains.refl _ q
  | cons p packets ih =>
    have hslot' : ∀ j, slot (i + 1 + j) = packets[j]?.join := fun j => by
      rw [Nat.add_assoc, Nat.add_comm 1 j, hslot, List.getElem?_cons_succ]
    cases p with
    | none =>
      obtain ⟨⟨t₁, slots₁, log₁⟩, h₁, h⟩ := Option.bind_eq_some_iff.mp h
      cases h
      exact ih h₁ hslot'
    | some packet =>
      obtain ⟨⟨t₁, handed, ps⟩, h₁, h⟩ := Option.bind_eq_some_iff.mp h
      obtain ⟨⟨t₂, slots₂, log₂⟩, h₂, h⟩ := Option.bind_eq_some_iff.mp h
      cases h
      have hi : slot i = some packet := hslot 0
      rw [queued, List.filterMap_append, ← queued, ← queued, queued_map hi]
      exact (handlePacket_gains h₁ q).trans (ih h₂ hslot')

variable [DecidableEq ID] in
/-- The loop over the batch: a peer with room for all of it gets what is for its address. -/
lemma handleLoop_reaches {out : ℕ → Outside ID} (hout : ∀ i, (out i).order.Nodup)
    {packets slots : List (Option Packet)} {log : List (ℕ × Ptr)} {i : ℕ} (hi : t.Inv)
    (h : t.handleLoop out i packets = some (t', slots, log)) {p : Ptr} {vp : VpnPeer ID}
    (hvp : t.heap[p]? = some vp)
    (hroom : vp.outboundCh.buf.length + packets.length ≤ vp.outboundCh.cap) {j : ℕ}
    {packet : Packet} (hj : packets[j]? = some (some packet))
    (hb : t.isBroadcast packet.dstIP = false)
    (hp : t.netIPToPeer.lookup packet.dstIP = some p) : (i + j, p) ∈ log := by
  induction packets generalizing t i j slots log vp with
  | nil => cases hj
  | cons x packets ih =>
    rw [List.length_cons] at hroom
    cases x with
    | none =>
      obtain ⟨⟨t₁, slots₁, log₁⟩, h₁, h⟩ := Option.bind_eq_some_iff.mp h
      cases h
      cases j with
      | zero => cases hj
      | succ j =>
        rw [← Nat.succ_add_eq_add_succ]
        exact ih hi h₁ hvp (by omega) hj hb hp
    | some packet₁ =>
      obtain ⟨⟨t₁, handed, ps⟩, h₁, h⟩ := Option.bind_eq_some_iff.mp h
      obtain ⟨⟨t₂, slots₂, log₂⟩, h₂, h⟩ := Option.bind_eq_some_iff.mp h
      cases h
      rw [List.mem_append]
      cases j with
      | zero =>
        cases hj
        have hmem := handlePacket_reaches h₁ hb hp hvp (by omega)
        exact Or.inl (List.mem_map.mpr ⟨p, hmem, rfl⟩)
      | succ j =>
        right
        obtain ⟨t₁', handed', ps', h₁', hf, -⟩ := handlePacket_spec hi (out i) packet₁
        rw [h₁] at h₁'
        cases h₁'
        obtain ⟨vp₁, hvp₁, -, hcap, hbuf⟩ := handlePacket_gains h₁ p vp hvp
        have hone := handlePacket_count hi (hout i) h₁ hvp
        rw [← Nat.succ_add_eq_add_succ]
        refine ih (hf.inv hi) h₂ hvp₁ ?_ hj (by rw [hf.isBroadcast, hb]) (by rw [hf.byIP, hp])
        rw [hbuf, hcap, List.length_append, List.length_replicate]
        omega

/-- The log of a batch says what every queue gets. -/
lemma handleReadPackets_queued {out : ℕ → Outside ID} {packets slots : List (Option Packet)}
    {log : List (ℕ × Ptr)} (h : t.handleReadPackets out packets = some (t', slots, log))
    (q : Ptr) : Gains t t' q (queued (fun i => packets[i]?.join) log q) := by
  unfold handleReadPackets at h
  split_ifs at h
  · cases h
    exact Gains.refl _ q
  · exact handleLoop_gains h (fun j => by rw [Nat.zero_add]) q

variable [DecidableEq ID] in
/-- In an open tunnel the peer found at an address gets what is for it, as long as its queue has
room for the batch. -/
lemma handleReadPackets_reaches {out : ℕ → Outside ID} (hout : ∀ i, (out i).order.Nodup)
    {packets slots : List (Option Packet)} {log : List (ℕ × Ptr)} (hi : t.Inv)
    (hopen : t.isClosed = false)
    (h : t.handleReadPackets out packets = some (t', slots, log)) {p : Ptr} {vp : VpnPeer ID}
    (hvp : t.heap[p]? = some vp)
    (hroom : vp.outboundCh.buf.length + packets.length ≤ vp.outboundCh.cap) {i : ℕ}
    {packet : Packet} (hget : packets[i]? = some (some packet))
    (hb : t.isBroadcast packet.dstIP = false)
    (hp : t.netIPToPeer.lookup packet.dstIP = some p) : (i, p) ∈ log := by
  rw [handleReadPackets, if_neg (by rw [hopen]; exact Bool.false_ne_true)] at h
  rw [← Nat.zero_add i]
  exact handleLoop_reaches hout hi h hvp hroom hget hb hp

lemma mem_queued {slot : ℕ → Option Packet} {log : List (ℕ × Ptr)} {i : ℕ} {q : Ptr}
    {packet : Packet} (hlog : (i, q) ∈ log) (hslot : slot i = some packet) :
    packet ∈ queued slot log q :=
  List.mem_filterMap.mpr ⟨(i, q), hlog, by rw [if_pos rfl, hslot]⟩

/-- What the log has for a peer is in its queue. -/
lemma mem_outboundCh_of_log {out : ℕ → Outside ID} {packets slots : List (Option Packet)}
    {log : List (ℕ × Ptr)} (h : t.handleReadPackets out packets = some (t', slots, log)) {p : Ptr}
    {vp : VpnPeer ID} (hvp : t.heap[p]? = some vp) {i : ℕ} {packet : Packet}
    (hget : packets[i]? = some (some packet)) (hlog : (i, p) ∈ log) :
    ∃ vp', t'.heap[p]? = some vp' ∧ packet ∈ vp'.outboundCh.buf := by
  obtain ⟨vp', hvp', -, -, hbuf⟩ := handleReadPackets_queued h p vp hvp
  have hmem : packet ∈ queued (fun i => packets[i]?.join) log p :=
    mem_queued hlog (by rw [hget]; rfl)
  exact ⟨vp', hvp', by rw [hbuf]; exact List.mem_append_right _ hmem⟩

end Tunnel

end Awl
