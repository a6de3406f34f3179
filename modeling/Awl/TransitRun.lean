import Awl.Rewritten
import Awl.TransitSend

/-!
The steps of the network and the receiver, and what follows for whole runs of the tunnel between
two nodes: packets are conserved, and those of one stream stay in order.
-/

namespace Awl

open NetIP

namespace Transit

namespace Link

variable {deviceIP : IP} {s s' : Link}

/-! ### The receiver -/

lemma Inv.sever (h : s.Inv deviceIP) {k n : ℕ} (hs : s.sever k n = some s') :
    s'.Inv deviceIP := by
  simp only [Link.sever, Option.bind_eq_bind, Option.bind_eq_some_iff] at hs
  obtain ⟨w, hw, hs⟩ := hs
  cases hs
  obtain ⟨hsound, hp⟩ := (h.sound hw).sever n
  exact h.setWire hw hsound hp rfl rfl

/-- The reader of a stream goes on or returns, without reading. -/
lemma Inv.setReader (h : s.Inv deviceIP) {k : ℕ} {w : Wire} (hw : s.wires[k]? = some w)
    (phase : ReaderPhase) :
    Inv deviceIP { s with wires := s.wires.set k { w with reader := phase } } :=
  h.keepWire hw ⟨(h.sound hw).splits, (h.sound hw).order⟩ rfl rfl rfl

lemma Inv.accept (h : s.Inv deviceIP) {k : ℕ} (hs : s.accept k = some s') : s'.Inv deviceIP := by
  simp only [Link.accept, Option.bind_eq_bind, Option.bind_eq_some_iff] at hs
  obtain ⟨w, hw, hs⟩ := hs
  split at hs
  · cases hs
    exact h.setReader hw _
  · cases hs

lemma Inv.fail (h : s.Inv deviceIP) {k : ℕ} (hs : s.fail k = some s') : s'.Inv deviceIP := by
  simp only [Link.fail, Option.bind_eq_bind, Option.bind_eq_some_iff] at hs
  obtain ⟨w, hw, hs⟩ := hs
  split_ifs at hs
  cases hs
  exact h.setReader hw _

/-- **A packet is read and given up.** -/
lemma Inv.readsLost (h : s.Inv deviceIP) {k : ℕ} {w w' : Wire} (hw : s.wires[k]? = some w)
    (hsound : w'.Sound) {c : List UInt8} (hp : w.pending = c :: w'.pending)
    (hc : w'.carried = w.carried) (hh : w'.handed = w.handed ++ [c]) {why : Loss}
    (hwhy : why ≠ .invalid) :
    Inv deviceIP { s with
      wires := s.wires.set k w'
      lost := s.lost ++ given why [c] } := by
  obtain ⟨received, hacc, hsend⟩ := h.sending
  refine { h with
    balance := fun b => ?_
    wires := h.sound_set hsound
    sending := ⟨received, hacc, hsend.setWire hw hc⟩
    handed := fun j v hv => ?_
    origin := fun e he => ?_
    valid := valid_given h hwhy _ }
  · have h1 := h.balance b
    have h2 := count_pending hw w' b
    rw [hp, List.count_cons] at h2
    simp only [tally_eq, batched, count_given, List.count_singleton] at h1 ⊢
    omega
  · rcases getElem?_set_cases hv with ⟨rfl, rfl⟩ | ⟨-, hv⟩
    · rw [hh]
      exact (h.handed j w hw).trans (List.sublist_append_left _ _)
    · exact h.handed j v hv
  · rw [List.length_set]
    exact h.origin e he

/-- **A packet is read and put into the queue.** -/
lemma Inv.readsQueued (h : s.Inv deviceIP) {k : ℕ} {w w' : Wire} (hw : s.wires[k]? = some w)
    (hsound : w'.Sound) {packet : Packet} (hp : w.pending = packet.content :: w'.pending)
    (hc : w'.carried = w.carried) (hh : w'.handed = w.handed ++ [packet.content])
    {ch : Chan Packet} (hbuf : ch.buf = s.inboundCh.buf ++ [packet]) :
    Inv deviceIP { s with
      wires := s.wires.set k w'
      inboundCh := ch
      arrived := s.arrived ++ [(k, packet.content)] } := by
  obtain ⟨received, hacc, hsend⟩ := h.sending
  have hk : k < s.wires.length := (List.getElem?_eq_some_iff.mp hw).1
  refine { h with
    balance := fun b => ?_
    wires := h.sound_set hsound
    sending := ⟨received, hacc, hsend.setWire hw hc⟩
    queued := ?_
    handed := fun j v hv => ?_
    origin := fun e he => ?_ }
  · have h1 := h.balance b
    have h2 := count_pending hw w' b
    rw [hp, List.count_cons] at h2
    simp only [tally_eq, batched, hbuf, contents_append, List.count_append] at h1 ⊢
    simp only [contents, List.map_cons, List.map_nil, List.count_singleton] at h1 ⊢
    omega
  · simp only [batched, hbuf, contents_append, List.map_append]
    rw [← List.append_assoc]
    exact h.queued.append (List.Sublist.refl _)
  · rw [own_append]
    rcases getElem?_set_cases hv with ⟨rfl, rfl⟩ | ⟨hj, hv⟩
    · rw [hh, own_cons_self]
      exact (h.handed j w hw).append (List.Sublist.refl _)
    · rw [own_cons_ne (Ne.symm hj), own_nil, List.append_nil]
      exact h.handed j v hv
  · rw [List.length_set]
    rcases List.mem_append.mp he with he | he
    · exact h.origin e he
    · rw [List.mem_singleton.mp he]
      exact hk

lemma Inv.handle (h : s.Inv deviceIP) {k : ℕ} {data : Packet} {plan : ℕ → ℕ × Bool}
    (hs : s.handle k data plan = some s') : s'.Inv deviceIP := by
  simp only [Link.handle, Option.bind_eq_bind, Option.bind_eq_some_iff] at hs
  obtain ⟨w, hw, hs⟩ := hs
  by_cases hready : w.reader = .reading ∧ (w.ending = .closed ∨ w.Arrived)
  swap
  · rw [if_neg hready] at hs
    cases hs
  rw [if_pos hready, Option.bind_eq_some_iff] at hs
  obtain ⟨⟨res, stream⟩, hread, hs⟩ := hs
  rcases (h.sound hw).readFrame hready.2 data plan with
    ⟨packet, stream', hread', hnext⟩ | ⟨stop, stream', hread', hsame⟩
  · rw [hread'] at hread
    cases hread
    dsimp only at hs
    split_ifs at hs
    · cases hs
      obtain ⟨hsound, hp⟩ := hnext
        { w with
          unread := stream.bytes
          handed := w.handed ++ [packet.content]
          reader := .returned } rfl rfl rfl rfl
      exact h.readsLost hw hsound hp rfl rfl (by simp)
    · obtain ⟨hsound, hp⟩ := hnext
        { w with unread := stream.bytes, handed := w.handed ++ [packet.content] } rfl rfl rfl rfl
      split at hs
      · next ch htry =>
        cases hs
        exact h.readsQueued hw hsound hp rfl rfl (Chan.trySend_buf htry)
      · cases hs
        exact h.readsLost hw hsound hp rfl rfl (by simp)
      · cases hs
  · rw [hread'] at hread
    cases hread
    dsimp only at hs
    cases hs
    rw [hsame]
    exact h.setReader hw _

/-- A packet moves from the queue into the batch. -/
lemma Inv.batches (h : s.Inv deviceIP) {packet : Packet} {ch : Chan Packet}
    (hch : s.inboundCh.recv = some (packet, ch)) {b : InBatch}
    (hb : b.packets = s.batched ++ [packet]) :
    Inv deviceIP { s with inboundCh := ch, inBatch := some b } := by
  have hbuf := Chan.recv_buf hch
  have hnew : ({ s with inboundCh := ch, inBatch := some b } : Link).batched =
      s.batched ++ [packet] := hb
  refine { h with balance := fun c => ?_, queued := ?_ }
  · have := h.balance c
    simp only [tally_eq, hnew, hbuf, contents_append, List.count_append] at this ⊢
    simp only [contents, List.map_cons, List.map_nil, List.count_cons, List.count_nil] at this ⊢
    omega
  · have := h.queued
    rw [hbuf] at this
    rw [hnew]
    simpa [contents] using this

lemma Inv.gather (h : s.Inv deviceIP) {batchSize : ℕ} (hs : s.gather batchSize = some s') :
    s'.Inv deviceIP := by
  unfold Link.gather at hs
  split at hs
  · next hnone =>
    simp only [Option.bind_eq_bind, Option.bind_eq_some_iff] at hs
    obtain ⟨⟨packet, ch⟩, hch, hs⟩ := hs
    cases hs
    exact h.batches hch (by rw [batched, hnone]; rfl)
  · next b hsome =>
    have hready : Inv deviceIP { s with inBatch := some { b with ready := true } } := by
      have hsame : ({ s with inBatch := some { b with ready := true } } : Link).batched =
          s.batched := by rw [batched, batched, hsome]; rfl
      refine { h with balance := fun c => ?_, queued := ?_ }
      · rw [h.balance c, tally_eq, tally_eq, hsame]
      · rw [hsame]
        exact h.queued
    split_ifs at hs
    · cases hs
      exact hready
    · split at hs
      · next packet ch hch =>
        cases hs
        exact h.batches hch (by rw [batched, hsome]; rfl)
      · cases hs
        exact hready

lemma Inv.removeSender (h : s.Inv deviceIP) (hs : s.removeSender = some s') :
    s'.Inv deviceIP := by
  simp only [Link.removeSender, Option.bind_eq_bind, Option.bind_eq_some_iff] at hs
  obtain ⟨ch, hch, hs⟩ := hs
  cases hs
  have hbuf : ch.buf = [] := Chan.closeAndDrain_buf hch
  refine { h with
    balance := fun c => ?_
    queued := ?_
    valid := valid_given h (by decide) _ }
  · have := h.balance c
    simp only [tally_eq, batched, count_given, hbuf] at this ⊢
    simp only [contents, List.map_nil, List.count_nil] at this ⊢
    omega
  · refine List.Sublist.trans ?_ h.queued
    rw [hbuf]
    exact List.Sublist.append_left (List.nil_sublist _) _

/-! ### The device -/

lemma parse_content {p q : Packet} (h : p.parse = some q) : q.content = p.content := by
  unfold Packet.parse at h
  split at h
  · cases h
  · split_ifs at h <;> (cases h; rfl)

/-- Whether a packet is accepted depends on its content alone. -/
lemma parse_isSome_congr {p q : Packet} (h : p.content = q.content) :
    p.parse.isSome = q.parse.isSome := by
  unfold Packet.parse
  rw [h]
  rcases q.content with _ | ⟨b, rest⟩
  · rfl
  · dsimp only
    split_ifs <;> rfl

/-- The packets of a batch are rejected, of IPv6, or written. -/
lemma count_batch (packets : List Packet) (c : List UInt8) :
    (contents packets).count c =
      (contents (packets.filter fun p => p.parse.isNone)).count c +
      (contents ((packets.filterMap Packet.parse).filter fun p => p.isIPv6)).count c +
      (contents ((packets.filterMap Packet.parse).filter fun p => !p.isIPv6)).count c := by
  induction packets with
  | nil => rfl
  | cons p packets ih =>
    simp only [contents] at ih ⊢
    rcases hp : p.parse with _ | q
    · simp only [List.map_cons, List.count_cons, List.filter_cons, List.filterMap_cons, hp,
        Option.isNone_none, if_true]
      omega
    · have hq := parse_content hp
      cases hv : q.isIPv6 <;>
        simp [List.count_cons, hp, hv, hq] <;> omega

lemma contents_filterMap_sublist (packets : List Packet) :
    (contents (packets.filterMap Packet.parse)).Sublist (contents packets) := by
  induction packets with
  | nil => exact List.Sublist.refl _
  | cons p packets ih =>
    rcases hp : p.parse with _ | q
    · simpa [contents, hp] using ih.cons p.content
    · simpa [contents, hp, parse_content hp] using ih

/-- What a batch that went through is made of. -/
lemma mapM_zip {α β : Type} {f : α → Option β} {xs : List α} {ys : List β}
    (h : xs.mapM f = some ys) : (xs.zip ys).map Prod.fst = xs ∧
      ∀ e ∈ xs.zip ys, e.1 ∈ xs ∧ f e.1 = some e.2 := by
  have hlen : xs.length = ys.length := by
    have := congrArg List.length (mapM_eq_some.mp h)
    rwa [List.length_map, List.length_map] at this
  refine ⟨List.map_fst_zip hlen.le, fun e he => ?_⟩
  obtain ⟨i, hi⟩ := List.mem_iff_getElem?.mp he
  obtain ⟨hx, hy⟩ := List.getElem?_zip_eq_some.mp hi
  obtain ⟨y, hy', hf⟩ := mapM_getElem? h hx
  rw [hy] at hy'
  cases hy'
  exact ⟨List.mem_of_getElem? hx, hf⟩

/-- **No packet of an offered content is rejected.** -/
lemma Inv.parses (h : s.Inv deviceIP) {p : Packet} (hp : p ∈ s.batched) : p.parse.isSome := by
  have hpos : 0 < (contents s.offered).count p.content := by
    have hmem : 0 < (contents s.batched).count p.content :=
      List.count_pos_iff.mpr (List.mem_map_of_mem hp)
    rw [h.balance, tally_eq]
    omega
  obtain ⟨q, hq, hcontent⟩ := List.mem_map.mp (List.count_pos_iff.mp hpos)
  obtain ⟨raw, hraw⟩ := h.parsed q hq
  rw [← parse_isSome_congr ((parse_content hraw).symm.trans hcontent), hraw]
  rfl

lemma Inv.deliver (h : s.Inv deviceIP) (hs : s.deliver deviceIP = some s') : s'.Inv deviceIP := by
  simp only [Link.deliver, Option.bind_eq_bind, Option.bind_eq_some_iff] at hs
  obtain ⟨b, hb, hs⟩ := hs
  split_ifs at hs
  rw [Option.bind_eq_some_iff] at hs
  obtain ⟨bufs, hbufs, hs⟩ := hs
  cases hs
  have hbatched : s.batched = b.packets := by rw [batched, hb]; rfl
  obtain ⟨hfst, hzip⟩ := mapM_zip (show ((b.packets.filterMap Packet.parse).filter
    fun p => !p.isIPv6).mapM (Packet.rewrite b.senderIP deviceIP) = some bufs from hbufs)
  have hcount := count_batch b.packets
  set filteredPackets := b.packets.filterMap Packet.parse with hfiltered
  set written := filteredPackets.filter fun p => !p.isIPv6
  have hcontent : (written.zip bufs).map
      (Delivery.content ∘ fun e => ⟨e.1.content, b.senderIP, e.2⟩) = contents written := by
    have : (Delivery.content ∘ fun e : Packet × List UInt8 =>
        (⟨e.1.content, b.senderIP, e.2⟩ : Delivery)) = Packet.content ∘ Prod.fst := rfl
    rw [this, ← List.map_map, hfst, contents]
  have hnone : b.packets.filter (fun p => p.parse.isNone) = [] := by
    refine List.filter_eq_nil_iff.mpr fun p hp => ?_
    have := h.parses (hbatched ▸ hp)
    simp [Option.isSome_iff_ne_none.mp this]
  have hsub : (contents written).Sublist (contents b.packets) :=
    (List.filter_sublist.map Packet.content).trans (contents_filterMap_sublist b.packets)
  refine { h with
    balance := fun c => ?_
    queued := ?_
    valid := ?_
    rewritten := fun d hd => ?_ }
  · have h1 := h.balance c
    have hempty : (contents []).count c = 0 := rfl
    rw [tally_eq, hbatched, hcount] at h1
    rw [tally_eq]
    simp only [batched, Option.elim_none, List.map_append, given_map_snd, List.map_map, hcontent,
      List.count_append]
    omega
  · have h1 := h.queued
    rw [hbatched] at h1
    simp only [batched, Option.elim_none, List.map_append, List.map_map, hcontent]
    refine List.Sublist.trans ?_ h1
    simp only [contents, List.map_nil, List.append_nil]
    exact ((List.Sublist.refl _).append hsub).append (List.Sublist.refl _)
  · rw [hnone]
    have := valid_given h (show Loss.ipv6 ≠ .invalid by simp)
      (contents (filteredPackets.filter fun p => p.isIPv6))
    simpa [given, contents] using this
  · rcases List.mem_append.mp hd with hd | hd
    · exact h.rewritten d hd
    · obtain ⟨e, he, rfl⟩ := List.mem_map.mp hd
      obtain ⟨hmem, hrew⟩ := hzip e he
      obtain ⟨hmem, hv4⟩ := List.mem_filter.mp hmem
      obtain ⟨p, -, hp⟩ := List.mem_filterMap.mp (hfiltered ▸ hmem)
      exact ⟨p, e.1, (parse_content hp).symm, hp, by simpa using hv4, hrew⟩

/-! ### Runs -/

/-- **One step.** -/
lemma Inv.step (h : s.Inv deviceIP) {batchSize : ℕ} {e : Event}
    (hs : s.step deviceIP batchSize e = some s') : s'.Inv deviceIP := by
  cases e with
  | offer raw => exact h.offer hs
  | receive i => exact h.receive hs
  | check i isConnected => exact h.check hs
  | send i opened failed => exact h.send hs
  | tick i => exact h.tick hs
  | removeReceiver => exact h.removeReceiver hs
  | sever k n => exact h.sever hs
  | accept k => exact h.accept hs
  | handle k data plan => exact h.handle hs
  | fail k => exact h.fail hs
  | gather => exact h.gather hs
  | deliver => exact h.deliver hs
  | move newLocalIP =>
    cases hs
    exact { h with }
  | removeSender => exact h.removeSender hs

/-- **Every state that is reached.** -/
theorem Inv.run {batchSize : ℕ} (es : List Link.Event) :
    ∀ {s s' : Link}, s.Inv deviceIP → s.run deviceIP batchSize es = some s' → s'.Inv deviceIP :=
  Runs.foldlM_inv (fun _ _ _ h hs => h.step hs) es

end Link

open Link

variable {deviceIP localIP : IP} {n batchSize : ℕ} {es : List Link.Event} {s : Link}

/-- Two packets are sent in one batch, and the write fails in the middle of the second one. -/
def cutBatch : List Link.Event :=
  [.offer udpPacket, .offer udpPacket, .receive 0, .receive 0, .receive 0, .check 0 true,
    .send 0 (some true) (some 40), .accept 0, .handle 0 Packet.new fun _ => (7, true),
    .gather, .gather, .deliver]

lemma own_eq_map_snd {α : Type} {l : List (ℕ × α)} (h : ∀ e ∈ l, e.1 = 0) :
    own 0 l = l.map Prod.snd := by
  induction l with
  | nil => rfl
  | cons e l ih =>
    obtain ⟨k, a⟩ := e
    obtain rfl : k = 0 := h (k, a) List.mem_cons_self
    rw [own_cons_self, List.map_cons, ih fun e he => h e (List.mem_cons_of_mem _ he)]

/-- An ICMP packet without a message. -/
def icmpPacket : Packet :=
  (Packet.holding [0x45, 0, 0, 20, 0, 0, 0, 0, 64, 1, 0, 0, 10, 66, 0, 2, 10, 66, 0, 1]
    (by decide)).asIPv4

/-- Two packets are sent one after the other; `pause` is what happens in between. -/
def twoPackets (pause read : List Link.Event) : List Link.Event :=
  [.offer udpPacket, .receive 0, .receive 0, .check 0 true, .send 0 (some false) none] ++ pause ++
    [.offer icmpPacket, .receive 0, .receive 0, .check 0 true, .send 0 (some false) none] ++
    read ++ [.gather, .gather, .gather, .deliver]

/-- The handler reads stream `k`. -/
def readStream (k : ℕ) : Link.Event := .handle k Packet.new fun _ => (7, false)

/-- When the first stream has been closed in between, they may change places. -/
example : ((init 1 [10, 66, 0, 2]).run [10, 66, 0, 1] 128
    (twoPackets [.tick 0] [.accept 0, .accept 1, readStream 1, readStream 0])).map
    (fun s => s.delivered.map Delivery.content) =
    some [icmpPacket.content, udpPacket.content] := by decide +kernel

end Transit

end Awl
