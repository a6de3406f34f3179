import Awl.Race
import Awl.TransitInv

/-!
What holds in every state of the tunnel between two nodes, and that the steps of the sender keep
it.
-/

namespace Awl

open NetIP

namespace Transit

/-! ### Who sends on which stream -/

/-- Of the packets `received` from the outbound queue, in their order, come the batches and what
the streams were given; the batch of a handler comes behind what its stream was given, and no
other handler has that stream. -/
structure Sending (received : List (List UInt8)) (senders : List Sender) (wires : List Wire) :
    Prop where
  batch : ∀ x ∈ senders, (contents x.batch).Sublist received
  carried : ∀ w ∈ wires, w.carried.Sublist received
  stream : ∀ (i : ℕ) (x : Sender) (k : ℕ), senders[i]? = some x → x.stream = some k →
    ∃ w : Wire, wires[k]? = some w ∧ (w.carried ++ contents x.batch).Sublist received
  unique : ∀ (i j : ℕ) (x y : Sender) (k : ℕ), senders[i]? = some x → senders[j]? = some y →
    x.stream = some k → y.stream = some k → i = j

section

variable {α : Type} {l : List α} {i j : ℕ} {a b c : α}

lemma getElem?_set_cases (h : (l.set i b)[j]? = some c) :
    j = i ∧ c = b ∨ j ≠ i ∧ l[j]? = some c := by
  rw [List.getElem?_set] at h
  split_ifs at h with hij hlt
  · cases h
    exact Or.inl ⟨hij.symm, rfl⟩
  · exact Or.inr ⟨fun he => hij he.symm, h⟩

lemma getElem?_set_self_of (h : l[i]? = some a) : (l.set i b)[i]? = some b :=
  List.getElem?_set_self (List.getElem?_eq_some_iff.mp h).1

end

namespace Sending

variable {received more : List (List UInt8)} {senders : List Sender} {wires : List Wire}
  {i k : ℕ} {x x' : Sender} {w w' : Wire}

lemma mono (h : Sending received senders wires) (hmore : received.Sublist more) :
    Sending more senders wires where
  batch x hx := (h.batch x hx).trans hmore
  carried w hw := (h.carried w hw).trans hmore
  stream i x k hx hk := by
    obtain ⟨w, hw, hsub⟩ := h.stream i x k hx hk
    exact ⟨w, hw, hsub.trans hmore⟩
  unique := h.unique

/-- Streams have one handler each, if that of the new state has no other one. -/
lemma unique_set (h : Sending received senders wires)
    (hnew : ∀ (k j : ℕ) (y : Sender), x'.stream = some k → j ≠ i → senders[j]? = some y →
      y.stream ≠ some k) (j j' : ℕ) (y y' : Sender) (k : ℕ)
    (hy : (senders.set i x')[j]? = some y) (hy' : (senders.set i x')[j']? = some y')
    (hk : y.stream = some k) (hk' : y'.stream = some k) : j = j' := by
  rcases getElem?_set_cases hy with ⟨hj, hx⟩ | ⟨hj, hold⟩
  · rcases getElem?_set_cases hy' with ⟨hj', -⟩ | ⟨hj', hold'⟩
    · exact hj.trans hj'.symm
    · exact absurd hk' (hnew k j' y' (hx ▸ hk) hj' hold')
  · rcases getElem?_set_cases hy' with ⟨hj', hx'⟩ | ⟨-, hold'⟩
    · exact absurd hk (hnew k j y (hx' ▸ hk') hj hold)
    · exact h.unique j j' y y' k hold hold' hk hk'

/-- A handler goes on with another batch, on the same stream or without one. -/
lemma setSender (h : Sending received senders wires) (hx : senders[i]? = some x)
    (hbatch : (contents x'.batch).Sublist received)
    (hstream : ∀ k, x'.stream = some k → x.stream = some k ∧
      ∀ w : Wire, wires[k]? = some w → (w.carried ++ contents x'.batch).Sublist received) :
    Sending received (senders.set i x') wires where
  batch y hy := by
    rcases List.mem_or_eq_of_mem_set hy with hy | rfl
    · exact h.batch y hy
    · exact hbatch
  carried := h.carried
  stream j y k hy hk := by
    rcases getElem?_set_cases hy with ⟨-, rfl⟩ | ⟨-, hy⟩
    · obtain ⟨hk', hsub⟩ := hstream k hk
      obtain ⟨w, hw, -⟩ := h.stream i x k hx hk'
      exact ⟨w, hw, hsub w hw⟩
    · exact h.stream j y k hy hk
  unique := h.unique_set fun k j y hk hj hy hk' =>
    hj (h.unique j i y x k hy hx hk' (hstream k hk).1)

/-- A stream on which nothing is sent. -/
lemma setWire (h : Sending received senders wires) (hw : wires[k]? = some w)
    (hc : w'.carried = w.carried) : Sending received senders (wires.set k w') where
  batch := h.batch
  carried v hv := by
    rcases List.mem_or_eq_of_mem_set hv with hv | rfl
    · exact h.carried v hv
    · rw [hc]
      exact h.carried w (List.mem_of_getElem? hw)
  stream i x j hx hj := by
    obtain ⟨v, hv, hsub⟩ := h.stream i x j hx hj
    by_cases hjk : j = k
    · subst hjk
      rw [hw] at hv
      cases hv
      exact ⟨w', getElem?_set_self_of hw, by rwa [hc]⟩
    · exact ⟨v, by rwa [List.getElem?_set_ne (Ne.symm hjk)], hsub⟩
  unique := h.unique

/-- **The batch of a handler is sent** on its stream, which it may leave after that. -/
lemma sent (h : Sending received senders wires) (hx : senders[i]? = some x)
    (hk : x.stream = some k) (hw : wires[k]? = some w)
    (hc : w'.carried = w.carried ++ contents x.batch) (hbatch : x'.batch = [])
    (hstream : ∀ j, x'.stream = some j → j = k) :
    Sending received (senders.set i x') (wires.set k w') := by
  obtain ⟨v, hv, hsub⟩ := h.stream i x k hx hk
  rw [hw] at hv
  cases hv
  rw [← hc] at hsub
  refine ⟨fun y hy => ?_, fun v hv => ?_, fun j y m hy hm => ?_,
    h.unique_set fun m j y hm hj hy hm' =>
      hj (h.unique j i y x k hy hx (hstream m hm ▸ hm') hk)⟩
  · rcases List.mem_or_eq_of_mem_set hy with hy | rfl
    · exact h.batch y hy
    · rw [hbatch]
      exact List.nil_sublist _
  · rcases List.mem_or_eq_of_mem_set hv with hv | rfl
    · exact h.carried v hv
    · exact hsub
  · rcases getElem?_set_cases hy with ⟨-, rfl⟩ | ⟨hji, hy⟩
    · refine ⟨w', ?_, by simpa [hbatch, contents] using hsub⟩
      rw [hstream m hm]
      exact getElem?_set_self_of hw
    · obtain ⟨v, hv, hv'⟩ := h.stream j y m hy hm
      have hmk : m ≠ k := fun he => hji (h.unique j i y x k hy hx (he ▸ hm) hk)
      exact ⟨v, by rwa [List.getElem?_set_ne (Ne.symm hmk)], hv'⟩

/-- **The batch of a handler without a stream is sent** on a new one. -/
lemma sentNew (h : Sending received senders wires) (hx : senders[i]? = some x)
    (hc : w'.carried = contents x.batch) (hbatch : x'.batch = [])
    (hstream : ∀ j, x'.stream = some j → j = wires.length) :
    Sending received (senders.set i x') (wires ++ [w']) := by
  have hsub : w'.carried.Sublist received := hc ▸ h.batch x (List.mem_of_getElem? hx)
  have hold : ∀ {j : ℕ} {y : Sender} {m : ℕ}, senders[j]? = some y → y.stream = some m →
      m < wires.length := by
    intro j y m hy hm
    obtain ⟨v, hv, -⟩ := h.stream j y m hy hm
    exact (List.getElem?_eq_some_iff.mp hv).1
  refine ⟨fun y hy => ?_, fun v hv => ?_, fun j y m hy hm => ?_,
    h.unique_set fun m j y hm _ hy hm' =>
      Nat.lt_irrefl _ (hstream m hm ▸ hold hy hm')⟩
  · rcases List.mem_or_eq_of_mem_set hy with hy | rfl
    · exact h.batch y hy
    · rw [hbatch]
      exact List.nil_sublist _
  · rcases List.mem_append.mp hv with hv | hv
    · exact h.carried v hv
    · rw [List.mem_singleton.mp hv]
      exact hsub
  · rcases getElem?_set_cases hy with ⟨-, rfl⟩ | ⟨-, hy⟩
    · refine ⟨w', ?_, by simpa [hbatch, contents] using hsub⟩
      rw [hstream m hm, List.getElem?_concat_length]
    · obtain ⟨v, hv, hv'⟩ := h.stream j y m hy hm
      exact ⟨v, by rwa [List.getElem?_append_left (hold hy hm)], hv'⟩

end Sending

/-! ### What holds in every state -/

/-- The buffer of a delivered packet is what `WritePacketsBatch` makes of its content. -/
def Delivery.Rewritten (deviceIP : IP) (d : Delivery) : Prop :=
  ∃ p q : Packet, p.content = d.content ∧ p.parse = some q ∧ q.isIPv6 = false ∧
    q.rewrite d.senderIP deviceIP = some d.buf

namespace Link

/-- The packets of the batch of `backgroundInboundHandler`. -/
def batched (s : Link) : List Packet := s.inBatch.elim [] InBatch.packets

structure Inv (deviceIP : IP) (s : Link) : Prop where
  balance : ∀ c, (contents s.offered).count c = s.tally c
  parsed : ∀ p ∈ s.offered, ∃ raw : Packet, raw.parse = some p
  idle : ∀ x ∈ s.senders, x.phase = .idle → x.batch = []
  wires : ∀ w ∈ s.wires, w.Sound
  sending : ∃ received, contents s.accepted = received ++ contents s.outboundCh.buf ∧
    Sending received s.senders s.wires
  queued : (s.delivered.map Delivery.content ++ contents s.batched ++
    contents s.inboundCh.buf).Sublist (s.arrived.map Prod.snd)
  handed : ∀ (k : ℕ) (w : Wire), s.wires[k]? = some w → (own k s.arrived).Sublist w.handed
  origin : ∀ e ∈ s.arrived, e.1 < s.wires.length
  valid : ∀ e ∈ s.lost, e.1 ≠ .invalid
  rewritten : ∀ d ∈ s.delivered, d.Rewritten deviceIP

lemma tally_eq (s : Link) (c : List UInt8) : s.tally c =
    (s.lost.map Prod.snd).count c + ((contents s.outboundCh.buf).count c +
      (s.senders.flatMap fun x => contents x.batch).count c +
      (s.wires.flatMap Wire.pending).count c + (contents s.inboundCh.buf).count c +
      (contents s.batched).count c) + (s.delivered.map Delivery.content).count c := by
  simp only [tally, inTransit, batched, List.count_append]

lemma inv_init (deviceIP : IP) (n : ℕ) (localIP : IP) : (init n localIP).Inv deviceIP where
  balance c := by
    have : (List.replicate n ({} : Sender)).flatMap (fun x => contents x.batch) = [] := by
      induction n with
      | zero => rfl
      | succ n ih => rw [List.replicate_succ, List.flatMap_cons, ih]; rfl
    rw [tally_eq]
    simp only [init, this]
    rfl
  parsed := by simp [init]
  idle x hx _ := by rw [List.eq_of_mem_replicate hx]
  wires := by simp [init]
  sending := by
    refine ⟨[], rfl, ⟨fun x hx => ?_, by simp [init], fun i x k hx hk => ?_,
      fun i j x y k hx _ hk _ => ?_⟩⟩
    · rw [List.eq_of_mem_replicate hx]
      exact List.nil_sublist _
    · rw [List.eq_of_mem_replicate (List.mem_of_getElem? hx)] at hk
      cases hk
    · rw [List.eq_of_mem_replicate (List.mem_of_getElem? hx)] at hk
      cases hk
  queued := List.Sublist.refl _
  handed k w hw := by cases hw
  origin := by simp [init]
  valid := by simp [init]
  rewritten := by simp [init]

variable {deviceIP : IP} {s s' : Link}

/-! ### The sender -/

lemma count_given (why : Loss) (packets : List (List UInt8)) (c : List UInt8) :
    ((s.lost ++ given why packets).map Prod.snd).count c =
      (s.lost.map Prod.snd).count c + packets.count c := by
  rw [List.map_append, given_map_snd, List.count_append]

lemma valid_given (h : s.Inv deviceIP) {why : Loss} (hwhy : why ≠ .invalid)
    (packets : List (List UInt8)) : ∀ e ∈ s.lost ++ given why packets, e.1 ≠ .invalid := by
  intro e he
  rcases List.mem_append.mp he with he | he
  · exact h.valid e he
  · obtain ⟨p, -, rfl⟩ := List.mem_map.mp he
    exact hwhy

lemma Inv.offer (h : s.Inv deviceIP) {raw : Packet} (hs : s.offer raw = some s') :
    s'.Inv deviceIP := by
  simp only [Link.offer, Option.bind_eq_bind, Option.bind_eq_some_iff] at hs
  obtain ⟨packet, hparse, hs⟩ := hs
  have hparsed : ∀ p ∈ s.offered ++ [packet], ∃ raw : Packet, raw.parse = some p := by
    intro p hp
    rcases List.mem_append.mp hp with hp | hp
    · exact h.parsed p hp
    · rw [List.mem_singleton.mp hp]
      exact ⟨raw, hparse⟩
  split at hs
  · next ch htry =>
    cases hs
    have hbuf := Chan.trySend_buf htry
    obtain ⟨received, hacc, hsend⟩ := h.sending
    refine { h with balance := fun c => ?_, parsed := hparsed, sending := ⟨received, ?_, hsend⟩ }
    · have := h.balance c
      simp only [tally_eq, batched, hbuf, contents_append, List.count_append] at this ⊢
      omega
    · simp only [hbuf, contents_append, hacc, List.append_assoc]
  · cases hs
    refine { h with
      balance := fun c => ?_
      parsed := hparsed
      valid := valid_given h (by decide) _ }
    have := h.balance c
    simp only [tally_eq, batched, count_given, contents_append, List.count_append] at this ⊢
    simp only [contents, List.map_cons, List.map_nil] at this ⊢
    omega
  · cases hs

/-- A handler gets another state; its batch changes by what is taken from the queue or given up. -/
lemma Inv.idle_set (h : s.Inv deviceIP) {i : ℕ} {x : Sender}
    (hx : x.phase = .idle → x.batch = []) :
    ∀ y ∈ s.senders.set i x, y.phase = .idle → y.batch = [] := by
  intro y hy
  rcases List.mem_or_eq_of_mem_set hy with hy | rfl
  · exact h.idle y hy
  · exact hx

lemma count_batches {i : ℕ} {x : Sender} (hx : s.senders[i]? = some x) (x' : Sender)
    (c : List UInt8) :
    ((s.senders.set i x').flatMap fun x => contents x.batch).count c +
        (contents x.batch).count c =
      (s.senders.flatMap fun x => contents x.batch).count c + (contents x'.batch).count c :=
  count_flatMap_set (fun x => contents x.batch) x' c hx

/-- **A handler takes a packet** from the queue. -/
lemma Inv.takes (h : s.Inv deviceIP) {i : ℕ} {x x' : Sender} (hx : s.senders[i]? = some x)
    {packet : Packet} {ch : Chan Packet} (hch : s.outboundCh.recv = some (packet, ch))
    (hbatch : x'.batch = x.batch ++ [packet]) (hstream : x'.stream = x.stream)
    (hphase : x'.phase ≠ .idle) :
    Inv deviceIP { s with outboundCh := ch, senders := s.senders.set i x' } := by
  have hbuf := Chan.recv_buf hch
  obtain ⟨received, hacc, hsend⟩ := h.sending
  have hgrow : received.Sublist (received ++ [packet.content]) := List.sublist_append_left _ _
  refine { h with
    balance := fun c => ?_
    idle := h.idle_set fun he => absurd he hphase
    sending := ⟨received ++ [packet.content], ?_,
      (hsend.mono hgrow).setSender hx ?_ fun k hk => ?_⟩ }
  · have h1 := h.balance c
    have h2 := count_batches hx x' c
    simp only [hbatch, contents_append, List.count_append] at h2
    simp only [tally_eq, batched, hbuf] at h1 ⊢
    simp only [contents, List.map_cons, List.map_nil, List.count_cons, List.count_nil] at h1 h2 ⊢
    omega
  · rw [hacc, hbuf]
    simp [contents]
  · rw [hbatch, contents_append]
    exact (hsend.batch x (List.mem_of_getElem? hx)).append (List.Sublist.refl _)
  · rw [hstream] at hk
    refine ⟨hk, fun w hw => ?_⟩
    obtain ⟨v, hv, hsub⟩ := hsend.stream i x k hx hk
    rw [hw] at hv
    cases hv
    rw [hbatch, contents_append, ← List.append_assoc]
    exact hsub.append (List.Sublist.refl _)

/-- A handler goes on with the same batch. -/
lemma Inv.goesOn (h : s.Inv deviceIP) {i : ℕ} {x x' : Sender} (hx : s.senders[i]? = some x)
    (hbatch : x'.batch = x.batch) (hstream : x'.stream = none ∨ x'.stream = x.stream)
    (hphase : x'.phase = .idle → x.phase = .idle) :
    Inv deviceIP { s with senders := s.senders.set i x' } := by
  obtain ⟨received, hacc, hsend⟩ := h.sending
  refine { h with
    balance := fun c => ?_
    idle := h.idle_set fun he => ?_
    sending := ⟨received, hacc, hsend.setSender hx ?_ fun k hk => ?_⟩ }
  · have h1 := h.balance c
    have h2 := count_batches hx x' c
    rw [hbatch] at h2
    simp only [tally_eq, batched] at h1 ⊢
    omega
  · rw [hbatch]
    exact h.idle x (List.mem_of_getElem? hx) (hphase he)
  · rw [hbatch]
    exact hsend.batch x (List.mem_of_getElem? hx)
  · have hk' : x.stream = some k := by
      rcases hstream with hs | hs
      · rw [hs] at hk
        cases hk
      · rwa [hs] at hk
    refine ⟨hk', fun w hw => ?_⟩
    obtain ⟨v, hv, hsub⟩ := hsend.stream i x k hx hk'
    rw [hw] at hv
    cases hv
    rwa [hbatch]

/-- **The batch of a handler is given up.** -/
lemma Inv.drops (h : s.Inv deviceIP) {why : Loss} (hwhy : why ≠ .invalid) {i : ℕ} {x : Sender}
    (hx : s.senders[i]? = some x) (x' : Sender) (hbatch : x'.batch = [])
    (hstream : x'.stream = none ∨ x'.stream = x.stream) :
    Inv deviceIP { s with
      senders := s.senders.set i x'
      lost := s.lost ++ given why (contents x.batch) } := by
  obtain ⟨received, hacc, hsend⟩ := h.sending
  refine { h with
    balance := fun c => ?_
    idle := h.idle_set fun _ => hbatch
    sending := ⟨received, hacc, hsend.setSender hx ?_ fun k hk => ?_⟩
    valid := valid_given h hwhy _ }
  · have h1 := h.balance c
    have h2 := count_batches hx x' c
    rw [hbatch] at h2
    simp only [tally_eq, batched, count_given] at h1 ⊢
    simp only [contents, List.map_nil, List.count_nil] at h1 h2 ⊢
    omega
  · rw [hbatch]
    exact List.nil_sublist _
  · have hk' : x.stream = some k := by
      rcases hstream with hs | hs
      · rw [hs] at hk
        cases hk
      · rwa [hs] at hk
    refine ⟨hk', fun w hw => ?_⟩
    rw [hbatch]
    simpa [contents] using hsend.carried w (List.mem_of_getElem? hw)

/-! ### Streams -/

lemma count_pending {k : ℕ} {w : Wire} (hw : s.wires[k]? = some w) (w' : Wire) (c : List UInt8) :
    ((s.wires.set k w').flatMap Wire.pending).count c + w.pending.count c =
      (s.wires.flatMap Wire.pending).count c + w'.pending.count c :=
  count_flatMap_set Wire.pending w' c hw

lemma Inv.sound_set (h : s.Inv deviceIP) {k : ℕ} {w : Wire} (hw : w.Sound) :
    ∀ v ∈ s.wires.set k w, v.Sound := by
  intro v hv
  rcases List.mem_or_eq_of_mem_set hv with hv | rfl
  · exact h.wires v hv
  · exact hw

lemma Inv.handed_set (h : s.Inv deviceIP) {k : ℕ} {w w' : Wire} (hw : s.wires[k]? = some w)
    (hh : w'.handed = w.handed) (j : ℕ) (v : Wire) (hv : (s.wires.set k w')[j]? = some v) :
    (own j s.arrived).Sublist v.handed := by
  rcases getElem?_set_cases hv with ⟨rfl, rfl⟩ | ⟨-, hv⟩
  · rw [hh]
    exact h.handed j w hw
  · exact h.handed j v hv

/-- A stream ends or breaks, or its reader goes on or returns; `gone` cannot be read any more. -/
lemma Inv.setWire (h : s.Inv deviceIP) {k : ℕ} {w w' : Wire} (hw : s.wires[k]? = some w)
    (hsound : w'.Sound) {gone : List (List UInt8)} (hp : w'.pending ++ gone = w.pending)
    (hc : w'.carried = w.carried) (hh : w'.handed = w.handed) :
    Inv deviceIP { s with
      wires := s.wires.set k w'
      lost := s.lost ++ given .broken gone } := by
  obtain ⟨received, hacc, hsend⟩ := h.sending
  refine { h with
    balance := fun c => ?_
    wires := h.sound_set hsound
    sending := ⟨received, hacc, hsend.setWire hw hc⟩
    handed := h.handed_set hw hh
    origin := fun e he => ?_
    valid := valid_given h (by decide) _ }
  · have h1 := h.balance c
    have h2 := count_pending hw w' c
    rw [← hp, List.count_append] at h2
    simp only [tally_eq, batched, count_given] at h1 ⊢
    omega
  · rw [List.length_set]
    exact h.origin e he

/-- The same without a loss. -/
lemma Inv.keepWire (h : s.Inv deviceIP) {k : ℕ} {w w' : Wire} (hw : s.wires[k]? = some w)
    (hsound : w'.Sound) (hp : w'.pending = w.pending) (hc : w'.carried = w.carried)
    (hh : w'.handed = w.handed) : Inv deviceIP { s with wires := s.wires.set k w' } := by
  simpa [given] using h.setWire hw hsound ((List.append_nil _).trans hp) hc hh

lemma Inv.sound (h : s.Inv deviceIP) {k : ℕ} {w : Wire} (hw : s.wires[k]? = some w) : w.Sound :=
  h.wires w (List.mem_of_getElem? hw)

lemma Inv.closeStream (h : s.Inv deviceIP) (k : Option ℕ) :
    Inv deviceIP { s with wires := Link.closeStream s.wires k } := by
  cases k with
  | none => exact h
  | some k =>
    rcases hw : s.wires[k]? with _ | w
    · simpa [Link.closeStream, hw] using h
    · obtain ⟨hsound, hp⟩ := (h.sound hw).close
      simpa [Link.closeStream, hw] using h.keepWire hw hsound hp rfl rfl

lemma Inv.receive (h : s.Inv deviceIP) {i : ℕ} (hs : s.receive i = some s') :
    s'.Inv deviceIP := by
  simp only [Link.receive, Option.bind_eq_bind, Option.bind_eq_some_iff] at hs
  obtain ⟨x, hx, hs⟩ := hs
  split at hs
  · next hphase =>
    have hempty := h.idle x (List.mem_of_getElem? hx) hphase
    split at hs
    · next packet ch hch =>
      cases hs
      exact h.takes hx hch (by rw [hempty]; rfl) rfl (by simp)
    · split_ifs at hs
      cases hs
      exact (h.closeStream x.stream).goesOn (x := x) hx rfl (Or.inl rfl) (by simp)
  · next hphase =>
    split_ifs at hs
    · cases hs
      exact h.goesOn hx rfl (Or.inr rfl) (by simp)
    · split at hs
      · next packet ch hch =>
        cases hs
        exact h.takes hx hch rfl rfl (by simp [hphase])
      · cases hs
        exact h.goesOn hx rfl (Or.inr rfl) (by simp)
  · cases hs

lemma Inv.check (h : s.Inv deviceIP) {i : ℕ} {isConnected : Bool}
    (hs : s.check i isConnected = some s') : s'.Inv deviceIP := by
  simp only [Link.check, Option.bind_eq_bind, Option.bind_eq_some_iff] at hs
  obtain ⟨x, hx, hs⟩ := hs
  split at hs
  · split_ifs at hs
    · cases hs
      exact h.goesOn hx rfl (Or.inr rfl) (by simp)
    · cases hs
      exact h.drops (by simp) hx { x with phase := .idle, batch := [] } rfl (Or.inr rfl)
  · cases hs

lemma Inv.tick (h : s.Inv deviceIP) {i : ℕ} (hs : s.tick i = some s') : s'.Inv deviceIP := by
  simp only [Link.tick, Option.bind_eq_bind, Option.bind_eq_some_iff] at hs
  obtain ⟨x, hx, hs⟩ := hs
  split at hs
  · next hphase =>
    split_ifs at hs
    · cases hs
      exact (h.closeStream x.stream).goesOn (x := x) hx rfl (Or.inl rfl) fun _ => hphase
    · cases hs
      exact h
  · cases hs

lemma Inv.removeReceiver (h : s.Inv deviceIP) (hs : s.removeReceiver = some s') :
    s'.Inv deviceIP := by
  simp only [Link.removeReceiver, Option.bind_eq_bind, Option.bind_eq_some_iff] at hs
  obtain ⟨ch, hch, hs⟩ := hs
  cases hs
  have hbuf : ch.buf = [] := Chan.closeAndDrain_buf hch
  obtain ⟨received, hacc, hsend⟩ := h.sending
  refine { h with
    balance := fun c => ?_
    sending := ⟨contents s.accepted, by simp [hbuf, contents], hsend.mono ?_⟩
    valid := valid_given h (by decide) _ }
  · have := h.balance c
    simp only [tally_eq, batched, count_given, hbuf] at this ⊢
    simp only [contents, List.map_nil, List.count_nil] at this ⊢
    omega
  · rw [hacc]
    exact List.sublist_append_left _ _

/-! ### Sending a batch -/

lemma fits_contents (packets : List Packet) : ∀ p ∈ contents packets, Fits p := by
  intro p hp
  obtain ⟨packet, -, rfl⟩ := List.mem_map.mp hp
  exact fits_content packet

/-- **A batch is sent on the stream of the handler.** -/
lemma Inv.sends (h : s.Inv deviceIP) {i k : ℕ} {x x' : Sender} {w : Wire}
    (hx : s.senders[i]? = some x) (hk : x.stream = some k) (hw : s.wires[k]? = some w)
    (failed : Option ℕ) (hbatch : x'.batch = []) (hstream : ∀ j, x'.stream = some j → j = k) :
    Inv deviceIP { s with
      wires := s.wires.set k (w.write (contents x.batch) failed).1
      senders := s.senders.set i x'
      lost := s.lost ++ given .unsent (w.write (contents x.batch) failed).2 } := by
  obtain ⟨hsound, hp⟩ := (h.sound hw).write (fits_contents x.batch) failed
  obtain ⟨received, hacc, hsend⟩ := h.sending
  have hcarried : (w.write (contents x.batch) failed).1.carried =
      w.carried ++ contents x.batch := by
    unfold Wire.write
    split_ifs <;> rfl
  have hhanded : (w.write (contents x.batch) failed).1.handed = w.handed := by
    unfold Wire.write
    split_ifs <;> rfl
  refine { h with
    balance := fun c => ?_
    idle := h.idle_set fun _ => hbatch
    wires := h.sound_set hsound
    sending := ⟨received, hacc, hsend.sent hx hk hw hcarried hbatch hstream⟩
    handed := h.handed_set hw hhanded
    origin := fun e he => ?_
    valid := valid_given h (by decide) _ }
  · have h1 := h.balance c
    have h2 := count_pending hw (w.write (contents x.batch) failed).1 c
    have h3 := count_batches hx x' c
    have h4 := congrArg (List.count c) hp
    rw [List.count_append, List.count_append] at h4
    rw [hbatch] at h3
    simp only [tally_eq, batched, count_given] at h1 ⊢
    simp only [contents, List.map_nil, List.count_nil] at h1 h2 h3 h4 ⊢
    omega
  · rw [List.length_set]
    exact h.origin e he

/-- **A batch is sent on a new stream.** -/
lemma Inv.sendsNew (h : s.Inv deviceIP) {i : ℕ} {x x' : Sender} (hx : s.senders[i]? = some x)
    (failed : Option ℕ) (hbatch : x'.batch = [])
    (hstream : ∀ j, x'.stream = some j → j = s.wires.length) :
    Inv deviceIP { s with
      wires := s.wires ++ [(Wire.write {} (contents x.batch) failed).1]
      senders := s.senders.set i x'
      lost := s.lost ++ given .unsent (Wire.write {} (contents x.batch) failed).2 } := by
  obtain ⟨hsound, hp⟩ := Wire.sound_new.write (fits_contents x.batch) failed
  obtain ⟨received, hacc, hsend⟩ := h.sending
  refine { h with
    balance := fun c => ?_
    idle := h.idle_set fun _ => hbatch
    wires := fun v hv => ?_
    sending := ⟨received, hacc, hsend.sentNew hx rfl hbatch hstream⟩
    handed := fun j v hv => ?_
    origin := fun e he => ?_
    valid := valid_given h (by decide) _ }
  · have h1 := h.balance c
    have h3 := count_batches hx x' c
    have h4 := congrArg (List.count c) hp
    rw [List.count_append, List.count_append] at h4
    have hnew : ({} : Wire).pending = [] := rfl
    rw [hbatch] at h3
    simp only [tally_eq, batched, count_given, List.flatMap_append, List.flatMap_cons,
      List.flatMap_nil, List.append_nil, List.count_append] at h1 ⊢
    simp only [contents, hnew, List.map_nil, List.count_nil] at h1 h3 h4 ⊢
    omega
  · rcases List.mem_append.mp hv with hv | hv
    · exact h.wires v hv
    · rw [List.mem_singleton.mp hv]
      exact hsound
  · rcases Nat.lt_or_ge j s.wires.length with hj | hj
    · rw [List.getElem?_append_left hj] at hv
      exact h.handed j v hv
    · -- nothing has arrived on the new stream
      have hnone : own j s.arrived = [] := by
        refine List.filterMap_eq_nil_iff.mpr fun e he => if_neg ?_
        have := h.origin e he
        omega
      rw [hnone]
      exact List.nil_sublist _
  · rw [List.length_append]
    exact Nat.lt_add_right 1 (h.origin e he)

lemma Inv.send (h : s.Inv deviceIP) {i : ℕ} {opened : Option Bool} {failed : Option ℕ}
    (hs : s.send i opened failed = some s') : s'.Inv deviceIP := by
  simp only [Link.send, Option.bind_eq_bind, Option.bind_eq_some_iff] at hs
  obtain ⟨x, hx, hs⟩ := hs
  split at hs
  · set full := (x.out.makeRoom (contents x.batch)).stream.isNone
    -- the state when a full stream has been closed
    have h₁ : Inv deviceIP { s with
        wires := if full = true then Link.closeStream s.wires x.stream else s.wires } := by
      split_ifs
      · exact h.closeStream x.stream
      · exact h
    set wires := if full = true then Link.closeStream s.wires x.stream else s.wires
    split at hs
    · cases hs
      exact h₁.drops (x := x) (by simp) hx _ rfl (Or.inl rfl)
    · cases hs
      refine h₁.sendsNew (x := x) hx failed rfl fun j hj => ?_
      dsimp only at hj
      split_ifs at hj
      cases hj
      rfl
    · next opened' k hk =>
      rw [Option.bind_eq_some_iff] at hs
      obtain ⟨w, hw, hs⟩ := hs
      cases hs
      have hstream : x.stream = some k := by
        split_ifs at hk
        exact hk
      refine h₁.sends (x := x) hx hstream hw failed rfl fun j hj => ?_
      dsimp only at hj
      split_ifs at hj
      cases hj
      rfl
  · cases hs

end Link

end Transit

end Awl
