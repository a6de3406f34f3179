import Awl.Ownership
import Awl.TransitFrames

/-!
No packet is duplicated or lost without a trace on its way through the tunnel.

The places a packet can be in are counted: for every content, what was offered to the tunnel is
as often in its queues, batches and streams, at the device of the receiver, or given up.
-/

namespace Awl

namespace Transit

/-! ### Where the packets are -/

/-- The packets that are on the stream as a whole. -/
def Wire.pending (w : Wire) : List (List UInt8) := (frames w.unread).1

namespace Link

/-- What has been offered and is neither delivered nor given up. -/
def inTransit (s : Link) : List (List UInt8) :=
  contents s.outboundCh.buf ++ s.senders.flatMap (fun x => contents x.batch) ++
    s.wires.flatMap Wire.pending ++ contents s.inboundCh.buf ++
    contents (s.inBatch.elim [] InBatch.packets)

/-- How often the content `c` is anywhere. -/
def tally (s : Link) (c : List UInt8) : ℕ :=
  (s.lost.map Prod.snd).count c + s.inTransit.count c + (s.delivered.map Delivery.content).count c

end Link

lemma contents_append (ps qs : List Packet) : contents (ps ++ qs) = contents ps ++ contents qs :=
  List.map_append

lemma given_map_snd (why : Loss) (packets : List (List UInt8)) :
    (given why packets).map Prod.snd = packets := by
  simp [given]

/-! ### The stream -/

/-- What holds of every stream: it has whole frames, and a cut one only when it is broken; and
what was read from it and what is still on it comes in the order it was given. -/
structure Wire.Sound (w : Wire) : Prop where
  splits : ∃ tail, Splits w.unread w.pending tail ∧ (w.ending ≠ .broken → tail = [])
  order : (w.handed ++ w.pending).Sublist w.carried

namespace Wire

variable {w : Wire}

lemma pending_eq {packets : List (List UInt8)} {tail : List UInt8}
    (h : Splits w.unread packets tail) : w.pending = packets := by
  rw [pending, h.frames_eq]

/-- The same stream with other bytes on it. -/
lemma Sound.of_splits {packets : List (List UInt8)} {tail : List UInt8}
    (h : Splits w.unread packets tail) (htail : w.ending ≠ .broken → tail = [])
    (horder : (w.handed ++ packets).Sublist w.carried) : w.Sound where
  splits := ⟨tail, by rwa [pending_eq h], htail⟩
  order := by rwa [pending_eq h]

lemma sound_new : ({} : Wire).Sound :=
  Sound.of_splits splits_nil (fun _ => rfl) (List.Sublist.refl [])

lemma Sound.close (h : w.Sound) : w.close.Sound ∧ w.close.pending = w.pending := by
  obtain ⟨tail, hsplit, htail⟩ := h.splits
  refine ⟨Sound.of_splits hsplit (fun hb => htail fun he => hb ?_) h.order, rfl⟩
  rw [Wire.close, he]
  rfl

/-- **A write**: each packet is on the stream or is among those that are not. -/
lemma Sound.write (h : w.Sound) {packets : List (List UInt8)} (hfit : ∀ p ∈ packets, Fits p)
    (failed : Option ℕ) : (w.write packets failed).1.Sound ∧
      (w.write packets failed).1.pending ++ (w.write packets failed).2 = w.pending ++ packets := by
  obtain ⟨tail, hsplit, htail⟩ := h.splits
  by_cases hb : w.ending = .broken
  · rw [Wire.write, if_pos hb]
    refine ⟨Sound.of_splits hsplit htail ?_, rfl⟩
    exact h.order.trans (List.sublist_append_left _ _)
  · rw [htail hb] at hsplit
    rw [Wire.write, if_neg hb]
    obtain ⟨put, tail', hput, hpre⟩ := (splits_encoded hfit).take
      (failed.getD (encoded packets).length)
    have hnew := hsplit.append hput
    simp only [frames_eq_encoded, hput.frames_eq]
    refine ⟨Sound.of_splits hnew (fun hend => ?_) ?_, ?_⟩
    · -- without an error the whole batch is written
      cases failed with
      | some n => exact absurd rfl hend
      | none =>
        rw [Option.getD_none, List.take_length] at hput
        have := (splits_encoded hfit).frames_eq.symm.trans hput.frames_eq
        exact (congrArg Prod.snd this).symm
    · rw [← List.append_assoc]
      exact h.order.append hpre.sublist
    · rw [pending_eq hnew, List.append_assoc, List.prefix_iff_eq_append.mp hpre]

/-- **A break**: what can still be read are the first of the packets. -/
lemma Sound.sever (h : w.Sound) (n : ℕ) : (w.sever n).1.Sound ∧
    (w.sever n).1.pending ++ (w.sever n).2 = w.pending := by
  obtain ⟨tail, hsplit, -⟩ := h.splits
  obtain ⟨packets, tail', hcut, hpre⟩ := hsplit.take n
  refine ⟨Sound.of_splits hcut (fun hb => absurd rfl hb) ?_, ?_⟩
  · exact (List.Sublist.append_left hpre.sublist _).trans h.order
  · rw [pending_eq hcut]
    simp only [Wire.sever, hcut.frames_eq]
    exact List.prefix_iff_eq_append.mp hpre

/-- A stream that a packet has arrived on has a whole frame. -/
lemma Sound.pending_ne_nil (h : w.Sound) (ha : w.Arrived) : w.pending ≠ [] := by
  intro hnil
  obtain ⟨tail, hsplit, -⟩ := h.splits
  rw [hnil] at hsplit
  have hcut : Cut w.unread := by
    have := hsplit.cut
    rwa [← show w.unread = tail from hsplit.eq] at this
  have := hcut.not_whole ha.1
  have := ha.2
  omega

/-- **The reader takes the first packet**, or finds the end of a closed stream. -/
lemma Sound.readFrame (h : w.Sound) (hready : w.ending = .closed ∨ w.Arrived) (data : Packet)
    (plan : ℕ → ℕ × Bool) :
    (∃ packet stream', Awl.readFrame maxContentSize data (w.stream plan) =
        some (.ok packet, stream') ∧
      ∀ w' : Wire, w'.unread = stream'.bytes → w'.ending = w.ending →
        w'.carried = w.carried → w'.handed = w.handed ++ [packet.content] →
        w'.Sound ∧ w.pending = packet.content :: w'.pending) ∨
    (∃ stop stream', Awl.readFrame maxContentSize data (w.stream plan) =
        some (.error stop, stream') ∧ stream'.bytes = w.unread) := by
  obtain ⟨tail, hsplit, htail⟩ := h.splits
  rcases hp : w.pending with _ | ⟨p, packets⟩
  · right
    have hclosed : w.ending = .closed := hready.resolve_right fun ha => h.pending_ne_nil ha hp
    rw [hp, htail (by rw [hclosed]; decide)] at hsplit
    have hempty : w.unread = [] := hsplit.eq
    obtain ⟨stream', hread, hs'⟩ := readFrame_eof data (w.stream plan) hempty
    exact ⟨_, stream', hread, hs'.trans hempty.symm⟩
  · left
    rw [hp] at hsplit
    obtain ⟨hbytes, hfit, hrest⟩ := hsplit.tail
    obtain ⟨packet, stream', hread, hcontent, hs'⟩ :=
      readFrame_whole data (w.stream plan) hfit hbytes
    refine ⟨packet, stream', hread, fun w' hunread hend hcarried hhanded => ?_⟩
    rw [← hs', ← hunread] at hrest
    refine ⟨Sound.of_splits hrest (by rwa [hend]) ?_, ?_⟩
    · rw [hhanded, hcarried, hcontent, List.append_assoc, List.singleton_append, ← hp]
      exact h.order
    · rw [hcontent, pending_eq hrest]

end Wire

end Transit

end Awl
