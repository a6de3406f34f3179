import Awl.BuffersInv
import Awl.InboundPath
import Awl.TransitRun

/-!
Who has the buffers of the inbound path, and what is in them.

Every buffer is in at most one place: in the pool, at a stream handler, in the queue, in the
batch, or somewhere in the rest of the program. A step writes only to a buffer that the
goroutine has, so what the queue and the batch hold stays as it was put there. The batch keeps
each buffer once as long as `Parse` rejects nothing; otherwise slots are left behind that are
given back a second time.
-/

namespace Awl

open NetIP

namespace InboundPath

/-! ### Ownership -/

def Reading.bufs : Reading → List Buf
  | .empty b | .full b => [b]
  | .idle | .returned => []

/-- In how many slots outside the pool a buffer is. -/
def outside (s : InboundPath) (b : Buf) : ℕ :=
  (s.readers.flatMap Reading.bufs).count b + s.inboundCh.buf.count b +
    s.handler.batch.packetsBatch.count (some b) + s.others.count b

/-- Every buffer is in one place, and the record of the pool is in order. -/
structure Owned (s : InboundPath) : Prop where
  once : ∀ b, s.pool.free.count b + s.outside b ≤ 1
  made : ∀ b, 0 < s.pool.free.count b + s.outside b → b < s.pool.made
  log : s.pool.Disciplined

lemma owned_init (localIP : IP) : (init localIP).Owned where
  once b := by simp [init, outside, Pool.empty, Chan.make, Handler.init]
  made b := by simp [init, outside, Pool.empty, Chan.make, Handler.init]
  log := Pool.disciplined_empty

namespace Owned

variable {s s' : InboundPath} {b : Buf}

/-- A buffer outside the pool may be used, and put back. -/
lemma held (h : s.Owned) (hb : 0 < s.outside b) : b ∉ s.pool.free ∧ b < s.pool.made := by
  have honce := h.once b
  exact ⟨fun hf => by have := List.count_pos_iff.mpr hf; omega, h.made b (by omega)⟩

lemma same (h : s.Owned) (hp : s'.pool = s.pool) (ho : ∀ x, s'.outside x = s.outside x) :
    s'.Owned :=
  ⟨fun x => by rw [hp, ho]; exact h.once x, fun x hx => by
    rw [hp, ho] at hx
    rw [hp]
    exact h.made x hx, hp ▸ h.log⟩

lemma use (h : s.Owned) (hb : 0 < s.outside b) (hp : s'.pool = s.pool.use b)
    (ho : ∀ x, s'.outside x = s.outside x) : s'.Owned :=
  ⟨fun x => by rw [hp, ho]; exact h.once x, fun x hx => by
    rw [hp, ho] at hx
    rw [hp]
    exact h.made x hx, by rw [hp]; exact h.log.use (h.held hb).1 (h.held hb).2⟩

lemma useAll (h : s.Owned) {bs : List Buf} (hb : ∀ b ∈ bs, 0 < s.outside b)
    (hp : s'.pool = s.pool.useAll bs) (ho : ∀ x, s'.outside x = s.outside x) : s'.Owned :=
  ⟨fun x => by rw [hp, ho, Pool.useAll_free]; exact h.once x, fun x hx => by
    rw [hp, ho, Pool.useAll_free] at hx
    rw [hp, Pool.useAll_made]
    exact h.made x hx, by rw [hp]; exact h.log.useAll fun b hb' => h.held (hb b hb')⟩

/-- A buffer is given back to the pool. -/
lemma put (h : s.Owned) (hp : s'.pool = s.pool.put b)
    (ho : ∀ x, s'.outside x + (if x = b then 1 else 0) = s.outside x) : s'.Owned := by
  have hcount : ∀ x, s'.pool.free.count x = s.pool.free.count x + if x = b then 1 else 0 := by
    intro x
    rw [hp]
    exact Buffers.count_cons_ite b x _
  have hheld : 0 < s.outside b := by
    have := ho b
    rw [if_pos rfl] at this
    omega
  refine ⟨fun x => ?_, fun x hx => ?_, ?_⟩
  · have h1 := h.once x
    have h2 := ho x
    have h3 := hcount x
    omega
  · have h2 := ho x
    have h3 := hcount x
    have h4 := h.made x (by omega)
    rw [hp]
    exact h4
  · rw [hp]
    exact h.log.put (h.held hheld).1 (h.held hheld).2

/-- A buffer is taken from the pool. -/
lemma get (h : s.Owned) {got : Option Buf} {pool : Pool} (hg : s.pool.get got = some (b, pool))
    (hp : s'.pool = pool) (ho : ∀ x, s'.outside x = s.outside x + if x = b then 1 else 0) :
    s'.Owned := by
  have hfree : ∀ x ∈ s.pool.free, x < s.pool.made := fun x hx =>
    h.made x (by have := List.count_pos_iff.mpr hx; omega)
  refine ⟨fun x => ?_, fun x hx => ?_, hp ▸ h.log.get hfree hg⟩
  all_goals
    have h1 := h.once x
    have h2 := ho x
    have h3 := h.made x
    rw [hp] at *
  · obtain ⟨⟨hb, hfree', -⟩ | ⟨hb, hfree', -⟩, -⟩ := Pool.get_cases hg
    · rw [hfree']
      by_cases hx : x = b
      · rw [if_pos hx] at h2
        have : ¬ 0 < s.pool.free.count x + s.outside x := fun hpos => by
          have := h3 hpos
          omega
        omega
      · rw [if_neg hx] at h2
        omega
    · rw [hfree', List.count_erase]
      have hpos := List.count_pos_iff.mpr hb
      by_cases hx : x = b
      · subst hx
        simp only [beq_self_eq_true, if_true] at h2 ⊢
        omega
      · rw [if_neg hx] at h2
        omega
  · obtain ⟨⟨hb, hfree', hmade⟩ | ⟨hb, hfree', hmade⟩, -⟩ := Pool.get_cases hg
    · rw [hmade]
      rw [hfree', h2] at hx
      by_cases hxb : x = b
      · omega
      · rw [if_neg hxb] at hx
        have := h3 (by omega)
        omega
    · rw [hmade]
      by_cases hxb : x = b
      · subst hxb
        exact hfree x hb
      · rw [hfree', h2, if_neg hxb] at hx
        have := List.count_erase_of_ne (l := s.pool.free) hxb
        exact h3 (by omega)

lemma collect (h : s.Owned) {pool : Pool} (hc : s.pool.collect b = some pool)
    (hp : s'.pool = pool) (ho : ∀ x, s'.outside x = s.outside x) : s'.Owned := by
  have hlog := h.log.collect hc
  unfold Pool.collect at hc
  split_ifs at hc with hb
  cases hc
  have hle : ∀ x, (s.pool.free.erase b).count x ≤ s.pool.free.count x := fun x =>
    List.Sublist.count_le x List.erase_sublist
  refine ⟨fun x => ?_, fun x hx => ?_, hp ▸ hlog⟩
  · rw [hp, ho]
    have h1 := h.once x
    have h2 := hle x
    dsimp only
    omega
  · rw [hp, ho] at hx
    rw [hp]
    have h2 := hle x
    dsimp only at hx ⊢
    exact h.made x (by omega)

end Owned

/-! ### Contents -/

lemma forall₂_imp_of_mem {α β : Type} {R R' : α → β → Prop} {l₁ : List α} {l₂ : List β}
    (h : List.Forall₂ R l₁ l₂) (himp : ∀ a, ∀ b ∈ l₂, R a b → R' a b) :
    List.Forall₂ R' l₁ l₂ := by
  induction h with
  | nil => exact List.Forall₂.nil
  | cons hab _ ih =>
    exact .cons (himp _ _ List.mem_cons_self hab)
      (ih fun a b hb => himp a b (List.mem_cons_of_mem _ hb))

/-- What the buffers hold. -/
def contentsOf (mem : Buf → Packet) (bs : List Buf) : List (List UInt8) :=
  bs.map fun b => (mem b).content

lemma contentsOf_congr {mem mem' : Buf → Packet} {bs : List Buf}
    (h : ∀ b ∈ bs, mem' b = mem b) : contentsOf mem' bs = contentsOf mem bs :=
  List.map_congr_left fun b hb => by rw [h b hb]

/-- `Parse` accepts packets with this content. -/
def Accepted (c : List UInt8) : Prop := ∀ p : Packet, p.content = c → p.parse.isSome

/-- What the loop of `WritePacketsBatch` leaves of a packet with the content `c`. -/
def Rewrote (deviceIP senderIP : IP) (c : List UInt8) (p : Packet) : Prop :=
  ∃ q : Packet, q.content = c ∧ q.parse = some q ∧ (q.isIPv6 = true ∧ p = q ∨
    q.isIPv6 = false ∧ (q.addressed senderIP deviceIP).recalculateChecksum = some p)

/-- What is written for a packet with the content `c`: nothing for IPv6. -/
def Outcome (deviceIP senderIP : IP) (c : List UInt8) : Option (List UInt8) → Prop
  | none => ∃ p q : Packet, p.content = c ∧ p.parse = some q ∧ q.isIPv6 = true
  | some buf => Transit.Delivery.Rewritten deviceIP ⟨c, senderIP, buf⟩

/-- The device is handed what becomes of the packets with the contents `cs`, in order. -/
def WrittenAs (deviceIP : IP) (cs : List (List UInt8)) (call : WriteCall) : Prop :=
  ∃ outcomes, List.Forall₂ (Outcome deviceIP call.senderIP) cs outcomes ∧
    call.bufs = outcomes.reduceOption

/-- Where the handler is with the packets of its batch, whose contents were `cs`. -/
def Handling (deviceIP : IP) (mem : Buf → Packet) (h : Handler) (cs : List (List UInt8)) : Prop :=
  match h.phase with
  | .idle | .stopped => h.batch = ⟨[], 0, []⟩ ∧ cs = []
  | .gather => ∃ bs : List Buf, h.batch = ⟨bs.map some, 0, []⟩ ∧ bs ≠ [] ∧
      cs = contentsOf mem bs
  | .parse i => ∃ seen rest : List Buf, h.batch = ⟨(seen ++ rest).map some, seen.length, []⟩ ∧
      seen.length = i ∧ seen ++ rest ≠ [] ∧ cs = contentsOf mem (seen ++ rest) ∧
      ∀ b ∈ seen, (mem b).parse = some (mem b)
  | .rewrite i => ∃ (seen rest : List Buf) (done : List (List UInt8)),
      h.batch = ⟨(seen ++ rest).map some, (seen ++ rest).length, []⟩ ∧
      seen.length = i ∧ cs = done ++ contentsOf mem rest ∧
      List.Forall₂ (fun c b => Rewrote deviceIP h.senderIP c (mem b)) done seen ∧
      ∀ b ∈ rest, (mem b).parse = some (mem b)
  | .write => ∃ bs : List Buf, h.batch = ⟨bs.map some, bs.length, []⟩ ∧
      List.Forall₂ (fun c b => Rewrote deviceIP h.senderIP c (mem b)) cs bs
  | .release i => cs = [] ∧ ∃ rest : List Buf,
      h.batch.packetsBatch = List.replicate i none ++ rest.map some

/-- The handler does not see what happens to other buffers. -/
lemma Handling.congr {deviceIP : IP} {mem mem' : Buf → Packet} {h : Handler}
    {cs : List (List UInt8)} (hs : Handling deviceIP mem h cs)
    (hmem : ∀ b, some b ∈ h.batch.packetsBatch → mem' b = mem b) :
    Handling deviceIP mem' h cs := by
  unfold Handling at hs ⊢
  rcases hp : h.phase with _ | _ | i | i | _ | i | _ <;> rw [hp] at hs <;> dsimp only at hs ⊢
  · exact hs
  · obtain ⟨bs, hb, hne, rfl⟩ := hs
    rw [hb] at hmem
    refine ⟨bs, hb, hne, (contentsOf_congr fun b hbs => ?_).symm⟩
    exact hmem b (List.mem_map_of_mem hbs)
  · obtain ⟨seen, rest, hb, hi, hne, rfl, hparsed⟩ := hs
    rw [hb] at hmem
    refine ⟨seen, rest, hb, hi, hne, (contentsOf_congr fun b hbs => ?_).symm, fun b hbs => ?_⟩
    · exact hmem b (List.mem_map_of_mem hbs)
    · rw [hmem b (List.mem_map_of_mem (List.mem_append_left _ hbs))]
      exact hparsed b hbs
  · obtain ⟨seen, rest, done, hb, hi, rfl, hdone, hparsed⟩ := hs
    rw [hb] at hmem
    have hrest : ∀ b ∈ rest, mem' b = mem b := fun b hbs =>
      hmem b (List.mem_map_of_mem (List.mem_append_right _ hbs))
    refine ⟨seen, rest, done, hb, hi, ?_, ?_, fun b hbs => ?_⟩
    · rw [contentsOf_congr hrest]
    · refine forall₂_imp_of_mem hdone fun c b hbs hc => ?_
      rwa [hmem b (List.mem_map_of_mem (List.mem_append_left _ hbs))]
    · rw [hrest b hbs]
      exact hparsed b hbs
  · obtain ⟨bs, hb, hdone⟩ := hs
    rw [hb] at hmem
    refine ⟨bs, hb, forall₂_imp_of_mem hdone fun c b hbs hc => ?_⟩
    rwa [hmem b (List.mem_map_of_mem hbs)]
  · exact hs
  · exact hs

/-- **What holds as long as `Parse` accepts what enters the queue**: every buffer has one owner,
packets leave the queue in the order they entered it, and each call of `tun.Write` had what
became of a batch of them. -/
structure Good (deviceIP : IP) (s : InboundPath) : Prop where
  owned : s.Owned
  fifo : ∃ taken : List (Bool × List UInt8),
    s.enqueued = taken.map Prod.snd ++ contentsOf s.mem s.inboundCh.buf ∧
    s.handled = (taken.filter Prod.fst).map Prod.snd ∧
    s.drained = (taken.filter fun t => !t.1).map Prod.snd
  writes : ∃ batches cs, s.handled = batches.flatten ++ cs ∧
    List.Forall₂ (WrittenAs deviceIP) batches s.written ∧ Handling deviceIP s.mem s.handler cs

lemma good_init (deviceIP localIP : IP) : (init localIP).Good deviceIP where
  owned := owned_init localIP
  fifo := ⟨[], rfl, rfl, rfl⟩
  writes := ⟨[], [], rfl, List.Forall₂.nil, rfl, rfl⟩

/-- What a step leaves as it is that has nothing to do with the queue and the batch. -/
structure Frame (s s' : InboundPath) : Prop where
  queue : s'.inboundCh.buf = s.inboundCh.buf
  handler : s'.handler = s.handler
  logs : s'.enqueued = s.enqueued ∧ s'.handled = s.handled ∧ s'.drained = s.drained ∧
    s'.written = s.written
  mem : ∀ b, b ∈ s.inboundCh.buf ∨ some b ∈ s.handler.batch.packetsBatch → s'.mem b = s.mem b

lemma Good.frame {deviceIP : IP} {s s' : InboundPath} (h : s.Good deviceIP) (ho : s'.Owned)
    (hf : Frame s s') : s'.Good deviceIP := by
  obtain ⟨taken, h1, h2, h3⟩ := h.fifo
  obtain ⟨batches, cs, h4, h5, h6⟩ := h.writes
  obtain ⟨he, hh, hd, hw⟩ := hf.logs
  refine ⟨ho, ⟨taken, ?_, hh.trans h2, hd.trans h3⟩, batches, cs, hh.trans h4, hw ▸ h5, ?_⟩
  · rw [he, h1, hf.queue, contentsOf_congr fun b hb => hf.mem b (Or.inl hb)]
  · rw [hf.handler]
    exact h6.congr fun b hb => hf.mem b (Or.inr hb)

section

variable {deviceIP : IP} {s s' : InboundPath} {b : Buf}

/-- A buffer that somebody else has is not in the queue, and not in the batch. -/
lemma Owned.apart (h : s.Owned)
    (hb : 0 < (s.readers.flatMap Reading.bufs).count b + s.others.count b) :
    ∀ x, x ∈ s.inboundCh.buf ∨ some x ∈ s.handler.batch.packetsBatch → x ≠ b := by
  rintro x hx rfl
  have honce := h.once x
  unfold outside at honce
  rcases hx with hx | hx
  · have := List.count_pos_iff.mpr hx
    omega
  · have := List.count_pos_iff.mpr hx
    omega

/-- A stream handler goes on. -/
lemma count_readers {k : ℕ} {r : Reading} (hr : s.readers[k]? = some r) (r' : Reading) (x : Buf) :
    ((s.readers.set k r').flatMap Reading.bufs).count x + r.bufs.count x =
      (s.readers.flatMap Reading.bufs).count x + r'.bufs.count x :=
  count_flatMap_set Reading.bufs r' x hr

end

end InboundPath

end Awl
