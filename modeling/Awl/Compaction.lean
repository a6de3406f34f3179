import Awl.Buffers
import Mathlib.Data.List.ReduceOption

/-!
One iteration of `backgroundInboundHandler`, buffer by buffer: the packets of a batch are parsed,
those that are accepted are moved to the front of the batch and written, and what is found in
the batch after that goes back to the pool.

A slot of the batch that has been moved from is not cleared. Whether it is written over later
depends on how many packets are accepted behind it.
-/

namespace Awl

/-- The variables of an iteration, and the packets that `PutTempPacket` was called with. -/
structure Inbound where
  packetsBatch : List (Option Buf)
  newLen : ℕ
  released : List Buf

namespace Inbound

/-- The body of the first loop, for slot `i`; `none` is a panic. -/
def parseSlot (parse : Buf → Bool) (s : Inbound) (i : ℕ) : Option Inbound :=
  match s.packetsBatch[i]? with
  | some (some packet) =>
    if !parse packet then
      some { s with
        packetsBatch := s.packetsBatch.set i none
        released := s.released ++ [packet] }
    else
      some { s with
        packetsBatch := s.packetsBatch.set s.newLen (some packet)
        newLen := s.newLen + 1 }
  | _ => none

/-- The body of the last loop, for slot `i`. -/
def releaseSlot (s : Inbound) (i : ℕ) : Option Inbound :=
  match s.packetsBatch[i]? with
  | some (some packet) =>
    some { s with
      packetsBatch := s.packetsBatch.set i none
      released := s.released ++ [packet] }
  | some none => some s
  | none => none

/-- A loop over the slots: `k` are left, the next one is `i`. -/
def loop (body : Inbound → ℕ → Option Inbound) : ℕ → ℕ → Inbound → Option Inbound
  | 0, _, s => some s
  | k + 1, i, s => (body s i).bind (loop body k (i + 1))

end Inbound

/-- An iteration on a batch: the packets handed to `WritePacketsBatch`, and the variables at its
end. Whether the write fails makes a difference only for what is counted and logged. -/
def inboundIteration (parse : Buf → Bool) (batch : List Buf) :
    Option (List (Option Buf) × Inbound) := do
  let s ← Inbound.loop (Inbound.parseSlot parse) batch.length 0 ⟨batch.map some, 0, []⟩
  let filteredPackets := s.packetsBatch.take s.newLen
  let s ← Inbound.loop Inbound.releaseSlot s.packetsBatch.length 0 s
  return (filteredPackets, s)

namespace Inbound

variable {parse : Buf → Bool}

/-! ### The first loop -/

/-- What a slot holds that nothing has been moved to. -/
def stale (parse : Buf → Bool) (b : Buf) : Option Buf := if parse b then some b else none

/-- The variables when the packets `seen` have been parsed and `rest` is left. -/
def parsing (parse : Buf → Bool) (seen rest : List Buf) : Inbound where
  packetsBatch := (seen.filter parse).map some ++
    ((seen.map (stale parse)).drop (seen.filter parse).length ++ rest.map some)
  newLen := (seen.filter parse).length
  released := seen.filter fun b => !parse b

lemma length_filter_le_stale (parse : Buf → Bool) (seen : List Buf) :
    (seen.filter parse).length ≤ (seen.map (stale parse)).length := by
  rw [List.length_map]
  exact List.length_filter_le _ _

/-- The slot that is looked at. -/
lemma parsing_slot (parse : Buf → Bool) (seen rest : List Buf) (b : Buf) :
    (parsing parse seen (b :: rest)).packetsBatch[seen.length]? = some (some b) := by
  have hle := length_filter_le_stale parse seen
  rw [List.length_map] at hle
  simp only [parsing]
  rw [List.getElem?_append_right (by rw [List.length_map]; exact hle),
    List.getElem?_append_right (by simp)]
  simp

/-- A packet that is rejected leaves its slot empty. -/
lemma parseSlot_rejected (seen rest : List Buf) {b : Buf} (hb : parse b = false) :
    (parsing parse seen (b :: rest)).parseSlot parse seen.length =
      some (parsing parse (seen ++ [b]) rest) := by
  have hle := length_filter_le_stale parse seen
  have hdrop : ((seen.map (stale parse)).drop (seen.filter parse).length).length =
      seen.length - (seen.filter parse).length := by
    rw [List.length_drop, List.length_map]
  rw [List.length_map] at hle
  simp only [parseSlot, parsing_slot parse seen rest b, hb, Bool.not_false, if_true]
  simp only [parsing, List.filter_append, List.filter_cons, List.filter_nil, hb, Bool.not_false,
    Bool.false_eq_true, if_false, if_true, List.append_nil, Option.some.injEq, Inbound.mk.injEq,
    and_true, List.map_append, List.map_cons, List.map_nil]
  rw [List.set_append_right _ _ (by rw [List.length_map]; exact hle), List.length_map,
    List.set_append_right _ _ (by omega), hdrop, Nat.sub_self, List.set_cons_zero,
    List.drop_append_of_le_length (by rw [List.length_map]; exact hle), List.append_assoc]
  simp [stale, hb]

/-- A packet that is accepted is moved over the first slot that is not in use, which may be its
own. -/
lemma parseSlot_accepted (seen rest : List Buf) {b : Buf} (hb : parse b = true) :
    (parsing parse seen (b :: rest)).parseSlot parse seen.length =
      some (parsing parse (seen ++ [b]) rest) := by
  have hle := length_filter_le_stale parse seen
  have hnext : ((seen ++ [b]).map (stale parse)).drop ((seen.filter parse).length + 1) =
      ((seen.map (stale parse)).drop (seen.filter parse).length ++ [some b]).drop 1 := by
    rw [← List.drop_drop, List.map_append, List.drop_append_of_le_length hle]
    simp [stale, hb]
  simp only [parseSlot, parsing_slot parse seen rest b, hb, Bool.not_true, Bool.false_eq_true,
    if_false]
  simp only [parsing, List.filter_append, List.filter_cons, List.filter_nil, hb, Bool.not_true,
    Bool.false_eq_true, if_false, if_true, List.append_nil, Option.some.injEq, Inbound.mk.injEq,
    and_true, List.length_append, List.length_singleton, hnext, List.map_append (f := some)]
  rw [List.set_append_right _ _ (by rw [List.length_map]), List.length_map, Nat.sub_self]
  rcases (seen.map (stale parse)).drop (seen.filter parse).length with _ | ⟨m, ms⟩
  · simp
  · simp

lemma parseSlot_eq (seen rest : List Buf) (b : Buf) :
    (parsing parse seen (b :: rest)).parseSlot parse seen.length =
      some (parsing parse (seen ++ [b]) rest) := by
  rcases hb : parse b with _ | _
  · exact parseSlot_rejected seen rest hb
  · exact parseSlot_accepted seen rest hb

/-- **The first loop**, by induction on the packets that are left. -/
lemma loop_parseSlot (parse : Buf → Bool) (rest : List Buf) : ∀ seen : List Buf,
    loop (parseSlot parse) rest.length seen.length (parsing parse seen rest) =
      some (parsing parse (seen ++ rest) []) := by
  induction rest with
  | nil => exact fun seen => by rw [List.append_nil]; rfl
  | cons b rest ih =>
    intro seen
    have hnext := ih (seen ++ [b])
    rw [List.length_append, List.length_singleton, List.append_assoc, List.singleton_append]
      at hnext
    rw [List.length_cons, loop, parseSlot_eq, Option.bind_some, hnext]

/-! ### The last loop -/

/-- **The last loop**, by induction on the slots that are left. -/
lemma loop_releaseSlot (newLen : ℕ) (slots : List (Option Buf)) :
    ∀ (done : List (Option Buf)) (released : List Buf),
      loop releaseSlot slots.length done.length ⟨done ++ slots, newLen, released⟩ =
        some ⟨done ++ List.replicate slots.length none, newLen,
          released ++ slots.reduceOption⟩ := by
  induction slots with
  | nil => exact fun done released => by simp [loop, List.reduceOption_nil]
  | cons slot slots ih =>
    intro done released
    have hslot : (done ++ slot :: slots)[done.length]? = some slot := by simp
    have hnext := ih (done ++ [none])
    rw [List.length_append, List.length_singleton] at hnext
    rw [List.length_cons, loop]
    cases slot with
    | none =>
      have hskip := hnext released
      rw [List.append_assoc, List.singleton_append, List.append_assoc, List.singleton_append,
        ← List.replicate_succ] at hskip
      simp only [releaseSlot, hslot, Option.bind_some, hskip, List.reduceOption_cons_of_none]
    | some b =>
      have hput := hnext (released ++ [b])
      rw [List.append_assoc, List.singleton_append, List.append_assoc done, List.singleton_append,
        ← List.replicate_succ, List.append_assoc, List.singleton_append] at hput
      have hset : (done ++ some b :: slots).set done.length none = done ++ none :: slots := by
        rw [List.set_append_right _ _ le_rfl, Nat.sub_self, List.set_cons_zero]
      simp only [releaseSlot, hslot, Option.bind_some, hset, hput, List.reduceOption_cons_of_some]

lemma reduceOption_map_stale (l : List Buf) :
    (l.map (stale parse)).reduceOption = l.filter parse := by
  induction l with
  | nil => rfl
  | cons b l ih =>
    rcases hb : parse b with _ | _
    · rw [List.map_cons, stale, hb, List.filter_cons_of_neg (by simp [hb])]
      exact ih
    · rw [List.map_cons, stale, hb, List.filter_cons_of_pos hb, if_pos rfl,
        List.reduceOption_cons_of_some, ih]

end Inbound

open Inbound

/-! ### An iteration -/

variable {parse : Buf → Bool} {batch : List Buf}

/-- The accepted packets that stand in a slot nothing is moved to. -/
def leftBehind (parse : Buf → Bool) (batch : List Buf) : List Buf :=
  (batch.drop (batch.filter parse).length).filter parse

/-- **What an iteration does**: the packets that are left behind are put back a second time. -/
theorem inboundIteration_eq (parse : Buf → Bool) (batch : List Buf) :
    ∃ s, inboundIteration parse batch = some ((batch.filter parse).map some, s) ∧
      s.released = (batch.filter fun b => !parse b) ++
        (batch.filter parse ++ leftBehind parse batch) := by
  have hparsed : loop (parseSlot parse) batch.length 0 ⟨batch.map some, 0, []⟩ =
      some (parsing parse batch []) := loop_parseSlot parse batch []
  have hreleased := loop_releaseSlot (parsing parse batch []).newLen
    (parsing parse batch []).packetsBatch [] (parsing parse batch []).released
  have hwritten : (parsing parse batch []).packetsBatch.take (parsing parse batch []).newLen =
      (batch.filter parse).map some :=
    List.take_left' (List.length_map ..)
  have hslots : (parsing parse batch []).packetsBatch.reduceOption =
      batch.filter parse ++ leftBehind parse batch := by
    have hfront : ((batch.filter parse).map some).reduceOption = batch.filter parse := by
      simp [List.reduceOption]
    rw [parsing, List.map_nil, List.append_nil, List.reduceOption_append, hfront, ← List.map_drop,
      reduceOption_map_stale, leftBehind]
  refine ⟨⟨List.replicate (parsing parse batch []).packetsBatch.length none,
    (parsing parse batch []).newLen, (parsing parse batch []).released ++
      (parsing parse batch []).packetsBatch.reduceOption⟩, ?_, ?_⟩
  · rw [inboundIteration, hparsed]
    simp only [Option.bind_eq_bind, Option.bind_some]
    rw [hwritten]
    exact congrArg (Option.bind · _) hreleased
  · rw [← hslots, parsing]

/-- No packet is left behind exactly if the accepted ones are a front part of the batch. -/
lemma leftBehind_eq_nil_iff (parse : Buf → Bool) (batch : List Buf) :
    leftBehind parse batch = [] ↔ ∀ b ∈ batch.dropWhile parse, parse b = false := by
  induction batch with
  | nil => simp [leftBehind]
  | cons b l ih =>
    rcases hb : parse b with _ | _
    · rw [List.dropWhile_cons_of_neg (by simp [hb]), List.forall_mem_cons, leftBehind,
        List.filter_cons_of_neg (by simp [hb])]
      rcases hk : (l.filter parse).length with _ | k
      · -- Nothing is accepted.
        simp [hb]
      · -- The slots in front of those that are left hold one packet less than are accepted.
        refine iff_of_false (fun hnil => ?_) (fun hall => ?_)
        · have hsplit := congrArg List.length (congrArg (List.filter parse)
            (List.take_append_drop k l))
          rw [List.drop_succ_cons] at hnil
          rw [List.filter_append, hnil, List.append_nil, hk] at hsplit
          have htake := List.length_filter_le parse (l.take k)
          rw [List.length_take] at htake
          omega
        · rw [List.filter_eq_nil_iff.2 (by simpa using hall.2), List.length_nil] at hk
          omega
    · rw [List.dropWhile_cons_of_pos hb, ← ih, leftBehind, leftBehind, List.filter_cons_of_pos hb,
        List.length_cons, List.drop_succ_cons]

/-! ### How often a packet is put back -/

lemma mem_of_mem_leftBehind {b : Buf} (hb : b ∈ leftBehind parse batch) :
    b ∈ batch ∧ parse b = true :=
  ⟨List.mem_of_mem_drop (List.mem_filter.1 hb).1, (List.mem_filter.1 hb).2⟩

/-- The packets are put back, each of them once, and then those left behind once more. -/
lemma perm_released (parse : Buf → Bool) (batch : List Buf) :
    ((batch.filter fun b => !parse b) ++ (batch.filter parse ++ leftBehind parse batch)).Perm
      (batch ++ leftBehind parse batch) := by
  rw [← List.append_assoc]
  refine List.Perm.append_right _ (List.perm_append_comm.trans ?_)
  exact List.filter_append_perm parse batch

lemma Pool.perm_foldl_put (bs : List Buf) : ∀ d : Pool,
    (bs.foldl Pool.put d).free.Perm (bs ++ d.free) := by
  induction bs with
  | nil => exact fun d => List.Perm.refl _
  | cons b bs ih => exact fun d => (ih (d.put b)).trans List.perm_middle

/-- **An iteration puts every packet of its batch back exactly once**, and so no packet is in the
pool twice, exactly for those batches in which no packet that is accepted stands behind one that
is rejected. -/
theorem inboundIteration_once_iff (parse : Buf → Bool) (batch : List Buf) (d : Pool)
    (hbatch : (batch ++ d.free).Nodup) :
    ∃ written s, inboundIteration parse batch = some (written, s) ∧
      (((∀ b ∈ batch, s.released.count b = 1) ∧ written = (batch.filter parse).map some ∧
          (s.released.foldl Pool.put d).free.Nodup) ↔
        ∀ b ∈ batch.dropWhile parse, parse b = false) := by
  obtain ⟨s, hs, hreleased⟩ := inboundIteration_eq parse batch
  have hperm := hreleased ▸ perm_released parse batch
  have hcount : ∀ b ∈ batch, s.released.count b = 1 + (leftBehind parse batch).count b := by
    intro b hb
    rw [hperm.count_eq, List.count_append,
      List.count_eq_one_of_mem (List.nodup_append.1 hbatch).1 hb]
  refine ⟨_, s, hs, ?_⟩
  rw [← leftBehind_eq_nil_iff]
  refine ⟨?_, fun hnil => ⟨fun b hb => ?_, rfl, ?_⟩⟩
  · rintro ⟨honce, _, _⟩
    refine List.eq_nil_iff_forall_not_mem.2 fun b hb => ?_
    have hmem := (mem_of_mem_leftBehind hb).1
    have hone := honce b hmem
    rw [hcount b hmem] at hone
    have := List.count_pos_iff.2 hb
    omega
  · rw [hcount b hb, hnil, List.count_nil]
  · rw [hnil, List.append_nil] at hperm
    exact ((Pool.perm_foldl_put _ d).trans (hperm.append_right _)).nodup_iff.2 hbatch

/-- A packet that is rejected, and then one that is accepted. -/
theorem badFirst_released_twice : ∃ s,
    inboundIteration (· == 1) [0, 1] = some ([some 1], s) ∧ s.released = [0, 1, 1] ∧
      (s.released.foldl Pool.put Pool.empty).free = [1, 1, 0] :=
  ⟨⟨[none, none], 1, [0, 1, 1]⟩, rfl, rfl, rfl⟩

theorem badLast_released_once : ∃ written s,
    inboundIteration (· == 0) [0, 1] = some (written, s) ∧
      (∀ b ∈ [0, 1], s.released.count b = 1) ∧ written = [some 0] ∧
      (s.released.foldl Pool.put Pool.empty).free.Nodup := by
  obtain ⟨written, s, hs, h⟩ :=
    inboundIteration_once_iff (· == 0) [0, 1] Pool.empty (by decide)
  exact ⟨written, s, hs, h.2 (by decide)⟩

end Awl
