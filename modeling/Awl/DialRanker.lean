import Awl.RelaySource

/-!
The order in which the addresses of a peer are dialled: that of libp2p, except that the addresses
through a relay wait for half a second more unless they are through the nearest relay.

The nearest relay is looked for among the addresses themselves, in one pass that reads the latency
of a relay each time it comes across it; a relay that was not measured has the latency zero.
-/

namespace Awl

/-- `network.AddrDelay`; the delay is in nanoseconds. -/
structure AddrDelay (ID : Type) where
  addr : Multiaddr ID
  delay : Int64
  deriving DecidableEq

namespace DialRanker

variable {ID : Type}

/-! ### The ranker -/

/-- `500 * time.Millisecond`. -/
def penalty : Int64 := 500 * 1000000

/-- The name of `multiaddr.P_CIRCUIT`. -/
def circuit : List UInt8 := "p2p-circuit".toUTF8.toList

def isCircuit : Component ID → Bool
  | .p2p _ => false
  | .other protocol _ => protocol == circuit

/-- The ID of a component; it was decoded when the address was parsed. -/
def idOf : Component ID → Option ID
  | .p2p id => some id
  | .other _ _ => none

/-- The relay of an address, if both loops do not `continue`: the first peer that a relayed address
names. -/
def relayOf (m : Multiaddr ID) : Option ID := if m.any isCircuit then m.findSome? idOf else none

/-- The relay that is the closest so far, with its latency; `none` without `hasClosestRelay`. -/
abbrev Closest (ID : Type) := Option (ID × Int64)

/-- A latency is read for a relay. -/
def readLatency (closest : Closest ID) (relay : ID) (latency : Int64) : Closest ID :=
  if latency ≠ 0 ∧ (closest = none ∨ ∃ c ∈ closest, latency < c.2) then some (relay, latency)
  else closest

/-- The first loop; `peerstore i` is what the peerstore holds when the `i`-th address is looked
at. -/
def closestRelay (peerstore : ℕ → ID → Int64) (defaultDelays : List (AddrDelay ID)) : Closest ID :=
  defaultDelays.zipIdx.foldl (fun closest addrDelay =>
    match relayOf addrDelay.1.addr with
    | none => closest
    | some relay => readLatency closest relay (peerstore addrDelay.2 relay)) none

variable [DecidableEq ID]

/-- The body of the second loop. -/
def addDelay (closest : Closest ID) (addrDelay : AddrDelay ID) : AddrDelay ID :=
  match relayOf addrDelay.addr with
  | none => addrDelay
  | some relay =>
    if ∃ c ∈ closest, relay ≠ c.1 then { addrDelay with delay := addrDelay.delay + penalty }
    else addrDelay

/-- The function that `getDialRanker` returns. -/
def dialRanker (defaultDialRanker : List (Multiaddr ID) → List (AddrDelay ID))
    (peerstore : ℕ → ID → Int64) (addrs : List (Multiaddr ID)) : List (AddrDelay ID) :=
  let defaultDelays := defaultDialRanker addrs
  defaultDelays.map (addDelay (closestRelay peerstore defaultDelays))

/-! ### The nearest relay -/

section Nearest

omit [DecidableEq ID]

/-- The latencies that are read, with the relays they are of. -/
def latencies (peerstore : ℕ → ID → Int64) (delays : List (AddrDelay ID)) : List (ID × Int64) :=
  delays.zipIdx.filterMap fun addrDelay =>
    (relayOf addrDelay.1.addr).map fun relay => (relay, peerstore addrDelay.2 relay)

/-- `c` is the first of the relays of the smallest latency, among those that were measured. -/
def IsNearest (reads : List (ID × Int64)) (c : ID × Int64) : Prop :=
  ∃ before after, reads = before ++ c :: after ∧ c.2 ≠ 0 ∧
    (∀ r ∈ before, r.2 ≠ 0 → c.2 < r.2) ∧ ∀ r ∈ after, r.2 ≠ 0 → c.2 ≤ r.2

/-- What is known of the relays whose latencies have been read so far. -/
def Found (reads : List (ID × Int64)) : Closest ID → Prop
  | none => ∀ r ∈ reads, r.2 = 0
  | some c => IsNearest reads c

lemma readLatency_none (relay : ID) (latency : Int64) :
    readLatency none relay latency = if latency = 0 then none else some (relay, latency) := by
  by_cases hzero : latency = 0
  · simp [readLatency, hzero]
  · simp [readLatency, hzero]

lemma readLatency_some (c : ID × Int64) (relay : ID) (latency : Int64) :
    readLatency (some c) relay latency =
      if latency ≠ 0 ∧ latency < c.2 then some (relay, latency) else some c := by
  simp [readLatency]

lemma Found.read {reads : List (ID × Int64)} {closest : Closest ID} (h : Found reads closest)
    (r : ID × Int64) : Found (reads ++ [r]) (readLatency closest r.1 r.2) := by
  cases closest with
  | none =>
    rw [readLatency_none]
    split_ifs with hzero
    · intro r' hr'
      rcases List.mem_append.mp hr' with hr' | hr'
      · exact h r' hr'
      · rwa [List.mem_singleton.mp hr']
    · exact ⟨reads, [], rfl, hzero, fun r' hr' hne => absurd (h r' hr') hne, by simp⟩
  | some c =>
    obtain ⟨before, after, rfl, hc, hbefore, hafter⟩ := h
    rw [readLatency_some]
    split_ifs with hclose
    · obtain ⟨hknown, hlt⟩ := hclose
      refine ⟨before ++ c :: after, [], rfl, hknown, fun r' hr' hne => ?_, by simp⟩
      rw [Int64.lt_iff_toInt_lt] at hlt ⊢
      rcases List.mem_append.mp hr' with hr' | hr'
      · exact hlt.trans (Int64.lt_iff_toInt_lt.mp (hbefore r' hr' hne))
      · rcases List.mem_cons.mp hr' with rfl | hr'
        · exact hlt
        · exact hlt.trans_le (Int64.le_iff_toInt_le.mp (hafter r' hr' hne))
    · refine ⟨before, after ++ [r], by simp, hc, hbefore, fun r' hr' hne => ?_⟩
      rcases List.mem_append.mp hr' with hr' | hr'
      · exact hafter r' hr' hne
      · rw [List.mem_singleton.mp hr'] at hne ⊢
        have hnlt : ¬ r.2 < c.2 := fun hlt => hclose ⟨hne, hlt⟩
        rw [Int64.lt_iff_toInt_lt, not_lt] at hnlt
        exact Int64.le_iff_toInt_le.mpr hnlt

lemma found_foldl (reads : List (ID × Int64)) :
    Found reads (reads.foldl (fun closest r => readLatency closest r.1 r.2) none) := by
  induction reads using List.reverseRecOn with
  | nil => exact fun r hr => absurd hr List.not_mem_nil
  | append_singleton reads r ih =>
    rw [List.foldl_append]
    exact ih.read r

/-- The first loop finds the nearest of the relays whose latencies it reads. -/
lemma closestRelay_found (peerstore : ℕ → ID → Int64) (delays : List (AddrDelay ID)) :
    Found (latencies peerstore delays) (closestRelay peerstore delays) := by
  have hloop : closestRelay peerstore delays = (latencies peerstore delays).foldl
      (fun closest r => readLatency closest r.1 r.2) none := by
    rw [latencies, List.foldl_filterMap, closestRelay]
    congr 1
    funext closest addrDelay
    cases relayOf addrDelay.1.addr with
    | none => rfl
    | some relay => rfl
  rw [hloop]
  exact found_foldl _

lemma relayOf_of_mem_latencies {peerstore : ℕ → ID → Int64} {delays : List (AddrDelay ID)}
    {r : ID × Int64} (h : r ∈ latencies peerstore delays) :
    ∃ a ∈ delays, relayOf a.addr = some r.1 := by
  obtain ⟨a, ha, hread⟩ := List.mem_filterMap.mp h
  obtain ⟨relay, hrelay, rfl⟩ := Option.map_eq_some_iff.mp hread
  exact ⟨a.1, List.fst_mem_of_mem_zipIdx ha, hrelay⟩

end Nearest

/-! ### The delays -/

lemma addDelay_none (a : AddrDelay ID) : addDelay none a = a := by
  unfold addDelay
  split <;> simp

lemma addDelay_some (c : ID × Int64) (a : AddrDelay ID) :
    addDelay (some c) a =
      ⟨a.addr, a.delay + if ∃ relay ∈ relayOf a.addr, relay ≠ c.1 then penalty else 0⟩ := by
  unfold addDelay
  cases hrelay : relayOf a.addr with
  | none => simp
  | some relay =>
    by_cases hne : relay = c.1
    · simp [hne]
    · simp [hne]

/-- The addresses keep their order. If no relay of theirs was measured, they keep their delays as
well. Otherwise those through the nearest of the measured relays keep them, of which there is one,
and so do those through no relay; all others wait for half a second more. -/
theorem dialRanker_delays (defaultDialRanker : List (Multiaddr ID) → List (AddrDelay ID))
    (peerstore : ℕ → ID → Int64) (addrs : List (Multiaddr ID)) :
    let before := defaultDialRanker addrs
    let after := dialRanker defaultDialRanker peerstore addrs
    let reads := latencies peerstore before
    ((∀ r ∈ reads, r.2 = 0) ∧ after = before) ∨
      ∃ c, IsNearest reads c ∧ (∃ a ∈ before, a ∈ after ∧ relayOf a.addr = some c.1) ∧
        after = before.map fun a =>
          ⟨a.addr, a.delay + if ∃ relay ∈ relayOf a.addr, relay ≠ c.1 then penalty else 0⟩ := by
  intro before after reads
  have hafter : after = before.map (addDelay (closestRelay peerstore before)) := rfl
  have hfound : Found reads (closestRelay peerstore before) := closestRelay_found peerstore before
  cases hbest : closestRelay peerstore before with
  | none =>
    rw [hbest] at hafter hfound
    refine .inl ⟨hfound, ?_⟩
    rw [hafter]
    exact List.map_id'' addDelay_none before
  | some c =>
    rw [hbest] at hafter hfound
    have hmem : c ∈ reads := by
      obtain ⟨_, _, hreads, -⟩ := hfound
      rw [hreads]
      simp
    obtain ⟨a, ha, hrelay⟩ := relayOf_of_mem_latencies hmem
    refine .inr ⟨c, hfound, ⟨a, ha, ?_, hrelay⟩, ?_⟩
    · rw [hafter]
      refine List.mem_map.mpr ⟨a, ha, ?_⟩
      simp [addDelay_some, hrelay]
    · rw [hafter]
      exact List.map_congr_left fun a _ => addDelay_some c a

end DialRanker

end Awl
