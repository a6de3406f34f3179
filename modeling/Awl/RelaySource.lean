import Awl.Bootstrap
import Awl.SortFunc
import Mathlib.Data.List.Permutation

/-!
Where a node takes its relays from: a source that hands out the connected bootstrap peers a few at a
time, the nearest first, and starts again when it has run out of them.

The order is that of the differences of two latencies, as an `int`. An `int` of 32 bits has room for
differences of about two seconds.
-/

namespace Awl

/-! ### The source -/

/-- The sizes of an `int`: it is of 32 bits on 386, arm and mips. -/
inductive IntSize
  | bits32
  | bits64
  deriving DecidableEq

namespace IntSize

def bits : IntSize → ℕ
  | bits32 => 32
  | bits64 => 64

/-- The conversion of a duration to an `int`. -/
def ofDuration (size : IntSize) (d : Int64) : ℤ := d.toInt.bmod (2 ^ size.bits)

end IntSize

/-- What the host knows of the peers: whether they are connected, and the average of their
latencies. -/
structure HostView (ID : Type) where
  isConnected : ID → Bool
  latencyEWMA : ID → Int64

/-- The latency of a peer, in nanoseconds. -/
def HostView.latency {ID : Type} (h : HostView ID) (info : AddrInfo ID) : ℤ :=
  (h.latencyEWMA info.id).toInt

namespace RelaySource

variable {ID : Type}

/-- The comparator of the candidates. -/
def latencyCmp (size : IntSize) (h : HostView ID) (a b : AddrInfo ID) : ℤ :=
  size.ofDuration (h.latencyEWMA a.id - h.latencyEWMA b.id)

/-- The bootstrap peers that are not deleted. -/
def candidates (bootstrapPeers : List (AddrInfo ID)) (h : HostView ID) : List (AddrInfo ID) :=
  bootstrapPeers.filter fun info => !(!h.isConnected info.id || h.latencyEWMA info.id == 0)

/-- The parameters of a source: the size of an `int`, the sort of the library, and the bootstrap
peers of the node. -/
structure Params (ID : Type) where
  size : IntSize
  sortFunc : (AddrInfo ID → AddrInfo ID → ℤ) → List (AddrInfo ID) → List (AddrInfo ID)
  bootstrapPeers : List (AddrInfo ID)

variable (p : Params ID)

/-- `getAllCandidates`; the host is not there before the node is started. -/
def getAllCandidates : Option (HostView ID) → List (AddrInfo ID)
  | none => p.bootstrapPeers
  | some h => p.sortFunc (latencyCmp p.size h) (candidates p.bootstrapPeers h)

def refill (lastAddrInfos : List (AddrInfo ID)) (host : Option (HostView ID)) :
    List (AddrInfo ID) :=
  if lastAddrInfos.length = 0 then getAllCandidates p host else lastAddrInfos

/-- A call of the function that `getAutoRelayPeerSource` returns: the peers that it sends, and those
that are left. It is `none` if it panics, with a negative capacity or an index out of range. -/
def peerSource (lastAddrInfos : List (AddrInfo ID)) (host : Option (HostView ID)) (numPeers : ℤ) :
    Option (List (AddrInfo ID) × List (AddrInfo ID)) :=
  let lastAddrInfos := refill p lastAddrInfos host
  let numPeers := if (lastAddrInfos.length : ℤ) < numPeers then ↑lastAddrInfos.length else numPeers
  if numPeers < 0 then none
  else do
    let sent ← (List.range numPeers.toNat).mapM fun i => lastAddrInfos[i]?
    if lastAddrInfos.length < numPeers.toNat then none
    else some (sent, lastAddrInfos.drop numPeers.toNat)

/-! ### Sequences of calls -/

/-- The calls from one refill to the next, with what they asked for and were sent. -/
structure Round (ID : Type) where
  host : Option (HostView ID)
  calls : List (ℕ × List (AddrInfo ID))

namespace Round

def sent (r : Round ID) : List (AddrInfo ID) := r.calls.flatMap Prod.snd

/-- No call was sent more than it asked for. -/
def Bounded (r : Round ID) : Prop := ∀ c ∈ r.calls, c.2.length ≤ c.1

def add (r : Round ID) (numPeers : ℕ) (sent : List (AddrInfo ID)) : Round ID :=
  { r with calls := r.calls ++ [(numPeers, sent)] }

end Round

/-- The source, and the rounds so far, the last one first. -/
structure Source (ID : Type) where
  lastAddrInfos : List (AddrInfo ID) := []
  rounds : List (Round ID) := []

/-- A call: what the host knows at the time, and the number of peers that are asked for. -/
abbrev Call (ID : Type) := Option (HostView ID) × ℕ

def Source.call (s : Source ID) (c : Call ID) : Option (Source ID) :=
  (peerSource p s.lastAddrInfos c.1 c.2).map fun out =>
    { lastAddrInfos := out.2
      rounds :=
        if s.lastAddrInfos.length = 0 then Round.add ⟨c.1, []⟩ c.2 out.1 :: s.rounds
        else s.rounds.modifyHead fun r => r.add c.2 out.1 }

def run (calls : List (Call ID)) : Option (Source ID) := calls.foldlM (Source.call p) {}

/-- The list is what a refill has to offer: the candidates, in the order of their latencies. -/
def Offers (bootstrapPeers : List (AddrInfo ID)) :
    Option (HostView ID) → List (AddrInfo ID) → Prop
  | none, l => l = bootstrapPeers
  | some h, l => l.Perm (candidates bootstrapPeers h) ∧
      l.Pairwise fun a b => h.latency a ≤ h.latency b

/-- **Nearest first, and without loss.** -/
structure NearestFirst (bootstrapPeers : List (AddrInfo ID)) (s : Source ID) : Prop where
  bounded : ∀ r ∈ s.rounds, r.Bounded
  /-- A round that is over has handed out everything. -/
  earlier : ∀ r ∈ s.rounds.tail, Offers bootstrapPeers r.host r.sent
  /-- The others are still to be handed out. -/
  current : ∀ r ∈ s.rounds.head?, Offers bootstrapPeers r.host (r.sent ++ s.lastAddrInfos)

/-! ### One call -/

variable {p}

lemma mapM_range_getElem? {α : Type} {l : List α} :
    ∀ {n : ℕ}, n ≤ l.length → (List.range n).mapM (fun i => l[i]?) = some (l.take n) := by
  intro n
  induction n with
  | zero => intro _; rfl
  | succ n ih =>
    intro hn
    have hlt : n < l.length := hn
    obtain ⟨x, hx⟩ : ∃ x, l[n]? = some x := ⟨_, List.getElem?_eq_getElem hlt⟩
    rw [List.range_succ, List.mapM_append, ih hlt.le, List.take_add_one, hx]
    simp [hx]

/-- **A call** never panics: it splits the peers that are left. -/
lemma peerSource_eq (last : List (AddrInfo ID)) (host : Option (HostView ID)) (n : ℕ) :
    peerSource p last host n =
      some ((refill p last host).take n, (refill p last host).drop n) := by
  rw [peerSource]
  rcases lt_or_ge (refill p last host).length n with hn | hn
  · rw [List.take_of_length_le hn.le, List.drop_of_length_le hn.le]
    simp [hn, mapM_range_getElem? le_rfl]
  · have hnot : ¬ ((refill p last host).length : ℤ) < n := by omega
    simp [hnot, hn, mapM_range_getElem? hn]

/-- What one call does to the source. -/
lemma call_cases (s : Source ID) (c : Call ID) :
    (s.lastAddrInfos = [] ∧ s.call p c = some
      { lastAddrInfos := (getAllCandidates p c.1).drop c.2
        rounds := Round.add ⟨c.1, []⟩ c.2 ((getAllCandidates p c.1).take c.2) :: s.rounds }) ∨
    (s.lastAddrInfos ≠ [] ∧ s.call p c = some
      { lastAddrInfos := s.lastAddrInfos.drop c.2
        rounds := s.rounds.modifyHead fun r => r.add c.2 (s.lastAddrInfos.take c.2) }) := by
  rw [Source.call, peerSource_eq]
  by_cases hempty : s.lastAddrInfos = []
  · exact Or.inl ⟨hempty, by simp [refill, hempty]⟩
  · exact Or.inr ⟨hempty, by simp [refill, hempty]⟩

namespace Round

lemma bounded_nil (host : Option (HostView ID)) : (⟨host, []⟩ : Round ID).Bounded := by
  simp [Bounded]

lemma bounded_add {r : Round ID} {n : ℕ} {l : List (AddrInfo ID)} :
    (r.add n (l.take n)).Bounded ↔ r.Bounded := by
  simp only [Bounded, add, List.forall_mem_append, List.forall_mem_singleton]
  exact and_iff_left (List.length_take_le n l)

/-- What is sent goes from the front of the list to the end of the round. -/
lemma sent_add (r : Round ID) (n : ℕ) (l : List (AddrInfo ID)) :
    (r.add n (l.take n)).sent ++ l.drop n = r.sent ++ l := by
  simp [sent, add]

end Round

variable {bootstrapPeers : List (AddrInfo ID)}

lemma nearestFirst_nil (last : List (AddrInfo ID)) : NearestFirst bootstrapPeers ⟨last, []⟩ :=
  ⟨by simp, by simp, by simp⟩

lemma nearestFirst_cons {last : List (AddrInfo ID)} {r : Round ID} {rs : List (Round ID)} :
    NearestFirst bootstrapPeers ⟨last, r :: rs⟩ ↔
      (r.Bounded ∧ ∀ r' ∈ rs, r'.Bounded) ∧
        (∀ r' ∈ rs, Offers bootstrapPeers r'.host r'.sent) ∧
          Offers bootstrapPeers r.host (r.sent ++ last) := by
  rw [← List.forall_mem_cons]
  constructor
  · exact fun h => ⟨h.bounded, h.earlier, h.current r rfl⟩
  · exact fun h => ⟨h.1, h.2.1, by simpa using h.2.2⟩

/-- **What a call changes**: the order stays as it is, unless the call refills. -/
lemma nearestFirst_call_iff {s s' : Source ID} {c : Call ID} (h : s.call p c = some s') :
    NearestFirst bootstrapPeers s' ↔ NearestFirst bootstrapPeers s ∧
      (s.lastAddrInfos = [] → Offers bootstrapPeers c.1 (getAllCandidates p c.1)) := by
  rcases call_cases (p := p) s c with ⟨hempty, hcall⟩ | ⟨hne, hcall⟩
  · rw [hcall, Option.some_inj] at h
    subst h
    obtain ⟨last, rounds⟩ := s
    dsimp only at hempty
    subst hempty
    rw [nearestFirst_cons, Round.bounded_add, Round.sent_add]
    rcases rounds with _ | ⟨r, rs⟩
    · simp [nearestFirst_nil, Round.bounded_nil, Round.sent, Round.add]
    · -- the round before is over
      simp only [nearestFirst_cons, List.forall_mem_cons, List.append_nil]
      simp only [Round.bounded_nil, Round.sent, Round.add, List.flatMap_nil, List.nil_append,
        true_and, forall_const]
      constructor
      · rintro ⟨hbounded, ⟨hover, hovers⟩, hrefill⟩
        exact ⟨⟨hbounded, hovers, hover⟩, hrefill⟩
      · rintro ⟨⟨hbounded, hovers, hover⟩, hrefill⟩
        exact ⟨hbounded, ⟨hover, hovers⟩, hrefill⟩
  · rw [hcall, Option.some_inj] at h
    subst h
    obtain ⟨last, rounds⟩ := s
    rcases rounds with _ | ⟨r, rs⟩
    · simp [nearestFirst_nil, hne]
    · rw [List.modifyHead_cons, nearestFirst_cons, nearestFirst_cons, Round.bounded_add,
        Round.sent_add]
      simp [hne, Round.add]

/-! ### The refills -/

/-- The number of peers that a refill has to offer. -/
def candidateCount (bootstrapPeers : List (AddrInfo ID)) : Option (HostView ID) → ℕ
  | none => bootstrapPeers.length
  | some h => (candidates bootstrapPeers h).length

/-- The number of peers that are left after a call, of those that were left before. -/
def leftAfter (bootstrapPeers : List (AddrInfo ID)) (left : ℕ) (c : Call ID) : ℕ :=
  (if left = 0 then candidateCount bootstrapPeers c.1 else left) - c.2

/-- One of the calls refills the source, with what the host knows then. -/
def Refills (bootstrapPeers : List (AddrInfo ID)) (calls : List (Call ID)) (h : HostView ID) :
    Prop :=
  ∃ before n, before ++ [(some h, n)] <+: calls ∧ before.foldl (leftAfter bootstrapPeers) 0 = 0

/-- The comparator tells which of two candidates is nearer. -/
def ComparesLatency (size : IntSize) (bootstrapPeers : List (AddrInfo ID)) (h : HostView ID) :
    Prop :=
  ∀ a ∈ candidates bootstrapPeers h, ∀ b ∈ candidates bootstrapPeers h,
    latencyCmp size h a b < 0 ↔ h.latency a < h.latency b

lemma Offers.length_eq {host : Option (HostView ID)} {l : List (AddrInfo ID)}
    (h : Offers bootstrapPeers host l) : l.length = candidateCount bootstrapPeers host := by
  cases host with
  | none => exact congrArg List.length h
  | some host => exact h.1.length_eq

open SortFunc

/-- A refill is in order if the comparator tells which candidate is nearer. -/
lemma offers_getAllCandidates (hsort : Sorts p.sortFunc) (host : Option (HostView ID))
    (hcmp : ∀ h, host = some h → ComparesLatency p.size p.bootstrapPeers h) :
    Offers p.bootstrapPeers host (getAllCandidates p host) := by
  cases host with
  | none => rfl
  | some h =>
    have hfollows := hcmp h rfl
    obtain ⟨hperm, hordered⟩ := hsort _ _ (strictWeakOn_of_key hfollows)
    refine ⟨hperm, hordered.imp_of_mem fun {a b} ha hb hab => ?_⟩
    rw [hfollows b (hperm.subset hb) a (hperm.subset ha), not_lt] at hab
    exact hab

lemma run_append (p : Params ID) (calls : List (Call ID)) (c : Call ID) :
    run p (calls ++ [c]) = (run p calls).bind fun s => s.call p c := by
  simp [run, List.foldlM_append, Option.bind_eq_bind]

/-- **The run**, as long as the comparator tells which candidate is nearer. -/
lemma run_nearestFirst (hsort : Sorts p.sortFunc) (calls : List (Call ID))
    (hcmp : ∀ h, Refills p.bootstrapPeers calls h → ComparesLatency p.size p.bootstrapPeers h) :
    ∃ s, run p calls = some s ∧ NearestFirst p.bootstrapPeers s ∧
      s.lastAddrInfos.length = calls.foldl (leftAfter p.bootstrapPeers) 0 := by
  induction calls using List.reverseRecOn with
  | nil => exact ⟨{}, rfl, nearestFirst_nil [], rfl⟩
  | append_singleton calls c ih =>
    obtain ⟨s, hrun, hnear, hleft⟩ := ih fun h ⟨before, n, hbefore, hzero⟩ =>
      hcmp h ⟨before, n, hbefore.trans (List.prefix_append _ _), hzero⟩
    have hrefill : s.lastAddrInfos = [] →
        Offers p.bootstrapPeers c.1 (getAllCandidates p c.1) := fun hempty => by
      refine offers_getAllCandidates hsort c.1 fun h hh => hcmp h ⟨calls, c.2, ?_, ?_⟩
      · rw [← hh]
      · rw [← hleft, hempty, List.length_nil]
    rw [run_append, hrun, Option.bind_some, List.foldl_append, ← hleft]
    rcases call_cases (p := p) s c with ⟨hempty, hcall⟩ | ⟨hne, hcall⟩
    · refine ⟨_, hcall, (nearestFirst_call_iff hcall).2 ⟨hnear, hrefill⟩, ?_⟩
      simp [leftAfter, hempty, (hrefill hempty).length_eq]
    · refine ⟨_, hcall, (nearestFirst_call_iff hcall).2 ⟨hnear, hrefill⟩, ?_⟩
      simp [leftAfter, hne]

/-- The difference is cut to 64 bits, and then to those of an `int`. -/
lemma latencyCmp_eq (size : IntSize) (h : HostView ID) (a b : AddrInfo ID) :
    latencyCmp size h a b = ((h.latency a - h.latency b).bmod (2 ^ 64)).bmod (2 ^ size.bits) := by
  rw [latencyCmp, IntSize.ofDuration, Int64.toInt_sub]
  rfl

/-- A comparator that does not tell which candidate is nearer lets a sort return them in the wrong
order. -/
lemma exists_not_offers {size : IntSize} {h : HostView ID}
    (hcmp : ¬ ComparesLatency size bootstrapPeers h) :
    ∃ sortFunc, Sorts sortFunc ∧
      ¬ Offers bootstrapPeers (some h)
        (sortFunc (latencyCmp size h) (candidates bootstrapPeers h)) := by
  by_cases hweak : StrictWeakOn (latencyCmp size h) (candidates bootstrapPeers h)
  · obtain ⟨a, ha, b, hb, hlt, hnot⟩ : ∃ a ∈ candidates bootstrapPeers h,
        ∃ b ∈ candidates bootstrapPeers h,
          h.latency a < h.latency b ∧ ¬ latencyCmp size h a b < 0 := by
      rw [ComparesLatency] at hcmp
      push Not at hcmp
      obtain ⟨a, ha, b, hb, ⟨hneg, hle⟩ | ⟨hnonneg, hlt⟩⟩ := hcmp
      · have hne : h.latency a ≠ h.latency b := fun heq => by
          simp [latencyCmp_eq, heq] at hneg
        exact ⟨b, hb, a, ha, lt_of_le_of_ne hle hne.symm, hweak.asymm a ha b hb hneg⟩
      · exact ⟨a, ha, b, hb, hlt, not_lt.2 hnonneg⟩
    -- where the comparator leaves a choice, the farther peers come first
    obtain ⟨out, hsorted, hties⟩ := exists_isSorted_ties (fun info => - h.latency info) hweak
    obtain ⟨sortFunc, hsort, hout⟩ := exists_sorts_eq fun _ => hsorted
    refine ⟨sortFunc, hsort, fun ⟨hperm, hordered⟩ => ?_⟩
    rw [hout] at hperm hordered
    have hne : a ≠ b := by
      rintro rfl
      exact lt_irrefl _ hlt
    rcases pairwise_or (hties.and hordered) (hperm.symm.subset ha) (hperm.symm.subset hb) hne with
      ⟨hneg | hkey, -⟩ | ⟨-, hle⟩
    · exact hnot hneg
    · omega
    · omega
  · have hnil : StrictWeakOn (latencyCmp size h) (candidates bootstrapPeers h) →
        IsSorted (latencyCmp size h) (candidates bootstrapPeers h) [] := fun h => absurd h hweak
    obtain ⟨sortFunc, hsort, hout⟩ := exists_sorts_eq hnil
    refine ⟨sortFunc, hsort, fun hoffers => hweak ?_⟩
    have hperm := hoffers.1
    rw [hout, List.nil_perm] at hperm
    rw [hperm]
    exact ⟨by simp, by simp⟩

/-- **Nearest first, and without loss**: whatever the sort, the candidates of every refill are
handed out in the order of their latencies exactly if the comparator follows the latencies of the
candidates at every refill. -/
theorem relays_nearestFirst_iff (size : IntSize) (bootstrapPeers : List (AddrInfo ID))
    (calls : List (Call ID)) :
    (∀ sortFunc, Sorts sortFunc → ∃ s, run ⟨size, sortFunc, bootstrapPeers⟩ calls = some s ∧
        NearestFirst bootstrapPeers s) ↔
      ∀ h, Refills bootstrapPeers calls h → ComparesLatency size bootstrapPeers h := by
  constructor
  · induction calls using List.reverseRecOn with
    | nil =>
      rintro - h ⟨before, n, hbefore, -⟩
      simp at hbefore
    | append_singleton calls c ih =>
      intro hall
      -- the calls before the last one
      have hbefore : ∀ h, Refills bootstrapPeers calls h →
          ComparesLatency size bootstrapPeers h := by
        refine ih fun sortFunc hsort => ?_
        obtain ⟨s', hrun, hnear⟩ := hall sortFunc hsort
        rw [run_append, Option.bind_eq_some_iff] at hrun
        obtain ⟨s, hrun, hcall⟩ := hrun
        exact ⟨s, hrun, ((nearestFirst_call_iff hcall).1 hnear).1⟩
      rintro h ⟨before, n, hpre, hzero⟩
      rw [List.prefix_concat_iff] at hpre
      rcases hpre with heq | hpre
      · obtain ⟨rfl, hc⟩ := List.append_inj' heq rfl
        cases hc
        by_contra hcmp
        obtain ⟨sortFunc, hsort, hwrong⟩ := exists_not_offers hcmp
        obtain ⟨s', hrun, hnear⟩ := hall sortFunc hsort
        obtain ⟨s, hrun₀, -, hleft⟩ :=
          run_nearestFirst (p := ⟨size, sortFunc, bootstrapPeers⟩) hsort before hbefore
        rw [run_append, hrun₀, Option.bind_some] at hrun
        have hempty : s.lastAddrInfos = [] := List.length_eq_zero_iff.1 (hleft.trans hzero)
        exact hwrong (((nearestFirst_call_iff hrun).1 hnear).2 hempty)
      · exact hbefore h ⟨before, n, hpre, hzero⟩
  · intro hcmp sortFunc hsort
    obtain ⟨s, hrun, hnear, -⟩ :=
      run_nearestFirst (p := ⟨size, sortFunc, bootstrapPeers⟩) hsort calls hcmp
    exact ⟨s, hrun, hnear⟩

/-- Latencies that are not too far apart, for an `int` of this size. -/
lemma comparesLatency_of_close {size : IntSize} {h : HostView ID}
    (hclose : ∀ a ∈ candidates bootstrapPeers h, ∀ b ∈ candidates bootstrapPeers h,
      h.latency a - h.latency b < 2 ^ (size.bits - 1)) :
    ComparesLatency size bootstrapPeers h := by
  intro a ha b hb
  have hab := hclose a ha b hb
  have hba := hclose b hb a ha
  have hwide : (2 : ℤ) ^ (size.bits - 1) ≤ 2 ^ 63 := by cases size <;> decide
  have h64 : (h.latency a - h.latency b).bmod (2 ^ 64) = h.latency a - h.latency b :=
    Int.bmod_eq_of_le (by omega) (by omega)
  have hsize : (h.latency a - h.latency b).bmod (2 ^ size.bits) = h.latency a - h.latency b := by
    cases size <;> simp only [IntSize.bits] at hab hba ⊢ <;>
      exact Int.bmod_eq_of_le (by omega) (by omega)
  rw [latencyCmp_eq, h64, hsize, sub_neg]

/-- On 64 bits the order is right, since no latency is negative. -/
theorem comparesLatency_bits64 {h : HostView ID}
    (hnonneg : ∀ a ∈ candidates bootstrapPeers h, 0 ≤ h.latency a) :
    ComparesLatency .bits64 bootstrapPeers h := by
  refine comparesLatency_of_close fun a ha b hb => ?_
  have hlt : h.latency a < 2 ^ 63 := Int64.toInt_lt (h.latencyEWMA a.id)
  have hb := hnonneg b hb
  exact (Int.sub_le_self _ hb).trans_lt hlt

/-- Two bootstrap peers, at a distance of one second and of four. -/
def farPeers : List (AddrInfo BootstrapPeer) := [⟨.ita1, []⟩, ⟨.rus2, []⟩]

def farView : HostView BootstrapPeer where
  isConnected _ := true
  latencyEWMA
    | .ita1 => 1000000000
    | _ => 4000000000

/-- On 32 bits the one at a distance of four seconds is handed out first. -/
theorem farther_first :
    farView.latency ⟨.ita1, []⟩ = 1000000000 ∧ farView.latency ⟨.rus2, []⟩ = 4000000000 ∧
      ∀ sortFunc, Sorts sortFunc →
        run ⟨.bits32, sortFunc, farPeers⟩ [(some farView, 2)] =
          some ⟨[], [⟨some farView, [(2, [⟨.rus2, []⟩, ⟨.ita1, []⟩])]⟩]⟩ := by
  refine ⟨rfl, rfl, fun sortFunc hsort => ?_⟩
  have hcandidates : candidates farPeers farView = farPeers := by decide
  have hcmp : ∀ a ∈ farPeers, ∀ b ∈ farPeers,
      latencyCmp .bits32 farView a b < 0 ↔ - farView.latency a < - farView.latency b := by
    decide
  have hsorted : IsSorted (latencyCmp .bits32 farView) farPeers
      (sortFunc (latencyCmp .bits32 farView) farPeers) :=
    hsort _ _ (strictWeakOn_of_key hcmp)
  have hout : sortFunc (latencyCmp .bits32 farView) farPeers = [⟨.rus2, []⟩, ⟨.ita1, []⟩] := by
    rcases List.perm_pair.1 hsorted.perm with hout | hout
    · have hordered := hsorted.ordered
      rw [hout] at hordered
      exact absurd hordered (by decide)
    · exact hout
  have hall : getAllCandidates ⟨.bits32, sortFunc, farPeers⟩ (some farView) =
      [⟨.rus2, []⟩, ⟨.ita1, []⟩] := by
    simp only [getAllCandidates, hcandidates, hout]
  rcases call_cases (p := ⟨.bits32, sortFunc, farPeers⟩) {} (some farView, 2) with
    ⟨-, hcall⟩ | ⟨hne, -⟩
  · rw [run, List.foldlM_cons, hcall, hall]
    rfl
  · exact absurd rfl hne

end RelaySource

end Awl
