import Awl.Dns
import Awl.EventBus
import Awl.TunnelRefresh

/-!
What the tunnel and the DNS resolver know of the configuration when everything has come to rest.

The threads are those of `Awl.EventBus`, now with what they do to the configuration, and `Init`,
which refreshes both for the first time and subscribes them. A refresh reads the configuration
under its lock; the tunnel is rebuilt before the lock is given back, the resolver after that. An
event that is emitted when nobody has subscribed is lost.
-/

namespace Awl

open Guarded

/-- Who has read the configuration: `Init`, or the callback of a subscriber. -/
inductive Holder
  | init
  | callback (i : Subscriber)
  deriving DecidableEq

inductive RefreshAction (S : Type)
  | bus (a : BusAction)
  | change (f : S → S)
  | subscribe (i : Subscriber)
  | load (h : Holder)
  | publish (h : Holder) (i : Subscriber)

/-- The configuration with its lock and the queues of the subscribers, what the refreshes under
way have read, and what those that are done have. -/
structure Watched (S : Type) where
  bus : Bus
  subscribed : Subscriber → Bool
  conf : S
  loaded : Holder → S
  seen : Subscriber → List S

/-- The actions, with queues of capacity `c`. -/
def refreshActions (S : Type) (c : ℕ) : Actions (Watched S) (RefreshAction S) where
  enabled s
    | .bus (.send i) => s.subscribed i = false ∨ (busActions c).enabled s.bus (.send i)
    | .bus a => (busActions c).enabled s.bus a
    | _ => True
  apply s
    | .bus (.send i) =>
      if s.subscribed i then { s with bus := (busActions c).apply s.bus (.send i) } else s
    | .bus a => { s with bus := (busActions c).apply s.bus a }
    | .change f => { s with conf := f s.conf }
    | .subscribe i => { s with subscribed := Function.update s.subscribed i true }
    | .load h => { s with loaded := Function.update s.loaded h s.conf }
    | .publish h i => { s with seen := Function.update s.seen i (s.seen i ++ [s.loaded h]) }
  dec s
    | .bus (.send i) => inferInstanceAs
        (Decidable (s.subscribed i = false ∨ (busActions c).enabled s.bus (.send i)))
    | .bus .rLock => inferInstanceAs (Decidable ((busActions c).enabled s.bus .rLock))
    | .bus .rUnlock => inferInstanceAs (Decidable ((busActions c).enabled s.bus .rUnlock))
    | .bus .announce => inferInstanceAs (Decidable ((busActions c).enabled s.bus .announce))
    | .bus .acquire => inferInstanceAs (Decidable ((busActions c).enabled s.bus .acquire))
    | .bus .unlock => inferInstanceAs (Decidable ((busActions c).enabled s.bus .unlock))
    | .bus (.recv i) => inferInstanceAs (Decidable ((busActions c).enabled s.bus (.recv i)))
    | .change _ | .subscribe _ | .load _ | .publish _ _ => inferInstanceAs (Decidable True)

section

variable {S : Type}

/-- `RefreshPeersList` and `refreshDNSConfig`. -/
def refreshSteps (h : Holder) : Subscriber → List (RefreshAction S)
  | .tunnel => [.bus .rLock, .load h, .publish h .tunnel, .bus .rUnlock]
  | .dns => [.bus .rLock, .load h, .bus .rUnlock, .publish h .dns]

/-- The loop of `WrapSubscriptionToCallback`. -/
def refreshLoop (i : Subscriber) : List (RefreshAction S) :=
  .bus (.recv i) :: refreshSteps (.callback i) i

/-- `Init`: `NewTunnel`, the subscription of the tunnel, and `initDNS` with its deferred call. -/
def initPath : List (RefreshAction S) :=
  refreshSteps .init .tunnel ++ [.subscribe .tunnel] ++ refreshSteps .init .dns ++
    [.subscribe .dns] ++ refreshSteps .init .dns

/-- What an operation does that changes the configuration by `f`. -/
def BusOp.changes (op : BusOp) (f : S → S) : List (RefreshAction S) :=
  op.path.flatMap fun a =>
    if a = .acquire ∧ op.emits = true then [.bus .acquire, .change f] else [.bus a]

abbrev RefreshPool (S : Type) (n : ℕ) :=
  Guarded.Pool (Watched S) (RefreshAction S) (Fin n ⊕ Subscriber ⊕ Unit)

variable {n : ℕ}

/-- Nothing has started. -/
def RefreshPool.start (ops : Fin n → BusOp) (f : Fin n → S → S) (conf : S) : RefreshPool S n where
  shared := ⟨⟨false, 0, fun _ => 0⟩, fun _ => false, conf, fun _ => conf, fun _ => []⟩
  threads
    | .inl j => ⟨(ops j).changes (f j), []⟩
    | .inr (.inl i) => ⟨refreshLoop i, refreshLoop i⟩
    | .inr (.inr ()) => ⟨initPath, []⟩

/-- Nothing has happened since `Init` has returned. -/
def RefreshPool.started (c : ℕ) (ops : Fin n → BusOp) (f : Fin n → S → S) (conf : S) :
    RefreshPool S n :=
  (List.replicate (initPath (S := S)).length (.inr (.inr ()))).foldl
    (Guarded.Pool.turn (refreshActions S c)) (RefreshPool.start ops f conf)

/-- The operations are done, and the subscribers wait for an event. -/
structure RefreshPool.AtRest (σ : RefreshPool S n) : Prop where
  ops : ∀ j, (σ.threads (.inl j)).rest = []
  idle : ∀ i, (σ.threads (.inr (.inl i))).rest = refreshLoop i
  empty : ∀ i, σ.shared.bus.queue i = 0

/-! ### Where the threads are -/

/-- What an operation has yet to do: where it changes the configuration, it tells both
subscribers after that. -/
def Announced : List (RefreshAction S) → Prop
  | [] => True
  | .change _ :: l => (∀ i, .bus (.send i) ∈ l) ∧ Announced l
  | .bus a :: l => (∀ i, a ≠ .recv i) ∧ Announced l
  | _ => False

lemma Subscriber.forall_iff {P : Subscriber → Prop} : (∀ i, P i) ↔ P .tunnel ∧ P .dns :=
  ⟨fun h => ⟨h .tunnel, h .dns⟩, fun h i => by cases i; exacts [h.1, h.2]⟩

lemma announced_changes (op : BusOp) (f : S → S) : Announced (op.changes f) := by
  cases op with
  | upsertPeer =>
    simp [BusOp.changes, BusOp.path, BusOp.emits, emit, Announced, Subscriber.forall_iff]
  | removePeer exist =>
    cases exist <;>
      simp [BusOp.changes, BusOp.path, BusOp.emits, emit, Announced, Subscriber.forall_iff]
  | updatePeerSettings outcome =>
    cases outcome <;>
      simp [BusOp.changes, BusOp.path, BusOp.emits, readSection, emit, Announced,
        Subscriber.forall_iff]

/-- The callback has an event and will read the configuration. -/
def Due (i : Subscriber) (l : List (RefreshAction S)) : Prop :=
  .load (.callback i) ∈ l ∧ .bus (.recv i) ∉ l

/-- It has read the configuration and has yet to use it. -/
def Unused (i : Subscriber) (l : List (RefreshAction S)) : Prop :=
  .publish (.callback i) i ∈ l ∧ .load (.callback i) ∉ l

/-- A callback runs through its loop. -/
def InLoop (i : Subscriber) (t : Thread (RefreshAction S)) : Prop :=
  t.body = refreshLoop i ∧ t.rest <:+ refreshLoop i ∧ t.rest ≠ []

lemma InLoop.next {i : Subscriber} {t : Thread (RefreshAction S)} (h : InLoop i t) :
    InLoop i t.next := by
  obtain ⟨hbody, hrest, -⟩ := h
  unfold Thread.next
  refine ⟨hbody, ?_⟩
  split_ifs with he
  · rw [hbody]
    exact ⟨List.suffix_rfl, by simp [refreshLoop]⟩
  · exact ⟨(List.tail_suffix _).trans hrest, by simpa using he⟩

/-- **One action of a callback**: it takes an event, reads the configuration, uses it, or is
busy with the lock. -/
lemma InLoop.cases {i : Subscriber} {t : Thread (RefreshAction S)} {a : RefreshAction S}
    (h : InLoop i t) (ha : t.rest.head? = some a) :
    (a = .bus (.recv i) ∧ Due i t.next.rest) ∨
    (a = .load (.callback i) ∧ Unused i t.next.rest) ∨
    (a = .publish (.callback i) i ∧ Unused i t.rest ∧ ¬ Unused i t.next.rest) ∨
    ((a = .bus .rLock ∨ a = .bus .rUnlock) ∧ (Due i t.rest → Due i t.next.rest) ∧
      (Unused i t.next.rest ↔ Unused i t.rest)) := by
  obtain ⟨rest, body⟩ := t
  obtain ⟨rfl, hrest, -⟩ := h
  dsimp only at hrest ha
  cases i with
  | tunnel =>
    simp only [refreshLoop, refreshSteps, List.suffix_cons_iff, List.suffix_nil] at hrest
    rcases hrest with rfl | rfl | rfl | rfl | rfl | rfl <;> cases ha <;>
      simp [Thread.next, Due, Unused, refreshLoop, refreshSteps]
  | dns =>
    simp only [refreshLoop, refreshSteps, List.suffix_cons_iff, List.suffix_nil] at hrest
    rcases hrest with rfl | rfl | rfl | rfl | rfl | rfl <;> cases ha <;>
      simp [Thread.next, Due, Unused, refreshLoop, refreshSteps]

namespace RefreshPool

/-- A refresh of `i` is still to come that reads the configuration after now. -/
def Owed (σ : RefreshPool S n) (i : Subscriber) : Prop :=
  0 < σ.shared.bus.queue i ∨ (∃ j, .bus (.send i) ∈ (σ.threads (.inl j)).rest) ∨
    Due i (σ.threads (.inr (.inl i))).rest

/-- The last refresh of `i` has the configuration as it is. -/
def UpToDate (σ : RefreshPool S n) (i : Subscriber) : Prop :=
  Unused i (σ.threads (.inr (.inl i))).rest ∧ σ.shared.loaded (.callback i) = σ.shared.conf ∨
    ¬ Unused i (σ.threads (.inr (.inl i))).rest ∧
      (σ.shared.seen i).getLast? = some σ.shared.conf

/-- **What holds once `Init` has returned**: whatever a subscriber has missed, it will be told. -/
structure Kept (σ : RefreshPool S n) : Prop where
  subscribed : ∀ i, σ.shared.subscribed i = true
  init : σ.threads (.inr (.inr ())) = ⟨[], []⟩
  ops : ∀ j, (σ.threads (.inl j)).body = [] ∧ Announced (σ.threads (.inl j)).rest
  loops : ∀ i, InLoop i (σ.threads (.inr (.inl i)))
  told : ∀ i, σ.Owed i ∨ σ.UpToDate i

variable {c : ℕ} {σ : RefreshPool S n}

/-- What matters to a subscriber stays. -/
lemma told_frame {σ' : RefreshPool S n} {i : Subscriber}
    (hbus : σ'.shared.bus.queue i = σ.shared.bus.queue i) (hconf : σ'.shared.conf = σ.shared.conf)
    (hloaded : σ'.shared.loaded (.callback i) = σ.shared.loaded (.callback i))
    (hseen : σ'.shared.seen i = σ.shared.seen i)
    (hthread : σ'.threads (.inr (.inl i)) = σ.threads (.inr (.inl i)))
    (hops : ∀ j, .bus (.send i) ∈ (σ.threads (.inl j)).rest →
      .bus (.send i) ∈ (σ'.threads (.inl j)).rest)
    (h : σ.Owed i ∨ σ.UpToDate i) : σ'.Owed i ∨ σ'.UpToDate i := by
  rw [Owed, UpToDate] at h ⊢
  rw [hbus, hconf, hloaded, hseen, hthread]
  rcases h with (hqueue | ⟨j, hj⟩ | hdue) | hup
  · exact Or.inl (Or.inl hqueue)
  · exact Or.inl (Or.inr (Or.inl ⟨j, hops j hj⟩))
  · exact Or.inl (Or.inr (Or.inr hdue))
  · exact Or.inr hup

lemma queue_apply (c : ℕ) {s : Bus} {a : BusAction} {i : Subscriber} (hs : a ≠ .send i)
    (hr : a ≠ .recv i) : ((busActions c).apply s a).queue i = s.queue i := by
  cases a with
  | send k => exact Function.update_of_ne (fun he => hs (by rw [he])) _ _
  | recv k => exact Function.update_of_ne (fun he => hr (by rw [he])) _ _
  | _ => rfl

/-- With the subscription in place every bus action is one of the bus. -/
lemma apply_bus {s : Watched S} (hs : ∀ i, s.subscribed i = true) (a : BusAction) :
    (refreshActions S c).apply s (.bus a) = { s with bus := (busActions c).apply s.bus a } := by
  cases a with
  | send i => exact if_pos (hs i)
  | _ => rfl

/-- An operation takes an action: the configuration changes and both will be told, or one of
them is told, or nothing that matters to a subscriber changes. -/
lemma Kept.op {j : Fin n} {a : RefreshAction S} (h : σ.Kept)
    (ha : (σ.threads (.inl j)).rest.head? = some a) :
    Kept ⟨(refreshActions S c).apply σ.shared a,
      Function.update σ.threads (.inl j) (σ.threads (.inl j)).next⟩ := by
  obtain ⟨l, hl⟩ := List.head?_eq_some_iff.mp ha
  obtain ⟨hbody, hann⟩ := h.ops j
  have hnext : (σ.threads (.inl j)).next = ⟨l, []⟩ := by
    rw [Thread.next, hl, hbody]
    rcases l with _ | ⟨b, l⟩ <;> rfl
  rw [hnext]
  rw [hl] at hann
  have hops (hl' : Announced l) (k : Fin n) :
      (Function.update σ.threads (.inl j) ⟨l, []⟩ (.inl k)).body = [] ∧
        Announced (Function.update σ.threads (.inl j) ⟨l, []⟩ (.inl k)).rest := by
    by_cases hk : k = j
    · subst hk
      rw [Function.update_self]
      exact ⟨rfl, hl'⟩
    · rw [Function.update_of_ne (by simpa using hk)]
      exact h.ops k
  cases a with
  | change f =>
    obtain ⟨hsends, hl'⟩ := hann
    refine ⟨h.subscribed, h.init, hops hl', h.loops, fun i => ?_⟩
    refine Or.inl (Or.inr (Or.inl ⟨j, ?_⟩))
    dsimp only
    rw [Function.update_self]
    exact hsends i
  | bus b =>
    obtain ⟨hrecv, hl'⟩ := hann
    rw [apply_bus h.subscribed]
    refine ⟨h.subscribed, h.init, hops hl', h.loops, fun i => ?_⟩
    by_cases hb : b = .send i
    · refine Or.inl (Or.inl ?_)
      subst hb
      dsimp only [busActions]
      rw [Function.update_self]
      omega
    · refine told_frame (queue_apply c hb (hrecv i)) rfl rfl rfl rfl (fun k hk => ?_) (h.told i)
      dsimp only
      by_cases hkj : k = j
      · subst hkj
        rw [Function.update_self]
        rw [hl, List.mem_cons] at hk
        exact hk.resolve_left fun he => hb (RefreshAction.bus.inj he).symm
      · rwa [Function.update_of_ne (by simpa using hkj)]
  | subscribe i => exact hann.elim
  | load k => exact hann.elim
  | publish k i => exact hann.elim

/-- A callback takes an action. -/
lemma Kept.callback {k : Subscriber} {a : RefreshAction S} (h : σ.Kept)
    (ha : (σ.threads (.inr (.inl k))).rest.head? = some a) :
    Kept ⟨(refreshActions S c).apply σ.shared a,
      Function.update σ.threads (.inr (.inl k)) (σ.threads (.inr (.inl k))).next⟩ := by
  set t := σ.threads (.inr (.inl k)) with ht
  have hloops (i : Subscriber) :
      InLoop i (Function.update σ.threads (.inr (.inl k)) t.next (.inr (.inl i))) := by
    by_cases hi : i = k
    · subst hi
      rw [Function.update_self]
      exact (h.loops i).next
    · rw [Function.update_of_ne (by simpa using hi)]
      exact h.loops i
  have hops (i : Subscriber) (j : Fin n) (hj : .bus (.send i) ∈ (σ.threads (.inl j)).rest) :
      .bus (.send i) ∈ (Function.update σ.threads (.inr (.inl k)) t.next (.inl j)).rest := by
    rwa [Function.update_of_ne (by simp)]
  have hother {s' : Watched S} (hs : s'.conf = σ.shared.conf) (i : Subscriber) (hi : i ≠ k)
      (hbus : s'.bus.queue i = σ.shared.bus.queue i)
      (hloaded : s'.loaded (.callback i) = σ.shared.loaded (.callback i))
      (hseen : s'.seen i = σ.shared.seen i) :
      Owed ⟨s', Function.update σ.threads (.inr (.inl k)) t.next⟩ i ∨
        UpToDate ⟨s', Function.update σ.threads (.inr (.inl k)) t.next⟩ i :=
    told_frame hbus hs hloaded hseen (Function.update_of_ne (by simpa using hi) _ _) (hops i)
      (h.told i)
  rcases (h.loops k).cases ha with ⟨rfl, hdue⟩ | ⟨rfl, hunused⟩ | ⟨rfl, hunused, hdone⟩ |
    ⟨hlock, hdue, hunused⟩
  · rw [apply_bus h.subscribed]
    refine ⟨h.subscribed, h.init, h.ops, hloops, fun i => ?_⟩
    by_cases hi : i = k
    · subst hi
      refine Or.inl (Or.inr (Or.inr ?_))
      dsimp only
      rwa [Function.update_self]
    · have hsend : BusAction.recv k ≠ .send i := nofun
      have hrecv : BusAction.recv k ≠ .recv i := fun he => hi (BusAction.recv.inj he).symm
      exact hother (by rfl) i hi (queue_apply c hsend hrecv) rfl rfl
  · refine ⟨h.subscribed, h.init, h.ops, hloops, fun i => ?_⟩
    by_cases hi : i = k
    · subst hi
      refine Or.inr (Or.inl ⟨?_, Function.update_self _ _ _⟩)
      dsimp only
      rwa [Function.update_self]
    · exact hother (by rfl) i hi (by rfl) (Function.update_of_ne (by simpa using hi) _ _) rfl
  · refine ⟨h.subscribed, h.init, h.ops, hloops, fun i => ?_⟩
    by_cases hi : i = k
    · subst hi
      rcases h.told i with (hqueue | ⟨j, hj⟩ | hdue) | ⟨-, hload⟩ | ⟨hnot, -⟩
      · exact Or.inl (Or.inl hqueue)
      · exact Or.inl (Or.inr (Or.inl ⟨j, hops i j hj⟩))
      · exact absurd hdue.1 hunused.2
      · refine Or.inr (Or.inr ⟨?_, ?_⟩)
        · dsimp only
          rwa [Function.update_self]
        · dsimp only [refreshActions]
          rw [Function.update_self, List.getLast?_concat, hload]
      · exact absurd hunused hnot
    · exact hother (by rfl) i hi (by rfl) (by rfl) (Function.update_of_ne hi _ _)
  · have hbus : ∃ b, a = .bus b ∧ ∀ i, b ≠ .send i ∧ b ≠ .recv i := by
      rcases hlock with rfl | rfl
      · exact ⟨_, rfl, by simp⟩
      · exact ⟨_, rfl, by simp⟩
    obtain ⟨b, rfl, hb⟩ := hbus
    rw [apply_bus h.subscribed]
    refine ⟨h.subscribed, h.init, h.ops, hloops, fun i => ?_⟩
    by_cases hi : i = k
    · subst hi
      rw [Owed, UpToDate]
      dsimp only
      rw [queue_apply c (hb i).1 (hb i).2, Function.update_self, hunused]
      rcases h.told i with (hqueue | ⟨j, hj⟩ | hd) | hup
      · exact Or.inl (Or.inl hqueue)
      · exact Or.inl (Or.inr (Or.inl ⟨j, hops i j hj⟩))
      · exact Or.inl (Or.inr (Or.inr (hdue hd)))
      · exact Or.inr hup
    · exact hother (by rfl) i hi (queue_apply c (hb i).1 (hb i).2) rfl rfl

/-- **One action**, whoever takes it. -/
lemma Kept.step {k : Fin n ⊕ Subscriber ⊕ Unit} {a : RefreshAction S} (h : σ.Kept)
    (ha : (σ.threads k).rest.head? = some a) :
    Kept ⟨(refreshActions S c).apply σ.shared a,
      Function.update σ.threads k (σ.threads k).next⟩ := by
  rcases k with j | i | ⟨⟩
  · exact h.op ha
  · exact h.callback ha
  · rw [h.init] at ha
    cases ha

/-- `Init` alone: it has to wait for nobody, and leaves both subscribers up to date. -/
lemma kept_started (ops : Fin n → BusOp) (f : Fin n → S → S) (conf : S) :
    (started c ops f conf).Kept := by
  have hgo : (refreshActions S c).Goes (start ops f conf).shared initPath := by
    simp [start, initPath, refreshSteps, Actions.Goes, refreshActions, busActions]
  rw [started, Guarded.Pool.run_goes (r := []) initPath _ (by simp [start]) hgo]
  refine ⟨fun i => ?_, rfl, fun j => ?_, fun i => ?_, fun i => Or.inr ?_⟩
  · cases i <;> rfl
  · exact ⟨rfl, announced_changes (ops j) (f j)⟩
  · exact ⟨rfl, List.suffix_rfl, by simp [start, refreshLoop]⟩
  · refine Or.inr ⟨?_, ?_⟩
    · cases i <;> simp [start, Unused, refreshLoop, refreshSteps]
    · cases i <;> rfl

/-- **Nothing is missed.** However the operations and the callbacks interleave after `Init`,
when they have come to rest the last refresh of each subscriber has seen the configuration. -/
lemma seen_at_rest {ops : Fin n → BusOp} {f : Fin n → S → S} {conf : S}
    {w : List (Fin n ⊕ Subscriber ⊕ Unit)}
    (hσ : w.foldl (Guarded.Pool.turn (refreshActions S c)) (started c ops f conf) = σ)
    (hrest : σ.AtRest) (i : Subscriber) : (σ.shared.seen i).getLast? = some σ.shared.conf := by
  have hkept : σ.Kept := by
    rw [← hσ]
    exact Guarded.Pool.run_keeps (fun σ k a hk ha _ => hk.step ha) w _ (kept_started ops f conf)
  rcases hkept.told i with (hqueue | ⟨j, hj⟩ | hdue) | ⟨hunused, -⟩ | ⟨-, hseen⟩
  · exact absurd hqueue (by simp [hrest.empty i])
  · rw [hrest.ops j] at hj
    cases hj
  · rw [hrest.idle i] at hdue
    exact absurd List.mem_cons_self hdue.2
  · rw [hrest.idle i] at hunused
    exact absurd hunused.2 (by cases i <;> simp [refreshLoop, refreshSteps])
  · exact hseen

end RefreshPool

end

/-! ### The tunnel and the resolver -/

open NetIP PeerCodec Tunnel Dns

/-- A call of `refreshDNSConfig`: the configuration, the upstream server and the orders. -/
structure DnsRefresh where
  conf : Config
  upstreamDNS : String
  peers : List String
  names : List String
  ranges_peers : GoMap.Ranges conf.knownPeers peers
  ranges_names : GoMap.Ranges (conf.refreshedNames peers) names

def DnsRefresh.resolver (r : DnsRefresh) : ResolverConfig :=
  r.conf.refreshDNSConfig r.upstreamDNS r.peers r.names

variable {ID : Type} [DecidableEq ID] [PeerCodec ID]

section

open BootstrapPeer

def noPeers : Config := BootstrapPeer.conf []

def onePeer : Config := BootstrapPeer.conf [(ita1, "10.66.0.2")]

/-- An operation and then the callbacks. -/
def oneOp : List (Fin 1 ⊕ Subscriber ⊕ Unit) :=
  List.replicate 6 (.inl 0) ++ List.replicate 5 (.inr (.inl .tunnel)) ++
    List.replicate 5 (.inr (.inl .dns))

/-- `UpsertPeer` after `Init`. -/
def afterUpsert : RefreshPool Config 1 :=
  oneOp.foldl (Guarded.Pool.turn (refreshActions Config 16))
    (RefreshPool.started 16 (fun _ => .upsertPeer) (fun _ _ => onePeer) noPeers)

lemma afterUpsert_atRest : afterUpsert.AtRest :=
  ⟨fun j => by rw [Subsingleton.elim j 0]; rfl, fun i => by cases i <;> rfl,
    fun i => by cases i <;> rfl⟩

/-- The tunnel after its first two refreshes. -/
def served : Tunnel BootstrapPeer := (empty noPeers).refreshed onePeer [ita1.text] [ita1]

lemma served_run : (empty noPeers : Tunnel BootstrapPeer).Run
    [⟨noPeers, [], empty noPeers⟩, ⟨onePeer, [ita1.text], served⟩] := by
  have hfirst := refreshed_spec (inv_empty noPeers) noPeers [] [] (by decide) (by decide)
  have hsecond := refreshed_spec (inv_empty noPeers) onePeer [ita1.text] [ita1] (by decide)
    (by decide)
  exact ⟨by decide, hfirst, by decide, hsecond, trivial⟩

lemma namesApart_onePeer : NamesApart onePeer := by
  have honly : ∀ {k kp}, onePeer.knownPeers.lookup k = some kp →
      kp = { peerID := ita1.text, ipAddr := "10.66.0.2" } := by
    intro k kp hk
    rw [onePeer, BootstrapPeer.conf, List.foldl_cons, List.foldl_nil,
      GoMap.lookup_insert_ite] at hk
    split_ifs at hk with he
    · exact (Option.some.inj hk).symm
    · cases hk
  refine ⟨fun k kp k' kp' hk hk' _ _ _ _ _ => by rw [honly hk, honly hk'], ?_⟩
  intro k kp hk x hx he
  rw [honly hk] at hx
  obtain rfl := List.mem_singleton.mp hx
  exact absurd he (by decide)

/-- The calls of `refreshDNSConfig`: two by `Init`, one by the callback. -/
def dnsRefreshes : List DnsRefresh :=
  [⟨noPeers, "", [], [adminHttpServerDomainName], by decide, by decide⟩,
    ⟨noPeers, "", [], [adminHttpServerDomainName], by decide, by decide⟩,
    ⟨onePeer, "", [ita1.text], [ita1.text, adminHttpServerDomainName], by decide, by decide⟩]

/-- `UpsertPeer` while `Init` is under way. -/
def startup (w : List (Fin 1 ⊕ Subscriber ⊕ Unit)) : Watched ℕ :=
  (w.foldl (Guarded.Pool.turn (refreshActions ℕ 16))
    (RefreshPool.start (fun _ => .upsertPeer) (fun _ k => k + 1) 0)).shared

/-- A change between the refresh of `NewTunnel` and the subscription is missed by the tunnel. -/
example :
    let s := startup (List.replicate 4 (.inr (.inr ())) ++ List.replicate 6 (.inl 0) ++
      List.replicate 10 (.inr (.inr ())))
    s.conf = 1 ∧ (∀ i, s.bus.queue i = 0) ∧ s.seen .tunnel = [0] ∧ s.seen .dns = [1, 1] := by
  decide +kernel

/-- The deferred refresh of `initDNS` is not ordered with the callback: what it has read before
a change can be what the resolver gets last. -/
example :
    let s := startup (List.replicate 13 (.inr (.inr ())) ++ oneOp ++ [.inr (.inr ())])
    s.conf = 1 ∧ (∀ i, s.bus.queue i = 0) ∧ s.seen .tunnel = [0, 1] ∧ s.seen .dns = [0, 1, 0] := by
  decide +kernel

end

end Awl
