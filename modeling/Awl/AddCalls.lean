import Awl.Addresses
import Awl.Threads

/-!
Calls of `AddPeer`, interleaved at every critical section.

A call makes three checks, each in a critical section of its own, and then removes the peer from
the blocked ones and writes its record.
-/

namespace Awl

open PeerCodec Text AuthStatus

variable {ID : Type} [PeerCodec ID]

/-- The arguments of `AddPeer`. -/
structure AddCall (ID : Type) where
  peerID : ID
  name : String := ""
  peerAlias : String
  confirmed : Bool := false
  ipAddr : String := ""

/-- The critical section that comes next, with what the call has found out before. -/
inductive Stage
  | getPeer
  | isUniq
  | chooseIP
  | createdAt (ipAddr : String)
  | unblock (peer : KnownPeer)
  | upsert (peer : KnownPeer)
  | returned (result : Except AddPeerError Unit)

namespace AddCall

/-- One critical section: the state after it, and the next one. -/
def next (env : Env) (c : AddCall ID) : Stage → Node ID → Node ID × Stage
  | .getPeer, s =>
    (s, if (s.conf.getPeer (string c.peerID)).isSome then .returned (.error .alreadyAdded)
      else .isUniq)
  | .isUniq, s =>
    (s, if !s.conf.isUniqPeerAlias "" (trimSpace c.peerAlias) then
        .returned (.error .aliasNotUnique)
      else .chooseIP)
  | .chooseIP, s =>
    (s, match AuthStatus.chooseIP s.conf (string c.peerID) c.ipAddr with
      | .error e => .returned (.error e)
      | .ok ipAddr => .createdAt ipAddr)
  | .createdAt ipAddr, s =>
    (s, .unblock (newPeer env (string c.peerID) c.name (trimSpace c.peerAlias) ipAddr
      c.confirmed s.now))
  | .unblock peer, s => (s.removeBlockedPeer c.peerID, .upsert peer)
  | .upsert peer, s => (s.upsertPeer peer, .returned (.ok ()))
  | .returned result, s => (s, .returned result)

/-- The turns of a goroutine are the critical sections of the call from the given stage on, at
most `n`, until it returns to `k`. -/
def Follows [DecidableEq ID] (env : Env) (c : AddCall ID)
    (k : Except AddPeerError Unit → Code (Node ID) (Req ID) Resp) :
    ℕ → Stage → Code (Node ID) (Req ID) Resp → Prop
  | _, .returned (.ok ()), code =>
    code = .fork (introduce env c.peerID c.confirmed).code (k (.ok ()))
  | _, .returned (.error e), code => code = k (.error e)
  | 0, _, _ => False
  | n + 1, stage, code => ∃ upd nextCode, code = .act upd nextCode ∧
      ∀ s, upd s = (c.next env stage s).1 ∧ Follows env c k n (c.next env stage s).2 (nextCode s)

/-- **`AddPeer` makes these critical sections**, six of them at most. -/
theorem addPeer_follows [DecidableEq ID] (env : Env) (c : AddCall ID)
    (k : Except AddPeerError Unit → Code (Node ID) (Req ID) Resp) :
    c.Follows env k 6 .getPeer
      (addPeer env c.peerID c.name c.peerAlias c.confirmed c.ipAddr k) := by
  refine ⟨id, _, rfl, fun s => ⟨rfl, ?_⟩⟩
  simp only [Go.ite_apply, next]
  split_ifs
  · rfl
  refine ⟨id, _, rfl, fun s => ⟨rfl, ?_⟩⟩
  simp only [Go.ite_apply, next]
  split_ifs
  · rfl
  refine ⟨id, _, rfl, fun s => ⟨rfl, ?_⟩⟩
  simp only [next]
  rcases AuthStatus.chooseIP s.conf (string c.peerID) c.ipAddr with e | ipAddr
  · rfl
  refine ⟨id, _, rfl, fun s => ⟨rfl, ?_⟩⟩
  refine ⟨_, _, rfl, fun s => ⟨rfl, ?_⟩⟩
  exact ⟨_, _, rfl, fun s => ⟨rfl, rfl⟩⟩

/-- What a call that is not interrupted comes to: an error, or the record it writes. -/
def outcome (env : Env) (c : AddCall ID) (s : Node ID) : Except AddPeerError KnownPeer :=
  if (s.conf.getPeer (string c.peerID)).isSome then .error .alreadyAdded
  else if !s.conf.isUniqPeerAlias "" (trimSpace c.peerAlias) then .error .aliasNotUnique
  else match AuthStatus.chooseIP s.conf (string c.peerID) c.ipAddr with
    | .error e => .error e
    | .ok ipAddr => .ok (newPeer env (string c.peerID) c.name (trimSpace c.peerAlias) ipAddr
        c.confirmed s.now)

/-- The error with which the call returns from the section. -/
def failure (env : Env) (c : AddCall ID) (stage : Stage) (s : Node ID) : Option AddPeerError :=
  match stage, (c.next env stage s).2 with
  | .returned _, _ => none
  | _, .returned (.error e) => some e
  | _, _ => none

/-- If the section is the last of the call, the checks made before would come out the same. -/
def Steady (env : Env) (c : AddCall ID) (stage : Stage) (s : Node ID) : Prop :=
  match stage with
  | .upsert peer => c.outcome env s = .ok peer
  | stage => ∀ e ∈ c.failure env stage s, c.outcome env s = .error e

instance (env : Env) (c : AddCall ID) (s : Node ID) : (stage : Stage) →
    Decidable (c.Steady env stage s)
  | .getPeer => inferInstanceAs (Decidable (∀ e ∈ c.failure env .getPeer s, _))
  | .isUniq => inferInstanceAs (Decidable (∀ e ∈ c.failure env .isUniq s, _))
  | .chooseIP => inferInstanceAs (Decidable (∀ e ∈ c.failure env .chooseIP s, _))
  | .createdAt ipAddr => inferInstanceAs (Decidable (∀ e ∈ c.failure env (.createdAt ipAddr) s, _))
  | .unblock peer => inferInstanceAs (Decidable (∀ e ∈ c.failure env (.unblock peer) s, _))
  | .upsert peer => inferInstanceAs (Decidable (c.outcome env s = .ok peer))
  | .returned r => inferInstanceAs (Decidable (∀ e ∈ c.failure env (.returned r) s, _))

end AddCall

lemma Node.removeBlockedPeer_spec (peerID : ID) (s : Node ID) :
    (s.removeBlockedPeer peerID).conf.knownPeers = s.conf.knownPeers ∧
    (s.removeBlockedPeer peerID).conf.vpnConfig = s.conf.vpnConfig ∧
    (s.removeBlockedPeer peerID).now = s.now ∧
    ∀ k, (s.removeBlockedPeer peerID).conf.blockedPeers.lookup k =
      if k = string peerID then none else s.conf.blockedPeers.lookup k := by
  by_cases hb : (s.conf.getBlockedPeer (string peerID)).isSome = true
  · simp only [Node.removeBlockedPeer, hb, if_true]
    exact ⟨rfl, rfl, rfl, fun k => GoMap.lookup_erase_ite _ _ k⟩
  · have hnone : s.conf.blockedPeers.lookup (string peerID) = none := by
      simpa [Config.getBlockedPeer] using hb
    simp only [Node.removeBlockedPeer, hb, Bool.false_eq_true, if_false]
    refine ⟨trivial, trivial, trivial, fun k => ?_⟩
    split_ifs with he
    · rw [he, hnone]
    · rfl

/-- The calls under way: the state, and the stage of each call. -/
structure Adding (ID : Type) where
  node : Node ID
  stages : ℕ → Stage

namespace Adding

/-- The `i`-th call runs its next critical section. -/
def step (env : Env) (calls : List (AddCall ID)) (σ : Adding ID) (i : ℕ) : Adding ID :=
  match calls[i]? with
  | none => σ
  | some c =>
    { node := (c.next env (σ.stages i) σ.node).1
      stages := Function.update σ.stages i (c.next env (σ.stages i) σ.node).2 }

/-- The calls before they run. -/
def start (s : Node ID) : Adding ID := ⟨s, fun _ => .getPeer⟩

/-- The calls one after the other. -/
def oneByOne (order : List ℕ) : List ℕ := order.flatMap (List.replicate 6)

section

variable {env : Env} {calls : List (AddCall ID)} {σ τ : Adding ID} {i j : ℕ} {c : AddCall ID}
  {order : List ℕ}

lemma step_some (hi : calls[i]? = some c) :
    σ.step env calls i = ⟨(c.next env (σ.stages i) σ.node).1,
      Function.update σ.stages i (c.next env (σ.stages i) σ.node).2⟩ := by
  simp only [step, hi]

/-- A call that has returned does nothing. -/
lemma run_returned {r : Except AddPeerError Unit} (hr : σ.stages i = .returned r) (n : ℕ) :
    (List.replicate n i).foldl (step env calls) σ = σ := by
  induction n with
  | zero => rfl
  | succ n ih =>
    have hstep : σ.step env calls i = σ := by
      rcases hi : calls[i]? with _ | c
      · simp only [step, hi]
      · rw [step_some hi, hr, AddCall.next, ← hr, Function.update_eq_self]
    rw [List.replicate_succ, List.foldl_cons, hstep, ih]

/-- A call that is not interrupted. -/
lemma run_alone (env : Env) (hi : calls[i]? = some c) (h0 : τ.stages i = .getPeer) :
    (List.replicate 6 i).foldl (step env calls) τ =
      match c.outcome env τ.node with
      | .error e => ⟨τ.node, Function.update τ.stages i (.returned (.error e))⟩
      | .ok peer => ⟨(τ.node.removeBlockedPeer c.peerID).upsertPeer peer,
          Function.update τ.stages i (.returned (.ok ()))⟩ := by
  have hstep : ∀ (s : Node ID) (stage : Stage) (n : ℕ),
      (List.replicate (n + 1) i).foldl (step env calls)
        (⟨s, Function.update τ.stages i stage⟩ : Adding ID) =
      (List.replicate n i).foldl (step env calls)
        ⟨(c.next env stage s).1, Function.update τ.stages i (c.next env stage s).2⟩ := by
    intro s stage n
    rw [List.replicate_succ, List.foldl_cons, step_some hi]
    simp only [Function.update_self, Function.update_idem]
  have hend : ∀ (s : Node ID) (r : Except AddPeerError Unit) (n : ℕ),
      (List.replicate n i).foldl (step env calls)
        (⟨s, Function.update τ.stages i (.returned r)⟩ : Adding ID) =
      ⟨s, Function.update τ.stages i (.returned r)⟩ :=
    fun s r n => run_returned (Function.update_self ..) n
  have hτ : τ = ⟨τ.node, Function.update τ.stages i .getPeer⟩ := by
    rw [← h0, Function.update_eq_self]
  unfold AddCall.outcome
  conv_lhs => rw [hτ]
  rw [hstep, AddCall.next]
  split_ifs with h1 h2
  · rw [hend]
  · rw [hstep, AddCall.next, if_pos h2, hend]
  · rw [hstep, AddCall.next, if_neg h2, hstep, AddCall.next]
    rcases AuthStatus.chooseIP τ.node.conf (string c.peerID) c.ipAddr with e | ipAddr
    · exact hend _ _ _
    · rw [hstep, AddCall.next, hstep, AddCall.next, hstep, AddCall.next]
      rfl

end

end Adding

/-! ### The goroutines -/

/-- A goroutine that runs the call is at this stage of it. -/
def AddCall.Runs [DecidableEq ID] (env : Env) (c : AddCall ID) (stage : Stage)
    (code : Code (Node ID) (Req ID) Resp) : Prop :=
  (∃ n, c.Follows env (fun _ => .done) n stage code) ∨ (code = .done ∧ ∃ r, stage = .returned r)

lemma AddCall.Runs.turn [DecidableEq ID] {env : Env} {c : AddCall ID} {stage : Stage}
    {code : Code (Node ID) (Req ID) Resp} (h : c.Runs env stage code) (s : Node ID) (r : Resp) :
    (code.turn s r).1 = (c.next env stage s).1 ∧
      c.Runs env (c.next env stage s).2 (code.turn s r).2.1 := by
  rcases h with ⟨n, hn⟩ | ⟨rfl, result, rfl⟩
  · rcases stage with _ | _ | _ | _ | _ | _ | (e | ⟨⟩)
    case returned.error =>
      cases n <;> obtain rfl := hn <;> exact ⟨rfl, Or.inr ⟨rfl, _, rfl⟩⟩
    case returned.ok =>
      cases n <;> obtain rfl := hn <;> exact ⟨rfl, Or.inr ⟨rfl, _, rfl⟩⟩
    all_goals
      cases n with
      | zero => exact hn.elim
      | succ n =>
        obtain ⟨upd, nextCode, rfl, hnext⟩ := hn
        exact ⟨(hnext s).1, Or.inl ⟨n, (hnext s).2⟩⟩
  · exact ⟨rfl, Or.inr ⟨rfl, result, rfl⟩⟩

/-- **The goroutines of the calls go through these states**, whatever the schedule. -/
theorem addPeer_goroutines [DecidableEq ID] (env : Env) (calls : List (AddCall ID)) (w : List ℕ)
    (r : Resp) (hw : ∀ i ∈ w, i < calls.length) :
    ∀ {m : Machine (Node ID) (Req ID) Resp} {σ : Adding ID}, m.state = σ.node →
      (∀ {i : ℕ} {c}, calls[i]? = some c → ∃ k, m.pool[i]? = some k ∧ c.Runs env (σ.stages i) k) →
      (w.foldl (fun m i => m.turn i r) m).state = (w.foldl (Adding.step env calls) σ).node := by
  induction w with
  | nil => exact fun h _ => h
  | cons i w ih =>
    intro m σ hstate hpool
    have hi : i < calls.length := hw i List.mem_cons_self
    obtain ⟨k, hk, hruns⟩ := hpool (List.getElem?_eq_getElem hi)
    obtain ⟨hnode, hnext⟩ := hruns.turn σ.node r
    rw [List.foldl_cons, List.foldl_cons, Adding.step_some (List.getElem?_eq_getElem hi)]
    refine ih (fun j hj => hw j (List.mem_cons_of_mem _ hj)) ?_ fun {j c} hj => ?_
    · rw [Machine.turn_state hk, hstate, hnode]
    · by_cases hij : i = j
      · subst hij
        cases Option.some.inj (hj.symm.trans (List.getElem?_eq_getElem hi))
        refine ⟨_, Machine.turn_self hk r, ?_⟩
        dsimp only
        rw [hstate, Function.update_self]
        exact hnext
      · obtain ⟨k', hk', hruns'⟩ := hpool hj
        refine ⟨k', Machine.turn_other hk hij hk' r, ?_⟩
        dsimp only
        rwa [Function.update_of_ne (Ne.symm hij)]

end Awl
