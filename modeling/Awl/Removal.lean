import Awl.Uninvited

/-!
After the removal of a peer `x`: when no auth request is sent to it any more.

`RemovePeer` does not touch the outgoing requests. Once the goroutines of the time before have
ended, `x` is asked again exactly if it still has an entry, which the next retry round or the
next connection of `x` finds, or if a goroutine that came up since has taken a copy of it.
-/

namespace Awl

open PeerCodec

variable {ID : Type} [DecidableEq ID] [PeerCodec ID]

/-- From here on, until `x` is added again, nobody sends it an auth request. -/
def Uninvited (env : Env) (x : ID) (m : Machine (Node ID) (Req ID) Resp) : Prop :=
  ∀ es, Runs.Holds (Machine.fine (Call.code env)) (fun m' =>
    m'.state.history.count (.added x) = m.state.history.count (.added x) →
      ∀ k ∈ m'.pool, ∀ q ∈ k.waiting, ¬ Invitation x q) m es

/-- Nobody does, once all goroutines leave `x` alone in a state without an entry for it. -/
lemma uninvited_of_leavesAlone {env : Env} {x : ID} {m : Machine (Node ID) (Req ID) Resp}
    (hx : x ∉ m.state.outgoingAuths) (h : ∀ k ∈ m.pool, LeavesAlone x k) :
    Uninvited env x m := by
  intro es
  let n := m.state.history.count (.added x)
  have hkeeps : Machine.Keeps (unasked x n) False () m :=
    ⟨⟨le_refl n, False.elim, fun hin => absurd hin hx⟩, fun k hk => h k hk n⟩
  refine Runs.holds_of_inv (I := fun m' => ∃ ℓ, Machine.Keeps (unasked x n) ℓ () m')
    (fun m' e hm' => ?_) (fun m' hm' hcount k hk q hq hinv => ?_) es m ⟨False, hkeeps⟩
  · obtain ⟨ℓ, hm'⟩ := hm'
    cases e with
    | call l =>
      exact ⟨ℓ, hm'.start (((decided_call l).2 n).mono False.elim (le_refl ()))⟩
    | resume i r =>
      rcases hk : m'.pool[i]? with _ | k
      · exact ⟨ℓ, by rwa [Machine.fine, Machine.turn_none hk]⟩
      · obtain ⟨ℓ', -, h'⟩ := hm'.turn hk fun _ _ => trivial
        exact ⟨ℓ', h'⟩
  · obtain ⟨ℓ, hm'⟩ := hm'
    have hadded : AddedSince x n m'.state := hm'.inv.added ((hm'.safe k hk).owed hq hinv)
    unfold AddedSince at hadded
    omega

/-- The next retry round sends the request that an entry stands for. -/
lemma invited_of_entry (env : Env) {x : ID} {m : Machine (Node ID) (Req ID) Resp}
    (hx : x ∈ m.state.outgoingAuths) : ¬ Uninvited env x m := by
  intro h
  obtain ⟨auth, hauth⟩ := Option.isSome_iff_exists.mp (Finmap.lookup_isSome.mpr hx)
  have hcopy : [x].filterMap (fun id => (m.state.outgoingAuths.lookup id).map fun a => (id, a)) =
      [(x, auth)] := by simp [hauth]
  let i := m.pool.length
  have hlast := (h [.call (.retryAuthRequests [x]), .resume i .ok, .resume i .ok, .resume i .ok,
    .resume i (.stream 0)]).last
  -- the round takes its copy, makes its entry, connects and opens a stream
  have h₀ := Machine.start_new m (Call.code env (.retryAuthRequests [x]))
  obtain ⟨hs₁, h₁⟩ := Machine.turn_act h₀ .ok
  rw [show (m.start _).state = m.state from rfl] at h₁
  simp only [hcopy] at h₁
  obtain ⟨hs₂, h₂⟩ := Machine.turn_act h₁ .ok
  obtain ⟨hs₃, h₃⟩ := Machine.turn_ask h₂ .ok
  obtain ⟨hs₄, h₄⟩ := Machine.turn_ask h₃ (.stream 0)
  refine hlast ?_ _ (List.mem_of_getElem? h₄) _ rfl rfl
  simp only [List.foldl, Machine.fine]
  rw [hs₄, hs₃, hs₂, hs₁]
  rfl

/-- Some run during which nobody is added or removed comes to send `x` a request. -/
def ComesToAsk (env : Env) (x : ID) (m : Machine (Node ID) (Req ID) Resp) : Prop :=
  ∃ es : List (Event (Call ID) Resp),
    (es.foldl (Machine.fine (Call.code env)) m).state.history = m.state.history ∧
      ∃ k ∈ (es.foldl (Machine.fine (Call.code env)) m).pool, ∃ q ∈ k.waiting, Invitation x q

lemma ComesToAsk.of_turn {env : Env} {x : ID} {m : Machine (Node ID) (Req ID) Resp} {i : ℕ}
    {r : Resp} (hhist : (m.turn i r).state.history = m.state.history)
    (h : ComesToAsk env x (m.turn i r)) : ComesToAsk env x m := by
  obtain ⟨es, hrun, hsent⟩ := h
  exact ⟨.resume i r :: es, hrun.trans hhist, hsent⟩

/-- A goroutine that holds a copy is run on its own until it sends it. -/
lemma comesToAsk_of_copy (env : Env) {x : ID} {k : Code (Node ID) (Req ID) Resp}
    (hcopy : HoldsCopy x k) :
    ∀ (m : Machine (Node ID) (Req ID) Resp) (i : ℕ), m.pool[i]? = some k →
      ComesToAsk env x m := by
  induction k with
  | done => exact hcopy.elim
  | act upd next ih =>
    intro m i hk
    obtain ⟨hstate, hnext⟩ := Machine.turn_act hk .ok
    exact .of_turn (by rw [hstate, hcopy.1]) (ih m.state (hcopy.2 m.state) _ i hnext)
  | ask q next ih =>
    intro m i hk
    rcases hcopy with hq | ⟨r, hcopy⟩
    · exact ⟨[], rfl, _, List.mem_of_getElem? hk, q, rfl, hq⟩
    · obtain ⟨hstate, hnext⟩ := Machine.turn_ask hk r
      exact .of_turn (by rw [hstate]) (ih r hcopy _ i hnext)
  | fork child next ihc ihn =>
    intro m i hk
    obtain ⟨hstate, hnext, hchild⟩ := Machine.turn_fork hk .ok
    refine .of_turn (i := i) (r := .ok) (by rw [hstate]) ?_
    rcases hcopy with hcopy | hcopy
    · exact ihc hcopy _ m.pool.length hchild
    · exact ihn hcopy _ i hnext

lemma invited_of_copy (env : Env) {x : ID} {m : Machine (Node ID) (Req ID) Resp}
    {k : Code (Node ID) (Req ID) Resp} (hk : k ∈ m.pool) (hcopy : HoldsCopy x k) :
    ¬ Uninvited env x m := by
  intro h
  obtain ⟨i, hi⟩ := List.mem_iff_getElem?.mp hk
  obtain ⟨es, hhist, c, hc, q, hq, hinv⟩ := comesToAsk_of_copy env hcopy m i hi
  exact (h es).last (by rw [hhist]) c hc q hq hinv

omit [DecidableEq ID] [PeerCodec ID] in
/-- A goroutine that has ended or ends with its next step holds no copy. -/
lemma not_holdsCopy_of_ends {x : ID} {k : Code (Node ID) (Req ID) Resp} {s : Node ID}
    (h : k.isDone = true ∨ k.waiting.isNone ∧ (k.turn s .ok).2.1.isDone = true ∧
      (k.turn s .ok).2.2.isEmpty = true) : ¬ HoldsCopy x k := by
  intro hcopy
  cases k with
  | done => exact hcopy
  | act upd next =>
    obtain h | ⟨-, hnext, -⟩ := h
    · cases h
    · have hdone : next s = .done := Code.eq_done_of_isDone hnext
      have hlast := hcopy.2 s
      rw [hdone] at hlast
      exact hlast
  | ask q next => simp [Code.isDone, Code.waiting] at h
  | fork child next => simp [Code.isDone, Code.turn] at h

/-- **When a removed peer is left alone.** Let `before` be everything up to the return of
`RemovePeer` and `after` what happens until the goroutines of that time have ended. From then
on nobody sends `x` a request, until it is added again, exactly if there is no entry for it
left and none of the goroutines that came up since holds a copy of it. -/
theorem uninvited_iff (env : Env) (x : ID) (s : Node ID)
    (before after : List (Event (Call ID) Resp)) {m₀ m : Machine (Node ID) (Req ID) Resp}
    (hm₀ : m₀ = before.foldl (Machine.fine (Call.code env)) ⟨s, []⟩)
    (hm : m = after.foldl (Machine.fine (Call.code env)) m₀)
    (hover : ∀ i < m₀.pool.length, ∀ k ∈ m.pool[i]?, k.isDone = true) :
    Uninvited env x m ↔
      x ∉ m.state.outgoingAuths ∧
        ∀ i ≥ m₀.pool.length, ∀ k ∈ m.pool[i]?, ¬ HoldsCopy x k := by
  have hdecided : ∀ k ∈ m.pool, Decided x k := by
    rw [hm, hm₀, ← List.foldl_append]
    exact Machine.fine_always (fun l => (decided_call l).1) _ (by simp)
  refine ⟨fun h => ⟨fun hx => invited_of_entry env hx h, fun i _ k hk hcopy =>
    invited_of_copy env (List.mem_of_getElem? hk) hcopy h⟩, fun h => ?_⟩
  obtain ⟨hx, hlater⟩ := h
  refine uninvited_of_leavesAlone hx fun k hk => ?_
  obtain ⟨i, hi⟩ := List.mem_iff_getElem?.mp hk
  rcases Nat.lt_or_ge i m₀.pool.length with hlt | hge
  · -- a goroutine of the time before has ended
    rw [Code.eq_done_of_isDone (hover i hlt k hi)]
    exact fun _ => trivial
  · exact (hdecided k hk).here.resolve_left (hlater i hge k hi)

section

open BootstrapPeer

/-- `n` steps of the `i`-th goroutine, whose operations succeed without a result. -/
def steps (i n : ℕ) : List (Event (Call BootstrapPeer) Resp) := List.replicate n (.resume i .ok)

/-- A peer that cannot be reached is invited and then removed. -/
def inviteAndRemove : List (Event (Call BootstrapPeer) Resp) :=
  .call (.sendFriendRequest ⟨rus2.text, "laptop", ""⟩) :: steps 0 8 ++
  steps 1 2 ++ .resume 1 .error :: steps 1 2 ++ .resume 1 .error ::
  .call (.removePeer ⟨rus2.text⟩) :: steps 2 3 ++ steps 3 1 ++ [.resume 3 .error]

def removedNode : Machine (Node BootstrapPeer) (Req BootstrapPeer) Resp :=
  inviteAndRemove.foldl (Machine.fine (Call.code sampleEnv)) ⟨freshNode, []⟩

theorem inviteAndRemove_invited :
    removedNode.state.history = [.added rus2, .removed rus2.text] ∧
      (∀ k ∈ removedNode.pool, k.isDone = true) ∧ ¬ Uninvited sampleEnv rus2 removedNode :=
  ⟨by decide +kernel, by decide +kernel, invited_of_entry sampleEnv (by decide +kernel)⟩

/-- A peer that is known and not invited is removed. -/
def removal : List (Event (Call BootstrapPeer) Resp) :=
  .call (.removePeer ⟨rus2.text⟩) :: steps 0 3

/-- Before the goroutine of the removal has ended, the peer connects; its handler has looked for
an outgoing request and goes on. -/
def connection : List (Event (Call BootstrapPeer) Resp) :=
  .call (.peerConnected rus2) :: steps 2 1 ++ steps 1 1 ++ [.resume 1 .error]

def friendRemoved : Machine (Node BootstrapPeer) (Req BootstrapPeer) Resp :=
  removal.foldl (Machine.fine (Call.code sampleEnv)) ⟨friendNode, []⟩

def connectedMeanwhile : Machine (Node BootstrapPeer) (Req BootstrapPeer) Resp :=
  connection.foldl (Machine.fine (Call.code sampleEnv)) friendRemoved

theorem friend_removed_uninvited :
    connectedMeanwhile.state.history = [.removed rus2.text] ∧
      (∀ i < friendRemoved.pool.length, ∀ k ∈ connectedMeanwhile.pool[i]?, k.isDone = true) ∧
      (∃ k ∈ connectedMeanwhile.pool, k.isDone = false) ∧
      Uninvited sampleEnv rus2 connectedMeanwhile := by
  have hover : ∀ i < friendRemoved.pool.length, ∀ k ∈ connectedMeanwhile.pool[i]?,
      k.isDone = true := by decide +kernel
  refine ⟨by decide +kernel, hover, by decide +kernel, (uninvited_iff sampleEnv rus2 friendNode
    removal connection rfl rfl hover).mpr ⟨by decide +kernel, fun i _ k hk => ?_⟩⟩
  -- the handler does not know the peer any more either, so it ends with its next step
  have hends : ∀ k ∈ connectedMeanwhile.pool, k.isDone = true ∨
      k.waiting.isNone ∧ (k.turn connectedMeanwhile.state .ok).2.1.isDone = true ∧
        (k.turn connectedMeanwhile.state .ok).2.2.isEmpty = true := by decide +kernel
  exact not_holdsCopy_of_ends (hends k (List.mem_of_getElem? hk))

end

end Awl
