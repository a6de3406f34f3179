import Awl.Mutual
import Awl.Unanswered

/-!
Rounds of `BackgroundRetryAuthRequests`, and runs of a node in which a peer does not answer.

A round asks every peer for which there is an outgoing request, one after the other, whatever
becomes of the requests before. When nothing is left to run, the peers that have not answered yet
are among them, after restarts as well.
-/

namespace Awl

open Text PeerCodec Go AuthStatus Duty

variable {ID : Type} [PeerCodec ID] {y : ID}

/-! ### A round of retries -/

section

variable [DecidableEq ID] {answers : Req ID → Resp → Prop}

/-- To connect to `y`, in states in which its request is noted. -/
def connecting (answers : Req ID → Resp → Prop) (y : ID) : Goal (Node ID) (Req ID) Resp :=
  .beginning (fun s => y ∈ s.outgoingAuths) answers (.connectPeer y)

/-- A request to another peer comes to an end, whatever becomes of it. -/
lemma connecting_next {k : Unit → Code (Node ID) (Req ID) Resp}
    (hk : (connecting answers y).Leads (k ())) (peerID : ID) (req : AuthPeer) :
    (connecting answers y).Leads (sendAuthRequest peerID req k) := by
  refine Goal.leads_act fun _ _ => Goal.leads_ask fun r _ => ?_
  cases r with
  | ok =>
    refine Goal.leads_ask fun r _ => ?_
    cases r with
    | stream sid =>
      refine Goal.leads_ask fun r _ => ?_
      cases r with
      | ok =>
        refine Goal.leads_ask fun r _ => ?_
        cases r with
        | authResponse response =>
          obtain ⟨confirmed, declined⟩ := response
          cases declined with
          | false =>
            cases confirmed with
            | false => exact hk
            | true => exact Goal.leads_act fun _ _ => hk
          | true =>
            simp only [Bool.or_true, if_true, bind_apply, modify_apply, read_apply]
            refine Goal.leads_act fun _ _ => Goal.leads_act fun s _ => ?_
            cases s.conf.getPeer (string peerID) with
            | some kp => exact Goal.leads_act fun _ _ => hk
            | none => exact hk
        | _ => exact hk
      | _ => exact hk
    | _ => exact hk
  | _ => exact hk

lemma connecting_sendAll {auths : List (ID × AuthPeer)} (h : y ∈ auths.map Prod.fst) :
    (connecting answers y).Leads (sendAll auths).code := by
  induction auths with
  | nil => cases h
  | cons e auths ih =>
    by_cases he : e.1 = y
    · exact Goal.leads_act fun _ _ => Or.inl (congrArg Req.connectPeer he)
    · exact connecting_next (ih ((List.mem_cons.mp h).resolve_left fun hy => he hy.symm)) _ _

lemma connecting_retryAuthRequests {order : List ID} (h : y ∈ order) :
    (connecting answers y).Leads (retryAuthRequests order).code := by
  refine Goal.leads_act fun s hs => connecting_sendAll ?_
  obtain ⟨auth, hauth⟩ := Finmap.mem_iff.mp hs
  refine List.mem_map.mpr ⟨(y, auth), List.mem_filterMap.mpr ⟨y, h, ?_⟩, rfl⟩
  rw [hauth]
  rfl

end

/-! ### Runs -/

/-- One node and its goroutines. -/
abbrev Lone (ID : Type) := Parties Unit (Node ID) (Req ID) Resp

inductive LoneEvent (ID : Type) [PeerCodec ID]
  | turn (i : ℕ) (r : Resp)
  | call (l : Call ID)
  | restart (ks ks' : List String)
  | change (s : Node ID)

def LoneEvent.isRestart : LoneEvent ID → Bool
  | .restart _ _ => true
  | _ => false

namespace Lone

variable [DecidableEq ID] {env : Env}

def step (env : Env) (σ : Lone ID) : LoneEvent ID → Lone ID
  | .turn i r => σ.turn () i r
  | .call l => σ.start () (l.code env)
  | .restart ks ks' => σ.reset () ((σ.state ()).restart env ks ks')
  | .change s => σ.put () s

def run (env : Env) (σ : Lone ID) (es : List (LoneEvent ID)) : Lone ID := es.foldl (step env) σ

/-- The peer `y` does not answer. The network may do anything else. -/
def Cond (env : Env) (y : ID) (σ : Lone ID) : LoneEvent ID → Prop
  | .turn i r => ∀ q ∈ σ.awaited () i, ¬ AnswerOf y q r
  | .call _ => True
  | .restart ks ks' => (σ.state ()).disk.knownPeers.Ranges ks ∧
    ((σ.state ()).disk.setDefaults env ks).knownPeers.Ranges ks'
  | .change s => Unrelated (σ.state ()) s

instance (env : Env) (y : ID) (σ : Lone ID) : ∀ e : LoneEvent ID, Decidable (Cond env y σ e)
  | .turn i r => inferInstanceAs (Decidable (∀ q ∈ σ.awaited () i, ¬ AnswerOf y q r))
  | .call _ => instDecidableTrue
  | .restart _ _ => instDecidableAnd
  | .change s => inferInstanceAs (Decidable (Unrelated (σ.state ()) s))

/-- Nothing is left to run. -/
def AtRest (σ : Lone ID) : Prop := ∀ k ∈ σ.tasks (), k.isDone = true

instance (σ : Lone ID) : Decidable (AtRest σ) :=
  inferInstanceAs (Decidable (∀ k ∈ σ.tasks (), k.isDone = true))

/-- A restart notes every request that is not answered. -/
lemma restart_asking {s : Node ID} (h : (asking y).inv s) {ks ks' : List String}
    (hks : (s.disk.setDefaults env ks).knownPeers.Ranges ks') :
    (asking y).inv (s.restart env ks ks') ∧
      ((asking y).due (s.restart env ks ks') → (asking y).met (s.restart env ks ks')) := by
  have hown : (s.disk.setDefaults env ks).UnderOwnIDs := fun k kp' hk => by
    obtain ⟨kp, hkp, hfill⟩ := (Config.setDefaults_loaded env ks s.disk).peers hk
    exact hfill.peerID.trans (h.2 k kp hkp)
  refine ⟨⟨hown, h.2⟩, ?_⟩
  rintro ⟨kp, hkp, hc, hd⟩
  have hid : (kp.peerId : ID) = y := by
    rw [KnownPeer.peerId, hown _ kp hkp]
    by_cases hz : y = zero
    · rw [hz, string_zero, decode_empty]
      rfl
    · rw [decode_string y hz]
      rfl
  refine GoMap.rangeLoop_visits (fun m : GoMap ID AuthPeer => y ∈ m) (fun m k kp' _ hm => ?_) hkp
    (fun m => ?_) ∅ ((hks.2 _).mpr (Finmap.mem_of_lookup_eq_some hkp))
  · unfold Node.restoreOutgoingAuth
    split
    · exact Finmap.mem_insert.mpr (Or.inr hm)
    · exact hm
  · rw [Node.restoreOutgoingAuth, hc, hd, hid]
    exact Finmap.mem_insert.mpr (Or.inl rfl)

/-- **One event** without an answer of `y`. -/
lemma minded_step {σ : Lone ID} (h : ∃ known, (asking y).Minded σ () known) (e : LoneEvent ID)
    (he : Cond env y σ e) : ∃ known, (asking y).Minded (step env σ e) () known := by
  obtain ⟨known, h⟩ := h
  cases e with
  | turn i r =>
    obtain ⟨known', -, h'⟩ := h.turn he
    exact ⟨known', h'⟩
  | call l => exact ⟨known, h.start (minds_call l)⟩
  | restart ks ks' =>
    obtain ⟨hinv, hmet⟩ := restart_asking h.inv he.2
    exact ⟨_, minded_of_met σ () hinv hmet⟩
  | change s =>
    obtain ⟨⟨hk, -⟩, ⟨hdk, -⟩, ⟨-, ho⟩, -⟩ := he
    refine ⟨known, h.put ⟨fun k kp hl => h.inv.1 k kp (hk ▸ hl), fun k kp hl =>
      h.inv.2 k kp (hdk ▸ hl)⟩ ?_ fun hy => ?_⟩
    · rintro ⟨kp, hl, hflags⟩
      exact ⟨kp, by rw [Config.getPeer, ← hk]; exact hl, hflags⟩
    · change y ∈ s.outgoingAuths
      rwa [ho]

/-- While a round of retries goes on. -/
structure Retrying (y : ID) (past : List (Req ID)) (σ : Lone ID) : Prop where
  minded : ∃ known, (asking y).Minded σ () known
  noted : y ∈ (σ.state ()).outgoingAuths
  begins : σ.Begins () (fun s => y ∈ s.outgoingAuths) (fun q r => ¬ AnswerOf y q r)
    (.connectPeer y) past

lemma Retrying.step {past : List (Req ID)} {σ : Lone ID} (h : Retrying y past σ)
    (e : LoneEvent ID) (he : Cond env y σ e ∧ e.isRestart = false) :
    Retrying y past (step env σ e) := by
  obtain ⟨he, hrestart⟩ := he
  refine ⟨minded_step h.minded e he, ?_, ?_⟩
  · cases e with
    | turn i r =>
      obtain ⟨known, hm⟩ := h.minded
      exact hm.met_turn he h.noted
    | call l => exact h.noted
    | restart ks ks' => cases hrestart
    | change s =>
      change y ∈ s.outgoingAuths
      rw [he.auths.2]
      exact h.noted
  · cases e with
    | turn i r => exact h.begins.turn h.noted he
    | call l => exact h.begins.start _
    | restart ks ks' => cases hrestart
    | change s => exact h.begins.put s

/-- **Requests are made until they are answered**: at rest, every peer that is known and has neither
confirmed nor declined is among the outgoing requests, unless it has answered; and the next round of
retries has connected to it when everything is at rest again. -/
theorem unanswered_retried {σ : Lone ID} (hrest : AtRest σ) (hown : (asking y).inv (σ.state ()))
    (hnoted : (asking y).due (σ.state ()) → (asking y).met (σ.state ()))
    (es : List (LoneEvent ID)) (hes : Runs.Meets (step env) (Cond env y) σ es)
    (hrest' : AtRest (run env σ es)) (hun : ((run env σ es).state ()).conf.Unanswered y) :
    y ∈ ((run env σ es).state ()).outgoingAuths ∧
      ∀ (order : List ID) (es' : List (LoneEvent ID)), y ∈ order →
        Runs.Meets (step env) (fun σ e => Cond env y σ e ∧ e.isRestart = false)
          (step env (run env σ es) (.call (.retryAuthRequests order))) es' →
        AtRest (run env σ (es ++ .call (.retryAuthRequests order) :: es')) →
        ∃ since, (run env σ (es ++ .call (.retryAuthRequests order) :: es')).begun () =
          since ++ (run env σ es).begun () ∧ .connectPeer y ∈ since := by
  have hstart : ∃ known, (asking y).Minded σ () known :=
    ⟨_, hown, fun hdue => hdue, fun hdue => Or.inl (hnoted hdue), fun k hk =>
      minds_of_isDone (hrest k hk)⟩
  obtain ⟨known, hm⟩ : ∃ known, (asking y).Minded (run env σ es) () known :=
    (Runs.holds_of_meets (P := fun σ => ∃ known, (asking y).Minded σ () known)
      (fun _ e h he => minded_step h e he) (fun _ h => h) es σ hstart hes).last
  have hmet := hm.met_of_done hrest' hun
  refine ⟨hmet, fun order es' horder hes' hrest'' => ?_⟩
  have hretry : Retrying y ((run env σ es).begun ())
      (step env (run env σ es) (.call (.retryAuthRequests order))) :=
    ⟨⟨known, hm.start (minds_call _)⟩, hmet,
      Parties.begins_start _ () (connecting_retryAuthRequests horder)⟩
  rw [run, List.foldl_append] at hrest'' ⊢
  have hend := (Runs.holds_of_meets (P := Retrying y ((run env σ es).begun ()))
    (fun _ e h he => h.step e he) (fun _ h => h) es' _ hretry hes').last
  exact hend.begins.of_done hrest''

section

open BootstrapPeer

def aloneFresh : Lone BootstrapPeer where
  state _ := freshNode
  tasks _ := []
  begun _ := []

/-- A friend request is made, but the peer cannot be reached; then the node is started again. -/
def unreachable : List (LoneEvent BootstrapPeer) :=
  .call (.sendFriendRequest ⟨ita1.text, "friend", ""⟩) :: List.replicate 9 (.turn 0 .ok) ++
    List.replicate 6 (.turn 1 .error) ++ [.restart [ita1.text] [ita1.text]]

/-- It still cannot be reached. -/
def stillUnreachable : List (LoneEvent BootstrapPeer) := List.replicate 4 (.turn 0 .error)

theorem unreachable_retried :
    ∃ since, (run sampleEnv aloneFresh
        (unreachable ++ .call (.retryAuthRequests [ita1]) :: stillUnreachable)).begun () =
      since ++ (run sampleEnv aloneFresh unreachable).begun () ∧ .connectPeer ita1 ∈ since := by
  have hown : (BootstrapPeer.conf []).UnderOwnIDs := fun k kp hk => by
    simp [BootstrapPeer.conf] at hk
  have hun : ((run sampleEnv aloneFresh unreachable).state ()).conf.Unanswered ita1 := by
    have hflags : (((run sampleEnv aloneFresh unreachable).state ()).conf.getPeer
        (string ita1)).map (fun kp => (kp.confirmed, kp.declined)) = some (false, false) := by
      decide +kernel
    obtain ⟨kp, hkp, heq⟩ := Option.map_eq_some_iff.mp hflags
    exact ⟨kp, hkp, Prod.mk.inj heq⟩
  have hmeets : Runs.Meets (step sampleEnv) (Cond sampleEnv ita1) aloneFresh unreachable := by
    decide +kernel
  refine (unanswered_retried (by decide) ⟨hown, hown⟩ ?_ unreachable hmeets (by decide +kernel)
    hun).2 [ita1] stillUnreachable (by decide) (by decide +kernel) (by decide +kernel)
  rintro ⟨kp, hkp, -⟩
  simp [aloneFresh, freshNode, BootstrapPeer.conf, Config.getPeer] at hkp

end

end Lone

end Awl
