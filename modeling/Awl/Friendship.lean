import Awl.FriendsSafe
import Awl.Mutual

/-!
Two nodes that make friends: when everything has come to rest and each knows the other, each
has confirmed the other.

As long as a node knows the other without having confirmed it, and is known by it, something is
left to do that will confirm it: a status stream is going to be opened from either side, the
node is handling one, or it waits for an answer that will come.
-/

namespace Awl

open PeerCodec Friends

variable {ID : Type} [PeerCodec ID]

/-- Both nodes know each other. -/
def Acquainted (ids : Side → ID) (σ : Linked ID) : Prop :=
  ∀ x, Knows (ids x.other) (σ.net.state x)

/-- The stream `sid` that `x` has opened will be answered, or has been. -/
def WillReply (ids : Side → ID) (σ : Linked ID) (x : Side) (sid : ℕ) : Prop :=
  (∃ j k, σ.streams[sid]? = some (x, j) ∧ (σ.net.tasks x.other)[j]? = some k ∧
    (replying (ids x) sid).Leads k) ∨
  ∃ sent info, Req.sendStatus ⟨ids x, sid, true, sent⟩ info ∈ σ.net.begun x.other

/-- What is left to do that will confirm the record `x` has of the other node. -/
inductive Pending (ids : Side → ID) (σ : Linked ID) (x : Side) : Prop
  | opening (z : Side) (j : ℕ) (k : Code (Node ID) (Req ID) Resp)
      (hj : (σ.net.tasks z)[j]? = some k) (h : (opening (ids z.other)).Leads k)
  | confirming (j : ℕ) (k : Code (Node ID) (Req ID) Resp)
      (hj : (σ.net.tasks x)[j]? = some k) (h : (confirming (ids x.other)).Leads k)
  | expecting (sid j : ℕ) (k : Code (Node ID) (Req ID) Resp)
      (hj : (σ.net.tasks x)[j]? = some k) (h : (expecting (ids x.other) sid).Leads k)
      (hreply : WillReply ids σ x sid)

/-- The invariant of two nodes that make friends. -/
structure Befriending (ids : Side → ID) (σ : Linked ID) : Prop where
  keeps : ∃ ℓ : Side → Prop, ∀ x, σ.net.Keeps x (friendly (ids x.other)) (ℓ x) ()
  pending : Acquainted ids σ → ∀ x,
    confirmation (ids x.other) (σ.net.state x) = some false → Pending ids σ x

/-- More goroutines, streams and messages take nothing away. -/
lemma WillReply.mono {ids : Side → ID} {σ σ' : Linked ID} {x : Side} {sid : ℕ}
    (h : WillReply ids σ x sid)
    (ht : ∀ z (j : ℕ) (k : Code (Node ID) (Req ID) Resp), (σ.net.tasks z)[j]? = some k →
      (σ'.net.tasks z)[j]? = some k)
    (hs : ∀ (i : ℕ) e, σ.streams[i]? = some e → σ'.streams[i]? = some e)
    (hb : ∀ z, σ.net.begun z ⊆ σ'.net.begun z) : WillReply ids σ' x sid := by
  rcases h with ⟨j, k, hstream, hj, hlead⟩ | ⟨sent, info, hsent⟩
  · exact Or.inl ⟨j, k, hs _ _ hstream, ht _ j k hj, hlead⟩
  · exact Or.inr ⟨sent, info, hb _ hsent⟩

lemma Pending.mono {ids : Side → ID} {σ σ' : Linked ID} {x : Side} (h : Pending ids σ x)
    (ht : ∀ z (j : ℕ) (k : Code (Node ID) (Req ID) Resp), (σ.net.tasks z)[j]? = some k →
      (σ'.net.tasks z)[j]? = some k)
    (hs : ∀ (i : ℕ) e, σ.streams[i]? = some e → σ'.streams[i]? = some e)
    (hb : ∀ z, σ.net.begun z ⊆ σ'.net.begun z) : Pending ids σ' x := by
  cases h with
  | opening z j k hj h => exact .opening z j k (ht z j k hj) h
  | confirming j k hj h => exact .confirming j k (ht x j k hj) h
  | expecting sid j k hj h hreply =>
    exact .expecting sid j k (ht x j k hj) h (hreply.mono ht hs hb)

namespace Befriending

variable {ids : Side → ID} {σ : Linked ID}

/-- What is received was sent, and so is no refusal. -/
lemma delivered (h : Befriending ids σ) {x : Side} {q q' : Req ID} {r : Resp}
    (hq' : q' ∈ σ.net.begun x.other) (hd : delivery q q' = some r) :
    (friendly (ids x.other)).allowed () q r := by
  obtain ⟨ℓ, hℓ⟩ := h.keeps
  have howed := (hℓ x.other).begun q' hq'
  unfold delivery at hd
  split at hd
  · split_ifs at hd
    cases hd
    exact howed
  · trivial
  · split_ifs at hd
    cases hd
    exact howed
  · cases hd

/-- What arrives on a status stream is a status. -/
lemma delivered_status (h : Befriending ids σ) {x : Side} {stream : Stream ID} {q' : Req ID}
    {r : Resp} (hq' : q' ∈ σ.net.begun x.other)
    (hd : delivery (.receiveStatus stream) q' = some r) :
    ∃ info : PeerStatusInfo, info.declined = false ∧ r = .status info := by
  have hallowed := h.delivered hq' hd
  cases q' with
  | sendStatus stream' info =>
    simp only [delivery] at hd
    split_ifs at hd
    cases hd
    exact ⟨info, hallowed, rfl⟩
  | _ => cases hd

/-- The answers of the network are as the contract allows them. -/
lemma allowed (h : Befriending ids σ) {x : Side} {q : Req ID} {r : Resp}
    (hr : σ.Answered x q r) : (friendly (ids x.other)).allowed () q r := by
  cases q with
  | receiveStatus stream =>
    rcases hr with ⟨q', hq', hd⟩ | ⟨-, rfl, -⟩
    · exact h.delivered hq' hd
    · trivial
  | receiveAuthResponse stream =>
    rcases hr with ⟨q', hq', hd⟩ | ⟨-, rfl, -⟩
    · exact h.delivered hq' hd
    · trivial
  | _ => trivial

/-- The answers of the network are those the goals expect. -/
lemma expected (h : Befriending ids σ) {x : Side} {q : Req ID} {r : Resp}
    (hr : σ.Answered x q r) : FriendlyAnswer q r := by
  cases q with
  | newStream id proto => exact ⟨_, hr⟩
  | receiveStatus stream =>
    intro hin
    rcases hr with ⟨q', hq', hd⟩ | ⟨hout, -⟩
    · exact h.delivered_status hq' hd
    · rw [hout] at hin
      cases hin
  | connectPeer id => exact hr
  | sendStatus stream info => exact hr
  | sendAuth stream authPeer => exact hr
  | sendAuthResponse stream response => exact hr
  | receiveAuth stream => trivial
  | receiveAuthResponse stream => trivial

lemma goal_inv (h : Befriending ids σ) (hacq : Acquainted ids σ) (x : Side) :
    Friendly (ids x.other) (σ.net.state x) ∧ Knows (ids x.other) (σ.net.state x) := by
  obtain ⟨ℓ, hℓ⟩ := h.keeps
  exact ⟨(hℓ x).inv.1, hacq x⟩

/-! ### One step of a goroutine -/

section

variable {z x : Side} {i : ℕ} {r : Resp}

lemma reply_turn (h : Befriending ids σ) (hacq : Acquainted ids σ)
    (hr : ∀ q ∈ σ.net.awaited z i, σ.Answered z q r) {sid : ℕ} (hreply : WillReply ids σ x sid) :
    WillReply ids { σ with net := σ.net.turn z i r } x sid := by
  rcases hreply with ⟨j, k, hstream, hj, hlead⟩ | ⟨sent, info, hsent⟩
  · by_cases hz : x.other = z
    · subst hz
      have hinv := h.goal_inv hacq x.other
      rw [Side.other_other] at hinv
      rcases hlead.at_turn hj hinv fun q hq => h.expected (hr q hq) with
        hmade | ⟨rfl, q, next, rfl, sent, info, rfl⟩ | ⟨k', hk', hlead'⟩ | ⟨hoff, -⟩
      · exact hmade.elim
      · -- it is being answered
        refine Or.inr ⟨sent, info, ?_⟩
        change _ ∈ (σ.net.turn x.other j r).begun x.other
        rw [Parties.turn_begun hj]
        exact List.mem_append_left _ (List.mem_singleton.mpr rfl)
      · exact Or.inl ⟨j, k', hstream, hk', hlead'⟩
      · exact hoff.elim
    · refine Or.inl ⟨j, k, hstream, ?_, hlead⟩
      change ((σ.net.turn z i r).tasks x.other)[j]? = some k
      rw [(Parties.turn_of_ne hz r).2.1, hj]
  · exact Or.inr ⟨sent, info, Parties.subset_turn_begun _ _ _ _ _ hsent⟩

/-- A goroutine that waits for the answer on a stream that will be answered gets it. -/
lemma expected_reply (h : Befriending ids σ) {sid : ℕ} (hreply : WillReply ids σ x sid)
    {sent : Option PeerStatusInfo}
    (hr : σ.Answered x (.receiveStatus ⟨ids x.other, sid, false, sent⟩) r) :
    ∃ info : PeerStatusInfo, info.declined = false ∧ r = .status info := by
  rcases hr with ⟨q', hq', hd⟩ | ⟨-, -, ⟨e, he, -, k', hk', hdone⟩, hnone⟩
  · exact h.delivered_status hq' hd
  · -- the handler has not ended, or has answered
    exfalso
    rcases hreply with ⟨j, k, hstream, hj, hlead⟩ | ⟨sent', info, hsent⟩
    · cases hstream.symm.trans he
      cases hj.symm.trans hk'
      exact hlead.not_isDone hdone
    · have hnot := hnone _ hsent
      rw [delivery, if_pos ⟨rfl, rfl⟩] at hnot
      cases hnot

/-- What was left to do is still left, unless the stream is opened in this step. -/
lemma pending_turn (h : Befriending ids σ) (hacq : Acquainted ids σ)
    (hr : ∀ q ∈ σ.net.awaited z i, σ.Answered z q r) (hpend : Pending ids σ x)
    (hfalse : confirmation (ids x.other) ((σ.net.turn z i r).state x) = some false) :
    Pending ids { σ with net := σ.net.turn z i r } x ∨
      ∃ next, (σ.net.tasks z)[i]? = some (.ask (.newStream (ids z.other) .status) next) ∧
        ∀ sid, (expecting (ids z.other) sid).Leads (next (.stream sid)) := by
  have hans : ∀ q ∈ σ.net.awaited z i, FriendlyAnswer q r := fun q hq => h.expected (hr q hq)
  cases hpend with
  | opening w j k hj hlead =>
    by_cases hz : w = z
    · subst hz
      rcases hlead.at_turn hj (h.goal_inv hacq w) hans with
        hmade | ⟨rfl, q, next, rfl, rfl, hnext⟩ | ⟨k', hk', hlead'⟩ | ⟨-, j', k', hk', hlead'⟩
      · exact hmade.elim
      · exact Or.inr ⟨next, hj, hnext⟩
      · exact Or.inl (.opening w j k' hk' hlead')
      · exact Or.inl (.opening w j' k' hk' hlead')
    · refine Or.inl (.opening w j k ?_ hlead)
      change ((σ.net.turn z i r).tasks w)[j]? = some k
      rw [(Parties.turn_of_ne hz r).2.1, hj]
  | confirming j k hj hlead =>
    left
    by_cases hz : x = z
    · subst hz
      rcases hlead.at_turn hj (h.goal_inv hacq x) hans with
        hmade | ⟨-, q, next, -, hwaits⟩ | ⟨k', hk', hlead'⟩ | ⟨hoff, -⟩
      · exact absurd (hfalse.symm.trans hmade) (by simp)
      · exact hwaits.elim
      · exact .confirming j k' hk' hlead'
      · exact hoff.elim
    · refine .confirming j k ?_ hlead
      change ((σ.net.turn z i r).tasks x)[j]? = some k
      rw [(Parties.turn_of_ne hz r).2.1, hj]
  | expecting sid j k hj hlead hreply =>
    left
    have hreply' := h.reply_turn hacq hr hreply
    by_cases hz : x = z
    · subst hz
      rcases hlead.at_turn hj (h.goal_inv hacq x) hans with
        hmade | ⟨rfl, q, next, rfl, ⟨sent, rfl⟩, hnext⟩ | ⟨k', hk', hlead'⟩ | ⟨hoff, -⟩
      · exact hmade.elim
      · have hq : σ.net.awaited x j = some (.receiveStatus ⟨ids x.other, sid, false, sent⟩) := by
          rw [Parties.awaited, hj]
          rfl
        obtain ⟨info, hd, rfl⟩ := h.expected_reply hreply (hr _ hq)
        exact .confirming j _ (Parties.turn_task hj _) (hnext info hd)
      · exact .expecting sid j k' hk' hlead' hreply'
      · exact hoff.elim
    · refine .expecting sid j k ?_ hlead hreply'
      change ((σ.net.turn z i r).tasks x)[j]? = some k
      rw [(Parties.turn_of_ne hz r).2.1, hj]

/-- A step that is not calm is followed by the opening of a stream. -/
lemma calm_turn (h : Befriending ids σ) (z : Side) (i : ℕ) (r : Resp) :
    Calm (ids z.other) (σ.net.state z) ((σ.net.turn z i r).state z) ∨
      ∀ x, Pending ids { σ with net := σ.net.turn z i r } x := by
  obtain ⟨ℓ, hℓ⟩ := h.keeps
  rcases hi : (σ.net.tasks z)[i]? with _ | k
  · rw [Parties.turn_none hi]
    exact Or.inl (Calm.refl _ _)
  · rw [Parties.turn_state hi]
    rcases ((hℓ z).tasks k (List.mem_of_getElem? hi)).guar_turn (hℓ z).inv r with hcalm | hlead
    · exact Or.inl hcalm
    · exact Or.inr fun x => .opening z i _ (Parties.turn_task hi r) hlead

lemma keeps_turn (h : Befriending ids σ) (hr : ∀ q ∈ σ.net.awaited z i, σ.Answered z q r) :
    ∃ ℓ : Side → Prop, ∀ x,
      (σ.net.turn z i r).Keeps x (friendly (ids x.other)) (ℓ x) () := by
  obtain ⟨ℓ, hℓ⟩ := h.keeps
  obtain ⟨ℓ', -, hz⟩ := (hℓ z).turn fun q hq => h.allowed (hr q hq)
  refine ⟨Function.update ℓ z ℓ', fun x => ?_⟩
  by_cases hx : x = z
  · subst hx
    rwa [Function.update_self]
  · rw [Function.update_of_ne hx]
    exact (hℓ x).turn_other hx i r

lemma turn_pending (h : Befriending ids σ) (hr : ∀ q ∈ σ.net.awaited z i, σ.Answered z q r)
    (hacq : Acquainted ids { σ with net := σ.net.turn z i r }) (x : Side)
    (hfalse : confirmation (ids x.other) ((σ.net.turn z i r).state x) = some false) :
    Pending ids { σ with net := σ.net.turn z i r } x ∨
      ∃ next, (σ.net.tasks z)[i]? = some (.ask (.newStream (ids z.other) .status) next) ∧
        ∀ sid, (expecting (ids z.other) sid).Leads (next (.stream sid)) := by
  rcases h.calm_turn z i r with hcalm | hpend
  · have hacq₀ : Acquainted ids σ := by
      intro w
      have hw : Knows (ids w.other) ((σ.net.turn z i r).state w) := hacq w
      by_cases hz : w = z
      · subst hz
        exact hcalm.1 hw
      · rwa [(Parties.turn_of_ne hz r).1] at hw
    have hfalse₀ : confirmation (ids x.other) (σ.net.state x) = some false := by
      by_cases hz : x = z
      · subst hz
        exact hcalm.2 hfalse
      · rwa [(Parties.turn_of_ne hz r).1] at hfalse
    exact h.pending_turn hacq₀ hr (h.pending hacq₀ x hfalse₀) hfalse
  · exact Or.inl (hpend x)

variable [DecidableEq ID] {env : Env}

/-- A stream is opened, and the other side handles it. -/
lemma opened (h : Befriending ids σ) {id : ID} {proto : Proto}
    (hq : σ.net.awaited z i = some (.newStream id proto)) :
    Befriending ids (LinkedEvent.opened env ids σ z i proto) := by
  have hr : ∀ q ∈ σ.net.awaited z i, σ.Answered z q (.stream σ.streams.length) := by
    intro q hq'
    cases hq.symm.trans hq'
    rfl
  refine ⟨?_, fun hacq x hfalse => ?_⟩
  · obtain ⟨ℓ, hℓ⟩ := h.keeps_turn hr
    refine ⟨ℓ, fun x => (hℓ x).start fun hx => ?_⟩
    rw [hx, Side.other_other]
    exact safe_handler proto _
  have htask : ∀ w (j : ℕ) (k : Code (Node ID) (Req ID) Resp),
      ((σ.net.turn z i (.stream σ.streams.length)).tasks w)[j]? = some k →
      ((LinkedEvent.opened env ids σ z i proto).net.tasks w)[j]? = some k :=
    fun w j k hj => Parties.start_task hj _
  rcases h.turn_pending hr hacq x hfalse with hpend | ⟨next, hi, hnext⟩
  · refine hpend.mono htask (fun j e he => ?_) fun _ => List.Subset.refl _
    have hlt : j < σ.streams.length := (List.getElem?_eq_some_iff.mp he).1
    exact (List.getElem?_append_left hlt).trans he
  · -- this was the stream to be opened
    have hproto : proto = .status := by
      rw [Parties.awaited, hi] at hq
      cases hq
      rfl
    have hlen : (σ.net.turn z i (.stream σ.streams.length)).tasks z.other =
        σ.net.tasks z.other := (Parties.turn_of_ne z.other_ne _).2.1
    have hhandler : ((LinkedEvent.opened env ids σ z i proto).net.tasks
        z.other)[(σ.net.tasks z.other).length]? =
          some (LinkedEvent.handler env proto (ids z) σ.streams.length) := by
      rw [← hlen]
      exact Parties.start_task_new _ _ _
    subst hproto
    by_cases hx : x = z
    · subst hx
      refine .expecting σ.streams.length i _ (htask _ i _ (Parties.turn_task hi _)) (hnext _)
        (Or.inl ⟨_, _, ?_, hhandler, replying_statusStreamHandler _⟩)
      exact List.getElem?_concat_length
    · obtain rfl := Side.eq_other hx
      refine .confirming _ _ hhandler ?_
      rw [Side.other_other]
      exact confirming_statusStreamHandler _

end

end Befriending

/-! ### Runs -/

/-- What may happen in a network of two where nobody is removed, declined or blocked. -/
def LinkedEvent.Friendly (ids : Side → ID) (σ : Linked ID) : LinkedEvent ID → Prop
  | .turn x i r => ∀ q ∈ σ.net.awaited x i, σ.Answered x q r
  | .post _ _ => True
  | .call x l => Befriends (ids x.other) l

variable [DecidableEq ID] {ids : Side → ID} {σ : Linked ID} {env : Env}

instance (ids : Side → ID) (σ : Linked ID) : ∀ e : LinkedEvent ID, Decidable (e.Friendly ids σ)
  | .turn x i r => inferInstanceAs (Decidable (∀ q ∈ σ.net.awaited x i, σ.Answered x q r))
  | .post _ _ => instDecidableTrue
  | .call x l => inferInstanceAs (Decidable (Befriends (ids x.other) l))

/-- **One event.** -/
lemma Befriending.step (h : Befriending ids σ) (hz : ∀ x, ids x ≠ zero) (e : LinkedEvent ID)
    (he : e.Friendly ids σ) : Befriending ids (e.step env ids σ) := by
  cases e with
  | turn z i r =>
    simp only [LinkedEvent.step]
    split
    · next id proto hq => exact h.opened hq
    · next hnew =>
      refine ⟨h.keeps_turn he, fun hacq x hfalse => ?_⟩
      rcases h.turn_pending he hacq x hfalse with hpend | ⟨next, hi, -⟩
      · exact hpend
      · exact (hnew _ _ (by rw [Parties.awaited, hi]; rfl)).elim
  | post x i =>
    obtain ⟨ℓ, hℓ⟩ := h.keeps
    refine ⟨⟨ℓ, fun w => (hℓ w).post i⟩, fun hacq w hfalse => ?_⟩
    exact (h.pending hacq w hfalse).mono (fun _ _ _ hj => hj) (fun _ _ he => he)
      fun w => Parties.subset_post_begun _ _ _ _
  | call x l =>
    obtain ⟨ℓ, hℓ⟩ := h.keeps
    refine ⟨⟨ℓ, fun w => (hℓ w).start fun hw => ?_⟩, fun hacq w hfalse => ?_⟩
    · subst hw
      exact safe_call (hz _) he
    · exact (h.pending hacq w hfalse).mono (fun _ _ _ hj => Parties.start_task hj _)
        (fun _ _ he => he) fun _ => List.Subset.refl _

/-- Two nodes that know and have blocked nobody, and have not begun anything. -/
structure Unfamiliar (ids : Side → ID) (σ : Linked ID) : Prop where
  valid : ∀ x, ids x ≠ zero
  tasks : ∀ x, σ.net.tasks x = []
  begun : ∀ x, σ.net.begun x = []
  known : ∀ x, (σ.net.state x).conf.knownPeers = ∅
  blocked : ∀ x, (σ.net.state x).conf.blockedPeers = ∅

omit [DecidableEq ID] in
lemma Unfamiliar.befriending (h : Unfamiliar ids σ) : Befriending ids σ := by
  refine ⟨⟨fun _ => False, fun x => ⟨⟨⟨fun k kp hk => ?_, h.blocked x⟩, False.elim⟩, ?_, ?_⟩⟩,
    fun hacq => ?_⟩
  · rw [h.known x, Finmap.lookup_empty] at hk
    cases hk
  · rw [h.tasks x]
    exact fun k hk => absurd hk List.not_mem_nil
  · rw [h.begun x]
    exact fun k hk => absurd hk List.not_mem_nil
  · have hmem := hacq .a
    rw [Knows, h.known] at hmem
    exact absurd hmem Finmap.notMem_empty

/-- At rest, nodes that know each other have confirmed each other. -/
def FriendsAtRest (ids : Side → ID) (σ : Linked ID) : Prop :=
  σ.Quiescent → Acquainted ids σ → ∀ x,
    ∃ kp, (σ.net.state x).conf.knownPeers.lookup (string (ids x.other)) = some kp ∧
      kp.confirmed = true ∧ kp.declined = false

omit [DecidableEq ID] in
lemma Befriending.atRest (h : Befriending ids σ) : FriendsAtRest ids σ := by
  intro hrest hacq x
  obtain ⟨kp, hkp⟩ := Finmap.mem_iff.mp (hacq x)
  refine ⟨kp, hkp, ?_, ((h.goal_inv hacq x).1.records _ kp hkp).2.2⟩
  have hdone : ∀ w (j : ℕ) (k : Code (Node ID) (Req ID) Resp),
      (σ.net.tasks w)[j]? = some k → k.isDone = true :=
    fun w j k hj => hrest w k (List.mem_of_getElem? hj)
  by_contra hc
  have hfalse : confirmation (ids x.other) (σ.net.state x) = some false := by
    rw [confirmation, hkp]
    simpa using hc
  -- whatever is left to do is left to a goroutine
  cases h.pending hacq x hfalse with
  | opening z j k hj hlead => exact hlead.not_isDone (hdone z j k hj)
  | confirming j k hj hlead => exact hlead.not_isDone (hdone x j k hj)
  | expecting sid j k hj hlead hreply => exact hlead.not_isDone (hdone x j k hj)

/-- **Friendship agreement**, in every state of every run. -/
theorem friends_at_rest (env : Env) (h : Unfamiliar ids σ) (es : List (LinkedEvent ID))
    (hes : Runs.Meets (LinkedEvent.step env ids) (LinkedEvent.Friendly ids) σ es) :
    Runs.Holds (LinkedEvent.step env ids) (FriendsAtRest ids) σ es :=
  Runs.holds_of_meets (fun _ e hinv he => Befriending.step hinv h.valid e he)
    (fun _ hinv => Befriending.atRest hinv) es σ h.befriending hes

section

open BootstrapPeer LinkedEvent

def twoUnfamiliar : Linked BootstrapPeer := ⟨twoFresh, []⟩

lemma twoUnfamiliar_unfamiliar : Unfamiliar names twoUnfamiliar where
  valid := twoFresh_strangers.valid
  tasks _ := rfl
  begun _ := rfl
  known _ := rfl
  blocked _ := rfl

/-- An invitation. The exchange that follows it fails, since it is not yet accepted; it is
accepted then. -/
def madeFriends : List (LinkedEvent BootstrapPeer) :=
  .call .b (.sendFriendRequest ⟨ita1.text, "friend", ""⟩) :: turns .b 0 8 ++
  turns .b 1 3 ++ .turn .b 1 (.stream 0) :: turns .b 1 1 ++
  .turn .a 0 (.auth ⟨""⟩) :: turns .a 0 5 ++
  .turn .b 1 (.authResponse ⟨false, false⟩) :: turns .b 1 3 ++
  .turn .b 1 (.stream 1) :: turns .b 1 4 ++ turns .a 1 2 ++ .turn .b 1 .error ::
  .call .a (.acceptFriend ⟨rus2.text, "friend", false, ""⟩) :: turns .a 2 9 ++
  turns .a 3 3 ++ .turn .a 3 (.stream 2) :: turns .a 3 4 ++
  turns .b 2 2 ++ .turn .b 2 (.status {}) :: turns .b 2 8 ++
  .turn .a 3 (.status {}) :: turns .a 3 4

theorem madeFriends_at_rest :
    Unfamiliar names twoUnfamiliar ∧
      (madeFriends.foldl (LinkedEvent.step sampleEnv names) twoUnfamiliar).Quiescent ∧
      Acquainted names (madeFriends.foldl (LinkedEvent.step sampleEnv names) twoUnfamiliar) ∧
      Runs.Holds (LinkedEvent.step sampleEnv names) (FriendsAtRest names) twoUnfamiliar
        madeFriends := by
  refine ⟨twoUnfamiliar_unfamiliar, fun x => ?_, fun x => ?_,
    friends_at_rest sampleEnv twoUnfamiliar_unfamiliar _ (by decide +kernel)⟩
  · cases x <;> decide +kernel
  · unfold Knows
    cases x <;> decide +kernel

end

end Awl
