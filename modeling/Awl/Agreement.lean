import Awl.FriendsSafe
import Awl.Mutual
import Awl.Permission

/-!
Two confirmed friends `a` and `b`, and the permission `a` gives `b`: when everything has come to
rest, `b` knows whether it has it.

Every change of the settings starts an exchange of its own, which carries the record as it was
written. If the record is written while something else is under way, what `b` hears last need
not be what was changed last. If nothing is, all that is said until the next change says the
same, and the exchange that follows will reach `b`.
-/

namespace Awl

open PeerCodec Permission

variable {ID : Type} [PeerCodec ID]

omit [PeerCodec ID] in
lemma Linked.quiescent_iff (σ : Linked ID) : σ.Quiescent ↔
    (∀ k ∈ σ.net.tasks .a, k.isDone = true) ∧ ∀ k ∈ σ.net.tasks .b, k.isDone = true :=
  ⟨fun h => ⟨h .a, h .b⟩, fun h x => by cases x; exacts [h.1, h.2]⟩

omit [PeerCodec ID] in
instance (σ : Linked ID) : Decidable σ.Quiescent := decidable_of_iff' _ σ.quiescent_iff

namespace LinkedEvent

/-- What may happen with working streams: any exchange, and on `a` any change of the settings, at
any time. -/
def Reliable (σ : Linked ID) : LinkedEvent ID → Prop
  | .turn x i r => ∀ q ∈ σ.net.awaited x i, σ.Answered x q r
  | .post _ _ => True
  | .call x l => l.Exchanges ∨ x = .a ∧ l.ChangesSettings

/-- Apart from the goroutine that makes the step, all have ended. -/
def Alone (σ : Linked ID) : LinkedEvent ID → Prop
  | .turn x i _ => (∀ k ∈ (σ.net.tasks x).eraseIdx i, k.isDone = true) ∧
    ∀ k ∈ σ.net.tasks x.other, k.isDone = true
  | .post _ _ => True
  | .call _ _ => True

/-- The permission is changed only while nothing else is under way. -/
def Orderly [DecidableEq ID] (env : Env) (ids : Side → ID) (σ : Linked ID) (e : LinkedEvent ID) :
    Prop :=
  e.Reliable σ ∧ (grants (ids .b) ((e.step env ids σ).net.state .a) ≠
    grants (ids .b) (σ.net.state .a) → e.Alone σ)

instance (σ : Linked ID) : ∀ e : LinkedEvent ID, Decidable (e.Reliable σ)
  | .turn x i r => inferInstanceAs (Decidable (∀ q ∈ σ.net.awaited x i, σ.Answered x q r))
  | .post _ _ => instDecidableTrue
  | .call x l => inferInstanceAs (Decidable (l.Exchanges ∨ x = .a ∧ l.ChangesSettings))

instance (σ : Linked ID) : ∀ e : LinkedEvent ID, Decidable (e.Alone σ)
  | .turn x i _ => inferInstanceAs (Decidable ((∀ k ∈ (σ.net.tasks x).eraseIdx i, _) ∧ _))
  | .post _ _ => instDecidableTrue
  | .call _ _ => instDecidableTrue

instance [DecidableEq ID] (env : Env) (ids : Side → ID) (σ : Linked ID) (e : LinkedEvent ID) :
    Decidable (e.Orderly env ids σ) :=
  inferInstanceAs (Decidable (_ ∧ (_ → _)))

end LinkedEvent

/-! ### A goroutine that changes the settings -/

/-- The record has been written, with the permission `v`, and an exchange follows. -/
structure Changed (y : ID) (v : Bool) (s : Node ID) (k : Code (Node ID) (Req ID) Resp) : Prop where
  friendly : Friendly y s
  permits : grants y s = some v
  opens : (opening y).Leads k
  safe : ∀ N w g, (permitting y N v w).Safe k () g

/-- A goroutine that may write the record once, and does nothing else before. -/
def Changing (y : ID) : Code (Node ID) (Req ID) Resp → Prop
  | .done => True
  | .act upd next => ∀ s, Friendly y s →
    (upd s = s ∧ Changing y (next s)) ∨ ∃ v, Changed y v (upd s) (next s)
  | .ask _ _ => False
  | .fork _ _ => False

lemma Changing.waiting {y : ID} {k : Code (Node ID) (Req ID) Resp} (h : Changing y k) :
    k.waiting = none := by
  cases k with
  | ask q next => exact h.elim
  | _ => rfl

lemma changing_read {y : ID} {next : Node ID → Code (Node ID) (Req ID) Resp}
    (h : ∀ s, Friendly y s → Changing y (next s)) : Changing y (.act id next) :=
  fun s hs => Or.inl ⟨rfl, h s hs⟩

lemma changing_updatePeerSettings [DecidableEq ID] {env : Env} {y : ID} (hz : y ≠ zero)
    (req : UpdatePeerSettingsRequest) :
    Changing y (Api.updatePeerSettings env req : Prog ID Answer).code := by
  simp only [Go.code, Api.updatePeerSettings, Go.ite_apply, Go.pure_apply]
  split
  · trivial
  split
  · trivial
  refine changing_read fun s hs => ?_
  dsimp only
  rcases hk : s.conf.getPeer req.peerID with _ | kp
  · trivial
  obtain ⟨-, hid, hd⟩ := hs.records _ kp hk
  have hy : kp.peerId = y := by
    rw [KnownPeer.peerId, hid, decode_string y hz, Option.getD_some]
  refine changing_read fun s₂ _ => ?_
  simp only [Go.ite_apply, Go.pure_apply]
  split
  · trivial
  intro s₃ hs₃
  simp only [Go.ite_apply, Go.pure_apply, hy]
  by_cases hip : s₃.conf.checkIPUnique req.ipAddr kp.peerID = .ok
  · simp only [hip, if_true, ne_eq, not_true_eq_false, if_false]
    obtain ⟨hid', hd', -⟩ := Api.withSettings_kept kp req
    refine Or.inr ⟨req.allowUsingAsExitNode, hs₃.upsertPeer (hid'.trans hid) (hd'.trans hd),
      grants_upsertPeer (hid'.trans hid), Or.inl ⟨trivial, ?_⟩, fun N w g => ⟨?_, safe_done⟩⟩
    · exact Friends.opening_exchange _
    · exact safe_exchange (k := fun _ => .done) safe_done rfl
  · simp only [hip, if_false, ne_eq, not_false_eq_true, if_true]
    exact Or.inl ⟨trivial, trivial⟩

/-! ### What is under way -/

/-- What is left to do that will bring `b` the permission `v`. -/
inductive Underway (ids : Side → ID) (N : ℕ) (v : Bool) (σ : Linked ID) : Prop
  | opening (j : ℕ) (k : Code (Node ID) (Req ID) Resp) (hj : (σ.net.tasks .a)[j]? = some k)
      (h : (opening (ids .b)).Leads k)
  | taking (j : ℕ) (k : Code (Node ID) (Req ID) Resp) (hj : (σ.net.tasks .b)[j]? = some k)
      (h : (taking (ids .a) N v).Leads k)

/-- The goroutines that are about to change the permission. -/
def Exempt (ids : Side → ID) (x : Side) (k : Code (Node ID) (Req ID) Resp) : Prop :=
  x = .a ∧ Changing (ids .b) k

/-- Since the last change, when `N` streams had been opened, each side gives the permission
`v x`, and `b` knows so or is going to. -/
structure Agreeing (ids : Side → ID) (N : ℕ) (v : Side → Bool) (σ : Linked ID) : Prop where
  le : N ≤ σ.streams.length
  keeps : ∀ x, σ.net.KeepsBut (Exempt ids x) x (permitting (ids x.other) N (v x) (v x.other)) ()
    σ.streams.length
  known : granted (ids .a) (σ.net.state .b) = some (v .a) ∨ Underway ids N (v .a) σ

lemma Underway.mono {ids : Side → ID} {N : ℕ} {v : Bool} {σ σ' : Linked ID}
    (h : Underway ids N v σ)
    (ht : ∀ z (j : ℕ) (k : Code (Node ID) (Req ID) Resp), (σ.net.tasks z)[j]? = some k →
      (σ'.net.tasks z)[j]? = some k) : Underway ids N v σ' := by
  cases h with
  | opening j k hj h => exact .opening j k (ht .a j k hj) h
  | taking j k hj h => exact .taking j k (ht .b j k hj) h

namespace Agreeing

variable {ids : Side → ID} {N : ℕ} {v : Side → Bool} {σ : Linked ID}

/-- What is received was sent: the permission the other side gives, if it was sent since the
last change. -/
lemma delivered (h : Agreeing ids N v σ) {x : Side} {stream : Stream ID} {q' : Req ID} {r : Resp}
    (hq' : q' ∈ σ.net.begun x.other) (hd : delivery (.receiveStatus stream) q' = some r) :
    ∃ info : PeerStatusInfo, info.declined = false ∧ r = .status info ∧
      (N ≤ stream.sid → info.allowUsingAsExitNode = v x.other) := by
  have howed := (h.keeps x.other).begun q' hq'
  cases q' with
  | sendStatus stream' info =>
    simp only [delivery] at hd
    split_ifs at hd with hfaces
    cases hd
    exact ⟨info, howed.2.1, rfl, fun hN => howed.2.2 (hfaces.1 ▸ hN)⟩
  | _ => cases hd

/-- The answers of the network are as the terms allow them, once the stream that is opened is
counted. -/
lemma allowed (h : Agreeing ids N v σ) {x : Side} {q : Req ID} {r : Resp} {g : ℕ}
    (hg : ∀ id proto, q = .newStream id proto → σ.streams.length < g) (hr : σ.Answered x q r) :
    (permitting (ids x.other) N (v x) (v x.other)).allowed g q r := by
  cases q with
  | newStream id proto =>
    cases hr
    exact ⟨h.le, hg id proto rfl⟩
  | receiveStatus stream =>
    rcases hr with ⟨q', hq', hd⟩ | ⟨-, rfl, -⟩
    · obtain ⟨info, hdecl, rfl, hinfo⟩ := h.delivered hq' hd
      exact ⟨hdecl, hinfo⟩
    · trivial
  | receiveAuthResponse stream =>
    rcases hr with ⟨q', hq', hd⟩ | ⟨-, rfl, -⟩
    · have howed := (h.keeps x.other).begun q' hq'
      cases q' with
      | sendAuthResponse stream' response =>
        simp only [delivery] at hd
        split_ifs at hd
        cases hd
        exact howed
      | _ => cases hd
    · trivial
  | _ => trivial

/-- The answers of the network are those the goals expect. -/
lemma friendlyAnswer (h : Agreeing ids N v σ) {x : Side} {q : Req ID} {r : Resp}
    (hr : σ.Answered x q r) : FriendlyAnswer q r := by
  cases q with
  | newStream id proto => exact ⟨_, hr⟩
  | receiveStatus stream =>
    intro hin
    rcases hr with ⟨q', hq', hd⟩ | ⟨hout, -⟩
    · obtain ⟨info, hdecl, rfl, -⟩ := h.delivered hq' hd
      exact ⟨info, hdecl, rfl⟩
    · rw [hout] at hin
      cases hin
  | connectPeer id => exact hr
  | sendStatus stream info => exact hr
  | sendAuth stream authPeer => exact hr
  | sendAuthResponse stream response => exact hr
  | receiveAuth stream => trivial
  | receiveAuthResponse stream => trivial

lemma takingAnswer (h : Agreeing ids N v σ) {q : Req ID} {r : Resp} (hr : σ.Answered .b q r) :
    (taking (ids .a) N (v .a)).answers q r := by
  cases q with
  | receiveStatus stream =>
    intro hin
    rcases hr with ⟨q', hq', hd⟩ | ⟨hout, -⟩
    · exact h.delivered hq' hd
    · rw [hout] at hin
      cases hin
  | _ => trivial

lemma goal_inv (h : Agreeing ids N v σ) (x : Side) :
    Friendly (ids x.other) (σ.net.state x) ∧ Knows (ids x.other) (σ.net.state x) := by
  obtain ⟨hfriendly, hgrants⟩ := (h.keeps x).inv
  obtain ⟨kp, hkp, -⟩ := grants_eq_some hgrants
  exact ⟨hfriendly, Finmap.mem_of_lookup_eq_some hkp⟩

/-! ### One step of a goroutine -/

section

variable {z : Side} {i : ℕ} {r : Resp}

/-- The goroutine that makes a step is a safe one. -/
lemma keeps_turn (h : Agreeing ids N v σ)
    (hsafe : ∀ k, (σ.net.tasks z)[i]? = some k →
      (permitting (ids z.other) N (v z) (v z.other)).Safe k () σ.streams.length)
    (hr : ∀ q ∈ σ.net.awaited z i, σ.Answered z q r) {g : ℕ} (hle : σ.streams.length ≤ g)
    (hg : ∀ id proto, σ.net.awaited z i = some (.newStream id proto) → σ.streams.length < g)
    (x : Side) :
    (σ.net.turn z i r).KeepsBut (Exempt ids x) x
      (permitting (ids x.other) N (v x) (v x.other)) () g := by
  have hmono := (h.keeps x).mono hle
  by_cases hx : x = z
  · subst hx
    obtain ⟨ℓ, -, hkeeps⟩ := hmono.turn (i := i) (r := r)
      (fun k hk => (hsafe k hk).mono (le_refl ()) hle) fun q hq =>
        h.allowed (fun id proto he => hg id proto (he ▸ hq)) (hr q hq)
    exact hkeeps
  · exact hmono.turn_other hx i r

/-- What was left to do is still left or done, unless the stream is opened in this step. -/
lemma known_turn (h : Agreeing ids N v σ) (hr : ∀ q ∈ σ.net.awaited z i, σ.Answered z q r) :
    (granted (ids .a) ((σ.net.turn z i r).state .b) = some (v .a) ∨
      Underway ids N (v .a) { σ with net := σ.net.turn z i r }) ∨
    (z = .a ∧ ∃ next, (σ.net.tasks .a)[i]? = some (.ask (.newStream (ids .b) .status) next)) := by
  rcases h.known with hknown | hunder
  · refine Or.inl (Or.inl ?_)
    cases z with
    | a => rwa [(Parties.turn_of_ne (by decide) r).1]
    | b =>
      rcases hi : (σ.net.tasks .b)[i]? with _ | k
      · rwa [Parties.turn_none hi]
      · rw [Parties.turn_state hi]
        have hsafe := ((h.keeps .b).tasks k (List.mem_of_getElem? hi)).resolve_right
          fun hno => nomatch hno.1
        rcases hsafe.guar_turn (h.keeps .b).inv r with he | he
        · exact he.trans hknown
        · exact he
  · cases hunder with
    | opening j k hj hlead =>
      cases z with
      | a =>
        rcases hlead.at_turn hj (h.goal_inv .a) fun q hq => h.friendlyAnswer (hr q hq) with
          hmade | ⟨rfl, q, next, rfl, rfl, -⟩ | ⟨k', hk', hlead'⟩ | ⟨-, j', k', hk', hlead'⟩
        · exact hmade.elim
        · exact Or.inr ⟨rfl, next, hj⟩
        · exact Or.inl (Or.inr (.opening j k' hk' hlead'))
        · exact Or.inl (Or.inr (.opening j' k' hk' hlead'))
      | b =>
        refine Or.inl (Or.inr (.opening j k ?_ hlead))
        change ((σ.net.turn .b i r).tasks .a)[j]? = some k
        rw [(Parties.turn_of_ne (by decide) r).2.1, hj]
    | taking j k hj hlead =>
      left
      cases z with
      | a =>
        refine Or.inr (.taking j k ?_ hlead)
        change ((σ.net.turn .a i r).tasks .b)[j]? = some k
        rw [(Parties.turn_of_ne (by decide) r).2.1, hj]
      | b =>
        rcases hlead.at_turn hj (h.goal_inv .b) fun q hq => h.takingAnswer (hr q hq) with
          hmade | ⟨-, q, next, -, hwaits⟩ | ⟨k', hk', hlead'⟩ | ⟨hoff, -⟩
        · exact Or.inl hmade
        · exact hwaits.elim
        · exact Or.inr (.taking j k' hk' hlead')
        · exact hoff.elim

variable [DecidableEq ID] {env : Env}

/-- A stream is opened, and the other side handles it. -/
lemma opened (h : Agreeing ids N v σ) {id : ID} {proto : Proto}
    (hq : σ.net.awaited z i = some (.newStream id proto)) :
    Agreeing ids N v (LinkedEvent.opened env ids σ z i proto) := by
  have hlen : (LinkedEvent.opened env ids σ z i proto).streams.length = σ.streams.length + 1 := by
    simp [LinkedEvent.opened]
  have hr : ∀ q ∈ σ.net.awaited z i, σ.Answered z q (.stream σ.streams.length) := by
    intro q hq'
    cases hq.symm.trans hq'
    rfl
  have hsafe : ∀ k, (σ.net.tasks z)[i]? = some k →
      (permitting (ids z.other) N (v z) (v z.other)).Safe k () σ.streams.length := by
    refine fun k hk => ((h.keeps z).tasks k (List.mem_of_getElem? hk)).resolve_right fun hno => ?_
    rw [Parties.awaited, hk, Option.bind_some, hno.2.waiting] at hq
    cases hq
  have htask : ∀ w (j : ℕ) (k : Code (Node ID) (Req ID) Resp),
      ((σ.net.turn z i (.stream σ.streams.length)).tasks w)[j]? = some k →
      ((LinkedEvent.opened env ids σ z i proto).net.tasks w)[j]? = some k :=
    fun w j k hj => Parties.start_task hj _
  refine ⟨by rw [hlen]; exact h.le.trans (Nat.le_succ _), fun x => ?_, ?_⟩
  · rw [hlen]
    refine (h.keeps_turn hsafe hr (Nat.le_succ _) (fun _ _ _ => Nat.lt_succ_self _) x).start
      fun hx => Or.inl ?_
    rw [hx, Side.other_other]
    cases proto with
    | auth => exact safe_authStreamHandler _
    | status => exact safe_statusStreamHandler h.le (Nat.lt_succ_self _)
  · rcases h.known_turn hr with (hknown | hunder) | ⟨rfl, next, hi⟩
    · exact Or.inl hknown
    · exact Or.inr (hunder.mono htask)
    · -- this was the stream to be opened
      have hproto : proto = .status := by
        rw [Parties.awaited, hi] at hq
        cases hq
        rfl
      subst hproto
      refine Or.inr (.taking _ _ (Parties.start_task_new _ _ _) ?_)
      exact taking_statusStreamHandler h.le

end

/-! ### A change of the settings -/

/-- What has been sent so far was sent on streams that have been opened so far. -/
lemma owed_so_far (h : Agreeing ids N v σ) {x : Side} {q : Req ID} (hq : q ∈ σ.net.begun x)
    {p p' : Bool} :
    (permitting (ids x.other) σ.streams.length p p').owed () σ.streams.length q := by
  have howed := (h.keeps x).begun q hq
  cases q with
  | sendStatus stream info =>
    exact ⟨howed.1, howed.2.1, fun hN => absurd howed.1 (Nat.not_lt.mpr hN)⟩
  | sendAuthResponse stream response => exact howed
  | _ => trivial

/-- The record is written while nothing else is under way: a new period begins. -/
lemma changed (h : Agreeing ids N v σ) {i : ℕ} {upd : Node ID → Node ID}
    {next : Node ID → Code (Node ID) (Req ID) Resp} {w : Bool} {r : Resp}
    (hi : (σ.net.tasks .a)[i]? = some (.act upd next))
    (hchanged : Changed (ids .b) w (upd (σ.net.state .a)) (next (σ.net.state .a)))
    (halone : (LinkedEvent.turn .a i r : LinkedEvent ID).Alone σ) :
    Agreeing ids σ.streams.length (Function.update v .a w)
      { σ with net := σ.net.turn .a i r } := by
  have hlt : i < (σ.net.tasks .a).length := (List.getElem?_eq_some_iff.mp hi).1
  refine ⟨le_refl _, fun x => ?_, Or.inr ?_⟩
  · cases x with
    | a =>
      refine ⟨?_, fun k hk => Or.inl ?_, fun q hq => ?_⟩
      · rw [Parties.turn_state hi]
        exact ⟨hchanged.friendly, hchanged.permits⟩
      · -- the goroutine that has written, or one that has ended
        rw [Parties.turn_tasks hi, Code.turn, List.append_nil,
          List.set_eq_take_append_cons_drop, if_pos hlt] at hk
        have hothers := halone.1
        rw [List.eraseIdx_eq_take_drop_succ] at hothers
        rcases List.mem_append.mp hk with hk | hk
        · exact Contract.safe_of_isDone (hothers k (List.mem_append_left _ hk))
        · rcases List.mem_cons.mp hk with rfl | hk
          · exact hchanged.safe _ _ _
          · exact Contract.safe_of_isDone (hothers k (List.mem_append_right _ hk))
      · rw [Parties.turn_begun hi] at hq
        exact h.owed_so_far hq
    | b =>
      obtain ⟨hs, ht, hb⟩ := Parties.turn_of_ne (σ := σ.net) (i := i) (Side.other_ne .a) r
      refine ⟨?_, fun k hk => Or.inl ?_, fun q hq => ?_⟩
      · rw [show (Side.b) = Side.a.other from rfl, hs]
        exact (h.keeps .b).inv
      · exact Contract.safe_of_isDone (halone.2 k (ht ▸ hk))
      · exact h.owed_so_far (x := .b) (hb ▸ hq)
  · exact .opening i _ (Parties.turn_task hi r) hchanged.opens

/-- A goroutine that is about to change the permission makes a step and does not change it. -/
lemma unchanged (h : Agreeing ids N v σ) {i : ℕ} {k : Code (Node ID) (Req ID) Resp} {r : Resp}
    (hi : (σ.net.tasks .a)[i]? = some k) (hwait : k.waiting = none)
    (hinv : (permitting (ids .b) N (v .a) (v .b)).inv () σ.streams.length
      (k.turn (σ.net.state .a) r).1)
    (hnext : (permitting (ids .b) N (v .a) (v .b)).Safe (k.turn (σ.net.state .a) r).2.1 ()
      σ.streams.length ∨ Exempt ids .a (k.turn (σ.net.state .a) r).2.1)
    (hstarted : (k.turn (σ.net.state .a) r).2.2 = []) :
    Agreeing ids N v { σ with net := σ.net.turn .a i r } := by
  have hawaited : σ.net.awaited .a i = none := by
    rw [Parties.awaited, hi, Option.bind_some, hwait]
  refine ⟨h.le, fun x => ?_, ?_⟩
  · cases x with
    | a =>
      refine (h.keeps .a).turn_of hi (le_refl ()) hinv hnext (fun c hc => ?_) fun q hq => ?_
      · rw [hstarted] at hc
        cases hc
      · rw [hwait] at hq
        cases hq
    | b => exact (h.keeps .b).turn_other (by decide) i r
  · rcases h.known_turn (z := .a) (i := i) (r := r) (by simp [hawaited]) with
      hknown | ⟨-, next, hask⟩
    · exact hknown
    · cases hi.symm.trans hask
      cases hwait

lemma turn_changing (h : Agreeing ids N v σ) {i : ℕ} {k : Code (Node ID) (Req ID) Resp} {r : Resp}
    (hi : (σ.net.tasks .a)[i]? = some k) (hk : Changing (ids .b) k)
    (halone : grants (ids .b) ((σ.net.turn .a i r).state .a) ≠ grants (ids .b) (σ.net.state .a) →
      (LinkedEvent.turn .a i r : LinkedEvent ID).Alone σ) :
    ∃ N' v', Agreeing ids N' v' { σ with net := σ.net.turn .a i r } := by
  have hinv : Friendly (ids .b) (σ.net.state .a) ∧ grants (ids .b) (σ.net.state .a) = some (v .a) :=
    (h.keeps .a).inv
  cases k with
  | done => exact ⟨N, v, h.unchanged hi rfl hinv (Or.inl safe_done) rfl⟩
  | act upd next =>
    rcases hk _ hinv.1 with ⟨hsame, hnext⟩ | ⟨w, hchanged⟩
    · refine ⟨N, v, h.unchanged hi rfl ?_ (Or.inr ⟨rfl, hnext⟩) rfl⟩
      rw [Code.turn, hsame]
      exact hinv
    · by_cases hw : w = v .a
      · subst hw
        exact ⟨N, v, h.unchanged hi rfl ⟨hchanged.friendly, hchanged.permits⟩
          (Or.inl (hchanged.safe _ _ _)) rfl⟩
      · refine ⟨_, _, h.changed hi hchanged (halone ?_)⟩
        rw [Parties.turn_state hi, hinv.2, Code.turn, hchanged.permits]
        exact fun he => hw (Option.some.inj he)
  | ask q next => exact hk.elim
  | fork child next => exact hk.elim

variable [DecidableEq ID] {env : Env}

/-- **One event.** -/
lemma step (h : Agreeing ids N v σ) (hz : ∀ x, ids x ≠ zero) (e : LinkedEvent ID)
    (he : e.Orderly env ids σ) : ∃ N' v', Agreeing ids N' v' (e.step env ids σ) := by
  obtain ⟨hrel, halone⟩ := he
  cases e with
  | turn z i r =>
    by_cases hchanging : ∃ k, (σ.net.tasks z)[i]? = some k ∧ Exempt ids z k
    · obtain ⟨k, hi, rfl, hk⟩ := hchanging
      have hstep : (LinkedEvent.turn .a i r).step env ids σ =
          { σ with net := σ.net.turn .a i r } := by
        simp only [LinkedEvent.step, Parties.awaited, hi, Option.bind_some, hk.waiting]
      rw [hstep] at halone ⊢
      exact h.turn_changing hi hk halone
    · refine ⟨N, v, ?_⟩
      have hsafe : ∀ k, (σ.net.tasks z)[i]? = some k →
          (permitting (ids z.other) N (v z) (v z.other)).Safe k () σ.streams.length := fun k hk =>
        ((h.keeps z).tasks k (List.mem_of_getElem? hk)).resolve_right fun hex =>
          hchanging ⟨k, hk, hex⟩
      simp only [LinkedEvent.step]
      split
      · next id proto hq => exact h.opened hq
      · next hnew =>
        refine ⟨h.le, fun x => h.keeps_turn hsafe hrel (le_refl _) (fun id proto hq => ?_) x, ?_⟩
        · exact (hnew _ _ hq).elim
        · rcases h.known_turn hrel with hknown | ⟨rfl, next, hi⟩
          · exact hknown
          · exact (hnew _ _ (by rw [Parties.awaited, hi]; rfl)).elim
  | post x i =>
    refine ⟨N, v, h.le, fun z => (h.keeps z).post (fun k hk => hk.2.waiting) i,
      h.known.imp id fun hunder => ?_⟩
    exact hunder.mono fun _ _ _ hj => hj
  | call x l =>
    refine ⟨N, v, h.le, fun z => (h.keeps z).start fun hw => ?_, h.known.imp id fun hunder => ?_⟩
    · rcases hrel with hl | ⟨rfl, hl⟩
      · exact Or.inl (safe_call (hz _) hl)
      · cases l with
        | updatePeerSettings req => exact Or.inr ⟨hw, changing_updatePeerSettings (hz .b) req⟩
        | _ => exact hl.elim
    · exact hunder.mono fun _ _ _ hj => Parties.start_task hj _

end Agreeing

/-! ### Runs -/

/-- Two friends that have confirmed each other, at rest, of whom `b` knows the permission `a`
gives it. -/
structure ConfirmedFriends (ids : Side → ID) (σ : Linked ID) : Prop where
  valid : ∀ x, ids x ≠ zero
  tasks : ∀ x, σ.net.tasks x = []
  begun : ∀ x, σ.net.begun x = []
  friendly : ∀ x, Friendly (ids x.other) (σ.net.state x)
  confirmed : ∀ x, confirmation (ids x.other) (σ.net.state x) = some true
  agree : granted (ids .a) (σ.net.state .b) = grants (ids .b) (σ.net.state .a)

/-- At rest, `b` knows the permission `a` gives it. -/
def AgreedAtRest (ids : Side → ID) (σ : Linked ID) : Prop :=
  σ.Quiescent → granted (ids .a) (σ.net.state .b) = grants (ids .b) (σ.net.state .a)

variable {ids : Side → ID} {σ : Linked ID}

lemma ConfirmedFriends.agreeing (h : ConfirmedFriends ids σ) : ∃ N v, Agreeing ids N v σ := by
  have hgrants : ∀ x, ∃ v, grants (ids x.other) (σ.net.state x) = some v := by
    intro x
    obtain ⟨kp, hkp, -⟩ := Option.map_eq_some_iff.mp (h.confirmed x)
    exact ⟨kp.weAllowUsingAsExitNode, by rw [grants, hkp, Option.map_some]⟩
  choose v hv using hgrants
  refine ⟨0, v, Nat.zero_le _, fun x => ⟨⟨h.friendly x, hv x⟩, ?_, ?_⟩, Or.inl ?_⟩
  · rw [h.tasks x]
    exact fun k hk => absurd hk List.not_mem_nil
  · rw [h.begun x]
    exact fun k hk => absurd hk List.not_mem_nil
  · exact h.agree.trans (hv .a)

lemma Agreeing.atRest {N : ℕ} {v : Side → Bool} (h : Agreeing ids N v σ) : AgreedAtRest ids σ := by
  intro hrest
  have hgrants : grants (ids .b) (σ.net.state .a) = some (v .a) := (h.keeps .a).inv.2
  rcases h.known with hknown | hunder
  · exact hknown.trans hgrants.symm
  · exfalso
    cases hunder with
    | opening j k hj hlead => exact hlead.not_isDone (hrest _ k (List.mem_of_getElem? hj))
    | taking j k hj hlead => exact hlead.not_isDone (hrest _ k (List.mem_of_getElem? hj))

/-- **Agreement on the permission**, in every state of every run that changes it only while
nothing else is under way. -/
theorem agreed_at_rest [DecidableEq ID] (env : Env) (h : ConfirmedFriends ids σ)
    (es : List (LinkedEvent ID))
    (hes : Runs.Meets (LinkedEvent.step env ids) (fun σ e => e.Orderly env ids σ) σ es) :
    Runs.Holds (LinkedEvent.step env ids) (AgreedAtRest ids) σ es :=
  Runs.holds_of_meets (I := fun σ => ∃ N v, Agreeing ids N v σ)
    (fun _ e ⟨_, _, hinv⟩ he => hinv.step h.valid e he) (fun _ ⟨_, _, hinv⟩ => hinv.atRest) es σ
    h.agreeing hes

section

open BootstrapPeer LinkedEvent

/-- A node with one friend. -/
def befriended (y : BootstrapPeer) : Node BootstrapPeer :=
  { freshNode with
    conf := { freshNode.conf with
      knownPeers := (∅ : GoMap String KnownPeer).insert y.text
        { peerID := y.text, peerAlias := "friend", ipAddr := "10.66.0.2", confirmed := true } } }

def twoFriends : Linked BootstrapPeer where
  net :=
    { state := fun x => befriended (names x.other), tasks := fun _ => [], begun := fun _ => [] }
  streams := []

def settings (allow : Bool) : UpdatePeerSettingsRequest :=
  ⟨rus2.text, "friend", "friend", "10.66.0.2", allow⟩

lemma twoFriends_confirmed : ConfirmedFriends names twoFriends where
  valid := twoFresh_strangers.valid
  tasks _ := rfl
  begun _ := rfl
  friendly x := by
    refine ⟨fun k kp hk => ?_, rfl⟩
    have hlook := GoMap.lookup_insert_ite (∅ : GoMap String KnownPeer) (names x.other).text k
      { peerID := (names x.other).text, peerAlias := "friend", ipAddr := "10.66.0.2",
        confirmed := true }
    have hk' := hlook.symm.trans hk
    split_ifs at hk' with he
    · cases hk'
      exact ⟨he, rfl, rfl⟩
    · cases hk'
  confirmed x := by cases x <;> decide +kernel
  agree := by decide +kernel

/-- The settings are changed on `a`, by its `i`-th goroutine: three critical sections, and the
exchange is started. -/
def changes (i : ℕ) (allow : Bool) : List (LinkedEvent BootstrapPeer) :=
  .call .a (.updatePeerSettings (settings allow)) :: turns .a i 4

/-- A goroutine of `a` sends the status on a new stream. -/
def sends (i sid : ℕ) : List (LinkedEvent BootstrapPeer) :=
  turns .a i 2 ++ .turn .a i (.stream sid) :: turns .a i 4

/-- A handler of `b` receives the status, and answers. -/
def takes (i : ℕ) (allow : Bool) : List (LinkedEvent BootstrapPeer) :=
  turns .b i 2 ++ .turn .b i (.status { allowUsingAsExitNode := allow }) :: turns .b i 8

/-- The answer arrives, with the exit node `b` has selected. -/
def hears (i : ℕ) (selected : String) : List (LinkedEvent BootstrapPeer) :=
  .turn .a i (.status { usingPeerID := selected }) :: turns .a i 4

/-- The permission is given and withdrawn, and `b` handles the second stream first. -/
def overtaken : List (LinkedEvent BootstrapPeer) :=
  changes 0 true ++ changes 2 false ++ sends 1 0 ++ sends 3 1 ++ takes 1 false ++ takes 0 true ++
    hears 1 "" ++ hears 3 ""

theorem overtaken_disagrees :
    ConfirmedFriends names twoFriends ∧
      Runs.Meets (LinkedEvent.step sampleEnv names) (fun σ e => e.Reliable σ)
        twoFriends overtaken ∧
      ¬ Runs.Holds (LinkedEvent.step sampleEnv names) (AgreedAtRest names)
        twoFriends overtaken := by
  refine ⟨twoFriends_confirmed, by decide +kernel, fun h => ?_⟩
  have hlast := h.last (by decide +kernel)
  have hne : ¬ granted (names .a)
        ((overtaken.foldl (LinkedEvent.step sampleEnv names) twoFriends).net.state .b) =
      grants (names .b)
        ((overtaken.foldl (LinkedEvent.step sampleEnv names) twoFriends).net.state .a) := by
    decide +kernel
  exact hne hlast

/-- The permission is given, and `b` hears of it. -/
def given : List (LinkedEvent BootstrapPeer) :=
  changes 0 true ++ sends 1 0 ++ takes 0 true ++ hears 1 ""

/-- The same changes, each of them when the exchange before it is over. -/
def settled : List (LinkedEvent BootstrapPeer) :=
  given ++ changes 2 false ++ sends 3 1 ++ takes 1 false ++ hears 3 ita1.text

/-- After both changes everything is at rest, and `b` has heard of each. -/
theorem settled_agrees :
    ConfirmedFriends names twoFriends ∧
      Runs.Holds (LinkedEvent.step sampleEnv names) (AgreedAtRest names) twoFriends settled ∧
      [given, settled].map (fun es =>
        let σ := es.foldl (LinkedEvent.step sampleEnv names) twoFriends
        (decide σ.Quiescent, granted (names .a) (σ.net.state .b))) =
        [(true, some true), (true, some false)] :=
  ⟨twoFriends_confirmed, agreed_at_rest sampleEnv twoFriends_confirmed settled (by decide +kernel),
    by decide +kernel⟩

end

end Awl
