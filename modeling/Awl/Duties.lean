import Awl.Leads

/-!
Duties of a party, which its goroutines hand to one another.

Something may become due in a critical section; the goroutine that makes it due then leads to its
being met. From there on it stays met, so a goroutine that acts on what it has read long ago does no
harm: what it finds due was due already. When nothing is left to run, what is due is met.
-/

namespace Awl

structure Duty (S Q R : Type) where
  inv : S → Prop
  /-- the answers that are expected -/
  answers : Q → R → Prop
  due : S → Prop
  met : S → Prop

namespace Duty

variable {S Q R : Type}

/-- To meet the duty, possibly in a goroutine that is started on the way. -/
def goal (D : Duty S Q R) : Goal S Q R where
  inv := D.inv
  answers := D.answers
  made := D.met
  waits _ _ := False
  handoff := True

/-- The goroutine never takes back that the duty is met, and where it makes the duty due, it goes on
to meet it. It may rely on `known`: that the duty has been due before. -/
def Minds (D : Duty S Q R) : Code S Q R → Prop → Prop
  | .done, _ => True
  | .act upd next, known => ∀ s, D.inv s →
    D.inv (upd s) ∧ (D.met s → D.met (upd s)) ∧
      ∀ known' : Prop, (known → known') → (D.due s → known') →
        ((D.due (upd s) → known') ∧ D.Minds (next s) known') ∨
          (D.goal.Leads (next s) ∧ D.Minds (next s) True)
  | .ask q next, known => ∀ r, D.answers q r → D.Minds (next r) known
  | .fork child next, known => D.Minds child known ∧ D.Minds next known

variable {D : Duty S Q R} {known known' : Prop}

lemma Minds.mono {k : Code S Q R} (h : D.Minds k known) (hk : known → known') :
    D.Minds k known' := by
  induction k with
  | done => trivial
  | act upd next _ =>
    intro s hs
    obtain ⟨hinv, hmet, hnext⟩ := h s hs
    exact ⟨hinv, hmet, fun known'' hk' => hnext known'' fun hknown => hk' (hk hknown)⟩
  | ask q next ih => exact fun r hr => ih r (h r hr)
  | fork child next ihc ihn => exact ⟨ihc h.1, ihn h.2⟩

lemma minds_done : D.Minds .done known := trivial

lemma minds_of_isDone {k : Code S Q R} (h : k.isDone = true) : D.Minds k known := by
  rw [Code.eq_done_of_isDone h]
  trivial

/-- A critical section that only reads; what it reads may show that the duty is due. -/
lemma minds_read {next : S → Code S Q R}
    (h : ∀ s, D.inv s → D.Minds (next s) (known ∨ D.due s)) :
    D.Minds (.act id next) known :=
  fun s hs => ⟨hs, fun hmet => hmet, fun _ hk hdue =>
    Or.inl ⟨hdue, (h s hs).mono fun hor => hor.elim hk hdue⟩⟩

/-- A critical section that does not make the duty due. -/
lemma minds_act {upd : S → S} {next : S → Code S Q R}
    (hinv : ∀ s, D.inv s → D.inv (upd s)) (hmet : ∀ s, D.met s → D.met (upd s))
    (hdue : ∀ s, D.inv s → D.due (upd s) → known ∨ D.due s)
    (h : ∀ s, D.inv s → D.Minds (next s) known) : D.Minds (.act upd next) known :=
  fun s hs => ⟨hinv s hs, hmet s, fun _ hk hdue' =>
    Or.inl ⟨fun hd => (hdue s hs hd).elim hk hdue', (h s hs).mono hk⟩⟩

/-- A critical section after which the goroutine meets the duty. -/
lemma minds_lead {upd : S → S} {next : S → Code S Q R}
    (hinv : ∀ s, D.inv s → D.inv (upd s)) (hmet : ∀ s, D.met s → D.met (upd s))
    (hlead : ∀ s, D.inv s → D.goal.Leads (next s))
    (h : ∀ s, D.inv s → D.Minds (next s) True) : D.Minds (.act upd next) known :=
  fun s hs => ⟨hinv s hs, hmet s, fun _ _ _ => Or.inr ⟨hlead s hs, h s hs⟩⟩

/-- **One step**: the duty becomes due only if the goroutine goes on to meet it. -/
lemma Minds.turn {k : Code S Q R} (h : D.Minds k known) {s : S} (hs : D.inv s)
    (hdue : D.due s → known) {r : R} (hr : ∀ q ∈ k.waiting, D.answers q r) :
    D.inv (k.turn s r).1 ∧ (D.met s → D.met (k.turn s r).1) ∧
      ∃ known' : Prop, (known → known') ∧ (D.due (k.turn s r).1 → known') ∧
        (known' → known ∨ D.goal.Leads (k.turn s r).2.1) ∧
        D.Minds (k.turn s r).2.1 known' ∧ ∀ c ∈ (k.turn s r).2.2, D.Minds c known' := by
  cases k with
  | done =>
    exact ⟨hs, fun hmet => hmet, known, fun hk => hk, hdue, Or.inl, trivial, by simp [Code.turn]⟩
  | act upd next =>
    obtain ⟨hinv, hmet, hnext⟩ := h s hs
    refine ⟨hinv, hmet, ?_⟩
    rcases hnext known (fun hk => hk) hdue with ⟨hdue', hminds⟩ | ⟨hlead, hminds⟩
    · exact ⟨known, fun hk => hk, hdue', Or.inl, hminds, by simp [Code.turn]⟩
    · exact ⟨True, fun _ => trivial, fun _ => trivial, fun _ => Or.inr hlead, hminds,
        by simp [Code.turn]⟩
  | ask q next =>
    exact ⟨hs, fun hmet => hmet, known, fun hk => hk, hdue, Or.inl, h r (hr q rfl),
      by simp [Code.turn]⟩
  | fork child next =>
    exact ⟨hs, fun hmet => hmet, known, fun hk => hk, hdue, Or.inl, h.2,
      fun c hc => List.mem_singleton.mp hc ▸ h.1⟩

/-! ### Parties -/

variable {P : Type} {σ : Parties P S Q R} {p : P}

/-- The party minds its duty: if it has been due, it is met or some goroutine leads to that. -/
structure Minded (D : Duty S Q R) (σ : Parties P S Q R) (p : P) (known : Prop) : Prop where
  inv : D.inv (σ.state p)
  due : D.due (σ.state p) → known
  led : known → D.met (σ.state p) ∨
    ∃ (j : ℕ) (k : Code S Q R), (σ.tasks p)[j]? = some k ∧ D.goal.Leads k
  tasks : ∀ k ∈ σ.tasks p, D.Minds k known

namespace Minded

/-- **At rest** what is due is met. -/
lemma met_of_done (h : D.Minded σ p known) (hrest : ∀ k ∈ σ.tasks p, k.isDone = true)
    (hdue : D.due (σ.state p)) : D.met (σ.state p) := by
  rcases h.led (h.due hdue) with hmet | ⟨j, k, hk, hlead⟩
  · exact hmet
  · exact absurd (hrest k (List.mem_of_getElem? hk)) hlead.not_isDone

variable [DecidableEq P]

lemma turn (h : D.Minded σ p known) {i : ℕ} {r : R}
    (hr : ∀ q ∈ σ.awaited p i, D.answers q r) :
    ∃ known' : Prop, (known → known') ∧ D.Minded (σ.turn p i r) p known' := by
  rcases hi : (σ.tasks p)[i]? with _ | k
  · exact ⟨known, fun hk => hk, by rwa [Parties.turn_none hi]⟩
  have hk := h.tasks k (List.mem_of_getElem? hi)
  have hr' : ∀ q ∈ k.waiting, D.answers q r := fun q hq =>
    hr q (by rw [Parties.awaited, hi]; exact hq)
  obtain ⟨hinv, hmet, known', hknown, hdue, hnew, hnext, hstarted⟩ := hk.turn h.inv h.due hr'
  refine ⟨known', hknown, ?_, ?_, fun hk' => ?_, ?_⟩
  · rwa [Parties.turn_state hi]
  · rwa [Parties.turn_state hi]
  · rcases hnew hk' with hold | hlead
    · rcases h.led hold with hm | ⟨j, c, hj, hlead⟩
      · left
        rw [Parties.turn_state hi]
        exact hmet hm
      · rcases hlead.at_turn hj h.inv hr with hm | ⟨-, _, _, -, hw⟩ | ⟨c', hc'⟩ | ⟨-, hc'⟩
        · exact Or.inl hm
        · exact hw.elim
        · exact Or.inr ⟨j, c', hc'⟩
        · exact Or.inr hc'
    · exact Or.inr ⟨i, _, Parties.turn_task hi r, hlead⟩
  · rw [Parties.turn_tasks hi]
    intro c hc
    rcases List.mem_append.mp hc with hc | hc
    · rcases List.mem_or_eq_of_mem_set hc with hc | rfl
      · exact (h.tasks c hc).mono hknown
      · exact hnext
    · exact hstarted c hc

/-- A duty that is met stays met. -/
lemma met_turn (h : D.Minded σ p known) {i : ℕ} {r : R}
    (hr : ∀ q ∈ σ.awaited p i, D.answers q r) (hmet : D.met (σ.state p)) :
    D.met ((σ.turn p i r).state p) := by
  rcases hi : (σ.tasks p)[i]? with _ | k
  · rwa [Parties.turn_none hi]
  · have hr' : ∀ q ∈ k.waiting, D.answers q r := fun q hq =>
      hr q (by rw [Parties.awaited, hi]; exact hq)
    rw [Parties.turn_state hi]
    exact ((h.tasks k (List.mem_of_getElem? hi)).turn h.inv h.due hr').2.1 hmet

lemma start (h : D.Minded σ p known) {k : Code S Q R} (hk : D.Minds k False) :
    D.Minded (σ.start p k) p known := by
  refine ⟨h.inv, h.due, fun hknown => ?_, ?_⟩
  · rcases h.led hknown with hm | ⟨j, c, hj, hlead⟩
    · exact Or.inl hm
    · exact Or.inr ⟨j, c, Parties.start_task hj k, hlead⟩
  · simp only [Parties.start, Function.update_self]
    intro c hc
    rcases List.mem_append.mp hc with hc | hc
    · exact h.tasks c hc
    · exact List.mem_singleton.mp hc ▸ hk.mono False.elim

/-- Nothing that matters changes. -/
lemma put (h : D.Minded σ p known) {s : S} (hinv : D.inv s)
    (hdue : D.due s → D.due (σ.state p)) (hmet : D.met (σ.state p) → D.met s) :
    D.Minded (σ.put p s) p known := by
  refine ⟨?_, ?_, ?_, h.tasks⟩
  · simpa only [Parties.put, Function.update_self] using hinv
  · simpa only [Parties.put, Function.update_self] using fun hd => h.due (hdue hd)
  · simpa only [Parties.put, Function.update_self] using fun hk => (h.led hk).imp_left hmet

end Minded

/-- A party that starts, or starts again, with its duty met. -/
lemma minded_of_met [DecidableEq P] (σ : Parties P S Q R) (p : P) {s : S} (hinv : D.inv s)
    (hmet : D.due s → D.met s) : D.Minded (σ.reset p s) p (D.due s) := by
  refine ⟨?_, ?_, ?_, ?_⟩
  · simpa only [Parties.reset, Function.update_self] using hinv
  · simp only [Parties.reset, Function.update_self, imp_self]
  · simpa only [Parties.reset, Function.update_self] using fun hd => Or.inl (hmet hd)
  · simp [Parties.reset]

end Duty

/-! ### Operations that are begun -/

/-- To begin the operation `q`. -/
def Goal.beginning {S Q R : Type} (inv : S → Prop) (answers : Q → R → Prop) (q : Q) :
    Goal S Q R where
  inv := inv
  answers := answers
  made _ := False
  waits q' _ := q' = q
  handoff := False

namespace Parties

variable {P S Q R : Type} {σ : Parties P S Q R} {p : P} {inv : S → Prop} {answers : Q → R → Prop}
  {q : Q} {past : List Q}

/-- The operation `q` has been begun after those in `past`, or a goroutine leads to it. -/
def Begins (σ : Parties P S Q R) (p : P) (inv : S → Prop) (answers : Q → R → Prop) (q : Q)
    (past : List Q) : Prop :=
  ∃ since, σ.begun p = since ++ past ∧
    (q ∈ since ∨
      ∃ (j : ℕ) (k : Code S Q R), (σ.tasks p)[j]? = some k ∧ (Goal.beginning inv answers q).Leads k)

namespace Begins

lemma of_done (h : σ.Begins p inv answers q past) (hrest : ∀ k ∈ σ.tasks p, k.isDone = true) :
    ∃ since, σ.begun p = since ++ past ∧ q ∈ since := by
  obtain ⟨since, hbegun, hmem | ⟨j, k, hk, hlead⟩⟩ := h
  · exact ⟨since, hbegun, hmem⟩
  · exact absurd (hrest k (List.mem_of_getElem? hk)) hlead.not_isDone

variable [DecidableEq P]

lemma turn (h : σ.Begins p inv answers q past) (hs : inv (σ.state p)) {i : ℕ} {r : R}
    (hr : ∀ q' ∈ σ.awaited p i, answers q' r) : (σ.turn p i r).Begins p inv answers q past := by
  obtain ⟨since, hbegun, hor⟩ := h
  rcases hi : (σ.tasks p)[i]? with _ | k₀
  · rw [turn_none hi]
    exact ⟨since, hbegun, hor⟩
  refine ⟨k₀.waiting.toList ++ since, by rw [turn_begun hi, hbegun, List.append_assoc], ?_⟩
  rcases hor with hmem | ⟨j, k, hj, hlead⟩
  · exact Or.inl (List.mem_append_right _ hmem)
  · rcases hlead.at_turn hj hs hr with hmade | ⟨rfl, q', next, rfl, hq⟩ | ⟨k', hk'⟩ | ⟨hoff, -⟩
    · exact hmade.elim
    · cases hi.symm.trans hj
      cases hq
      exact Or.inl (List.mem_append_left _ (by simp [Code.waiting]))
    · exact Or.inr ⟨j, k', hk'⟩
    · exact hoff.elim

lemma start (h : σ.Begins p inv answers q past) (k : Code S Q R) :
    (σ.start p k).Begins p inv answers q past := by
  obtain ⟨since, hbegun, hor⟩ := h
  exact ⟨since, hbegun, hor.imp_right fun ⟨j, c, hj, hlead⟩ => ⟨j, c, start_task hj k, hlead⟩⟩

lemma put (h : σ.Begins p inv answers q past) (s : S) :
    (σ.put p s).Begins p inv answers q past := h

end Begins

/-- A goroutine that leads to the operation is started. -/
lemma begins_start [DecidableEq P] (σ : Parties P S Q R) (p : P) {k : Code S Q R}
    (h : (Goal.beginning inv answers q).Leads k) :
    (σ.start p k).Begins p inv answers q (σ.begun p) :=
  ⟨[], rfl, Or.inr ⟨_, k, start_task_new σ p k, h⟩⟩

end Parties

end Awl
