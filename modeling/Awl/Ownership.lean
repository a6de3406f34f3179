import Mathlib.Data.List.Basic
import Mathlib.Tactic.Common

/-!
Items that are handed from place to place, and the pool they come from.

`Exclusive` says that every live item is in exactly one place, once. It is kept by moving an
item, by making one and by dropping one, so a system that does nothing else with its items
keeps it for good. A pool records what is done with its items; `replay` runs through such a
record and stops at the first item that is put back while it is in the pool, or used there.
-/

namespace Awl

/-! ### Items in places -/

section

variable {P B : Type} [DecidableEq P]

/-- Every live item is once in one place and nowhere else; other items are nowhere. -/
structure Exclusive (count : P → B → ℕ) (Live : B → Prop) : Prop where
  live : ∀ b, Live b → ∃ p, ∀ q, count q b = if q = p then 1 else 0
  dead : ∀ b, ¬ Live b → ∀ q, count q b = 0

namespace Exclusive

variable {count count' : P → B → ℕ} {Live Live' : B → Prop}

/-- An item is in one place only. -/
lemma unique (h : Exclusive count Live) {p q : P} {b : B} (hp : 0 < count p b)
    (hq : 0 < count q b) : p = q := by
  by_cases hb : Live b
  · obtain ⟨r, hr⟩ := h.live b hb
    rw [hr] at hp hq
    have h₁ : p = r := by by_contra hne; simp [hne] at hp
    have h₂ : q = r := by by_contra hne; simp [hne] at hq
    exact h₁.trans h₂.symm
  · exact absurd (h.dead b hb p) (by omega)

lemma live_of_pos (h : Exclusive count Live) {p : P} {b : B} (hp : 0 < count p b) : Live b := by
  by_contra hb
  exact absurd (h.dead b hb p) (by omega)

lemma le_one (h : Exclusive count Live) (p : P) (b : B) : count p b ≤ 1 := by
  by_cases hb : Live b
  · obtain ⟨r, hr⟩ := h.live b hb
    rw [hr]
    split_ifs <;> omega
  · rw [h.dead b hb]
    omega

/-- Nothing has moved. -/
lemma of_eq (h : Exclusive count Live) (hc : ∀ r x, count' r x = count r x) :
    Exclusive count' Live := by
  have : count' = count := funext fun r => funext fun x => hc r x
  exact this ▸ h

variable [DecidableEq B]

/-- The item `b` has moved from `p` to `q`. -/
lemma move (h : Exclusive count Live) {p q : P} {b : B}
    (hc : ∀ r x, count' r x + (if r = p ∧ x = b then 1 else 0) =
      count r x + (if r = q ∧ x = b then 1 else 0)) : Exclusive count' Live := by
  by_cases hpq : p = q
  · subst hpq
    exact h.of_eq fun r x => by have := hc r x; omega
  have hp : 0 < count p b := by
    have := hc p b
    simp only [and_self, if_true, hpq, false_and, if_false] at this
    omega
  have hother : ∀ r x, x ≠ b → count' r x = count r x := by
    intro r x hx
    simpa [hx] using hc r x
  have hb := h.live_of_pos hp
  refine ⟨fun x hx => ?_, fun x hx r => ?_⟩
  · by_cases hxb : x = b
    · subst hxb
      obtain ⟨r, hr⟩ := h.live x hx
      have hrp : r = p := by
        by_contra hne
        rw [hr, if_neg (Ne.symm hne)] at hp
        omega
      subst hrp
      refine ⟨q, fun s => ?_⟩
      have := hc s x
      rw [hr s] at this
      simp only [and_true] at this
      split_ifs at this ⊢ <;> omega
    · obtain ⟨r, hr⟩ := h.live x hx
      exact ⟨r, fun s => by rw [hother s x hxb, hr]⟩
  · have hxb : x ≠ b := by
      rintro rfl
      exact hx hb
    rw [hother r x hxb, h.dead x hx]

/-- The item `b` has been made and put in `q`. -/
lemma make (h : Exclusive count Live) {q : P} {b : B} (hb : ¬ Live b)
    (hlive : ∀ x, Live' x ↔ Live x ∨ x = b)
    (hc : ∀ r x, count' r x = count r x + (if r = q ∧ x = b then 1 else 0)) :
    Exclusive count' Live' := by
  refine ⟨fun x hx => ?_, fun x hx r => ?_⟩
  · by_cases hxb : x = b
    · subst hxb
      refine ⟨q, fun r => ?_⟩
      simp [hc, h.dead x hb]
    · obtain ⟨r, hr⟩ := h.live x (((hlive x).mp hx).resolve_right hxb)
      exact ⟨r, fun s => by simp [hc, hxb, hr]⟩
  · have hx' := (hlive x).not.mp hx
    rw [not_or] at hx'
    simp [hc, hx'.2, h.dead x hx'.1]

/-- The item `b` of `p` has been dropped. -/
lemma drop (h : Exclusive count Live) {p : P} {b : B}
    (hlive : ∀ x, Live' x ↔ Live x ∧ x ≠ b)
    (hp : 0 < count p b)
    (hc : ∀ r x, count' r x + (if r = p ∧ x = b then 1 else 0) = count r x) :
    Exclusive count' Live' := by
  have hother : ∀ r x, x ≠ b → count' r x = count r x := by
    intro r x hx
    simpa [hx] using hc r x
  refine ⟨fun x hx => ?_, fun x hx r => ?_⟩
  · obtain ⟨hx, hxb⟩ := (hlive x).mp hx
    obtain ⟨r, hr⟩ := h.live x hx
    exact ⟨r, fun s => by rw [hother s x hxb, hr]⟩
  · by_cases hxb : x = b
    · subst hxb
      have hle := h.le_one r x
      have := hc r x
      by_cases hrp : r = p
      · simp only [hrp, and_self, if_true] at this hle ⊢
        omega
      · have hzero : count r x = 0 := by
          by_contra hne
          exact hrp (h.unique (Nat.pos_of_ne_zero hne) hp)
        omega
    · rw [hother r x hxb, h.dead x fun hx' => hx ((hlive x).mpr ⟨hx', hxb⟩)]

end Exclusive

end

section

variable {α β : Type} [BEq β] (f : α → List β)

/-- Where the places are in a list, and one of them changes. -/
lemma count_flatMap_set {l : List α} {a : α} (a' : α) (b : β) :
    ∀ {i : ℕ}, l[i]? = some a →
      ((l.set i a').flatMap f).count b + (f a).count b =
        (l.flatMap f).count b + (f a').count b := by
  induction l with
  | nil => intro i h; cases h
  | cons x l ih =>
    intro i h
    cases i with
    | zero =>
      cases h
      simp only [List.set_cons_zero, List.flatMap_cons, List.count_append]
      omega
    | succ i =>
      have := ih (i := i) h
      simp only [List.set_cons_succ, List.flatMap_cons, List.count_append]
      omega

end

/-! ### The pool -/

/-- What is done with the items of a pool. -/
inductive PoolAct
  | get (b : ℕ)
  | put (b : ℕ)
  | use (b : ℕ)
  | collect (b : ℕ)

/-- A `sync.Pool`: the items in it, how many have been made, those the garbage collector has
taken from it, and the record of what has been done. -/
structure Pool where
  free : List ℕ
  made : ℕ
  gone : List ℕ
  gone_lt : ∀ b ∈ gone, b < made
  log : List PoolAct

namespace Pool

def empty : Pool := ⟨[], 0, [], by simp, []⟩

/-- The items there are. -/
def Live (d : Pool) (b : ℕ) : Prop := b < d.made ∧ b ∉ d.gone

/-- `Get`: the given item of the pool, or a new one. -/
def get (d : Pool) : Option ℕ → Option (ℕ × Pool)
  | none => some (d.made, { d with
      made := d.made + 1
      gone_lt := fun b hb => Nat.lt_succ_of_lt (d.gone_lt b hb)
      log := d.log ++ [.get d.made] })
  | some b =>
    if b ∈ d.free then some (b, { d with free := d.free.erase b, log := d.log ++ [.get b] })
    else none

/-- `Put`. -/
def put (d : Pool) (b : ℕ) : Pool := { d with free := b :: d.free, log := d.log ++ [.put b] }

/-- The bytes of an item are read or written. -/
def use (d : Pool) (b : ℕ) : Pool := { d with log := d.log ++ [.use b] }

def useAll (d : Pool) (bs : List ℕ) : Pool := bs.foldl use d

/-- The garbage collector takes an item from the pool. -/
def collect (d : Pool) (b : ℕ) : Option Pool :=
  if h : b < d.made ∧ b ∈ d.free then
    some { d with
      free := d.free.erase b
      gone := b :: d.gone
      gone_lt := by simpa using ⟨h.1, d.gone_lt⟩
      log := d.log ++ [.collect b] }
  else none

/-- One act on a pool with the items `d.1` in it and `d.2` made. -/
def replayAct (d : List ℕ × ℕ) : PoolAct → Option (List ℕ × ℕ)
  | .get b =>
    if b ∈ d.1 then some (d.1.erase b, d.2)
    else if b = d.2 then some (d.1, d.2 + 1)
    else none
  | .put b => if b ∈ d.1 ∨ d.2 ≤ b then none else some (b :: d.1, d.2)
  | .use b => if b ∈ d.1 ∨ d.2 ≤ b then none else some d
  | .collect b => if b ∈ d.1 then some (d.1.erase b, d.2) else none

/-- A record run from the empty pool; `none` when an item is put back or used while it is in
the pool, or before it was ever taken. -/
def replay (log : List PoolAct) : Option (List ℕ × ℕ) := log.foldlM replayAct ([], 0)

/-- The record of the pool is in order and leads to its contents. -/
def Disciplined (d : Pool) : Prop := replay d.log = some (d.free, d.made)

variable {d d' : Pool} {b : ℕ}

lemma replay_append_singleton (log : List PoolAct) (a : PoolAct) :
    replay (log ++ [a]) = (replay log).bind fun d => replayAct d a := by
  simp [replay, List.foldlM_append]

lemma disciplined_empty : empty.Disciplined := rfl

lemma Disciplined.get (h : d.Disciplined) (hfree : ∀ b ∈ d.free, b < d.made) {got : Option ℕ}
    (hg : d.get got = some (b, d')) : d'.Disciplined := by
  cases got with
  | none =>
    cases hg
    have hnot : d.made ∉ d.free := fun hm => absurd (hfree _ hm) (Nat.lt_irrefl _)
    simp only [Disciplined, replay_append_singleton]
    rw [h]
    simp [replayAct, hnot]
  | some c =>
    simp only [Pool.get] at hg
    split_ifs at hg with hc
    cases hg
    simp only [Disciplined, replay_append_singleton]
    rw [h]
    simp [replayAct, hc]

lemma Disciplined.put (h : d.Disciplined) (hb : b ∉ d.free) (hlt : b < d.made) :
    (d.put b).Disciplined := by
  simp only [Disciplined, Pool.put, replay_append_singleton]
  rw [h]
  simp [replayAct, hb, hlt]

lemma Disciplined.use (h : d.Disciplined) (hb : b ∉ d.free) (hlt : b < d.made) :
    (d.use b).Disciplined := by
  simp only [Disciplined, Pool.use, replay_append_singleton]
  rw [h]
  simp [replayAct, hb, hlt]

lemma Disciplined.useAll {bs : List ℕ} (h : d.Disciplined)
    (hbs : ∀ b ∈ bs, b ∉ d.free ∧ b < d.made) : (d.useAll bs).Disciplined := by
  induction bs generalizing d with
  | nil => exact h
  | cons b bs ih =>
    have hb := hbs b List.mem_cons_self
    exact ih (h.use hb.1 hb.2) fun c hc => hbs c (List.mem_cons_of_mem b hc)

lemma Disciplined.collect (h : d.Disciplined) (hc : d.collect b = some d') : d'.Disciplined := by
  simp only [Pool.collect] at hc
  split_ifs at hc with hb
  cases hc
  simp only [Disciplined, replay_append_singleton]
  rw [h]
  simp [replayAct, hb.2]

@[simp] lemma useAll_free (bs : List ℕ) : (d.useAll bs).free = d.free := by
  induction bs generalizing d with
  | nil => rfl
  | cons b bs ih => exact ih

@[simp] lemma useAll_made (bs : List ℕ) : (d.useAll bs).made = d.made := by
  induction bs generalizing d with
  | nil => rfl
  | cons b bs ih => exact ih

@[simp] lemma useAll_gone (bs : List ℕ) : (d.useAll bs).gone = d.gone := by
  induction bs generalizing d with
  | nil => rfl
  | cons b bs ih => exact ih

/-- Where an item got from the pool comes from. -/
lemma get_cases {got : Option ℕ} (hg : d.get got = some (b, d')) :
    (b = d.made ∧ d'.free = d.free ∧ d'.made = d.made + 1 ∨
      b ∈ d.free ∧ d'.free = d.free.erase b ∧ d'.made = d.made) ∧ d'.gone = d.gone := by
  cases got with
  | none =>
    cases hg
    exact ⟨Or.inl ⟨rfl, rfl, rfl⟩, rfl⟩
  | some c =>
    simp only [Pool.get] at hg
    split_ifs at hg with hc
    cases hg
    exact ⟨Or.inr ⟨hc, rfl, rfl⟩, rfl⟩

end Pool

/-! ### Both together -/

namespace Exclusive

variable {P : Type} [DecidableEq P] {count count' : P → ℕ → ℕ} {d d' : Pool} {b : ℕ}

/-- An item elsewhere is not in the pool. -/
lemma held {p q : P} (h : Exclusive count d.Live) (hpool : ∀ x, count p x = d.free.count x)
    (hq : q ≠ p) (hb : 0 < count q b) : b ∉ d.free ∧ b < d.made := by
  refine ⟨fun hf => hq (h.unique hb ?_), (h.live_of_pos hb).1⟩
  rw [hpool]
  exact List.count_pos_iff.mpr hf

lemma free_lt {p : P} (h : Exclusive count d.Live) (hpool : ∀ x, count p x = d.free.count x) :
    ∀ b ∈ d.free, b < d.made := by
  intro b hb
  refine (h.live_of_pos (p := p) ?_).1
  rw [hpool]
  exact List.count_pos_iff.mpr hb

/-- An item got from the pool is not in it any more, and the others are as before. -/
lemma got {p : P} {got : Option ℕ} (h : Exclusive count d.Live)
    (hpool : ∀ x, count p x = d.free.count x) (hg : d.get got = some (b, d')) :
    (b ∉ d'.free ∧ b < d'.made) ∧ ∀ c, c ∉ d.free → c < d.made → c ∉ d'.free ∧ c < d'.made := by
  obtain ⟨⟨rfl, hfree, hmade⟩ | ⟨hb, hfree, hmade⟩, -⟩ := Pool.get_cases hg
  · rw [hfree, hmade]
    exact ⟨⟨fun hf => absurd (h.free_lt hpool _ hf) (Nat.lt_irrefl _), Nat.lt_succ_self _⟩,
      fun c hc hlt => ⟨hc, Nat.lt_succ_of_lt hlt⟩⟩
  · rw [hfree, hmade]
    refine ⟨⟨fun hf => ?_, h.free_lt hpool b hb⟩,
      fun c hc hlt => ⟨fun hf => hc (List.mem_of_mem_erase hf), hlt⟩⟩
    have hone := h.le_one p b
    have hpos := List.count_pos_iff.mpr hf
    rw [List.count_erase_self] at hpos
    rw [hpool] at hone
    omega

/-- An item is got from the pool and put in `q`, which may be the pool again. -/
lemma get {p q : P} {got : Option ℕ} (h : Exclusive count d.Live)
    (hpool : ∀ x, count p x = d.free.count x) (hg : d.get got = some (b, d'))
    (hc : ∀ r x, count' r x =
      (if r = p then d'.free.count x else count r x) + (if r = q ∧ x = b then 1 else 0)) :
    Exclusive count' d'.Live := by
  obtain ⟨⟨hb, hfree, hmade⟩ | ⟨hb, hfree, hmade⟩, hgone⟩ := Pool.get_cases hg
  · have hdead : ¬ d.Live b := fun hl => absurd hl.1 (by omega)
    refine h.make (q := q) hdead (fun x => ?_) fun r x => ?_
    · have hnot : b ∉ d.gone := fun hm => absurd (d.gone_lt b hm) (by omega)
      simp only [Pool.Live, hmade, hgone]
      constructor
      · rintro ⟨hlt, hx⟩
        by_cases hxb : x = b
        · exact Or.inr hxb
        · exact Or.inl ⟨by omega, hx⟩
      · rintro (⟨hlt, hx⟩ | rfl)
        · exact ⟨by omega, hx⟩
        · exact ⟨by omega, hnot⟩
    · rw [hc, hfree]
      split_ifs with hr <;> simp_all
  · have hlive : d'.Live = d.Live := by
      funext x
      simp only [Pool.Live, hmade, hgone]
    rw [hlive]
    have hcount : ∀ x, d'.free.count x + (if x = b then 1 else 0) = d.free.count x := by
      intro x
      rw [hfree, List.count_erase]
      have := List.count_pos_iff.mpr hb
      by_cases hx : x = b
      · subst hx
        simp only [beq_self_eq_true, if_true]
        omega
      · simp [hx, Ne.symm hx]
    refine h.move (p := p) (q := q) (b := b) fun r x => ?_
    rw [hc]
    by_cases hr : r = p
    · have := hcount x
      rw [hr, hpool]
      simp only [if_true, true_and]
      omega
    · simp [hr]

end Exclusive

end Awl
