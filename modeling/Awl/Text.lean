import Mathlib.Data.Finset.Card
import Mathlib.Data.List.DropRight
import Mathlib.Tactic.Common

/-!
Text as Go's `strings`, `unicode` and `fmt` packages treat it. A string is a sequence of
Unicode characters: every string the program handles has come through a JSON decoder, which
replaces invalid UTF-8.
-/

namespace Awl.Text

/-- `unicode.IsSpace`. -/
def isSpace (c : Char) : Bool :=
  c = ' ' || (0x09 ≤ c.toNat && c.toNat ≤ 0x0d) || c.toNat = 0x85 || c.toNat = 0xa0
    || c.toNat = 0x1680 || (0x2000 ≤ c.toNat && c.toNat ≤ 0x200a)
    || c.toNat = 0x2028 || c.toNat = 0x2029 || c.toNat = 0x202f || c.toNat = 0x205f
    || c.toNat = 0x3000

/-- `strings.TrimSpace`. -/
def trimSpace (s : String) : String :=
  String.ofList ((s.toList.dropWhile isSpace).reverse.dropWhile isSpace).reverse

/-- `strings.TrimSuffix`. -/
def trimSuffix (s suffix : String) : String :=
  if suffix.toList.isSuffixOf s.toList then
    String.ofList (s.toList.take (s.toList.length - suffix.toList.length))
  else s

/-- `fmt.Sprintf("%s_%d", s, i)`. -/
def suffixed (s : String) (i : ℕ) : String := s ++ "_" ++ Nat.repr i

/-! ### Trimmed text -/

lemma trimSpace_toList (s : String) :
    (trimSpace s).toList = (s.toList.dropWhile isSpace).rdropWhile isSpace := by
  rw [trimSpace, String.toList_ofList, List.rdropWhile]

/-- What has been trimmed is left as it is. -/
lemma trimSpace_trimSpace (s : String) : trimSpace (trimSpace s) = trimSpace s := by
  have hfront : (trimSpace s).toList.dropWhile isSpace = (trimSpace s).toList := by
    rw [trimSpace_toList, List.dropWhile_eq_self_iff]
    intro hpos
    have hinit := List.rdropWhile_prefix isSpace (s.toList.dropWhile isSpace)
    rw [hinit.getElem hpos]
    exact List.dropWhile_get_zero_not isSpace s.toList (hpos.trans_le hinit.length_le)
  rw [← String.toList_inj, trimSpace_toList (trimSpace s), hfront, trimSpace_toList,
    List.rdropWhile_idempotent]

lemma trimSpace_of_noSpace {s : String} (h : ∀ c ∈ s.toList, isSpace c = false) :
    trimSpace s = s := by
  have hdrop : ∀ l : List Char, (∀ c ∈ l, isSpace c = false) → l.dropWhile isSpace = l := by
    intro l hl
    cases l with
    | nil => rfl
    | cons c l =>
      exact List.dropWhile_cons_of_neg (by rw [hl c List.mem_cons_self]; exact Bool.false_ne_true)
  rw [trimSpace, hdrop _ h, hdrop _ fun c hc => h c (List.mem_reverse.mp hc),
    List.reverse_reverse, String.ofList_toList]

/-- Nothing is left of spaces only. -/
lemma isSpace_of_trimSpace_eq_empty {s : String} (h : trimSpace s = "") :
    ∀ c ∈ s.toList, isSpace c := by
  have hlist : (s.toList.dropWhile isSpace).rdropWhile isSpace = [] := by
    rw [← trimSpace_toList, h]
    rfl
  rw [List.rdropWhile_eq_nil_iff] at hlist
  intro c hc
  rw [← List.takeWhile_append_dropWhile (p := isSpace) (l := s.toList), List.mem_append] at hc
  rcases hc with hc | hc
  · exact List.mem_takeWhile_imp hc
  · exact hlist c hc

lemma trimSpace_suffixed_ne_empty (s : String) (i : ℕ) : trimSpace (suffixed s i) ≠ "" := by
  intro h
  have hmem : '_' ∈ (suffixed s i).toList := by simp [suffixed]
  exact absurd (isSpace_of_trimSpace_eq_empty h '_' hmem) (by decide)

/-! ### Letter case -/

/-- The same text but for upper and lower case, of ASCII letters. -/
def SameLetters (x y : String) : Prop := x.toList.map Char.toLower = y.toList.map Char.toLower

instance (x y : String) : Decidable (SameLetters x y) := inferInstanceAs (Decidable (_ = _))

/-- A text of ASCII characters. -/
def Ascii (x : String) : Prop := ∀ c ∈ x.toList, c.toNat < 128

lemma ascii_of_all {x : String} (h : x.toList.all (fun c => c.toNat < 128) = true) : Ascii x :=
  fun c hc => of_decide_eq_true (List.all_eq_true.1 h c hc)

lemma toLower_cases (c : Char) :
    c.toLower = c ∨ 65 ≤ c.toNat ∧ c.toNat ≤ 90 ∧ c.toLower.toNat = c.toNat + 32 := by
  by_cases h : c.val ≥ 'A'.val ∧ c.val ≤ 'Z'.val
  · refine Or.inr ⟨h.1, h.2, ?_⟩
    have hle : c.val.toNat ≤ 90 := h.2
    have hlower : c.toLower = _ := dif_pos h
    rw [hlower]
    show (c.val + ('a'.val - 'A'.val)).toNat = c.val.toNat + 32
    rw [UInt32.toNat_add, show ('a'.val - 'A'.val).toNat = 32 from rfl]
    omega
  · exact Or.inl (dif_neg h)

/-- What is no letter has one spelling. -/
lemma eq_of_toLower_eq {c d : Char} (h : c.toLower = d) (hd : d.toNat < 97 ∨ 122 < d.toNat) :
    c = d := by
  rcases toLower_cases c with hc | ⟨h1, h2, h3⟩
  · rw [← h, hc]
  · rw [h] at h3
    omega

/-- A text without letters has one spelling. -/
lemma eq_of_map_toLower {ds : List Char} (hds : ∀ d ∈ ds, d.toNat < 65) : ∀ {cs : List Char},
    cs.map Char.toLower = ds.map Char.toLower → cs = ds := by
  induction ds with
  | nil => exact fun h => List.map_eq_nil_iff.1 h
  | cons d ds ih =>
    intro cs h
    obtain ⟨c, cs, rfl, hc, hcs⟩ := List.map_eq_cons_iff.1 h
    have hd := hds d List.mem_cons_self
    have hlower : d.toLower = d := (toLower_cases d).resolve_right (by omega)
    rw [hlower] at hc
    rw [eq_of_toLower_eq hc (by omega), ih (fun x hx => hds x (List.mem_cons_of_mem _ hx)) hcs]

lemma toLower_toLower (c : Char) : c.toLower.toLower = c.toLower := by
  rcases toLower_cases c with hc | ⟨h1, h2, h3⟩
  · rw [hc, hc]
  · rcases toLower_cases c.toLower with hc | ⟨h4, h5, -⟩
    · exact hc
    · omega

/-- A letter is no space, in upper or lower case. -/
lemma isSpace_toLower {c : Char} (h : isSpace c = false) : isSpace c.toLower = false := by
  rcases toLower_cases c with hc | ⟨h1, h2, h3⟩
  · rwa [hc]
  · generalize c.toLower = d at h3
    have hne : d ≠ ' ' := by
      rintro rfl
      have hspace : ' '.toNat = 32 := rfl
      omega
    simp only [isSpace, hne, decide_false, Bool.false_or, Bool.or_eq_false_iff,
      Bool.and_eq_false_iff, decide_eq_false_iff_not]
    omega

/-- Letter case does not lead out of ASCII. -/
lemma SameLetters.ascii {x y : String} (h : SameLetters x y) (hy : Ascii y) : Ascii x := by
  intro c hc
  have hmem : c.toLower ∈ y.toList.map Char.toLower := h ▸ List.mem_map_of_mem hc
  obtain ⟨d, hd, hlower⟩ := List.mem_map.1 hmem
  have hd' := hy d hd
  rcases toLower_cases c with hcc | ⟨-, h2, -⟩
  · rw [← hcc, ← hlower]
    rcases toLower_cases d with hdd | ⟨-, h2, h3⟩
    · rwa [hdd]
    · omega
  · omega

end Awl.Text
