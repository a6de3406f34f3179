import Mathlib.Data.List.Basic
import Mathlib.Data.Int.Notation

/-!
JSON texts as Go's `json.MarshalIndent` writes them, with an indent of two blanks.

No text is the beginning of another one, apart from numbers: a value can be told from what is
written, and so can where it ends.
-/

namespace Awl

inductive Json
  | null
  | bool (b : Bool)
  | int (n : ℤ)
  | str (s : String)
  | arr (items : List Json)
  | obj (fields : List (String × Json))

namespace Json

/-! ### Strings -/

def hexDigit (n : ℕ) : Char := "0123456789abcdef".toList.getD n '0'

def unicodeEscape (c : Char) : List Char :=
  ['\\', 'u', hexDigit (c.toNat / 4096), hexDigit (c.toNat / 256 % 16),
    hexDigit (c.toNat / 16 % 16), hexDigit (c.toNat % 16)]

/-- The characters that are not written as they are. Besides what JSON asks for these are the
ones that HTML or JavaScript would take for something else. -/
def escapes : List (Char × List Char) :=
  [('"', ['\\', '"']), ('\\', ['\\', '\\']), ('\x08', ['\\', 'b']), ('\x0c', ['\\', 'f']),
    ('\n', ['\\', 'n']), ('\r', ['\\', 'r']), ('\t', ['\\', 't'])] ++
  ((List.range 32).map Char.ofNat ++ ['<', '>', '&', '\u2028', '\u2029']).map fun c =>
    (c, unicodeEscape c)

def escape (c : Char) : List Char := (escapes.lookup c).getD [c]

def quoted (s : String) : List Char := '"' :: (s.toList.flatMap escape ++ ['"'])

/-! ### Values -/

def decimal : ℤ → List Char
  | .ofNat n => Nat.toDigits 10 n
  | .negSucc n => '-' :: Nat.toDigits 10 (n + 1)

def newline (depth : ℕ) : List Char := '\n' :: List.replicate (2 * depth) ' '

mutual

/-- The value, which stands at the given depth. -/
def text (depth : ℕ) : Json → List Char
  | .null => "null".toList
  | .bool true => "true".toList
  | .bool false => "false".toList
  | .int n => decimal n
  | .str s => quoted s
  | .arr [] => ['[', ']']
  | .arr (v :: items) =>
    '[' :: (newline (depth + 1) ++ (text (depth + 1) v ++ itemsText depth items))
  | .obj [] => ['\x7b', '\x7d']
  | .obj ((key, v) :: fields) =>
    '\x7b' :: (newline (depth + 1) ++ (quoted key ++ (':' :: ' ' ::
      (text (depth + 1) v ++ fieldsText depth fields))))

/-- The other items of an array, and its end. -/
def itemsText (depth : ℕ) : List Json → List Char
  | [] => newline depth ++ [']']
  | v :: items =>
    ',' :: (newline (depth + 1) ++ (text (depth + 1) v ++ itemsText depth items))

/-- The other fields of an object, and its end. -/
def fieldsText (depth : ℕ) : List (String × Json) → List Char
  | [] => newline depth ++ ['\x7d']
  | (key, v) :: fields =>
    ',' :: (newline (depth + 1) ++ (quoted key ++ (':' :: ' ' ::
      (text (depth + 1) v ++ fieldsText depth fields))))

end


/-- `json.MarshalIndent`. -/
def marshalIndent (v : Json) : List UInt8 := (String.ofList (text 0 v)).toUTF8.data.toList

/-! ### Strings are told apart -/

lemma escape_of_notMem {c : Char} (h : c ∉ escapes.map Prod.fst) : escape c = [c] := by
  rw [escape, List.lookup_eq_none_iff.mpr, Option.getD_none]
  intro p hp
  simpa using fun hc : c = p.1 => h (hc ▸ List.mem_map_of_mem hp)

lemma escape_head_of_mem {c : Char} (hc : c ∈ escapes.map Prod.fst) :
    (escape c).head? = some '\\' := by
  have hall : ((escapes.map Prod.fst).all fun c => (escape c).head? == some '\\') = true := by
    decide +kernel
  simpa using List.all_eq_true.mp hall c hc

lemma escape_prefix_free {c d : Char} (hc : c ∈ escapes.map Prod.fst)
    (hd : d ∈ escapes.map Prod.fst) (h : escape c <+: escape d) : c = d := by
  have hall : ((escapes.map Prod.fst).all fun c => (escapes.map Prod.fst).all fun d =>
      !(escape c).isPrefixOf (escape d) || c == d) = true := by
    decide +kernel
  have hcd := List.all_eq_true.mp (List.all_eq_true.mp hall c hc) d hd
  simpa [List.isPrefixOf_iff_prefix.mpr h] using hcd

/-- What is written begins with a backslash or is the character itself. -/
lemma escape_cases (c : Char) :
    c ∈ escapes.map Prod.fst ∧ (∃ l, escape c = '\\' :: l) ∨
      escape c = [c] ∧ c ≠ '\\' ∧ c ≠ '"' := by
  by_cases hc : c ∈ escapes.map Prod.fst
  · obtain ⟨l, hl⟩ := List.head?_eq_some_iff.mp (escape_head_of_mem hc)
    exact Or.inl ⟨hc, l, hl⟩
  · refine Or.inr ⟨escape_of_notMem hc, ?_, ?_⟩ <;>
    · rintro rfl
      exact hc (by decide +kernel)

lemma escape_append_inj {c d : Char} {s t : List Char} (h : escape c ++ s = escape d ++ t) :
    c = d ∧ s = t := by
  have hcd : c = d := by
    rcases escape_cases c with ⟨hc, l, hl⟩ | ⟨hl, hc, -⟩ <;>
      rcases escape_cases d with ⟨hd, l', hl'⟩ | ⟨hl', hd, -⟩
    · rcases List.append_eq_append_iff.mp h with ⟨l, hd', -⟩ | ⟨l, hc', -⟩
      · exact escape_prefix_free hc hd ⟨l, hd'.symm⟩
      · exact (escape_prefix_free hd hc ⟨l, hc'.symm⟩).symm
    · rw [hl, hl'] at h
      exact absurd (List.cons.inj h).1.symm hd
    · rw [hl, hl'] at h
      exact absurd (List.cons.inj h).1 hc
    · rw [hl, hl'] at h
      exact (List.cons.inj h).1
  subst hcd
  exact ⟨rfl, List.append_cancel_left h⟩

lemma escape_append_ne_quote (c : Char) (s t : List Char) : escape c ++ s ≠ '"' :: t := by
  intro h
  rcases escape_cases c with ⟨-, l, hl⟩ | ⟨hl, -, hc⟩
  · rw [hl] at h
    exact absurd (List.cons.inj h).1 (by decide)
  · rw [hl] at h
    exact hc (List.cons.inj h).1

lemma quoted_append_inj {a b : String} {s t : List Char} (h : quoted a ++ s = quoted b ++ t) :
    a = b ∧ s = t := by
  have hchars : ∀ {as bs : List Char}, as.flatMap escape ++ '"' :: s =
      bs.flatMap escape ++ '"' :: t → as = bs ∧ s = t := by
    intro as
    induction as with
    | nil =>
      rintro (_ | ⟨b, bs⟩) h
      · exact ⟨rfl, (List.cons.inj h).2⟩
      · rw [List.flatMap_cons, List.append_assoc] at h
        exact absurd h.symm (escape_append_ne_quote b _ _)
    | cons a as ih =>
      rintro (_ | ⟨b, bs⟩) h
      · rw [List.flatMap_cons, List.append_assoc] at h
        exact absurd h (escape_append_ne_quote a _ _)
      · rw [List.flatMap_cons, List.flatMap_cons, List.append_assoc, List.append_assoc] at h
        obtain ⟨rfl, hrest⟩ := escape_append_inj h
        obtain ⟨rfl, hst⟩ := ih hrest
        exact ⟨rfl, hst⟩
  rw [quoted, quoted, List.cons_append, List.cons_append, List.append_assoc,
    List.append_assoc] at h
  obtain ⟨h, hst⟩ := hchars (List.cons.inj h).2
  exact ⟨String.toList_injective h, hst⟩

/-! ### Numbers are told apart -/

/-- A number does not go on here. -/
def Ends (s : List Char) : Prop := s.takeWhile Char.isDigit = []

lemma toDigits_append_inj {m n : ℕ} {s t : List Char} (hs : Ends s) (ht : Ends t)
    (h : Nat.toDigits 10 m ++ s = Nat.toDigits 10 n ++ t) : m = n ∧ s = t := by
  have htake : ∀ {n : ℕ} {s : List Char}, Ends s →
      (Nat.toDigits 10 n ++ s).takeWhile Char.isDigit = Nat.toDigits 10 n := by
    intro n s hs
    rw [List.takeWhile_append_of_pos fun c hc =>
      Nat.isDigit_of_mem_toDigits (by decide) (by decide) hc, hs, List.append_nil]
  have hdigits : Nat.toDigits 10 m = Nat.toDigits 10 n := by
    rw [← htake hs, h, htake ht]
  refine ⟨?_, List.append_cancel_left (hdigits ▸ h)⟩
  rw [← Nat.ofDigitChars_toDigits (n := m) (b := 10) (by decide) (by decide), hdigits,
    Nat.ofDigitChars_toDigits (by decide) (by decide)]

lemma toDigits_eq_cons (n : ℕ) : ∃ c l, Nat.toDigits 10 n = c :: l ∧ c.isDigit = true := by
  rcases h : Nat.toDigits 10 n with _ | ⟨c, l⟩
  · exact absurd h Nat.toDigits_ne_nil
  · exact ⟨c, l, rfl, Nat.isDigit_of_mem_toDigits (by decide) (by decide)
      (h ▸ List.mem_cons_self : c ∈ Nat.toDigits 10 n)⟩

lemma decimal_append_inj {m n : ℤ} {s t : List Char} (hs : Ends s) (ht : Ends t)
    (h : decimal m ++ s = decimal n ++ t) : m = n ∧ s = t := by
  have hsign : ∀ (n : ℕ) (s t : List Char), Nat.toDigits 10 n ++ s ≠ '-' :: t := by
    intro n s t h
    obtain ⟨c, l, hl, hc⟩ := toDigits_eq_cons n
    rw [hl] at h
    rw [(List.cons.inj h).1] at hc
    cases hc
  rcases m with m | m <;> rcases n with n | n
  · obtain ⟨rfl, hst⟩ := toDigits_append_inj hs ht h
    exact ⟨rfl, hst⟩
  · exact absurd h (hsign m _ _)
  · exact absurd h.symm (hsign n _ _)
  · obtain ⟨hmn, hst⟩ := toDigits_append_inj hs ht (List.cons.inj h).2
    exact ⟨by rw [Nat.succ.inj hmn], hst⟩

/-! ### Values are told apart -/

/-- The kind of value that begins like this. -/
def kindOf (c : Char) : ℕ :=
  if c = 'n' then 0 else if c = 't' ∨ c = 'f' then 1 else if c = '"' then 3
  else if c = '[' then 4 else if c = '\x7b' then 5 else 2

def kind : Json → ℕ
  | .null => 0
  | .bool _ => 1
  | .int _ => 2
  | .str _ => 3
  | .arr _ => 4
  | .obj _ => 5

lemma kindOf_of_isDigit {c : Char} (h : c.isDigit = true) : kindOf c = 2 := by
  have hne : ∀ d : Char, d.isDigit = false → c ≠ d := by
    rintro d hd rfl
    rw [h] at hd
    cases hd
  simp [kindOf, hne 'n' (by decide), hne 't' (by decide), hne 'f' (by decide),
    hne '"' (by decide), hne '[' (by decide), hne '\x7b' (by decide)]

lemma text_eq_cons (depth : ℕ) (v : Json) : ∃ c l, text depth v = c :: l ∧ kindOf c = v.kind := by
  rcases v with _ | b | n | s | items | fields
  · exact ⟨_, _, rfl, rfl⟩
  · cases b <;> exact ⟨_, _, rfl, rfl⟩
  · rcases n with n | n
    · obtain ⟨c, l, hl, hc⟩ := toDigits_eq_cons n
      exact ⟨c, l, hl, kindOf_of_isDigit hc⟩
    · exact ⟨'-', _, rfl, rfl⟩
  · exact ⟨_, _, rfl, rfl⟩
  · rcases items with _ | ⟨v, items⟩ <;> exact ⟨_, _, rfl, rfl⟩
  · rcases fields with _ | ⟨⟨key, v⟩, fields⟩ <;> exact ⟨_, _, rfl, rfl⟩

lemma kind_eq {depth : ℕ} {v w : Json} {s t : List Char}
    (h : text depth v ++ s = text depth w ++ t) : v.kind = w.kind := by
  obtain ⟨c, l, hv, hc⟩ := text_eq_cons depth v
  obtain ⟨d, l', hw, hd⟩ := text_eq_cons depth w
  rw [hv, hw] at h
  rw [← hc, ← hd, (List.cons.inj h).1]

lemma ends_itemsText (depth : ℕ) (items : List Json) (s : List Char) :
    Ends (itemsText depth items ++ s) := by
  cases items <;> rfl

lemma ends_fieldsText (depth : ℕ) (fields : List (String × Json)) (s : List Char) :
    Ends (fieldsText depth fields ++ s) := by
  rcases fields with _ | ⟨⟨key, v⟩, fields⟩ <;> rfl

/-- After its first item an array is written like the rest of one. -/
lemma itemsText_of_arr {depth : ℕ} {items items' : List Json} {s t : List Char}
    (h : text depth (.arr items) ++ s = text depth (.arr items') ++ t) :
    itemsText depth items ++ s = itemsText depth items' ++ t := by
  rcases items with _ | ⟨v, items⟩ <;> rcases items' with _ | ⟨v', items'⟩
  · rw [List.append_cancel_left h]
  · cases h
  · cases h
  · exact congrArg (',' :: ·) (List.cons.inj h).2

lemma fieldsText_of_obj {depth : ℕ} {fields fields' : List (String × Json)} {s t : List Char}
    (h : text depth (.obj fields) ++ s = text depth (.obj fields') ++ t) :
    fieldsText depth fields ++ s = fieldsText depth fields' ++ t := by
  rcases fields with _ | ⟨⟨key, v⟩, fields⟩ <;> rcases fields' with _ | ⟨⟨key', v'⟩, fields'⟩
  · rw [List.append_cancel_left h]
  · cases h
  · cases h
  · exact congrArg (',' :: ·) (List.cons.inj h).2

lemma itemsText_cons_append (depth : ℕ) (v : Json) (items : List Json) (s : List Char) :
    itemsText depth (v :: items) ++ s =
      ',' :: newline (depth + 1) ++ (text (depth + 1) v ++ (itemsText depth items ++ s)) := by
  simp [itemsText]

lemma fieldsText_cons_append (depth : ℕ) (key : String) (v : Json)
    (fields : List (String × Json)) (s : List Char) :
    fieldsText depth ((key, v) :: fields) ++ s =
      ',' :: newline (depth + 1) ++ (quoted key ++ ([':', ' '] ++
        (text (depth + 1) v ++ (fieldsText depth fields ++ s)))) := by
  simp [fieldsText]

mutual

/-- Where a value ends can be seen from its text, if what follows does not go on with a number. -/
theorem text_append_inj : ∀ (v : Json) {depth : ℕ} {w : Json} {s t : List Char},
    Ends s → Ends t → text depth v ++ s = text depth w ++ t → v = w ∧ s = t
  | .null, _, w, _, _, _, _, h => by
    cases w <;> cases kind_eq h
    exact ⟨rfl, List.append_cancel_left h⟩
  | .bool b, _, w, _, _, _, _, h => by
    rcases w with _ | b' | _ | _ | _ | _ <;> cases kind_eq h
    cases b <;> cases b' <;> cases h <;> exact ⟨rfl, rfl⟩
  | .int n, _, w, _, _, hs, ht, h => by
    rcases w with _ | _ | n' | _ | _ | _ <;> cases kind_eq h
    obtain ⟨rfl, hst⟩ := decimal_append_inj hs ht h
    exact ⟨rfl, hst⟩
  | .str a, _, w, _, _, _, _, h => by
    rcases w with _ | _ | _ | a' | _ | _ <;> cases kind_eq h
    obtain ⟨rfl, hst⟩ := quoted_append_inj h
    exact ⟨rfl, hst⟩
  | .arr items, _, w, _, _, _, _, h => by
    rcases w with _ | _ | _ | _ | items' | _ <;> cases kind_eq h
    obtain ⟨rfl, hst⟩ := itemsText_append_inj items (itemsText_of_arr h)
    exact ⟨rfl, hst⟩
  | .obj fields, _, w, _, _, _, _, h => by
    rcases w with _ | _ | _ | _ | _ | fields' <;> cases kind_eq h
    obtain ⟨rfl, hst⟩ := fieldsText_append_inj fields (fieldsText_of_obj h)
    exact ⟨rfl, hst⟩

theorem itemsText_append_inj : ∀ (items : List Json) {depth : ℕ} {items' : List Json}
    {s t : List Char}, itemsText depth items ++ s = itemsText depth items' ++ t →
      items = items' ∧ s = t
  | [], _, [], _, _, h => ⟨rfl, List.append_cancel_left h⟩
  | [], _, _ :: _, _, _, h => by cases h
  | _ :: _, _, [], _, _, h => by cases h
  | v :: items, depth, v' :: items', s, t, h => by
    rw [itemsText_cons_append, itemsText_cons_append] at h
    obtain ⟨rfl, hrest⟩ := text_append_inj v (ends_itemsText _ _ _) (ends_itemsText _ _ _)
      (List.append_cancel_left h)
    obtain ⟨rfl, hst⟩ := itemsText_append_inj items hrest
    exact ⟨rfl, hst⟩

theorem fieldsText_append_inj : ∀ (fields : List (String × Json)) {depth : ℕ}
    {fields' : List (String × Json)} {s t : List Char},
    fieldsText depth fields ++ s = fieldsText depth fields' ++ t → fields = fields' ∧ s = t
  | [], _, [], _, _, h => ⟨rfl, List.append_cancel_left h⟩
  | [], _, (_, _) :: _, _, _, h => by cases h
  | (_, _) :: _, _, [], _, _, h => by cases h
  | (key, v) :: fields, depth, (key', v') :: fields', s, t, h => by
    rw [fieldsText_cons_append, fieldsText_cons_append] at h
    obtain ⟨rfl, hvalue⟩ := quoted_append_inj (List.append_cancel_left h)
    obtain ⟨rfl, hrest⟩ := text_append_inj v (ends_fieldsText _ _ _) (ends_fieldsText _ _ _)
      (List.append_cancel_left hvalue)
    obtain ⟨rfl, hst⟩ := fieldsText_append_inj fields hrest
    exact ⟨rfl, hst⟩

end

/-! ### Bytes -/

lemma marshalIndent_ne_nil (v : Json) : marshalIndent v ≠ [] := by
  obtain ⟨c, l, hv, -⟩ := text_eq_cons 0 v
  intro h
  have hempty : (String.ofList (text 0 v)).toUTF8 = ByteArray.empty :=
    ByteArray.ext (Array.toList_inj.mp h)
  have hnil := String.ofList_eq_empty_iff.mp (String.toByteArray_eq_empty_iff.mp hempty)
  rw [hv] at hnil
  cases hnil

/-- **No object's text is the beginning of another one's.** -/
theorem obj_of_isPrefix {fields fields' : List (String × Json)}
    (h : marshalIndent (.obj fields) <+: marshalIndent (.obj fields')) : fields = fields' := by
  obtain ⟨rest, hrest⟩ := h
  have hbytes : (text 0 (.obj fields)).utf8Encode ++ ByteArray.mk rest.toArray =
      (text 0 (.obj fields')).utf8Encode := by
    refine ByteArray.ext (Array.toList_inj.mp ?_)
    simpa [marshalIndent] using hrest
  obtain ⟨t, ht⟩ := List.isPrefix_of_utf8Encode_append_eq_utf8Encode _ hbytes
  rw [← List.append_nil (text 0 (.obj fields'))] at ht
  exact (fieldsText_append_inj fields (fieldsText_of_obj ht)).1

example : text 0 (.obj [("a", .arr [.int (-1), .null]), ("b", .obj [])]) =
    "\x7b\n  \"a\": [\n    -1,\n    null\n  ],\n  \"b\": \x7b\x7d\n\x7d".toList := by decide +kernel

end Json

end Awl
