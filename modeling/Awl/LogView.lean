import Awl.RingBuffer
import Awl.Utf8

/-!
The log as the API shows it: what the ring buffer has kept, without the bytes that are not UTF-8,
and of that the first or the last rows.

The part that is kept may begin in the middle of a row, or of a character. The rows that are in it
as a whole are shown as they were written.
-/

namespace Awl

open Utf8

/-- `zapcore.DefaultLineEnding`. -/
def lineEnding : UInt8 := 0x0a

/-- `bytes.Trim` of line endings. -/
def trimLines (b : List UInt8) : List UInt8 :=
  (b.dropWhile (· = lineEnding)).rdropWhile (· = lineEnding)

structure LogRequest where
  startFromHead : Bool
  logsRows : ℤ

/-- `GetLog`; `none` is `400 Bad Request`. -/
def getLog (logBuffer : RingBuffer) (req : LogRequest) : Option (List UInt8) :=
  if req.logsRows < 0 then none
  else
    let b := logBuffer.bytes
    let b := if !valid b then toValid b else b
    let b := trimLines b
    let logLines := b.splitOn lineEnding
    if req.logsRows = 0 ∨ logLines.length ≤ req.logsRows then some b
    else
      let rows := req.logsRows.toNat
      let logLines := if req.startFromHead then logLines.take rows
        else logLines.drop (logLines.length - rows)
      some ([lineEnding].intercalate logLines)

/-- The rows, each with its end. -/
def written (rows : List (List UInt8)) : List UInt8 := rows.flatMap (· ++ [lineEnding])

/-- Rows of text. Empty ones would be trimmed away at the ends. -/
structure LogRows (rows : List (List UInt8)) : Prop where
  ne : rows ≠ []
  row : ∀ row ∈ rows, lineEnding ∉ row ∧ valid row = true
  first : rows.head? ≠ some []
  last : rows.getLast? ≠ some []

/-- There is nothing before, or it ends with a row. -/
def WholeRows (before : List UInt8) : Prop := before = [] ∨ ∃ l, before = l ++ [lineEnding]

namespace WholeRows

variable {l : List UInt8}

lemma rtake (h : WholeRows l) (n : ℕ) : WholeRows (l.rtake n) := by
  rcases h with rfl | ⟨l, rfl⟩
  · exact Or.inl (by simp)
  · cases n with
    | zero => exact Or.inl (List.rtake_zero _)
    | succ n => exact Or.inr ⟨l.rtake n, List.rtake_concat_succ _ _ _⟩

lemma toValid (h : WholeRows l) : WholeRows (Utf8.toValid l) := by
  rcases h with rfl | ⟨l, rfl⟩
  · exact Or.inl rfl
  · exact Or.inr ⟨Utf8.toValid l, toValid_append_ascii (by decide) l []⟩

/-- What comes after it is decoded by itself. -/
lemma toValid_append (h : WholeRows l) (l' : List UInt8) :
    Utf8.toValid (l ++ l') = Utf8.toValid l ++ Utf8.toValid l' := by
  rcases h with rfl | ⟨l, rfl⟩
  · rfl
  · have hl := toValid_append_ascii (c := lineEnding) (by decide) l []
    have hl' := toValid_append_ascii (c := lineEnding) (by decide) l l'
    rw [List.append_assoc, List.singleton_append, hl', hl, List.append_assoc]
    rfl

/-- Line endings at its beginning are taken away. -/
lemma dropWhile_append (h : WholeRows l) {l' : List UInt8} (hl' : l'.head? ≠ some lineEnding) :
    ∃ l₁, WholeRows l₁ ∧ (l ++ l').dropWhile (· = lineEnding) = l₁ ++ l' := by
  have hstay : l'.dropWhile (· = lineEnding) = l' := by
    cases l' with
    | nil => rfl
    | cons b l' => exact List.dropWhile_cons_of_neg (by simpa using hl')
  by_cases hd : l.dropWhile (· = lineEnding) = []
  · refine ⟨[], Or.inl rfl, ?_⟩
    rw [List.dropWhile_append, if_pos (by simpa using hd), hstay, List.nil_append]
  · refine ⟨l.dropWhile (· = lineEnding), ?_, ?_⟩
    · rcases h with rfl | ⟨l, rfl⟩
      · exact absurd rfl hd
      · right
        rw [List.dropWhile_append] at hd ⊢
        split_ifs at hd ⊢ with he
        · exact absurd (by simp) hd
        · exact ⟨_, rfl⟩
    · rw [List.dropWhile_append, if_neg (by simpa using hd)]

end WholeRows

namespace LogRows

variable {rows : List (List UInt8)}

lemma toValid_written (h : LogRows rows) : toValid (written rows) = written rows := by
  have hrows := h.row
  clear h
  induction rows with
  | nil => rfl
  | cons row rows ih =>
    have hrow := hrows row List.mem_cons_self
    have hsplit : written (row :: rows) = row ++ lineEnding :: written rows := by
      simp [written]
    rw [hsplit, toValid_append_ascii (by decide), toValid_of_valid hrow.2,
      ih fun r hr => hrows r (List.mem_cons_of_mem _ hr)]

/-- Without the end of the last row. -/
lemma written_eq (h : rows ≠ []) :
    written rows = [lineEnding].intercalate rows ++ [lineEnding] := by
  induction rows with
  | nil => exact absurd rfl h
  | cons row rows ih =>
    cases rows with
    | nil => simp [written]
    | cons row' rows =>
      have hsplit : written (row :: row' :: rows) =
          row ++ [lineEnding] ++ written (row' :: rows) := by simp [written]
      rw [hsplit, ih (List.cons_ne_nil _ _)]
      simp [List.intercalate, List.intersperse]

lemma intercalate_first (h : LogRows rows) :
    ∃ b l, [lineEnding].intercalate rows = b :: l ∧ b ≠ lineEnding := by
  obtain ⟨row, rows, rfl⟩ := List.exists_cons_of_ne_nil h.ne
  have hfirst : row ≠ [] := fun he => h.first (by rw [he]; rfl)
  obtain ⟨b, row, rfl⟩ := List.exists_cons_of_ne_nil hfirst
  have hb : b ≠ lineEnding := fun he =>
    (h.row _ List.mem_cons_self).1 (he ▸ List.mem_cons_self)
  cases rows with
  | nil => exact ⟨b, row, by simp [List.intercalate, List.intersperse], hb⟩
  | cons row' rows => exact ⟨b, _, by simp [List.intercalate, List.intersperse]; rfl, hb⟩

lemma intercalate_last (sep : List UInt8) {last : List UInt8} (hlast : rows.getLast? = some last) :
    ∃ l, sep.intercalate rows = l ++ last := by
  induction rows with
  | nil => cases hlast
  | cons row rows ih =>
    cases rows with
    | nil =>
      cases hlast
      exact ⟨[], by simp [List.intercalate, List.intersperse]⟩
    | cons row' rows =>
      obtain ⟨l, hl⟩ := ih (by rwa [List.getLast?_cons_cons] at hlast)
      refine ⟨row ++ sep ++ l, ?_⟩
      rw [List.append_assoc, ← hl]
      simp [List.intercalate, List.intersperse]

/-- The end of the last row is taken away, and no more. -/
lemma rdropWhile_append (h : LogRows rows) (l : List UInt8) :
    (l ++ written rows).rdropWhile (· = lineEnding) = l ++ [lineEnding].intercalate rows := by
  obtain ⟨last, hlast⟩ : ∃ last, rows.getLast? = some last :=
    ⟨_, List.getLast?_eq_some_getLast h.ne⟩
  obtain ⟨front, b, rfl⟩ := (List.eq_nil_or_concat last).resolve_left fun he =>
    h.last (he ▸ hlast)
  obtain ⟨t, ht⟩ := intercalate_last [lineEnding] hlast
  have hb : b ≠ lineEnding := fun he =>
    (h.row _ (List.mem_of_getLast? hlast)).1 (he ▸ by simp)
  rw [written_eq h.ne, ← List.append_assoc, List.rdropWhile_concat_pos _ _ _ (by simp), ht,
    List.concat_eq_append, ← List.append_assoc, ← List.append_assoc,
    List.rdropWhile_concat_neg _ _ _ (by simpa using hb)]

lemma trimLines_append (h : LogRows rows) {l : List UInt8} (hl : WholeRows l) :
    ∃ l₁, WholeRows l₁ ∧ trimLines (l ++ written rows) = l₁ ++ [lineEnding].intercalate rows := by
  have hhead : (written rows).head? ≠ some lineEnding := by
    obtain ⟨b, t, ht, hb⟩ := h.intercalate_first
    rw [written_eq h.ne, ht]
    simpa using hb
  obtain ⟨l₁, hl₁, hdrop⟩ := hl.dropWhile_append hhead
  exact ⟨l₁, hl₁, by rw [trimLines, hdrop, h.rdropWhile_append]⟩

/-- The rows are the last ones. -/
lemma splitOn_append (h : LogRows rows) {l : List UInt8} (hl : WholeRows l) :
    ∃ earlier, (l ++ [lineEnding].intercalate rows).splitOn lineEnding = earlier ++ rows ∧
      (earlier = [] → l = []) := by
  have hrows : ([lineEnding].intercalate rows).splitOn lineEnding = rows :=
    List.splitOn_intercalate _ (fun row hrow => (h.row row hrow).1) h.ne
  rcases hl with rfl | ⟨l, rfl⟩
  · exact ⟨[], hrows, fun _ => rfl⟩
  · refine ⟨l.splitOn lineEnding, ?_, fun he => absurd he (List.splitOn_ne_nil _ _)⟩
    have hsep : (· == lineEnding) lineEnding = true := by simp
    have hsplit := List.splitOnP_append_cons (p := (· == lineEnding)) l
      ([lineEnding].intercalate rows) hsep
    rw [List.append_assoc, List.singleton_append]
    exact hsplit.trans (congrArg _ hrows)

end LogRows

/-- What is shown of a part that ends with the rows. -/
lemma getLog_rows {rows : List (List UInt8)} (h : LogRows rows) {logBuffer : RingBuffer}
    {before : List UInt8} (hb : WholeRows before)
    (hbytes : logBuffer.bytes = before ++ written rows) :
    getLog logBuffer ⟨false, rows.length⟩ = some ([lineEnding].intercalate rows) := by
  have hvalid : (if !valid logBuffer.bytes then toValid logBuffer.bytes else logBuffer.bytes) =
      toValid before ++ written rows := by
    rw [← h.toValid_written, ← hb.toValid_append, ← hbytes]
    cases hv : valid logBuffer.bytes with
    | false => rfl
    | true => exact (toValid_of_valid hv).symm
  obtain ⟨l, hl, htrim⟩ := h.trimLines_append hb.toValid
  obtain ⟨earlier, hsplit, hearlier⟩ := h.splitOn_append hl
  have hrows : rows.length ≠ 0 := fun he => h.ne (List.length_eq_zero_iff.mp he)
  simp only [getLog, hvalid, htrim, hsplit]
  rw [if_neg (by omega)]
  by_cases he : earlier = []
  · rw [if_pos (by simp [he]), hearlier he, List.nil_append]
  · have hpos := List.length_pos_iff.mpr he
    rw [if_neg (by simp [hrows]; omega)]
    simp

/-- The newest bytes are kept as long as every write finds room. -/
lemma newest_of_meets {size : ℕ} (es : List (RingCall size))
    (hes : Runs.Meets RingLog.step RingLog.Fits (RingLog.new size) es) :
    (es.foldl RingLog.step (RingLog.new size)).ring.bytes =
      (es.foldl RingLog.step (RingLog.new size)).data.rtake size := by
  have hnew : (RingLog.new size).Newest := ⟨fun e he => absurd he List.not_mem_nil, by
    rw [RingBuffer.bytes_eq]
    rfl⟩
  obtain ⟨hsize, hnewest⟩ := Runs.Holds.last (Runs.holds_of_meets
    (I := fun s : RingLog => s.ring.size = size ∧ s.Newest)
    (P := fun s : RingLog => s.ring.size = size ∧ s.Newest)
    (fun s e hs he => ⟨(s.size_step e).trans hs.1,
      (RingLog.newest_step_iff hs.2 hs.1 e).mpr he⟩) (fun _ hs => hs) es _ ⟨rfl, hnew⟩ hes)
  rw [hnewest.bytes, hsize]

/-- Three rows, of which ten bytes are kept: the first of them is the second half of an accented
letter. -/
def threeRows : List (RingCall 10) :=
  [.write [0x61, 0xc3, 0xa9, 0x0a] (by decide), .write [0x62, 0x63, 0x64, 0x0a] (by decide),
    .write [0xc3, 0xa9, 0x65, 0x0a] (by decide)]

end Awl
