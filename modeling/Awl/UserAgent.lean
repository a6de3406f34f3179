import Awl.Text

/-!
The user agent of a node, from which its peers read its version, and the system it was built for.

The text consists of parts between separators that are not escaped. What is read back are the parts
it was made of exactly if they do not contain the separators they are cut at.
-/

namespace Awl

/-! ### Separators -/

namespace Text

/-- `strings.LastIndex`, of a single character; `none` is `-1`. -/
def lastIndex (sep : Char) : List Char → Option ℕ
  | [] => none
  | c :: s =>
    match lastIndex sep s with
    | some i => some (i + 1)
    | none => if c = sep then some 0 else none

/-- `strings.Cut`, at a single character. -/
def cut (sep : Char) (s : List Char) : List Char × List Char × Bool :=
  if sep ∈ s then (s.takeWhile (· ≠ sep), (s.dropWhile (· ≠ sep)).tail, true) else (s, [], false)

variable {sep : Char}

lemma lastIndex_eq_none {s : List Char} (h : sep ∉ s) : lastIndex sep s = none := by
  induction s with
  | nil => rfl
  | cons c s ih =>
    rw [lastIndex, ih fun hs => h (List.mem_cons_of_mem c hs)]
    exact if_neg fun he => h (List.mem_cons.mpr (Or.inl he.symm))

lemma lastIndex_append (a : List Char) {b : List Char} (h : sep ∉ b) :
    lastIndex sep (a ++ sep :: b) = some a.length := by
  induction a with
  | nil => simp [lastIndex, lastIndex_eq_none h]
  | cons c a ih => simp [lastIndex, ih]

/-- The last separator splits the text, and does not occur in the rest. -/
lemma exists_last_split {s : List Char} (h : sep ∈ s) : ∃ a b, s = a ++ sep :: b ∧ sep ∉ b := by
  obtain ⟨b, a, hs, hb⟩ := List.eq_append_cons_of_mem (List.mem_reverse.mpr h)
  refine ⟨a.reverse, b.reverse, ?_, fun hmem => hb (List.mem_reverse.mp hmem)⟩
  rw [← List.reverse_reverse s, hs]
  simp

lemma cut_append {a : List Char} (h : sep ∉ a) (b : List Char) :
    cut sep (a ++ sep :: b) = (a, b, true) := by
  have hall : ∀ c ∈ a, decide (c ≠ sep) = true := fun c hc =>
    decide_eq_true fun he => h (he ▸ hc)
  rw [cut, if_pos (by simp), List.takeWhile_append_of_pos hall, List.dropWhile_append_of_pos hall]
  simp

lemma notMem_cut_fst (sep : Char) (s : List Char) : sep ∉ (cut sep s).1 := by
  unfold cut
  split
  · intro h
    simpa using List.mem_takeWhile_imp h
  · assumption

/-- What is cut off is there to begin with. -/
lemma mem_of_mem_cut {s : List Char} {c : Char} (h : c ∈ (cut sep s).1 ∨ c ∈ (cut sep s).2.1) :
    c ∈ s := by
  unfold cut at h
  split at h
  · rcases h with h | h
    · exact (List.takeWhile_prefix _).subset h
    · exact (List.dropWhile_suffix _).subset (List.mem_of_mem_tail h)
  · simpa using h

end Text

/-! ### User agents -/

namespace UserAgent

open Text

/-- `UserAgentPrefix`. -/
def agentName : List Char := "awl/".toList

/-- `UserAgent`, with `SystemInfo` in it. -/
def userAgent (goos goarch version : List Char) : List Char :=
  agentName ++ (goos ++ '-' :: goarch) ++ '/' :: version

/-- The user agent of versions that did not tell the system. -/
def oldUserAgent (version : List Char) : List Char := agentName ++ version

def versionFromUserAgent (userAgent : List Char) : List Char :=
  match lastIndex '/' userAgent with
  | none => []
  | some i => if i = userAgent.length - 1 then [] else userAgent.drop (i + 1)

def systemInfoFromUserAgent (userAgent : List Char) : List Char × List Char :=
  let userAgent := if agentName.isPrefixOf userAgent then userAgent.drop agentName.length
    else userAgent
  match cut '/' userAgent with
  | (_, _, false) => ([], [])
  | (systemInfo, _, true) => ((cut '-' systemInfo).1, (cut '-' systemInfo).2.1)

lemma versionFromUserAgent_append (a : List Char) {b : List Char} (h : '/' ∉ b) :
    versionFromUserAgent (a ++ '/' :: b) = b := by
  simp only [versionFromUserAgent, lastIndex_append a h]
  split
  · next hlast =>
    have hnil : b.length = 0 := by
      simp only [List.length_append, List.length_cons] at hlast
      omega
    exact (List.length_eq_zero_iff.mp hnil).symm
  · simp

lemma slash_notMem_version (s : List Char) : '/' ∉ versionFromUserAgent s := by
  by_cases h : '/' ∈ s
  · obtain ⟨a, b, rfl, hb⟩ := exists_last_split h
    rwa [versionFromUserAgent_append a hb]
  · simp [versionFromUserAgent, lastIndex_eq_none h]

/-- What is read as the system contains no slash, and its first part no dash. -/
lemma notMem_systemInfo (s : List Char) :
    '/' ∉ (systemInfoFromUserAgent s).1 ∧ '-' ∉ (systemInfoFromUserAgent s).1 ∧
      '/' ∉ (systemInfoFromUserAgent s).2 := by
  unfold systemInfoFromUserAgent
  dsimp only
  split
  · simp
  · next systemInfo _ hcut =>
    have hslash : '/' ∉ systemInfo := by
      have h := notMem_cut_fst '/' (if agentName.isPrefixOf s then s.drop agentName.length else s)
      rwa [hcut] at h
    exact ⟨fun h => hslash (mem_of_mem_cut (Or.inl h)), notMem_cut_fst '-' systemInfo,
      fun h => hslash (mem_of_mem_cut (Or.inr h))⟩

lemma systemInfoFromUserAgent_agentName (s : List Char) :
    systemInfoFromUserAgent (agentName ++ s) =
      match cut '/' s with
      | (_, _, false) => ([], [])
      | (systemInfo, _, true) => ((cut '-' systemInfo).1, (cut '-' systemInfo).2.1) := by
  have hname : agentName.isPrefixOf (agentName ++ s) = true :=
    List.isPrefixOf_iff_prefix.mpr (List.prefix_append _ _)
  simp only [systemInfoFromUserAgent, hname, if_true, List.drop_left]

/-- **What a peer reads back**: the version and the system a user agent was made of, exactly if none
of the three contains a slash and the name of the operating system contains no dash. Of an old user
agent, the version is read back under the same condition, and then no system is. -/
theorem userAgent_reads_back (goos goarch version : List Char) :
    (versionFromUserAgent (userAgent goos goarch version) = version ∧
        systemInfoFromUserAgent (userAgent goos goarch version) = (goos, goarch) ↔
      '/' ∉ version ∧ '/' ∉ goos ∧ '-' ∉ goos ∧ '/' ∉ goarch) ∧
    (versionFromUserAgent (oldUserAgent version) = version ∧
        systemInfoFromUserAgent (oldUserAgent version) = ([], []) ↔ '/' ∉ version) := by
  refine ⟨⟨fun ⟨hversion, hsystem⟩ => ?_, fun ⟨hversion, hos, hdash, harch⟩ => ?_⟩,
    fun ⟨hversion, _⟩ => ?_, fun hversion => ?_⟩
  · have hno := notMem_systemInfo (userAgent goos goarch version)
    rw [hsystem] at hno
    exact ⟨hversion ▸ slash_notMem_version _, hno⟩
  · refine ⟨versionFromUserAgent_append _ hversion, ?_⟩
    have hinfo : '/' ∉ goos ++ '-' :: goarch := by simp [hos, harch]
    rw [userAgent, List.append_assoc, systemInfoFromUserAgent_agentName, cut_append hinfo]
    simp only [cut_append hdash]
  · rw [← hversion]
    exact slash_notMem_version _
  · refine ⟨versionFromUserAgent_append "awl".toList hversion, ?_⟩
    rw [oldUserAgent, systemInfoFromUserAgent_agentName, cut, if_neg hversion]

end UserAgent

end Awl
