import Awl.DnsMaps
import Awl.ReadBack

/-!
The names of queries, from the wire to the map of the resolver.

A query has labels, which are bytes. The DNS library hands them on as text, in which some bytes are
escaped. The map has the text that the user has chosen, where nothing is escaped. How the library
writes labels is assumed.
-/

namespace Awl

open Text

namespace Dns

/-! ### Names on the wire -/

/-- A name as it is sent, without the empty label at its end. -/
structure WireName where
  labels : List (List UInt8)
  label_ne_nil : ∀ label ∈ labels, label ≠ []
  label_le : ∀ label ∈ labels, label.length ≤ 63
  length_le : (labels.map fun label => label.length + 1).sum + 1 ≤ 255

/-- The codes of `' @ ; ( ) " \`. -/
def marks : List ℕ := [0x27, 0x40, 0x3b, 0x28, 0x29, 0x22, 0x5c]

/-- The bytes that are escaped by a backslash: dots, spaces, and the marks above. -/
def labelSpecials : List ℕ := 0x2e :: 0x20 :: marks

/-- A byte as `\DDD`. -/
def escapeByte (b : UInt8) : List Char :=
  ['\\', Nat.digitChar (b.toNat / 100), Nat.digitChar (b.toNat / 10 % 10),
    Nat.digitChar (b.toNat % 10)]

/-- A byte of a label as `dns.UnpackDomainName` writes it. -/
def presentByte (b : UInt8) : List Char :=
  if b.toNat ∈ labelSpecials then ['\\', Char.ofNat b.toNat]
  else if b.toNat < 0x20 ∨ 0x7e < b.toNat then escapeByte b
  else [Char.ofNat b.toNat]

/-- The name of the question that the handler gets. -/
def WireName.text (q : WireName) : String :=
  String.ofList (q.labels.flatMap fun label => label.flatMap presentByte ++ ['.'])

/-- The labels of a name under `.awl`: the bytes of the parts of the name. -/
def wireLabels (d : String) : List (List UInt8) :=
  (d.toList.splitOn '.' ++ [localDomain.toList]).map fun part =>
    part.flatMap String.utf8EncodeChar

/-! ### Character by character -/

/-- What becomes of a character on its way. -/
def presentChar (c : Char) : List Char :=
  if c = '.' then ['.'] else (String.utf8EncodeChar c).flatMap presentByte

lemma splitOn_flatMap (cs : List Char) (f : Char → List Char) :
    ((cs.splitOn '.').flatMap fun part => part.flatMap f ++ ['.']) =
      (cs.flatMap fun c => if c = '.' then ['.'] else f c) ++ ['.'] := by
  induction cs with
  | nil => rfl
  | cons c cs ih =>
    rw [List.splitOn, List.splitOnP_cons_eq_if_modifyHead, ← List.splitOn]
    by_cases hc : c = '.'
    · simp [hc, ih]
    · obtain ⟨part, parts, hparts⟩ := List.exists_cons_of_ne_nil (List.splitOn_ne_nil '.' cs)
      rw [hparts] at ih ⊢
      simpa [hc] using ih

lemma WireName.text_eq {q : WireName} {d : String} (h : q.labels = wireLabels d) :
    q.text = String.ofList (d.toList.flatMap presentChar ++ ".awl.".toList) := by
  have hdomain : localDomain.toList.flatMap (fun c =>
      (String.utf8EncodeChar c).flatMap presentByte) ++ ['.'] = "awl.".toList := by decide
  have hparts := splitOn_flatMap d.toList fun c => (String.utf8EncodeChar c).flatMap presentByte
  rw [WireName.text, h, wireLabels]
  congr 1
  simp only [List.flatMap_map, List.flatMap_append, List.flatMap_assoc, List.flatMap_singleton]
  rw [hparts, hdomain, List.append_assoc]
  rfl

/-- The printable characters of ASCII, but for the marks. -/
def IsPlain (c : Char) : Prop := 0x20 ≤ c.toNat ∧ c.toNat ≤ 0x7e ∧ c.toNat ∉ marks

instance (c : Char) : Decidable (IsPlain c) := inferInstanceAs (Decidable (_ ∧ _))

lemma length_le_flatMap {α β : Type} {f : α → List β} (hf : ∀ a, 1 ≤ (f a).length) (l : List α) :
    l.length ≤ (l.flatMap f).length := by
  induction l with
  | nil => exact le_rfl
  | cons a l ih =>
    have ha := hf a
    rw [List.flatMap_cons, List.length_append, List.length_cons]
    omega

lemma length_lt_flatMap {α β : Type} {f : α → List β} (hf : ∀ a, 1 ≤ (f a).length) {l : List α}
    {a : α} (ha : a ∈ l) (hlong : 2 ≤ (f a).length) : l.length < (l.flatMap f).length := by
  obtain ⟨s, t, rfl⟩ := List.append_of_mem ha
  have hs := length_le_flatMap hf s
  have ht := length_le_flatMap hf t
  rw [List.flatMap_append, List.flatMap_cons, List.length_append, List.length_append,
    List.length_append, List.length_cons]
  omega

lemma presentByte_length_pos (b : UInt8) : 1 ≤ (presentByte b).length := by
  rw [presentByte]
  split_ifs <;> simp [escapeByte]

lemma presentChar_length_pos (c : Char) : 1 ≤ (presentChar c).length := by
  rw [presentChar]
  split_ifs with hdot
  · simp
  · refine le_trans ?_ (length_le_flatMap presentByte_length_pos _)
    rw [String.length_utf8EncodeChar]
    exact c.utf8Size_pos

/-- An ASCII character is one byte. -/
lemma presentChar_of_ascii {c : Char} (h : c.toNat < 128) (hdot : c ≠ '.') :
    presentChar c =
      if c.toNat ∈ labelSpecials then ['\\', c]
      else if c.toNat < 0x20 ∨ 0x7e < c.toNat then escapeByte (UInt8.ofNat c.toNat)
      else [c] := by
  have hbyte : (UInt8.ofNat c.toNat).toNat = c.toNat := by
    rw [UInt8.toNat_ofNat']
    omega
  have hencode : String.utf8EncodeChar c = [UInt8.ofNat c.toNat] :=
    String.utf8EncodeChar_eq_singleton (Char.utf8Size_eq_one_iff.2 (Nat.le_of_lt_succ h))
  rw [presentChar, if_neg hdot, hencode, List.flatMap_singleton, presentByte, hbyte,
    Char.ofNat_toNat]

lemma presentChar_of_plain {c : Char} (h : IsPlain c) (hspace : c ≠ ' ') : presentChar c = [c] := by
  obtain ⟨hlow, hhigh, hspecial⟩ := h
  by_cases hdot : c = '.'
  · simp [presentChar, hdot]
  · have hne : c.toNat ∉ labelSpecials := by
      simp only [labelSpecials, List.mem_cons, not_or]
      exact ⟨fun h => hdot (Char.toNat_inj.1 h), fun h => hspace (Char.toNat_inj.1 h), hspecial⟩
    rw [presentChar_of_ascii (by omega) hdot, if_neg hne, if_neg (by omega)]

/-- The others become longer. -/
lemma presentChar_of_not_plain {c : Char} (h : ¬ IsPlain c) : 2 ≤ (presentChar c).length := by
  have hdot : c ≠ '.' := by
    rintro rfl
    exact h (by decide)
  by_cases hascii : c.toNat < 128
  · rw [presentChar_of_ascii hascii hdot]
    split_ifs with hspecial hprint
    · simp
    · simp [escapeByte]
    · have hmarks : c.toNat ∉ marks := fun hmem =>
        hspecial (List.mem_cons_of_mem _ (List.mem_cons_of_mem _ hmem))
      exact absurd ⟨by omega, by omega, hmarks⟩ h
  · rw [presentChar, if_neg hdot]
    refine le_trans ?_ (length_le_flatMap presentByte_length_pos _)
    have hsize : c.utf8Size ≠ 1 := fun hone =>
      hascii (Nat.lt_succ_of_le (Char.utf8Size_eq_one_iff.1 hone))
    have hpos := c.utf8Size_pos
    rw [String.length_utf8EncodeChar]
    omega

/-! ### Accepted names -/

variable {env : Env} {d : String}

/-- An accepted name has been trimmed, and is in lower case. -/
lemma fixed_of_isValidDomainName (h : env.isValidDomainName d = true) :
    ∀ c ∈ d.toList, env.toLower (if isSpace c then '_' else c) = c := by
  rw [Env.isValidDomainName, Bool.and_eq_true, beq_iff_eq] at h
  have htrim := congrArg String.toList h.2
  rw [Env.trimDomainName, String.toList_ofList] at htrim
  -- nothing has been trimmed off, since there are as many characters as before
  have hsub : ((trimSpace d).toList).Sublist d.toList := by
    rw [trimSpace_toList]
    exact (List.rdropWhile_prefix _ _).sublist.trans (List.dropWhile_sublist _)
  have hall : (trimSpace d).toList = d.toList := by
    refine hsub.eq_of_length ?_
    have hlength := congrArg List.length htrim
    rw [List.length_map] at hlength
    exact hlength.symm
  rw [hall] at htrim
  have hid : d.toList.map (fun c => env.toLower (if isSpace c then '_' else c)) =
      d.toList.map id := by rw [← htrim, List.map_id]
  exact List.map_inj_left.1 hid

lemma ne_space_of_isValidDomainName (henv : LowersAscii env) (h : env.isValidDomainName d = true)
    {c : Char} (hc : c ∈ d.toList) : c ≠ ' ' := by
  rintro rfl
  have hfixed := fixed_of_isValidDomainName h ' ' hc
  rw [if_pos (by decide), henv '_' (by decide)] at hfixed
  exact absurd hfixed (by decide)

/-- The text of a query for a name without marks. -/
lemma WireName.text_of_plain {q : WireName} (hq : q.labels = wireLabels d)
    (hspace : ∀ c ∈ d.toList, c ≠ ' ') (hplain : ∀ c ∈ d.toList, IsPlain c) :
    q.text = d ++ ".awl." := by
  have hchars : d.toList.flatMap presentChar = d.toList := by
    rw [List.flatMap_congr fun c hc => presentChar_of_plain (hplain c hc) (hspace c hc),
      List.flatMap_singleton']
  rw [text_eq hq, hchars, ← String.toList_append, String.ofList_toList]

/-- The text of a query for another name is too long. -/
lemma WireName.length_lt_text {q : WireName} (hq : q.labels = wireLabels d) {c : Char}
    (hc : c ∈ d.toList) (hplain : ¬ IsPlain c) :
    (d ++ ".awl.").toList.length < q.text.toList.length := by
  have hlt := length_lt_flatMap presentChar_length_pos hc (presentChar_of_not_plain hplain)
  rw [text_eq hq, String.toList_ofList, String.toList_append, List.length_append,
    List.length_append]
  omega

lemma ascii_of_plain (h : ∀ c ∈ d.toList, IsPlain c) : Ascii d := fun c hc =>
  Nat.lt_succ_of_le ((h c hc).2.1.trans (by decide))

/-- **Accepted names are found**, whatever the other names are, exactly if they are of printable
ASCII characters other than the marks. -/
theorem acceptedName_found_iff (henv : LowersAscii env) (hvalid : env.isValidDomainName d = true)
    {q : WireName} (hq : q.labels = wireLabels d) :
    (∀ upstreamDNS namesMapping ns, GoMap.Ranges namesMapping ns →
        ∀ ip, namesMapping.lookup d = some ip →
          ∃ mappedIP, (receiveConfiguration upstreamDNS namesMapping ns).lookupHost env q.text =
            some mappedIP) ↔
      ∀ c ∈ d.toList, IsPlain c := by
  constructor
  · intro h c hc
    by_contra hplain
    -- no other names
    have hranges : GoMap.Ranges ((∅ : GoMap String String).insert d "") [d] :=
      ⟨List.nodup_singleton d, fun k => by
        rw [List.mem_singleton, Finmap.mem_insert, or_iff_left Finmap.notMem_empty]⟩
    obtain ⟨mappedIP, hfound⟩ := h "" _ [d] hranges "" (Finmap.lookup_insert _)
    rw [ResolverConfig.lookupHost, directMapping_eq] at hfound
    obtain ⟨key, ip, hkey, hentry⟩ := GoMap.mem_of_build hfound
    have hd : key = d := by
      by_contra hne
      rw [Finmap.lookup_insert_of_ne _ hne, Finmap.lookup_empty] at hkey
      cases hkey
    obtain ⟨hname, -⟩ := Prod.mk.inj (List.mem_singleton.1 hentry)
    have hlength := congrArg (fun x => x.toList.length) hname
    have hlt := q.length_lt_text hq hc hplain
    rw [hd, zoneName_eq, Env.lower] at hlength
    simp only [String.toList_ofList, List.length_map] at hlength
    omega
  · intro hplain upstreamDNS namesMapping ns hns ip hip
    have htext : q.text = d ++ ".awl." :=
      WireName.text_of_plain hq (fun c hc => ne_space_of_isValidDomainName henv hvalid hc) hplain
    have hname : env.lower q.text = zoneName d := by
      rw [htext, lower_eq_zoneName_iff henv (ascii_zone (ascii_of_plain hplain))]
      rfl
    have hmem : d ∈ ns := (hns.2 d).2 (Finmap.mem_of_lookup_eq_some hip)
    rw [ResolverConfig.lookupHost, hname, directMapping_eq]
    exact Finmap.mem_iff.1 (GoMap.mem_build_of_mem hmem hip (List.mem_singleton_self _))

/-- The names of a peer, and the one of the admin page. -/
def peerNames (domainName : String) : GoMap String String :=
  (((∅ : GoMap String String).insert "12D3KooWGRjp" "10.66.0.2").insert
    domainName "10.66.0.2").insert adminHttpServerDomainName adminHttpServerIP

/-- `büro`, on the wire. -/
def wireBuero : WireName where
  labels := [[0x62, 0xc3, 0xbc, 0x72, 0x6f], [0x61, 0x77, 0x6c]]
  label_ne_nil := by decide
  label_le := by decide
  length_le := by decide

/-- An accepted name that is not found. -/
theorem buero_notFound :
    dnsEnv.isValidDomainName "büro" = true ∧ wireBuero.labels = wireLabels "büro" ∧
      wireBuero.text = "b\\195\\188ro.awl." ∧
      (peerNames "büro").lookup "büro" = some "10.66.0.2" ∧
      (receiveConfiguration "1.1.1.1:53" (peerNames "büro")
        ["12D3KooWGRjp", "büro", "admin"]).lookupHost dnsEnv wireBuero.text = none := by
  refine ⟨by decide, by decide, by decide, by decide, by decide⟩

/-- `office`, on the wire. -/
def wireOffice : WireName where
  labels := [[0x6f, 0x66, 0x66, 0x69, 0x63, 0x65], [0x61, 0x77, 0x6c]]
  label_ne_nil := by decide
  label_le := by decide
  length_le := by decide

theorem office_found :
    ∃ mappedIP, (receiveConfiguration "1.1.1.1:53" (peerNames "office")
      ["12D3KooWGRjp", "office", "admin"]).lookupHost dnsEnv wireOffice.text = some mappedIP := by
  have hplain : "office".toList.all (fun c => decide (IsPlain c)) = true := by decide
  have hall : ∀ c ∈ "office".toList, IsPlain c := fun c hc =>
    of_decide_eq_true (List.all_eq_true.1 hplain c hc)
  exact (acceptedName_found_iff (q := wireOffice) (fun _ _ => rfl) (by decide) (by decide)).2
    hall "1.1.1.1:53" (peerNames "office") _ (by decide) "10.66.0.2" rfl

end Dns

end Awl
