import Awl.Addresses
import Awl.Dns

/-!
The handlers of the resolver: names under `.awl` and reverse names of IPv4 addresses are answered
from its maps, what the second handler does not find is sent to the upstream server.

Messages are those of the DNS library, with the fields the handlers set or copy; what its
`SetReply` and `SetRcode` do is assumed. How a reply is packed and cut to the size of a datagram is
left out.
-/

namespace Awl

open NetIP Text

/-- `strings.ToLower`. -/
def Env.lower (env : Env) (s : String) : String := String.ofList (s.toList.map env.toLower)

namespace Dns

/-! ### Messages -/

inductive QType
  | a | aaaa | any | ptr
  | other (code : ℕ)
  deriving DecidableEq

structure Question where
  name : String
  qtype : QType
  deriving DecidableEq

inductive Rcode
  | success | serverFailure | nameError
  deriving DecidableEq

structure RRHeader where
  name : String
  ttl : ℕ
  deriving DecidableEq

/-- The records that the handlers make. -/
inductive RR
  | a (hdr : RRHeader) (ip : IP)
  | ptr (hdr : RRHeader) (name : String)
  deriving DecidableEq

def RR.owner : RR → String
  | a hdr _ => hdr.name
  | ptr hdr _ => hdr.name

structure Msg where
  id : ℕ := 0
  response : Bool := false
  opcode : ℕ := 0
  authoritative : Bool := false
  recursionDesired : Bool := false
  recursionAvailable : Bool := false
  checkingDisabled : Bool := false
  rcode : Rcode := .success
  question : List Question := []
  answer : List RR := []
  deriving DecidableEq

def opcodeQuery : ℕ := 0

namespace Msg

/-- `SetReply`. The answers are left as they are. -/
def setReply (m request : Msg) : Msg :=
  { m with
    id := request.id
    response := true
    opcode := request.opcode
    recursionDesired := if request.opcode = opcodeQuery then request.recursionDesired
      else m.recursionDesired
    checkingDisabled := if request.opcode = opcodeQuery then request.checkingDisabled
      else m.checkingDisabled
    rcode := .success
    question := if request.question = [] then m.question else request.question.take 1 }

/-- `SetRcode`, which makes the reply anew. -/
def setRcode (m request : Msg) (rcode : Rcode) : Msg := { m.setReply request with rcode := rcode }

@[simp] lemma setReply_answer (m request : Msg) : (m.setReply request).answer = m.answer := rfl

@[simp] lemma setRcode_answer (m request : Msg) (rcode : Rcode) :
    (m.setRcode request rcode).answer = m.answer := rfl

end Msg

/-- What a handler does with a request. -/
inductive Outcome
  | ignored
  | reply (m : Msg)
  | forwarded

def defaultTTLSeconds : ℕ := 60

/-- The flags that `processOwnResponse` sets. Its truncation to what the transport carries is left
out. -/
def processOwnResponse (resp : Msg) : Msg :=
  { resp with authoritative := true, recursionAvailable := true }

/-! ### Names of the local domain -/

/-- The address found for the name of a question. -/
def ResolverConfig.lookupHost (cfg : ResolverConfig) (env : Env) (hostname : String) :
    Option String :=
  cfg.directMapping.lookup (env.lower hostname)

/-- The types of questions that are answered with an address. -/
def QType.asksAddress : QType → Bool
  | a | aaaa | any => true
  | _ => false

/-- The body of the loop of `dnsLocalDomainHandler`. -/
def answerQuestion (env : Env) (cfg : ResolverConfig) (req m : Msg) (question : Question) : Msg :=
  let hostname := question.name
  let found := cfg.lookupHost env hostname
  if question.qtype.asksAddress then
    let hdr : RRHeader := { name := hostname, ttl := defaultTTLSeconds }
    match found with
    | some mappedIP => { m with answer := m.answer ++ [.a hdr (to4 (parseIP mappedIP))] }
    | none =>
      -- the record is made before the name is looked up, and appended without an address
      let m := m.setRcode req .nameError
      { m with answer := m.answer ++ [.a hdr []] }
  else m

def dnsLocalDomainHandler (env : Env) (cfg : ResolverConfig) (req : Msg) : Outcome :=
  if req.question = [] then .ignored
  else
    let m := ({} : Msg).setReply req
    .reply (processOwnResponse (req.question.foldl (answerQuestion env cfg req) m))

/-! ### Reverse names -/

def ptrV4Suffix : String := ".in-addr.arpa."

def ptrV4NameToIP (name : String) : IP :=
  let s := trimSuffix name ptrV4Suffix
  match to4 (parseIP s) with
  | [a, b, c, d] => [d, c, b, a]
  | _ => []

def ptrv4Handler (cfg : ResolverConfig) (req : Msg) : Outcome :=
  match req.question with
  | [] => .forwarded
  | question :: _ =>
    if question.qtype ≠ .ptr then .forwarded
    else
      let name := question.name
      let ip := ptrV4NameToIP name
      if ip = [] then .forwarded
      else
        match cfg.reverseMapping.lookup (ipString ip) with
        | none => .forwarded
        | some mappedName =>
          let m := ({} : Msg).setReply req
          let ptr : RR := .ptr { name := name, ttl := defaultTTLSeconds } mappedName
          .reply (processOwnResponse { m with answer := m.answer ++ [ptr] })

/-! ### The answers of the first handler -/

variable {env : Env} {cfg : ResolverConfig} {req : Msg}

/-- The record that a question adds. -/
def answerRecord (env : Env) (cfg : ResolverConfig) (question : Question) : RR :=
  .a { name := question.name, ttl := defaultTTLSeconds }
    (((cfg.lookupHost env question.name).map fun ip => to4 (parseIP ip)).getD [])

lemma answerQuestion_answer (m : Msg) (question : Question) :
    (answerQuestion env cfg req m question).answer =
      m.answer ++ if question.qtype.asksAddress then [answerRecord env cfg question] else [] := by
  rw [answerQuestion, answerRecord]
  split_ifs with hq
  · rcases cfg.lookupHost env question.name with _ | ip
    · rfl
    · rfl
  · rw [List.append_nil]

/-- The questions that ask for an address are answered one by one, whether or not their names are
found. -/
lemma foldl_answer (questions : List Question) : ∀ m : Msg,
    (questions.foldl (answerQuestion env cfg req) m).answer =
      m.answer ++ (questions.filter fun q => q.qtype.asksAddress).map (answerRecord env cfg) := by
  induction questions with
  | nil => exact fun m => (List.append_nil _).symm
  | cons q questions ih =>
    intro m
    rw [List.foldl_cons, ih, answerQuestion_answer, List.append_assoc, List.filter_cons]
    split_ifs with hq
    · rfl
    · rfl

lemma dnsLocalDomainHandler_reply {m : Msg} (h : dnsLocalDomainHandler env cfg req = .reply m) :
    m.answer = (req.question.filter fun q => q.qtype.asksAddress).map (answerRecord env cfg) := by
  unfold dnsLocalDomainHandler at h
  split_ifs at h with hq
  cases h
  exact (foldl_answer req.question _).trans (List.nil_append _)

/-- There is a reply if there is a question. -/
lemma exists_reply (env : Env) (cfg : ResolverConfig) {q : Question} (hq : q ∈ req.question) :
    ∃ m, dnsLocalDomainHandler env cfg req = .reply m := by
  rw [dnsLocalDomainHandler, if_neg (List.ne_nil_of_mem hq)]
  exact ⟨_, rfl⟩

/-- The answers are well formed: an address record belongs to a question and has the four bytes
that its name is mapped to, and there is none for a name that is not mapped. -/
structure WellFormed (env : Env) (cfg : ResolverConfig) (req m : Msg) : Prop where
  records : ∀ hdr ip, RR.a hdr ip ∈ m.answer → (∃ q ∈ req.question, q.name = hdr.name) ∧
    ∃ mappedIP, cfg.lookupHost env hdr.name = some mappedIP ∧ ip = to4 (parseIP mappedIP) ∧
      ip.length = 4
  unmapped : ∀ q ∈ req.question, cfg.lookupHost env q.name = none →
    ∀ rr ∈ m.answer, rr.owner ≠ q.name

/-- **The answers are well formed** exactly if every name of which an address is asked is
mapped. -/
theorem answers_wellFormed_iff (env : Env) (cfg : ResolverConfig)
    (hvalid : ∀ name ip, cfg.directMapping.lookup name = some ip → to4 (parseIP ip) ≠ [])
    (req : Msg) :
    (∀ m, dnsLocalDomainHandler env cfg req = .reply m → WellFormed env cfg req m) ↔
      ∀ q ∈ req.question, q.qtype.asksAddress = true → cfg.lookupHost env q.name ≠ none := by
  constructor
  · intro h q hq hasks hnone
    obtain ⟨m, hm⟩ := exists_reply env cfg hq
    have hrecord : answerRecord env cfg q ∈ m.answer := by
      rw [dnsLocalDomainHandler_reply hm]
      exact List.mem_map_of_mem (List.mem_filter.2 ⟨hq, hasks⟩)
    exact (h m hm).unmapped q hq hnone _ hrecord rfl
  · intro hmapped m hm
    have hanswer := dnsLocalDomainHandler_reply hm
    -- a record is that of a question whose name is mapped
    have hcases : ∀ rr ∈ m.answer, ∃ q ∈ req.question, rr = answerRecord env cfg q ∧
        ∃ mappedIP, cfg.lookupHost env q.name = some mappedIP := by
      intro rr hrr
      rw [hanswer] at hrr
      obtain ⟨q, hq, rfl⟩ := List.mem_map.1 hrr
      obtain ⟨hq, hasks⟩ := List.mem_filter.1 hq
      exact ⟨q, hq, rfl, Option.ne_none_iff_exists'.1 (hmapped q hq hasks)⟩
    refine ⟨fun hdr ip hrr => ?_, fun q _ hnone rr hrr howner => ?_⟩
    · obtain ⟨q, hq, heq, mappedIP, hip⟩ := hcases _ hrr
      rw [answerRecord, hip] at heq
      cases heq
      refine ⟨⟨q, hq, rfl⟩, mappedIP, hip, rfl, ?_⟩
      exact (to4_length (parseIP mappedIP)).resolve_left (hvalid _ mappedIP hip)
    · obtain ⟨q', -, rfl, mappedIP, hip⟩ := hcases _ hrr
      have hname : q'.name = q.name := howner
      rw [hname, hnone] at hip
      cases hip

/-- A resolver that knows one name. -/
def officeConfig : ResolverConfig where
  upstreamDNS := ""
  directMapping := (∅ : GoMap String String).insert "office.awl." "10.66.0.2"
  reverseMapping := (∅ : GoMap String String).insert "10.66.0.2" "office.awl."

lemma officeConfig_valid (name ip : String)
    (h : officeConfig.directMapping.lookup name = some ip) : to4 (parseIP ip) ≠ [] := by
  rw [officeConfig, GoMap.lookup_insert_ite] at h
  split_ifs at h
  · cases h
    decide
  · cases h

def addressQuery (names : List String) : Msg where
  id := 7
  question := names.map fun name => { name := name, qtype := .a }

/-- The name is not found, and there is an address record without an address. -/
theorem unknownName_answered :
    (∀ name ip, officeConfig.directMapping.lookup name = some ip → to4 (parseIP ip) ≠ []) ∧
    (∃ m, dnsLocalDomainHandler sampleEnv officeConfig (addressQuery ["unknown.awl."]) = .reply m ∧
      m.rcode = .nameError ∧ m.answer = [.a { name := "unknown.awl.", ttl := 60 } []]) ∧
    ¬ ∀ m, dnsLocalDomainHandler sampleEnv officeConfig (addressQuery ["unknown.awl."]) = .reply m →
      WellFormed sampleEnv officeConfig (addressQuery ["unknown.awl."]) m := by
  have hreply : ∃ m, dnsLocalDomainHandler sampleEnv officeConfig
      (addressQuery ["unknown.awl."]) = .reply m ∧ m.rcode = .nameError ∧
      m.answer = [.a { name := "unknown.awl.", ttl := 60 } []] := ⟨_, rfl, by decide, by decide⟩
  refine ⟨officeConfig_valid, hreply, fun h => ?_⟩
  obtain ⟨m, hm, -, hanswer⟩ := hreply
  obtain ⟨-, mappedIP, -, -, hlen⟩ := (h m hm).records { name := "unknown.awl.", ttl := 60 } []
    (by rw [hanswer]; exact List.mem_singleton_self _)
  cases hlen

/-- Two questions for the name that is known, in different letter case. -/
theorem knownName_answered :
    (∀ m, dnsLocalDomainHandler sampleEnv officeConfig
        (addressQuery ["office.awl.", "OFFICE.awl."]) = .reply m →
      WellFormed sampleEnv officeConfig (addressQuery ["office.awl.", "OFFICE.awl."]) m) ∧
    ∃ m, dnsLocalDomainHandler sampleEnv officeConfig
        (addressQuery ["office.awl.", "OFFICE.awl."]) = .reply m ∧
      m.answer = [.a { name := "office.awl.", ttl := 60 } [10, 66, 0, 2],
        .a { name := "OFFICE.awl.", ttl := 60 } [10, 66, 0, 2]] :=
  ⟨(answers_wellFormed_iff sampleEnv officeConfig officeConfig_valid _).2 (by decide),
    _, rfl, by decide⟩

/-! ### The answers of the second handler -/

/-- The name of an address in the reverse domain. -/
def reverseName (a b c d : UInt8) : String := dotted d c b a ++ ptrV4Suffix

lemma toNat_of_isDigit {c : Char} (h : c.isDigit = true) : c.toNat ≤ 57 := by
  rw [Char.isDigit, Bool.and_eq_true, decide_eq_true_eq, decide_eq_true_eq] at h
  exact h.2

/-- What is read as a dotted quad consists of digits and dots. -/
lemma parseIPv4Fields_chars {cs : List Char} {ip : IP} (h : parseIPv4Fields cs = some ip) :
    ∀ c ∈ cs, c.isDigit = true ∨ c = '.' := by
  have hoctet : ∀ {f : List Char} {b : UInt8}, parseOctet f = some b →
      ∀ c ∈ f, c.isDigit = true := by
    intro f b hf
    unfold parseOctet at hf
    split_ifs at hf with hdigits
    exact List.all_eq_true.1 hdigits.2.1
  have hcs : ['.'].intercalate (cs.splitOn '.') = cs := List.intercalate_splitOn '.'
  unfold parseIPv4Fields at h
  split at h
  · next f0 f1 f2 f3 hsplit =>
    simp only [Option.bind_eq_bind, Option.bind_eq_some_iff] at h
    obtain ⟨a, ha, b, hb, c, hc, d, hd, -⟩ := h
    rw [hsplit] at hcs
    simp only [List.intercalate, List.intersperse, List.flatten_cons, List.flatten_nil,
      List.append_nil] at hcs
    intro x hx
    rw [← hcs] at hx
    simp only [List.mem_append, List.mem_singleton] at hx
    rcases hx with hx | rfl | hx | rfl | hx | rfl | hx
    · exact Or.inl (hoctet ha x hx)
    · exact Or.inr rfl
    · exact Or.inl (hoctet hb x hx)
    · exact Or.inr rfl
    · exact Or.inl (hoctet hc x hx)
    · exact Or.inr rfl
    · exact Or.inl (hoctet hd x hx)
  · cases h

/-- A text without colons that has other characters than digits and dots is no address. -/
lemma parseIP_eq_nil {s : String} (hcolon : ':' ∉ s.toList) {c : Char} (hc : c ∈ s.toList)
    (hlarge : 57 < c.toNat) : parseIP s = [] := by
  have hnone : parseAddr s = none := by
    unfold parseAddr
    split
    · rcases hp : parseIPv4Fields s.toList with _ | ip
      · rfl
      · rcases parseIPv4Fields_chars hp c hc with hd | rfl
        · exact absurd (toNat_of_isDigit hd) (by omega)
        · exact absurd hlarge (by decide)
    · next h => exact absurd (List.mem_of_find?_eq_some h) hcolon
    · rfl
  rw [parseIP, hnone]

lemma trimSuffix_append (s suffix : String) : trimSuffix (s ++ suffix) suffix = s := by
  have hsuffix : suffix.toList.isSuffixOf (s ++ suffix).toList = true := by
    rw [List.isSuffixOf_iff_suffix, String.toList_append]
    exact List.suffix_append _ _
  rw [trimSuffix, if_pos hsuffix, String.toList_append, List.length_append, Nat.add_sub_cancel,
    List.take_left, String.ofList_toList]

/-- The name of an address leads back to it. -/
lemma ptrV4NameToIP_reverseName (a b c d : UInt8) :
    ptrV4NameToIP (reverseName a b c d) = [a, b, c, d] := by
  have hnumber : trimSuffix (reverseName a b c d) ptrV4Suffix = dotted d c b a :=
    trimSuffix_append _ _
  unfold ptrV4NameToIP
  simp only [hnumber, to4_parseIP_dotted]

/-- A dotted quad has no letters. -/
lemma dotted_chars {a b c d : UInt8} {x : Char} (hx : x ∈ (dotted a b c d).toList) :
    x.toNat ≤ 57 := by
  rcases parseIPv4Fields_chars (parseIPv4Fields_dotted a b c d) x hx with hx | rfl
  · exact toNat_of_isDigit hx
  · decide

/-- A spelling of the name of an address: the number is the same, and so is the rest but for
letter case. -/
lemma reverseName_spelling {a b c d : UInt8} {name : String}
    (h : SameLetters name (reverseName a b c d)) :
    ∃ suffix, name = dotted d c b a ++ suffix ∧ SameLetters suffix ptrV4Suffix := by
  rw [SameLetters, reverseName, String.toList_append, List.map_append] at h
  obtain ⟨l₁, l₂, hname, h₁, h₂⟩ := List.map_eq_append_iff.1 h
  refine ⟨String.ofList l₂, ?_, ?_⟩
  · have hnumber : l₁ = (dotted d c b a).toList :=
      eq_of_map_toLower (fun x hx => lt_of_le_of_lt (dotted_chars hx) (by norm_num)) h₁
    rw [← String.ofList_toList (s := name), hname, hnumber, String.ofList_append,
      String.ofList_toList]
  · rw [SameLetters, String.toList_ofList]
    exact h₂

/-- With another spelling of the suffix, the name is not read as that of an address. -/
lemma ptrV4NameToIP_eq_nil {a b c d : UInt8} {suffix : String}
    (h : SameLetters suffix ptrV4Suffix) (hne : suffix ≠ ptrV4Suffix) :
    ptrV4NameToIP (dotted d c b a ++ suffix) = [] := by
  have hlen : suffix.toList.length = ptrV4Suffix.toList.length := by
    have := congrArg List.length h
    rwa [List.length_map, List.length_map] at this
  -- the suffix is not cut off
  have htrim : trimSuffix (dotted d c b a ++ suffix) ptrV4Suffix = dotted d c b a ++ suffix := by
    rw [trimSuffix, if_neg]
    rw [List.isSuffixOf_iff_suffix, String.toList_append]
    intro hsuffix
    have hsame := (List.suffix_of_suffix_length_le hsuffix (List.suffix_append _ _)
      hlen.ge).eq_of_length hlen.symm
    exact hne (String.toList_inj.1 hsame).symm
  have hcolon : ':' ∉ (dotted d c b a ++ suffix).toList := by
    rw [String.toList_append, List.mem_append]
    rintro (hmem | hmem)
    · exact absurd (dotted_chars hmem) (by decide)
    · have hlower : ':'.toLower ∈ ptrV4Suffix.toList.map Char.toLower :=
        h ▸ List.mem_map_of_mem hmem
      exact absurd hlower (by decide)
  -- one of its letters
  obtain ⟨x, hx, hletter⟩ : ∃ x ∈ suffix.toList, x.toLower = 'i' := by
    have hmem : 'i' ∈ suffix.toList.map Char.toLower := by
      rw [h]
      decide
    exact List.mem_map.1 hmem
  have hlarge : 57 < x.toNat := by
    have hi : x.toLower.toNat = 105 := by rw [hletter]; rfl
    rcases toLower_cases x with hsame | ⟨hge, -, -⟩
    · rw [← hsame, hi]
      norm_num
    · omega
  have hmem : x ∈ (dotted d c b a ++ suffix).toList := by
    rw [String.toList_append]
    exact List.mem_append_right _ hx
  unfold ptrV4NameToIP
  simp only [htrim, parseIP_eq_nil hcolon hmem hlarge]
  rfl

lemma ptrv4Handler_found {question : Question} {rest : List Question}
    (hreq : req.question = question :: rest) (hptr : question.qtype = .ptr) {a b c d : UInt8}
    (hip : ptrV4NameToIP question.name = [a, b, c, d]) {mappedName : String}
    (hmap : cfg.reverseMapping.lookup (dotted a b c d) = some mappedName) :
    ptrv4Handler cfg req = .reply (processOwnResponse { ({} : Msg).setReply req with
      answer := [.ptr { name := question.name, ttl := defaultTTLSeconds } mappedName] }) := by
  have hfound : cfg.reverseMapping.lookup (ipString (ptrV4NameToIP question.name)) =
      some mappedName := by
    rw [hip]
    exact hmap
  have hne : ptrV4NameToIP question.name ≠ [] := by
    rw [hip]
    exact List.cons_ne_nil _ _
  simp [ptrv4Handler, hreq, hptr, hfound, hne]

lemma ptrv4Handler_forwarded {question : Question} {rest : List Question}
    (hreq : req.question = question :: rest) (hip : ptrV4NameToIP question.name = []) :
    ptrv4Handler cfg req = .forwarded := by
  simp [ptrv4Handler, hreq, hip]

/-- **A reverse name is answered**, and leads to its own address only, exactly if it is written in
lower case. -/
theorem reverseName_answered_iff (cfg : ResolverConfig) {a b c d : UInt8} {mappedName : String}
    (hmap : cfg.reverseMapping.lookup (dotted a b c d) = some mappedName) {question : Question}
    (hname : SameLetters question.name (reverseName a b c d)) (hptr : question.qtype = .ptr)
    {req : Msg} {rest : List Question} (hreq : req.question = question :: rest) :
    ((∃ m, ptrv4Handler cfg req = .reply m ∧
        m.answer = [.ptr { name := question.name, ttl := defaultTTLSeconds } mappedName]) ∧
      ∀ (a' b' c' d' : UInt8) (name' : String), SameLetters name' (reverseName a' b' c' d') →
        ptrV4NameToIP name' = ptrV4NameToIP question.name → [a', b', c', d'] = [a, b, c, d]) ↔
    question.name = reverseName a b c d := by
  obtain ⟨suffix, hspelled, hsuffix⟩ := reverseName_spelling hname
  constructor
  · rintro ⟨⟨m, hm, -⟩, -⟩
    by_contra hne
    have hother : suffix ≠ ptrV4Suffix := by
      rintro rfl
      exact hne hspelled
    have hnil : ptrV4NameToIP question.name = [] := by
      rw [hspelled]
      exact ptrV4NameToIP_eq_nil hsuffix hother
    rw [ptrv4Handler_forwarded hreq hnil] at hm
    cases hm
  · intro hlower
    have hip : ptrV4NameToIP question.name = [a, b, c, d] := by
      rw [hlower, ptrV4NameToIP_reverseName]
    refine ⟨⟨_, ptrv4Handler_found hreq hptr hip hmap, rfl⟩, fun a' b' c' d' name' hname' heq => ?_⟩
    obtain ⟨suffix', rfl, hsuffix'⟩ := reverseName_spelling hname'
    rw [hip] at heq
    by_cases hother : suffix' = ptrV4Suffix
    · rw [hother] at heq
      exact (ptrV4NameToIP_reverseName a' b' c' d').symm.trans heq
    · rw [ptrV4NameToIP_eq_nil hsuffix' hother] at heq
      cases heq

def reverseQuery (name : String) : Msg where
  id := 8
  question := [{ name := name, qtype := .ptr }]

/-- The reverse name of a known peer in upper case. -/
theorem upperCase_forwarded :
    officeConfig.reverseMapping.lookup (dotted 10 66 0 2) = some "office.awl." ∧
      SameLetters "2.0.66.10.IN-ADDR.ARPA." (reverseName 10 66 0 2) ∧
      ptrv4Handler officeConfig (reverseQuery "2.0.66.10.IN-ADDR.ARPA.") = .forwarded := by
  refine ⟨by decide, by decide, ?_⟩
  exact ptrv4Handler_forwarded rfl (by decide)

theorem lowerCase_answered :
    ∃ m, ptrv4Handler officeConfig (reverseQuery "2.0.66.10.in-addr.arpa.") = .reply m ∧
      m.answer = [.ptr { name := "2.0.66.10.in-addr.arpa.", ttl := 60 } "office.awl."] := by
  have hmap : officeConfig.reverseMapping.lookup (dotted 10 66 0 2) = some "office.awl." := by
    decide
  have hname : SameLetters (⟨"2.0.66.10.in-addr.arpa.", .ptr⟩ : Question).name
      (reverseName 10 66 0 2) := by decide
  have hreq : (reverseQuery "2.0.66.10.in-addr.arpa.").question =
      ⟨"2.0.66.10.in-addr.arpa.", .ptr⟩ :: [] := rfl
  exact ((reverseName_answered_iff officeConfig hmap hname rfl hreq).2 (by decide)).1

end Dns

end Awl
