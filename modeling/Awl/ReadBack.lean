import Awl.FreeAddr
import Awl.FriendCalls
import Awl.UniqueAliases

/-!
Settings that are read and sent back. A client that changes one setting of a peer sends all of
them: the others as `GetKnownPeerSettings` has just returned them.

The alias of a record has passed one check, the domain name is made of it, and the address may come
from the allocator; the settings that are sent back have to pass another.
-/

namespace Awl

open NetIP PeerCodec Text AuthStatus

lemma Api.validText_iff {x : String} : validText x = true ↔ x ≠ "" ∧ trimSpace x ≠ "" := by
  simp only [validText, Bool.and_eq_true, decide_eq_true_eq]

/-! ### Domain names -/

/-- `dns.IsDomainName`: labels of one to 63 bytes, and 255 bytes in all. -/
def Dns.isDomainName (s : String) : Bool :=
  (s.toList.splitOn '.').all (fun label =>
      label ≠ [] && decide ((label.map Char.utf8Size).sum ≤ 63)) &&
    decide ((s.toList.map Char.utf8Size).sum ≤ 255)

/-- What `strings.ToLower` has to do with itself and with spaces. -/
structure Env.LowersText (env : Env) : Prop where
  idem : ∀ c, env.toLower (env.toLower c) = env.toLower c
  noSpace : ∀ c, isSpace c = false → isSpace (env.toLower c) = false

namespace Env.LowersText

variable {env : Env}

/-- No space is left in a domain name. -/
lemma trimDomainName_noSpace (h : env.LowersText) (x : String) :
    ∀ c ∈ (env.trimDomainName x).toList, isSpace c = false := by
  intro c hc
  rw [trimDomainName, String.toList_ofList] at hc
  obtain ⟨d, -, rfl⟩ := List.mem_map.1 hc
  refine h.noSpace _ ?_
  by_cases hd : isSpace d = true
  · rw [if_pos hd]
    decide
  · rw [if_neg hd]
    exact Bool.eq_false_iff.2 hd

lemma trimDomainName_twice (h : env.LowersText) (x : String) :
    env.trimDomainName (env.trimDomainName x) = env.trimDomainName x := by
  have hnone := h.trimDomainName_noSpace x
  have hmap : (env.trimDomainName x).toList.map
      (fun c => env.toLower (if isSpace c then '_' else c)) = (env.trimDomainName x).toList := by
    refine (List.map_congr_left fun c hc => ?_).trans (List.map_id _)
    rw [hnone c hc, if_neg Bool.false_ne_true]
    rw [trimDomainName, String.toList_ofList] at hc
    obtain ⟨d, -, rfl⟩ := List.mem_map.1 hc
    exact h.idem _
  rw [trimDomainName, trimSpace_of_noSpace hnone, hmap, String.ofList_toList]

/-- A domain name that is made of an alias is valid if the labels are. -/
lemma isValidDomainName_iff (h : env.LowersText)
    (hdns : ∀ x, env.isDomainName x = Dns.isDomainName x) (x : String) :
    env.isValidDomainName (env.trimDomainName x) = true ↔
      Dns.isDomainName (env.trimDomainName x ++ "." ++ "awl") = true := by
  rw [isValidDomainName, h.trimDomainName_twice, beq_self_eq_true, Bool.and_true, hdns]

lemma validText_trimDomainName (h : env.LowersText) {x : String} (hx : trimSpace x ≠ "") :
    Api.validText (env.trimDomainName x) = true := by
  have hne : env.trimDomainName x ≠ "" := by
    intro he
    have hnil := congrArg String.toList he
    rw [trimDomainName, String.toList_ofList, String.toList_empty, List.map_eq_nil_iff] at hnil
    exact hx (String.toList_eq_nil_iff.1 hnil)
  simp [Api.validText, trimSpace_of_noSpace (h.trimDomainName_noSpace x), hne]

end Env.LowersText

/-! ### The answer to a request -/

/-- The program returns `a` in the state `s'`: whatever comes next goes on with these. -/
def Go.Returns {S Q R α : Type} (net : Q → R) (x : Go S Q R α) (s : S) (a : α) (s' : S) : Prop :=
  ∀ k, (x k).finish net s = (k a).finish net s'

lemma Go.Returns.state {S Q R α : Type} {net : Q → R} {x : Go S Q R α} {s s' : S} {a : α}
    (h : Go.Returns net x s a s') : x.code.finish net s = s' := h fun _ => .done

/-- A program has one answer, if states can be told apart. -/
lemma Go.Returns.answer {S Q R α : Type} [DecidableEq α] {net : Q → R} {x : Go S Q R α}
    {s s' s'' : S} {a b : α} (h : Go.Returns net x s a s') (h' : Go.Returns net x s b s'')
    (upd : S → S) (hupd : ∀ s, upd s ≠ s) : a = b := by
  by_contra hne
  have heq := h.state.symm.trans h'.state
  have hmark := (h fun r => if r = a then .act upd fun _ => .done else .done).symm.trans
    (h' fun r => if r = a then .act upd fun _ => .done else .done)
  rw [if_pos rfl, if_neg (Ne.symm hne), heq] at hmark
  exact hupd s'' hmark

namespace Api

variable {ID : Type} [PeerCodec ID] [DecidableEq ID] {env : Env} {req : UpdatePeerSettingsRequest}
  {s : Node ID}

lemma updatePeerSettings_returns {kp : KnownPeer} (h : Accepts env s.conf req kp) :
    Go.Returns silent (updatePeerSettings env req : Prog ID Answer) s .noContent
      (s.upsertPeer (withSettings kp req)) := by
  intro k
  simp [updatePeerSettings, h.valid, h.domain, h.known, h.uniq, h.ip]

lemma updatePeerSettings_returns_refused (h : ∀ kp, ¬ Accepts env s.conf req kp) :
    ∃ answer ≠ Answer.noContent,
      Go.Returns silent (updatePeerSettings env req : Prog ID Answer) s answer s := by
  by_cases hv : validSettings env req = true
  · by_cases hd : env.isValidDomainName req.domainName = true
    · rcases hk : s.conf.getPeer req.peerID with _ | kp
      · exact ⟨.notFound, by decide, fun k => by simp [updatePeerSettings, hv, hd, hk]⟩
      · by_cases hu : s.conf.isUniqPeerAlias req.peerID (trimSpace req.peerAlias) = true
        · have hip : s.conf.checkIPUnique req.ipAddr kp.peerID ≠ .ok := fun hip =>
            h kp ⟨hv, hd, hk, hu, hip⟩
          exact ⟨.badRequest (.ip (s.conf.checkIPUnique req.ipAddr kp.peerID)), by simp,
            fun k => by simp [updatePeerSettings, hv, hd, hk, hu, hip]⟩
        · exact ⟨.badRequest .aliasNotUniq, by decide,
            fun k => by simp [updatePeerSettings, hv, hd, hk, hu]⟩
    · exact ⟨.badRequest .invalidDomainName, by decide,
        fun k => by simp [updatePeerSettings, hv, hd]⟩
  · exact ⟨.badRequest .validation, by decide, fun k => by simp [updatePeerSettings, hv]⟩

/-- **When a request succeeds.** -/
lemma updatePeerSettings_noContent_iff {s' : Node ID} :
    Go.Returns silent (updatePeerSettings env req : Prog ID Answer) s .noContent s' ↔
      ∃ kp, Accepts env s.conf req kp ∧ s' = s.upsertPeer (withSettings kp req) := by
  constructor
  · intro h
    by_cases hacc : ∃ kp, Accepts env s.conf req kp
    · obtain ⟨kp, hkp⟩ := hacc
      exact ⟨kp, hkp, h.state.symm.trans (updatePeerSettings_returns hkp).state⟩
    · obtain ⟨answer, hne, hrefused⟩ :=
        updatePeerSettings_returns_refused (s := s) fun kp hkp => hacc ⟨kp, hkp⟩
      refine absurd (hrefused.answer h (fun s => { s with now := s.now + 1 }) ?_) hne
      intro s hs
      exact absurd (congrArg Node.now hs) (Nat.succ_ne_self s.now)
  · rintro ⟨kp, hkp, rfl⟩
    exact updatePeerSettings_returns hkp

end Api

/-! ### Records that can be sent back -/

/-- The request of a client that changes nothing. -/
def Api.readBack (k : String) (kp : KnownPeer) : UpdatePeerSettingsRequest where
  peerID := k
  peerAlias := kp.peerAlias
  domainName := kp.domainName
  ipAddr := kp.ipAddr
  allowUsingAsExitNode := kp.weAllowUsingAsExitNode

/-- The address is read as one of the network. -/
def NetIP.IPNet.Lists (net : IPNet) (ipAddr : String) : Prop :=
  ∃ addr ip, parseAddr ipAddr = some addr ∧ addr.as4 = some ip ∧ net.contains ip = true

/-- The settings of the record pass the checks that do not concern the other peers. -/
structure KnownPeer.Editable (env : Env) (net : IPNet) (kp : KnownPeer) : Prop where
  peerID : kp.peerID ≠ ""
  peerAlias : kp.peerAlias ≠ ""
  trimmed : trimSpace kp.peerAlias = kp.peerAlias
  text : Api.validText kp.domainName = true
  domainName : env.isValidDomainName kp.domainName = true
  ipv4 : env.isIPv4 kp.ipAddr = true
  ipAddr : net.Lists kp.ipAddr

lemma NetIP.IPNet.Lists.ne_empty {net : IPNet} {ipAddr : String} (h : net.Lists ipAddr) :
    ipAddr ≠ "" := by
  obtain ⟨addr, ip, haddr, -⟩ := h
  have hnone : parseAddr "" = none := by decide
  rintro rfl
  rw [hnone] at haddr
  cases haddr

/-- The other fields do not matter. -/
lemma KnownPeer.Editable.congr {env : Env} {net : IPNet} {kp kp' : KnownPeer}
    (h : kp.Editable env net) (hid : kp'.peerID = kp.peerID)
    (halias : kp'.peerAlias = kp.peerAlias) (hdomain : kp'.domainName = kp.domainName)
    (hip : kp'.ipAddr = kp.ipAddr) : kp'.Editable env net := by
  constructor
  · rw [hid]
    exact h.peerID
  · rw [halias]
    exact h.peerAlias
  · rw [halias]
    exact h.trimmed
  · rw [hdomain]
    exact h.text
  · rw [hdomain]
    exact h.domainName
  · rw [hip]
    exact h.ipv4
  · rw [hip]
    exact h.ipAddr

/-- All records can be sent back. -/
structure Config.Editable (env : Env) (c : Config) : Prop where
  records : ∀ ⦃k kp⦄, c.knownPeers.lookup k = some kp → kp.Editable env c.vpnNet
  aliases : c.DistinctAliases
  texts : GoMap.DistinctOn KnownPeer.ipAddr c.knownPeers

variable {ID : Type} [PeerCodec ID] [DecidableEq ID]

/-- **Every known peer can be edited**: its settings, sent back, are accepted and leave its record
as it is. -/
def Node.ReadsBack (env : Env) (s : Node ID) : Prop :=
  ∀ k kp, s.conf.getPeer k = some kp → ∃ s', s'.conf.getPeer k = some kp ∧
    Go.Returns silent (Api.updatePeerSettings env (Api.readBack k kp) : Prog ID Answer) s
      .noContent s'

section

variable {env : Env} {s : Node ID}

omit [PeerCodec ID] [DecidableEq ID] in
lemma Node.getPeer_upsertPeer {peer : KnownPeer} {k : String} (h : peer.peerID = k) :
    (s.upsertPeer peer).conf.getPeer k = some peer := by
  rw [Config.getPeer, Node.upsertPeer, Node.save, Config.upsertPeer, GoMap.lookup_insert_ite,
    if_pos h.symm]

/-- A record that is sent back and left as it is has passed the checks, and its alias has no spaces
around it. -/
lemma Node.ReadsBack.accepts (h : s.ReadsBack env) (hf : s.conf.Filed) {k : String}
    {kp : KnownPeer} (hk : s.conf.knownPeers.lookup k = some kp) :
    Api.Accepts env s.conf (Api.readBack k kp) kp ∧ trimSpace kp.peerAlias = kp.peerAlias := by
  obtain ⟨s', hsame, hreturns⟩ := h k kp hk
  obtain ⟨kp', hacc, rfl⟩ := Api.updatePeerSettings_noContent_iff.1 hreturns
  cases hk.symm.trans hacc.known
  have hkey : (Api.withSettings kp (Api.readBack k kp)).peerID = k :=
    (Api.withSettings_kept kp _).1.trans (hf hk)
  rw [Node.getPeer_upsertPeer hkey] at hsame
  exact ⟨hacc, congrArg KnownPeer.peerAlias (Option.some.inj hsame)⟩

omit [PeerCodec ID] [DecidableEq ID] in
lemma Config.Editable.accepts (h : s.conf.Editable env) (hf : s.conf.Filed) {k : String}
    {kp : KnownPeer} (hk : s.conf.knownPeers.lookup k = some kp) :
    Api.Accepts env s.conf (Api.readBack k kp) kp := by
  have hrec := h.records hk
  refine ⟨?_, hrec.domainName, hk, decide_eq_true ?_, checkIPUnique_eq_ok.2 ⟨hrec.ipAddr, ?_⟩⟩
  · have hid : k ≠ "" := hf hk ▸ hrec.peerID
    have halias : Api.validText kp.peerAlias = true := by
      simp [Api.validText, hrec.peerAlias, hrec.trimmed]
    simp [Api.validSettings, Api.readBack, hid, halias, hrec.text, hrec.ipAddr.ne_empty, hrec.ipv4]
  · rintro ⟨k', kp'⟩ he
    have hk' := GoMap.mem_entries.1 he
    by_cases hsame : kp'.peerAlias = trimSpace kp.peerAlias
    · exact Or.inl ((hf hk').trans (h.aliases hk' hk (hsame.trans hrec.trimmed)))
    · exact Or.inr hsame
  · rintro ⟨k', kp'⟩ he htext
    have hk' := GoMap.mem_entries.1 he
    exact ⟨hrec.peerID, (hf hk').trans ((h.texts hk' hk htext).trans (hf hk).symm)⟩

lemma readsBack_iff (hf : s.conf.Filed) : s.ReadsBack env ↔ s.conf.Editable env := by
  constructor
  · intro h
    refine ⟨fun k kp hk => ?_, fun k k' kp kp' hk hk' he => ?_, fun k k' kp kp' hk hk' he => ?_⟩
    · obtain ⟨hacc, htrim⟩ := h.accepts hf hk
      have hvalid := hacc.valid
      simp only [Api.validSettings, Bool.and_eq_true, decide_eq_true_eq] at hvalid
      obtain ⟨⟨⟨⟨hid, halias⟩, hdomain⟩, -⟩, hipv4⟩ := hvalid
      have hkp : kp.peerID ≠ "" := hf hk ▸ hid
      exact ⟨hkp, (Api.validText_iff.1 halias).1, htrim, hdomain, hacc.domain, hipv4,
        (Config.checkIPUnique_eq_ok.1 hacc.ip).1⟩
    · obtain ⟨hacc, htrim⟩ := h.accepts hf hk
      rcases Config.isUniqPeerAlias_iff.1 hacc.uniq k' kp' hk' with hid | hne
      · exact (hid.symm.trans (hf hk'))
      · exact absurd (he.symm.trans htrim.symm) hne
    · obtain ⟨hacc, -⟩ := h.accepts hf hk
      have hid := (Config.checkIPUnique_eq_ok.1 hacc.ip).2 ⟨k', kp'⟩ (GoMap.mem_entries.2 hk')
        he.symm
      exact (hf hk).symm.trans (hid.2.symm.trans (hf hk'))
  · intro h k kp hk
    have hsame : Api.withSettings kp (Api.readBack k kp) = kp := by
      simp only [Api.withSettings, Api.readBack, (h.records hk).trimmed]
    refine ⟨_, ?_, Api.updatePeerSettings_returns (h.accepts hf hk)⟩
    rw [hsame, Node.getPeer_upsertPeer (hf hk)]

end

/-! ### One record more -/

namespace Config.Editable

variable {env : Env} {c c' : Config}

lemma congr (h : c.Editable env) (hk : c'.knownPeers = c.knownPeers)
    (hvpn : c'.vpnConfig = c.vpnConfig) : c'.Editable env := by
  have hnet := vpnNet_congr hvpn
  refine ⟨fun k kp hl => ?_, ?_, ?_⟩
  · rw [hnet]
    exact h.records (hk ▸ hl)
  · rw [DistinctAliases, hk]
    exact h.aliases
  · rw [hk]
    exact h.texts

lemma insert_iff (h : c.Editable env) {key : String} {peer : KnownPeer}
    (hk : c'.knownPeers = c.knownPeers.insert key peer) (hvpn : c'.vpnConfig = c.vpnConfig) :
    c'.Editable env ↔ peer.Editable env c.vpnNet ∧
      ∀ k kp, k ≠ key → c.knownPeers.lookup k = some kp →
        kp.peerAlias ≠ peer.peerAlias ∧ kp.ipAddr ≠ peer.ipAddr := by
  have hnet := vpnNet_congr hvpn
  have haliases := h.aliases.insert_iff key peer hk
  have htexts := h.texts.insert_iff key peer
  rw [← hk] at htexts
  constructor
  · intro h'
    refine ⟨hnet ▸ h'.records (by rw [hk, Finmap.lookup_insert]), fun k kp hne hl => ?_⟩
    exact ⟨haliases.1 h'.aliases k kp hne hl, htexts.1 h'.texts k kp hne hl⟩
  · rintro ⟨hpeer, hothers⟩
    refine ⟨fun k kp hl => ?_, haliases.2 fun k kp hne hl => (hothers k kp hne hl).1,
      htexts.2 fun k kp hne hl => (hothers k kp hne hl).2⟩
    rw [hk, GoMap.lookup_insert_ite] at hl
    rw [hnet]
    split_ifs at hl with hkey
    · cases hl
      exact hpeer
    · exact h.records hl

end Config.Editable

/-! ### One step -/

/-- The next address can be sent back exactly if there is room for it. -/
lemma Config.InNet.next_checked_iff {c : Config} {l : IP} {n : ℕ} (h : c.InNet l n) :
    c.checkIPUnique c.generateNextIpAddr "" = .ok ↔ c.RoomAbove [] ∨ c.RoomAround [] := by
  have hnext : c.generateNextIpAddr =
      ipString (putUint32 ((uint32 c.maxIp + 1 + 0) % 4294967296)) := c.generateNextIpAddr_eq
  have hall : ∀ i < 0, Excluded [] ((uint32 c.maxIp + 1 + i) % 4294967296) :=
    fun i hi => absurd hi (Nat.not_lt_zero i)
  rw [hnext]
  by_cases hroom : c.RoomAbove []
  · exact iff_of_true (h.found_above hall hroom) (Or.inl hroom)
  · rw [h.found_around (by norm_num) hall List.not_mem_nil hroom, or_iff_right hroom]

/-- The address that a new peer gets is one of the network and nobody else's, unless it is a next
address for which there is no room. -/
lemma Config.InNet.chosen_iff {c : Config} {l : IP} {n : ℕ} (h : c.InNet l n) (hf : c.Filed)
    {key ipAddr ip : String} (hunknown : c.getPeer key = none)
    (hchoose : chooseIP c key ipAddr = .ok ip) :
    (c.vpnNet.Lists ip ∧ ∀ k kp, k ≠ key → c.knownPeers.lookup k = some kp → kp.ipAddr ≠ ip) ↔
      (ipAddr = "" → c.RoomAbove [] ∨ c.RoomAround []) := by
  rcases chooseIP_eq_ok hchoose with ⟨hempty, rfl⟩ | ⟨hne, rfl, hcheck⟩
  · rw [← h.next_checked_iff, checkIPUnique_eq_ok]
    constructor
    · rintro ⟨hlists, hfree⟩ -
      refine ⟨hlists, fun e he htext => ?_⟩
      have hl := GoMap.mem_entries.1 he
      refine absurd htext (hfree e.1 e.2 ?_ hl)
      rintro rfl
      rw [getPeer, hl] at hunknown
      cases hunknown
    · intro hroom
      obtain ⟨hlists, hfree⟩ := hroom hempty
      exact ⟨hlists, fun k kp _ hl htext =>
        (hfree ⟨k, kp⟩ (GoMap.mem_entries.2 hl) htext).1 rfl⟩
  · refine iff_of_true ?_ fun hempty => absurd hempty hne
    obtain ⟨hlists, hfree⟩ := checkIPUnique_eq_ok.1 hcheck
    refine ⟨hlists, fun k kp hother hl htext => hother ?_⟩
    exact (hf hl).symm.trans (hfree ⟨k, kp⟩ (GoMap.mem_entries.2 hl) htext).2

/-- The name of the peer in the zone has proper labels. -/
def ProperName (env : Env) (peerAlias : String) : Prop :=
  Dns.isDomainName (env.trimDomainName peerAlias ++ "." ++ "awl") = true

/-- What the environment is taken to be. -/
structure Env.Standard (env : Env) : Prop extends env.LowersText where
  isDomainName : ∀ x, env.isDomainName x = Dns.isDomainName x
  isIPv4 : ∀ x, env.isIPv4 x = true ↔ to4 (parseIP x) ≠ []

section

variable {env : Env} {s : Node ID} {l : IP} {n : ℕ}

/-- A chosen address is an IPv4 address: the caller's has passed the validation. -/
lemma Env.Standard.isIPv4_chosen (henv : env.Standard) {c : Config} {key ipAddr ip : String}
    (hvalid : Api.validOptionalIP env ipAddr = true) (hchoose : chooseIP c key ipAddr = .ok ip) :
    env.isIPv4 ip = true := by
  rcases chooseIP_eq_ok hchoose with ⟨-, rfl⟩ | ⟨hne, rfl, -⟩
  · rw [henv.isIPv4, Config.generateNextIpAddr_eq, to4_parseIP_ipString rfl]
    exact List.cons_ne_nil _ _
  · simpa [Api.validOptionalIP, hne] using hvalid

/-- Of a new record, only the domain name and the address can fail. -/
lemma Env.Standard.editable_newPeer_iff (henv : env.Standard) {net : IPNet}
    {key name peerAlias ip : String} (hkey : key ≠ "") (halias : trimSpace peerAlias ≠ "")
    (hip : env.isIPv4 ip = true) (confirmed : Bool) (now : ℕ) :
    (newPeer env key name (trimSpace peerAlias) ip confirmed now).Editable env net ↔
      ProperName env peerAlias ∧ net.Lists ip := by
  have hdomain : (newPeer env key name (trimSpace peerAlias) ip confirmed now).domainName =
      env.trimDomainName peerAlias := by
    simp only [newPeer, KnownPeer.displayName, ne_eq, halias, not_false_eq_true, if_true,
      Env.trimDomainName, trimSpace_trimSpace]
  rw [ProperName, ← henv.isValidDomainName_iff henv.isDomainName, ← hdomain]
  constructor
  · intro h
    exact ⟨h.domainName, h.ipAddr⟩
  · rintro ⟨hname, hlists⟩
    refine ⟨hkey, halias, trimSpace_trimSpace _, ?_, hname, hip, hlists⟩
    rw [hdomain]
    exact henv.validText_trimDomainName halias

omit [DecidableEq ID] in
/-- **A peer is added.** -/
lemma editable_takeCall_iff (henv : env.Standard) (hnet : s.conf.InNet l n) (hf : s.conf.Filed)
    (h : s.conf.Editable env) {c : AddCall ID} (hid : c.peerID ≠ zero)
    (halias : Api.validText c.peerAlias = true) (hip : Api.validOptionalIP env c.ipAddr = true) :
    (s.takeCall env c).conf.Editable env ↔ ∀ peer, c.outcome env s = .ok peer →
      ProperName env c.peerAlias ∧
        (c.ipAddr = "" → s.conf.RoomAbove [] ∨ s.conf.RoomAround []) := by
  rcases ho : c.outcome env s with e | peer
  · rw [Node.takeCall_error ho]
    exact iff_of_true h fun peer hpeer => by cases hpeer
  obtain ⟨blocked, hconf, -⟩ := Node.takeCall_ok ho
  obtain ⟨hunknown, huniq, ip, hchoose, rfl⟩ := AddCall.outcome_ok ho
  rw [h.insert_iff (by rw [hconf]) (by rw [hconf]),
    henv.editable_newPeer_iff (string_ne_empty hid) (Api.validText_iff.1 halias).2
      (henv.isIPv4_chosen hip hchoose)]
  simp only [Except.ok.injEq, forall_eq']
  rw [← hnet.chosen_iff hf hunknown hchoose, and_assoc]
  refine and_congr_right fun _ => and_congr_right fun _ => ?_
  -- no other peer has the alias: it has been checked for that
  refine forall_congr' fun k => forall_congr' fun kp => forall_congr' fun _ =>
    forall_congr' fun hl => and_iff_right ?_
  rcases Config.isUniqPeerAlias_iff.1 huniq k kp hl with hempty | halone
  · exact absurd hempty (h.records hl).peerID
  · exact halone

omit [DecidableEq ID] in
/-- **A status is processed.** -/
lemma editable_takeStatus_iff (hf : s.conf.Filed) (h : s.conf.Editable env) (y : ID)
    (info : PeerStatusInfo) :
    (s.takeStatus env y info).conf.Editable env ↔ s.conf.getPeer (string y) ≠ none := by
  rcases hk : s.conf.getPeer (string y) with _ | kp
  · refine iff_of_false (fun h' => ?_) fun hne => hne rfl
    have hwritten := ((h.insert_iff (Node.takeStatus_known (by rw [hk])) rfl).1 h').1
    exact hwritten.peerID recorded_peerID
  · refine iff_of_true ?_ (Option.some_ne_none kp)
    have hrec := h.records hk
    -- what a client would send back is what the status leaves alone
    have hset : AsSet (Api.readBack (string y) kp)
        (recorded env s.conf.aliases s.now info kp) := by
      refine recorded_asSet ⟨hrec.trimmed.symm, rfl, rfl, rfl⟩ ?_ (Api.validText_iff.1 hrec.text).1
      exact hrec.trimmed ▸ hrec.peerAlias
    have halias := hset.peerAlias.trans hrec.trimmed
    refine (h.insert_iff (Node.takeStatus_known (by rw [hk, Option.getD_some])) rfl).2 ⟨?_, ?_⟩
    · exact hrec.congr recorded_peerID halias hset.domainName hset.ipAddr
    · intro k kp' hne hl
      rw [halias, hset.ipAddr]
      refine ⟨fun he => hne ?_, fun he => hne ?_⟩
      · exact (h.aliases hl hk he).trans (hf hk).symm
      · exact (h.texts hl hk he).trans (hf hk).symm

end

/-! ### Runs -/

/-- What a user does to make friends, and the status exchanges in between. -/
inductive FriendEvent (ID : Type) [PeerCodec ID]
  | sendFriendRequest (req : FriendRequest)
  | acceptFriend (req : FriendRequestReply)
  | statusExchange (y : ID) (hy : y ≠ zero) (x : Exchange) (net : Req ID → Resp)

namespace FriendEvent

def run (env : Env) (s : Node ID) : FriendEvent ID → Node ID
  | sendFriendRequest req =>
    (Api.sendFriendRequest env req : Prog ID Answer).code.finish silent s
  | acceptFriend req => (Api.acceptFriend env req : Prog ID Answer).code.finish silent s
  | statusExchange y hy x net => (Operation.statusExchange y hy x net).run env s

/-- The call of `AddPeer` that is made. -/
def calls (env : Env) (s : Node ID) : FriendEvent ID → Option (AddCall ID)
  | sendFriendRequest req => Api.invited env s req
  | acceptFriend req => Api.accepted env s req
  | statusExchange .. => none

/-- The peer whose status is processed. -/
def hears (s : Node ID) : FriendEvent ID → Option (ID × PeerStatusInfo)
  | statusExchange y _ x net => (x.hears y net s).map fun info => (y, info)
  | _ => none

/-- A peer that is added has a proper name, and there is room for it if it comes without an
address; and a status is of a known peer. -/
def KeepsEditable (env : Env) (s : Node ID) (e : FriendEvent ID) : Prop :=
  (∀ c ∈ e.calls env s, ∀ peer, c.outcome env s = .ok peer →
    ProperName env c.peerAlias ∧
      (c.ipAddr = "" → s.conf.RoomAbove [] ∨ s.conf.RoomAround [])) ∧
    ∀ heard ∈ e.hears s, s.conf.getPeer (string heard.1) ≠ none

variable {env : Env} {s : Node ID}

/-- **What an event does**: it adds a peer, or processes a status, or leaves the peers as they
are. -/
lemma run_cases (env : Env) (s : Node ID) (e : FriendEvent ID) :
    (∃ c, e.calls env s = some c ∧ e.hears s = none ∧
        (e.run env s).conf = (s.takeCall env c).conf) ∨
      (∃ y info, e.calls env s = none ∧ e.hears s = some (y, info) ∧
        (e.run env s).conf = (s.takeStatus env y info).conf) ∨
      e.calls env s = none ∧ e.hears s = none ∧
        (e.run env s).conf.knownPeers = s.conf.knownPeers ∧
        (e.run env s).conf.vpnConfig = s.conf.vpnConfig := by
  cases e with
  | sendFriendRequest req =>
    have hrun := Api.finish_sendFriendRequest env silent req s
    rcases hc : Api.invited env s req with _ | c
    · rw [hc] at hrun
      exact Or.inr (Or.inr ⟨hc, rfl, by rw [run, hrun]; rfl, by rw [run, hrun]; rfl⟩)
    · rw [hc] at hrun
      exact Or.inl ⟨c, hc, rfl, by rw [run, hrun]; rfl⟩
  | acceptFriend req =>
    rcases Api.finish_acceptFriend env silent req s with hrun | ⟨hc, peerID, name, hrun⟩
    · rcases hc : Api.accepted env s req with _ | c
      · rw [hc] at hrun
        exact Or.inr (Or.inr ⟨hc, rfl, by rw [run, hrun]; rfl, by rw [run, hrun]; rfl⟩)
      · rw [hc] at hrun
        exact Or.inl ⟨c, hc, rfl, by rw [run, hrun]; rfl⟩
    · exact Or.inr (Or.inr ⟨hc, rfl, by rw [run, hrun]; rfl, by rw [run, hrun]; rfl⟩)
  | statusExchange y hy x net =>
    have hsame : Node.Same _ ((Operation.statusExchange y hy x net).run env s) :=
      Operation.run_statusExchange y hy x net
    have hrun := hsame.conf
    rcases hx : x.hears y net s with _ | info
    · rw [hx] at hrun
      refine Or.inr (Or.inr ⟨rfl, by rw [hears, hx]; rfl, ?_, ?_⟩) <;> rw [run, hrun] <;> rfl
    · rw [hx] at hrun
      exact Or.inr (Or.inl ⟨y, info, rfl, by rw [hears, hx]; rfl, hrun⟩)

omit [DecidableEq ID] in
lemma calls_valid {e : FriendEvent ID} {c : AddCall ID} (h : e.calls env s = some c) :
    c.peerID ≠ zero ∧ Api.validText c.peerAlias = true ∧
      Api.validOptionalIP env c.ipAddr = true := by
  cases e with
  | sendFriendRequest req =>
    obtain ⟨hid, halias, hip, -⟩ := Api.invited_eq_some h
    exact ⟨hid, halias, hip⟩
  | acceptFriend req =>
    obtain ⟨hid, halias, hip, -⟩ := Api.accepted_eq_some h
    exact ⟨hid, halias, hip⟩
  | statusExchange y hy x net => cases h

end FriendEvent

omit [DecidableEq ID] in
lemma Node.takeCall_vpn (env : Env) (c : AddCall ID) (s : Node ID) :
    (s.takeCall env c).conf.vpnConfig = s.conf.vpnConfig := by
  rcases ho : c.outcome env s with e | peer
  · rw [Node.takeCall_error ho]
  · obtain ⟨blocked, hconf, -⟩ := Node.takeCall_ok ho
    rw [hconf]

/-- The network and the keys of the records stay as they are. -/
lemma FriendEvent.run_kept {env : Env} {s : Node ID} {l : IP} {n : ℕ} (hnet : s.conf.InNet l n)
    (hf : s.conf.Filed) (e : FriendEvent ID) :
    (e.run env s).conf.InNet l n ∧ (e.run env s).conf.Filed := by
  rcases e.run_cases env s with ⟨c, -, -, hrun⟩ | ⟨y, info, -, -, hrun⟩ | ⟨-, -, hk, hvpn⟩
  · rw [hrun]
    exact ⟨hnet.of_eq (by rw [Node.takeCall_vpn]), (Node.Files.takeCall env c s).conf_filed hf⟩
  · rw [hrun]
    exact ⟨hnet.of_eq rfl, (Node.Files.takeStatus env y info s).conf_filed hf⟩
  · exact ⟨hnet.of_eq (by rw [hvpn]), hf.congr hk⟩

/-- **One event.** -/
lemma FriendEvent.editable_run_iff {env : Env} (henv : env.Standard) {s : Node ID} {l : IP} {n : ℕ}
    (hnet : s.conf.InNet l n) (hf : s.conf.Filed) (h : s.conf.Editable env) (e : FriendEvent ID) :
    (e.run env s).conf.Editable env ↔ e.KeepsEditable env s := by
  rw [KeepsEditable]
  rcases e.run_cases env s with ⟨c, hc, hx, hrun⟩ | ⟨y, info, hc, hx, hrun⟩ | ⟨hc, hx, hk, hvpn⟩
  · obtain ⟨hid, halias, hip⟩ := calls_valid hc
    rw [hrun, editable_takeCall_iff henv hnet hf h hid halias hip, hc, hx]
    simp
  · rw [hrun, editable_takeStatus_iff hf h, hc, hx]
    simp
  · rw [hc, hx]
    exact iff_of_true (h.congr hk hvpn) (by simp)

/-- **Settings that are read back are accepted** all along exactly when every peer that is added
has a proper name and comes with an address or finds room for one, and every status that is
processed is of a known peer. -/
theorem settings_readBack_iff {env : Env} (henv : env.Standard) {s : Node ID}
    (hempty : s.conf.knownPeers = ∅) {ip : IP} {ipNet : IPNet}
    (hcidr : parseCIDR s.conf.vpnConfig.ipNet = some (ip, ipNet)) (hmask : ipNet.mask.length = 4)
    (es : List (FriendEvent ID)) :
    Runs.Holds (FriendEvent.run env) (fun s => s.ReadsBack env) s es ↔
      Runs.Meets (FriendEvent.run env) (fun s e => e.KeepsEditable env s) s es := by
  obtain ⟨l, n, hnet⟩ := Config.InNet.of_parseCIDR hcidr hmask
  have hnone : ∀ ⦃k kp⦄, s.conf.knownPeers.lookup k = some kp → False := by
    intro k kp hl
    rw [hempty, Finmap.lookup_empty] at hl
    cases hl
  refine Runs.holds_iff_meets (I := fun s => s.conf.InNet l n ∧ s.conf.Filed)
    (fun s e hI _ => e.run_kept hI.1 hI.2) (fun s e hI h => ?_) es s
    ⟨hnet, fun k kp hl => (hnone hl).elim⟩ fun k kp hl => (hnone hl).elim
  rw [readsBack_iff (e.run_kept hI.1 hI.2).2]
  exact e.editable_run_iff henv hI.1 hI.2 ((readsBack_iff hI.2).1 h)

section

open BootstrapPeer

def dnsEnv : Env := { sampleEnv with isDomainName := Dns.isDomainName }

lemma dnsEnv_standard : dnsEnv.Standard where
  idem := toLower_toLower
  noSpace _ := isSpace_toLower
  isDomainName _ := rfl
  isIPv4 _ := decide_eq_true_iff

/-- The domain name that is made of the alias ends in a dot. -/
theorem johnJr_refused :
    freshNode.conf.knownPeers = ∅ ∧
      ¬ Runs.Holds (FriendEvent.run dnsEnv) (fun s => s.ReadsBack dnsEnv) freshNode
        [.sendFriendRequest { peerID := rus2.text, peerAlias := "John Jr." }] := by
  refine ⟨rfl, fun h => ?_⟩
  have hname : (((FriendEvent.sendFriendRequest
      { peerID := rus2.text, peerAlias := "John Jr." }).run dnsEnv freshNode).conf.getPeer
        rus2.text).map KnownPeer.domainName = some "john_jr." := by decide
  obtain ⟨kp, hkp, hdomain⟩ := Option.map_eq_some_iff.1 hname
  obtain ⟨s', -, hreturns⟩ := h.2 _ kp hkp
  obtain ⟨kp', hacc, -⟩ := Api.updatePeerSettings_noContent_iff.1 hreturns
  have hvalid : dnsEnv.isValidDomainName kp.domainName = true := hacc.domain
  rw [hdomain] at hvalid
  exact absurd hvalid (by decide)

/-- Without the dot. -/
theorem johnJr_accepted :
    Runs.Holds (FriendEvent.run dnsEnv) (fun s => s.ReadsBack dnsEnv) freshNode
      [.sendFriendRequest { peerID := rus2.text, peerAlias := "John Jr" }] := by
  have hcidr : parseCIDR freshNode.conf.vpnConfig.ipNet =
      some (v4InV6Prefix ++ [10, 66, 0, 1], ⟨[10, 66, 0, 0], [255, 255, 255, 0]⟩) := rfl
  refine (settings_readBack_iff dnsEnv_standard rfl hcidr rfl _).2 ⟨⟨?_, ?_⟩, trivial⟩
  · intro c hc peer _
    have hinvited : Api.invited dnsEnv freshNode
        { peerID := rus2.text, peerAlias := "John Jr" } = some c := hc
    obtain ⟨-, -, -, halias, -⟩ := Api.invited_eq_some hinvited
    refine ⟨?_, fun _ => Or.inl ⟨[10, 66, 0, 2], rfl, by decide, by decide, by decide, by decide⟩⟩
    rw [ProperName, halias]
    decide
  · intro heard hheard
    cases hheard

end

end Awl
