import Awl.Dns
import Awl.UniqueAliases

/-!
Names over the life of a configuration: peers are added, renamed and removed, and after each
call the resolver is to find every known peer under its ID and under its domain name.

Aliases are compared letter by letter, domain names are made of them in lower case, and nothing
compares domain names with each other, with the IDs, or with the reserved name.
-/

namespace Awl

open PeerCodec Text AuthStatus

namespace Dns

/-! ### Plain names -/

def plainChars : List Char :=
  "ABCDEFGHIJKLMNOPQRSTUVWXYZabcdefghijklmnopqrstuvwxyz0123456789-".toList

/-- Letters, digits and hyphens, at least one. -/
structure Plain (x : String) : Prop where
  nonempty : x ≠ ""
  chars : ∀ c ∈ x.toList, c ∈ plainChars

lemma plain_of_all {x : String} (hne : x ≠ "") (h : x.toList.all (· ∈ plainChars) = true) :
    Plain x :=
  ⟨hne, fun c hc => of_decide_eq_true (List.all_eq_true.mp h c hc)⟩

lemma plainChars_noSpace : ∀ c ∈ plainChars, isSpace c = false := by
  have h : plainChars.all (fun c => !isSpace c) = true := by decide +kernel
  exact fun c hc => by simpa using List.all_eq_true.mp h c hc

/-- `strings.ToLower` on the plain characters. -/
def LowersPlain (env : Env) : Prop := ∀ c ∈ plainChars, env.toLower c = c.toLower

variable {env : Env} {x : String}

lemma Plain.trimSpace (h : Plain x) : trimSpace x = x :=
  trimSpace_of_noSpace fun c hc => plainChars_noSpace c (h.chars c hc)

lemma Plain.trimDomainName (h : Plain x) (henv : LowersPlain env) :
    env.trimDomainName x = String.ofList (x.toList.map Char.toLower) := by
  rw [Env.trimDomainName, h.trimSpace]
  refine congrArg String.ofList (List.map_congr_left fun c hc => ?_)
  rw [plainChars_noSpace c (h.chars c hc), if_neg Bool.false_ne_true, henv c (h.chars c hc)]

/-- The domain name that is made of a plain alias. -/
lemma Plain.domainName (h : Plain x) (henv : LowersPlain env) :
    env.trimDomainName x ≠ "" ∧ Lower (env.trimDomainName x) := by
  rw [h.trimDomainName henv]
  constructor
  · intro he
    refine h.nonempty (String.toList_eq_nil_iff.mp ?_)
    have := congrArg String.toList he
    rwa [String.toList_ofList, String.toList_empty, List.map_eq_nil_iff] at this
  · rw [Lower, String.toList_ofList, List.map_map]
    exact List.map_congr_left fun c _ => toLower_toLower c

/-! ### One record more or less -/

/-- The names of a record that is written are apart from those of the other peers. -/
structure ApartFrom (c : Config) (peer : KnownPeer) : Prop where
  others : ∀ e ∈ c.knownPeers.entries, e.1 ≠ peer.peerID → ∀ x ∈ names peer, ∀ y ∈ names e.2,
    zoneName x = zoneName y → peer.ipAddr = e.2.ipAddr
  admin : ∀ x ∈ names peer, zoneName x = zoneName adminHttpServerDomainName →
    peer.ipAddr = adminHttpServerIP

instance (c : Config) (peer : KnownPeer) : Decidable (ApartFrom c peer) :=
  decidable_of_iff (_ ∧ _) ⟨fun h => ⟨h.1, h.2⟩, fun h => ⟨h.others, h.admin⟩⟩

variable {c c' : Config}

lemma NamesApart.mono (h : NamesApart c)
    (hsub : ∀ ⦃k kp⦄, c'.knownPeers.lookup k = some kp → c.knownPeers.lookup k = some kp) :
    NamesApart c' :=
  ⟨fun _ _ _ _ hk hk' => h.peers (hsub hk) (hsub hk'), fun _ _ hk => h.admin (hsub hk)⟩

lemma NamesApart.insert_iff (h : NamesApart c) (peer : KnownPeer)
    (hk : c'.knownPeers = c.knownPeers.insert peer.peerID peer) :
    NamesApart c' ↔ ApartFrom c peer := by
  have hnew : c'.knownPeers.lookup peer.peerID = some peer := by
    rw [hk, Finmap.lookup_insert]
  have hold : ∀ {k kp}, k ≠ peer.peerID → c.knownPeers.lookup k = some kp →
      c'.knownPeers.lookup k = some kp := by
    intro k kp hne hl
    rwa [hk, Finmap.lookup_insert_of_ne _ hne]
  constructor
  · intro h'
    refine ⟨fun e he hne => ?_, h'.admin hnew⟩
    exact h'.peers hnew (hold hne (GoMap.mem_entries.mp he))
  · intro hap
    -- a record of the new configuration is the one written, or an old one
    have hcases : ∀ {k kp}, c'.knownPeers.lookup k = some kp →
        kp = peer ∨ k ≠ peer.peerID ∧ c.knownPeers.lookup k = some kp := by
      intro k kp hl
      rw [hk, GoMap.lookup_insert_ite] at hl
      split_ifs at hl with he
      · exact Or.inl (Option.some.inj hl).symm
      · exact Or.inr ⟨he, hl⟩
    constructor
    · intro k kp k' kp' hl hl' x hx y hy he
      rcases hcases hl with rfl | ⟨hne, hl⟩
      · rcases hcases hl' with rfl | ⟨hne', hl'⟩
        · rfl
        · exact hap.others ⟨k', kp'⟩ (GoMap.mem_entries.mpr hl') hne' x hx y hy he
      · rcases hcases hl' with rfl | ⟨-, hl'⟩
        · exact (hap.others ⟨k, kp⟩ (GoMap.mem_entries.mpr hl) hne y hy x hx he.symm).symm
        · exact h.peers hl hl' x hx y hy he
    · intro k kp hl x hx he
      rcases hcases hl with rfl | ⟨-, hl⟩
      · exact hap.admin x hx he
      · exact h.admin hl x hx he

lemma Named.mono (h : Named c)
    (hsub : ∀ ⦃k kp⦄, c'.knownPeers.lookup k = some kp → c.knownPeers.lookup k = some kp) :
    Named c' := fun _ _ hk => h (hsub hk)

lemma Named.insert (h : Named c) {peer : KnownPeer}
    (hpeer : peer.domainName ≠ "" ∧ Lower peer.domainName)
    (hk : c'.knownPeers = c.knownPeers.insert peer.peerID peer) : Named c' := by
  intro k kp hl
  rw [hk, GoMap.lookup_insert_ite] at hl
  split_ifs at hl
  · cases hl
    exact hpeer
  · exact h hl

end Dns

open Dns

variable {ID : Type} [PeerCodec ID]

/-- The calls that give and take names, which are plain. -/
inductive NamingCall (ID : Type) [PeerCodec ID]
  | addPeer (c : AddCall ID) (hc : c.peerID ≠ zero) (halias : Plain c.peerAlias)
  | updatePeerSettings (req : UpdatePeerSettingsRequest) (halias : Plain req.peerAlias)
      (hdomain : Plain req.domainName)
  | removePeer (req : PeerIDRequest)

namespace NamingCall

def operation : NamingCall ID → Operation ID
  | .addPeer c hc _ => .addPeer c hc
  | .updatePeerSettings req _ _ => .updatePeerSettings req
  | .removePeer req => .removePeer req

def run [DecidableEq ID] (env : Env) (s : Node ID) (e : NamingCall ID) : Node ID :=
  e.operation.run env s

/-- A record that is written has names that are apart from those of the other peers. -/
def KeepsApart (env : Env) (s : Node ID) : NamingCall ID → Prop
  | .addPeer c _ _ => ∀ peer, c.outcome env s = .ok peer → ApartFrom s.conf peer
  | .updatePeerSettings req _ _ =>
    ∀ kp, Api.Accepts env s.conf req kp → ApartFrom s.conf (Api.withSettings kp req)
  | .removePeer _ => True

variable [DecidableEq ID] {env : Env} {s : Node ID}

/-- **What a call does to the records**: it writes none, or one with a proper domain name. -/
lemma run_cases (henv : LowersPlain env) (s : Node ID) (e : NamingCall ID) :
    ((∀ ⦃k kp⦄, (e.run env s).conf.knownPeers.lookup k = some kp →
        s.conf.knownPeers.lookup k = some kp) ∧ e.KeepsApart env s) ∨
      ∃ peer, (e.run env s).conf.knownPeers = s.conf.knownPeers.insert peer.peerID peer ∧
        (peer.domainName ≠ "" ∧ Lower peer.domainName) ∧
        (e.KeepsApart env s ↔ ApartFrom s.conf peer) := by
  cases e with
  | addPeer c hc halias =>
    rw [run, operation, Operation.run_addPeer]
    rcases ho : c.outcome env s with err | peer
    · rw [Node.takeCall_error ho]
      refine Or.inl ⟨fun _ _ h => h, fun peer hpeer => ?_⟩
      rw [ho] at hpeer
      cases hpeer
    · obtain ⟨blocked, hconf, -⟩ := Node.takeCall_ok ho
      obtain ⟨-, -, ipAddr, -, hpeer⟩ := AddCall.outcome_ok ho
      refine Or.inr ⟨peer, by rw [hconf], ?_, ?_⟩
      · have hdomain : peer.domainName = env.trimDomainName c.peerAlias := by
          rw [hpeer, newPeer, halias.trimSpace]
          simp only [KnownPeer.displayName, ne_eq, halias.nonempty, not_false_eq_true, if_true]
        rw [hdomain]
        exact halias.domainName henv
      · simp only [KeepsApart, ho, Except.ok.injEq, forall_eq']
  | updatePeerSettings req halias hdomain =>
    rw [run, operation]
    by_cases hacc : ∃ kp, Api.Accepts env s.conf req kp
    · obtain ⟨kp, hkp⟩ := hacc
      rw [Operation.run_updatePeerSettings hkp]
      refine Or.inr ⟨Api.withSettings kp req, rfl, ?_, fun h => h kp hkp, fun h kp' hkp' => ?_⟩
      · -- the domain name is accepted only in lower case
        have hvalid := hkp.domain
        rw [Env.isValidDomainName, Bool.and_eq_true, beq_iff_eq] at hvalid
        have hname := hdomain.domainName henv
        rwa [← hvalid.2] at hname
      · rw [← Option.some.inj (hkp.known.symm.trans hkp'.known)]
        exact h
    · rw [Operation.run_updatePeerSettings_refused fun kp hkp => hacc ⟨kp, hkp⟩]
      exact Or.inl ⟨fun _ _ h => h, fun kp hkp => absurd ⟨kp, hkp⟩ hacc⟩
  | removePeer req =>
    refine Or.inl ⟨fun k kp hl => ?_, trivial⟩
    rw [run, operation] at hl
    rcases hd : (decode req.peerID : Option ID) with _ | peerID
    · rwa [Operation.run_removePeer, hd] at hl
    rcases hk : s.conf.getPeer req.peerID with _ | kp
    · rwa [Operation.run_removePeer, hd, hk] at hl
    obtain ⟨blocked, hconf, -⟩ := Operation.run_removePeer_known env hd hk
    rw [hconf, GoMap.lookup_erase_ite] at hl
    split_ifs at hl
    exact hl

end NamingCall

variable [DecidableEq ID]

/-- **The resolver finds every peer** all along exactly when no call writes a record whose ID or
domain name is, in lower case, a name of another peer with another address, or the reserved
name. -/
theorem peers_resolve_iff {env : Env} (henv : LowersPlain env) {s : Node ID}
    (hempty : s.conf.knownPeers = ∅) (es : List (NamingCall ID)) :
    Runs.Holds (NamingCall.run env) (fun s => s.conf.Resolves) s es ↔
      Runs.Meets (NamingCall.run env) (fun s e => e.KeepsApart env s) s es := by
  have hnone : ∀ ⦃k kp⦄, s.conf.knownPeers.lookup k = some kp → False := by
    intro k kp hl
    rw [hempty, Finmap.lookup_empty] at hl
    cases hl
  refine Runs.holds_iff_meets (I := fun s => Named s.conf) (fun s e hI _ => ?_)
    (fun s e hI h => ?_) es s (fun k kp hl => (hnone hl).elim) ?_
  · rcases e.run_cases henv s with ⟨hsub, -⟩ | ⟨peer, hk, hdomain, -⟩
    · exact hI.mono hsub
    · exact hI.insert hdomain hk
  · have hap := (resolves_iff hI).mp h
    rcases e.run_cases henv s with ⟨hsub, hkeeps⟩ | ⟨peer, hk, hdomain, hkeeps⟩
    · exact iff_of_true ((resolves_iff (hI.mono hsub)).mpr (hap.mono hsub)) hkeeps
    · rw [resolves_iff (hI.insert hdomain hk), hkeeps]
      exact hap.insert_iff peer hk
  · exact (resolves_iff fun k kp hl => (hnone hl).elim).mpr
      ⟨fun k kp k' kp' hl => (hnone hl).elim, fun k kp hl => (hnone hl).elim⟩

section

open BootstrapPeer

lemma sampleEnv_lowersPlain : LowersPlain sampleEnv := fun _ _ => rfl

def addAs (id : BootstrapPeer) (hid : id ≠ zero) (peerAlias : String) (h : Plain peerAlias) :
    NamingCall BootstrapPeer :=
  .addPeer { peerID := id, name := "", peerAlias := peerAlias, confirmed := false } hid h

lemma plain_upperBob : Plain "Bob" := plain_of_all (by decide) (by decide +kernel)

lemma plain_bob : Plain "bob" := plain_of_all (by decide) (by decide +kernel)

lemma plain_alice : Plain "alice" := plain_of_all (by decide) (by decide +kernel)

/-- Two aliases that differ in case only. -/
def bobTwice : List (NamingCall BootstrapPeer) :=
  [addAs rus2 rus2_ne_zero "Bob" plain_upperBob, addAs ita1 ita1_ne_zero "bob" plain_bob]

theorem bobTwice_not_resolved :
    LowersPlain sampleEnv ∧ freshNode.conf.knownPeers = ∅ ∧
      ¬ Runs.Holds (NamingCall.run sampleEnv) (fun s => s.conf.Resolves) freshNode bobTwice := by
  refine ⟨sampleEnv_lowersPlain, rfl, fun h => ?_⟩
  set s := bobTwice.foldl (NamingCall.run sampleEnv) freshNode with hs
  have hrus2 : (s.conf.getPeer rus2.text).map (fun kp => (kp.domainName, kp.ipAddr)) =
      some ("bob", "10.66.0.2") := by decide +kernel
  have hita1 : (s.conf.getPeer ita1.text).map (fun kp => (kp.domainName, kp.ipAddr)) =
      some ("bob", "10.66.0.3") := by decide +kernel
  obtain ⟨kp, hk, he⟩ := Option.map_eq_some_iff.mp hrus2
  obtain ⟨kp', hk', he'⟩ := Option.map_eq_some_iff.mp hita1
  obtain ⟨ks, hks⟩ := GoMap.exists_ranges s.conf.knownPeers
  obtain ⟨ns, hns⟩ := GoMap.exists_ranges (s.conf.refreshedNames ks)
  have h1 := (h.last "" ks ns hks hns hk).1
  have h2 := (h.last "" ks ns hks hns hk').1
  rw [(Prod.mk.inj he).1, (Prod.mk.inj he).2] at h1
  rw [(Prod.mk.inj he').1, (Prod.mk.inj he').2, h1] at h2
  exact absurd (Option.some.inj h2) (by decide)

/-- The second peer is given a name of its own. -/
theorem bob_alice_resolve :
    Runs.Holds (NamingCall.run sampleEnv) (fun s => s.conf.Resolves) freshNode
      [addAs rus2 rus2_ne_zero "Bob" plain_upperBob, addAs ita1 ita1_ne_zero "alice" plain_alice,
        .removePeer { peerID := rus2.text }] := by
  refine (peers_resolve_iff sampleEnv_lowersPlain rfl _).mpr
    ⟨fun peer hpeer => ?_, fun peer hpeer => ?_, trivial, trivial⟩
  · cases hpeer
    decide +kernel
  · cases hpeer
    decide +kernel

end

end Awl
