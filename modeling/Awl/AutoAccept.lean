import Awl.AllocLoop
import Awl.Operations

/-!
Auth requests that are accepted without asking the user. The alias of the new peer is made of the
name in the request, so that it is free; `AddPeer` then trims it and checks it once more, and an
error of `AddPeer` is discarded.
-/

namespace Awl

open NetIP PeerCodec Text AuthStatus

/-! ### The alias that is generated -/

namespace Config

/-- The alias that the name of an auth request asks for. -/
def wantedAlias (name : String) : String := if name = "" then "peer" else name

/-- The alias that is generated for the name: trimming it leaves something, which is still free. -/
def KeepsAlias (taken : Finset String) (name : String) : Prop :=
  if wantedAlias name ∈ taken then
    ∃ i, (∀ j < i, suffixed (wantedAlias name) j ∈ taken) ∧
      suffixed (wantedAlias name) i ∉ taken ∧ trimSpace (suffixed (wantedAlias name) i) ∉ taken
  else trimSpace (wantedAlias name) ≠ "" ∧ trimSpace (wantedAlias name) ∉ taken

lemma keepsAlias_iff (taken : Finset String) (name : String) :
    KeepsAlias taken name ↔ trimSpace (genUniqPeerAlias taken name "").1 ≠ "" ∧
      trimSpace (genUniqPeerAlias taken name "").1 ∉ taken := by
  have hwanted : requestedAlias name "" = wantedAlias name := if_pos rfl
  by_cases hmem : wantedAlias name ∈ taken
  · obtain ⟨n, hn, hfree, hall⟩ := exists_first_free taken (wantedAlias name)
    rw [KeepsAlias, if_pos hmem]
    rw [← hwanted] at hmem hfree hall ⊢
    rw [genUniqPeerAlias_of_taken hmem hn hfree hall]
    constructor
    · rintro ⟨i, hall', hfree', htrim⟩
      -- both are the first that is free
      have hin : i = n := by
        rcases lt_trichotomy i n with hlt | heq | hgt
        · exact absurd (hall i hlt) hfree'
        · exact heq
        · exact absurd (hall' n hgt) hfree
      exact ⟨trimSpace_suffixed_ne_empty _ _, hin ▸ htrim⟩
    · exact fun h => ⟨n, hall, hfree, h.2⟩
  · rw [KeepsAlias, if_neg hmem, ← hwanted, genUniqPeerAlias_of_free (hwanted ▸ hmem)]

end Config

/-! ### `AddPeer` with the panics of the allocator -/

/-- The address a new peer gets; the allocator visits the known peers in the order `ks`, and
`none` is a panic. -/
def AuthStatus.chooseIPBy (conf : Config) (ks : List String) (peerID ipAddr : String) :
    Option (Except AddPeerError String) :=
  if ipAddr = "" then (conf.generateNextIpAddrExceptBy ks []).map .ok
  else match conf.checkIPUnique ipAddr peerID with
    | .ok => some (.ok ipAddr)
    | .panics => none
    | e => some (.error (.ip e))

variable {ID : Type} [PeerCodec ID]

namespace AddCall

/-- What a call comes to that is not interrupted, if it does not panic. -/
def outcomeBy (env : Env) (ks : List String) (c : AddCall ID) (s : Node ID) :
    Option (Except AddPeerError KnownPeer) :=
  if (s.conf.getPeer (string c.peerID)).isSome then some (.error .alreadyAdded)
  else if !s.conf.isUniqPeerAlias "" (trimSpace c.peerAlias) then some (.error .aliasNotUnique)
  else do
    match ← chooseIPBy s.conf ks (string c.peerID) c.ipAddr with
    | .error e => return .error e
    | .ok ipAddr => return .ok (newPeer env (string c.peerID) c.name (trimSpace c.peerAlias)
        ipAddr c.confirmed s.now)

variable {env : Env} {ks : List String} {c : AddCall ID} {s : Node ID}

/-- A peer that is not known, under an alias that is free and without an address of its own, is
added if the allocator returns. -/
lemma outcomeBy_ok_iff (hks : GoMap.Ranges s.conf.knownPeers ks) (hip : c.ipAddr = "")
    (hunknown : s.conf.getPeer (string c.peerID) = none) :
    (∃ peer, c.outcomeBy env ks s = some (.ok peer)) ↔
      s.conf.isUniqPeerAlias "" (trimSpace c.peerAlias) = true ∧
        s.conf.vpnLocalIPMask.1 ≠ [] ∧ ¬ s.conf.AllocPanics := by
  rw [← Config.generateNextIpAddrExceptBy_isSome_iff hks, Option.isSome_iff_exists]
  rcases huniq : s.conf.isUniqPeerAlias "" (trimSpace c.peerAlias) with _ | _
  · simp [outcomeBy, hunknown, huniq]
  · rcases hgen : s.conf.generateNextIpAddrExceptBy ks [] with _ | ipAddr
    · simp [outcomeBy, hunknown, huniq, chooseIPBy, hip, hgen]
    · simp [outcomeBy, hunknown, huniq, chooseIPBy, hip, hgen]

/-- Such a call leaves a record with the alias, and the other records as they were. -/
lemma takeCall_default (env : Env) (hip : c.ipAddr = "")
    (hunknown : s.conf.getPeer (string c.peerID) = none)
    (huniq : s.conf.isUniqPeerAlias "" (trimSpace c.peerAlias) = true) :
    (∃ kp, (s.takeCall env c).conf.getPeer (string c.peerID) = some kp ∧
        kp.peerAlias = trimSpace c.peerAlias) ∧
      ∀ k ≠ string c.peerID, (s.takeCall env c).conf.getPeer k = s.conf.getPeer k := by
  have hok : c.outcome env s = .ok (newPeer env (string c.peerID) c.name (trimSpace c.peerAlias)
      s.conf.generateNextIpAddr c.confirmed s.now) := by
    simp [outcome, hunknown, huniq, chooseIP, hip]
  obtain ⟨blocked, hconf, -⟩ := Node.takeCall_ok hok
  rw [hconf]
  exact ⟨⟨_, Finmap.lookup_insert _, rfl⟩, fun k hk => Finmap.lookup_insert_of_ne _ hk⟩

end AddCall

/-- **Auto-accept keeps the peer** exactly if the allocator returns and trimming the alias that is
generated for its name leaves it free, and something of it. -/
theorem autoAccept_kept_iff [DecidableEq ID] (env : Env) (s : Node ID) (y : ID) (hy : y ≠ zero)
    (sid : ℕ) (net : Req ID → Resp) (name : String)
    (hreceived : net (.receiveAuth { remote := y, sid := sid, inbound := true }) = .auth ⟨name⟩)
    (hunknown : s.conf.getPeer (string y) = none)
    (hunblocked : s.conf.getBlockedPeer (string y) = none)
    (hauto : s.conf.p2pNode.autoAcceptAuthRequests = true) :
    (∃ c, autoAccepted y sid net s = some c ∧
      (∀ ks, GoMap.Ranges s.conf.knownPeers ks → ∃ peer, c.outcomeBy env ks s = some (.ok peer)) ∧
      ∃ kp, ((Operation.authStream y hy sid net).run env s).conf.getPeer (string y) = some kp ∧
        kp.peerAlias ≠ "" ∧ ∀ k kp', k ≠ string y →
          ((Operation.authStream y hy sid net).run env s).conf.getPeer k = some kp' →
          kp'.peerAlias ≠ kp.peerAlias) ↔
    (s.conf.vpnLocalIPMask.1 ≠ [] ∧ ¬ s.conf.AllocPanics) ∧
      Config.KeepsAlias s.conf.aliases name := by
  set c : AddCall ID := { peerID := y, name := name, confirmed := true,
                          peerAlias := (Config.genUniqPeerAlias s.conf.aliases name "").1 } with hc
  have hcall : autoAccepted y sid net s = some c := by
    simp [autoAccepted, hreceived, hunknown, hunblocked, hauto, hc]
  have hrun : ((Operation.authStream y hy sid net).run env s).conf = (s.takeCall env c).conf := by
    rw [(Operation.run_authStream y hy sid net).conf, hcall]
    rfl
  rw [hrun, Config.keepsAlias_iff]
  constructor
  · rintro ⟨c', hc', hreturns, kp, hkp, hne, hothers⟩
    cases hcall.symm.trans hc'
    obtain ⟨ks, hks⟩ := GoMap.exists_ranges s.conf.knownPeers
    obtain ⟨huniq, halloc⟩ := (AddCall.outcomeBy_ok_iff hks rfl hunknown).1 (hreturns ks hks)
    obtain ⟨⟨kp', hkp', halias⟩, hrest⟩ := AddCall.takeCall_default env rfl hunknown huniq
    cases hkp.symm.trans hkp'
    refine ⟨halloc, halias ▸ hne, fun hmem => ?_⟩
    obtain ⟨k, kp', hk, heq⟩ := Config.mem_aliases.1 hmem
    have hother : k ≠ string y := by
      rintro rfl
      rw [Config.getPeer, hk] at hunknown
      cases hunknown
    exact hothers k kp' hother ((hrest k hother).trans hk) (heq.trans halias.symm)
  · rintro ⟨halloc, hne, hfree⟩
    have huniq : s.conf.isUniqPeerAlias "" (trimSpace c.peerAlias) = true := by
      refine Config.isUniqPeerAlias_iff.2 fun k kp hk => Or.inr fun heq => hfree ?_
      exact Config.mem_aliases.2 ⟨k, kp, hk, heq⟩
    obtain ⟨⟨kp, hkp, halias⟩, hrest⟩ := AddCall.takeCall_default env rfl hunknown huniq
    refine ⟨c, hcall, fun ks hks => (AddCall.outcomeBy_ok_iff hks rfl hunknown).2 ⟨huniq, halloc⟩,
      kp, hkp, halias ▸ hne, fun k kp' hother hk heq => hfree ?_⟩
    rw [hrest k hother] at hk
    exact Config.mem_aliases.2 ⟨k, kp', hk, heq.trans halias⟩

section

open BootstrapPeer

/-- A node that accepts requests by itself and knows a peer under the alias `bob`. -/
def welcomingNode : Node BootstrapPeer where
  conf := { conf [] with
    p2pNode := { autoAcceptAuthRequests := true }
    knownPeers := Finmap.singleton ita1.text
      { peerID := ita1.text, peerAlias := "bob", ipAddr := "10.66.0.2" } }
  disk := conf []
  ingoingAuths := ∅
  outgoingAuths := ∅
  now := 0
  history := []

/-- A peer that sends an auth request with this name. -/
def greeting (name : String) : Req BootstrapPeer → Resp := fun _ => .auth ⟨name⟩

/-- The name is the alias of the other peer, but for a space at its end. -/
theorem trailingSpace_dropped :
    welcomingNode.conf.aliases = {"bob"} ∧
      welcomingNode.conf.getPeer rus2.text = none ∧
      welcomingNode.conf.getBlockedPeer rus2.text = none ∧
      autoAccepted rus2 0 (greeting "bob ") welcomingNode ≠ none ∧
      ((Operation.authStream rus2 rus2_ne_zero 0 (greeting "bob ")).run sampleEnv
        welcomingNode).conf.getPeer rus2.text = none := by
  refine ⟨by decide, by decide, by decide, ?_, by decide⟩
  exact Option.isSome_iff_ne_none.1 (by decide)

/-- The name is the alias of the other peer. -/
theorem sameName_kept :
    ∃ kp, ((Operation.authStream rus2 rus2_ne_zero 0 (greeting "bob")).run sampleEnv
        welcomingNode).conf.getPeer (string rus2) = some kp ∧ kp.peerAlias ≠ "" := by
  have hkeeps : Config.KeepsAlias welcomingNode.conf.aliases "bob" := by
    rw [Config.KeepsAlias, if_pos (by decide)]
    exact ⟨0, fun j hj => absurd hj (Nat.not_lt_zero j), by decide, by decide⟩
  obtain ⟨c, -, -, kp, hkp, hne, -⟩ := (autoAccept_kept_iff sampleEnv welcomingNode rus2
    rus2_ne_zero 0 (greeting "bob") "bob" rfl (by decide) (by decide) rfl).2
    ⟨⟨by decide, fun h => absurd h.1 (by decide)⟩, hkeeps⟩
  exact ⟨kp, hkp, hne⟩

end

end Awl
