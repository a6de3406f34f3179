import Awl.AddCalls

/-!
When calls of `AddPeer` might as well have been made one after the other.

A call takes effect in its last critical section: the check that fails, or the write. If its
checks would come out the same when that section runs, the order of the last sections is an
order in which the calls can be made without interruption.
-/

namespace Awl

open PeerCodec Text AuthStatus

variable {ID : Type} [PeerCodec ID]

namespace Adding

section

variable {env : Env} {calls : List (AddCall ID)} {σ τ : Adding ID} {i j : ℕ} {c : AddCall ID}
  {order : List ℕ}

/-- A call for the ID `k` has removed it from the blocked ones and not yet written its record. -/
def Unblocked (calls : List (AddCall ID)) (stages : ℕ → Stage) (k : String) : Prop :=
  ∃ i c peer, calls[i]? = some c ∧ string c.peerID = k ∧ stages i = .upsert peer

/-- The calls of `order` are those that have returned, with the same results on both sides; the
others have not begun on the right. -/
structure Ordered (n : ℕ) (stages stages' : ℕ → Stage) (order : List ℕ) : Prop where
  nodup : order.Nodup
  lt : ∀ i ∈ order, i < n
  returned : ∀ i ∈ order, (∃ r, stages i = .returned r) ∧ stages' i = stages i
  pending : ∀ i ∉ order, (∀ r, stages i ≠ .returned r) ∧ stages' i = .getPeer

/-- The calls of `order`, made one after the other, have led to `τ`: the state is the same but
for the peers that are about to be written. -/
structure Tracks (calls : List (AddCall ID)) (σ τ : Adding ID) (order : List ℕ) : Prop where
  ordered : Ordered calls.length σ.stages τ.stages order
  known : σ.node.conf.knownPeers = τ.node.conf.knownPeers
  vpn : σ.node.conf.vpnConfig = τ.node.conf.vpnConfig
  now : σ.node.now = τ.node.now
  unblocked : ∀ k, Unblocked calls σ.stages k → σ.node.conf.blockedPeers.lookup k = none
  blocked : ∀ k, ¬ Unblocked calls σ.stages k →
    σ.node.conf.blockedPeers.lookup k = τ.node.conf.blockedPeers.lookup k

end

section

variable {n i : ℕ} {stages stages' : ℕ → Stage} {order : List ℕ} {b : Stage}

lemma Ordered.notMem (h : Ordered n stages stages' order) (ha : ∀ r, stages i ≠ .returned r) :
    i ∉ order := by
  intro hi
  obtain ⟨⟨r, hr⟩, -⟩ := h.returned i hi
  exact ha r hr

/-- A call goes on. -/
lemma Ordered.goes_on (h : Ordered n stages stages' order) (ha : ∀ r, stages i ≠ .returned r)
    (hb : ∀ r, b ≠ .returned r) : Ordered n (Function.update stages i b) stages' order := by
  have hi := h.notMem ha
  refine ⟨h.nodup, h.lt, fun j hj => ?_, fun j hj => ?_⟩
  · have hji : j ≠ i := fun he => hi (he ▸ hj)
    rw [Function.update_of_ne hji]
    exact h.returned j hj
  · by_cases hji : j = i
    · subst hji
      rw [Function.update_self]
      exact ⟨hb, (h.pending j hj).2⟩
    · rw [Function.update_of_ne hji]
      exact h.pending j hj

/-- A call returns, on both sides. -/
lemma Ordered.returns (h : Ordered n stages stages' order) (hn : i < n)
    (ha : ∀ r, stages i ≠ .returned r) (r : Except AddPeerError Unit) :
    Ordered n (Function.update stages i (.returned r)) (Function.update stages' i (.returned r))
      (order ++ [i]) := by
  have hi := h.notMem ha
  refine ⟨List.nodup_append.mpr ⟨h.nodup, List.nodup_singleton i, ?_⟩, ?_, ?_, ?_⟩
  · rintro j hj j' hj' rfl
    exact hi (List.mem_singleton.mp hj' ▸ hj)
  · intro j hj
    rcases List.mem_append.mp hj with hj | hj
    · exact h.lt j hj
    · exact List.mem_singleton.mp hj ▸ hn
  · intro j hj
    by_cases hji : j = i
    · subst hji
      simp only [Function.update_self]
      exact ⟨⟨r, rfl⟩, trivial⟩
    · rw [Function.update_of_ne hji, Function.update_of_ne hji]
      rcases List.mem_append.mp hj with hj | hj
      · exact h.returned j hj
      · exact absurd (List.mem_singleton.mp hj) hji
  · intro j hj
    have hji : j ≠ i := fun he => hj (List.mem_append_right _ (List.mem_singleton.mpr he))
    rw [Function.update_of_ne hji, Function.update_of_ne hji]
    exact h.pending j fun hmem => hj (List.mem_append_left _ hmem)

/-- All calls have returned: the order is one of all of them. -/
lemma Ordered.perm (h : Ordered n stages stages' order)
    (hall : ∀ i < n, ∃ r, stages i = .returned r) : order.Perm (List.range n) := by
  refine (List.perm_ext_iff_of_nodup h.nodup List.nodup_range).mpr fun i => ?_
  rw [List.mem_range]
  refine ⟨h.lt i, fun hi => ?_⟩
  by_contra hmem
  obtain ⟨r, hr⟩ := hall i hi
  exact (h.pending i hmem).1 r hr

variable {calls : List (AddCall ID)} {k : String}

/-- A call is not at the point between unblocking and writing, and does not get there. -/
lemma unblocked_update (ha : ∀ peer, stages i ≠ .upsert peer) (hb : ∀ peer, b ≠ .upsert peer) :
    Unblocked calls (Function.update stages i b) k ↔ Unblocked calls stages k := by
  constructor
  · rintro ⟨j, c, peer, hj, hk, hstage⟩
    by_cases hji : j = i
    · subst hji
      rw [Function.update_self] at hstage
      exact absurd hstage (hb peer)
    · rw [Function.update_of_ne hji] at hstage
      exact ⟨j, c, peer, hj, hk, hstage⟩
  · rintro ⟨j, c, peer, hj, hk, hstage⟩
    have hji : j ≠ i := fun he => ha peer (he ▸ hstage)
    exact ⟨j, c, peer, hj, hk, by rwa [Function.update_of_ne hji]⟩

/-- For another ID it does not matter what the call does. -/
lemma unblocked_update_other (stages : ℕ → Stage) (b : Stage) {c : AddCall ID}
    (hi : calls[i]? = some c) (hk : string c.peerID ≠ k) :
    Unblocked calls (Function.update stages i b) k ↔ Unblocked calls stages k := by
  have hne : ∀ {j c'}, calls[j]? = some c' → string c'.peerID = k → j ≠ i := by
    rintro j c' hj hk' rfl
    cases Option.some.inj (hi.symm.trans hj)
    exact hk hk'
  constructor
  · rintro ⟨j, c', peer, hj, hk', hstage⟩
    exact ⟨j, c', peer, hj, hk', by rwa [Function.update_of_ne (hne hj hk')] at hstage⟩
  · rintro ⟨j, c', peer, hj, hk', hstage⟩
    exact ⟨j, c', peer, hj, hk', by rwa [Function.update_of_ne (hne hj hk')]⟩

end

section

variable {env : Env} {calls : List (AddCall ID)} {σ τ : Adding ID} {i : ℕ} {c : AddCall ID}
  {order : List ℕ} {b : Stage}

/-- What a call comes to depends only on what is tracked. -/
lemma Tracks.outcome (h : Tracks calls σ τ order) (c : AddCall ID) :
    c.outcome env σ.node = c.outcome env τ.node := by
  have hip : AuthStatus.chooseIP σ.node.conf (string c.peerID) c.ipAddr =
      AuthStatus.chooseIP τ.node.conf (string c.peerID) c.ipAddr := by
    have hmask : σ.node.conf.vpnLocalIPMask = τ.node.conf.vpnLocalIPMask :=
      Config.vpnLocalIPMask_congr (by rw [h.vpn])
    have hnet : σ.node.conf.vpnNet = τ.node.conf.vpnNet := Config.vpnNet_congr h.vpn
    simp only [AuthStatus.chooseIP, Config.checkIPUnique, Config.generateNextIpAddr,
      Config.generateNextIpAddrExcept, Config.maxIp, Config.candidate, hmask, hnet, h.known]
  have huniq : σ.node.conf.isUniqPeerAlias "" (trimSpace c.peerAlias) =
      τ.node.conf.isUniqPeerAlias "" (trimSpace c.peerAlias) := by
    simp only [Config.isUniqPeerAlias, h.known]
  unfold AddCall.outcome Config.getPeer
  rw [huniq, hip, h.known, h.now]

lemma Tracks.goes_on (h : Tracks calls σ τ order) (ha : ∀ r, σ.stages i ≠ .returned r)
    (ha' : ∀ peer, σ.stages i ≠ .upsert peer) (hb : ∀ r, b ≠ .returned r)
    (hb' : ∀ peer, b ≠ .upsert peer) :
    Tracks calls ⟨σ.node, Function.update σ.stages i b⟩ τ order :=
  ⟨h.ordered.goes_on ha hb, h.known, h.vpn, h.now,
    fun k hk => h.unblocked k ((unblocked_update ha' hb').mp hk),
    fun k hk => h.blocked k (mt (unblocked_update ha' hb').mpr hk)⟩

lemma Tracks.fails (h : Tracks calls σ τ order) (hi : calls[i]? = some c)
    (ha : ∀ r, σ.stages i ≠ .returned r) (ha' : ∀ peer, σ.stages i ≠ .upsert peer)
    (e : AddPeerError) :
    Tracks calls ⟨σ.node, Function.update σ.stages i (.returned (.error e))⟩
      ⟨τ.node, Function.update τ.stages i (.returned (.error e))⟩ (order ++ [i]) := by
  have hn : i < calls.length := (List.getElem?_eq_some_iff.mp hi).1
  have hb : ∀ peer, Stage.returned (.error e) ≠ .upsert peer := fun _ he => nomatch he
  exact ⟨h.ordered.returns hn ha _, h.known, h.vpn, h.now,
    fun k hk => h.unblocked k ((unblocked_update ha' hb).mp hk),
    fun k hk => h.blocked k (mt (unblocked_update ha' hb).mpr hk)⟩

/-- The call removes the peer from the blocked ones. -/
lemma Tracks.unblocks (h : Tracks calls σ τ order) (hi : calls[i]? = some c) {peer : KnownPeer}
    (ha : σ.stages i = .unblock peer) :
    Tracks calls ⟨σ.node.removeBlockedPeer c.peerID, Function.update σ.stages i (.upsert peer)⟩ τ
      order := by
  have hne : ∀ r, σ.stages i ≠ .returned r := fun r he => nomatch ha.symm.trans he
  have hother := fun k (hk : string c.peerID ≠ k) =>
    unblocked_update_other σ.stages (.upsert peer) hi hk
  have hself : Unblocked calls (Function.update σ.stages i (.upsert peer)) (string c.peerID) :=
    ⟨i, c, peer, hi, rfl, Function.update_self ..⟩
  obtain ⟨hknown, hvpn, hnow, hblocked⟩ := σ.node.removeBlockedPeer_spec c.peerID
  refine ⟨h.ordered.goes_on hne (fun r he => nomatch he), hknown.trans h.known, hvpn.trans h.vpn,
    hnow.trans h.now, fun k hk => ?_, fun k hk => ?_⟩
  · rw [hblocked]
    split_ifs with he
    · rfl
    · exact h.unblocked k ((hother k (Ne.symm he)).mp hk)
  · rw [hblocked]
    split_ifs with he
    · exact absurd (he ▸ hself) hk
    · exact h.blocked k (mt (hother k (Ne.symm he)).mpr hk)

/-- The call writes its record. -/
lemma Tracks.writes (h : Tracks calls σ τ order) (hi : calls[i]? = some c) {peer : KnownPeer}
    (ha : σ.stages i = .upsert peer) :
    Tracks calls
      ⟨σ.node.upsertPeer peer, Function.update σ.stages i (.returned (.ok ()))⟩
      ⟨(τ.node.removeBlockedPeer c.peerID).upsertPeer peer,
        Function.update τ.stages i (.returned (.ok ()))⟩ (order ++ [i]) := by
  have hn : i < calls.length := (List.getElem?_eq_some_iff.mp hi).1
  have hne : ∀ r, σ.stages i ≠ .returned r := fun r he => nomatch ha.symm.trans he
  have hother := fun k (hk : string c.peerID ≠ k) =>
    unblocked_update_other σ.stages (.returned (.ok ())) hi hk
  have hgone : σ.node.conf.blockedPeers.lookup (string c.peerID) = none :=
    h.unblocked _ ⟨i, c, peer, hi, rfl, ha⟩
  obtain ⟨hknown, hvpn, hnow, hblocked⟩ := τ.node.removeBlockedPeer_spec c.peerID
  refine ⟨h.ordered.returns hn hne _, ?_, h.vpn.trans hvpn.symm, h.now.trans hnow.symm,
    fun k hk => ?_, fun k hk => ?_⟩
  · change σ.node.conf.knownPeers.insert _ _ =
      (τ.node.removeBlockedPeer c.peerID).conf.knownPeers.insert _ _
    rw [hknown, h.known]
  · by_cases he : k = string c.peerID
    · exact he ▸ hgone
    · exact h.unblocked k ((hother k (Ne.symm he)).mp hk)
  · change σ.node.conf.blockedPeers.lookup k =
      (τ.node.removeBlockedPeer c.peerID).conf.blockedPeers.lookup k
    rw [hblocked]
    split_ifs with he
    · exact he ▸ hgone
    · exact h.blocked k (mt (hother k (Ne.symm he)).mpr hk)

/-- A call that goes on does not have to be made yet. -/
lemma Tracks.postpones (h : Tracks calls σ τ order) {b : Stage}
    (ha : ∀ r, σ.stages i ≠ .returned r) (ha' : ∀ peer, σ.stages i ≠ .upsert peer)
    (hb : ∀ r, b ≠ .returned r) (hb' : ∀ peer, b ≠ .upsert peer) :
    ∃ more, Tracks calls ⟨σ.node, Function.update σ.stages i b⟩
      ((oneByOne more).foldl (Adding.step env calls) τ) (order ++ more) :=
  ⟨[], by simpa [oneByOne] using h.goes_on ha ha' hb hb'⟩

/-- A call that fails is made next: it fails there too. -/
lemma Tracks.fails_next (h : Tracks calls σ τ order) (hi : calls[i]? = some c) {e : AddPeerError}
    (ha : ∀ r, σ.stages i ≠ .returned r) (ha' : ∀ peer, σ.stages i ≠ .upsert peer)
    (hout : c.outcome env σ.node = .error e) :
    ∃ more, Tracks calls ⟨σ.node, Function.update σ.stages i (.returned (.error e))⟩
      ((oneByOne more).foldl (Adding.step env calls) τ) (order ++ more) := by
  refine ⟨[i], ?_⟩
  have halone := run_alone env hi (h.ordered.pending i (h.ordered.notMem ha)).2
  rw [← h.outcome, hout] at halone
  rw [oneByOne, List.flatMap_singleton, halone]
  exact h.fails hi ha ha' e

/-- **One critical section**: the calls that have returned can be made one after the other
still. -/
lemma Tracks.step (h : Tracks calls σ τ order)
    (hsteady : ∀ c ∈ calls[i]?, c.Steady env (σ.stages i) σ.node) :
    ∃ more, Tracks calls (σ.step env calls i)
      ((oneByOne more).foldl (Adding.step env calls) τ) (order ++ more) := by
  rcases hi : calls[i]? with _ | c
  · exact ⟨[], by simpa [Adding.step, hi, oneByOne] using h⟩
  have hsteady := hsteady c hi
  rw [step_some hi]
  rcases hst : σ.stages i with _ | _ | _ | ipAddr | peer | peer | r
  · -- `GetPeer`
    rw [hst] at hsteady
    simp only [AddCall.Steady, AddCall.failure, AddCall.next] at hsteady ⊢
    split_ifs at hsteady ⊢
    · exact h.fails_next hi (by simp [hst]) (by simp [hst]) (hsteady _ rfl)
    · exact h.postpones (by simp [hst]) (by simp [hst]) (by simp) (by simp)
  · -- `IsUniqPeerAlias`
    rw [hst] at hsteady
    simp only [AddCall.Steady, AddCall.failure, AddCall.next] at hsteady ⊢
    split_ifs at hsteady ⊢
    · exact h.fails_next hi (by simp [hst]) (by simp [hst]) (hsteady _ rfl)
    · exact h.postpones (by simp [hst]) (by simp [hst]) (by simp) (by simp)
  · -- `CheckIPUnique` or `GenerateNextIpAddr`
    rw [hst] at hsteady
    simp only [AddCall.Steady, AddCall.failure, AddCall.next] at hsteady ⊢
    rcases hip : AuthStatus.chooseIP σ.node.conf (string c.peerID) c.ipAddr with e | ipAddr
    · rw [hip] at hsteady
      exact h.fails_next hi (by simp [hst]) (by simp [hst]) (hsteady _ rfl)
    · exact h.postpones (by simp [hst]) (by simp [hst]) (by simp) (by simp)
  · simp only [AddCall.next]
    exact h.postpones (by simp [hst]) (by simp [hst]) (by simp) (by simp)
  · -- `RemoveBlockedPeer`
    exact ⟨[], by simpa [oneByOne, AddCall.next] using h.unblocks hi hst⟩
  · -- `UpsertPeer`
    have hne : ∀ r, σ.stages i ≠ .returned r := by simp [hst]
    rw [hst] at hsteady
    have halone := run_alone env hi (h.ordered.pending i (h.ordered.notMem hne)).2
    rw [← h.outcome, show c.outcome env σ.node = .ok peer from hsteady] at halone
    refine ⟨[i], ?_⟩
    rw [oneByOne, List.flatMap_singleton, halone]
    exact h.writes hi hst
  · refine ⟨[], ?_⟩
    rw [AddCall.next, ← hst, Function.update_eq_self, List.append_nil]
    exact h

/-- **Runs.** -/
lemma Tracks.run (w : List ℕ) : ∀ {σ τ : Adding ID} {order : List ℕ}, Tracks calls σ τ order →
    Runs.Meets (Adding.step env calls)
      (fun σ i => ∀ c ∈ calls[i]?, c.Steady env (σ.stages i) σ.node) σ w →
    ∃ more, Tracks calls (w.foldl (Adding.step env calls) σ)
      ((oneByOne more).foldl (Adding.step env calls) τ) (order ++ more) := by
  induction w with
  | nil => exact fun {σ τ order} h _ => ⟨[], by simpa [oneByOne] using h⟩
  | cons i w ih =>
    intro σ τ order h hmeets
    obtain ⟨more, hstep⟩ := h.step hmeets.1
    obtain ⟨more', hrun⟩ := ih hstep hmeets.2
    refine ⟨more ++ more', ?_⟩
    rw [oneByOne, List.flatMap_append, List.foldl_append, ← List.append_assoc]
    exact hrun

lemma Tracks.start (calls : List (AddCall ID)) (s : Node ID) :
    Tracks calls (Adding.start s) (Adding.start s) [] := by
  have hno : ∀ k, ¬ Unblocked calls (Adding.start s).stages k := by
    rintro k ⟨i, c, peer, -, -, hstage⟩
    cases hstage
  exact ⟨⟨List.nodup_nil, by simp, by simp, fun i _ => ⟨fun r he => (nomatch he), rfl⟩⟩, rfl, rfl,
    rfl, fun k hk => absurd hk (hno k), fun _ _ => rfl⟩

end

end Adding

/-! ### All the calls -/

/-- **Calls of `AddPeer` linearize**, if every check still holds when its call takes effect. -/
theorem addPeer_linearizes (env : Env) (s : Node ID) (calls : List (AddCall ID)) (w : List ℕ)
    {σ : Adding ID} (hσ : σ = w.foldl (Adding.step env calls) (.start s))
    (hsteady : Runs.Meets (Adding.step env calls)
      (fun σ i => ∀ c ∈ calls[i]?, c.Steady env (σ.stages i) σ.node) (.start s) w)
    (hall : ∀ i < calls.length, ∃ r, σ.stages i = .returned r) :
    ∃ order, order.Perm (List.range calls.length) ∧
      ∃ τ, τ = (Adding.oneByOne order).foldl (Adding.step env calls) (.start s) ∧
        (∀ i < calls.length, τ.stages i = σ.stages i) ∧
        τ.node.conf.knownPeers = σ.node.conf.knownPeers ∧
        τ.node.conf.blockedPeers = σ.node.conf.blockedPeers := by
  obtain ⟨order, htracks⟩ := (Adding.Tracks.start calls s).run w hsteady
  rw [← hσ, List.nil_append] at htracks
  have hperm := htracks.ordered.perm hall
  refine ⟨order, hperm, _, rfl, fun i hi => ?_, htracks.known.symm, ?_⟩
  · exact (htracks.ordered.returned i (hperm.mem_iff.mpr (List.mem_range.mpr hi))).2
  · refine Finmap.ext_lookup fun k => (htracks.blocked k ?_).symm
    -- no call is left that has unblocked a peer and not written it
    rintro ⟨i, c, peer, hi, -, hstage⟩
    obtain ⟨r, hr⟩ := hall i (List.getElem?_eq_some_iff.mp hi).1
    cases hstage.symm.trans hr

section

open BootstrapPeer

/-- Two new peers with one alias. -/
def sameAlias : List (AddCall BootstrapPeer) :=
  [{ peerID := rus2, peerAlias := "laptop" }, { peerID := ita1, peerAlias := "laptop" }]

/-- Both calls check the alias before either writes. -/
def checkedTogether : List ℕ := [0, 0, 1, 1] ++ List.replicate 4 0 ++ List.replicate 4 1

def Stage.isOk : Stage → Bool
  | .returned (.ok ()) => true
  | _ => false

lemma Stage.exists_returned {stage : Stage} (h : stage.isOk = true) :
    ∃ r, stage = .returned r := by
  unfold isOk at h
  split at h
  · exact ⟨_, rfl⟩
  · cases h

lemma order_of_two {order : List ℕ} (h : order.Perm (List.range 2)) :
    order = [0, 1] ∨ order = [1, 0] := by
  obtain ⟨a, b, rfl⟩ := List.length_eq_two.mp h.length_eq
  have hne : a ≠ b := by simpa using (h.nodup_iff.mpr List.nodup_range)
  have ha : a < 2 := List.mem_range.mp (h.mem_iff.mp (by simp))
  have hb : b < 2 := List.mem_range.mp (h.mem_iff.mp (by simp))
  obtain ⟨rfl, rfl⟩ | ⟨rfl, rfl⟩ : a = 0 ∧ b = 1 ∨ a = 1 ∧ b = 0 := by omega
  · exact Or.inl rfl
  · exact Or.inr rfl

/-- The two calls when both have returned. -/
def bothAdded : Adding BootstrapPeer :=
  checkedTogether.foldl (Adding.step sampleEnv sameAlias) (.start freshNode)

theorem sameAlias_not_linear :
    (∀ i < 2, ∃ r, bothAdded.stages i = .returned r) ∧
      ¬ ∃ order, order.Perm (List.range sameAlias.length) ∧
        ∃ τ, τ = (Adding.oneByOne order).foldl (Adding.step sampleEnv sameAlias)
            (.start freshNode) ∧
          (∀ i < sameAlias.length, τ.stages i = bothAdded.stages i) ∧
          τ.node.conf.knownPeers = bothAdded.node.conf.knownPeers ∧
          τ.node.conf.blockedPeers = bothAdded.node.conf.blockedPeers := by
  have hok : ∀ i < 2, (bothAdded.stages i).isOk = true := by decide +kernel
  refine ⟨fun i hi => Stage.exists_returned (hok i hi), ?_⟩
  · rintro ⟨order, hperm, τ, rfl, hstages, -, -⟩
    -- the call that comes second fails
    rcases order_of_two hperm with rfl | rfl
    · have hsecond : (((Adding.oneByOne [0, 1]).foldl (Adding.step sampleEnv sameAlias)
          (.start freshNode)).stages 1).isOk = false := by decide +kernel
      rw [hstages 1 (by decide), hok 1 (by decide)] at hsecond
      cases hsecond
    · have hsecond : (((Adding.oneByOne [1, 0]).foldl (Adding.step sampleEnv sameAlias)
          (.start freshNode)).stages 0).isOk = false := by decide +kernel
      rw [hstages 0 (by decide), hok 0 (by decide)] at hsecond
      cases hsecond

/-- Two new peers that have nothing in common. -/
def apartCalls : List (AddCall BootstrapPeer) :=
  [{ peerID := rus2, peerAlias := "laptop", ipAddr := "10.66.0.7" },
    { peerID := ita1, peerAlias := "phone", ipAddr := "10.66.0.9" }]

/-- The two calls take turns. -/
def takingTurns : List ℕ := [0, 1, 0, 1, 0, 1, 0, 1, 0, 1, 0, 1]

theorem apartCalls_linear :
    ∃ order, order.Perm (List.range apartCalls.length) ∧
      ∃ τ, τ = (Adding.oneByOne order).foldl (Adding.step sampleEnv apartCalls)
          (.start freshNode) ∧
        (∀ i < apartCalls.length, τ.stages i =
          (takingTurns.foldl (Adding.step sampleEnv apartCalls) (.start freshNode)).stages i) ∧
        τ.node.conf.knownPeers = (takingTurns.foldl (Adding.step sampleEnv apartCalls)
          (.start freshNode)).node.conf.knownPeers ∧
        τ.node.conf.blockedPeers = (takingTurns.foldl (Adding.step sampleEnv apartCalls)
          (.start freshNode)).node.conf.blockedPeers := by
  refine addPeer_linearizes sampleEnv freshNode apartCalls takingTurns rfl (by decide +kernel)
    fun i hi => Stage.exists_returned ?_
  have hok : ∀ i < 2, ((takingTurns.foldl (Adding.step sampleEnv apartCalls)
    (.start freshNode)).stages i).isOk = true := by decide +kernel
  exact hok i hi

end

end Awl
