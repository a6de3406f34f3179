import Awl.AuthStatus
import Awl.Parties
import Mathlib.Data.Set.Basic
import Mathlib.Order.BooleanAlgebra.Set
import Mathlib.Order.CompletePartialOrder

/-!
What a node has done towards one other peer `y`, and what of it its state may show.

The node may have added `y`, or refused it by blocking it. A record of `y` says that `y` was
added; that it is confirmed says that `y` has agreed, and so does a pending request from `y`.
A refused `y` stays blocked until it is added.
-/

namespace Awl

open PeerCodec

inductive Deed
  | added | refused
  deriving DecidableEq

variable {ID : Type} [PeerCodec ID]

lemma KnownPeer.peerId_eq {y : ID} (hz : y ≠ zero) {kp : KnownPeer} (h : kp.peerId = y) :
    decode kp.peerID = some y := by
  unfold KnownPeer.peerId at h
  rcases hd : (decode kp.peerID : Option ID) with _ | id
  · rw [hd, Option.getD_none] at h
    exact absurd h.symm hz
  · rw [hd, Option.getD_some] at h
    rw [h]

/-- What a record may say, if it is one of `y`: `y` was added, and if it is confirmed, `y` has
agreed (`g`). -/
def Fine (y : ID) (ℓ : Set Deed) (g : Prop) (kp : KnownPeer) : Prop :=
  decode kp.peerID = some y → kp.peerID = string y ∧ .added ∈ ℓ ∧ (kp.confirmed = true → g)

lemma Fine.mono {y : ID} {ℓ ℓ' : Set Deed} {g g' : Prop} {kp : KnownPeer} (h : Fine y ℓ g kp)
    (hℓ : ℓ ≤ ℓ') (hg : g ≤ g') : Fine y ℓ' g' kp := fun hy =>
  ⟨(h hy).1, hℓ (h hy).2.1, fun hc => hg ((h hy).2.2 hc)⟩

/-- A record that is not about `y`. -/
lemma Fine.of_ne {y : ID} {ℓ : Set Deed} {g : Prop} {kp : KnownPeer}
    (h : decode kp.peerID ≠ some y) : Fine y ℓ g kp := fun hy => absurd hy h

/-- The records a node may have: those of `y` stand under its ID. -/
structure Records (y : ID) (ℓ : Set Deed) (g : Prop) (m : GoMap String KnownPeer) : Prop where
  fine : ∀ k kp, m.lookup k = some kp → Fine y ℓ g kp
  home : ∀ k kp, m.lookup k = some kp →
    decode k = some y ∨ decode kp.peerID = some y → kp.peerID = k

namespace Records

variable {y : ID} {ℓ ℓ' : Set Deed} {g g' : Prop} {m : GoMap String KnownPeer}

lemma mono (h : Records y ℓ g m) (hℓ : ℓ ≤ ℓ') (hg : g ≤ g') : Records y ℓ' g' m :=
  ⟨fun k kp hk => (h.fine k kp hk).mono hℓ hg, h.home⟩

lemma insert (h : Records y ℓ g m) {kp : KnownPeer} (hkp : Fine y ℓ g kp) :
    Records y ℓ g (m.insert kp.peerID kp) := by
  constructor
  all_goals
    intro k kp' hk
    rw [GoMap.lookup_insert_ite] at hk
    split_ifs at hk with he
  · cases hk
    exact hkp
  · exact h.fine k kp' hk
  · cases hk
    exact fun _ => he.symm
  · exact h.home k kp' hk

lemma erase (h : Records y ℓ g m) (key : String) : Records y ℓ g (m.erase key) := by
  have hsub : ∀ {k kp}, (m.erase key).lookup k = some kp → m.lookup k = some kp := by
    intro k kp hk
    rw [GoMap.lookup_erase_ite] at hk
    split_ifs at hk
    exact hk
  exact ⟨fun k kp hk => h.fine k kp (hsub hk), fun k kp hk => h.home k kp (hsub hk)⟩

/-- A map with the same records, up to what they say of anything else. -/
lemma of_lookup (h : Records y ℓ g m) {m' : GoMap String KnownPeer}
    (hm : ∀ k kp', m'.lookup k = some kp' → ∃ kp, m.lookup k = some kp ∧
      kp'.peerID = kp.peerID ∧ kp'.confirmed = kp.confirmed) : Records y ℓ g m' := by
  constructor
  · intro k kp' hk
    obtain ⟨kp, hkp, hid, hc⟩ := hm k kp' hk
    have hfine := h.fine k kp hkp
    unfold Fine at hfine ⊢
    rwa [hid, hc]
  · intro k kp' hk
    obtain ⟨kp, hkp, hid, -⟩ := hm k kp' hk
    rw [hid]
    exact h.home k kp hkp

/-- The record kept for an ID other than that of `y`, or an empty one, is not about `y`. -/
lemma not_about (h : Records y ℓ g m) {id : ID} (hid : id ≠ y) :
    decode (((m.lookup (string id)).getD {}).peerID) ≠ some y := by
  rcases hk : m.lookup (string id) with _ | kp
  · rw [Option.getD_none, show ({} : KnownPeer).peerID = "" from rfl, decode_empty]
    simp
  · rw [Option.getD_some]
    intro hy
    have hhome := h.home _ kp hk (Or.inr hy)
    obtain ⟨hstr, -⟩ := h.fine _ kp hk hy
    exact hid (string_inj (hhome.symm.trans hstr))

lemma fine_getD (h : Records y ℓ g m) (key : String) : Fine y ℓ g ((m.lookup key).getD {}) := by
  rcases hk : m.lookup key with _ | kp
  · refine Fine.of_ne ?_
    rw [Option.getD_none, show ({} : KnownPeer).peerID = "" from rfl, decode_empty]
    simp
  · exact h.fine _ kp hk

/-- A record under the ID of `y` says that `y` was added. -/
lemma added (h : Records y ℓ g m) {key : String} (hy : decode key = some y) {kp : KnownPeer}
    (hk : m.lookup key = some kp) : .added ∈ ℓ := by
  have hhome := h.home key kp hk (Or.inl hy)
  exact (h.fine key kp hk (hhome ▸ hy)).2.1

end Records

/-- What the state of a node may show about `y`. -/
structure Consenting (y : ID) (ℓ : Set Deed) (g : Prop) (s : Node ID) : Prop where
  conf : Records y ℓ g s.conf.knownPeers
  disk : Records y ℓ g s.disk.knownPeers
  ingoing : y ∈ s.ingoingAuths → g
  outgoing : y ∈ s.outgoingAuths → .added ∈ ℓ
  blocked : .refused ∈ ℓ → .added ∈ ℓ ∨
    (string y ∈ s.conf.blockedPeers ∧ string y ∈ s.disk.blockedPeers)
  history : .added ∈ ℓ → Change.added y ∈ s.history

namespace Consenting

variable {y : ID} {ℓ : Set Deed} {g g' : Prop} {s : Node ID}

lemma mono (h : Consenting y ℓ g s) (hg : g ≤ g') : Consenting y ℓ g' s where
  conf := h.conf.mono (le_refl ℓ) hg
  disk := h.disk.mono (le_refl ℓ) hg
  ingoing := fun hy => hg (h.ingoing hy)
  outgoing := h.outgoing
  blocked := h.blocked
  history := h.history

/-- One more deed, which the state already shows. -/
lemma insert (h : Consenting y ℓ g s) (d : Deed) (hadded : d = .added → Change.added y ∈ s.history)
    (hrefused : d = .refused → string y ∈ s.conf.blockedPeers ∧ string y ∈ s.disk.blockedPeers) :
    Consenting y (Insert.insert d ℓ) g s where
  conf := h.conf.mono (Set.subset_insert _ _) (le_refl g)
  disk := h.disk.mono (Set.subset_insert _ _) (le_refl g)
  ingoing := h.ingoing
  outgoing := fun hy => Set.mem_insert_of_mem _ (h.outgoing hy)
  blocked := by
    rintro (rfl | hr)
    · exact Or.inr (hrefused rfl)
    · exact (h.blocked hr).imp (Set.mem_insert_of_mem _) id
  history := by
    rintro (rfl | ha)
    · exact hadded rfl
    · exact h.history ha

/-- Another configuration is saved. -/
lemma save (h : Consenting y ℓ g s) (conf : Config) (hrec : Records y ℓ g conf.knownPeers)
    (hblocked : string y ∈ s.conf.blockedPeers → string y ∈ conf.blockedPeers) :
    Consenting y ℓ g (s.save conf) where
  conf := hrec
  disk := hrec
  ingoing := h.ingoing
  outgoing := h.outgoing
  blocked := fun hr => (h.blocked hr).imp id fun hb => ⟨hblocked hb.1, hblocked hb.1⟩
  history := h.history

lemma upsertPeer (h : Consenting y ℓ g s) {kp : KnownPeer} (hkp : Fine y ℓ g kp) :
    Consenting y ℓ g (s.upsertPeer kp) :=
  h.save _ (h.conf.insert hkp) id

/-- The history grows. -/
lemma record (h : Consenting y ℓ g s) (cs : List (Change ID)) :
    Consenting y ℓ g { s with history := s.history ++ cs } where
  conf := h.conf
  disk := h.disk
  ingoing := h.ingoing
  outgoing := h.outgoing
  blocked := h.blocked
  history := fun ha => List.mem_append_left _ (h.history ha)

lemma removePeer (h : Consenting y ℓ g s) (key : String) :
    Consenting y ℓ g (s.removePeer key) := by
  unfold Node.removePeer
  split_ifs
  · exact (h.save (s.conf.removePeer key) (h.conf.erase key) id).record [.removed key]
  · exact h

/-- Blocking `y` is a refusal. -/
lemma upsertBlockedPeer (h : Consenting y ℓ g s) (key name : String) :
    Consenting y ℓ g (s.upsertBlockedPeer key name) :=
  h.save _ h.conf fun hb => Finmap.mem_insert.mpr (Or.inr hb)

lemma refuse (h : Consenting y ℓ g s) (name : String) :
    Consenting y (Insert.insert .refused ℓ) g (s.upsertBlockedPeer (string y) name) :=
  (h.upsertBlockedPeer _ name).insert .refused (by simp) fun _ =>
    ⟨Finmap.mem_insert.mpr (Or.inl rfl), Finmap.mem_insert.mpr (Or.inl rfl)⟩

/-- A peer is taken off the blocked ones; if it is `y`, it has been added. -/
lemma unblock (h : Consenting y ℓ g s) (id : ID) (hid : id = y → .added ∈ ℓ) :
    Consenting y ℓ g (s.save (s.conf.removeBlockedPeer (string id))) where
  conf := h.conf
  disk := h.conf
  ingoing := h.ingoing
  outgoing := h.outgoing
  blocked := by
    intro hr
    by_cases he : id = y
    · exact Or.inl (hid he)
    · refine (h.blocked hr).imp (fun ha => ha) fun hb => ?_
      have hmem := Finmap.mem_erase.mpr ⟨fun hs => he (string_inj hs).symm, hb.1⟩
      exact ⟨hmem, hmem⟩
  history := h.history

/-- Adding a peer: if it is `y`, that is a deed. -/
lemma removeBlockedPeer (h : Consenting y ℓ g s) (id : ID) :
    ∃ ℓ' ≥ ℓ, (id = y → .added ∈ ℓ') ∧ Consenting y ℓ' g (s.removeBlockedPeer id) := by
  obtain ⟨ℓ', hℓ, hid, hrec⟩ : ∃ ℓ' ≥ ℓ, (id = y → .added ∈ ℓ') ∧
      Consenting y ℓ' g { s with history := s.history ++ [.added id] } := by
    by_cases hid : id = y
    · exact ⟨Insert.insert .added ℓ, Set.subset_insert _ _, fun _ => Set.mem_insert _ _,
        (h.record [.added id]).insert .added (fun _ => by simp [hid]) (by simp)⟩
    · exact ⟨ℓ, le_refl ℓ, fun he => absurd he hid, h.record _⟩
  refine ⟨ℓ', hℓ, hid, ?_⟩
  unfold Node.removeBlockedPeer
  dsimp only
  split_ifs
  · exact hrec.unblock id hid
  · exact hrec

lemma updatePeerLastSeen (h : Consenting y ℓ g s) (key : String) :
    Consenting y ℓ g (s.updatePeerLastSeen key) := by
  rcases hk : s.conf.knownPeers.lookup key with _ | kp
  · have hsame : s.updatePeerLastSeen key = s := by
      simp [Node.updatePeerLastSeen, Config.updatePeerLastSeen, hk]
    rwa [hsame]
  · have hconf : (s.updatePeerLastSeen key).conf = { s.conf with
        knownPeers := s.conf.knownPeers.insert key { kp with lastSeen := s.now } } := by
      simp only [Node.updatePeerLastSeen, Config.updatePeerLastSeen, hk]
    refine { h with conf := h.conf.of_lookup fun k kp' hk' => ?_, blocked := ?_ }
    · rw [hconf, GoMap.lookup_insert_ite] at hk'
      split_ifs at hk' with he
      · cases hk'
        exact ⟨kp, he ▸ hk, rfl, rfl⟩
      · exact ⟨kp', hk', rfl, rfl⟩
    · rw [hconf]
      exact h.blocked

lemma setUsingPeerID (h : Consenting y ℓ g s) (f : String → String) :
    Consenting y ℓ g (s.setUsingPeerID f) := { h with }

/-- A peer that was refused and is not blocked has been added. -/
lemma added_of_not_blocked (h : Consenting y ℓ g s) (hdeed : .added ∈ ℓ ∨ .refused ∈ ℓ)
    (hb : (s.conf.getBlockedPeer (string y)).isSome = false) : .added ∈ ℓ := by
  rcases hdeed with ha | hr
  · exact ha
  · refine (h.blocked hr).resolve_right fun hmem => ?_
    have hsome : (s.conf.getBlockedPeer (string y)).isSome = true :=
      Finmap.lookup_isSome.mpr hmem.1
    rw [hb] at hsome
    cases hsome

variable [DecidableEq ID]

lemma eraseIngoing (h : Consenting y ℓ g s) (id : ID) :
    Consenting y ℓ g { s with ingoingAuths := s.ingoingAuths.erase id } :=
  { h with ingoing := fun hy => h.ingoing (Finmap.mem_erase.mp hy).2 }

lemma insertIngoing (h : Consenting y ℓ g s) {id : ID} (hid : id = y → g) (auth : AuthPeer) :
    Consenting y ℓ g { s with ingoingAuths := s.ingoingAuths.insert id auth } :=
  { h with ingoing := fun hy => (Finmap.mem_insert.mp hy).elim (fun he => hid he.symm) h.ingoing }

lemma eraseOutgoing (h : Consenting y ℓ g s) (id : ID) :
    Consenting y ℓ g { s with outgoingAuths := s.outgoingAuths.erase id } :=
  { h with outgoing := fun hy => h.outgoing (Finmap.mem_erase.mp hy).2 }

lemma insertOutgoing (h : Consenting y ℓ g s) {id : ID} (hid : id = y → .added ∈ ℓ)
    (auth : AuthPeer) :
    Consenting y ℓ g { s with outgoingAuths := s.outgoingAuths.insert id auth } :=
  { h with
    outgoing := fun hy => (Finmap.mem_insert.mp hy).elim (fun he => hid he.symm) h.outgoing }

/-- A restart: the records come from the disk, and the pending requests from the records. -/
lemma restart (h : Consenting y ℓ g s) (hz : y ≠ zero) (env : Env) (ks ks' : List String) :
    Consenting y ℓ g (s.restart env ks ks') := by
  have hloaded := Config.setDefaults_loaded env ks s.disk
  have hconf : Records y ℓ g (s.disk.setDefaults env ks).knownPeers :=
    h.disk.of_lookup fun k kp' hk =>
      let ⟨kp, hkp, hfill⟩ := hloaded.peers hk
      ⟨kp, hkp, hfill.peerID, hfill.confirmed⟩
  refine ⟨hconf, h.disk, fun hy => absurd hy Finmap.notMem_empty, ?_, fun hr => ?_, h.history⟩
  · refine GoMap.rangeLoop_inv (fun m : GoMap ID AuthPeer => y ∈ m → .added ∈ ℓ) ?_
      (fun hy => absurd hy Finmap.notMem_empty) ks'
    intro m k kp hk hm
    unfold Node.restoreOutgoingAuth
    split_ifs
    · intro hy
      rcases Finmap.mem_insert.mp hy with he | hy
      · exact (hconf.fine k kp hk (KnownPeer.peerId_eq hz he.symm)).2.1
      · exact hm hy
    · exact hm
  · refine (h.blocked hr).imp (fun ha => ha) fun hb => ⟨?_, hb.2⟩
    exact hloaded.blocked ▸ hb.2

end Consenting

end Awl
