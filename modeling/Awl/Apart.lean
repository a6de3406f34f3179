import Awl.Integrity

/-!
Known and blocked peers: no peer is both.

Adding a peer takes it off the blocked ones, and removing it blocks it. Declining a friend
request blocks the peer that sent it without a look at the known peers. The request stays
pending until the goroutine started by `AddPeer` has deleted it, so a peer that has just been
added can still be declined, and is then both.
-/

namespace Awl

open PeerCodec

variable {ID : Type}

def Apart (s : Node ID) : Prop := ∀ k ∈ s.conf.knownPeers, k ∉ s.conf.blockedPeers

namespace Apart

variable {s : Node ID}

lemma congr {s' : Node ID} (hk : ∀ k, k ∈ s'.conf.knownPeers ↔ k ∈ s.conf.knownPeers)
    (hb : ∀ k, k ∈ s'.conf.blockedPeers ↔ k ∈ s.conf.blockedPeers) : Apart s' ↔ Apart s := by
  simp only [Apart, hk, hb]

lemma upsertPeer_iff (h : Apart s) (peer : KnownPeer) :
    Apart (s.upsertPeer peer) ↔ peer.peerID ∉ s.conf.blockedPeers := by
  constructor
  · intro h'
    exact h' peer.peerID (Finmap.mem_insert.mpr (Or.inl rfl))
  · intro hnot k hk
    rcases Finmap.mem_insert.mp hk with rfl | hk
    · exact hnot
    · exact h k hk

lemma upsertBlockedPeer_iff (h : Apart s) (key name : String) :
    Apart (s.upsertBlockedPeer key name) ↔ key ∉ s.conf.knownPeers := by
  constructor
  · intro h' hk
    exact h' key hk (Finmap.mem_insert.mpr (Or.inl rfl))
  · intro hnot k hk hb
    rcases Finmap.mem_insert.mp hb with rfl | hb
    · exact hnot hk
    · exact h k hk hb

lemma removePeer (h : Apart s) (key : String) : Apart (s.removePeer key) := by
  unfold Node.removePeer
  split_ifs
  · exact fun k hk => h k (Finmap.mem_erase.mp hk).2
  · exact h

lemma mem_removePeer {key : String} (hk : (s.conf.getPeer key).isSome) (k : String) :
    k ∈ (s.removePeer key).conf.knownPeers ↔ k ≠ key ∧ k ∈ s.conf.knownPeers := by
  rw [Node.removePeer, if_pos hk]
  exact Finmap.mem_erase

/-- A peer that is taken off the blocked ones is blocked no more. -/
lemma removeBlockedPeer [PeerCodec ID] (h : Apart s) (id : ID) :
    Apart (s.removeBlockedPeer id) ∧
      string id ∉ (s.removeBlockedPeer id).conf.blockedPeers := by
  unfold Node.removeBlockedPeer
  dsimp only
  split_ifs with hb
  · exact ⟨fun k hk hk' => h k hk (Finmap.mem_erase.mp hk').2,
      fun hk' => (Finmap.mem_erase.mp hk').1 rfl⟩
  · exact ⟨h, fun hk' => hb (Finmap.lookup_isSome.mpr hk')⟩

lemma seen_iff (s : Node ID) (key : String) : Apart (s.updatePeerLastSeen key) ↔ Apart s := by
  rcases hk : s.conf.knownPeers.lookup key with _ | kp
  · simp only [Apart, Node.updatePeerLastSeen, Config.updatePeerLastSeen, hk]
  · refine congr (fun k => ?_) fun k => ?_
    all_goals simp only [Node.updatePeerLastSeen, Config.updatePeerLastSeen, hk]
    rw [Finmap.mem_insert]
    exact or_iff_right_of_imp fun he => he ▸ Finmap.mem_of_lookup_eq_some hk

end Apart

/-- That no peer is both known and blocked, as a law. A record that is written back must not
carry the ID of a blocked peer; a peer that is declined must not be known; and a peer that is
removed must not be known under its ID and under another text for it. -/
def apart (ID : Type) [DecidableEq ID] [PeerCodec ID] : Law ID where
  P := Apart
  Rewrites s id := ((s.conf.getPeer (string id)).getD {}).peerID ∉ s.conf.blockedPeers
  Settings s key := ∀ kp, s.conf.getPeer key = some kp → kp.peerID ∉ s.conf.blockedPeers
  Blocks s id := string id ∉ s.conf.knownPeers
  Removes s key id := string id = key ∨ string id ∉ s.conf.knownPeers
  frame hk hb _ := by simp only [Apart, hk, hb]
  seen := Apart.seen_iff
  rewrites s id peer hs hid := by rw [hs.upsertPeer_iff, hid]
  settings s key kp peer hs hk hid := by
    rw [hs.upsertPeer_iff, hid]
    exact ⟨fun h kp' hk' => Option.some.inj (hk.symm.trans hk') ▸ h, fun h => h kp hk⟩
  adds s id peer hs _ hpid := by
    obtain ⟨hapart, hfree⟩ := hs.removeBlockedPeer id
    exact (hapart.upsertPeer_iff peer).mpr (hpid ▸ hfree)
  blocks s id name hs _ := hs.upsertBlockedPeer_iff _ name
  removes s key id name hs _ hk := by
    rw [(hs.removePeer key).upsertBlockedPeer_iff, Apart.mem_removePeer hk, not_and_or, not_not]

/-- **No peer is both known and blocked exactly as long as no known peer is declined**, and no
record is written back under the ID of a blocked peer, nor a peer removed under another text
for its ID. -/
theorem apart_iff [DecidableEq ID] [PeerCodec ID] (env : Env) {s : Node ID} (hs : Apart s)
    (es : List (Event (Call ID) Resp)) :
    Runs.Holds (Machine.step (Call.code env)) (fun m => Apart m.state) ⟨s, []⟩ es ↔
      Runs.Meets (Machine.step (Call.code env))
        (Machine.Cond ((apart ID).OkCall env) (apart ID).Ok) ⟨s, []⟩ es :=
  (apart ID).holds_iff_meets env hs es

section

open BootstrapPeer

/-- The peer asks to be added. Before that is looked at, the user sends it a request of their
own, and then declines the pending one. -/
def declineAfterRequest : List (Event (Call BootstrapPeer) Resp) :=
  [.call (.authStream rus2 rus2_ne_zero 0), .resume 0 (.auth ⟨"laptop"⟩),
    .call (.sendFriendRequest ⟨rus2.text, "laptop", ""⟩),
    .call (.acceptFriend ⟨rus2.text, "laptop", true, ""⟩)]

theorem declineAfterRequest_both :
    Apart freshNode ∧
      ¬ Runs.Holds (Machine.step (Call.code sampleEnv)) (fun m => Apart m.state)
        ⟨freshNode, []⟩ declineAfterRequest := by
  refine ⟨fun _ hk => absurd hk (Finmap.notMem_empty), fun h => ?_⟩
  have hlast : Apart
      (declineAfterRequest.foldl (Machine.step (Call.code sampleEnv)) ⟨freshNode, []⟩).state :=
    h.2.2.2.2
  exact hlast rus2.text (by decide) (by decide)

/-- The pending request is declined first. -/
theorem apart_request_after_decline :
    Runs.Holds (Machine.step (Call.code sampleEnv)) (fun m => Apart m.state) ⟨freshNode, []⟩
      [.call (.authStream rus2 rus2_ne_zero 0), .resume 0 (.auth ⟨"laptop"⟩),
        .call (.acceptFriend ⟨rus2.text, "laptop", true, ""⟩),
        .call (.sendFriendRequest ⟨rus2.text, "laptop", ""⟩)] := by
  refine (apart_iff sampleEnv (fun _ hk => absurd hk Finmap.notMem_empty) _).mpr
    ⟨trivial, trivial, fun _ _ => ?_, trivial, trivial⟩
  exact Finmap.notMem_empty

end

end Awl
