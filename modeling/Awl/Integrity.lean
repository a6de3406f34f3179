import Awl.Addresses
import Awl.Laws

/-!
The records of known peers: each stands under its own ID, and that is the ID of a peer that
was added and has not been removed since.

An exchange reads the record of the peer again before it writes it back, but does not look
whether there is one. If the peer has been removed meanwhile, an empty record is written,
under the empty ID.
-/

namespace Awl

open PeerCodec

variable {ID : Type} [PeerCodec ID]

/-- The peers that have been added and not removed since, starting from those in `base`. -/
def members (base : Finset String) (history : List (Change ID)) : Finset String :=
  history.foldl (fun m c => match c with
    | .added id => insert (string id) m
    | .removed key => m.erase key) base

/-- Every record stands under its own ID, and that is the ID of a member. -/
def Integral (base : Finset String) (s : Node ID) : Prop :=
  ∀ k kp, s.conf.knownPeers.lookup k = some kp →
    kp.peerID = k ∧ k ≠ "" ∧ (decode k : Option ID).isSome ∧ k ∈ members base s.history

/-- If the goroutine that gets the answer `r` goes on to write back the record of a peer, that
peer is still known: after an exchange without refusal, the side that opened the stream writes
when it has read the answer, the other one when it has sent its own. -/
def StillKnown (q : Req ID) (r : Resp) (s : Node ID) : Prop :=
  match q, r with
  | .receiveStatus ⟨remote, _, false, some info⟩, .status _ =>
    info.declined = false → string remote ∈ s.conf.knownPeers
  | .sendStatus ⟨remote, _, true, _⟩ info, _ =>
    info.declined = false → string remote ∈ s.conf.knownPeers
  | _, _ => True

namespace Integral

variable {base : Finset String} {s : Node ID}

/-- One record written under its own ID. -/
lemma insert_iff (h : Integral base s) (s' : Node ID) (peer : KnownPeer)
    (hpeers : s'.conf.knownPeers = s.conf.knownPeers.insert peer.peerID peer)
    (hhist : members base s.history ⊆ members base s'.history) :
    Integral base s' ↔ peer.peerID ≠ "" ∧ (decode peer.peerID : Option ID).isSome ∧
      peer.peerID ∈ members base s'.history := by
  have hlook : ∀ k, s'.conf.knownPeers.lookup k =
      if k = peer.peerID then some peer else s.conf.knownPeers.lookup k := fun k => by
    rw [hpeers, GoMap.lookup_insert_ite]
  constructor
  · intro h'
    exact (h' peer.peerID peer (by rw [hlook, if_pos rfl])).2
  · intro hpeer k kp hk
    rw [hlook] at hk
    split_ifs at hk with he
    · cases hk
      exact ⟨he.symm, he ▸ hpeer⟩
    · obtain ⟨hid, hne, hdec, hmem⟩ := h k kp hk
      exact ⟨hid, hne, hdec, hhist hmem⟩

lemma upsert_iff (h : Integral base s) (peer : KnownPeer) :
    Integral base (s.upsertPeer peer) ↔ peer.peerID ≠ "" ∧
      (decode peer.peerID : Option ID).isSome ∧ peer.peerID ∈ members base s.history :=
  h.insert_iff (s.upsertPeer peer) peer rfl (Finset.Subset.refl _)

/-- A record that is there is written back. -/
lemma rewrite (h : Integral base s) {k : String} {kp peer : KnownPeer}
    (hk : s.conf.knownPeers.lookup k = some kp) (hid : peer.peerID = kp.peerID) :
    Integral base (s.upsertPeer peer) := by
  obtain ⟨hkp, hne, hdec, hmem⟩ := h k kp hk
  have hpid : peer.peerID = k := hid.trans hkp
  refine (h.upsert_iff peer).mpr ?_
  rw [hpid]
  exact ⟨hne, hdec, hmem⟩

lemma rewrites_iff (h : Integral base s) {id : ID} {peer : KnownPeer}
    (hid : peer.peerID = ((s.conf.getPeer (string id)).getD {}).peerID) :
    Integral base (s.upsertPeer peer) ↔ string id ∈ s.conf.knownPeers := by
  rcases hk : s.conf.knownPeers.lookup (string id) with _ | kp
  · rw [Config.getPeer, hk, Option.getD_none] at hid
    have hnot : string id ∉ s.conf.knownPeers := Finmap.lookup_eq_none.mp hk
    refine iff_of_false (fun h' => ?_) hnot
    exact ((h.upsert_iff peer).mp h').1 hid
  · rw [Config.getPeer, hk, Option.getD_some] at hid
    exact iff_of_true (h.rewrite hk hid) (Finmap.mem_of_lookup_eq_some hk)

lemma seen_iff (s : Node ID) (key : String) :
    Integral base (s.updatePeerLastSeen key) ↔ Integral base s := by
  rcases hk : s.conf.knownPeers.lookup key with _ | kp
  · have hsame : s.updatePeerLastSeen key = s := by
      simp [Node.updatePeerLastSeen, Config.updatePeerLastSeen, hk]
    rw [hsame]
  · have hlook : ∀ k, (s.updatePeerLastSeen key).conf.knownPeers.lookup k =
        if k = key then some { kp with lastSeen := s.now } else s.conf.knownPeers.lookup k := by
      intro k
      simp only [Node.updatePeerLastSeen, Config.updatePeerLastSeen, hk]
      rw [GoMap.lookup_insert_ite]
    constructor
    · intro h k kp' hk'
      by_cases he : k = key
      · rw [he, hk] at hk'
        cases hk'
        exact h k { kp with lastSeen := s.now } (by rw [hlook, if_pos he])
      · exact h k kp' (by rw [hlook, if_neg he, hk'])
    · intro h k kp' hk'
      rw [hlook] at hk'
      split_ifs at hk' with he
      · cases hk'
        exact h k kp (by rw [he, hk])
      · exact h k kp' hk'

end Integral

lemma members_append (base : Finset String) (history : List (Change ID)) (c : Change ID) :
    members base (history ++ [c]) = match c with
      | .added id => insert (string id) (members base history)
      | .removed key => (members base history).erase key := by
  rw [members, List.foldl_append]
  rfl

lemma removeBlockedPeer_conf (s : Node ID) (id : ID) :
    (s.removeBlockedPeer id).conf.knownPeers = s.conf.knownPeers ∧
      (s.removeBlockedPeer id).history = s.history ++ [.added id] := by
  unfold Node.removeBlockedPeer
  dsimp only
  split_ifs <;> exact ⟨rfl, rfl⟩

/-- The integrity of the records as a law. -/
def integrity (ID : Type) [DecidableEq ID] [PeerCodec ID] (base : Finset String) : Law ID where
  P := Integral base
  Rewrites s id := string id ∈ s.conf.knownPeers
  Settings _ _ := True
  Blocks _ _ := True
  Removes _ _ _ := True
  frame hk _ hh := by simp only [Integral, hk, hh]
  seen := Integral.seen_iff
  rewrites s id peer hs hid := hs.rewrites_iff hid
  settings s key kp peer hs hk hid := iff_true_intro (hs.rewrite hk hid)
  adds s id peer hs hid hpid := by
    obtain ⟨hpeers, hhist⟩ := removeBlockedPeer_conf s id
    have hmem : members base ((s.removeBlockedPeer id).upsertPeer peer).history =
        insert (string id) (members base s.history) := by
      rw [show ((s.removeBlockedPeer id).upsertPeer peer).history = s.history ++ [.added id] from
        hhist, members_append]
    refine (hs.insert_iff _ peer ?_ ?_).mpr ?_
    · change (s.removeBlockedPeer id).conf.knownPeers.insert peer.peerID peer = _
      rw [hpeers]
    · rw [hmem]
      exact Finset.subset_insert _ _
    · rw [hmem, hpid, decode_string id hid]
      exact ⟨string_ne_empty hid, rfl, Finset.mem_insert_self _ _⟩
  blocks s id name hs _ := iff_true_intro hs
  removes s key id name hs _ hk := by
    refine iff_true_intro fun k kp hk' => ?_
    have hrem : s.removePeer key = { s.save (s.conf.removePeer key) with
        history := s.history ++ [.removed key] } := by simp [Node.removePeer, hk]
    have hlook : ((s.removePeer key).upsertBlockedPeer (string id) name).conf.knownPeers.lookup k =
        if k = key then none else s.conf.knownPeers.lookup k := by
      rw [hrem]
      exact GoMap.lookup_erase_ite _ _ _
    have hhist : ((s.removePeer key).upsertBlockedPeer (string id) name).history =
        s.history ++ [.removed key] := by rw [hrem]; rfl
    rw [hlook] at hk'
    split_ifs at hk' with he
    obtain ⟨hid, hne, hdec, hmem⟩ := hs k kp hk'
    refine ⟨hid, hne, hdec, ?_⟩
    rw [hhist, members_append]
    exact Finset.mem_erase.mpr ⟨he, hmem⟩

variable [DecidableEq ID]

lemma integrity_ok (base : Finset String) : (integrity ID base).Ok = StillKnown := by
  funext q r s
  unfold Law.Ok StillKnown
  split
  · rfl
  · rfl
  · -- a refused request is noted only in a record that is there
    exact propext (iff_of_true (fun _ hsome => Finmap.lookup_isSome.mp hsome) trivial)
  · rename_i hsent hreceived _
    split
    · exact (hreceived _ _ _ _ rfl rfl).elim
    · exact (hsent _ _ _ _ rfl).elim
    · rfl

lemma integrity_okCall (base : Finset String) (env : Env) :
    (integrity ID base).OkCall env = fun _ _ => True := by
  funext l s
  cases l <;> simp [Law.OkCall, integrity]

/-- **The records keep their integrity exactly as long as every record that is written back is
that of a peer still known.** -/
theorem integral_iff (env : Env) {s : Node ID} (hstart : s.history = [])
    (hkeys : ∀ k kp, s.conf.knownPeers.lookup k = some kp →
      kp.peerID = k ∧ (decode k : Option ID).isSome)
    (es : List (Event (Call ID) Resp)) :
    Runs.Holds (Machine.step (Call.code env))
        (fun m => Integral s.conf.knownPeers.keys m.state) ⟨s, []⟩ es ↔
      Runs.Meets (Machine.step (Call.code env)) (Machine.Cond (fun _ _ => True) StillKnown)
        ⟨s, []⟩ es := by
  have hs : Integral s.conf.knownPeers.keys s := by
    intro k kp hk
    obtain ⟨hid, hdec⟩ := hkeys k kp hk
    refine ⟨hid, ?_, hdec, ?_⟩
    · rintro rfl
      rw [decode_empty] at hdec
      cases hdec
    · rw [hstart]
      exact Finmap.mem_keys.mpr (Finmap.mem_of_lookup_eq_some hk)
  have hlaw := (integrity ID s.conf.knownPeers.keys).holds_iff_meets env hs es
  rwa [integrity_ok, integrity_okCall] at hlaw

section

open BootstrapPeer

/-- A node that knows one peer. -/
def friendNode : Node BootstrapPeer where
  conf := BootstrapPeer.conf [(rus2, "10.66.0.2")]
  disk := BootstrapPeer.conf [(rus2, "10.66.0.2")]
  ingoingAuths := ∅
  outgoingAuths := ∅
  now := 0
  history := []

lemma friendNode_keys (k : String) (kp : KnownPeer)
    (hk : friendNode.conf.knownPeers.lookup k = some kp) :
    kp.peerID = k ∧ (decode k : Option BootstrapPeer).isSome := by
  have hlook := GoMap.lookup_insert_ite (∅ : GoMap String KnownPeer) rus2.text k
    { peerID := rus2.text, ipAddr := "10.66.0.2" }
  have hk' := hlook.symm.trans hk
  split_ifs at hk' with he
  · cases hk'
    exact ⟨he.symm, he ▸ by decide⟩
  · cases hk'

/-- The peer sends its status, and is removed before its answer has been written. -/
def removalInExchange : List (Event (Call BootstrapPeer) Resp) :=
  [.call (.statusStream rus2 rus2_ne_zero 0), .resume 0 (.status {}),
    .call (.removePeer ⟨rus2.text⟩), .resume 1 .ok]

theorem removalInExchange_corrupts :
    (friendNode.history = [] ∧ ∀ k kp, friendNode.conf.knownPeers.lookup k = some kp →
      kp.peerID = k ∧ (decode k : Option BootstrapPeer).isSome) ∧
      ¬ Runs.Holds (Machine.step (Call.code sampleEnv))
        (fun m => Integral friendNode.conf.knownPeers.keys m.state) ⟨friendNode, []⟩
        removalInExchange := by
  refine ⟨⟨rfl, friendNode_keys⟩, fun h => ?_⟩
  have hlast : Integral friendNode.conf.knownPeers.keys
      (removalInExchange.foldl (Machine.step (Call.code sampleEnv)) ⟨friendNode, []⟩).state :=
    h.2.2.2.2
  have hempty : ((removalInExchange.foldl (Machine.step (Call.code sampleEnv))
      ⟨friendNode, []⟩).state.conf.knownPeers.lookup "").isSome = true := by decide
  obtain ⟨kp, hkp⟩ := Option.isSome_iff_exists.mp hempty
  exact (hlast _ _ hkp).2.1 rfl

/-- The same exchange, with the removal after it. -/
theorem integral_removal_after_exchange :
    Runs.Holds (Machine.step (Call.code sampleEnv))
      (fun m => Integral friendNode.conf.knownPeers.keys m.state) ⟨friendNode, []⟩
      [.call (.statusStream rus2 rus2_ne_zero 0), .resume 0 (.status {}), .resume 1 .ok,
        .call (.removePeer ⟨rus2.text⟩)] := by
  refine (integral_iff sampleEnv rfl friendNode_keys _).mpr ⟨trivial, ?_, ?_, trivial, trivial⟩
  · exact trivial
  · intro _
    decide

end

end Awl
