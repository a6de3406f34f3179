import Awl.Consent
import Awl.ExitNode

/-!
Who has allowed what, as a node may show it about one other peer `y`: its own user has let `y`
use the node as an exit node, or the user of `y` has let the node use `y`.

A record of `y` carries the two permissions. The first is put on the wire to `y`, and with it
streams of `y` are served; with the second, connections of local clients are passed on to `y`.
-/

namespace Awl

open PeerCodec

inductive Grant
  /-- the user of the node has let `y` use it -/
  | given
  /-- the user of `y` has let the node use `y` -/
  | received
  deriving DecidableEq

variable {ID : Type} [PeerCodec ID]

/-- What a record may say, if it is one of `y`. -/
def Entitled (y : ID) (g : Set Grant) (kp : KnownPeer) : Prop :=
  decode kp.peerID = some y → kp.peerID = string y ∧
    (kp.weAllowUsingAsExitNode = true → .given ∈ g) ∧
    (kp.allowedUsingAsExitNode = true → .received ∈ g)

/-- The two records agree on whose they are and what is allowed. -/
structure SamePermissions (kp kp' : KnownPeer) : Prop where
  peerID : kp'.peerID = kp.peerID
  given : kp'.weAllowUsingAsExitNode = kp.weAllowUsingAsExitNode
  received : kp'.allowedUsingAsExitNode = kp.allowedUsingAsExitNode

namespace Entitled

variable {y : ID} {g g' : Set Grant} {kp kp' : KnownPeer}

lemma mono (h : Entitled y g kp) (hg : g ≤ g') : Entitled y g' kp := fun hy =>
  ⟨(h hy).1, fun ha => hg ((h hy).2.1 ha), fun ha => hg ((h hy).2.2 ha)⟩

lemma congr (h : Entitled y g kp) (hkp : SamePermissions kp kp') : Entitled y g kp' := by
  unfold Entitled at h ⊢
  rwa [hkp.peerID, hkp.given, hkp.received]

/-- The record of a new peer gives nothing away. -/
lemma of_new (id : ID) (hid : kp.peerID = string id) (hw : kp.weAllowUsingAsExitNode = false)
    (ha : kp.allowedUsingAsExitNode = false) : Entitled y g kp := by
  intro hy
  refine ⟨?_, by simp [hw], by simp [ha]⟩
  by_cases hz : id = zero
  · rw [hid, hz, string_zero, decode_empty] at hy
    cases hy
  · rw [hid, decode_string id hz] at hy
    rw [hid, Option.some.inj hy]

/-- So does the empty one. -/
lemma empty : Entitled y g {} := fun hy => by
  rw [show ({} : KnownPeer).peerID = "" from rfl, decode_empty] at hy
  cases hy

end Entitled

/-- The records a node may have: those of `y` stand under its ID. -/
structure EntitledRecords (y : ID) (g : Set Grant) (m : GoMap String KnownPeer) : Prop where
  entitled : ∀ k kp, m.lookup k = some kp → Entitled y g kp
  home : ∀ k kp, m.lookup k = some kp →
    decode k = some y ∨ decode kp.peerID = some y → kp.peerID = k

namespace EntitledRecords

variable {y : ID} {g g' : Set Grant} {m : GoMap String KnownPeer}

lemma mono (h : EntitledRecords y g m) (hg : g ≤ g') : EntitledRecords y g' m :=
  ⟨fun k kp hk => (h.entitled k kp hk).mono hg, h.home⟩

lemma insert (h : EntitledRecords y g m) {kp : KnownPeer} (hkp : Entitled y g kp) :
    EntitledRecords y g (m.insert kp.peerID kp) := by
  constructor
  all_goals
    intro k kp' hk
    rw [GoMap.lookup_insert_ite] at hk
    split_ifs at hk with he
  · cases hk
    exact hkp
  · exact h.entitled k kp' hk
  · cases hk
    exact fun _ => he.symm
  · exact h.home k kp' hk

/-- A map with the same records, up to what they say of anything else, or fewer. -/
lemma of_lookup (h : EntitledRecords y g m) {m' : GoMap String KnownPeer}
    (hm : ∀ k kp', m'.lookup k = some kp' → ∃ kp, m.lookup k = some kp ∧
      SamePermissions kp kp') : EntitledRecords y g m' := by
  constructor
  · intro k kp' hk
    obtain ⟨kp, hkp, hsame⟩ := hm k kp' hk
    exact (h.entitled k kp hkp).congr hsame
  · intro k kp' hk
    obtain ⟨kp, hkp, hsame⟩ := hm k kp' hk
    rw [hsame.peerID]
    exact h.home k kp hkp

lemma erase (h : EntitledRecords y g m) (key : String) : EntitledRecords y g (m.erase key) := by
  refine h.of_lookup fun k kp hk => ⟨kp, ?_, ⟨rfl, rfl, rfl⟩⟩
  rw [GoMap.lookup_erase_ite] at hk
  split_ifs at hk
  exact hk

lemma entitled_getD (h : EntitledRecords y g m) (key : String) :
    Entitled y g ((m.lookup key).getD {}) := by
  rcases hk : m.lookup key with _ | kp
  · exact Entitled.empty
  · exact h.entitled key kp hk

/-- The record kept for an ID other than that of `y`, or an empty one, is not about `y`. -/
lemma not_about (h : EntitledRecords y g m) {id : ID} (hid : id ≠ y) :
    decode (((m.lookup (string id)).getD {}).peerID) ≠ some y := by
  rcases hk : m.lookup (string id) with _ | kp
  · rw [Option.getD_none, show ({} : KnownPeer).peerID = "" from rfl, decode_empty]
    simp
  · rw [Option.getD_some]
    intro hy
    have hhome := h.home _ kp hk (Or.inr hy)
    obtain ⟨hstr, -⟩ := h.entitled _ kp hk hy
    exact hid (string_inj (hhome.symm.trans hstr))

/-- The record under the ID of `y` says that `y` may use the node only if it may. -/
lemma given (h : EntitledRecords y g m) (hz : y ≠ zero)
    (ha : ((m.lookup (string y)).getD {}).weAllowUsingAsExitNode = true) : .given ∈ g := by
  rcases hk : m.lookup (string y) with _ | kp
  · rw [hk] at ha
    cases ha
  · rw [hk, Option.getD_some] at ha
    have hhome := h.home _ kp hk (Or.inl (decode_string y hz))
    exact (h.entitled _ kp hk (hhome ▸ decode_string y hz)).2.1 ha

end EntitledRecords

/-- What a node may have in memory and on disk. -/
structure Entitling (y : ID) (g : Set Grant) (s : Node ID) : Prop where
  conf : EntitledRecords y g s.conf.knownPeers
  disk : EntitledRecords y g s.disk.knownPeers

namespace Entitling

variable {y : ID} {g g' : Set Grant} {s s' : Node ID}

lemma mono (h : Entitling y g s) (hg : g ≤ g') : Entitling y g' s :=
  ⟨h.conf.mono hg, h.disk.mono hg⟩

lemma of_eq (h : Entitling y g s) (hc : s'.conf.knownPeers = s.conf.knownPeers)
    (hd : s'.disk.knownPeers = s.disk.knownPeers) : Entitling y g s' :=
  ⟨hc ▸ h.conf, hd ▸ h.disk⟩

lemma upsertPeer (h : Entitling y g s) {kp : KnownPeer} (hkp : Entitled y g kp) :
    Entitling y g (s.upsertPeer kp) :=
  ⟨h.conf.insert hkp, h.conf.insert hkp⟩

lemma removePeer (h : Entitling y g s) (key : String) : Entitling y g (s.removePeer key) := by
  unfold Node.removePeer
  split_ifs
  · exact ⟨h.conf.erase key, h.conf.erase key⟩
  · exact h

lemma removeBlockedPeer (h : Entitling y g s) (id : ID) :
    Entitling y g (s.removeBlockedPeer id) := by
  unfold Node.removeBlockedPeer
  dsimp only
  split_ifs
  · exact ⟨h.conf, h.conf⟩
  · exact ⟨h.conf, h.disk⟩

lemma updatePeerLastSeen (h : Entitling y g s) (key : String) :
    Entitling y g (s.updatePeerLastSeen key) := by
  rcases hk : s.conf.knownPeers.lookup key with _ | kp
  · have hsame : s.updatePeerLastSeen key = s := by
      simp [Node.updatePeerLastSeen, Config.updatePeerLastSeen, hk]
    rwa [hsame]
  · have hconf : (s.updatePeerLastSeen key).conf = { s.conf with
        knownPeers := s.conf.knownPeers.insert key { kp with lastSeen := s.now } } := by
      simp only [Node.updatePeerLastSeen, Config.updatePeerLastSeen, hk]
    refine ⟨h.conf.of_lookup fun k kp' hk' => ?_, h.disk⟩
    rw [hconf, GoMap.lookup_insert_ite] at hk'
    split_ifs at hk' with he
    · cases hk'
      exact ⟨kp, he ▸ hk, ⟨rfl, rfl, rfl⟩⟩
    · exact ⟨kp', hk', ⟨rfl, rfl, rfl⟩⟩

end Entitling

/-! ### A restart -/

/-- Loading changes no permission. -/
lemma Config.setDefaults_permissions (env : Env) (ks : List String) (c : Config) :
    ∀ k kp', (c.setDefaults env ks).knownPeers.lookup k = some kp' →
      ∃ kp, c.knownPeers.lookup k = some kp ∧ SamePermissions kp kp' := by
  -- the loop, from any state that has the records of `c`
  have hloop : ∀ s : Config × Finset String,
      (∀ k kp', s.1.knownPeers.lookup k = some kp' →
        ∃ kp, c.knownPeers.lookup k = some kp ∧ SamePermissions kp kp') →
      ∀ k kp', (ks.foldl (visitPeer env) s).1.knownPeers.lookup k = some kp' →
        ∃ kp, c.knownPeers.lookup k = some kp ∧ SamePermissions kp kp' := by
    induction ks with
    | nil => exact fun s h => h
    | cons key ks ih =>
      refine fun s h => ih _ fun k kp' hk => ?_
      unfold visitPeer at hk
      rcases hkey : s.1.knownPeers.lookup key with _ | kp
      · rw [hkey] at hk
        exact h k kp' hk
      · simp only [hkey, GoMap.lookup_insert_ite] at hk
        split_ifs at hk with he
        · cases hk
          obtain ⟨kp₀, hkp₀, hsame⟩ := h key kp hkey
          exact ⟨kp₀, he ▸ hkp₀, ⟨hsame.peerID, hsame.given, hsame.received⟩⟩
        · exact h k kp' hk
  exact hloop _ fun k kp' hk => ⟨kp', hk, ⟨rfl, rfl, rfl⟩⟩

lemma Entitling.restart [DecidableEq ID] {y : ID} {g : Set Grant} {s : Node ID}
    (h : Entitling y g s) (env : Env) (ks ks' : List String) :
    Entitling y g (s.restart env ks ks') :=
  ⟨h.disk.of_lookup (Config.setDefaults_permissions env ks s.disk), h.disk⟩

/-! ### The contract -/

namespace NodeReq

/-- The node tells `y` that `y` may use it. -/
def Tells (y : ID) : NodeReq ID → Prop
  | .inl (.sendStatus stream info) => stream.remote = y ∧ info.allowUsingAsExitNode = true
  | _ => False

/-- The node answers on a stream of `y`, or serves it. -/
def Serves (y : ID) : NodeReq ID → Prop
  | .inr (.serveStreamConn stream) | .inr (.serveStreamConnNoAuth stream)
  | .inr (.sendServerFailureReply (.stream stream)) => stream.remote = y
  | _ => False

/-- The node passes on a connection of a local client to `y`. -/
def Uses (y : ID) : NodeReq ID → Prop
  | .inr (.newStreamMulti peerID) => peerID = y
  | .inr (.handleStream _ stream) => stream.remote = y
  | _ => False

/-- What the node hears is that it may use `y`. -/
def Hears (y : ID) : NodeReq ID → Resp → Prop
  | .inl (.receiveStatus stream), .status info =>
    stream.remote = y ∧ info.allowUsingAsExitNode = true
  | _, _ => False

end NodeReq

/-- A node serves `y`, and tells it so, if its user has let `y` use it; and uses `y` if it has
heard that the user of `y` lets it. -/
def exitConsent (y : ID) : Contract (Node ID) (NodeReq ID) Resp Unit (Set Grant) where
  inv _ := Entitling y
  owed _ g q := (q.Tells y ∨ q.Serves y → .given ∈ g) ∧ (q.Uses y → .received ∈ g)
  allowed g q r := q.Hears y r → .received ∈ g
  guar _ _ _ := True
  inv_mono hg h := h.mono hg
  owed_mono _ hg h := ⟨fun hq => hg (h.1 hq), fun hq => hg (h.2 hq)⟩
  guar_refl _ _ := trivial

end Awl
