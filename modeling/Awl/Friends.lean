import Awl.Linked
import Mathlib.Order.BooleanAlgebra.Set
import Mathlib.Order.CompletePartialOrder

/-!
A node in a network of two, where nobody is removed, declined or blocked: it knows at most the
other node `y`, and once it does it keeps doing so.

A record of `y` that is not confirmed is written by a goroutine that goes on to open a status
stream to `y`. Such a stream ends with both records confirmed, if both nodes know each other
when it is opened.
-/

namespace Awl

open Text PeerCodec Go AuthStatus

variable {ID : Type} [PeerCodec ID]

structure Friendly (y : ID) (s : Node ID) : Prop where
  records : ∀ k kp, s.conf.knownPeers.lookup k = some kp →
    k = string y ∧ kp.peerID = string y ∧ kp.declined = false
  blocked : s.conf.blockedPeers = ∅

def Knows (y : ID) (s : Node ID) : Prop := string y ∈ s.conf.knownPeers

/-- Whether `y` is confirmed, if it is known. -/
def confirmation (y : ID) (s : Node ID) : Option Bool :=
  (s.conf.knownPeers.lookup (string y)).map KnownPeer.confirmed

/-- The step neither learns of `y` nor takes its confirmation back. -/
def Calm (y : ID) (s s' : Node ID) : Prop :=
  (Knows y s' → Knows y s) ∧
    (confirmation y s' = some false → confirmation y s = some false)

lemma Calm.refl (y : ID) (s : Node ID) : Calm y s s := ⟨id, id⟩

/-- A step that leaves the known peers alone. -/
lemma Calm.of_eq {y : ID} {s s' : Node ID} (h : s'.conf.knownPeers = s.conf.knownPeers) :
    Calm y s s' := by
  unfold Calm Knows confirmation
  rw [h]
  exact ⟨id, id⟩

namespace Friendly

variable {y : ID} {s : Node ID}

lemma of_eq {s' : Node ID} (h : Friendly y s)
    (hk : s'.conf.knownPeers = s.conf.knownPeers)
    (hb : s'.conf.blockedPeers = s.conf.blockedPeers) : Friendly y s' :=
  ⟨hk ▸ h.records, hb ▸ h.blocked⟩

lemma not_blocked (h : Friendly y s) (key : String) :
    (s.conf.getBlockedPeer key).isSome = false := by
  rw [Config.getBlockedPeer, h.blocked, Finmap.lookup_empty]
  rfl

lemma knows (h : Friendly y s) {k : String} {kp : KnownPeer}
    (hk : s.conf.knownPeers.lookup k = some kp) : Knows y s := by
  obtain ⟨rfl, -⟩ := h.records k kp hk
  exact Finmap.mem_of_lookup_eq_some hk

lemma upsertPeer (h : Friendly y s) {kp : KnownPeer} (hid : kp.peerID = string y)
    (hd : kp.declined = false) :
    Friendly y (s.upsertPeer kp) := by
  refine ⟨fun k kp' hk => ?_, h.blocked⟩
  replace hk : (s.conf.knownPeers.insert kp.peerID kp).lookup k = some kp' := hk
  rw [GoMap.lookup_insert_ite] at hk
  split_ifs at hk with he
  · cases hk
    exact ⟨he.trans hid, hid, hd⟩
  · exact h.records k kp' hk

/-- Nobody is blocked, so nobody is taken off. -/
lemma removeBlockedPeer (h : Friendly y s) (id : ID) :
    (s.removeBlockedPeer id).conf = s.conf := by
  unfold Node.removeBlockedPeer
  dsimp only
  rw [if_neg]
  rw [h.not_blocked]
  exact Bool.false_ne_true

end Friendly

lemma knows_upsertPeer {y : ID} {s : Node ID} {kp : KnownPeer} (hid : kp.peerID = string y) :
    Knows y (s.upsertPeer kp) :=
  Finmap.mem_insert.mpr (Or.inl hid.symm)

lemma confirmation_upsertPeer {y : ID} {s : Node ID} {kp : KnownPeer}
    (hid : kp.peerID = string y) : confirmation y (s.upsertPeer kp) = some kp.confirmed := by
  have hlook : (s.upsertPeer kp).conf.knownPeers.lookup (string y) = some kp := by
    rw [← hid]
    exact Finmap.lookup_insert _
  rw [confirmation, hlook]
  rfl

/-- A known record is written back, confirmed if it was. -/
lemma Calm.upsertPeer {y : ID} {s : Node ID} {kp : KnownPeer} (hid : kp.peerID = string y)
    (hs : Knows y s) (hc : kp.confirmed = false → confirmation y s = some false) :
    Calm y s (s.upsertPeer kp) := by
  refine ⟨fun _ => hs, fun h => hc ?_⟩
  rw [confirmation_upsertPeer hid] at h
  exact Option.some.inj h

/-! ### Where goroutines get -/

/-- The answers in a network of two. -/
def FriendlyAnswer (q : Req ID) (r : Resp) : Prop :=
  match q with
  | .connectPeer _ => r = .ok
  | .newStream _ _ => ∃ sid, r = .stream sid
  | .sendStatus _ _ | .sendAuth _ _ | .sendAuthResponse _ _ => r = .ok
  | .receiveStatus stream =>
    stream.inbound = true → ∃ info : PeerStatusInfo, info.declined = false ∧ r = .status info
  | _ => True

/-- Goals of a goroutine on a node that knows `y`. -/
def friendlyGoal (y : ID) (made : Node ID → Prop)
    (waits : Req ID → (Resp → Code (Node ID) (Req ID) Resp) → Prop) (handoff : Prop) :
    Goal (Node ID) (Req ID) Resp where
  inv s := Friendly y s ∧ Knows y s
  answers := FriendlyAnswer
  made := made
  waits := waits
  handoff := handoff

/-- The record of `y` gets confirmed. -/
def confirming (y : ID) : Goal (Node ID) (Req ID) Resp :=
  friendlyGoal y (fun s => confirmation y s = some true) (fun _ _ => False) False

/-- An answer is expected on the stream, and confirms the record of `y`. -/
def expecting (y : ID) (sid : ℕ) : Goal (Node ID) (Req ID) Resp :=
  friendlyGoal y (fun _ => False) (fun q next =>
    (∃ sent, q = .receiveStatus ⟨y, sid, false, sent⟩) ∧
      ∀ info : PeerStatusInfo, info.declined = false →
        (confirming y).Leads (next (.status info))) False

/-- A status stream to `y` is opened, and used. -/
def opening (y : ID) : Goal (Node ID) (Req ID) Resp :=
  friendlyGoal y (fun _ => False) (fun q next => q = .newStream y .status ∧
    ∀ sid, (expecting y sid).Leads (next (.stream sid))) True

/-- The stream is answered. -/
def replying (y : ID) (sid : ℕ) : Goal (Node ID) (Req ID) Resp :=
  friendlyGoal y (fun _ => False) (fun q _ =>
    ∃ sent info, q = .sendStatus ⟨y, sid, true, sent⟩ info) False

/-- What a node does in a network of two: it stays friendly, sends no refusal, and opens a
status stream after each step that is not calm. It may have learned of `y`. -/
def friendly (y : ID) : Contract (Node ID) (Req ID) Resp Prop Unit where
  inv ℓ _ s := Friendly y s ∧ (ℓ → Knows y s)
  owed _ _
    | .sendStatus _ info => info.declined = false
    | .sendAuthResponse _ response => response.declined = false
    | _ => True
  allowed _
    | .receiveStatus _, .status info => info.declined = false
    | .receiveAuthResponse _, .authResponse response => response.declined = false
    | _, _ => True
  guar s s' k := Calm y s s' ∨ (opening y).Leads k
  inv_mono _ h := h
  owed_mono _ _ h := h
  guar_refl s _ := Or.inl (Calm.refl y s)

end Awl
