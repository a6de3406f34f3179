import Mathlib.Order.CompletePartialOrder
import Awl.Addresses
import Awl.Integrity
import Awl.Invitations

/-!
Which goroutines send a peer `x` auth requests, although nobody adds it again.

Those do that have taken the entry for `x` out of the outgoing requests, or have added `x`
before. All the others leave it alone, unless they find an entry for it or add it themselves;
and wherever a goroutine of the program stands, it is of one of the two kinds.
-/

namespace Awl

open Text PeerCodec Go AuthStatus Contract

variable {ID : Type} [DecidableEq ID] [PeerCodec ID]

/-! ### Calls -/

/-- The call looks up the outgoing request to `x`. -/
def Call.Looks (x : ID) : Call ID → Prop
  | .peerConnected peerID => peerID = x
  | .retryAuthRequests order => x ∈ order
  | _ => False

section

variable {p : ID → Prop} {env : Env} {k : Unit → Code (Node ID) (Req ID) Resp}

lemma invites_updatePeerSettings (req : UpdatePeerSettingsRequest) :
    Invites p (Api.updatePeerSettings env req : Prog ID Answer).code := by
  simp only [Api.updatePeerSettings, Go.code, Go.ite_apply, bind_apply, read_apply, pure_apply]
  split
  · exact invites_done
  split
  · exact invites_done
  refine invites_read fun s => ?_
  cases s.conf.getPeer req.peerID with
  | none => exact invites_done
  | some kp =>
    simp only [bind_apply, read_apply, Go.ite_apply, pure_apply, locked_apply, spawn_apply]
    refine invites_read fun s => ?_
    split
    · exact invites_done
    refine invites_act (fun s => ?_) fun s => ?_
    · split
      · exact tame_upsertPeer _ s
      · exact tame_id s
    · split
      · exact invites_done
      · exact ⟨invites_exchangeNewStatusInfo (k := fun _ => .done) invites_done _ _, invites_done⟩

lemma invites_removePeer (req : PeerIDRequest) :
    Invites p (Api.removePeer env req : Prog ID Answer).code := by
  simp only [Api.removePeer, Go.code, Go.ite_apply]
  split
  · exact invites_done
  cases (decode req.peerID : Option ID) with
  | none => exact invites_done
  | some peerID =>
    refine invites_act (tame_removePeer _) fun s => ?_
    dsimp only
    cases s.conf.getPeer req.peerID with
    | none => exact invites_done
    | some kp => exact invites_blockPeer (k := fun _ => .done) invites_done _ _

lemma invites_acceptFriend (req : FriendRequestReply) :
    Invites p (Api.acceptFriend env req : Prog ID Answer).code := by
  simp only [Api.acceptFriend, Go.code, Go.ite_apply]
  split
  · exact invites_done
  cases (decode req.peerID : Option ID) with
  | none => exact invites_done
  | some peerID =>
    simp only [bind_apply, read_apply, Go.ite_apply]
    refine invites_read fun s => ?_
    split
    · exact invites_done
    refine invites_read fun s => ?_
    cases s.getIngoingAuthRequests.lookup req.peerID with
    | none => exact invites_done
    | some auth =>
      dsimp only
      rw [Go.ite_apply]
      split
      · exact invites_blockPeer invites_done _ _
      · exact invites_addPeer (fun _ => invites_done) (by simp) _ _ _

/-- A friend request invites the peer it names. -/
lemma invites_sendFriendRequest (req : FriendRequest)
    (hp : ∀ peerID, decode req.peerID = some peerID → p peerID) :
    Invites p (Api.sendFriendRequest env req : Prog ID Answer).code := by
  simp only [Api.sendFriendRequest, Go.code, Go.ite_apply]
  split
  · exact invites_done
  cases hd : (decode req.peerID : Option ID) with
  | none => exact invites_done
  | some peerID =>
    simp only [bind_apply, read_apply, Go.ite_apply]
    refine invites_read fun s => ?_
    split
    · exact invites_done
    · exact invites_addPeer (fun _ => invites_done) (fun _ => hp peerID hd) _ _ _

/-- What `onPeerConnected` does with the outgoing request it has found. -/
lemma invites_connected {peerID : ID} (auth : Option AuthPeer) (hp : auth ≠ none → p peerID) :
    Invites p (do
      let knownPeer ← read fun s => s.conf.getPeer (string peerID)
      if knownPeer.isNone && auth.isNone then return
      modify (Node.updatePeerLastSeen (string peerID))
      spawn do
        match auth with
        | some authPeer => sendAuthRequest peerID authPeer
        | none => pure ()
        match knownPeer with
        | some knownPeer => exchangeNewStatusInfo env peerID knownPeer
        | none => pure () : Prog ID Unit).code := by
  refine invites_read fun s => ?_
  dsimp only
  rw [Go.ite_apply]
  split
  · exact invites_done
  refine invites_act (tame_updatePeerLastSeen _) fun _ => ⟨?_, invites_done⟩
  cases s.conf.getPeer (string peerID) with
  | some kp =>
    have hexchange : Invites p (exchangeNewStatusInfo env peerID kp fun _ => .done) :=
      invites_exchangeNewStatusInfo invites_done _ _
    cases auth with
    | some auth => exact invites_sendAuthRequest hexchange (hp (by simp)) _
    | none => exact hexchange
  | none =>
    cases auth with
    | some auth => exact invites_sendAuthRequest invites_done (hp (by simp)) _
    | none => exact invites_done

omit [DecidableEq ID] in
lemma invites_onPeerDisconnected (peerID : ID) :
    Invites p (onPeerDisconnected peerID).code := by
  refine invites_read fun s => ?_
  dsimp only
  rw [Go.ite_apply]
  split
  · exact invites_done
  · exact invites_act (tame_updatePeerLastSeen _) fun _ => invites_done

lemma invites_exchangeAll (peers : List String) :
    Invites p (exchangeAll env peers : Prog ID Unit).code := by
  induction peers with
  | nil => exact invites_done
  | cons key peers ih =>
    refine invites_read fun s => ?_
    dsimp only
    cases s.conf.getPeer key with
    | none => exact ih
    | some kp =>
      exact invites_exchangeNewStatusInfo (k := fun _ => (exchangeAll env peers).code) ih _ _

lemma invites_sendAll (auths : List (ID × AuthPeer)) (hp : ∀ e ∈ auths, p e.1) :
    Invites p (sendAll auths).code := by
  induction auths with
  | nil => exact invites_done
  | cons e auths ih =>
    exact invites_sendAuthRequest (ih fun e he => hp e (List.mem_cons_of_mem _ he))
      (hp e (List.mem_cons_self ..)) _

/-- **What a call runs** invites only a peer that it adds, or that it looks up. -/
lemma invites_call (l : Call ID)
    (hadd : ∀ req peerID, l = .sendFriendRequest req → decode req.peerID = some peerID → p peerID)
    (hlook : ∀ y, l.Looks y → p y) : Invites p (l.code env) := by
  cases l with
  | sendFriendRequest req => exact invites_sendFriendRequest req fun peerID => hadd req peerID rfl
  | acceptFriend req => exact invites_acceptFriend req
  | removePeer req => exact invites_removePeer req
  | updatePeerSettings req => exact invites_updatePeerSettings req
  | authStream remote _ sid => exact invites_authStreamHandler _
  | statusStream remote _ sid => exact invites_statusStreamHandler _
  | peerConnected peerID =>
    exact invites_read fun s => invites_connected _ fun _ => hlook peerID rfl
  | peerDisconnected peerID => exact invites_onPeerDisconnected peerID
  | exchangeStatusInfo order => exact invites_read fun s => invites_exchangeAll _
  | retryAuthRequests order =>
    refine invites_read fun s => invites_sendAll _ fun e he => ?_
    obtain ⟨id, hid, hmap⟩ := List.mem_filterMap.mp he
    obtain ⟨auth, -, rfl⟩ := Option.map_eq_some_iff.mp hmap
    exact hlook id hid

end

/-! ### Leaving a peer alone -/

/-- `x` has been added more than `n` times. -/
def AddedSince (x : ID) (n : ℕ) (s : Node ID) : Prop := n < s.history.count (.added x)

/-- The states in which `x` has been added at least `n` times, and more often if `ℓ` says so or
if there is an entry for it. -/
structure Unasked (x : ID) (n : ℕ) (ℓ : Prop) (s : Node ID) : Prop where
  counted : n ≤ s.history.count (.added x)
  added : ℓ → AddedSince x n s
  entry : x ∈ s.outgoingAuths → AddedSince x n s

/-- Until `x` is added again, nobody sends it a request or makes an entry for it. -/
def unasked (x : ID) (n : ℕ) : Contract (Node ID) (Req ID) Resp Prop Unit where
  inv ℓ _ := Unasked x n ℓ
  owed ℓ _ q := Invitation x q → ℓ
  allowed _ _ _ := True
  guar _ _ _ := True
  inv_mono _ h := h
  owed_mono hℓ _ h hq := hℓ (h hq)
  guar_refl _ _ := trivial

/-- As long as there is no entry for `x`, the goroutine sends it no request and makes no entry
for it before `x` is added again. -/
def LeavesAlone (x : ID) (k : Code (Node ID) (Req ID) Resp) : Prop :=
  ∀ n, (unasked x n).Safe k False ()

section

variable {x : ID} {n : ℕ} {ℓ : Prop} {g : Unit} {p : ID → Prop} {env : Env}

omit [PeerCodec ID] in
lemma Tame.unasked {upd : Node ID → Node ID} (h : Tame p upd) (hp : p x → ℓ) {s : Node ID}
    (hs : Unasked x n ℓ s) : Unasked x n ℓ (upd s) := by
  have hle : s.history.count (.added x) ≤ (upd s).history.count (.added x) :=
    (h s).1.sublist.count_le _
  refine ⟨hs.counted.trans hle, fun hℓ => (hs.added hℓ).trans_le hle, fun hx => ?_⟩
  by_cases hpx : p x
  · exact (hs.added (hp hpx)).trans_le hle
  · exact (hs.entry ((h s).2 x hpx hx)).trans_le hle

omit [PeerCodec ID] in
/-- A goroutine that invites `x` only if it has been added again. -/
lemma Invites.safe {k : Code (Node ID) (Req ID) Resp} (hk : Invites p k) (hp : p x → ℓ) :
    (unasked x n).Safe k ℓ g := by
  induction k generalizing ℓ g with
  | done => trivial
  | act upd next ih =>
    intro ℓ' hℓ g' _ s hs
    have hp' : p x → ℓ' := fun h => hℓ (hp h)
    exact ⟨trivial, ℓ', le_refl ℓ', hk.1.unasked hp' hs, ih s (hk.2 s) hp'⟩
  | ask q next ih =>
    exact ⟨fun hq => hp (hk.1 x hq), fun ℓ' hℓ _ _ r _ => ih r (hk.2 r) fun h => hℓ (hp h)⟩
  | fork child next ihc ihn => exact ⟨ihc hk.1 hp, ihn hk.2 hp⟩

omit [PeerCodec ID] in
lemma Invites.leavesAlone {k : Code (Node ID) (Req ID) Resp} (hk : Invites (· ≠ x) k) :
    LeavesAlone x k :=
  fun _ => hk.safe fun h => absurd rfl h

omit [PeerCodec ID] in
/-- A critical section that shows that `x` has been added again: what follows may invite it. -/
lemma safe_added {upd : Node ID → Node ID} {next : Node ID → Code (Node ID) (Req ID) Resp}
    {s : Node ID} (hadded : AddedSince x n (upd s)) (hk : Invites (fun _ => True) (next s)) :
    (unasked x n).guar s (upd s) (next s) ∧
      ∃ ℓ' ≥ ℓ, (unasked x n).inv ℓ' g (upd s) ∧ (unasked x n).Safe (next s) ℓ' g :=
  ⟨trivial, True, fun _ => trivial, ⟨hadded.le, fun _ => hadded, fun _ => hadded⟩,
    hk.safe fun _ => trivial⟩

omit [PeerCodec ID] in
/-- The outgoing requests are read: what follows may invite `x` if it has an entry. -/
lemma leavesAlone_lookup {next : Node ID → Code (Node ID) (Req ID) Resp}
    (hall : ∀ s, Invites (fun _ => True) (next s))
    (hno : ∀ s, x ∉ s.outgoingAuths → Invites (· ≠ x) (next s)) :
    LeavesAlone x (.act id next) := by
  intro n ℓ' _ g' _ s hs
  by_cases hx : x ∈ s.outgoingAuths
  · exact safe_added (hs.entry hx) (hall s)
  · exact ⟨trivial, ℓ', le_refl ℓ', hs, (hno s hx).safe fun h => absurd rfl h⟩

omit [PeerCodec ID] in
lemma leavesAlone_read {next : Node ID → Code (Node ID) (Req ID) Resp}
    (h : ∀ s, LeavesAlone x (next s)) : LeavesAlone x (.act id next) :=
  fun n => safe_read fun _ hℓ _ hg s _ => (h s n).mono hℓ hg

lemma addedSince_removeBlockedPeer {s : Node ID} (hs : Unasked x n ℓ s) :
    AddedSince x n (s.removeBlockedPeer x) := by
  have hcount : (s.history ++ [Change.added x]).count (.added x) =
      s.history.count (.added x) + 1 := by simp
  have hlt : n < (s.history ++ [Change.added x]).count (.added x) := by
    have := hs.counted
    omega
  unfold AddedSince Node.removeBlockedPeer
  dsimp only
  split <;> exact hlt

lemma leavesAlone_add {next : Node ID → Code (Node ID) (Req ID) Resp}
    (hk : ∀ s, Invites (fun _ => True) (next s)) :
    LeavesAlone x (.act (Node.removeBlockedPeer x) next) :=
  fun _ _ _ _ _ s hs => safe_added (addedSince_removeBlockedPeer hs) (hk s)

end

/-! ### Holding a copy of the entry -/

/-- The goroutine is about to send `x` a request: run on its own and with suitable answers it
comes to do so, or starts a goroutine that does, whatever it reads and without adding `x`. -/
def HoldsCopy (x : ID) : Code (Node ID) (Req ID) Resp → Prop
  | .done => False
  | .act upd next => (∀ s, (upd s).history = s.history) ∧ ∀ s, HoldsCopy x (next s)
  | .ask q next => Invitation x q ∨ ∃ r, HoldsCopy x (next r)
  | .fork child next => HoldsCopy x child ∨ HoldsCopy x next

/-- Wherever the goroutine stands, it holds a copy of the entry for `x` or leaves `x` alone. -/
def Decided (x : ID) (k : Code (Node ID) (Req ID) Resp) : Prop :=
  k.Always fun k => HoldsCopy x k ∨ LeavesAlone x k

/-- A goroutine of which it is clear from the start, by `b`, which of the two it does. -/
structure Labelled (x : ID) (b : Prop) (k : Code (Node ID) (Req ID) Resp) : Prop where
  always : Decided x k
  copy : b → HoldsCopy x k
  apart : ¬ b → Invites (· ≠ x) k

section

variable {x : ID} {b c : Prop} {env : Env}

omit [PeerCodec ID] in
lemma holdsCopy_or {k : Code (Node ID) (Req ID) Resp} (hcopy : b → HoldsCopy x k)
    (hapart : ¬ b → Invites (· ≠ x) k) : HoldsCopy x k ∨ LeavesAlone x k := by
  by_cases hb : b
  · exact Or.inl (hcopy hb)
  · exact Or.inr (hapart hb).leavesAlone

namespace Labelled

omit [PeerCodec ID]

lemma congr {k : Code (Node ID) (Req ID) Resp} (h : Labelled x b k) (hbc : b ↔ c) :
    Labelled x c k :=
  propext hbc ▸ h

lemma of_invites {k : Code (Node ID) (Req ID) Resp} (h : Invites (· ≠ x) k) :
    Labelled x False k := by
  refine ⟨?_, False.elim, fun _ => h⟩
  induction k with
  | done => exact Or.inr h.leavesAlone
  | act upd next ih => exact ⟨Or.inr h.leavesAlone, fun s => ih s (h.2 s)⟩
  | ask q next ih => exact ⟨Or.inr h.leavesAlone, fun r => ih r (h.2 r)⟩
  | fork child next ihc ihn => exact ⟨Or.inr h.leavesAlone, ihc h.1, ihn h.2⟩

lemma act {upd : Node ID → Node ID} {next : Node ID → Code (Node ID) (Req ID) Resp}
    (htame : ¬ b → Tame (· ≠ x) upd) (hhist : ∀ s, (upd s).history = s.history)
    (h : ∀ s, Labelled x b (next s)) : Labelled x b (.act upd next) := by
  have hcopy : b → HoldsCopy x (.act upd next) := fun hb => ⟨hhist, fun s => (h s).copy hb⟩
  have hapart : ¬ b → Invites (· ≠ x) (.act upd next) := fun hb =>
    ⟨htame hb, fun s => (h s).apart hb⟩
  exact ⟨⟨holdsCopy_or hcopy hapart, fun s => (h s).always⟩, hcopy, hapart⟩

lemma read {next : Node ID → Code (Node ID) (Req ID) Resp} (h : ∀ s, Labelled x b (next s)) :
    Labelled x b (.act id next) :=
  act (fun _ => tame_id) (fun _ => rfl) h

/-- An operation that is no auth request: with some of the answers the goroutine goes on as it
has come, with the others it may do less. -/
lemma ask {q : Req ID} {next : Resp → Code (Node ID) (Req ID) Resp} (hq : ¬ Invitation x q)
    (hcb : c → b) (good : Resp → Bool) (hgood : ∃ r, good r = true)
    (h : ∀ r, Labelled x (bif good r then b else c) (next r)) : Labelled x b (.ask q next) := by
  obtain ⟨r₀, h₀⟩ := hgood
  have hcopy : b → HoldsCopy x (.ask q next) := fun hb =>
    Or.inr ⟨r₀, (h r₀).copy (by rw [h₀]; exact hb)⟩
  have hapart : ¬ b → Invites (· ≠ x) (.ask q next) := by
    refine fun hb => ⟨?_, fun r => (h r).apart ?_⟩
    · rintro id hid rfl
      exact hq hid
    · cases good r
      · exact fun hc => hb (hcb hc)
      · exact hb
  exact ⟨⟨holdsCopy_or hcopy hapart, fun r => (h r).always⟩, hcopy, hapart⟩

/-- An operation that is no auth request, after which nothing changes. -/
lemma ask_same {q : Req ID} {next : Resp → Code (Node ID) (Req ID) Resp} (hq : ¬ Invitation x q)
    (h : ∀ r, Labelled x b (next r)) : Labelled x b (.ask q next) :=
  ask (c := b) hq id (fun _ => true) ⟨.ok, rfl⟩ h

/-- An auth request, to `x` or to another peer. -/
lemma sendAuth (stream : Stream ID) {req : AuthPeer}
    {next : Resp → Code (Node ID) (Req ID) Resp} (h : ∀ r, Labelled x b (next r)) :
    Labelled x (stream.remote = x ∨ b) (.ask (.sendAuth stream req) next) := by
  by_cases hx : stream.remote = x
  · exact ⟨⟨Or.inl (Or.inl hx), fun r => (h r).always⟩, fun _ => Or.inl hx,
      fun hno => absurd (Or.inl hx) hno⟩
  · have hq : ¬ Invitation x (.sendAuth stream req) := hx
    exact (ask_same hq h).congr (or_iff_right hx).symm

lemma fork {child next : Code (Node ID) (Req ID) Resp} (hchild : Labelled x b child)
    (hnext : Labelled x c next) : Labelled x (b ∨ c) (.fork child next) := by
  have hcopy : b ∨ c → HoldsCopy x (.fork child next) := Or.imp hchild.copy hnext.copy
  have hapart : ¬ (b ∨ c) → Invites (· ≠ x) (.fork child next) := fun hbc =>
    ⟨hchild.apart fun hb => hbc (Or.inl hb), hnext.apart fun hc => hbc (Or.inr hc)⟩
  exact ⟨⟨holdsCopy_or hcopy hapart, hchild.always, hnext.always⟩, hcopy, hapart⟩

end Labelled

def answersOk : Resp → Bool
  | .ok => true
  | _ => false

def answersStream : Resp → Bool
  | .stream _ => true
  | _ => false

/-- `SendAuthRequest` to `x`, or to another peer with a request to `x` to come behind it. -/
lemma labelled_sendAuthRequest {k : Unit → Code (Node ID) (Req ID) Resp}
    (hk : Labelled x c (k ())) (peerID : ID) (req : AuthPeer) :
    Labelled x (peerID = x ∨ c) (sendAuthRequest peerID req k) := by
  refine .act (fun hb => tame_insertOutgoing (fun h => hb (Or.inl h)) req) (fun _ => rfl)
    fun _ => .ask id Or.inr answersOk ⟨.ok, rfl⟩ fun r => ?_
  cases r with
  | ok =>
    refine .ask id Or.inr answersStream ⟨.stream 0, rfl⟩ fun r => ?_
    cases r with
    | stream sid =>
      -- after the request itself nothing is left but what comes behind
      refine Labelled.sendAuth { remote := peerID, sid := sid, inbound := false } fun r => ?_
      cases r with
      | ok =>
        refine .ask_same id fun r => ?_
        cases r with
        | authResponse response =>
          obtain ⟨confirmed, declined⟩ := response
          cases declined with
          | false =>
            cases confirmed with
            | false => exact hk
            | true => exact .act (fun _ => tame_eraseOutgoing _) (fun _ => rfl) fun _ => hk
          | true =>
            simp only [Bool.or_true, if_true, bind_apply, modify_apply, read_apply]
            refine .act (fun _ => tame_eraseOutgoing _) (fun _ => rfl) fun _ => .read fun s => ?_
            cases s.conf.getPeer (string peerID) with
            | some kp => exact .act (fun _ => tame_upsertPeer _) (fun _ => rfl) fun _ => hk
            | none => exact hk
        | _ => exact hk
      | _ => exact hk
    | _ => exact hk
  | _ => exact hk

/-! ### Calls -/

lemma labelled_sendAll (auths : List (ID × AuthPeer)) :
    Labelled x (∃ e ∈ auths, e.1 = x) (sendAll auths).code := by
  induction auths with
  | nil => exact (Labelled.of_invites invites_done).congr (by simp)
  | cons e auths ih => exact (labelled_sendAuthRequest ih e.1 e.2).congr (by simp)

/-- The goroutine of `AddPeer` for a peer that has not confirmed yet. -/
lemma labelled_introduce : Labelled x True (introduce env x false).code := by
  have hexchange : Labelled x False (.act id fun s : Node ID =>
      exchangeNewStatusInfo env x ((s.conf.getPeer (string x)).getD {}) fun _ => .done) :=
    .of_invites (invites_read fun _ => invites_exchangeNewStatusInfo invites_done _ _)
  exact .read fun _ => (labelled_sendAuthRequest hexchange x _).congr (by simp)

/-- What `onPeerConnected` does with an outgoing request to `x` that it has found. -/
lemma labelled_connected (auth : AuthPeer) :
    Labelled x True (do
      let knownPeer ← read fun s => s.conf.getPeer (string x)
      if knownPeer.isNone && (some auth).isNone then return
      modify (Node.updatePeerLastSeen (string x))
      spawn do
        match some auth with
        | some authPeer => sendAuthRequest x authPeer
        | none => pure ()
        match knownPeer with
        | some knownPeer => exchangeNewStatusInfo env x knownPeer
        | none => pure () : Prog ID Unit).code := by
  refine .read fun s => ?_
  simp only [Option.isNone_some, Bool.and_false, Bool.false_eq_true, if_false]
  refine .act (fun _ => tame_updatePeerLastSeen _) (fun _ => rfl) fun _ => ?_
  refine Labelled.congr (b := (x = x ∨ False) ∨ False) (.fork ?_ (.of_invites invites_done))
    (by simp)
  cases s.conf.getPeer (string x) with
  | some kp =>
    exact labelled_sendAuthRequest (.of_invites (invites_exchangeNewStatusInfo invites_done _ _))
      x auth
  | none => exact labelled_sendAuthRequest (.of_invites invites_done) x auth

omit [PeerCodec ID] in
lemma decided_read {next : Node ID → Code (Node ID) (Req ID) Resp}
    (h : ∀ s, Decided x (next s) ∧ LeavesAlone x (next s)) :
    Decided x (.act id next) ∧ LeavesAlone x (.act id next) := by
  have hread := leavesAlone_read fun s => (h s).2
  exact ⟨⟨Or.inr hread, fun s => (h s).1⟩, hread⟩

lemma decided_add {next : Node ID → Code (Node ID) (Req ID) Resp}
    (hk : ∀ s, Invites (fun _ => True) (next s)) (h : ∀ s, Decided x (next s)) :
    Decided x (.act (Node.removeBlockedPeer x) next) ∧
      LeavesAlone x (.act (Node.removeBlockedPeer x) next) :=
  ⟨⟨Or.inr (leavesAlone_add hk), h⟩, leavesAlone_add hk⟩

omit [PeerCodec ID] in
lemma Invites.decided {k : Code (Node ID) (Req ID) Resp} (hk : Invites (· ≠ x) k) :
    Decided x k ∧ LeavesAlone x k :=
  ⟨(Labelled.of_invites hk).always, hk.leavesAlone⟩

/-- A friend request to `x` adds it before it invites it. -/
lemma decided_sendFriendRequest (req : FriendRequest) :
    Decided x (Api.sendFriendRequest env req : Prog ID Answer).code ∧
      LeavesAlone x (Api.sendFriendRequest env req : Prog ID Answer).code := by
  have hdone : Decided x (.done : Code (Node ID) (Req ID) Resp) ∧ LeavesAlone x .done :=
    invites_done.decided
  by_cases hx : decode req.peerID = some x
  · simp only [Api.sendFriendRequest, Go.code, Go.ite_apply, hx]
    split
    · exact hdone
    simp only [bind_apply, read_apply, Go.ite_apply, map_apply, pure_apply, addPeer]
    refine decided_read fun s => ?_
    split
    · exact hdone
    refine decided_read fun s => ?_
    split
    · exact hdone
    refine decided_read fun s => ?_
    split
    · exact hdone
    refine decided_read fun s => ?_
    cases chooseIP s.conf (string x) req.ipAddr with
    | error e => exact hdone
    | ok ip =>
      refine decided_read fun s => ?_
      have hadded : Labelled x (True ∨ False) (.fork (introduce env x false).code .done) :=
        .fork labelled_introduce (.of_invites invites_done)
      refine decided_add (fun _ => invites_act (tame_upsertPeer _) fun _ => ?_) fun _ =>
        (Labelled.act (fun _ => tame_upsertPeer _) (fun _ => rfl) fun _ => hadded).always
      exact ⟨invites_introduce _ fun _ => trivial, invites_done⟩
  · refine (invites_sendFriendRequest (p := (· ≠ x)) req fun peerID hd he => hx ?_).decided
    rw [hd, he]

/-- **What a call runs** leaves `x` alone to begin with, and is decided ever after. -/
lemma decided_call (l : Call ID) : Decided x (l.code env) ∧ LeavesAlone x (l.code env) := by
  by_cases hl : l.Looks x
  · cases l with
    | peerConnected peerID =>
      cases hl
      have hroot : LeavesAlone x (Call.code env (.peerConnected x)) := by
        refine leavesAlone_lookup (fun s => invites_connected _ fun _ => trivial) fun s hx => ?_
        exact invites_connected _ fun h => absurd (Finmap.lookup_eq_none.mpr hx) h
      refine ⟨⟨Or.inr hroot, fun s => ?_⟩, hroot⟩
      dsimp only
      rcases s.outgoingAuths.lookup x with _ | auth
      · exact (Labelled.of_invites (invites_connected none fun h => absurd rfl h)).always
      · exact (labelled_connected auth).always
    | retryAuthRequests order =>
      have hroot : LeavesAlone x (Call.code env (.retryAuthRequests order)) := by
        refine leavesAlone_lookup (fun s => invites_sendAll _ fun _ _ => trivial) fun s hx => ?_
        refine invites_sendAll _ fun e he => ?_
        obtain ⟨id, -, hmap⟩ := List.mem_filterMap.mp he
        obtain ⟨auth, hauth, rfl⟩ := Option.map_eq_some_iff.mp hmap
        rintro rfl
        exact hx (Finmap.mem_of_lookup_eq_some hauth)
      exact ⟨⟨Or.inr hroot, fun s => (labelled_sendAll _).always⟩, hroot⟩
    | _ => exact hl.elim
  · by_cases hs : ∃ req, l = .sendFriendRequest req
    · obtain ⟨req, rfl⟩ := hs
      exact decided_sendFriendRequest req
    · refine (invites_call (p := (· ≠ x)) l (fun req _ he => absurd ⟨req, he⟩ hs) ?_).decided
      rintro y hy rfl
      exact hl hy

end

end Awl
