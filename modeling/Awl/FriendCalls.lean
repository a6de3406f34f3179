import Awl.Operations

/-!
What the two handlers that add a peer come to, when nothing else runs meanwhile: a request that is
let through becomes a call of `AddPeer`.
-/

namespace Awl

open PeerCodec Text AuthStatus

variable {ID : Type} [PeerCodec ID]

namespace Api

/-- The call of `AddPeer` that `SendFriendRequest` makes. -/
def invited (env : Env) (s : Node ID) (req : FriendRequest) : Option (AddCall ID) :=
  if !(req.peerID ≠ "" && validText req.peerAlias && validOptionalIP env req.ipAddr) then none
  else match (decode req.peerID : Option ID) with
    | none => none
    | some peerID =>
      if req.peerID = s.conf.p2pNode.peerID then none
      else some { peerID := peerID, peerAlias := req.peerAlias, ipAddr := req.ipAddr }

/-- The call of `AddPeer` that `AcceptFriend` makes. -/
def accepted (env : Env) (s : Node ID) (req : FriendRequestReply) : Option (AddCall ID) :=
  if !(req.peerID ≠ "" && validText req.peerAlias && validOptionalIP env req.ipAddr) then none
  else match (decode req.peerID : Option ID) with
    | none => none
    | some peerID =>
      if req.peerID = s.conf.p2pNode.peerID then none
      else match s.getIngoingAuthRequests.lookup req.peerID with
        | none => none
        | some auth =>
          if req.decline then none
          else some {
            peerID := peerID
            name := auth.name
            peerAlias := req.peerAlias
            confirmed := true
            ipAddr := req.ipAddr }

section

variable {env : Env} {s : Node ID} {c : AddCall ID}

/-- What is known of the call of an invitation. -/
lemma invited_eq_some {req : FriendRequest} (h : invited env s req = some c) :
    c.peerID ≠ zero ∧ validText c.peerAlias = true ∧ validOptionalIP env c.ipAddr = true ∧
      c.peerAlias = req.peerAlias ∧ c.ipAddr = req.ipAddr := by
  unfold invited at h
  split at h
  · cases h
  next hvalid =>
  simp only [Bool.not_eq_true', Bool.not_eq_false, Bool.and_eq_true] at hvalid
  split at h
  · cases h
  next peerID hd =>
  split at h
  · cases h
  · cases h
    exact ⟨ne_zero_of_decode hd, hvalid.1.2, hvalid.2, rfl, rfl⟩

/-- What is known of the call of an acceptance. -/
lemma accepted_eq_some {req : FriendRequestReply} (h : accepted env s req = some c) :
    c.peerID ≠ zero ∧ validText c.peerAlias = true ∧ validOptionalIP env c.ipAddr = true ∧
      c.peerAlias = req.peerAlias ∧ c.ipAddr = req.ipAddr := by
  unfold accepted at h
  split at h
  · cases h
  next hvalid =>
  simp only [Bool.not_eq_true', Bool.not_eq_false, Bool.and_eq_true] at hvalid
  split at h
  · cases h
  next peerID hd =>
  split at h
  · cases h
  split at h
  · cases h
  split at h
  · cases h
  · cases h
    exact ⟨ne_zero_of_decode hd, hvalid.1.2, hvalid.2, rfl, rfl⟩

end

variable [DecidableEq ID] {env : Env} {s : Node ID}

/-- `AddPeer` and an answer. -/
lemma finish_answerAddPeer (net : Req ID → Resp) (c : AddCall ID) (s : Node ID) :
    (answerAddPeer <$> AuthStatus.addPeer env c.peerID c.name c.peerAlias c.confirmed
      c.ipAddr).code.finish net s = s.takeCall env c :=
  Operation.finish_addPeer net c s

/-- **An invitation.** -/
lemma finish_sendFriendRequest (env : Env) (net : Req ID → Resp) (req : FriendRequest)
    (s : Node ID) :
    (sendFriendRequest env req : Prog ID Answer).code.finish net s =
      (invited env s req).elim s fun c => s.takeCall env c := by
  simp only [sendFriendRequest, invited, Go.code, Go.ite_apply]
  by_cases hvalid : (!(req.peerID ≠ "" && validText req.peerAlias &&
      validOptionalIP env req.ipAddr)) = true
  · rw [if_pos hvalid, if_pos hvalid]
    rfl
  rw [if_neg hvalid, if_neg hvalid]
  rcases hd : (decode req.peerID : Option ID) with _ | peerID
  · rfl
  simp only [Go.bind_apply, Go.read_apply, Code.finish_act, Go.ite_apply, id]
  by_cases hself : req.peerID = s.conf.p2pNode.peerID
  · rw [if_pos hself, if_pos hself]
    rfl
  · rw [if_neg hself, if_neg hself]
    exact finish_answerAddPeer net ⟨peerID, "", req.peerAlias, false, req.ipAddr⟩ s

/-- **The answer to an invitation**: an acceptance, or a refusal that blocks the peer. -/
lemma finish_acceptFriend (env : Env) (net : Req ID → Resp) (req : FriendRequestReply)
    (s : Node ID) :
    (acceptFriend env req : Prog ID Answer).code.finish net s =
        (accepted env s req).elim s (fun c => s.takeCall env c) ∨
      accepted env s req = none ∧ ∃ peerID name,
        (acceptFriend env req : Prog ID Answer).code.finish net s =
          s.upsertBlockedPeer peerID name := by
  simp only [acceptFriend, accepted, Go.code, Go.ite_apply]
  by_cases hvalid : (!(req.peerID ≠ "" && validText req.peerAlias &&
      validOptionalIP env req.ipAddr)) = true
  · rw [if_pos hvalid, if_pos hvalid]
    exact Or.inl rfl
  rw [if_neg hvalid, if_neg hvalid]
  rcases hd : (decode req.peerID : Option ID) with _ | peerID
  · exact Or.inl rfl
  simp only [Go.bind_apply, Go.read_apply, Code.finish_act, Go.ite_apply, id]
  by_cases hself : req.peerID = s.conf.p2pNode.peerID
  · rw [if_pos hself, if_pos hself]
    exact Or.inl rfl
  rw [if_neg hself, if_neg hself]
  simp only [Code.finish_act, id]
  rcases ha : s.getIngoingAuthRequests.lookup req.peerID with _ | auth
  · exact Or.inl rfl
  simp only [Go.ite_apply, Go.bind_apply]
  by_cases hdecline : req.decline = true
  · rw [if_pos hdecline, if_pos hdecline]
    exact Or.inr ⟨rfl, string peerID, auth.name, rfl⟩
  · rw [if_neg hdecline, if_neg hdecline]
    exact Or.inl
      (finish_answerAddPeer net ⟨peerID, auth.name, req.peerAlias, true, req.ipAddr⟩ s)

end Api

end Awl
