import Awl.Friends

/-!
What the goroutines of a network of two lead to, and that they keep to its contract.
-/

namespace Awl

open Text PeerCodec Go AuthStatus Contract Goal

variable {ID : Type} [PeerCodec ID] {y : ID} {env : Env}

namespace Friends

section

variable {k : Unit → Code (Node ID) (Req ID) Resp}

/-! ### Where goroutines get -/

/-- A status that does not decline confirms the record. -/
lemma confirming_process {peer : KnownPeer} (hid : peer.peerID = string y)
    {info : PeerStatusInfo} (hd : info.declined = false) :
    (confirming y).Leads (processPeerStatusInfo env peer info k) := by
  have hwrite : ∀ (peer' : KnownPeer) (next : Node ID → Code (Node ID) (Req ID) Resp),
      peer'.peerID = peer.peerID → peer'.confirmed = true →
      (confirming y).Leads (.act (Node.upsertPeer peer') next) := by
    intro peer' next hid' hc s _
    left
    change confirmation y (s.upsertPeer peer') = some true
    rw [confirmation_upsertPeer (hid'.trans hid), hc]
  simp only [processPeerStatusInfo, bind_apply, read_apply, modify_apply, pure_apply,
    Go.ite_apply, hd, Bool.false_eq_true, if_false]
  refine leads_act fun s _ => ?_
  split
  · exact leads_act fun _ _ => hwrite _ _ rfl rfl
  · exact hwrite _ _ rfl rfl

lemma confirming_finish {info : PeerStatusInfo} (hd : info.declined = false) :
    (confirming y).Leads (.act id fun s => processPeerStatusInfo env
      ((s.conf.getPeer (string y)).getD {}) info k) := by
  refine leads_act fun s hs => ?_
  obtain ⟨kp, hkp⟩ := Finmap.mem_iff.mp hs.2
  rw [Config.getPeer, hkp]
  exact confirming_process (hs.1.records _ kp hkp).2.1 hd

variable [DecidableEq ID]

/-- After a status stream to `y` has been opened. -/
lemma opening_exchange (peer : KnownPeer) :
    (opening y).Leads (exchangeNewStatusInfo env y peer k) := by
  refine leads_act fun _ _ => leads_ask fun r hr => ?_
  cases hr
  left
  refine ⟨rfl, fun sid => leads_act fun s hs => leads_act fun s' _ => ?_⟩
  simp only [hs.1.not_blocked, createPeerInfo, Bool.false_eq_true, if_false]
  refine leads_act fun _ _ => leads_ask fun r hr => ?_
  cases hr
  left
  exact ⟨⟨_, rfl⟩, fun info hd => confirming_finish hd⟩

/-- An auth request comes to an end. -/
lemma opening_sendAuthRequest (hk : (opening y).Leads (k ())) (req : AuthPeer) :
    (opening y).Leads (sendAuthRequest y req k) := by
  refine leads_act fun _ _ => leads_ask fun r hr => ?_
  cases hr
  refine leads_ask fun r hr => ?_
  obtain ⟨sid, rfl⟩ := hr
  refine leads_ask fun r hr => ?_
  cases hr
  refine leads_ask fun r _ => ?_
  cases r with
  | authResponse response =>
    obtain ⟨confirmed, declined⟩ := response
    cases declined with
    | false =>
      cases confirmed with
      | false => exact hk
      | true => exact leads_act fun _ _ => hk
    | true =>
      simp only [Bool.or_true, if_true, bind_apply, modify_apply, read_apply]
      refine leads_act fun _ _ => leads_act fun s _ => ?_
      cases s.conf.getPeer (string y) with
      | none => exact hk
      | some kp => exact leads_act fun _ _ => hk
  | _ => exact hk

lemma opening_introduce (confirmed : Bool) :
    (opening y).Leads (introduce env y confirmed).code := by
  have hexchange : (opening y).Leads (.act id fun s => exchangeNewStatusInfo env y
      ((s.conf.getPeer (string y)).getD {}) fun _ => .done) :=
    leads_act fun _ _ => opening_exchange _
  cases confirmed with
  | true => exact hexchange
  | false => exact leads_act fun _ _ => opening_sendAuthRequest hexchange _

/-- What the handler of a status stream does on a node that knows `y`: it receives a status,
answers it, and takes it up. -/
lemma statusStreamHandler_leads (T : Goal (Node ID) (Req ID) Resp)
    (hinv : T.inv = fun s => Friendly y s ∧ Knows y s) (hans : T.answers = FriendlyAnswer)
    (sid : ℕ)
    (hsend : ∀ info opposite : PeerStatusInfo, opposite.declined = false →
      T.Leads (.ask (.sendStatus ⟨y, sid, true, none⟩ info) fun _ => .act id fun s =>
        processPeerStatusInfo env ((s.conf.getPeer (string y)).getD {}) opposite fun _ => .done)) :
    T.Leads (statusStreamHandler env ⟨y, sid, true, none⟩).code := by
  refine leads_act fun s hs => leads_act fun s' hs' => ?_
  rw [hinv] at hs hs'
  obtain ⟨kp, hkp⟩ := Finmap.mem_iff.mp hs.2
  have hknown : s.conf.getPeer (string y) = some kp := hkp
  simp only [hknown, hs'.1.not_blocked, createPeerInfo, Option.isNone_some, Bool.false_and,
    Bool.false_eq_true, if_false]
  refine leads_ask fun r hr => ?_
  rw [hans] at hr
  obtain ⟨opposite, hd, rfl⟩ := hr rfl
  exact leads_act fun _ _ => leads_act fun _ _ => leads_act fun _ _ => hsend _ _ hd

lemma replying_statusStreamHandler (sid : ℕ) :
    (replying y sid).Leads (statusStreamHandler env ⟨y, sid, true, none⟩).code :=
  statusStreamHandler_leads _ rfl rfl sid fun _ _ _ => Or.inl ⟨_, _, rfl⟩

lemma confirming_statusStreamHandler (sid : ℕ) :
    (confirming y).Leads (statusStreamHandler env ⟨y, sid, true, none⟩).code :=
  statusStreamHandler_leads _ rfl rfl sid fun _ _ hd => leads_ask fun _ _ => confirming_finish hd

end

end Friends

end Awl
