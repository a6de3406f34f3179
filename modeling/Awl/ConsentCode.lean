import Awl.Calls
import Awl.Consent

/-!
Everything a node runs keeps to what it has done towards a peer `y`: it sends `y` a request, or
a status that does not decline, only after it has added `y`; and it shows that `y` has agreed
only after it has heard so from `y`.
-/

namespace Awl

open Text PeerCodec Go AuthStatus Contract

variable {ID : Type} [PeerCodec ID]

/-- A node that sends this to `y` has added it. -/
def Owes (y : ID) (ℓ : Set Deed) : Req ID → Prop
  | .sendStatus stream info => stream.remote = y → info.declined = false → .added ∈ ℓ
  | .sendAuth stream _ => stream.remote = y → .added ∈ ℓ
  | _ => True

/-- A node that hears this from `y` may take it that `y` has agreed. -/
def Hears (y : ID) (g : Prop) : Req ID → Resp → Prop
  | .receiveStatus stream, .status info => stream.remote = y → info.declined = false → g
  | .receiveAuth stream, .auth _ => stream.remote = y → g
  | _, _ => True

def consent (y : ID) : Contract (Node ID) (Req ID) Resp (Set Deed) Prop where
  inv := Consenting y
  owed ℓ _ := Owes y ℓ
  allowed := Hears y
  guar _ _ _ := True
  inv_mono hg h := h.mono hg
  owed_mono {ℓ ℓ' _ _ q} hℓ _ h := by
    cases q with
    | sendStatus stream info => exact fun hr hd => hℓ (h hr hd)
    | sendAuth stream auth => exact fun hr => hℓ (h hr)
    | _ => trivial
  guar_refl _ _ := trivial

namespace Consent

variable {y : ID} {ℓ : Set Deed} {g : Prop}

lemma safe_modify {upd : Node ID → Node ID} {next : Node ID → Code (Node ID) (Req ID) Resp}
    (hinv : ∀ ℓ' ≥ ℓ, ∀ g' ≥ g, ∀ s, Consenting y ℓ' g' s → Consenting y ℓ' g' (upd s))
    (h : ∀ s, (consent y).Safe (next s) ℓ g) : (consent y).Safe (.act upd next) ℓ g :=
  safe_act (fun _ _ _ _ _ _ => trivial) hinv h

/-- An operation whose answer says nothing about `y`. -/
lemma safe_block {q : Req ID} {next : Resp → Code (Node ID) (Req ID) Resp} (hq : Owes y ℓ q)
    (h : ∀ r, (consent y).Safe (next r) ℓ g) : (consent y).Safe (.ask q next) ℓ g :=
  safe_ask hq fun _ hg r _ => (h r).mono (le_refl ℓ) hg

/-! ### Status exchange -/

section

variable {env : Env} {k : Unit → Code (Node ID) (Req ID) Resp}

/-- A record is written back. -/
lemma safe_write (hk : (consent y).Safe (k ()) ℓ g) {peer : KnownPeer} (hpeer : Fine y ℓ g peer)
    (f : String → String) :
    (consent y).Safe (.act (Node.upsertPeer peer) fun _ => .act (Node.setUsingPeerID f) fun _ =>
      k ()) ℓ g :=
  safe_modify (fun _ hℓ _ hg _ hs => hs.upsertPeer (hpeer.mono hℓ hg)) fun _ =>
    safe_modify (fun _ _ _ _ _ hs => hs.setUsingPeerID f) fun _ => hk

lemma safe_processPeerStatusInfo (hk : (consent y).Safe (k ()) ℓ g) {peer : KnownPeer}
    (hpeer : Fine y ℓ g peer) {info : PeerStatusInfo}
    (hinfo : decode peer.peerID = some y → info.declined = false → g) :
    (consent y).Safe (processPeerStatusInfo env peer info k) ℓ g := by
  simp only [processPeerStatusInfo, bind_apply, read_apply, modify_apply, pure_apply,
    Go.ite_apply]
  refine safe_read fun ℓ₁ hℓ₁ g₁ hg₁ s _ => ?_
  have hk := hk.mono hℓ₁ hg₁
  by_cases hd : info.declined = true
  · rw [if_pos hd]
    refine safe_write hk ?_ _
    exact hpeer.mono hℓ₁ hg₁
  · rw [if_neg hd]
    -- whatever else the record gets, it is confirmed on the word of its peer
    have hconfirm : ∀ ℓ' ≥ ℓ₁, ∀ g' ≥ g₁, ∀ peer' : KnownPeer, peer'.peerID = peer.peerID →
        Fine y ℓ' g' peer' := by
      intro ℓ' hℓ g' hg peer' hid hy
      rw [hid] at hy ⊢
      exact ⟨(hpeer hy).1, hℓ (hℓ₁ (hpeer hy).2.1), fun _ =>
        hg (hg₁ (hinfo hy (by simpa using hd)))⟩
    split
    · refine safe_read fun ℓ₂ hℓ₂ g₂ hg₂ _ _ => safe_write (hk.mono hℓ₂ hg₂) ?_ _
      exact hconfirm ℓ₂ hℓ₂ g₂ hg₂ _ rfl
    · refine safe_write hk ?_ _
      exact hconfirm ℓ₁ (le_refl ℓ₁) g₁ (le_refl g₁) _ rfl

/-- The end of an exchange: the record of the remote peer is read again, and written back. -/
lemma safe_finish (hk : (consent y).Safe (k ()) ℓ g) {remote : ID} {info : PeerStatusInfo}
    (hinfo : remote = y → info.declined = false → g) :
    (consent y).Safe (.act id fun s => processPeerStatusInfo env
      ((s.conf.getPeer (string remote)).getD {}) info k) ℓ g := by
  refine safe_read fun ℓ' hℓ g' hg s hs => safe_processPeerStatusInfo (hk.mono hℓ hg)
    (hs.conf.fine_getD _) fun hy hd => hg (hinfo ?_ hd)
  by_contra hne
  exact hs.conf.not_about hne hy

lemma safe_createPeerInfo {k : PeerStatusInfo → Code (Node ID) (Req ID) Resp}
    (peer : KnownPeer) (name : String) (declined : Bool)
    (hk : ∀ info, info.declined = declined → (consent y).Safe (k info) ℓ g) :
    (consent y).Safe (createPeerInfo peer name declined k) ℓ g := by
  simp only [createPeerInfo, bind_apply, read_apply, pure_apply, Go.ite_apply]
  split_ifs with hd
  · exact hk _ hd.symm
  · exact safe_read fun ℓ' hℓ g' hg s _ => (hk _ (by simpa using hd)).mono hℓ hg

variable [DecidableEq ID]

lemma safe_exchangeNewStatusInfo (hk : (consent y).Safe (k ()) ℓ g) {remote : ID}
    (hdeed : remote = y → .added ∈ ℓ ∨ .refused ∈ ℓ) (peer : KnownPeer) :
    (consent y).Safe (exchangeNewStatusInfo env remote peer k) ℓ g := by
  refine safe_modify (fun _ _ _ _ _ hs => hs.eraseIngoing _) fun _ =>
    safe_block trivial fun r => ?_
  cases r with
  | ok =>
    refine safe_block trivial fun r => ?_
    cases r with
    | stream sid =>
      refine safe_read fun ℓ₁ hℓ₁ g₁ hg₁ s hs => safe_read fun ℓ₂ hℓ₂ g₂ hg₂ _ _ => ?_
      have hk := hk.mono (hℓ₁.trans hℓ₂) (hg₁.trans hg₂)
      refine safe_createPeerInfo _ _ _ fun info hinfo => safe_ask ?_ fun g₃ hg₃ r _ => ?_
      · -- not blocked now, so added before
        rintro rfl hd
        refine hℓ₂ (hs.added_of_not_blocked ?_ (hinfo.symm.trans hd))
        exact (hdeed rfl).imp (fun h => hℓ₁ h) fun h => hℓ₁ h
      cases r with
      | ok =>
        refine safe_ask trivial fun g₄ hg₄ r hr => ?_
        have hk := hk.mono (le_refl ℓ₂) (hg₃.trans hg₄)
        cases r with
        | status opposite =>
          simp only [Go.ite_apply, pure_apply]
          split_ifs
          · exact hk
          · exact safe_finish hk hr
        | _ => exact hk
      | _ => exact hk.mono (le_refl ℓ₂) hg₃
    | _ => exact hk
  | _ => exact hk

lemma safe_statusStreamHandler (hk : (consent y).Safe (k ()) ℓ g) (hz : y ≠ zero)
    (stream : Stream ID) : (consent y).Safe (statusStreamHandler env stream k) ℓ g := by
  refine safe_read fun ℓ₁ hℓ₁ g₁ hg₁ s hs => safe_read fun ℓ₂ hℓ₂ g₂ hg₂ s' _ => ?_
  have hk := hk.mono (hℓ₁.trans hℓ₂) (hg₁.trans hg₂)
  simp only [bind_apply, block_apply, pure_apply, Go.ite_apply]
  by_cases hdone : ((s.conf.getPeer (string stream.remote)).isNone &&
      !(s'.conf.getBlockedPeer (string stream.remote)).isSome) = true
  · rw [if_pos hdone]
    exact hk
  rw [if_neg hdone]
  refine safe_ask trivial fun g₃ hg₃ r hr => ?_
  have hk := hk.mono (le_refl ℓ₂) hg₃
  cases r with
  | status opposite =>
    refine safe_modify (fun _ _ _ _ _ hs => hs.eraseOutgoing _) fun _ =>
      safe_read fun ℓ₃ hℓ₃ g₄ hg₄ _ _ =>
        safe_createPeerInfo _ _ _ fun info hinfo => safe_block ?_ fun _ => ?_
    · -- neither blocked nor unknown when it was looked up
      intro hy hd
      rw [← hinfo, hd] at hdone
      obtain ⟨kp, hkp⟩ := Option.ne_none_iff_exists'.mp
        (show s.conf.getPeer (string stream.remote) ≠ none by simpa using hdone)
      exact hℓ₃ (hℓ₂ (hs.conf.added (hy ▸ decode_string _ (hy ▸ hz)) hkp))
    · split_ifs
      · exact hk.mono hℓ₃ hg₄
      · exact safe_finish (hk.mono hℓ₃ hg₄) fun hy hd => hg₄ (hr hy hd)
  | _ => exact hk

lemma safe_blockPeer (hk : (consent y).Safe (k ()) ℓ g) (id : ID) (name : String) :
    (consent y).Safe (blockPeer env id name k) ℓ g := by
  intro ℓ₁ hℓ₁ g₁ hg₁ s hs
  -- blocking `y` is a refusal, after which an exchange with it may be opened
  obtain ⟨ℓ₂, hℓ₂, hdeed, hinv⟩ : ∃ ℓ₂ ≥ ℓ₁, (id = y → .refused ∈ ℓ₂) ∧
      Consenting y ℓ₂ g₁ (s.upsertBlockedPeer (string id) name) := by
    by_cases hid : id = y
    · exact ⟨_, Set.subset_insert _ _, fun _ => Set.mem_insert _ _, hid ▸ hs.refuse name⟩
    · exact ⟨ℓ₁, le_refl ℓ₁, fun he => absurd he hid, hs.upsertBlockedPeer _ name⟩
  refine ⟨trivial, ℓ₂, hℓ₂, hinv, ?_, hk.mono (hℓ₁.trans hℓ₂) hg₁⟩
  exact safe_exchangeNewStatusInfo (k := fun _ => .done) trivial (fun he => Or.inr (hdeed he)) _

/-! ### Auth requests -/

lemma safe_sendAuthRequest (hk : (consent y).Safe (k ()) ℓ g) {id : ID}
    (hid : id = y → .added ∈ ℓ) (req : AuthPeer) :
    (consent y).Safe (sendAuthRequest id req k) ℓ g := by
  refine safe_modify (fun _ hℓ _ _ _ hs => hs.insertOutgoing (fun he => hℓ (hid he)) _) fun _ =>
    safe_block trivial fun r => ?_
  cases r with
  | ok =>
    refine safe_block trivial fun r => ?_
    cases r with
    | stream sid =>
      refine safe_block hid fun r => ?_
      cases r with
      | ok =>
        refine safe_block trivial fun r => ?_
        cases r with
        | authResponse response =>
          have herase : ∀ {next}, (∀ s, (consent y).Safe (next s) ℓ g) → (consent y).Safe
              (.act (fun s => { s with outgoingAuths := s.outgoingAuths.erase id }) next) ℓ g :=
            safe_modify fun _ _ _ _ _ hs => hs.eraseOutgoing id
          obtain ⟨confirmed, declined⟩ := response
          cases declined with
          | false =>
            cases confirmed with
            | false => exact hk
            | true => exact herase fun _ => hk
          | true =>
            simp only [Bool.or_true, if_true, bind_apply, modify_apply, read_apply]
            refine herase fun _ => safe_read fun ℓ₁ hℓ₁ g₁ hg₁ s hs => ?_
            -- the refusal is noted in the record, if there still is one
            rcases hkp : s.conf.getPeer (string id) with _ | kp
            · exact hk.mono hℓ₁ hg₁
            · refine safe_modify (fun ℓ' hℓ g' hg _ hs' => hs'.upsertPeer ?_) fun _ =>
                hk.mono hℓ₁ hg₁
              exact (hs.conf.fine _ kp hkp).mono hℓ hg
        | _ => exact hk
      | _ => exact hk
    | _ => exact hk
  | _ => exact hk

lemma safe_introduce {peerID : ID} (hid : peerID = y → .added ∈ ℓ) (confirmed : Bool) :
    (consent y).Safe (introduce env peerID confirmed).code ℓ g := by
  have hexchange : (consent y).Safe (.act id fun s => exchangeNewStatusInfo env peerID
      ((s.conf.getPeer (string peerID)).getD {}) fun _ => .done) ℓ g :=
    safe_read fun ℓ₁ hℓ₁ _ _ _ _ => safe_exchangeNewStatusInfo (k := fun _ => .done) trivial
      (fun he => Or.inl (hℓ₁ (hid he))) _
  cases confirmed with
  | true => exact hexchange
  | false =>
    exact safe_read fun ℓ₁ hℓ₁ g₁ hg₁ s _ => safe_sendAuthRequest (hexchange.mono hℓ₁ hg₁)
      (fun he => hℓ₁ (hid he)) _

/-- A peer may be added as confirmed if it has agreed. -/
lemma safe_addPeer {k : Except AddPeerError Unit → Code (Node ID) (Req ID) Resp}
    (hk : ∀ r, (consent y).Safe (k r) ℓ g) {id : ID} (hid : id ≠ zero) {confirmed : Bool}
    (hconf : confirmed = true → id = y → g) (name peerAlias ipAddr : String) :
    (consent y).Safe (addPeer env id name peerAlias confirmed ipAddr k) ℓ g := by
  simp only [addPeer, bind_apply, read_apply, pure_apply, Go.ite_apply]
  refine safe_read fun ℓ₁ hℓ₁ g₁ hg₁ s₁ _ => ?_
  have hk := fun r => (hk r).mono hℓ₁ hg₁
  split
  · exact hk _
  refine safe_read fun ℓ₂ hℓ₂ g₂ hg₂ s₂ _ => ?_
  have hk := fun r => (hk r).mono hℓ₂ hg₂
  split
  · exact hk _
  refine safe_read fun ℓ₃ hℓ₃ g₃ hg₃ s₃ _ => ?_
  have hk := fun r => (hk r).mono hℓ₃ hg₃
  cases chooseIP s₃.conf (string id) ipAddr with
  | error e => exact hk _
  | ok ip =>
    refine safe_read fun ℓ₄ hℓ₄ g₄ hg₄ s₄ _ => ?_
    have hk := fun r => (hk r).mono hℓ₄ hg₄
    intro ℓ₅ hℓ₅ g₅ hg₅ s₅ hs₅
    obtain ⟨ℓ₆, hℓ₆, hadded, hinv⟩ := hs₅.removeBlockedPeer id
    refine ⟨trivial, ℓ₆, hℓ₆, hinv, ?_⟩
    have hk := fun r => (hk r).mono (hℓ₅.trans hℓ₆) hg₅
    refine safe_modify (fun ℓ₇ hℓ₇ g₇ hg₇ _ hs => hs.upsertPeer fun hy => ?_) fun _ =>
      ⟨safe_introduce hadded _, hk _⟩
    have he : id = y := Option.some.inj ((decode_string id hid).symm.trans hy)
    refine ⟨he ▸ rfl, hℓ₇ (hadded he), fun hc => hg₇ (hg₅ (hg₄ (hg₃ (hg₂ (hg₁ ?_)))))⟩
    exact hconf hc he

lemma safe_authStreamHandler {stream : Stream ID} (hid : stream.remote ≠ zero) :
    (consent y).Safe (authStreamHandler env stream).code ℓ g := by
  have hdone : ∀ (ℓ' : Set Deed) (g' : Prop),
    (consent y).Safe (.done : Code (Node ID) (Req ID) Resp) ℓ' g' := fun _ _ => trivial
  refine safe_ask trivial fun g₁ hg₁ r hr => ?_
  cases r with
  | auth authPeer =>
    refine safe_read fun ℓ₂ hℓ₂ g₂ hg₂ s₂ _ => safe_read fun ℓ₃ hℓ₃ g₃ hg₃ s₃ _ =>
      safe_read fun ℓ₄ hℓ₄ g₄ hg₄ s₄ _ => ?_
    have hagreed : stream.remote = y → g₄ := fun he => hg₄ (hg₃ (hg₂ (hr he)))
    -- after the answer the peer is added if auto-accept says so
    have hadd : ∀ (c : Prop) [Decidable c], (consent y).Safe
        (if c then .act id fun s => addPeer env stream.remote authPeer.name
            (Config.genUniqPeerAlias s.conf.aliases authPeer.name "").1 true "" fun _ => .done
          else .done) ℓ₄ g₄ := by
      intro c _
      split
      · exact safe_read fun _ _ _ hg _ _ =>
          safe_addPeer (fun _ => hdone _ _) hid (fun _ he => hg (hagreed he)) _ _ _
      · exact hdone _ _
    simp only [bind_apply, Go.ite_apply, modify_apply, block_apply, read_apply, pure_apply]
    split
    · refine safe_modify (fun _ _ _ hg _ hs => hs.insertIngoing (fun he => hg (hagreed he)) _)
        fun _ => safe_block trivial fun _ => hadd _
    · exact safe_block trivial fun _ => hadd _
  | _ => exact hdone _ _

end

end Consent

end Awl
