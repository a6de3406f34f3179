import Awl.Aliases
import Awl.Serial

/-!
What a request for new settings and a status make of the record of a peer, and what they leave
alone.
-/

namespace Awl

open PeerCodec Text AuthStatus

variable {ID : Type}

/-! ### The exchange -/

/-- The side that opens the stream of an exchange. -/
inductive Exchange
  | inbound (sid : ℕ)
  | outbound (knownPeer : KnownPeer)

def Exchange.code [DecidableEq ID] [PeerCodec ID] (env : Env) (y : ID) :
    Exchange → Code (Node ID) (Req ID) Resp
  | .inbound sid => (statusStreamHandler env { remote := y, sid := sid, inbound := true }).code
  | .outbound knownPeer => (exchangeNewStatusInfo env y knownPeer).code

/-! ### What each of them wants the record to be -/

/-- The fields that the user sets. -/
structure AsSet (req : UpdatePeerSettingsRequest) (kp : KnownPeer) : Prop where
  peerAlias : kp.peerAlias = trimSpace req.peerAlias
  domainName : kp.domainName = req.domainName
  ipAddr : kp.ipAddr = req.ipAddr
  weAllow : kp.weAllowUsingAsExitNode = req.allowUsingAsExitNode

/-- The fields that the peer reports. A status that declines reports nothing else. -/
structure AsReported (info : PeerStatusInfo) (kp : KnownPeer) : Prop where
  declined : kp.declined = info.declined
  name : info.declined = false → kp.name = info.name
  confirmed : info.declined = false → kp.confirmed = true
  allowed : info.declined = false → kp.allowedUsingAsExitNode = info.allowUsingAsExitNode
  reported : info.declined = false → kp.reportedUsingPeerID = info.usingPeerID

/-- What a status makes of the record `kp`, when the aliases `taken` are taken. -/
def recorded (env : Env) (taken : Finset String) (now : ℕ) (info : PeerStatusInfo)
    (kp : KnownPeer) : KnownPeer :=
  let kp := { kp with lastSeen := now }
  if info.declined then { kp with declined := true }
  else
    let kp := confirmPeer env kp info
    { kp with
      peerAlias := if kp.peerAlias = "" then
          (Config.genUniqPeerAlias taken kp.name kp.peerAlias).1
        else kp.peerAlias
      allowedUsingAsExitNode := info.allowUsingAsExitNode
      reportedUsingPeerID := info.usingPeerID }

section

variable {env : Env} {taken : Finset String} {now : ℕ} {info : PeerStatusInfo} {kp : KnownPeer}
  {req : UpdatePeerSettingsRequest}

lemma withSettings_asSet : AsSet req (Api.withSettings kp req) := ⟨rfl, rfl, rfl, rfl⟩

lemma withSettings_asReported_iff :
    AsReported info (Api.withSettings kp req) ↔ AsReported info kp := by
  obtain ⟨-, hdeclined, hname, hconfirmed, hallowed, hreported⟩ := Api.withSettings_kept kp req
  constructor
  · rintro ⟨h1, h2, h3, h4, h5⟩
    rw [hdeclined] at h1
    rw [hname] at h2
    rw [hconfirmed] at h3
    rw [hallowed] at h4
    rw [hreported] at h5
    exact ⟨h1, h2, h3, h4, h5⟩
  · intro h
    refine ⟨?_, ?_, ?_, ?_, ?_⟩
    · rw [hdeclined]
      exact h.declined
    · rw [hname]
      exact h.name
    · rw [hconfirmed]
      exact h.confirmed
    · rw [hallowed]
      exact h.allowed
    · rw [hreported]
      exact h.reported

lemma recorded_of_declined (h : info.declined = true) :
    recorded env taken now info kp = { kp with lastSeen := now, declined := true } := by
  simp only [recorded, h, if_true]

@[simp] lemma recorded_peerID : (recorded env taken now info kp).peerID = kp.peerID := by
  unfold recorded
  split <;> rfl

@[simp] lemma recorded_ipAddr : (recorded env taken now info kp).ipAddr = kp.ipAddr := by
  unfold recorded
  split <;> rfl

lemma recorded_asReported : AsReported info (recorded env taken now info kp) := by
  rcases h : info.declined with _ | _
  · simp only [recorded, h, Bool.false_eq_true, if_false]
    exact ⟨h.symm, fun _ => rfl, fun _ => rfl, fun _ => rfl, fun _ => rfl⟩
  · rw [recorded_of_declined h]
    exact ⟨h.symm, fun h' => absurd h (by simp [h']), fun h' => absurd h (by simp [h']),
      fun h' => absurd h (by simp [h']), fun h' => absurd h (by simp [h'])⟩

/-- A record with an alias keeps it. -/
lemma recorded_of_alias (h : kp.peerAlias ≠ "") (taken' : Finset String) :
    recorded env taken now info kp = recorded env taken' now info kp := by
  simp only [recorded, confirmPeer, h, if_false]

/-- What the user has set is left alone by a status that comes later. -/
lemma recorded_asSet (h : AsSet req kp) (ha : trimSpace req.peerAlias ≠ "")
    (hd : req.domainName ≠ "") : AsSet req (recorded env taken now info kp) := by
  have ha' : kp.peerAlias ≠ "" := h.peerAlias ▸ ha
  have hd' : kp.domainName ≠ "" := h.domainName ▸ hd
  unfold recorded
  split
  · exact ⟨h.peerAlias, h.domainName, h.ipAddr, h.weAllow⟩
  · simp only [confirmPeer, ha', hd', if_false]
    exact ⟨h.peerAlias, h.domainName, h.ipAddr, h.weAllow⟩

/-- A record without an alias does not get one that is taken. -/
lemma not_asSet_recorded (ha : kp.peerAlias = "") (hreq : trimSpace req.peerAlias ≠ "")
    (htaken : trimSpace req.peerAlias ∈ taken) : ¬ AsSet req (recorded env taken now info kp) := by
  intro h
  have halias := h.peerAlias
  unfold recorded at halias
  split at halias
  · exact hreq (halias.symm.trans ha)
  · simp only [confirmPeer, ha, if_true] at halias
    exact (Config.genUniqPeerAlias_spec taken _ _).1 (halias ▸ htaken)

end

/-! ### The record while they run -/

/-- The record of the peer. -/
def record (key : String) (s : Node ID) : KnownPeer := (s.conf.getPeer key).getD {}

/-- What the two goroutines leave alone. -/
structure Undisturbed (key : String) (s₀ s : Node ID) : Prop where
  known : key ∈ s.conf.knownPeers
  peerID : (record key s).peerID = key
  others : s.conf.knownPeers.erase key = s₀.conf.knownPeers.erase key
  blocked : s.conf.blockedPeers = s₀.conf.blockedPeers
  vpn : s.conf.vpnConfig = s₀.conf.vpnConfig
  now : s.now = s₀.now

namespace Undisturbed

variable {key : String} {s₀ s : Node ID}

lemma getPeer (h : Undisturbed key s₀ s) : s.conf.getPeer key = some (record key s) := by
  obtain ⟨kp, hkp⟩ := Finmap.mem_iff.mp h.known
  rw [record, Config.getPeer, hkp, Option.getD_some]

lemma getBlockedPeer (h : Undisturbed key s₀ s) (k : String) :
    s.conf.getBlockedPeer k = s₀.conf.getBlockedPeer k := by
  rw [Config.getBlockedPeer, Config.getBlockedPeer, h.blocked]

lemma lookup_other (h : Undisturbed key s₀ s) {k : String} (hk : k ≠ key) :
    s.conf.knownPeers.lookup k = s₀.conf.knownPeers.lookup k := by
  have herase := congrArg (Finmap.lookup k) h.others
  rwa [Finmap.lookup_erase_ne hk, Finmap.lookup_erase_ne hk] at herase

/-- A change that does not concern what is kept. -/
lemma of_eq (h : Undisturbed key s₀ s) (s' : Node ID)
    (hk : s'.conf.knownPeers = s.conf.knownPeers)
    (hb : s'.conf.blockedPeers = s.conf.blockedPeers)
    (hv : s'.conf.vpnConfig = s.conf.vpnConfig) (hn : s'.now = s.now) :
    Undisturbed key s₀ s' ∧ record key s' = record key s := by
  have hrec : record key s' = record key s := by rw [record, record, Config.getPeer, hk]; rfl
  exact ⟨⟨hk ▸ h.known, hrec ▸ h.peerID, hk ▸ h.others, hb ▸ h.blocked, hv ▸ h.vpn,
    hn ▸ h.now⟩, hrec⟩

lemma upsertPeer (h : Undisturbed key s₀ s) (kp : KnownPeer) (hid : kp.peerID = key) :
    Undisturbed key s₀ (s.upsertPeer kp) ∧ record key (s.upsertPeer kp) = kp := by
  have hlook : (s.upsertPeer kp).conf.knownPeers.lookup key = some kp := by
    subst hid
    exact Finmap.lookup_insert _
  have hrec : record key (s.upsertPeer kp) = kp := by
    rw [record, Config.getPeer, hlook, Option.getD_some]
  refine ⟨⟨Finmap.mem_iff.mpr ⟨kp, hlook⟩, ?_, ?_, h.blocked, h.vpn, h.now⟩, hrec⟩
  · rw [hrec]
    exact hid
  rw [← h.others]
  refine Finmap.ext_lookup fun k => ?_
  by_cases hk : k = key
  · rw [hk, Finmap.lookup_erase, Finmap.lookup_erase]
  · rw [Finmap.lookup_erase_ne hk, Finmap.lookup_erase_ne hk]
    exact Finmap.lookup_insert_of_ne _ (hid ▸ hk)

/-- The aliases taken: the one of the peer, and those of the others. -/
lemma aliases (h : Undisturbed key s₀ s) :
    s.conf.aliases = insert (record key s).peerAlias (s₀.conf.removePeer key).aliases := by
  ext a
  rw [Finset.mem_insert, Config.mem_aliases, Config.mem_aliases]
  constructor
  · rintro ⟨k, kp, hk, rfl⟩
    by_cases he : k = key
    · left
      rw [record, Config.getPeer, ← he, hk, Option.getD_some]
    · right
      exact ⟨k, kp, by rw [Config.removePeer, Finmap.lookup_erase_ne he, ← h.lookup_other he, hk],
        rfl⟩
  · rintro (rfl | ⟨k, kp, hk, rfl⟩)
    · exact ⟨key, _, h.getPeer, rfl⟩
    · have he : k ≠ key := by
        rintro rfl
        rw [Config.removePeer, Finmap.lookup_erase] at hk
        cases hk
      rw [Config.removePeer, Finmap.lookup_erase_ne he, ← h.lookup_other he] at hk
      exact ⟨k, kp, hk, rfl⟩

/-- What holds of every other record holds still. -/
lemma forall_entries (h : Undisturbed key s₀ s) {p : KnownPeer → Prop}
    (hkey : ∀ kp, kp.peerID = key → p kp)
    (h₀ : ∀ e ∈ s₀.conf.knownPeers.entries, p e.2) : ∀ e ∈ s.conf.knownPeers.entries, p e.2 := by
  rintro ⟨k, kp⟩ he
  have hk := GoMap.mem_entries.mp he
  by_cases hek : k = key
  · subst hek
    have hrec : record k s = kp := by rw [record, Config.getPeer, hk, Option.getD_some]
    exact hkey kp (hrec ▸ h.peerID)
  · rw [h.lookup_other hek] at hk
    exact h₀ ⟨k, kp⟩ (GoMap.mem_entries.mpr hk)

/-- A request that is accepted will be, whatever becomes of the record. -/
lemma accepts {env : Env} {req : UpdatePeerSettingsRequest} {kp : KnownPeer}
    (h : Undisturbed req.peerID s₀ s) (hid : kp.peerID = req.peerID)
    (hacc : Api.Accepts env s₀.conf req kp) :
    Api.Accepts env s.conf req (record req.peerID s) where
  valid := hacc.valid
  domain := hacc.domain
  known := h.getPeer
  uniq := by
    have h₀ := hacc.uniq
    simp only [Config.isUniqPeerAlias, decide_eq_true_eq] at h₀ ⊢
    exact h.forall_entries (p := fun kp => kp.peerID = req.peerID ∨
      kp.peerAlias ≠ trimSpace req.peerAlias) (fun kp hkp => Or.inl hkp) h₀
  ip := by
    have hne : req.peerID ≠ "" := by
      have hvalid := hacc.valid
      simp only [Api.validSettings, Bool.and_eq_true, decide_eq_true_eq] at hvalid
      exact hvalid.1.1.1.1
    have h₀ := hacc.ip
    have hnet : s.conf.vpnNet = s₀.conf.vpnNet := Config.vpnNet_congr h.vpn
    rw [hid, Config.checkIPUnique_eq_ok] at h₀
    rw [h.peerID, Config.checkIPUnique_eq_ok, hnet]
    refine ⟨h₀.1, ?_⟩
    exact h.forall_entries (p := fun kp => kp.ipAddr = req.ipAddr →
      req.peerID ≠ "" ∧ kp.peerID = req.peerID) (fun kp hkp _ => ⟨hne, hkp⟩) h₀.2

end Undisturbed

end Awl
