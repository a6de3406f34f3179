import Awl.Alloc
import Awl.Runs
import Awl.Serial

/-!
No two known peers with one address: what keeps it so over runs of additions, changes of
settings, removals and restarts, made one after the other.

Two ways lead to a repetition. The allocator hands out the address above the network once the
last one is taken, and hands it out again. And the check of an explicit address compares
texts and passes over records with the ID of the peer it is for, so an address that another
record holds in another spelling, or under that ID, gets through.
-/

namespace Awl

open NetIP PeerCodec Text AuthStatus

namespace Config

/-- No two entries hold the same IPv4 address. -/
def Distinct (c : Config) : Prop :=
  ∀ k kp k' kp', c.knownPeers.lookup k = some kp → c.knownPeers.lookup k' = some kp' →
    kp.ip4 ≠ [] → kp.ip4 = kp'.ip4 → k = k'

/-- Whatever other record holds the address `ip` does so in the spelling `text` and under
another ID than `key`, where `CheckIPUnique` sees it. -/
def Visible (c : Config) (key text : String) (ip : IP) : Prop :=
  ∀ k kp, c.knownPeers.lookup k = some kp → k ≠ key → kp.ip4 = ip →
    kp.ipAddr = text ∧ (key = "" ∨ kp.peerID ≠ key)

/-- Two configurations give the same peers the same addresses. -/
def SameAddrs (c c' : Config) : Prop :=
  ∀ k, (c.knownPeers.lookup k).map KnownPeer.ipAddr = (c'.knownPeers.lookup k).map KnownPeer.ipAddr

lemma SameAddrs.get {c c' : Config} (h : c.SameAddrs c') {k : String} {kp' : KnownPeer}
    (hk : c'.knownPeers.lookup k = some kp') :
    ∃ kp, c.knownPeers.lookup k = some kp ∧ kp.ip4 = kp'.ip4 := by
  have hk' := h k
  rw [hk, Option.map_some, Option.map_eq_some_iff] at hk'
  obtain ⟨kp, hkp, he⟩ := hk'
  exact ⟨kp, hkp, by rw [KnownPeer.ip4, he, KnownPeer.ip4]⟩

lemma Distinct.of_sameAddrs {c c' : Config} (h : c.SameAddrs c') (hd : c.Distinct) :
    c'.Distinct := by
  intro k kp k' kp' hk hk' h0 he
  obtain ⟨kp₁, hk₁, e₁⟩ := h.get hk
  obtain ⟨kp₂, hk₂, e₂⟩ := h.get hk'
  exact hd k kp₁ k' kp₂ hk₁ hk₂ (e₁ ▸ h0) (by rw [e₁, e₂, he])

lemma Distinct.insert_iff {c c' : Config} (h : c.Distinct) {key : String} {peer : KnownPeer}
    (hc : c'.knownPeers = c.knownPeers.insert key peer) (hp : peer.ip4 ≠ []) :
    c'.Distinct ↔
      ∀ k kp, c.knownPeers.lookup k = some kp → k ≠ key → kp.ip4 ≠ peer.ip4 := by
  have hlook : ∀ k, c'.knownPeers.lookup k =
      if k = key then some peer else c.knownPeers.lookup k := fun k => by
    rw [hc, GoMap.lookup_insert_ite]
  constructor
  · intro hd k kp hk hne he
    exact hne (hd k kp key peer (by rw [hlook, if_neg hne, hk]) (by rw [hlook, if_pos rfl])
      (he ▸ hp) he)
  · intro hno k kp k' kp' hk hk' h0 he
    rw [hlook] at hk hk'
    split_ifs at hk hk' with e e' e'
    · exact e.trans e'.symm
    · cases hk
      exact absurd he.symm (hno k' kp' hk' e')
    · cases hk'
      exact absurd he (hno k kp hk e)
    · exact h k kp k' kp' hk hk' h0 he

lemma visible_of_free {c : Config} {key text : String} {ip : IP} (h : ¬ c.Holds ip) :
    c.Visible key text ip :=
  fun k kp hk _ he => absurd ⟨k, kp, hk, he⟩ h

/-- An address that passes the check is free exactly if the check could see its holders. -/
lemma free_iff_visible {c : Config} {key text : String} {ip : IP}
    (h : c.checkIPUnique text key = .ok) :
    (∀ k kp, c.knownPeers.lookup k = some kp → k ≠ key → kp.ip4 ≠ ip) ↔
      c.Visible key text ip := by
  constructor
  · intro hfree k kp hk hne he
    exact absurd he (hfree k kp hk hne)
  · intro hv k kp hk hne he
    obtain ⟨htext, hid⟩ := hv k kp hk hne he
    obtain ⟨-, hall⟩ := checkIPUnique_eq_ok.mp h
    obtain ⟨hkey, hsame⟩ := hall ⟨k, kp⟩ (GoMap.mem_entries.mpr hk) htext
    exact hid.elim hkey fun hne => hne hsame

end Config

/-- Four bytes of a dotted quad. -/
structure Quad where
  a : UInt8
  b : UInt8
  c : UInt8
  d : UInt8

def Quad.text (q : Quad) : String := dotted q.a q.b q.c q.d

def Quad.ip (q : Quad) : IP := [q.a, q.b, q.c, q.d]

/-- The calls and restarts that may change addresses; an explicit address is a dotted quad. -/
inductive AddressEvent (ID : Type)
  | addPeer (peerID : ID) (name peerAlias : String) (confirmed : Bool) (ip : Option Quad)
  | updatePeerSettings (peerID peerAlias domainName : String) (ip : Quad) (allow : Bool)
  | removePeer (req : PeerIDRequest)
  | restart (ks ks' : List String)

namespace AddressEvent

variable {ID : Type} [DecidableEq ID] [PeerCodec ID]

def step (env : Env) (s : Node ID) : AddressEvent ID → Node ID
  | addPeer peerID name peerAlias confirmed ip =>
    (AuthStatus.addPeer env peerID name peerAlias confirmed
      ((ip.map Quad.text).getD "")).serial s
  | updatePeerSettings peerID peerAlias domainName ip allow =>
    (Api.updatePeerSettings env ⟨peerID, peerAlias, domainName, ip.text, allow⟩ :
      Prog ID Answer).serial s
  | removePeer req => (Api.removePeer env req : Prog ID Answer).serial s
  | restart ks ks' => s.restart env ks ks'

/-- When an event keeps the addresses distinct: a generated address is not the one above the
network a second time, and an accepted explicit one is held only where the check sees it. -/
def Cond (env : Env) (s : Node ID) : AddressEvent ID → Prop
  | addPeer peerID _ peerAlias _ none => Admits s.conf peerID peerAlias → ¬ s.conf.Overflows
  | addPeer peerID _ peerAlias _ (some ip) =>
    Admits s.conf peerID peerAlias → s.conf.checkIPUnique ip.text (string peerID) = .ok →
      s.conf.Visible (string peerID) ip.text ip.ip
  | updatePeerSettings peerID peerAlias domainName ip allow =>
    ∀ kp, Api.Accepts env s.conf ⟨peerID, peerAlias, domainName, ip.text, allow⟩ kp →
      s.conf.Visible kp.peerID ip.text ip.ip
  | removePeer _ => True
  | restart _ _ => True

/-! ### One event -/

section

variable {ID : Type} {l : IP} {n : ℕ} {s s' : Node ID}

/-- What every event keeps: the network, IPv4 addresses only, and a disk with the same
addresses. -/
structure Inv (l : IP) (n : ℕ) (s : Node ID) : Prop where
  net : s.conf.InNet l n
  diskNet : s.disk.InNet l n
  four : ∀ {k kp}, s.conf.knownPeers.lookup k = some kp → kp.ip4.length = 4
  saved : s.disk.SameAddrs s.conf

/-- A saved configuration with the same network and IPv4 addresses only. -/
lemma Inv.save (h : Inv l n s) (hdisk : s'.disk = s'.conf)
    (hnet : s'.conf.vpnConfig = s.conf.vpnConfig)
    (hfour : ∀ {k kp}, s'.conf.knownPeers.lookup k = some kp → kp.ip4.length = 4) :
    Inv l n s' :=
  ⟨h.net.of_eq (by rw [hnet]), hdisk ▸ h.net.of_eq (by rw [hnet]), hfour,
    hdisk ▸ fun _ => rfl⟩

lemma Inv.upsert (h : Inv l n s) {peer : KnownPeer} (hdisk : s'.disk = s'.conf)
    (hnet : s'.conf.vpnConfig = s.conf.vpnConfig)
    (hpeers : s'.conf.knownPeers = s.conf.knownPeers.insert peer.peerID peer)
    (h4 : peer.ip4.length = 4) : Inv l n s' := by
  refine h.save hdisk hnet fun {k kp} hk => ?_
  rw [hpeers, GoMap.lookup_insert_ite] at hk
  split_ifs at hk
  · cases hk; exact h4
  · exact h.four hk

lemma ip4_quad {kp : KnownPeer} {q : Quad} (h : kp.ipAddr = q.text) : kp.ip4 = q.ip := by
  rw [KnownPeer.ip4, h]
  exact to4_parseIP_dotted q.a q.b q.c q.d

lemma ip4_generated {kp : KnownPeer} {c : Config} (h : kp.ipAddr = c.generateNextIpAddr) :
    kp.ip4 = incrementIPAddr c.maxIp := by
  rw [KnownPeer.ip4, h, Config.generateNextIpAddr_eq]
  exact to4_parseIP_dotted _ _ _ _

lemma ipAddr_ne_empty {kp : KnownPeer} (h : kp.ip4.length = 4) : kp.ipAddr ≠ "" := by
  intro he
  rw [KnownPeer.ip4, he] at h
  exact absurd h (by decide)

end

variable {env : Env} {l : IP} {n : ℕ} {s : Node ID}

omit [DecidableEq ID] in
/-- What `AddPeer` writes when it goes through. -/
lemma added_conf (peerID : ID) (peer : KnownPeer) :
    ((s.removeBlockedPeer peerID).upsertPeer peer).conf.knownPeers =
        s.conf.knownPeers.insert peer.peerID peer ∧
      ((s.removeBlockedPeer peerID).upsertPeer peer).conf.vpnConfig = s.conf.vpnConfig := by
  unfold Node.removeBlockedPeer
  dsimp only
  split_ifs <;> exact ⟨rfl, rfl⟩

/-- An addition that goes through keeps the addresses distinct exactly if nobody has the new
one. -/
lemma step_added (env : Env) (h : Inv l n s) (hd : s.conf.Distinct) {peerID : ID}
    (name : String) {peerAlias : String} (confirmed : Bool) {ipAddr ip : String} {ip4 : IP}
    (ha : Admits s.conf peerID peerAlias) (hip : chooseIP s.conf (string peerID) ipAddr = .ok ip)
    (h4 : ∀ kp : KnownPeer, kp.ipAddr = ip → kp.ip4 = ip4) (hlen : ip4.length = 4) :
    Inv l n ((AuthStatus.addPeer env peerID name peerAlias confirmed ipAddr).serial s) ∧
      (((AuthStatus.addPeer env peerID name peerAlias confirmed ipAddr).serial s).conf.Distinct ↔
        ∀ k kp, s.conf.knownPeers.lookup k = some kp → k ≠ string peerID → kp.ip4 ≠ ip4) := by
  rw [addPeer_added ha hip]
  set peer := newPeer env (string peerID) name (trimSpace peerAlias) ip confirmed s.now
  obtain ⟨hpeers, hnet⟩ := added_conf (s := s) peerID peer
  have hpip : peer.ip4 = ip4 := h4 peer rfl
  refine ⟨h.upsert rfl hnet hpeers (hpip ▸ hlen), ?_⟩
  rw [hd.insert_iff hpeers (by rw [hpip]; rintro rfl; simp at hlen), hpip]
  rfl

lemma step_addPeer (env : Env) (h : Inv l n s) (hd : s.conf.Distinct) (peerID : ID)
    (name peerAlias : String) (confirmed : Bool) (ip : Option Quad) :
    Inv l n (step env s (.addPeer peerID name peerAlias confirmed ip)) ∧
      ((step env s (.addPeer peerID name peerAlias confirmed ip)).conf.Distinct ↔
        Cond env s (.addPeer peerID name peerAlias confirmed ip)) := by
  by_cases ha : Admits s.conf peerID peerAlias
  · cases ip with
    | none =>
      obtain ⟨hi, hiff⟩ := step_added env h hd name confirmed ha
        (chooseIP_generated s.conf (string peerID)) (fun kp => ip4_generated)
        (incrementIPAddr_length _)
      refine ⟨hi, hiff.trans ?_⟩
      rw [Cond, ← h.net.next_held_iff]
      constructor
      · rintro hfree - ⟨k, kp, hk, he⟩
        have hne : k ≠ string peerID := by
          rintro rfl
          exact Option.some_ne_none kp (hk.symm.trans ha.1)
        exact hfree k kp hk hne he
      · exact fun hno k kp hk _ he => hno ha ⟨k, kp, hk, he⟩
    | some q =>
      have h0 : q.text ≠ "" := dotted_ne_empty q.a q.b q.c q.d
      by_cases hc : s.conf.checkIPUnique q.text (string peerID) = .ok
      · obtain ⟨hi, hiff⟩ := step_added env h hd name confirmed ha (chooseIP_ok h0 hc)
          (fun kp => ip4_quad) rfl
        refine ⟨hi, hiff.trans ?_⟩
        rw [Config.free_iff_visible hc]
        exact ⟨fun hv _ _ => hv, fun hv => hv ha hc⟩
      · obtain ⟨e, hip⟩ := chooseIP_error h0 hc
        have hsame : step env s (.addPeer peerID name peerAlias confirmed (some q)) = s :=
          addPeer_badIP hip
        rw [hsame]
        exact ⟨h, iff_of_true hd fun _ hc' => absurd hc' hc⟩
  · have hsame : step env s (.addPeer peerID name peerAlias confirmed ip) = s :=
      addPeer_refused ha
    rw [hsame]
    refine ⟨h, iff_of_true hd ?_⟩
    cases ip <;> exact fun ha' => absurd ha' ha

lemma step_updatePeerSettings (env : Env) (h : Inv l n s) (hd : s.conf.Distinct)
    (peerID peerAlias domainName : String) (ip : Quad) (allow : Bool) :
    Inv l n (step env s (.updatePeerSettings peerID peerAlias domainName ip allow)) ∧
      ((step env s (.updatePeerSettings peerID peerAlias domainName ip allow)).conf.Distinct ↔
        Cond env s (.updatePeerSettings peerID peerAlias domainName ip allow)) := by
  by_cases ha : ∃ kp, Api.Accepts env s.conf ⟨peerID, peerAlias, domainName, ip.text, allow⟩ kp
  · obtain ⟨kp, ha⟩ := ha
    have hstep := Api.updatePeerSettings_accepted ha
    simp only [step, hstep]
    set peer := Api.withSettings kp ⟨peerID, peerAlias, domainName, ip.text, allow⟩
    have hpip : peer.ip4 = ip.ip := ip4_quad rfl
    have hpeers : (s.upsertPeer peer).conf.knownPeers =
      s.conf.knownPeers.insert peer.peerID peer := rfl
    refine ⟨h.upsert rfl rfl hpeers (by rw [hpip]; rfl), ?_⟩
    rw [hd.insert_iff hpeers (by rw [hpip]; simp [Quad.ip]), hpip]
    have hfree : _ ↔ s.conf.Visible kp.peerID ip.text ip.ip := Config.free_iff_visible ha.ip
    refine hfree.trans ⟨fun hv kp' ha' => ?_, fun hc => hc kp ha⟩
    have he := ha.known.symm.trans ha'.known
    exact Option.some.inj he ▸ hv
  · have hno : ∀ kp, ¬ Api.Accepts env s.conf ⟨peerID, peerAlias, domainName, ip.text, allow⟩ kp :=
      fun kp hkp => ha ⟨kp, hkp⟩
    have hsame : step env s (.updatePeerSettings peerID peerAlias domainName ip allow) = s :=
      Api.updatePeerSettings_refused hno
    rw [hsame]
    exact ⟨h, iff_of_true hd fun kp hkp => absurd hkp (hno kp)⟩

lemma step_removePeer (env : Env) (h : Inv l n s) (hd : s.conf.Distinct) (req : PeerIDRequest) :
    Inv l n (step env s (.removePeer req)) ∧ (step env s (.removePeer req)).conf.Distinct := by
  rcases Api.removePeer_serial env req s with hsame | ⟨peerID, kp, -, hk, hstep⟩
  · simp only [step, hsame]
    exact ⟨h, hd⟩
  · simp only [step, hstep]
    have hget : ∀ {k kp'}, ((s.removePeer req.peerID).upsertBlockedPeer (string peerID)
        kp.displayName).conf.knownPeers.lookup k = some kp' →
        s.conf.knownPeers.lookup k = some kp' := by
      intro k kp' hk'
      have he : ((s.removePeer req.peerID).upsertBlockedPeer (string peerID)
          kp.displayName).conf.knownPeers = s.conf.knownPeers.erase req.peerID := by
        simp [Node.removePeer, hk, Node.upsertBlockedPeer, Node.save, Config.upsertBlockedPeer,
          Config.removePeer]
      rw [he, GoMap.lookup_erase_ite] at hk'
      split_ifs at hk'
      exact hk'
    refine ⟨h.save rfl ?_ fun hk' => h.four (hget hk'), ?_⟩
    · simp [Node.removePeer, hk, Node.upsertBlockedPeer, Node.save, Config.upsertBlockedPeer,
        Config.removePeer]
    · exact fun k kp₁ k' kp₂ h₁ h₂ => hd k kp₁ k' kp₂ (hget h₁) (hget h₂)

lemma step_restart (env : Env) (h : Inv l n s) (hd : s.conf.Distinct) (ks ks' : List String) :
    Inv l n (step env s (.restart ks ks')) ∧ (step env s (.restart ks ks')).conf.Distinct := by
  have hl := Config.setDefaults_loaded env ks s.disk
  have hfour : ∀ {k kp}, s.disk.knownPeers.lookup k = some kp → kp.ip4.length = 4 := by
    intro k kp hk
    obtain ⟨kp', hk', he⟩ := Config.SameAddrs.get (fun k => (h.saved k).symm) hk
    exact he ▸ h.four hk'
  have hsame : s.disk.SameAddrs (s.disk.setDefaults env ks) := by
    intro k
    rcases hk : (s.disk.setDefaults env ks).knownPeers.lookup k with _ | kp'
    · have hnot := (hl.keys k).not.mp (Finmap.lookup_eq_none.mp hk)
      rw [Finmap.lookup_eq_none.mpr hnot]
    · obtain ⟨kp, hkp, hf⟩ := hl.peers hk
      rw [hkp, Option.map_some, Option.map_some, hf.ipAddr (ipAddr_ne_empty (hfour hkp))]
  have hdisk : s.disk.Distinct := hd.of_sameAddrs fun k => (h.saved k).symm
  refine ⟨⟨h.diskNet.of_eq (hl.net ?_), h.diskNet, fun hk => ?_, hsame⟩, hdisk.of_sameAddrs hsame⟩
  · rw [h.diskNet.eq]
    exact List.ne_nil_of_length_eq_add_one h.diskNet.four
  · obtain ⟨kp', hk', he⟩ := hsame.get hk
    exact he ▸ hfour hk'

/-- **One event** keeps the invariant, and the addresses distinct exactly under its
condition. -/
lemma step_spec (env : Env) (h : Inv l n s) (hd : s.conf.Distinct) (e : AddressEvent ID) :
    Inv l n (step env s e) ∧ ((step env s e).conf.Distinct ↔ Cond env s e) := by
  cases e with
  | addPeer peerID name peerAlias confirmed ip =>
    exact step_addPeer env h hd peerID name peerAlias confirmed ip
  | updatePeerSettings peerID peerAlias domainName ip allow =>
    exact step_updatePeerSettings env h hd peerID peerAlias domainName ip allow
  | removePeer req =>
    obtain ⟨hi, hd'⟩ := step_removePeer env h hd req
    exact ⟨hi, iff_true_intro hd'⟩
  | restart ks ks' =>
    obtain ⟨hi, hd'⟩ := step_restart env h hd ks ks'
    exact ⟨hi, iff_true_intro hd'⟩

end AddressEvent

/-! ### Runs -/

/-- A node whose network is an IPv4 one and whose peers have distinct addresses in it, saved
on disk. -/
structure WellAddressed {ID : Type} (s : Node ID) : Prop where
  saved : s.disk = s.conf
  net : ∃ l n, s.conf.InNet l n
  inside : ∀ e ∈ s.conf.knownPeers.entries, e.2.ip4 ≠ [] ∧ s.conf.vpnNet.contains e.2.ip4 = true
  distinct : s.conf.Distinct

/-- **Addresses stay distinct exactly as long as every event meets its condition.** -/
theorem addresses_distinct_iff {ID : Type} [DecidableEq ID] [PeerCodec ID] (env : Env)
    {s : Node ID} (h : WellAddressed s) (es : List (AddressEvent ID)) :
    Runs.Holds (AddressEvent.step env) (fun s => s.conf.Distinct) s es ↔
      Runs.Meets (AddressEvent.step env) (AddressEvent.Cond env) s es := by
  obtain ⟨l, n, hnet⟩ := h.net
  have hinv : AddressEvent.Inv l n s := by
    refine ⟨hnet, h.saved ▸ hnet, fun hk => ?_, h.saved ▸ fun _ => rfl⟩
    exact (to4_length _).resolve_left (h.inside _ (GoMap.mem_entries.mpr hk)).1
  exact Runs.holds_iff_meets (I := AddressEvent.Inv l n)
    (fun s e hi hd => (AddressEvent.step_spec env hi hd e).1)
    (fun s e hi hd => (AddressEvent.step_spec env hi hd e).2) es s hinv h.distinct

section

open BootstrapPeer

/-- A build whose DNS library accepts every name. -/
def sampleEnv : Env where
  version := "1.0.0"
  darwin := false
  toLower := Char.toLower
  isDomainName := fun _ => true
  isIPv4 := fun s => to4 (parseIP s) ≠ []

/-- A fresh node in the default network. -/
def freshNode : Node BootstrapPeer where
  conf := BootstrapPeer.conf []
  disk := BootstrapPeer.conf []
  ingoingAuths := ∅
  outgoingAuths := ∅
  now := 0
  history := []

lemma freshNode_wellAddressed : WellAddressed freshNode := by
  refine ⟨rfl, ⟨[10, 66, 0, 1], 24, rfl, by norm_num, by decide⟩, ?_, ?_⟩
  · decide
  · intro k kp k' kp' hk
    simp [freshNode, BootstrapPeer.conf] at hk

/-- The last address by hand, then two generated ones. -/
def overflowRun : List (AddressEvent BootstrapPeer) :=
  [.addPeer rus2 "" "a" false (some ⟨10, 66, 0, 255⟩), .addPeer ita1 "" "b" false none,
    .addPeer cze1 "" "c" false none]

theorem overflowRun_repeats :
    WellAddressed freshNode ∧
      ¬ Runs.Holds (AddressEvent.step sampleEnv) (fun s => s.conf.Distinct) freshNode
        overflowRun := by
  refine ⟨freshNode_wellAddressed, fun h => ?_⟩
  have hlast : (overflowRun.foldl (AddressEvent.step sampleEnv) freshNode).conf.Distinct :=
    h.2.2.2
  have hget : ∀ id : BootstrapPeer, id = ita1 ∨ id = cze1 →
      ((overflowRun.foldl (AddressEvent.step sampleEnv) freshNode).conf.knownPeers.lookup
        id.text).map KnownPeer.ip4 = some [10, 66, 1, 0] := by
    rintro id (rfl | rfl) <;> decide
  obtain ⟨kp, hkp, hip⟩ := Option.map_eq_some_iff.mp (hget ita1 (Or.inl rfl))
  obtain ⟨kp', hkp', hip'⟩ := Option.map_eq_some_iff.mp (hget cze1 (Or.inr rfl))
  exact absurd (hlast _ _ _ _ hkp hkp' (by rw [hip]; simp) (hip.trans hip'.symm)) (by decide)

/-- Four peers come, the second with the last address, so that the third gets the one above
the network; the first moves, the second goes before the fourth comes, and the node starts
again. -/
def mixedRun : List (AddressEvent BootstrapPeer) :=
  [.addPeer rus2 "" "a" false none, .addPeer ita1 "" "b" false (some ⟨10, 66, 0, 255⟩),
    .addPeer cze1 "" "c" false none, .updatePeerSettings rus2.text "a" "a" ⟨10, 66, 0, 9⟩ false,
    .removePeer ⟨ita1.text⟩, .addPeer can1 "" "d" false none,
    .restart [can1.text, rus2.text, cze1.text] [cze1.text, can1.text, rus2.text]]

/-- What the run leaves behind, peer by peer. -/
def mixedRunAddrs : List (Option IP) :=
  [rus2, ita1, cze1, can1].map fun id =>
    ((mixedRun.foldl (AddressEvent.step sampleEnv) freshNode).conf.knownPeers.lookup
      id.text).map KnownPeer.ip4

theorem mixedRun_distinct :
    WellAddressed freshNode ∧
      Runs.Holds (AddressEvent.step sampleEnv) (fun s => s.conf.Distinct) freshNode mixedRun ∧
      mixedRunAddrs =
        [some [10, 66, 0, 9], none, some [10, 66, 1, 0], some [10, 66, 0, 10]] := by
  refine ⟨freshNode_wellAddressed, (addresses_distinct_iff sampleEnv freshNode_wellAddressed
    mixedRun).mpr ⟨?_, ?_, ?_, ?_, trivial, ?_, trivial, trivial⟩, by decide +kernel⟩
  · exact fun _ hover => absurd hover.2 (by decide +kernel)
  · exact fun _ _ => Config.visible_of_free (by decide +kernel)
  · exact fun _ hover => absurd hover.2 (by decide +kernel)
  · exact fun kp _ => Config.visible_of_free (by decide +kernel)
  · exact fun _ hover => absurd hover.1 (by decide +kernel)

end

end Awl
