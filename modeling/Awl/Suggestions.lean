import Awl.AllocLoop
import Awl.FriendCalls
import Mathlib.Data.Finset.Sort
import Mathlib.Data.String.Basic

/-!
The addresses suggested for the pending auth requests, and what becomes of them while the user
accepts one request after the other.

The allocator is called once for each request, with the addresses that it has generated before
as the exclusion list. So the suggestions are the addresses that follow the largest one in use.
-/

namespace Awl

open NetIP PeerCodec Text AuthStatus

/-- `entity.AuthRequest`. -/
structure AuthRequest where
  authPeer : AuthPeer
  peerID : String
  suggestedIP : String
  deriving DecidableEq

namespace Api

/-- The loop of `GetAuthRequests`; `order i` is the order in which the allocator visits the known
peers when `i` addresses have been generated. -/
def suggestIPs (conf : Config) (order : ℕ → List String)
    (authRequestsMap : GoMap String AuthPeer) : List String → List String →
    Option (List AuthRequest)
  | [], _ => some []
  | peerID :: peerIDs, generatedIPs => do
    let req := (authRequestsMap.lookup peerID).getD ⟨""⟩
    let suggestedIP ← conf.generateNextIpAddrExceptBy (order generatedIPs.length) generatedIPs
    let rest ← suggestIPs conf order authRequestsMap peerIDs (generatedIPs ++ [suggestedIP])
    return ⟨req, peerID, suggestedIP⟩ :: rest

/-- `GetAuthRequests`, from the pending requests and the configuration it has read. -/
def getAuthRequests (conf : Config) (order : ℕ → List String)
    (authRequestsMap : GoMap String AuthPeer) : Option (List AuthRequest) :=
  suggestIPs conf order authRequestsMap (authRequestsMap.keys.sort (· ≤ ·)) []

end Api

/-! ### The addresses above the largest one in use -/

namespace Config

/-- The `i`-th address above the largest one in use. -/
def above (c : Config) (i : ℕ) : IP := putUint32 (uint32 c.maxIp + 1 + i)

/-- The texts of the first of them. -/
def suggestions (c : Config) (i : ℕ) : List String :=
  (List.range i).map fun j => ipString (c.above j)

variable {c : Config} {l : IP} {n i j : ℕ}

lemma uint32_above (hi : uint32 c.maxIp + 1 + i < 4294967296) :
    uint32 (c.above i) = uint32 c.maxIp + 1 + i := uint32_putUint32 hi

lemma above_inj (hi : uint32 c.maxIp + 1 + i < 4294967296)
    (hj : uint32 c.maxIp + 1 + j < 4294967296) (h : ipString (c.above i) = ipString (c.above j)) :
    i = j := by
  have hnum := congrArg uint32 (ipString_inj rfl rfl h)
  rw [uint32_above hi, uint32_above hj] at hnum
  omega

lemma suggestions_nodup (hi : uint32 c.maxIp + i < 4294967296) : (c.suggestions i).Nodup := by
  refine List.Nodup.map_on (fun x hx y hy heq => ?_) List.nodup_range
  rw [List.mem_range] at hx hy
  exact above_inj (by omega) (by omega) heq

lemma suggestions_succ (c : Config) (i : ℕ) :
    c.suggestions (i + 1) = c.suggestions i ++ [ipString (c.above i)] := by
  simp [suggestions, List.range_succ]

/-- Once the first of them are excluded, the allocator comes to the next. -/
lemma InNet.generate_above (h : c.InNet l n) {ks : List String}
    (hks : GoMap.Ranges c.knownPeers ks) (hi : uint32 c.maxIp + 1 + i < 4294967296) :
    c.generateNextIpAddrExceptBy ks (c.suggestions i) = some (ipString (c.above i)) := by
  have hlocal : c.vpnLocalIPMask.1.length = 4 := by
    rw [h.eq]
    exact h.four
  rw [generateNextIpAddrExceptBy_eq h.not_allocPanics hlocal hks, generateNextIpAddrExcept,
    nextIpAddr_eq (c.suggestions i) i, Nat.mod_eq_of_lt hi, above]
  · intro j hj
    rw [Nat.mod_eq_of_lt (by omega)]
    exact List.mem_map.2 ⟨j, List.mem_range.2 hj, rfl⟩
  · rw [Nat.mod_eq_of_lt hi]
    intro hex
    obtain ⟨j, hj, heq⟩ := List.mem_map.1 hex
    rw [List.mem_range] at hj
    have := above_inj (by omega) hi heq
    omega
  · simp [suggestions]

/-- They are above the local address and above those of the peers in the network. -/
lemma InNet.above_ne (h : c.InNet l n) (hi : uint32 c.maxIp + 1 + i < 4294967296) :
    c.above i ≠ c.vpnLocalIPMask.1 ∧
      ∀ e ∈ c.knownPeers.entries, c.vpnNet.contains e.2.ip4 = true → c.above i ≠ e.2.ip4 := by
  have hbelow := (h.maxIp_lt_iff (uint32 (c.above i))).1 (by rw [uint32_above hi]; omega)
  refine ⟨fun heq => ?_, fun e he hin heq => ?_⟩
  · rw [← heq] at hbelow
    exact lt_irrefl _ hbelow.1
  · have hlt := hbelow.2 e he hin
    rw [← heq] at hlt
    exact lt_irrefl _ hlt

end Config

namespace Api

/-- The request of a peer with the address suggested for it. -/
def suggested (conf : Config) (authRequestsMap : GoMap String AuthPeer) (i : ℕ) (peerID : String) :
    AuthRequest :=
  ⟨(authRequestsMap.lookup peerID).getD ⟨""⟩, peerID, ipString (conf.above i)⟩

variable {c : Config} {l : IP} {n : ℕ} {order : ℕ → List String}

/-- The loop, when `i` addresses have been generated. -/
lemma suggestIPs_eq (h : c.InNet l n) (horder : ∀ i, GoMap.Ranges c.knownPeers (order i))
    (m : GoMap String AuthPeer) (peerIDs : List String) : ∀ i,
    uint32 c.maxIp + i + peerIDs.length < 4294967296 →
    suggestIPs c order m peerIDs (c.suggestions i) =
      some (peerIDs.mapIdx fun j => suggested c m (i + j)) := by
  induction peerIDs with
  | nil => exact fun _ _ => rfl
  | cons peerID peerIDs ih =>
    intro i hroom
    rw [List.length_cons] at hroom
    have hnext := h.generate_above (horder (c.suggestions i).length) (i := i) (by omega)
    have hrest := ih (i + 1) (by omega)
    have hshift : (fun j => suggested c m (i + 1 + j)) = fun j => suggested c m (i + (j + 1)) := by
      funext j
      rw [Nat.add_right_comm, Nat.add_assoc]
    rw [c.suggestions_succ, hshift] at hrest
    simp only [suggestIPs, hnext, Option.bind_eq_bind, Option.bind_some, hrest,
      List.mapIdx_cons]
    rfl

/-- **What is suggested**: the addresses that follow the largest one in use, in the order of the
peer IDs. -/
lemma getAuthRequests_eq (h : c.InNet l n) (horder : ∀ i, GoMap.Ranges c.knownPeers (order i))
    (m : GoMap String AuthPeer) (hroom : uint32 c.maxIp + m.keys.card < 4294967296) :
    getAuthRequests c order m = some ((m.keys.sort (· ≤ ·)).mapIdx (suggested c m)) := by
  have hloop := suggestIPs_eq h horder m (m.keys.sort (· ≤ ·)) 0
    (by rw [Finset.length_sort, Nat.add_zero]; exact hroom)
  simp only [Nat.zero_add] at hloop
  exact hloop

variable (c) (m : GoMap String AuthPeer) (peerIDs : List String)

lemma map_peerID_suggested :
    (peerIDs.mapIdx (suggested c m)).map AuthRequest.peerID = peerIDs :=
  List.ext_getElem (by simp) (by simp [suggested])

lemma map_suggestedIP_suggested :
    (peerIDs.mapIdx (suggested c m)).map AuthRequest.suggestedIP = c.suggestions peerIDs.length :=
  List.ext_getElem (by simp [Config.suggestions]) (by simp [suggested, Config.suggestions])

end Api

/-! ### While requests are accepted -/

/-- No known peer has the address, if it is one of the network. -/
def Config.Offers (c : Config) (ip : IP) : Prop :=
  c.vpnNet.contains ip = true → ∀ e ∈ c.knownPeers.entries, e.2.ipAddr ≠ ipString ip

namespace Config.Offers

variable {c c' : Config} {ip : IP}

lemma not_used (h : c.Offers ip) (hip : ip.length = 4) (exceptPeerID : String) :
    c.checkIPUnique (ipString ip) exceptPeerID ≠ .used := by
  have haddr : parseAddr (ipString ip) = some (.v4 ip) := by
    obtain ⟨a, b, x, d, rfl⟩ := exists_four hip
    exact parseAddr_dotted a b x d
  simp only [checkIPUnique, haddr, Addr.as4]
  by_cases hin : c.vpnNet.contains ip = true
  · have hall : ∀ e ∈ c.knownPeers.entries, e.2.ipAddr = ipString ip →
        exceptPeerID ≠ "" ∧ e.2.peerID = exceptPeerID :=
      fun e he heq => absurd heq (h hin e he)
    rw [if_neg (not_not.2 hin), if_pos hall]
    decide
  · rw [if_pos hin]
    decide

/-- A record is written, with another address. -/
lemma insert (h : c.Offers ip) {key : String} {peer : KnownPeer}
    (hvpn : c'.vpnConfig = c.vpnConfig) (hk : c'.knownPeers = c.knownPeers.insert key peer)
    (hne : peer.ipAddr ≠ ipString ip) : c'.Offers ip := by
  rintro hin ⟨k, kp⟩ he
  rw [vpnNet_congr hvpn] at hin
  have hl := GoMap.mem_entries.1 he
  rw [hk, GoMap.lookup_insert_ite] at hl
  split_ifs at hl with hkey
  · cases hl
    exact hne
  · exact h hin ⟨k, kp⟩ (GoMap.mem_entries.2 hl)

end Config.Offers

lemma ipString_ne_empty {ip : IP} (h : ip.length = 4) : ipString ip ≠ "" := by
  obtain ⟨a, b, c, d, rfl⟩ := exists_four h
  exact dotted_ne_empty a b c d

variable {ID : Type} [PeerCodec ID]

/-- What happens while the user goes through the requests: one of them is accepted with the address
suggested, or a status is exchanged with some peer. -/
inductive Review (ID : Type) [PeerCodec ID]
  | accept (r : AuthRequest) (peerAlias : String)
  | statusExchange (y : ID) (hy : y ≠ zero) (x : Exchange) (net : Req ID → Resp)

namespace Review

/-- The request that is accepted. -/
def accepts : Review ID → Option AuthRequest
  | accept r _ => some r
  | statusExchange .. => none

variable [DecidableEq ID] {env : Env} {s : Node ID} {ip : IP}

def run (env : Env) (s : Node ID) : Review ID → Node ID
  | accept r peerAlias =>
    (Api.acceptFriend env { peerID := r.peerID, peerAlias := peerAlias, ipAddr := r.suggestedIP } :
      Prog ID Answer).code.finish silent s
  | statusExchange y hy x net => (Operation.statusExchange y hy x net).run env s

omit [DecidableEq ID] in
/-- A call with an address of its own writes a record with that address. -/
lemma offers_takeCall (h : s.conf.Offers ip) {c : AddCall ID} (hne : c.ipAddr ≠ "")
    (hother : c.ipAddr ≠ ipString ip) : (s.takeCall env c).conf.Offers ip := by
  rcases ho : c.outcome env s with e | peer
  · rwa [Node.takeCall_error ho]
  · obtain ⟨-, -, ipAddr, hchoose, rfl⟩ := AddCall.outcome_ok ho
    obtain ⟨blocked, hconf, -⟩ := Node.takeCall_ok ho
    rw [hconf]
    rcases chooseIP_eq_ok hchoose with ⟨hempty, -⟩ | ⟨-, rfl, -⟩
    · exact absurd hempty hne
    · exact h.insert rfl rfl hother

omit [DecidableEq ID] in
/-- A status leaves the address of a record as it is. -/
lemma offers_takeStatus (h : s.conf.Offers ip) (hip : ip.length = 4) (y : ID)
    (info : PeerStatusInfo) : (s.takeStatus env y info).conf.Offers ip := by
  rcases hk : s.conf.getPeer (string y) with _ | kp
  · refine h.insert rfl (Node.takeStatus_known (by rw [hk])) ?_
    rw [recorded_ipAddr]
    exact (ipString_ne_empty hip).symm
  · by_cases hin : s.conf.vpnNet.contains ip = true
    · refine h.insert rfl (Node.takeStatus_known (by rw [hk])) ?_
      rw [recorded_ipAddr]
      exact h hin ⟨_, kp⟩ (GoMap.mem_entries.2 hk)
    · exact fun hin' => absurd hin' hin

lemma offers_run (h : s.conf.Offers ip) (hip : ip.length = 4) (e : Review ID)
    (he : ∀ r ∈ e.accepts, r.suggestedIP ≠ "" ∧ r.suggestedIP ≠ ipString ip) :
    (e.run env s).conf.Offers ip := by
  cases e with
  | accept r peerAlias =>
    obtain ⟨hne, hother⟩ := he r rfl
    rcases Api.finish_acceptFriend env silent
      { peerID := r.peerID, peerAlias := peerAlias, ipAddr := r.suggestedIP } s with
      hrun | ⟨-, peerID, name, hrun⟩
    · rw [run, hrun]
      rcases hc : Api.accepted env s
        { peerID := r.peerID, peerAlias := peerAlias, ipAddr := r.suggestedIP } with _ | c
      · exact h
      · have hipAddr := (Api.accepted_eq_some hc).2.2.2.2
        exact offers_takeCall h (hipAddr ▸ hne) (hipAddr ▸ hother)
    · rw [run, hrun]
      exact h
  | statusExchange y hy x net =>
    have hsame : Node.Same _ ((Operation.statusExchange y hy x net).run env s) :=
      Operation.run_statusExchange y hy x net
    rw [run, hsame.conf]
    rcases x.hears y net s with _ | info
    · exact h
    · exact offers_takeStatus h hip y info

/-- The same over a run. -/
lemma offers_foldl (hip : ip.length = 4) (es : List (Review ID))
    (hes : ∀ e ∈ es, ∀ r ∈ e.accepts, r.suggestedIP ≠ "" ∧ r.suggestedIP ≠ ipString ip) :
    ∀ {s : Node ID}, s.conf.Offers ip → (es.foldl (run env) s).conf.Offers ip := by
  induction es with
  | nil => exact fun h => h
  | cons e es ih =>
    exact fun h => ih (fun e' he' => hes e' (List.mem_cons_of_mem _ he'))
      (offers_run h hip e (hes e List.mem_cons_self))

end Review

/-- An address above the largest one in use is nobody's. -/
lemma Config.InNet.offers_above {c : Config} {l : IP} {n i : ℕ} (h : c.InNet l n)
    (hi : uint32 c.maxIp + 1 + i < 4294967296) : c.Offers (c.above i) := by
  intro hin e he heq
  have hip : e.2.ip4 = c.above i := ip4_of_ipAddr rfl heq
  exact (h.above_ne hi).2 e he (by rw [hip, hin]) hip.symm

/-- **Suggested addresses never collide**: not with one another, nor with an address in use, nor
with those of the requests that are accepted before. The allocator ends for each request within
the steps it is given, one more than the addresses generated before. -/
theorem suggestedIPs_apart [DecidableEq ID] (env : Env) (s : Node ID) {ip : IP} {ipNet : IPNet}
    (hcidr : parseCIDR s.conf.vpnConfig.ipNet = some (ip, ipNet)) (hmask : ipNet.mask.length = 4)
    (order : ℕ → List String) (horder : ∀ i, GoMap.Ranges s.conf.knownPeers (order i))
    (m : GoMap String AuthPeer) (hroom : uint32 s.conf.maxIp + m.keys.card < 4294967296) :
    ∃ requests, Api.getAuthRequests s.conf order m = some requests ∧
      requests.map AuthRequest.peerID = m.keys.sort (· ≤ ·) ∧
      (requests.map AuthRequest.suggestedIP).Nodup ∧
      (∀ r ∈ requests, to4 (parseIP r.suggestedIP) ≠ s.conf.vpnLocalIPMask.1 ∧
        ∀ e ∈ s.conf.knownPeers.entries, s.conf.vpnNet.contains e.2.ip4 = true →
          to4 (parseIP r.suggestedIP) ≠ e.2.ip4) ∧
      ∀ es : List (Review ID), (∀ e ∈ es, ∀ r ∈ e.accepts, r ∈ requests) →
        ∀ r ∈ requests, (∀ e ∈ es, r ∉ e.accepts) → ∀ exceptPeerID,
          (es.foldl (Review.run env) s).conf.checkIPUnique r.suggestedIP exceptPeerID ≠ .used := by
  obtain ⟨l, n, hnet⟩ := Config.InNet.of_parseCIDR hcidr hmask
  set peerIDs := m.keys.sort (· ≤ ·) with hpeerIDs
  have hlen : peerIDs.length = m.keys.card := Finset.length_sort _
  have hnodup : ((peerIDs.mapIdx (Api.suggested s.conf m)).map AuthRequest.suggestedIP).Nodup := by
    rw [Api.map_suggestedIP_suggested, hlen]
    exact Config.suggestions_nodup hroom
  -- Each request has one of the addresses above the largest one in use.
  have habove : ∀ r ∈ peerIDs.mapIdx (Api.suggested s.conf m), ∃ i,
      uint32 s.conf.maxIp + 1 + i < 4294967296 ∧ r.suggestedIP = ipString (s.conf.above i) := by
    intro r hr
    obtain ⟨i, hi, rfl⟩ := List.mem_mapIdx.1 hr
    exact ⟨i, by omega, rfl⟩
  refine ⟨_, Api.getAuthRequests_eq hnet horder m hroom, Api.map_peerID_suggested _ _ _, hnodup,
    fun r hr => ?_, fun es hes r hr hremains exceptPeerID => ?_⟩
  · obtain ⟨i, hi, htext⟩ := habove r hr
    rw [htext, to4_parseIP_ipString rfl]
    exact hnet.above_ne hi
  · obtain ⟨i, hi, htext⟩ := habove r hr
    rw [htext]
    refine (Review.offers_foldl rfl es (fun e he r' hr' => ?_) (hnet.offers_above hi)).not_used
      rfl exceptPeerID
    obtain ⟨i', -, htext'⟩ := habove r' (hes e he r' hr')
    refine ⟨htext' ▸ ipString_ne_empty rfl, fun heq => hremains e he ?_⟩
    rwa [List.inj_on_of_nodup_map hnodup hr (hes e he r' hr') (htext.trans heq.symm)]

section

open BootstrapPeer

/-- A node that knows a peer, with auth requests of two others. -/
def visitedNode : Node BootstrapPeer where
  conf := conf [(rus2, "10.66.0.7")]
  disk := conf [(rus2, "10.66.0.7")]
  ingoingAuths := Finmap.insert cze1 ⟨"office"⟩ (Finmap.singleton ita1 ⟨"laptop"⟩)
  outgoingAuths := ∅
  now := 0
  history := []

/-- One of the two requests is accepted. -/
theorem twoRequests_apart :
    ∃ requests, Api.getAuthRequests visitedNode.conf (fun _ => [rus2.text])
        visitedNode.getIngoingAuthRequests = some requests ∧
      (requests.map AuthRequest.suggestedIP).Nodup ∧
      ∀ r ∈ requests, ∀ r' ∈ requests, r ≠ r' →
        ((Review.accept r "friend").run sampleEnv visitedNode).conf.checkIPUnique r'.suggestedIP
          "" ≠ .used := by
  have hcidr : parseCIDR visitedNode.conf.vpnConfig.ipNet =
      some (v4InV6Prefix ++ [10, 66, 0, 1], ⟨[10, 66, 0, 0], [255, 255, 255, 0]⟩) := rfl
  obtain ⟨requests, hrequests, -, hnodup, -, hchecked⟩ := suggestedIPs_apart sampleEnv visitedNode
    hcidr rfl (fun _ => [rus2.text]) (fun _ => by decide) visitedNode.getIngoingAuthRequests
    (by decide)
  refine ⟨requests, hrequests, hnodup, fun r hr r' hr' hne => ?_⟩
  refine hchecked [.accept r "friend"] ?_ r' hr' ?_ ""
  · simpa [Review.accepts] using hr
  · simpa [Review.accepts] using hne

end

end Awl
