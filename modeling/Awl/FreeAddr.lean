import Awl.Alloc
import Mathlib.Data.Finset.Card
import Mathlib.Data.Finset.Range

/-!
The allocator with an exclusion list, against the check an address has to pass.

The allocator goes up from the largest address in use and around at the end of all addresses,
until it comes to one that is not excluded. It does not look at the network again, so that the
free addresses below the largest one in use do not count.
-/

namespace Awl

open NetIP

/-- The address that is this number is in the exclusion list. -/
def Excluded (except : List String) (v : ℕ) : Prop := ipString (putUint32 v) ∈ except

lemma ipString_inj {x y : IP} (hx : x.length = 4) (hy : y.length = 4)
    (h : ipString x = ipString y) : x = y := by
  obtain ⟨a, b, c, d, rfl⟩ := exists_four hx
  obtain ⟨a', b', c', d', rfl⟩ := exists_four hy
  exact dotted_inj h

lemma to4_parseIP_ipString {ip : IP} (h : ip.length = 4) : to4 (parseIP (ipString ip)) = ip := by
  obtain ⟨a, b, c, d, rfl⟩ := exists_four h
  exact to4_parseIP_dotted a b c d

lemma ip4_of_ipAddr {kp : KnownPeer} {ip : IP} (hip : ip.length = 4)
    (h : kp.ipAddr = ipString ip) : kp.ip4 = ip := by
  rw [KnownPeer.ip4, h, to4_parseIP_ipString hip]

lemma excluded_uint32 (except : List String) {ip : IP} (h : ip.length = 4) :
    Excluded except (uint32 ip) ↔ ipString ip ∈ except := by
  obtain ⟨a, b, c, d, rfl⟩ := exists_four h
  rw [Excluded, putUint32_uint32]

namespace Config

/-! ### The search -/

/-- The search comes to the first address that is not excluded. -/
lemma nextIpAddr_eq (except : List String) : ∀ (j fuel : ℕ) (ip : IP),
    (∀ i < j, Excluded except ((uint32 ip + 1 + i) % 4294967296)) →
    ¬ Excluded except ((uint32 ip + 1 + j) % 4294967296) → j < fuel →
    nextIpAddr except fuel ip =
      some (ipString (putUint32 ((uint32 ip + 1 + j) % 4294967296))) := by
  intro j
  induction j with
  | zero =>
    intro fuel ip _ hfirst hfuel
    obtain ⟨fuel, rfl⟩ : ∃ f, fuel = f + 1 := ⟨fuel - 1, by omega⟩
    have hnext : ipString (incrementIPAddr ip) ∉ except := hfirst
    rw [nextIpAddr, if_neg hnext, incrementIPAddr, Nat.add_zero]
  | succ j ih =>
    intro fuel ip hall hfirst hfuel
    obtain ⟨fuel, rfl⟩ : ∃ f, fuel = f + 1 := ⟨fuel - 1, by omega⟩
    have hshift : ∀ i, (uint32 (incrementIPAddr ip) + 1 + i) % 4294967296 =
        (uint32 ip + 1 + (i + 1)) % 4294967296 := by
      intro i
      rw [uint32_incrementIPAddr]
      omega
    have hnext : ipString (incrementIPAddr ip) ∈ except := hall 0 (by omega)
    have hrest := ih fuel (incrementIPAddr ip)
      (fun i hi => by rw [hshift]; exact hall (i + 1) (by omega))
      (by rw [hshift]; exact hfirst) (by omega)
    rw [nextIpAddr, if_pos hnext, hrest, hshift]

/-- If some address is not excluded, the search makes at most one step for each entry of the
list. -/
lemma exists_first (except : List String) (v : ℕ) {u : ℕ} (hu : u < 4294967296)
    (hfree : ¬ Excluded except u) :
    ∃ j < 4294967296, j ≤ except.length ∧
      (∀ i < j, Excluded except ((v + 1 + i) % 4294967296)) ∧
      ¬ Excluded except ((v + 1 + j) % 4294967296) := by
  classical
  have hex : ∃ j, ¬ Excluded except ((v + 1 + j) % 4294967296) := by
    refine ⟨u + 4294967296 - (v + 1) % 4294967296, ?_⟩
    rwa [show (v + 1 + (u + 4294967296 - (v + 1) % 4294967296)) % 4294967296 = u by omega]
  have hlt : Nat.find hex < 4294967296 := by
    refine lt_of_le_of_lt (Nat.find_min' hex
      (m := (u + 4294967296 - (v + 1) % 4294967296) % 4294967296) ?_) (Nat.mod_lt _ (by norm_num))
    rwa [show (v + 1 + (u + 4294967296 - (v + 1) % 4294967296) % 4294967296) % 4294967296 = u by
      omega]
  have hall : ∀ i < Nat.find hex, Excluded except ((v + 1 + i) % 4294967296) :=
    fun i hi => not_not.1 (Nat.find_min hex hi)
  refine ⟨Nat.find hex, hlt, ?_, hall, Nat.find_spec hex⟩
  -- The addresses passed over are different entries of the list.
  have hcard := Finset.card_le_card_of_injOn (s := Finset.range (Nat.find hex))
    (t := except.toFinset) (fun i => ipString (putUint32 ((v + 1 + i) % 4294967296)))
    (fun i hi => List.mem_toFinset.2 (hall i (Finset.mem_range.1 hi))) (by
      intro i hi i' hi' heq
      have hi := Finset.mem_range.1 hi
      have hi' := Finset.mem_range.1 hi'
      have hnum := congrArg uint32 (ipString_inj rfl rfl heq)
      rw [uint32_putUint32 (Nat.mod_lt _ (by norm_num)),
        uint32_putUint32 (Nat.mod_lt _ (by norm_num))] at hnum
      omega)
  rw [Finset.card_range] at hcard
  exact hcard.trans (List.toFinset_card_le except)

/-- **What the allocator finds**: the first address after the largest one in use, around at the
end of all addresses, that is not excluded. -/
lemma generateNextIpAddrExcept_eq (c : Config) (except : List String) {u : ℕ}
    (hu : u < 4294967296) (hfree : ¬ Excluded except u) :
    ∃ j < 4294967296, c.generateNextIpAddrExcept except =
        some (ipString (putUint32 ((uint32 c.maxIp + 1 + j) % 4294967296))) ∧
      (∀ i < j, Excluded except ((uint32 c.maxIp + 1 + i) % 4294967296)) ∧
      ¬ Excluded except ((uint32 c.maxIp + 1 + j) % 4294967296) := by
  obtain ⟨j, hj, hlen, hall, hfirst⟩ := exists_first except (uint32 c.maxIp) hu hfree
  exact ⟨j, hj, nextIpAddr_eq except j _ _ hall hfirst (by omega), hall, hfirst⟩

/-- What the check says of the text of a four-byte address. -/
lemma checkIPUnique_ipString {c : Config} {ip : IP} (h : ip.length = 4) :
    c.checkIPUnique (ipString ip) "" = .ok ↔
      c.vpnNet.contains ip = true ∧ ∀ e ∈ c.knownPeers.entries, e.2.ipAddr ≠ ipString ip := by
  obtain ⟨x, y, z, w, rfl⟩ := exists_four h
  rw [checkIPUnique_eq_ok]
  simp [ipString, parseAddr_dotted, Addr.as4]

/-! ### When the search ends in the network -/

/-- Some address of the network that is above the local one and above those of all peers in the
network is not excluded. -/
def RoomAbove (c : Config) (except : List String) : Prop :=
  ∃ ip : IP, ip.length = 4 ∧ c.vpnNet.contains ip = true ∧ ipString ip ∉ except ∧
    uint32 c.vpnLocalIPMask.1 < uint32 ip ∧
    ∀ e ∈ c.knownPeers.entries, c.vpnNet.contains e.2.ip4 = true → uint32 e.2.ip4 < uint32 ip

/-- Every address outside the network is excluded, and the first one in the network that is not
is not the address of a peer. -/
def RoomAround (c : Config) (except : List String) : Prop :=
  (∀ ip : IP, ip.length = 4 → c.vpnNet.contains ip = false → ipString ip ∈ except) ∧
    ∃ ip : IP, ip.length = 4 ∧ c.vpnNet.contains ip = true ∧ ipString ip ∉ except ∧
      (∀ ip' : IP, ip'.length = 4 → c.vpnNet.contains ip' = true → uint32 ip' < uint32 ip →
        ipString ip' ∈ except) ∧
      ∀ e ∈ c.knownPeers.entries, e.2.ipAddr ≠ ipString ip

end Config

/-- The first number after `m`, around at `w`, that is not excluded: which ones have been passed
over. -/
lemma passed_over {Ex : ℕ → Prop} {m w j : ℕ} (hm : m < w)
    (hall : ∀ i < j, Ex ((m + 1 + i) % w)) {u : ℕ} (hu : u < w) :
    (m < u → u < m + 1 + j → Ex u) ∧ (u ≤ m → u + w < m + 1 + j → Ex u) := by
  refine ⟨fun hlt hj => ?_, fun hle hj => ?_⟩
  · have := hall (u - (m + 1)) (by omega)
    rwa [Nat.add_sub_cancel' (by omega), Nat.mod_eq_of_lt hu] at this
  · have := hall (u + w - (m + 1)) (by omega)
    rwa [Nat.add_sub_cancel' (by omega), Nat.add_mod_right, Nat.mod_eq_of_lt hu] at this

lemma parseIPv4Fields_length {cs : List Char} {ip : IP} (h : parseIPv4Fields cs = some ip) :
    ip.length = 4 := by
  unfold parseIPv4Fields at h
  split at h
  · simp only [Option.bind_eq_bind, Option.bind_eq_some_iff] at h
    obtain ⟨a, -, b, -, c, -, d, -, h⟩ := h
    cases h
    rfl
  · cases h

lemma parseAddr_v4_length {s : String} {ip : IP} (h : parseAddr s = some (.v4 ip)) :
    ip.length = 4 := by
  unfold parseAddr at h
  split at h
  · obtain ⟨ip', hip, heq⟩ := Option.map_eq_some_iff.1 h
    cases heq
    exact parseIPv4Fields_length hip
  · simp only [parseIPv6] at h
    split at h
    · cases h
    · obtain ⟨ip', -, heq⟩ := Option.map_eq_some_iff.1 h
      cases heq
  · cases h

namespace Config.InNet

variable {c : Config} {l : IP} {n : ℕ}

/-- An `IPNet` is an IPv4 network if its mask has four bytes. -/
lemma of_parseCIDR {ip : IP} {ipNet : IPNet}
    (h : parseCIDR c.vpnConfig.ipNet = some (ip, ipNet)) (hmask : ipNet.mask.length = 4) :
    ∃ l n, c.InNet l n := by
  have hlocal : c.vpnLocalIPMask = (to4 ip, ipNet.mask) := by rw [vpnLocalIPMask, h]
  simp only [parseCIDR] at h
  split at h
  · cases h
  · split at h
    · cases h
    · next addr haddr =>
      split_ifs at h with hbad
      cases h
      push Not at hbad
      cases addr with
      | v4 x =>
        have hx := parseAddr_v4_length haddr
        obtain ⟨a, b, y, d, rfl⟩ := exists_four hx
        exact ⟨[a, b, y, d], _, hx, hbad.2.2.2,
          by rw [hlocal]; simp [Addr.as16, Addr.bitLen, to4, v4InV6Prefix]⟩
      | v6 x zone => simp [Addr.bitLen, cidrMask] at hmask

/-- The network as an interval. -/
lemma contains_iff (h : c.InNet l n) {ip : IP} (hip : ip.length = 4) :
    c.vpnNet.contains ip = true ↔
      uint32 l / 2 ^ (32 - n) * 2 ^ (32 - n) ≤ uint32 ip ∧
        uint32 ip ≤ blockTop (uint32 l) (32 - n) := by
  rw [h.net, netOf_contains h.le h.four hip]
  constructor
  · intro heq
    refine ⟨?_, le_blockTop heq⟩
    rw [← heq]
    exact Nat.div_mul_le_self _ _
  · rintro ⟨hge, hle⟩
    have hpos : 0 < 2 ^ (32 - n) := by positivity
    rw [blockTop] at hle
    exact Nat.div_eq_of_lt_le hge (by rw [Nat.add_mul, Nat.one_mul]; omega)

/-- To be above the largest address in use is to be above each of them. -/
lemma maxIp_lt_iff (h : c.InNet l n) (u : ℕ) :
    uint32 c.maxIp < u ↔ uint32 c.vpnLocalIPMask.1 < u ∧
      ∀ e ∈ c.knownPeers.entries, c.vpnNet.contains e.2.ip4 = true → uint32 e.2.ip4 < u := by
  have hlocal : c.vpnLocalIPMask.1 = l := by rw [h.eq]
  rw [hlocal]
  constructor
  · intro hlt
    refine ⟨lt_of_le_of_lt (by rw [h.uint32_maxIp]; exact le_max_left _ _) hlt, ?_⟩
    intro e he hin
    have h4 := h.ip4_length hin
    rw [h.net, netOf_contains h.le h.four h4] at hin
    exact lt_of_le_of_lt (h.le_maxIp (GoMap.mem_entries.1 he) h4 hin) hlt
  · rintro ⟨hl, hpeers⟩
    rcases h.maxIp_cases.2 with heq | ⟨k, kp, hk, h4, heq⟩
    · rwa [heq]
    · rw [← heq]
      refine hpeers ⟨k, kp⟩ (GoMap.mem_entries.2 hk) ?_
      rw [h.net, netOf_contains h.le h.four h4, heq]
      exact h.maxIp_cases.1

/-- The largest address in use lies in the network, and the network among all addresses. -/
lemma maxIp_mem (h : c.InNet l n) :
    uint32 l / 2 ^ (32 - n) * 2 ^ (32 - n) ≤ uint32 c.maxIp ∧
      uint32 c.maxIp ≤ blockTop (uint32 l) (32 - n) ∧
      blockTop (uint32 l) (32 - n) < 4294967296 := by
  obtain ⟨hlen, hlast⟩ := h.lastAddr_eq
  have hin := (h.contains_iff (maxIp_length c)).1 (by
    rw [h.net, netOf_contains h.le h.four (maxIp_length c)]
    exact h.maxIp_cases.1)
  rw [← hlast] at hin ⊢
  exact ⟨hin.1, hin.2, uint32_lt_of_length hlen⟩

lemma roomAbove_iff (h : c.InNet l n) (except : List String) :
    c.RoomAbove except ↔ ∃ v, uint32 c.maxIp < v ∧ v ≤ blockTop (uint32 l) (32 - n) ∧
      ¬ Excluded except v := by
  obtain ⟨hbottom, -, htop⟩ := h.maxIp_mem
  constructor
  · rintro ⟨ip, hip, hin, hfree, habove⟩
    exact ⟨uint32 ip, (h.maxIp_lt_iff _).2 habove, ((h.contains_iff hip).1 hin).2,
      fun hex => hfree ((excluded_uint32 except hip).1 hex)⟩
  · rintro ⟨v, hlt, hle, hfree⟩
    have hv : uint32 (putUint32 v) = v := uint32_putUint32 (lt_of_le_of_lt hle htop)
    refine ⟨putUint32 v, rfl, (h.contains_iff rfl).2 ?_, hfree, ?_⟩
    · rw [hv]
      exact ⟨by omega, hle⟩
    · rw [hv]
      exact (h.maxIp_lt_iff v).1 hlt

variable {except : List String} {j : ℕ}

/-- With room above, the address found is a new one of the network. -/
lemma found_above (h : c.InNet l n)
    (hall : ∀ i < j, Excluded except ((uint32 c.maxIp + 1 + i) % 4294967296))
    (hroom : c.RoomAbove except) :
    c.checkIPUnique (ipString (putUint32 ((uint32 c.maxIp + 1 + j) % 4294967296))) "" = .ok := by
  obtain ⟨hbottom, -, htop⟩ := h.maxIp_mem
  obtain ⟨v, hlt, hle, hfree⟩ := (h.roomAbove_iff except).1 hroom
  have hjv : uint32 c.maxIp + 1 + j ≤ v := by
    by_contra hgt
    exact hfree ((passed_over (by omega) hall (by omega)).1 hlt (by omega))
  have hr : (uint32 c.maxIp + 1 + j) % 4294967296 = uint32 c.maxIp + 1 + j :=
    Nat.mod_eq_of_lt (by omega)
  have hnum : uint32 (putUint32 (uint32 c.maxIp + 1 + j)) = uint32 c.maxIp + 1 + j :=
    uint32_putUint32 (by omega)
  have hin : c.vpnNet.contains (putUint32 (uint32 c.maxIp + 1 + j)) = true := by
    rw [h.contains_iff rfl, hnum]
    omega
  rw [hr, checkIPUnique_ipString rfl]
  refine ⟨hin, fun e he heq => ?_⟩
  -- A peer with this address would be above the largest one in use.
  have hip : e.2.ip4 = putUint32 (uint32 c.maxIp + 1 + j) := ip4_of_ipAddr rfl heq
  have hbelow := ((h.maxIp_lt_iff (uint32 c.maxIp + 1 + j)).1 (by omega)).2 e he (by rw [hip, hin])
  rw [hip, hnum] at hbelow
  omega

/-- Without room above, an address of the network that is not excluded is below the largest one in
use. -/
lemma le_maxIp_of_free (h : c.InNet l n) (hroom : ¬ c.RoomAbove except) {ip : IP}
    (hip : ip.length = 4) (hin : c.vpnNet.contains ip = true) (hfree : ipString ip ∉ except) :
    uint32 ip ≤ uint32 c.maxIp := by
  by_contra hgt
  refine hroom ((h.roomAbove_iff except).2 ⟨uint32 ip, by omega, ?_, ?_⟩)
  · exact ((h.contains_iff hip).1 hin).2
  · rwa [excluded_uint32 except hip]

/-- An address found at or below the largest one in use is found by going around. All that lie
between have been passed over. -/
lemma excluded_of_around (h : c.InNet l n) (hj : j < 4294967296)
    (hall : ∀ i < j, Excluded except ((uint32 c.maxIp + 1 + i) % 4294967296)) {found ip : IP}
    (hfound : uint32 found = (uint32 c.maxIp + 1 + j) % 4294967296)
    (hle : uint32 found ≤ uint32 c.maxIp) (hip : ip.length = 4)
    (hbetween : uint32 c.maxIp < uint32 ip ∨ uint32 ip < uint32 found) :
    ipString ip ∈ except := by
  obtain ⟨-, hmax, htop⟩ := h.maxIp_mem
  have hlt := uint32_lt_of_length hip
  have hsteps : uint32 c.maxIp + 1 + j = uint32 found + 4294967296 := by omega
  have hpassed := passed_over (show uint32 c.maxIp < 4294967296 by omega) hall hlt
  rw [← excluded_uint32 except hip]
  rcases hbetween with hgt | hbelow
  · exact hpassed.1 hgt (by omega)
  · exact hpassed.2 (by omega) (by omega)

/-- Without room above, the address found is one of the network only if all others are
excluded. -/
lemma found_around (h : c.InNet l n) (hj : j < 4294967296)
    (hall : ∀ i < j, Excluded except ((uint32 c.maxIp + 1 + i) % 4294967296))
    (hfirst : ¬ Excluded except ((uint32 c.maxIp + 1 + j) % 4294967296))
    (hroom : ¬ c.RoomAbove except) :
    c.checkIPUnique (ipString (putUint32 ((uint32 c.maxIp + 1 + j) % 4294967296))) "" = .ok ↔
      c.RoomAround except := by
  have hnum : uint32 (putUint32 ((uint32 c.maxIp + 1 + j) % 4294967296)) =
      (uint32 c.maxIp + 1 + j) % 4294967296 := uint32_putUint32 (Nat.mod_lt _ (by norm_num))
  have hlen : (putUint32 ((uint32 c.maxIp + 1 + j) % 4294967296)).length = 4 := rfl
  have hfree : ipString (putUint32 ((uint32 c.maxIp + 1 + j) % 4294967296)) ∉ except := hfirst
  generalize putUint32 ((uint32 c.maxIp + 1 + j) % 4294967296) = found at hnum hlen hfree ⊢
  have hpassed : uint32 found ≤ uint32 c.maxIp → ∀ {ip : IP}, ip.length = 4 →
      uint32 c.maxIp < uint32 ip ∨ uint32 ip < uint32 found → ipString ip ∈ except :=
    fun hle _ hip => h.excluded_of_around hj hall hnum hle hip
  rw [checkIPUnique_ipString hlen]
  constructor
  · rintro ⟨hin, hpeers⟩
    have hle := h.le_maxIp_of_free hroom hlen hin hfree
    have hin' := (h.contains_iff hlen).1 hin
    have hmem := h.maxIp_mem
    refine ⟨fun ip hip hout => ?_, found, hlen, hin, hfree, fun ip hip _ hlt => ?_, hpeers⟩
    · have hout' : ¬ (c.vpnNet.contains ip = true) := by
        rw [hout]
        exact Bool.false_ne_true
      rw [h.contains_iff hip] at hout'
      exact hpassed hle hip (by omega)
    · exact hpassed hle hip (Or.inr hlt)
  · rintro ⟨hout, ip, hip, hin, hnot, hlow, hpeers⟩
    have hfin : c.vpnNet.contains found = true := by
      by_contra hc
      exact hfree (hout found hlen (Bool.eq_false_iff.2 hc))
    have hle := h.le_maxIp_of_free hroom hlen hfin hfree
    have heq : found = ip := by
      refine uint32_inj hlen hip (le_antisymm ?_ ?_)
      · by_contra hgt
        exact hnot (hpassed hle hip (Or.inr (by omega)))
      · by_contra hgt
        exact hfree (hlow found hlen hfin (by omega))
    exact ⟨hfin, heq ▸ hpeers⟩

end Config.InNet

/-- **The allocator and the check agree**, as long as some address of the network is free, exactly
if there is room above the largest address in use, or around at the end of all addresses. -/
theorem Config.generateNextIpAddrExcept_checked_iff (c : Config) {ip : IP} {ipNet : IPNet}
    (hcidr : parseCIDR c.vpnConfig.ipNet = some (ip, ipNet)) (hmask : ipNet.mask.length = 4)
    (except : List String)
    (hfree : ∃ free : IP, free.length = 4 ∧ c.vpnNet.contains free = true ∧
      free ≠ c.vpnLocalIPMask.1 ∧ ¬ c.Holds free ∧ ipString free ∉ except) :
    (∃ newIp, c.generateNextIpAddrExcept except = some newIp ∧
        c.checkIPUnique newIp "" = .ok ∧ newIp ∉ except) ↔
      c.RoomAbove except ∨ c.RoomAround except := by
  obtain ⟨l, n, hnet⟩ := InNet.of_parseCIDR hcidr hmask
  obtain ⟨free, h4, -, -, -, hnot⟩ := hfree
  obtain ⟨j, hj, hfound, hall, hfirst⟩ := c.generateNextIpAddrExcept_eq except
    (uint32_lt_of_length h4) (fun hex => hnot ((excluded_uint32 except h4).1 hex))
  have hchecked : (∃ newIp, c.generateNextIpAddrExcept except = some newIp ∧
      c.checkIPUnique newIp "" = .ok ∧ newIp ∉ except) ↔
      c.checkIPUnique (ipString (putUint32 ((uint32 c.maxIp + 1 + j) % 4294967296))) "" = .ok := by
    rw [hfound]
    constructor
    · rintro ⟨newIp, heq, hok, -⟩
      cases heq
      exact hok
    · exact fun hok => ⟨_, rfl, hok, hfirst⟩
  rw [hchecked]
  by_cases hroom : c.RoomAbove except
  · exact iff_of_true (hnet.found_above hall hroom) (Or.inl hroom)
  · rw [hnet.found_around hj hall hfirst hroom, or_iff_right hroom]

lemma Config.not_holds_iff {c : Config} {ip : IP} :
    ¬ c.Holds ip ↔ ∀ e ∈ c.knownPeers.entries, e.2.ip4 ≠ ip := by
  constructor
  · exact fun h e he hip => h ⟨e.1, e.2, GoMap.mem_entries.1 he, hip⟩
  · rintro h ⟨k, kp, hk, hip⟩
    exact h ⟨k, kp⟩ (GoMap.mem_entries.2 hk) hip

section

open BootstrapPeer

/-- A peer has the last address of the network. -/
theorem lastTaken_outside :
    (∃ free : IP, free.length = 4 ∧ (conf [(rus2, "10.66.0.255")]).vpnNet.contains free = true ∧
      free ≠ (conf [(rus2, "10.66.0.255")]).vpnLocalIPMask.1 ∧
      ¬ (conf [(rus2, "10.66.0.255")]).Holds free ∧ ipString free ∉ ([] : List String)) ∧
    (conf [(rus2, "10.66.0.255")]).generateNextIpAddrExcept [] = some "10.66.1.0" ∧
    (conf [(rus2, "10.66.0.255")]).checkIPUnique "10.66.1.0" "" = .outside := by
  refine ⟨⟨[10, 66, 0, 2], rfl, by decide, by decide, ?_, by decide⟩, by decide, by decide⟩
  rw [Config.not_holds_iff]
  decide

/-- One peer in the middle of the network, the address above it excluded. -/
theorem roomAbove_checked :
    ∃ newIp, (conf [(rus2, "10.66.0.7")]).generateNextIpAddrExcept ["10.66.0.8"] = some newIp ∧
      (conf [(rus2, "10.66.0.7")]).checkIPUnique newIp "" = .ok ∧ newIp ∉ ["10.66.0.8"] := by
  have hcidr : parseCIDR (conf [(rus2, "10.66.0.7")]).vpnConfig.ipNet =
      some (v4InV6Prefix ++ [10, 66, 0, 1], ⟨[10, 66, 0, 0], [255, 255, 255, 0]⟩) := rfl
  refine ((conf [(rus2, "10.66.0.7")]).generateNextIpAddrExcept_checked_iff hcidr rfl ["10.66.0.8"]
    ⟨[10, 66, 0, 2], rfl, by decide, by decide, ?_, by decide⟩).2
    (Or.inl ⟨[10, 66, 0, 9], rfl, by decide, by decide, by decide, by decide⟩)
  rw [Config.not_holds_iff]
  decide

end

end Awl
