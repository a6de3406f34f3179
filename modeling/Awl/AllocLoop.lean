import Awl.FreeAddr

/-!
The loop of the allocator over the known peers, in the order in which `range` visits them, with
the panic of `binary.BigEndian.Uint32` on an address that has no four bytes.

The order does not matter: the loop either panics in all of them or comes to the largest address
in use.
-/

namespace Awl

open NetIP

/-- `binary.BigEndian.Uint32`; `none` is a panic. -/
def uint32Checked (ip : IP) : Option ℕ := if ip.length < 4 then none else some (uint32 ip)

lemma uint32Checked_four {ip : IP} (h : ip.length = 4) : uint32Checked ip = some (uint32 ip) :=
  if_neg (by omega)

namespace Config

/-- The body of the loop. -/
def raiseMaxIp (ipNet : IPNet) (maxIp : Option IP) (known : KnownPeer) : Option IP := do
  let maxIp ← maxIp
  if parseIP known.ipAddr = [] then return maxIp
  let ip := known.ip4
  if !ipNet.contains ip then return maxIp
  if (← uint32Checked ip) > (← uint32Checked maxIp) then return ip
  return maxIp

/-- The loop, in the order `ks`. -/
def maxIpLoop (c : Config) (ks : List String) : Option IP :=
  GoMap.rangeLoop c.knownPeers (fun maxIp _ known => raiseMaxIp c.vpnNet maxIp known)
    (some c.vpnLocalIPMask.1) ks

/-- `GenerateNextIpAddrExcept`, whose loop visits the known peers in the order `ks`. -/
def generateNextIpAddrExceptBy (c : Config) (ks : List String) (except : List String) :
    Option String := do
  let maxIp ← c.maxIpLoop ks
  let _ ← uint32Checked maxIp
  nextIpAddr except (except.length + 1) maxIp

/-- The loop comes upon an address that is no IPv4 one and yet passes for one of the network. -/
def AllocPanics (c : Config) : Prop :=
  c.vpnNet.contains [] = true ∧
    ∃ e ∈ c.knownPeers.entries, parseIP e.2.ipAddr ≠ [] ∧ e.2.ip4 = []

/-! ### One peer -/

section

variable {c : Config} {known : KnownPeer}

/-- The body raises the address to that of the peer, if it is one of the network. -/
lemma raiseMaxIp_some (c : Config) {ip : IP} (hip : ip.length = 4)
    (hknown : c.vpnNet.contains [] = true → parseIP known.ipAddr ≠ [] → known.ip4 ≠ []) :
    ∃ ip', raiseMaxIp c.vpnNet (some ip) known = some ip' ∧ ip'.length = 4 ∧
      uint32 ip' = max (uint32 ip) (c.candidate known) := by
  by_cases hparse : parseIP known.ipAddr = []
  · exact ⟨ip, by simp [raiseMaxIp, hparse], hip, by simp [candidate, hparse]⟩
  by_cases hin : c.vpnNet.contains known.ip4 = true
  · have h4 : known.ip4.length = 4 := by
      rcases to4_length (parseIP known.ipAddr) with h0 | h4
      · exact absurd h0 (hknown (h0 ▸ hin) hparse)
      · exact h4
    have hcand : c.candidate known = uint32 known.ip4 := if_pos ⟨hparse, hin⟩
    by_cases hlt : uint32 ip < uint32 known.ip4
    · exact ⟨known.ip4, by simp [raiseMaxIp, hparse, hin, uint32Checked_four, h4, hip, hlt], h4,
        by rw [hcand, max_eq_right hlt.le]⟩
    · exact ⟨ip, by simp [raiseMaxIp, hparse, hin, uint32Checked_four, h4, hip, hlt], hip,
        by rw [hcand, max_eq_left (by omega)]⟩
  · exact ⟨ip, by simp [raiseMaxIp, hparse, hin], hip, by simp [candidate, hin]⟩

/-- The body panics on such an address, and the loop does not recover. -/
lemma raiseMaxIp_none (hnet : c.vpnNet.contains [] = true) (hparse : parseIP known.ipAddr ≠ [])
    (h0 : known.ip4 = []) (maxIp : Option IP) : raiseMaxIp c.vpnNet maxIp known = none := by
  cases maxIp with
  | none => rfl
  | some ip => simp [raiseMaxIp, hparse, h0, hnet, uint32Checked]

end

/-! ### The whole loop -/

variable {c : Config} {ks : List String}

lemma AllocPanics.maxIpLoop (h : c.AllocPanics) (hks : GoMap.Ranges c.knownPeers ks) :
    c.maxIpLoop ks = none := by
  obtain ⟨hnet, ⟨k, kp⟩, he, hparse, h0⟩ := h
  have hk := GoMap.mem_entries.1 he
  have hstay : ∀ ks, GoMap.rangeLoop c.knownPeers
      (fun maxIp _ known => raiseMaxIp c.vpnNet maxIp known) none ks = none := fun ks =>
    GoMap.rangeLoop_inv (· = none) (fun s _ v _ hs => by rw [hs]; rfl) rfl ks
  obtain ⟨before, rest, rfl⟩ :=
    List.append_of_mem ((hks.2 k).2 (Finmap.mem_of_lookup_eq_some hk))
  rw [Config.maxIpLoop, GoMap.rangeLoop, List.foldl_append, List.foldl_cons]
  simp only [hk, raiseMaxIp_none hnet hparse h0]
  exact hstay rest

/-- The loop over some of the keys, from any address. -/
lemma maxIpLoop_bound (h : ¬ c.AllocPanics) (ks : List String) : ∀ {ip : IP}, ip.length = 4 →
    ∃ ip', GoMap.rangeLoop c.knownPeers (fun maxIp _ known => raiseMaxIp c.vpnNet maxIp known)
        (some ip) ks = some ip' ∧ ip'.length = 4 ∧
      ∀ u, uint32 ip' ≤ u ↔ uint32 ip ≤ u ∧
        ∀ k ∈ ks, ∀ kp, c.knownPeers.lookup k = some kp → c.candidate kp ≤ u := by
  induction ks with
  | nil => exact fun hip => ⟨_, rfl, hip, fun u => by simp⟩
  | cons k ks ih =>
    intro ip hip
    rcases hk : c.knownPeers.lookup k with _ | kp
    · obtain ⟨ip', hloop, hlen, hbound⟩ := ih hip
      refine ⟨ip', by simpa only [GoMap.rangeLoop_cons, hk] using hloop, hlen, fun u => ?_⟩
      simp [hbound, hk]
    · obtain ⟨ip₁, hbody, hlen₁, hmax⟩ := raiseMaxIp_some c hip
        (fun hnet hparse h0 => h ⟨hnet, ⟨k, kp⟩, GoMap.mem_entries.2 hk, hparse, h0⟩)
      obtain ⟨ip', hloop, hlen, hbound⟩ := ih hlen₁
      refine ⟨ip', by simpa only [GoMap.rangeLoop_cons, hk, hbody] using hloop, hlen, fun u => ?_⟩
      simp [hbound, hk, hmax, and_assoc]

/-- **The order does not matter**: the loop comes to the largest address in use. -/
theorem maxIpLoop_eq (h : ¬ c.AllocPanics) (hlocal : c.vpnLocalIPMask.1.length = 4)
    (hks : GoMap.Ranges c.knownPeers ks) : c.maxIpLoop ks = some c.maxIp := by
  obtain ⟨ip, hloop, hlen, hbound⟩ := maxIpLoop_bound h ks hlocal
  rw [maxIpLoop, hloop]
  congr 1
  have hnum : uint32 ip = max (uint32 c.vpnLocalIPMask.1)
      (c.knownPeers.entries.map fun e => c.candidate e.2).sup := by
    refine eq_of_forall_ge_iff fun u => ?_
    rw [hbound, max_le_iff, Multiset.sup_le]
    refine and_congr_right fun _ => ⟨fun hall v hv => ?_, fun hall k _ kp hk => ?_⟩
    · obtain ⟨⟨k, kp⟩, he, rfl⟩ := Multiset.mem_map.1 hv
      have hk := GoMap.mem_entries.1 he
      exact hall k ((hks.2 k).2 (Finmap.mem_of_lookup_eq_some hk)) kp hk
    · exact hall _ (Multiset.mem_map.2 ⟨⟨k, kp⟩, GoMap.mem_entries.2 hk, rfl⟩)
  obtain ⟨a, b, x, d, rfl⟩ := exists_four hlen
  rw [maxIp, ← hnum, putUint32_uint32]

/-- The allocator, for every order. -/
lemma generateNextIpAddrExceptBy_eq (h : ¬ c.AllocPanics) (hlocal : c.vpnLocalIPMask.1.length = 4)
    (hks : GoMap.Ranges c.knownPeers ks) (except : List String) :
    c.generateNextIpAddrExceptBy ks except = c.generateNextIpAddrExcept except := by
  have hmax := uint32Checked_four (InNet.maxIp_length c)
  simp [generateNextIpAddrExceptBy, maxIpLoop_eq h hlocal hks, hmax, generateNextIpAddrExcept]

lemma generateNextIpAddrExceptBy_panics (h : c.AllocPanics) (hks : GoMap.Ranges c.knownPeers ks)
    (except : List String) : c.generateNextIpAddrExceptBy ks except = none := by
  rw [generateNextIpAddrExceptBy, h.maxIpLoop hks]
  rfl

/-- Without a local address there is nothing to go up from. -/
lemma generateNextIpAddrExceptBy_nil (h : c.vpnLocalIPMask.1 = []) (ks except : List String) :
    c.generateNextIpAddrExceptBy ks except = none := by
  have hloop : c.maxIpLoop ks = none ∨ c.maxIpLoop ks = some [] := by
    rw [maxIpLoop, h]
    refine GoMap.rangeLoop_inv (fun maxIp => maxIp = none ∨ maxIp = some []) ?_ (Or.inr rfl) ks
    rintro maxIp k known - (rfl | rfl)
    · exact Or.inl rfl
    · unfold raiseMaxIp
      by_cases hparse : parseIP known.ipAddr = []
      · simp [hparse]
      · by_cases hin : c.vpnNet.contains known.ip4 = true
        · simp [hparse, hin, uint32Checked]
        · simp [hparse, hin]
  rcases hloop with hnone | hnil
  · simp [generateNextIpAddrExceptBy, hnone]
  · simp [generateNextIpAddrExceptBy, hnil, uint32Checked]

lemma local_length (h : c.vpnLocalIPMask.1 ≠ []) : c.vpnLocalIPMask.1.length = 4 := by
  unfold vpnLocalIPMask at h ⊢
  split at h
  · exact absurd rfl h
  · next localIP ipNet _ => exact (to4_length localIP).resolve_left h

/-- **When the allocator returns**: in all orders, or in none. -/
lemma generateNextIpAddrExceptBy_isSome_iff (hks : GoMap.Ranges c.knownPeers ks) :
    (c.generateNextIpAddrExceptBy ks []).isSome = true ↔
      c.vpnLocalIPMask.1 ≠ [] ∧ ¬ c.AllocPanics := by
  by_cases hlocal : c.vpnLocalIPMask.1 = []
  · simp [generateNextIpAddrExceptBy_nil hlocal, hlocal]
  by_cases hpanics : c.AllocPanics
  · simp [generateNextIpAddrExceptBy_panics hpanics hks, hpanics]
  · rw [generateNextIpAddrExceptBy_eq hpanics (local_length hlocal) hks]
    simp [generateNextIpAddrExcept, nextIpAddr, hlocal, hpanics]

/-- In an IPv4 network nothing but IPv4 addresses passes for one of it. -/
lemma InNet.not_allocPanics {l : IP} {n : ℕ} (h : c.InNet l n) : ¬ c.AllocPanics := by
  rintro ⟨hnet, ⟨k, kp⟩, -, -, h0⟩
  have h4 : kp.ip4.length = 4 := h.ip4_length (by rw [h0]; exact hnet)
  rw [h0] at h4
  cases h4

end Config

end Awl
