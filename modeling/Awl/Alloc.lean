import Awl.NetworkAddr
import Awl.Packet

/-!
When the allocator repeats itself.

The allocator goes one up from the largest address in use. Below the last address of the
network that gives a new address of the network; from the last one it steps outside, always
to the same address, whether or not a peer holds it already.
-/

namespace Awl

open NetIP

namespace Config

/-- The last address of the network. -/
def lastAddr (c : Config) : IP :=
  getIPv4BroadcastAddress ⟨c.vpnLocalIPMask.1, c.vpnLocalIPMask.2⟩

/-- Some known peer has this address. -/
def Holds (c : Config) (ip : IP) : Prop :=
  ∃ k kp, c.knownPeers.lookup k = some kp ∧ kp.ip4 = ip

lemma exists_entry_iff_holds {c : Config} {ip : IP} :
    (¬ ∀ e ∈ c.knownPeers.entries, e.2.ip4 ≠ ip) ↔ c.Holds ip := by
  simp only [Holds, not_forall, not_not, ← GoMap.mem_entries]
  exact ⟨fun ⟨e, he, hip⟩ => ⟨e.1, e.2, he, hip⟩, fun ⟨k, kp, hk, hip⟩ => ⟨⟨k, kp⟩, hk, hip⟩⟩

instance (c : Config) (ip : IP) : Decidable (c.Holds ip) :=
  decidable_of_iff _ exists_entry_iff_holds

/-- The last address of the network is in use, by this node or by a peer. -/
def LastTaken (c : Config) : Prop := c.vpnLocalIPMask.1 = c.lastAddr ∨ c.Holds c.lastAddr

instance (c : Config) : Decidable c.LastTaken := inferInstanceAs (Decidable (_ ∨ _))

/-- The allocator is about to hand out an address that is already in use. -/
def Overflows (c : Config) : Prop := c.LastTaken ∧ c.Holds (incrementIPAddr c.lastAddr)

end Config

lemma incrementIPAddr_length (ip : IP) : (incrementIPAddr ip).length = 4 := rfl

lemma uint32_incrementIPAddr (ip : IP) :
    uint32 (incrementIPAddr ip) = (uint32 ip + 1) % 4294967296 :=
  uint32_putUint32 (Nat.mod_lt _ (by norm_num))

lemma uint32_lt_of_length {ip : IP} (h : ip.length = 4) : uint32 ip < 4294967296 := by
  obtain ⟨a, b, c, d, rfl⟩ := exists_four h
  exact uint32_lt a b c d

lemma sup_mem_or_zero (s : Multiset ℕ) : s.sup = 0 ∨ s.sup ∈ s := by
  induction s using Multiset.induction_on with
  | empty => exact Or.inl rfl
  | cons a s ih =>
    rw [Multiset.sup_cons]
    rcases le_total s.sup a with h | h
    · exact Or.inr (by rw [sup_eq_left.mpr h]; exact Multiset.mem_cons_self a s)
    · rw [sup_eq_right.mpr h]
      exact ih.imp id Multiset.mem_cons_of_mem

namespace Config.InNet

variable {c : Config} {l : IP} {n : ℕ}

lemma lastAddr_eq (h : c.InNet l n) :
    c.lastAddr.length = 4 ∧ uint32 c.lastAddr = blockTop (uint32 l) (32 - n) := by
  obtain ⟨a, b, x, d, rfl⟩ := exists_four h.four
  have he : c.lastAddr = [a ||| ~~~ maskByte n, b ||| ~~~ maskByte (n - 8),
      x ||| ~~~ maskByte (n - 16), d ||| ~~~ maskByte (n - 24)] := by
    rw [lastAddr, h.eq]
    simp [getIPv4BroadcastAddress, cidrMask_four, List.range_succ]
  rw [he]
  exact ⟨rfl, uint32_or_not_mask h.le a b x d⟩

/-- A peer whose address lies in the network has a four-byte one. -/
lemma ip4_length (h : c.InNet l n) {kp : KnownPeer} (hin : c.vpnNet.contains kp.ip4 = true) :
    kp.ip4.length = 4 := by
  rcases to4_length (parseIP kp.ipAddr) with h0 | h4
  · rw [KnownPeer.ip4, h0, h.net] at hin
    obtain ⟨a, b, x, d, rfl⟩ := exists_four h.four
    simp [IPNet.contains, netOf, networkNumberAndMask, mask, cidrMask_four, to4] at hin
  · exact h4

/-- The largest address in use is the local one or that of a peer, and lies in the network. -/
lemma maxIp_cases (h : c.InNet l n) :
    uint32 c.maxIp / 2 ^ (32 - n) = uint32 l / 2 ^ (32 - n) ∧
      (uint32 c.maxIp = uint32 l ∨ ∃ k kp, c.knownPeers.lookup k = some kp ∧
        kp.ip4.length = 4 ∧ uint32 kp.ip4 = uint32 c.maxIp) := by
  rw [h.uint32_maxIp]
  rcases le_total (c.knownPeers.entries.map fun e => c.candidate e.2).sup (uint32 l) with hle | hle
  · rw [max_eq_left hle]
    exact ⟨rfl, Or.inl rfl⟩
  · rw [max_eq_right hle]
    rcases sup_mem_or_zero (c.knownPeers.entries.map fun e => c.candidate e.2)
      with h0 | hmem
    · rw [h0] at hle ⊢
      have : uint32 l = 0 := by omega
      rw [this]
      exact ⟨rfl, Or.inl rfl⟩
    · obtain ⟨⟨k, kp⟩, he, hc⟩ := Multiset.mem_map.mp hmem
      rw [← hc] at hle ⊢
      unfold candidate at hle ⊢
      split_ifs at hle ⊢ with hin
      · have h4 : kp.ip4.length = 4 := h.ip4_length hin.2
        refine ⟨?_, Or.inr ⟨k, kp, GoMap.mem_entries.mp he, h4, rfl⟩⟩
        rw [← netOf_contains h.le h.four h4, ← h.net]
        exact hin.2
      · have : uint32 l = 0 := by omega
        rw [this]
        exact ⟨rfl, Or.inl rfl⟩

lemma maxIp_length (c : Config) : c.maxIp.length = 4 := rfl

/-- **The next address is in use exactly when the network is full at the top** and a peer has
been given the address above it. -/
theorem next_held_iff (h : c.InNet l n) :
    c.Holds (incrementIPAddr c.maxIp) ↔ c.Overflows := by
  obtain ⟨hlen, hlast⟩ := h.lastAddr_eq
  obtain ⟨hnet, hmax⟩ := h.maxIp_cases
  have hlocal : c.vpnLocalIPMask.1 = l := by rw [h.eq]
  constructor
  · rintro ⟨k, kp, hk, he⟩
    have h4 : kp.ip4.length = 4 := by rw [he]; rfl
    -- a peer of the network is below the next address
    have htop : c.maxIp = c.lastAddr := by
      refine uint32_inj rfl hlen ?_
      by_contra hne
      have hlt : uint32 c.maxIp < blockTop (uint32 l) (32 - n) :=
        lt_of_le_of_ne (le_blockTop hnet) (by rwa [hlast] at hne)
      have hnext : uint32 kp.ip4 = uint32 c.maxIp + 1 := by
        have := uint32_lt_of_length hlen
        rw [he, uint32_incrementIPAddr, Nat.mod_eq_of_lt (by omega)]
      have hle := h.le_maxIp hk h4 (by rw [hnext]; exact succ_div_of_lt_blockTop hnet hlt)
      omega
    refine ⟨?_, k, kp, hk, by rw [he, htop]⟩
    rcases hmax with hl | ⟨k', kp', hk', h4', hu⟩
    · exact Or.inl (by rw [hlocal, ← htop]; exact uint32_inj h.four rfl hl.symm)
    · exact Or.inr ⟨k', kp', hk', by rw [← htop]; exact uint32_inj h4' rfl hu⟩
  · rintro ⟨hlt, hnext⟩
    have htop : uint32 c.lastAddr ≤ uint32 c.maxIp := by
      rcases hlt with hl | ⟨k, kp, hk, he⟩
      · rw [← hl, hlocal, h.uint32_maxIp]
        exact le_max_left _ _
      · have h4 : kp.ip4.length = 4 := by rw [he, hlen]
        rw [← he]
        refine h.le_maxIp hk h4 ?_
        rw [he, hlast, blockTop_div]
    have he : c.maxIp = c.lastAddr :=
      uint32_inj rfl hlen (le_antisymm (hlast ▸ le_blockTop hnet) htop)
    rwa [he]

end Config.InNet

end Awl
