import Awl.FreeAddr

/-!
One address in several spellings. The check of an address parses it, but compares it with those of
the known peers as text; the tunnel tells addresses apart once they are parsed.
-/

namespace Awl

open NetIP

/-! ### Three parsers -/

/-- The bytes of an IPv6 address are sixteen at least. -/
lemma parseIPv6Bytes_length {s : List Char} {ip : IP} (h : parseIPv6Bytes s = some ip) :
    16 ≤ ip.length := by
  unfold parseIPv6Bytes at h
  simp only at h
  split at h
  · cases h
  · next ip₀ ell rest hstart =>
    split_ifs at h with hrest hshort hell
    · obtain ⟨e, -, rfl⟩ := Option.map_eq_some_iff.1 h
      simp only [List.length_append, List.length_take, List.length_replicate, List.length_drop]
      omega
    · cases h
      omega

/-- What passes the validation of a request is read as the same four bytes by `netip`. -/
lemma as4_of_valid {s : String} (h : to4 (parseIP s) ≠ []) :
    ∃ addr, parseAddr s = some addr ∧ addr.as4 = some (to4 (parseIP s)) := by
  rcases hp : parseAddr s with _ | addr
  · simp [parseIP, hp, to4] at h
  · refine ⟨addr, rfl, ?_⟩
    have hzone : addr.zone = [] := by
      by_contra hz
      simp [parseIP, hp, hz, to4] at h
    have hip : parseIP s = addr.as16 := by simp [parseIP, hp, hzone]
    rw [hip] at h ⊢
    cases addr with
    | v4 ip =>
      obtain ⟨a, b, c, d, rfl⟩ := exists_four (parseAddr_v4_length hp)
      simp [Addr.as4, Addr.as16, to4, v4InV6Prefix]
    | v6 ip zone =>
      have hlen : 16 ≤ ip.length := by
        unfold parseAddr at hp
        split at hp
        · obtain ⟨ip', -, heq⟩ := Option.map_eq_some_iff.1 hp
          cases heq
        · simp only [parseIPv6] at hp
          split at hp
          · cases hp
          · obtain ⟨ip', hip', heq⟩ := Option.map_eq_some_iff.1 hp
            cases heq
            exact parseIPv6Bytes_length hip'
        · cases hp
      have has16 : (Addr.v6 ip zone).as16 = ip := rfl
      rw [has16] at h ⊢
      rw [to4, if_neg (show ip.length ≠ 4 by omega)] at h ⊢
      split_ifs at h ⊢ with hmapped
      · rw [Addr.as4, if_pos hmapped.2]
      · exact absurd rfl h

namespace Config

/-- The check of an address that has passed the validation: it lies in the network, and no other
peer has the same text. -/
lemma checkIPUnique_ok_iff {c : Config} {checkIP exceptPeerID : String}
    (hvalid : to4 (parseIP checkIP) ≠ []) :
    c.checkIPUnique checkIP exceptPeerID = .ok ↔
      c.vpnNet.contains (to4 (parseIP checkIP)) = true ∧
      ∀ e ∈ c.knownPeers.entries, e.2.ipAddr = checkIP →
        exceptPeerID ≠ "" ∧ e.2.peerID = exceptPeerID := by
  obtain ⟨addr, haddr, has4⟩ := as4_of_valid hvalid
  rw [checkIPUnique_eq_ok]
  constructor
  · rintro ⟨⟨addr', ip, haddr', hip, hin⟩, hall⟩
    rw [haddr] at haddr'
    cases haddr'
    rw [has4] at hip
    cases hip
    exact ⟨hin, hall⟩
  · rintro ⟨hin, hall⟩
    exact ⟨⟨addr, _, haddr, has4, hin⟩, hall⟩

lemma checkIPUnique_ne_panics {c : Config} {checkIP : String} (exceptPeerID : String)
    (hvalid : to4 (parseIP checkIP) ≠ []) : c.checkIPUnique checkIP exceptPeerID ≠ .panics := by
  obtain ⟨addr, haddr, has4⟩ := as4_of_valid hvalid
  simp only [checkIPUnique, haddr, has4]
  split_ifs
  all_goals decide

/-- If another peer has the address in some spelling, then the check comes upon it in the spelling
of the request. -/
def SpelledAlike (c : Config) (checkIP exceptPeerID : String) : Prop :=
  (∃ e ∈ c.knownPeers.entries, e.2.peerID ≠ exceptPeerID ∧
    e.2.ip4 = to4 (parseIP checkIP)) →
  ∃ e ∈ c.knownPeers.entries, e.2.ipAddr = checkIP ∧
    (exceptPeerID = "" ∨ e.2.peerID ≠ exceptPeerID)

/-- **The check is sound on addresses** exactly if the address is outside the network or the peers
that have it write it as the request does. -/
theorem checkIPUnique_sound_iff (c : Config) {checkIP : String} (exceptPeerID : String)
    (hvalid : to4 (parseIP checkIP) ≠ []) :
    (c.checkIPUnique checkIP exceptPeerID ≠ .panics ∧
      (c.checkIPUnique checkIP exceptPeerID = .ok → ∀ e ∈ c.knownPeers.entries,
        e.2.peerID ≠ exceptPeerID → e.2.ip4 ≠ to4 (parseIP checkIP))) ↔
    (c.vpnNet.contains (to4 (parseIP checkIP)) = true → c.SpelledAlike checkIP exceptPeerID) := by
  rw [and_iff_right (checkIPUnique_ne_panics exceptPeerID hvalid), checkIPUnique_ok_iff hvalid]
  constructor
  · rintro h hin ⟨e, he, hother, hip⟩
    by_contra hnone
    refine h ⟨hin, fun e' he' htext => ?_⟩ e he hother hip
    by_contra hexcept
    refine hnone ⟨e', he', htext, ?_⟩
    rcases eq_or_ne exceptPeerID "" with hempty | hne
    · exact Or.inl hempty
    · exact Or.inr fun hid => hexcept ⟨hne, hid⟩
  · rintro h ⟨hin, hall⟩ e he hother hip
    obtain ⟨e', he', htext, hcounts⟩ := h hin ⟨e, he, hother, hip⟩
    obtain ⟨hne, hexcept⟩ := hall e' he' htext
    exact hcounts.elim hne fun hother' => hother' hexcept

end Config

section

open BootstrapPeer

/-- The address of a known peer, written as an IPv6 one. -/
theorem mappedSpelling_accepted :
    to4 (parseIP "::ffff:10.66.0.5") ≠ [] ∧
      (conf [(rus2, "10.66.0.5")]).checkIPUnique "::ffff:10.66.0.5" "" = .ok ∧
      ∃ e ∈ (conf [(rus2, "10.66.0.5")]).knownPeers.entries,
        e.2.peerID ≠ "" ∧ e.2.ip4 = to4 (parseIP "::ffff:10.66.0.5") := by
  refine ⟨by decide, by decide, ⟨rus2.text, { peerID := rus2.text, ipAddr := "10.66.0.5" }⟩,
    ?_, by decide, by decide⟩
  exact GoMap.mem_entries.2 (by decide)

/-- The same spelling. -/
theorem sameSpelling_refused :
    (conf [(rus2, "10.66.0.5")]).checkIPUnique "10.66.0.5" "" ≠ .panics ∧
      ((conf [(rus2, "10.66.0.5")]).checkIPUnique "10.66.0.5" "" = .ok →
        ∀ e ∈ (conf [(rus2, "10.66.0.5")]).knownPeers.entries, e.2.peerID ≠ "" →
          e.2.ip4 ≠ to4 (parseIP "10.66.0.5")) := by
  refine ((conf [(rus2, "10.66.0.5")]).checkIPUnique_sound_iff "" (by decide)).2 fun _ _ => ?_
  exact ⟨⟨rus2.text, { peerID := rus2.text, ipAddr := "10.66.0.5" }⟩,
    GoMap.mem_entries.2 (by decide), rfl, Or.inl rfl⟩

end

end Awl
