import Awl.Config
import Awl.MapBuild

/-!
The names under which the resolver finds known peers.

Each peer has two names, its ID and its domain name. The resolver is given a map of names, in
which the name of the admin page is reserved, and makes of it a map of canonical names, which
do not distinguish upper and lower case.

Canonical names are made by the DNS library; how it does so is assumed, not translated.
-/

namespace Awl

namespace Dns

def localDomain : String := "awl"

/-- `dns.IsFqdn`: the text ends with a dot that is not escaped. -/
def isFqdn (s : String) : Bool :=
  match s.toList.reverse with
  | '.' :: rest => (rest.takeWhile (· = '\\')).length % 2 = 0
  | _ => false

def fqdn (s : String) : String := if isFqdn s then s else s ++ "."

/-- `dns.CanonicalName`. -/
def canonicalName (s : String) : String := String.ofList ((fqdn s).toList.map Char.toLower)

/-- The name that `ReceiveConfiguration` makes of a key. -/
def zoneName (key : String) : String := canonicalName (key ++ "." ++ localDomain)

/-- What the resolver answers from. -/
structure ResolverConfig where
  upstreamDNS : String
  directMapping : GoMap String String
  reverseMapping : GoMap String String

/-- The body of the loop of `ReceiveConfiguration`. -/
def receiveName (mappings : GoMap String String × GoMap String String) (key ip : String) :
    GoMap String String × GoMap String String :=
  let name := zoneName key
  let reverseMapping := match mappings.2.lookup ip with
    | none => mappings.2.insert ip name
    | some existedName =>
      if name.utf8ByteSize < existedName.utf8ByteSize then mappings.2.insert ip name
      else mappings.2
  (mappings.1.insert name ip, reverseMapping)

/-- `ReceiveConfiguration`, where the names are visited in the order `ns`. -/
def receiveConfiguration (upstreamDNS : String) (namesMapping : GoMap String String)
    (ns : List String) : ResolverConfig :=
  let mappings := namesMapping.rangeLoop receiveName (∅, ∅) ns
  ⟨upstreamDNS, mappings.1, mappings.2⟩

def adminHttpServerDomainName : String := "admin"

def adminHttpServerIP : String := "127.0.0.66"

end Dns

open Dns

/-- `DNSNamesMapping`, where the known peers are visited in the order `ks`. -/
def Config.dnsNamesMapping (c : Config) (ks : List String) : GoMap String String :=
  c.knownPeers.rangeLoop (fun mapping _ kp =>
    let mapping := mapping.insert kp.peerID kp.ipAddr
    if kp.domainName ≠ "" then mapping.insert kp.domainName kp.ipAddr else mapping) ∅ ks

/-- The names that `refreshDNSConfig` passes on. -/
def Config.refreshedNames (c : Config) (ks : List String) : GoMap String String :=
  (c.dnsNamesMapping ks).insert adminHttpServerDomainName adminHttpServerIP

/-- `refreshDNSConfig`. -/
def Config.refreshDNSConfig (c : Config) (upstreamDNS : String) (ks ns : List String) :
    ResolverConfig :=
  receiveConfiguration upstreamDNS (c.refreshedNames ks) ns

/-- Both names of every known peer are found, and give its address, whatever the orders. -/
def Config.Resolves (c : Config) : Prop :=
  ∀ upstreamDNS ks ns, GoMap.Ranges c.knownPeers ks → GoMap.Ranges (c.refreshedNames ks) ns →
    ∀ ⦃k kp⦄, c.knownPeers.lookup k = some kp →
      (c.refreshDNSConfig upstreamDNS ks ns).directMapping.lookup (kp.domainName ++ ".awl.") =
        some kp.ipAddr ∧
      (c.refreshDNSConfig upstreamDNS ks ns).directMapping.lookup
        (canonicalName (kp.peerID ++ ".awl.")) = some kp.ipAddr

/-! ### The loops as maps that are built -/

namespace Dns

/-- The names of a peer. -/
def names (kp : KnownPeer) : List String :=
  if kp.domainName ≠ "" then [kp.peerID, kp.domainName] else [kp.peerID]

lemma dnsNamesMapping_eq (c : Config) (ks : List String) :
    c.dnsNamesMapping ks =
      c.knownPeers.build (fun _ kp => (names kp).map fun x => (x, kp.ipAddr)) ks := by
  rw [Config.dnsNamesMapping, GoMap.build]
  congr 1
  funext mapping k kp
  by_cases hd : kp.domainName = ""
  · simp [names, hd, GoMap.insertAll]
  · simp [names, hd, GoMap.insertAll]

lemma directMapping_eq (upstreamDNS : String) (namesMapping : GoMap String String)
    (ns : List String) :
    (receiveConfiguration upstreamDNS namesMapping ns).directMapping =
      namesMapping.build (fun key ip => [(zoneName key, ip)]) ns := by
  have hloop : ∀ (ns : List String) (mappings : GoMap String String × GoMap String String),
      (namesMapping.rangeLoop receiveName mappings ns).1 =
        namesMapping.rangeLoop (fun acc key ip => acc.insertAll [(zoneName key, ip)])
          mappings.1 ns := by
    intro ns
    induction ns with
    | nil => exact fun mappings => rfl
    | cons n ns ih =>
      intro mappings
      rw [GoMap.rangeLoop_cons, GoMap.rangeLoop_cons, ih]
      rcases namesMapping.lookup n with _ | ip
      · rfl
      · rfl
  exact hloop ns (∅, ∅)

/-! ### Canonical names -/

/-- No letter of the text is an upper case one. -/
def Lower (x : String) : Prop := x.toList.map Char.toLower = x.toList

lemma zoneName_eq (key : String) :
    zoneName key = String.ofList ((key ++ ".awl.").toList.map Char.toLower) := by
  have hopen : isFqdn (key ++ "." ++ localDomain) = false := by
    simp [isFqdn, localDomain]
  rw [zoneName, canonicalName, fqdn, hopen, if_neg Bool.false_ne_true]
  simp [localDomain]

/-- The canonical form of a name that is written with its dot. -/
lemma canonicalName_zone (key : String) : canonicalName (key ++ ".awl.") = zoneName key := by
  have hfqdn : isFqdn (key ++ ".awl.") = true := by
    simp [isFqdn]
  rw [zoneName_eq, canonicalName, fqdn, if_pos hfqdn]

lemma zoneName_of_lower {x : String} (h : Lower x) : zoneName x = x ++ ".awl." := by
  have hzone : ".awl.".toList.map Char.toLower = ".awl.".toList := by decide
  rw [zoneName_eq, String.toList_append, List.map_append, h, hzone, ← String.toList_append,
    String.ofList_toList]

/-! ### When all names are found -/

/-- Names that the resolver cannot tell apart belong to one address. -/
structure NamesApart (c : Config) : Prop where
  peers : ∀ ⦃k kp k' kp'⦄, c.knownPeers.lookup k = some kp → c.knownPeers.lookup k' = some kp' →
    ∀ x ∈ names kp, ∀ y ∈ names kp', zoneName x = zoneName y → kp.ipAddr = kp'.ipAddr
  admin : ∀ ⦃k kp⦄, c.knownPeers.lookup k = some kp → ∀ x ∈ names kp,
    zoneName x = zoneName adminHttpServerDomainName → kp.ipAddr = adminHttpServerIP

/-- Every peer has a domain name, in lower case. -/
def Named (c : Config) : Prop :=
  ∀ ⦃k kp⦄, c.knownPeers.lookup k = some kp → kp.domainName ≠ "" ∧ Lower kp.domainName

variable {c : Config} {ks ns : List String}

/-- The names are those of the known peers, and the reserved one. -/
lemma mem_refreshedNames {x ip : String} (h : (c.refreshedNames ks).lookup x = some ip) :
    x = adminHttpServerDomainName ∧ ip = adminHttpServerIP ∨
      ∃ k kp, c.knownPeers.lookup k = some kp ∧ x ∈ names kp ∧ ip = kp.ipAddr := by
  rw [Config.refreshedNames, GoMap.lookup_insert_ite] at h
  split_ifs at h with he
  · cases h
    exact Or.inl ⟨he, rfl⟩
  · rw [dnsNamesMapping_eq] at h
    obtain ⟨k, kp, hk, hx⟩ := GoMap.mem_of_build h
    obtain ⟨y, hy, heq⟩ := List.mem_map.mp hx
    cases heq
    exact Or.inr ⟨k, kp, hk, hy, rfl⟩

lemma NamesApart.refreshedNames (h : NamesApart c) (hks : GoMap.Ranges c.knownPeers ks)
    {k x : String} {kp : KnownPeer} (hk : c.knownPeers.lookup k = some kp) (hx : x ∈ names kp) :
    (c.refreshedNames ks).lookup x = some kp.ipAddr := by
  rw [Config.refreshedNames, GoMap.lookup_insert_ite]
  split_ifs with he
  · rw [h.admin hk x hx (by rw [he])]
  · rw [dnsNamesMapping_eq]
    refine GoMap.build_lookup (fun k' hk' => (hks.2 k').mpr hk') (fun k' kp' w hk' hw => ?_)
      ⟨k, kp, kp.ipAddr, hk, List.mem_map.mpr ⟨x, hx, rfl⟩⟩
    obtain ⟨y, hy, heq⟩ := List.mem_map.mp hw
    cases heq
    exact h.peers hk' hk x hy x hx rfl

/-- Names that are apart are found. -/
lemma NamesApart.directMapping (h : NamesApart c) (upstreamDNS : String)
    (hks : GoMap.Ranges c.knownPeers ks) (hns : GoMap.Ranges (c.refreshedNames ks) ns)
    {k x : String} {kp : KnownPeer} (hk : c.knownPeers.lookup k = some kp) (hx : x ∈ names kp) :
    (c.refreshDNSConfig upstreamDNS ks ns).directMapping.lookup (zoneName x) =
      some kp.ipAddr := by
  rw [Config.refreshDNSConfig, directMapping_eq]
  refine GoMap.build_lookup (fun n hn => (hns.2 n).mpr hn) (fun y ip w hy hw => ?_)
    ⟨x, kp.ipAddr, kp.ipAddr, h.refreshedNames hks hk hx, List.mem_singleton.mpr rfl⟩
  obtain ⟨hzone, rfl⟩ := Prod.mk.inj (List.mem_singleton.mp hw)
  rcases mem_refreshedNames hy with ⟨rfl, rfl⟩ | ⟨k', kp', hk', hy', rfl⟩
  · exact (h.admin hk x hx hzone).symm
  · exact h.peers hk' hk y hy' x hx hzone.symm

/-- An order in which the reserved name comes last. -/
lemma exists_ranges_admin (c : Config) (ks : List String) :
    ∃ ns, GoMap.Ranges (c.refreshedNames ks) (ns ++ [adminHttpServerDomainName]) := by
  obtain ⟨ns, hnodup, hmem⟩ := GoMap.exists_ranges (c.refreshedNames ks)
  have hadmin : adminHttpServerDomainName ∈ ns := by
    rw [hmem, Config.refreshedNames, Finmap.mem_insert]
    exact Or.inl rfl
  refine ⟨ns.erase adminHttpServerDomainName, ?_, fun k => ?_⟩
  · exact (List.perm_append_singleton _ _).symm.nodup
      ((List.perm_cons_erase hadmin).nodup hnodup)
  · rw [← hmem, (List.perm_append_singleton _ _).mem_iff, ← (List.perm_cons_erase hadmin).mem_iff]

/-- **The resolver finds every peer** under both names exactly if the names are apart. -/
theorem resolves_iff (h : Named c) : c.Resolves ↔ NamesApart c := by
  have hnames : ∀ {k kp}, c.knownPeers.lookup k = some kp →
      names kp = [kp.peerID, kp.domainName] := fun hk => if_pos (h hk).1
  constructor
  · intro hres
    -- what the resolver answers for a name of a peer
    have hanswer : ∀ {ks ns}, GoMap.Ranges c.knownPeers ks →
        GoMap.Ranges (c.refreshedNames ks) ns → ∀ {k kp}, c.knownPeers.lookup k = some kp →
        ∀ x ∈ names kp, (c.refreshDNSConfig "" ks ns).directMapping.lookup (zoneName x) =
          some kp.ipAddr := by
      intro ks ns hks hns k kp hk x hx
      obtain ⟨hdomain, hid⟩ := hres "" ks ns hks hns hk
      rw [hnames hk] at hx
      rcases List.mem_pair.mp hx with rfl | rfl
      · rw [canonicalName_zone] at hid
        exact hid
      · rw [zoneName_of_lower (h hk).2]
        exact hdomain
    obtain ⟨ks, hks⟩ := GoMap.exists_ranges c.knownPeers
    refine ⟨fun k kp k' kp' hk hk' x hx y hy he => ?_, fun k kp hk x hx he => ?_⟩
    · obtain ⟨ns, hns⟩ := GoMap.exists_ranges (c.refreshedNames ks)
      have h1 := hanswer hks hns hk x hx
      rw [he, hanswer hks hns hk' y hy] at h1
      exact (Option.some.inj h1).symm
    · obtain ⟨ns, hns⟩ := exists_ranges_admin c ks
      have h1 := hanswer hks hns hk x hx
      have hadmin : (c.refreshedNames ks).lookup adminHttpServerDomainName =
          some adminHttpServerIP := Finmap.lookup_insert _
      rw [he, Config.refreshDNSConfig, directMapping_eq, GoMap.build_snoc _ _ _ hadmin] at h1
      have hlast := Finmap.lookup_insert (a := zoneName adminHttpServerDomainName)
        (b := adminHttpServerIP)
        ((c.refreshedNames ks).build (fun key ip => [(zoneName key, ip)]) ns)
      rw [GoMap.insertAll, List.foldl_cons, List.foldl_nil, hlast] at h1
      exact (Option.some.inj h1).symm
  · intro hapart upstreamDNS ks ns hks hns k kp hk
    have hfound := fun x => hapart.directMapping upstreamDNS hks hns hk (x := x)
    rw [hnames hk] at hfound
    constructor
    · rw [← zoneName_of_lower (h hk).2]
      exact hfound _ (List.mem_cons_of_mem _ (List.mem_singleton.mpr rfl))
    · rw [canonicalName_zone]
      exact hfound _ List.mem_cons_self

end Dns

end Awl
