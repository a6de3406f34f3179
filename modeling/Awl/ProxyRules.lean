import Awl.Subnet

/-!
The rule of an exit node for the destinations of proxied connections. It can be replaced while the
node runs; unless everything is permitted, destinations on the node itself are refused. The rule
that permits everything is taken from the SOCKS5 library.
-/

namespace Awl

open NetIP

namespace Socks5

/-- `socks5.AddrSpec`. -/
structure AddrSpec where
  fqdn : String := ""
  ip : IP := []
  port : ℕ := 0

/-- What a rule is given of a `socks5.Request`. -/
structure Request where
  command : UInt8
  destAddr : Option AddrSpec

def connectCommand : UInt8 := 1

def bindCommand : UInt8 := 2

def associateCommand : UInt8 := 3

/-- The rules that are in use: `socks5.PermitAll` and `RuleDenyLocalhost`. -/
inductive RuleSet
  | permitAll
  | denyLocalhost (ipNet : IPNet)

def RuleSet.allow (rule : RuleSet) (req : Request) : Bool :=
  match rule with
  | permitAll => req.command ∈ [connectCommand, bindCommand, associateCommand]
  | denyLocalhost ipNet =>
    match req.destAddr with
    | none => true
    | some addr => if ipNet.contains addr.ip then false else true

/-- `NewRuleDenyLocalhost`; `none` is a panic. -/
def newRuleDenyLocalhost : Option RuleSet :=
  (parseCIDR "127.0.0.1/8").map fun (_, ipNet) => .denyLocalhost ipNet

structure UpdatableRule where
  rule : RuleSet

def UpdatableRule.allow (r : UpdatableRule) (req : Request) : Bool := r.rule.allow req

def UpdatableRule.setRule (_ : UpdatableRule) (rule : RuleSet) : UpdatableRule := ⟨rule⟩

structure Server where
  rule : UpdatableRule

def newServer : Option Server := newRuleDenyLocalhost.map fun rule => ⟨⟨rule⟩⟩

def Server.setRules (s : Server) (rule : RuleSet) : Server := ⟨s.rule.setRule rule⟩

def Server.setProxyingLocalhostEnabled (s : Server) (enabled : Bool) : Option Server :=
  if enabled then some (s.setRules .permitAll) else newRuleDenyLocalhost.map s.setRules

/-- A server on which `SetProxyingLocalhostEnabled` has been called. -/
def served (calls : List Bool) : Option Server :=
  newServer >>= fun s => calls.foldlM Server.setProxyingLocalhostEnabled s

/-! ### The network of the rule -/

def localhostNet : IPNet := ⟨[127, 0, 0, 0], [255, 0, 0, 0]⟩

lemma newRuleDenyLocalhost_eq : newRuleDenyLocalhost = some (.denyLocalhost localhostNet) := rfl

/-- What the network contains: addresses with a four-byte form, by the first byte. -/
lemma localhostNet_contains (ip : IP) :
    localhostNet.contains ip = true ↔ (to4 ip).head? = some 127 := by
  have hnet : networkNumberAndMask localhostNet = ([127, 0, 0, 0], [255, 0, 0, 0]) := rfl
  simp only [IPNet.contains, hnet, Bool.and_eq_true, decide_eq_true_eq, beq_iff_eq]
  rcases to4_length ip with hnil | hfour
  · -- a proper IPv6 address has another length than those of the network
    have hlen : ip.length ≠ 4 := by
      intro h4
      rw [to4, if_pos h4] at hnil
      rw [hnil] at h4
      cases h4
    rw [if_pos hnil, hnil]
    exact iff_of_false (fun h => hlen h.1) (by simp)
  · obtain ⟨a, b, c, d, habcd⟩ := exists_four hfour
    rw [if_neg (by rw [habcd]; exact List.cons_ne_nil _ _), habcd]
    have hmask : (127 : UInt8) &&& 255 = a &&& 255 ↔ a = 127 := by
      rw [show a &&& 255 = a from UInt8.and_neg_one]
      exact eq_comm
    simpa using hmask

/-! ### Runs -/

lemma setProxyingLocalhostEnabled_eq (s : Server) (enabled : Bool) :
    s.setProxyingLocalhostEnabled enabled =
      some (s.setRules (if enabled then .permitAll else .denyLocalhost localhostNet)) := by
  cases enabled with
  | true => rfl
  | false => rw [Server.setProxyingLocalhostEnabled, newRuleDenyLocalhost_eq]; rfl

/-- No call panics. -/
lemma served_ne_none (calls : List Bool) : ∃ s, served calls = some s := by
  have hrun : ∀ (calls : List Bool) (s : Server),
      ∃ s', calls.foldlM Server.setProxyingLocalhostEnabled s = some s' := by
    intro calls
    induction calls with
    | nil => exact fun s => ⟨s, rfl⟩
    | cons enabled calls ih =>
      intro s
      rw [List.foldlM_cons, setProxyingLocalhostEnabled_eq]
      exact ih _
  rw [served, newServer, newRuleDenyLocalhost_eq]
  exact hrun calls _

/-- The last call decides. -/
lemma served_append (calls : List Bool) (enabled : Bool) :
    ∃ s, served (calls ++ [enabled]) = some s ∧
      s.rule.rule = if enabled then .permitAll else .denyLocalhost localhostNet := by
  obtain ⟨s, hs⟩ := served_ne_none calls
  refine ⟨s.setRules (if enabled then .permitAll else .denyLocalhost localhostNet), ?_, rfl⟩
  rw [served] at hs ⊢
  rw [Option.bind_eq_bind, Option.bind_eq_some_iff] at hs
  obtain ⟨s₀, hs₀, hs⟩ := hs
  rw [hs₀, Option.bind_eq_bind, Option.bind_some, List.foldlM_append, hs]
  simp [setProxyingLocalhostEnabled_eq]

/-! ### Loopback addresses -/

def ipv6Loopback : IP := [0, 0, 0, 0, 0, 0, 0, 0, 0, 0, 0, 0, 0, 0, 0, 1]

/-- An address in `127.0.0.0/8`, in four bytes or in sixteen, or `::1`. -/
def IsLoopback (ip : IP) : Prop := (to4 ip).head? = some 127 ∨ ip = ipv6Loopback

instance (ip : IP) : Decidable (IsLoopback ip) := inferInstanceAs (Decidable (_ ∨ _))

/-- **The default rule protects the local host** from connections to a destination, and from no
others, exactly if the destination is not `::1`. -/
theorem denyLocalhost_iff (calls : List Bool) (command : UInt8) (addr : AddrSpec) :
    (∃ s, served (calls ++ [false]) = some s ∧
        s.rule.allow { command := command, destAddr := some addr } =
          decide (¬ IsLoopback addr.ip)) ↔
      addr.ip ≠ ipv6Loopback := by
  obtain ⟨s, hs, hrule⟩ := served_append calls false
  have hallow : s.rule.allow { command := command, destAddr := some addr } = true ↔
      ¬ (to4 addr.ip).head? = some 127 := by
    rw [UpdatableRule.allow, hrule, ← localhostNet_contains]
    simp [RuleSet.allow]
  constructor
  · rintro ⟨s', hs', hright⟩ he
    cases hs.symm.trans hs'
    rw [Bool.eq_iff_iff, hallow, decide_eq_true_iff, he] at hright
    exact hright.1 (by decide) (Or.inr rfl)
  · intro hne
    refine ⟨s, hs, ?_⟩
    rw [Bool.eq_iff_iff, hallow, decide_eq_true_iff, IsLoopback, or_iff_left hne]

/-- A connection to `::1`. -/
theorem ipv6Loopback_allowed :
    IsLoopback ipv6Loopback ∧ ∀ calls, ∃ s, served (calls ++ [false]) = some s ∧
      s.rule.allow { command := connectCommand, destAddr := some { ip := ipv6Loopback } } =
        true := by
  refine ⟨Or.inr rfl, fun calls => ?_⟩
  obtain ⟨s, hs, hrule⟩ := served_append calls false
  refine ⟨s, hs, ?_⟩
  rw [UpdatableRule.allow, hrule]
  rfl

end Socks5

end Awl
