import Awl.NetIP
import Mathlib.Tactic.Positivity

/-!
Facts about addresses: the text of a four-byte address parses back to it, four bytes and
numbers below `2 ^ 32` are the same thing, and an IPv4 network is the block of numbers with
a common quotient.
-/

namespace Awl.NetIP

/-! ### Text round trip -/

lemma parseOctet_decimal (a : UInt8) : parseOctet (decimal a.toNat) = some a := by
  have h : (List.range 256).all
      (fun n => parseOctet (decimal n) = some (UInt8.ofNat n)) = true := by decide +kernel
  simpa using List.all_eq_true.mp h a.toNat (List.mem_range.mpr a.toNat_lt)

lemma isDigit_decimal {a : UInt8} {c : Char} (h : c ∈ decimal a.toNat) : c.isDigit := by
  have h' : (List.range 256).all (fun n => (decimal n).all Char.isDigit) = true := by
    decide +kernel
  exact List.all_eq_true.mp (List.all_eq_true.mp h' a.toNat (List.mem_range.mpr a.toNat_lt)) c h

lemma dot_notMem_decimal (a : UInt8) : '.' ∉ decimal a.toNat :=
  fun h => absurd (isDigit_decimal h) (by decide)

lemma parseIPv4Fields_dotted (a b c d : UInt8) :
    parseIPv4Fields (dotted a b c d).toList = some [a, b, c, d] := by
  have hsplit : (dotted a b c d).toList.splitOn '.' =
      [decimal a.toNat, decimal b.toNat, decimal c.toNat, decimal d.toNat] := by
    rw [dotted, String.toList_ofList, List.splitOn_intercalate _ _ (by simp)]
    intro l hl
    simp only [List.mem_cons, List.not_mem_nil, or_false] at hl
    rcases hl with rfl | rfl | rfl | rfl <;> exact dot_notMem_decimal _
  rw [parseIPv4Fields, hsplit]
  simp [parseOctet_decimal]

lemma toList_dotted (a b c d : UInt8) :
    (dotted a b c d).toList = decimal a.toNat ++ '.' :: (decimal b.toNat ++ '.' ::
      (decimal c.toNat ++ '.' :: decimal d.toNat)) := by
  simp [dotted, List.intercalate, List.intersperse]

/-- **The text of a four-byte address is an IPv4 address and parses back to it.** -/
theorem parseAddr_dotted (a b c d : UInt8) :
    parseAddr (dotted a b c d) = some (.v4 [a, b, c, d]) := by
  have hfind : (dotted a b c d).toList.find? (fun c => c = '.' ∨ c = ':' ∨ c = '%') =
      some '.' := by
    rw [toList_dotted, List.find?_append, List.find?_eq_none.mpr]
    · simp
    · intro x hx
      have hd := isDigit_decimal hx
      simp only [decide_eq_true_eq]
      rintro (rfl | rfl | rfl) <;> exact absurd hd (by decide)
  rw [parseAddr, hfind]
  simp [parseIPv4Fields_dotted]

lemma parseIP_dotted (a b c d : UInt8) :
    parseIP (dotted a b c d) = v4InV6Prefix ++ [a, b, c, d] := by
  simp [parseIP, parseAddr_dotted, Addr.zone, Addr.as16]

@[simp] lemma to4_four (a b c d : UInt8) : to4 [a, b, c, d] = [a, b, c, d] := by simp [to4]

lemma to4_parseIP_dotted (a b c d : UInt8) :
    to4 (parseIP (dotted a b c d)) = [a, b, c, d] := by
  rw [parseIP_dotted]; simp [to4, v4InV6Prefix]

lemma dotted_ne_empty (a b c d : UInt8) : dotted a b c d ≠ "" := by
  intro h
  have := congrArg String.toList h
  rw [toList_dotted] at this
  simp at this

lemma dotted_inj {a b c d a' b' c' d' : UInt8} (h : dotted a b c d = dotted a' b' c' d') :
    [a, b, c, d] = [a', b', c', d'] := by
  rw [← to4_parseIP_dotted a, h, to4_parseIP_dotted]

/-! ### The four-byte form -/

lemma to4_length (ip : IP) : to4 ip = [] ∨ (to4 ip).length = 4 := by
  unfold to4
  split_ifs with h1 h2
  · exact Or.inr h1
  · exact Or.inr (by simp [h2.1])
  · exact Or.inl rfl

lemma exists_four {ip : IP} (h : ip.length = 4) : ∃ a b c d, ip = [a, b, c, d] := by
  match ip, h with
  | [a, b, c, d], _ => exact ⟨a, b, c, d, rfl⟩

lemma equal_four {ip x : IP} (hi : ip.length = 4) (hx : x.length = 4) :
    equal ip x = true ↔ ip = x := by
  simp [equal, hi, hx]

/-! ### Four bytes as a number -/

lemma uint32_lt (a b c d : UInt8) : uint32 [a, b, c, d] < 4294967296 := by
  have := a.toNat_lt; have := b.toNat_lt; have := c.toNat_lt; have := d.toNat_lt
  simp only [uint32]; omega

lemma putUint32_uint32 (a b c d : UInt8) : putUint32 (uint32 [a, b, c, d]) = [a, b, c, d] := by
  have ha := a.toNat_lt; have hb := b.toNat_lt; have hc := c.toNat_lt; have hd := d.toNat_lt
  have e : ∀ (x : UInt8) (v : ℕ), v % 256 = x.toNat → UInt8.ofNat v = x := by
    intro x v hv
    apply UInt8.toNat_inj.mp
    simpa using hv
  simp only [putUint32, uint32]
  rw [e a _ (by omega), e b _ (by omega), e c _ (by omega), e d _ (by omega)]

lemma uint32_putUint32 {v : ℕ} (h : v < 4294967296) : uint32 (putUint32 v) = v := by
  simp only [putUint32, uint32, UInt8.toNat_ofNat']
  omega

lemma uint32_inj {x y : IP} (hx : x.length = 4) (hy : y.length = 4)
    (h : uint32 x = uint32 y) : x = y := by
  obtain ⟨a, b, c, d, rfl⟩ := exists_four hx
  obtain ⟨a', b', c', d', rfl⟩ := exists_four hy
  rw [← putUint32_uint32 a, h, putUint32_uint32]

/-! ### Networks as blocks of numbers -/

lemma toNat_and_maskByte (x : UInt8) {k : ℕ} (hk : k ≤ 8) :
    (x &&& maskByte k).toNat = x.toNat / 2 ^ (8 - k) * 2 ^ (8 - k) := by
  have h : ∀ (k : Fin 9) (n : Fin 256), (UInt8.ofNat n.val &&& maskByte k.val).toNat =
      n.val / 2 ^ (8 - k.val) * 2 ^ (8 - k.val) := by decide +kernel
  simpa using h ⟨k, by omega⟩ ⟨x.toNat, x.toNat_lt⟩

lemma maskByte_of_ge {k : ℕ} (hk : 8 ≤ k) : maskByte k = maskByte 8 := by
  simp [maskByte, hk]

lemma and_maskByte_inj (x y : UInt8) (k : ℕ) :
    x &&& maskByte k = y &&& maskByte k ↔
      x.toNat / 2 ^ (8 - k) = y.toNat / 2 ^ (8 - k) := by
  obtain ⟨j, hj, hm, hp⟩ : ∃ j ≤ 8, maskByte k = maskByte j ∧ 8 - k = 8 - j := by
    rcases le_total k 8 with h | h
    · exact ⟨k, h, rfl, rfl⟩
    · exact ⟨8, le_rfl, maskByte_of_ge h, by omega⟩
  rw [hm, hp, ← UInt8.toNat_inj, toNat_and_maskByte x hj, toNat_and_maskByte y hj]
  exact Nat.mul_left_inj (by positivity)

lemma cidrMask_four (n : ℕ) :
    cidrMask n 32 = [maskByte n, maskByte (n - 8), maskByte (n - 16), maskByte (n - 24)] := rfl

lemma mul_add_div_pow_iff {x y x' y' : ℕ} (hy : y < 256) (hy' : y' < 256) (h : ℕ) :
    (x * 256 + y) / 2 ^ h = (x' * 256 + y') / 2 ^ h ↔
      x / 2 ^ (h - 8) = x' / 2 ^ (h - 8) ∧ y / 2 ^ min h 8 = y' / 2 ^ min h 8 := by
  rcases lt_or_ge h 8 with hh | hh
  · interval_cases h <;> norm_num <;> omega
  · have e : ∀ u v : ℕ, v < 256 → (u * 256 + v) / 2 ^ h = u / 2 ^ (h - 8) := by
      intro u v hv
      rw [show 2 ^ h = 256 * 2 ^ (h - 8) by
        rw [show (256 : ℕ) = 2 ^ 8 by norm_num, ← pow_add, Nat.add_sub_cancel' hh],
        ← Nat.div_div_eq_div_mul, show (u * 256 + v) / 256 = u by omega]
    rw [e x y hy, e x' y' hy', min_eq_right hh]
    simp [Nat.div_eq_of_lt hy, Nat.div_eq_of_lt hy']

/-- Four bytes agree under the mask of a prefix of length `n` exactly when the numbers they
stand for agree above the low `32 - n` bits. -/
lemma zipWith_and_mask_iff {n : ℕ} (hn : n ≤ 32) (a b c d a' b' c' d' : UInt8) :
    List.zipWith (· &&& ·) [a, b, c, d] (cidrMask n 32) =
        List.zipWith (· &&& ·) [a', b', c', d'] (cidrMask n 32) ↔
      uint32 [a, b, c, d] / 2 ^ (32 - n) = uint32 [a', b', c', d'] / 2 ^ (32 - n) := by
  simp only [cidrMask_four, List.zipWith_cons_cons, List.zipWith_nil_left, List.cons.injEq,
    and_true, and_maskByte_inj, uint32]
  rw [mul_add_div_pow_iff d.toNat_lt d'.toNat_lt, mul_add_div_pow_iff c.toNat_lt c'.toNat_lt,
    mul_add_div_pow_iff b.toNat_lt b'.toNat_lt]
  -- the exponents on the two sides are the same numbers
  rw [show 32 - n - 8 - 8 - 8 = 8 - n by omega, show min (32 - n - 8 - 8) 8 = 8 - (n - 8) by omega,
    show min (32 - n - 8) 8 = 8 - (n - 16) by omega, show min (32 - n) 8 = 8 - (n - 24) by omega]
  tauto

/-- The IPv4 network of prefix length `n` around the four-byte address `ip`. -/
def netOf (ip : IP) (n : ℕ) : IPNet := ⟨mask ip (cidrMask n 32), cidrMask n 32⟩

/-- **A network contains exactly the addresses of its block.** -/
theorem netOf_contains {l ip : IP} {n : ℕ} (hn : n ≤ 32) (hl : l.length = 4)
    (hip : ip.length = 4) :
    (netOf l n).contains ip = true ↔ uint32 ip / 2 ^ (32 - n) = uint32 l / 2 ^ (32 - n) := by
  obtain ⟨a, b, c, d, rfl⟩ := exists_four hl
  obtain ⟨a', b', c', d', rfl⟩ := exists_four hip
  rw [← zipWith_and_mask_iff hn]
  simp [IPNet.contains, netOf, networkNumberAndMask, mask, cidrMask_four, UInt8.and_assoc]
  tauto

/-! ### The top of a block -/

/-- The largest number that agrees with `v` above the low `h` bits. -/
def blockTop (v h : ℕ) : ℕ := v / 2 ^ h * 2 ^ h + (2 ^ h - 1)

lemma top_shift (u : ℕ) {p : ℕ} (hp : 0 < p) :
    u * (256 * p) + (256 * p - 1) = (u * p + (p - 1)) * 256 + 255 := by
  rw [Nat.mul_left_comm]
  generalize u * p = w
  omega

lemma blockTop_mul_add {x y : ℕ} (hy : y < 256) (h : ℕ) :
    blockTop (x * 256 + y) h = blockTop x (h - 8) * 256 + blockTop y (min h 8) := by
  unfold blockTop
  rcases lt_or_ge h 8 with hh | hh
  · interval_cases h <;> norm_num <;> omega
  · have hp : 2 ^ h = 256 * 2 ^ (h - 8) := by
      rw [show (256 : ℕ) = 2 ^ 8 by norm_num, ← pow_add, Nat.add_sub_cancel' hh]
    have hpos : 0 < 2 ^ (h - 8) := by positivity
    rw [hp, ← Nat.div_div_eq_div_mul, show (x * 256 + y) / 256 = x by omega, min_eq_right hh,
      Nat.div_eq_of_lt (show y < 2 ^ 8 by omega)]
    exact top_shift _ hpos

lemma toNat_or_not_maskByte (x : UInt8) (k : ℕ) :
    (x ||| ~~~ maskByte k).toNat = blockTop x.toNat (8 - k) := by
  have h : ∀ (k : Fin 9) (n : Fin 256), (UInt8.ofNat n.val ||| ~~~ maskByte k.val).toNat =
      n.val / 2 ^ (8 - k.val) * 2 ^ (8 - k.val) + (2 ^ (8 - k.val) - 1) := by decide +kernel
  rcases le_total k 8 with hk | hk
  · simpa [blockTop] using h ⟨k, by omega⟩ ⟨x.toNat, x.toNat_lt⟩
  · rw [maskByte_of_ge hk, show 8 - k = 8 - 8 by omega]
    simpa [blockTop] using h ⟨8, by omega⟩ ⟨x.toNat, x.toNat_lt⟩

/-- Setting the host bits of an address gives the last address of its network. -/
lemma uint32_or_not_mask {n : ℕ} (hn : n ≤ 32) (a b c d : UInt8) :
    uint32 [a ||| ~~~ maskByte n, b ||| ~~~ maskByte (n - 8), c ||| ~~~ maskByte (n - 16),
      d ||| ~~~ maskByte (n - 24)] = blockTop (uint32 [a, b, c, d]) (32 - n) := by
  simp only [uint32, toNat_or_not_maskByte]
  rw [blockTop_mul_add d.toNat_lt, blockTop_mul_add c.toNat_lt, blockTop_mul_add b.toNat_lt,
    show 32 - n - 8 - 8 - 8 = 8 - n by omega, show min (32 - n - 8 - 8) 8 = 8 - (n - 8) by omega,
    show min (32 - n - 8) 8 = 8 - (n - 16) by omega, show min (32 - n) 8 = 8 - (n - 24) by omega]

lemma le_blockTop {v w h : ℕ} (hvw : w / 2 ^ h = v / 2 ^ h) : w ≤ blockTop v h := by
  have hpos : 0 < 2 ^ h := by positivity
  have := Nat.div_add_mod w (2 ^ h)
  have := Nat.mod_lt w hpos
  rw [blockTop, ← hvw, Nat.mul_comm]
  omega

/-- Below the top, the next number is in the same block. -/
lemma succ_div_of_lt_blockTop {v w h : ℕ} (hvw : w / 2 ^ h = v / 2 ^ h) (hlt : w < blockTop v h) :
    (w + 1) / 2 ^ h = v / 2 ^ h := by
  have hpos : 0 < 2 ^ h := by positivity
  have hle : v / 2 ^ h * 2 ^ h ≤ w := hvw ▸ Nat.div_mul_le_self w _
  rw [blockTop] at hlt
  exact Nat.div_eq_of_lt_le (by omega) (by rw [Nat.add_mul, Nat.one_mul]; omega)

lemma blockTop_div (v h : ℕ) : blockTop v h / 2 ^ h = v / 2 ^ h := by
  have hpos : 0 < 2 ^ h := by positivity
  rw [blockTop]
  exact Nat.div_eq_of_lt_le (by omega) (by rw [Nat.add_mul, Nat.one_mul]; omega)

end Awl.NetIP
