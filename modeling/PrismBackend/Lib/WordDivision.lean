import Mathlib.Algebra.Ring.Divisibility.Basic
import Mathlib.Data.BitVec
import Mathlib.Tactic.LinearCombination
import Mathlib.Tactic.Ring

/-!
# Division of machine words by inverses

An inverse modulo a power of two by Newton's iteration, in any commutative ring,
the lowest set bit of a word, and a quotient that is exact modulo the word size.
-/

namespace PrismBackend.Lib

/-! ## Newton's iteration -/

section Newton

variable {R : Type} [CommRing R]

/-- One step of Newton's iteration for the inverse of `a`. -/
def newtonStep (a x : R) : R := x * (2 - a * x)

/-- A step squares the modulus up to which `x` inverts `a`. -/
theorem newtonStep_dvd {a x m : R} (h : m ∣ a * x - 1) : m ^ 2 ∣ a * newtonStep a x - 1 := by
  obtain ⟨q, hq⟩ := h
  refine ⟨-(q ^ 2), ?_⟩
  unfold newtonStep
  linear_combination (-(a * x - 1) - m * q) * hq

theorem newtonStep_iterate_dvd {a x m : R} (h : m ∣ a * x - 1) (n : Nat) :
    m ^ 2 ^ n ∣ a * (newtonStep a)^[n] x - 1 := by
  induction n with
  | zero => simpa using h
  | succ n ih =>
      rw [Function.iterate_succ_apply', pow_succ 2 n, pow_mul]
      exact newtonStep_dvd ih

/-- Once the modulus has become zero, the iterate is an inverse. -/
theorem newtonStep_iterate_inverse {a x m : R} (h : m ∣ a * x - 1) {n : Nat}
    (hm : m ^ 2 ^ n = 0) : a * (newtonStep a)^[n] x = 1 := by
  have hdvd := newtonStep_iterate_dvd h n
  rw [hm, zero_dvd_iff] at hdvd
  exact sub_eq_zero.mp hdvd

end Newton

/-! ## The seed of the iteration -/

section Words

variable {w : Nat}

theorem bitVec_two_pow (w : Nat) : (2 : BitVec w) ^ w = 0 := by
  have hcast : ((2 ^ w : Nat) : BitVec w) = 2 ^ w := by simp
  rw [← hcast]
  apply BitVec.eq_of_toNat_eq
  show 2 ^ w % 2 ^ w = 0 % 2 ^ w
  rw [Nat.mod_self, Nat.zero_mod]

/-- A word whose lowest bits are zero is a multiple of the power of two they span. -/
theorem two_pow_dvd_of_mod {x : BitVec w} {k : Nat} (h : x.toNat % 2 ^ k = 0) :
    (2 : BitVec w) ^ k ∣ x := by
  refine ⟨BitVec.ofNat w (x.toNat / 2 ^ k), ?_⟩
  have hx : x = ((2 ^ k * (x.toNat / 2 ^ k) : Nat) : BitVec w) := by
    rw [Nat.mul_div_cancel' (Nat.dvd_of_mod_eq_zero h)]
    simp
  conv_lhs => rw [hx]
  rw [Nat.cast_mul, Nat.cast_pow]
  simp

private theorem seed_nibble : ∀ v : BitVec 4, v.getLsbD 0 = true → v * (3 * v ^^^ 2) = 1 := by
  decide

/-- For an odd `a`, the word `3a xor 2` inverts `a` modulo sixteen. -/
theorem newtonSeed_dvd (hw : 4 ≤ w) {a : BitVec w} (hodd : a.getLsbD 0 = true) :
    (2 : BitVec w) ^ 4 ∣ a * (3 * a ^^^ 2) - 1 := by
  have hconst (n : Nat) : (BitVec.ofNat w n).setWidth 4 = BitVec.ofNat 4 n := by
    apply BitVec.eq_of_toNat_eq
    simp only [BitVec.toNat_setWidth, BitVec.toNat_ofNat]
    exact Nat.mod_mod_of_dvd n (pow_dvd_pow 2 hw)
  have hlow : (a * (3 * a ^^^ 2)).setWidth 4 = (1 : BitVec w).setWidth 4 := by
    rw [BitVec.setWidth_mul _ _ hw, BitVec.setWidth_xor, BitVec.setWidth_mul _ _ hw]
    show a.setWidth 4 * ((BitVec.ofNat w 3).setWidth 4 * a.setWidth 4 ^^^
      (BitVec.ofNat w 2).setWidth 4) = (BitVec.ofNat w 1).setWidth 4
    rw [hconst, hconst, hconst]
    exact seed_nibble _ (by simpa using hodd)
  have hmod : (a * (3 * a ^^^ 2)).toNat % 2 ^ 4 = (1 : BitVec w).toNat % 2 ^ 4 := by
    simpa only [BitVec.toNat_setWidth] using congrArg BitVec.toNat hlow
  apply two_pow_dvd_of_mod
  rw [BitVec.toNat_sub, Nat.mod_mod_of_dvd _ (pow_dvd_pow 2 hw)]
  have hsize : 2 ^ 4 ∣ 2 ^ w := pow_dvd_pow 2 hw
  have hone : (1 : BitVec w).toNat < 2 ^ w := (1 : BitVec w).isLt
  omega

/-! ## The lowest set bit -/

/-- A word and its negative share exactly the lowest set bit. -/
theorem and_neg_eq_twoPow {d : BitVec w} (hd : d ≠ 0) :
    d &&& (0 - d) = BitVec.twoPow w d.ctz.toNat := by
  have hset := BitVec.getLsbD_true_ctz_of_ne_zero hd
  have hlow {j : Nat} (hj : d.getLsbD j = true) : d.ctz.toNat ≤ j := by
    by_contra hlt
    rw [BitVec.getLsbD_false_of_lt_ctz (by omega)] at hj
    exact absurd hj (by decide)
  rw [zero_sub]
  apply BitVec.eq_of_getLsbD_eq
  intro i hi
  rw [BitVec.getLsbD_and, BitVec.getLsbD_neg, BitVec.getLsbD_twoPow]
  by_cases heq : i = d.ctz.toNat
  · subst heq
    have hnone : ¬∃ j < d.ctz.toNat, d.getLsbD j = true := by
      rintro ⟨j, hj, hbit⟩
      exact absurd (hlow hbit) (by omega)
    simp only [hset, hnone, decide_false, Bool.and_false, Bool.xor_false, Bool.and_self,
      decide_true, Bool.and_true]
    exact (decide_eq_true hi).symm
  · have hne : (decide (d.ctz.toNat < w) && decide (d.ctz.toNat = i)) = false := by
      simp [Ne.symm heq]
    rw [hne]
    cases hbit : d.getLsbD i with
    | false => rfl
    | true =>
        have hbelow : ∃ j < i, d.getLsbD j = true :=
          ⟨d.ctz.toNat, by have := hlow hbit; omega, hset⟩
        simp [hi, hbelow]

/-! ## Words in two parts -/

/-- The power of two that a word is short of `2 ^ w`, as a word: `2 ^ w / 2 ^ k` wraps to zero when
`k` is zero. -/
theorem neg_div_add_one {k : Nat} (hk : k < w) :
    (0 - BitVec.twoPow w k) / BitVec.twoPow w k + 1 = BitVec.ofNat w (2 ^ (w - k)) := by
  have hsize : 2 ^ w = 2 ^ (w - k) * 2 ^ k := by rw [← pow_add, Nat.sub_add_cancel hk.le]
  have hlt : 2 ^ k < 2 ^ w := Nat.pow_lt_pow_right (by decide) hk
  have hpos : 0 < 2 ^ k := Nat.two_pow_pos k
  have hcount : 0 < 2 ^ (w - k) := Nat.two_pow_pos (w - k)
  have htwo : (BitVec.twoPow w k).toNat = 2 ^ k := by
    rw [BitVec.toNat_twoPow, Nat.mod_eq_of_lt hlt]
  have hneg : (0 - BitVec.twoPow w k).toNat = 2 ^ w - 2 ^ k := by
    rw [zero_sub, BitVec.toNat_neg, htwo, Nat.mod_eq_of_lt (by omega)]
  have hquot : (2 ^ w - 2 ^ k) / 2 ^ k = 2 ^ (w - k) - 1 := by
    rw [hsize, ← Nat.sub_one_mul, Nat.mul_div_cancel _ hpos]
  have hone : (1 : BitVec w) = BitVec.ofNat w 1 := rfl
  have hdiv : (0 - BitVec.twoPow w k) / BitVec.twoPow w k =
      BitVec.ofNat w (2 ^ (w - k) - 1) := by
    apply BitVec.eq_of_toNat_eq
    have hfits : 2 ^ (w - k) - 1 < 2 ^ w := by
      have hle : 2 ^ (w - k) ≤ 2 ^ w := Nat.pow_le_pow_right (by decide) (Nat.sub_le w k)
      omega
    rw [BitVec.toNat_udiv, hneg, htwo, hquot, BitVec.toNat_ofNat, Nat.mod_eq_of_lt hfits]
  rw [hdiv, hone, ← BitVec.ofNat_add, Nat.sub_add_cancel hcount]

/-- The low word of a double word that is shifted right: the high word's lowest bits enter it. -/
theorem div_twoPow_or {k : Nat} (hk : k < w) (high low : BitVec w) :
    low / BitVec.twoPow w k ||| high * BitVec.ofNat w (2 ^ (w - k)) =
      BitVec.ofNat w ((high.toNat * 2 ^ w + low.toNat) / 2 ^ k) := by
  have hsize : 2 ^ w = 2 ^ (w - k) * 2 ^ k := by rw [← pow_add, Nat.sub_add_cancel hk.le]
  have hlt : 2 ^ k < 2 ^ w := Nat.pow_lt_pow_right (by decide) hk
  have hlow : low.toNat / 2 ^ k < 2 ^ (w - k) := by
    apply Nat.div_lt_of_lt_mul
    rw [Nat.mul_comm, ← hsize]
    exact low.isLt
  have htop : high.toNat * 2 ^ (w - k) % 2 ^ w = 2 ^ (w - k) * (high.toNat % 2 ^ k) := by
    rw [hsize, Nat.mul_comm, Nat.mul_mod_mul_left]
  have hshift : (high.toNat * 2 ^ w + low.toNat) / 2 ^ k =
      high.toNat * 2 ^ (w - k) + low.toNat / 2 ^ k := by
    rw [hsize, ← Nat.mul_assoc, Nat.add_comm, Nat.add_mul_div_right _ _ (Nat.two_pow_pos k),
      Nat.add_comm]
  have hsum : 2 ^ (w - k) * (high.toNat % 2 ^ k) + low.toNat / 2 ^ k < 2 ^ w := by
    have hrest : high.toNat % 2 ^ k + 1 ≤ 2 ^ k := Nat.mod_lt _ (Nat.two_pow_pos k)
    calc 2 ^ (w - k) * (high.toNat % 2 ^ k) + low.toNat / 2 ^ k
        < 2 ^ (w - k) * (high.toNat % 2 ^ k) + 2 ^ (w - k) := by omega
      _ = 2 ^ (w - k) * (high.toNat % 2 ^ k + 1) := by ring
      _ ≤ 2 ^ (w - k) * 2 ^ k := Nat.mul_le_mul_left _ hrest
      _ = 2 ^ w := hsize.symm
  have htwo : (BitVec.ofNat w (2 ^ (w - k))).toNat = 2 ^ (w - k) % 2 ^ w := BitVec.toNat_ofNat _ _
  apply BitVec.eq_of_toNat_eq
  rw [BitVec.toNat_or, BitVec.toNat_udiv, BitVec.toNat_mul, htwo, BitVec.toNat_twoPow,
    Nat.mod_eq_of_lt hlt, Nat.mul_mod_mod, htop, Nat.or_comm,
    ← Nat.two_pow_add_eq_or_of_lt hlow, BitVec.toNat_ofNat, hshift, Nat.add_mod, htop,
    Nat.mod_eq_of_lt (hlow.trans_le (Nat.pow_le_pow_right (by decide) (Nat.sub_le w k))),
    Nat.mod_eq_of_lt hsum]

theorem mul_inverse_cancel {R : Type} [CommRing R] {d q inverse : R} (h : d * inverse = 1) :
    d * q * inverse = q := by
  linear_combination q * h

end Words

/-! ## The high word of a product -/

/-- The remainders of a product modulo `r` and `r - 1` determine its high digit in base `r`. -/
theorem high_of_remainders {r product : Nat} (hr : 2 ≤ r) (hproduct : product ≤ (r - 1) * (r - 1)) :
    ((product % (r - 1) + 2 * r - product % r -
      if product % (r - 1) < product % r then 1 else 0) % r) = product / r := by
  obtain ⟨n, rfl⟩ : ∃ n, r = n + 1 := ⟨r - 1, by omega⟩
  rw [Nat.add_sub_cancel] at hproduct ⊢
  have hdiv := Nat.div_add_mod product (n + 1)
  have hlow := Nat.mod_lt product (show 0 < n + 1 by omega)
  generalize hhigh : product / (n + 1) = high at hdiv ⊢
  generalize product % (n + 1) = low at hdiv hlow ⊢
  have hhighlt : high < n := by
    rw [← hhigh]
    apply Nat.div_lt_of_lt_mul
    calc product ≤ n * n := hproduct
      _ < (n + 1) * n := Nat.mul_lt_mul_of_pos_right (Nat.lt_succ_self n) (by omega)
  have hmod : product % n = (high + low) % n := by
    rw [← hdiv, show (n + 1) * high + low = high + low + n * high by ring,
      Nat.add_mul_mod_self_left]
  rw [hmod]
  by_cases hwrap : high + low < n
  · rw [Nat.mod_eq_of_lt hwrap, if_neg (by omega)]
    have hsum : high + low + 2 * (n + 1) - low - 0 = high + (n + 1) * 2 := by omega
    rw [hsum, Nat.add_mul_mod_self_left, Nat.mod_eq_of_lt (by omega)]
  · have hsub : (high + low) % n = high + low - n := by
      rw [Nat.mod_eq_sub_mod (by omega), Nat.mod_eq_of_lt (by omega)]
    rw [hsub, if_pos (by omega)]
    have hsum : high + low - n + 2 * (n + 1) - low - 1 = high + (n + 1) * 1 := by omega
    rw [hsum, Nat.add_mul_mod_self_left, Nat.mod_eq_of_lt (by omega)]

end PrismBackend.Lib
