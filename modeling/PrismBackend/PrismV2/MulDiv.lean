import PrismBackend.Lib.WordDivision
import PrismBackend.PrismV2.Contract

/-!
# PrismV2: `Math.mulDiv`

The library function that `settle` and `redeem` divide with, in words of 256
bits that wrap: a double-word product by two remainders, a division made exact,
and an inverse by Newton's iteration. It computes what `mulDiv` of the
contract's model states.
-/

namespace PrismBackend.PrismV2

open PrismBackend.Lib

abbrev Word := BitVec 256

/-- The panic codes that the library raises. -/
inductive Panic
  | underOverflow
  | divisionByZero
  deriving DecidableEq, Repr

namespace Math

/-! ## Opcodes -/

/-- `MULMOD`: the full product is reduced, and zero is the remainder of a division by zero. -/
def mulmod (a b n : Word) : Word :=
  if n = 0 then 0 else BitVec.ofNat 256 (a.toNat * b.toNat % n.toNat)

def lt (a b : Word) : Word := if a < b then 1 else 0

def gt (a b : Word) : Word := lt b a

/-! ## The library -/

/-- The product as a high and a low word, from its remainders modulo `2^256 - 1` and `2^256`. -/
def mul512 (a b : Word) : Word × Word :=
  let mm := mulmod a b (~~~0)
  let low := a * b
  (mm - low - lt mm low, low)

/-- The inverse of an odd word: a seed that is right for four bits, and six doublings. -/
def inverse (denominator : Word) : Word :=
  let inverse := 3 * denominator ^^^ 2
  let inverse := inverse * (2 - denominator * inverse)
  let inverse := inverse * (2 - denominator * inverse)
  let inverse := inverse * (2 - denominator * inverse)
  let inverse := inverse * (2 - denominator * inverse)
  let inverse := inverse * (2 - denominator * inverse)
  inverse * (2 - denominator * inverse)

/-- The branch of `mulDiv` for a product of two words. -/
def divide512 (x y high low denominator : Word) : Word :=
  -- make the division exact
  let remainder := mulmod x y denominator
  let high := high - gt remainder low
  let low := low - remainder
  -- factor powers of two out of the denominator
  let twos := denominator &&& (0 - denominator)
  let denominator := denominator / twos
  let low := low / twos
  let twos := (0 - twos) / twos + 1
  -- shift in bits from high into low
  let low := low ||| high * twos
  low * inverse denominator

def mulDiv (x y denominator : Word) : Except Panic Word :=
  let (high, low) := mul512 x y
  if high = 0 then
    if denominator = 0 then .error .divisionByZero else .ok (low / denominator)
  else if denominator ≤ high then
    .error (if denominator = 0 then .divisionByZero else .underOverflow)
  else .ok (divide512 x y high low denominator)

/-! ## The product -/

theorem mulmod_toNat {a b n : Word} (hn : n ≠ 0) :
    (mulmod a b n).toNat = a.toNat * b.toNat % n.toNat := by
  have hpos : 0 < n.toNat := by
    rcases Nat.eq_zero_or_pos n.toNat with hzero | hpos
    · exact absurd (BitVec.eq_of_toNat_eq hzero) hn
    · exact hpos
  rw [mulmod, if_neg hn, BitVec.toNat_ofNat,
    Nat.mod_eq_of_lt ((Nat.mod_lt _ hpos).trans n.isLt)]

theorem lt_toNat (a b : Word) : (lt a b).toNat = if a.toNat < b.toNat then 1 else 0 := by
  simp only [lt, BitVec.lt_def]
  split
  · rfl
  · rfl

theorem mul512_high (a b : Word) : (mul512 a b).1.toNat = a.toNat * b.toNat / 2 ^ 256 := by
  have ha := a.isLt
  have hb := b.isLt
  have hproduct : a.toNat * b.toNat ≤ (2 ^ 256 - 1) * (2 ^ 256 - 1) :=
    Nat.mul_le_mul (by omega) (by omega)
  have hones : (~~~0 : Word) ≠ 0 := by decide
  have hmm : (mulmod a b (~~~0)).toNat = a.toNat * b.toNat % (2 ^ 256 - 1) := mulmod_toNat hones
  have hlow : (a * b).toNat = a.toNat * b.toNat % 2 ^ 256 := BitVec.toNat_mul a b
  have hborrow := lt_toNat (mulmod a b (~~~0)) (a * b)
  rw [hmm, hlow] at hborrow
  rw [← high_of_remainders (by decide) hproduct]
  show (mulmod a b (~~~0) - a * b - lt (mulmod a b (~~~0)) (a * b)).toNat = _
  rw [BitVec.toNat_sub, BitVec.toNat_sub, hborrow, hlow, hmm]
  have hmm' := Nat.mod_lt (a.toNat * b.toNat) (show 0 < 2 ^ 256 - 1 by decide)
  have hlow' := Nat.mod_lt (a.toNat * b.toNat) (show 0 < 2 ^ 256 by decide)
  generalize a.toNat * b.toNat % (2 ^ 256 - 1) = mm at hmm' ⊢
  generalize a.toNat * b.toNat % 2 ^ 256 = low at hlow' ⊢
  split <;> omega

theorem mul512_value (a b : Word) :
    (mul512 a b).1.toNat * 2 ^ 256 + (mul512 a b).2.toNat = a.toNat * b.toNat := by
  have hlow : (mul512 a b).2.toNat = a.toNat * b.toNat % 2 ^ 256 := BitVec.toNat_mul a b
  rw [mul512_high, hlow, Nat.div_add_mod']

/-! ## The quotient -/

theorem inverse_eq_iterate (d : Word) : inverse d = (newtonStep d)^[6] (3 * d ^^^ 2) := rfl

theorem mul_inverse {d : Word} (hodd : d.getLsbD 0 = true) : d * inverse d = 1 := by
  have hzero : ((2 : Word) ^ 4) ^ 2 ^ 6 = 0 := by
    rw [← pow_mul]
    exact bitVec_two_pow 256
  rw [inverse_eq_iterate]
  exact newtonStep_iterate_inverse (newtonSeed_dvd (by decide) hodd) hzero

/-- Subtraction on two digits in base `r`, with a borrow. -/
theorem sub_borrow {r high low subtrahend difference : Nat} (hhigh : high < r) (hlow : low < r)
    (hsubtrahend : subtrahend < r) (h : high * r + low = difference + subtrahend) :
    (r - (if low < subtrahend then 1 else 0) + high) % r * r + (r - subtrahend + low) % r =
      difference := by
  by_cases hborrow : low < subtrahend
  · obtain ⟨rest, rfl⟩ : ∃ rest, high = rest + 1 := by
      cases high with
      | zero => exact absurd h (by omega)
      | succ rest => exact ⟨rest, rfl⟩
    have hhigh' : r - 1 + (rest + 1) = rest + r := by omega
    rw [Nat.add_mul] at h
    rw [if_pos hborrow, hhigh', Nat.add_mod_right, Nat.mod_eq_of_lt (by omega),
      Nat.mod_eq_of_lt (by omega)]
    omega
  · have hlow' : r - subtrahend + low = low - subtrahend + r := by omega
    rw [if_neg hborrow, hlow', Nat.add_mod_right, Nat.sub_zero, Nat.add_mod_left,
      Nat.mod_eq_of_lt hhigh, Nat.mod_eq_of_lt (by omega)]
    omega

/-- With the remainder taken off, the two words are the product's multiple of the denominator. -/
theorem reduced_value {x y high low d : Word} (hd : d ≠ 0)
    (hvalue : high.toNat * 2 ^ 256 + low.toNat = x.toNat * y.toNat) :
    (high - gt (mulmod x y d) low).toNat * 2 ^ 256 + (low - mulmod x y d).toNat =
      d.toNat * (x.toNat * y.toNat / d.toNat) := by
  have hdm := Nat.div_add_mod (x.toNat * y.toNat) d.toNat
  rw [← mulmod_toNat hd, ← hvalue] at hdm
  rw [BitVec.toNat_sub, BitVec.toNat_sub, gt, lt_toNat]
  rw [← hvalue]
  exact sub_borrow high.isLt low.isLt (mulmod x y d).isLt hdm.symm

/-- A wide product divides exactly when the quotient fits one word. -/
theorem divide512_eq {x y high low d : Word} (hd : d ≠ 0)
    (hvalue : high.toNat * 2 ^ 256 + low.toNat = x.toNat * y.toNat) :
    divide512 x y high low d = BitVec.ofNat 256 (x.toNat * y.toNat / d.toNat) := by
  have hk : d.ctz.toNat < 256 := by
    have hlt := BitVec.ctz_lt_iff_ne_zero.mpr hd
    rw [BitVec.lt_def] at hlt
    simpa using hlt
  have htwos := and_neg_eq_twoPow hd
  have hset := BitVec.getLsbD_true_ctz_of_ne_zero hd
  have hlowbits {i : Nat} (hi : i < d.ctz.toNat) := BitVec.getLsbD_false_of_lt_ctz hi
  generalize d.ctz.toNat = k at hk htwos hset hlowbits
  have hlt : 2 ^ k < 2 ^ 256 := Nat.pow_lt_pow_right (by decide) hk
  have htwo : (BitVec.twoPow 256 k).toNat = 2 ^ k := by
    rw [BitVec.toNat_twoPow, Nat.mod_eq_of_lt hlt]
  -- the denominator is its odd part times the power of two
  have hodd : (d / BitVec.twoPow 256 k).getLsbD 0 = true := by
    rw [BitVec.getLsbD, BitVec.toNat_udiv, htwo, Nat.testBit_div_two_pow, Nat.zero_add]
    exact hset
  have hdvd : 2 ^ k ∣ d.toNat := by
    apply Nat.dvd_of_mod_eq_zero
    apply Nat.eq_of_testBit_eq
    intro i
    rw [Nat.testBit_mod_two_pow, Nat.zero_testBit]
    by_cases hi : i < k
    · have hbit := hlowbits hi
      rw [BitVec.getLsbD] at hbit
      simp [hbit]
    · simp [hi]
  have hreduced := reduced_value hd hvalue
  have hquotient : d.toNat * (x.toNat * y.toNat / d.toNat) / 2 ^ k =
      (d / BitVec.twoPow 256 k).toNat * (x.toNat * y.toNat / d.toNat) := by
    rw [BitVec.toNat_udiv, htwo, Nat.mul_comm d.toNat, Nat.mul_div_assoc _ hdvd, Nat.mul_comm]
  unfold divide512
  simp only
  rw [htwos, neg_div_add_one hk, div_twoPow_or hk, hreduced, hquotient, BitVec.ofNat_mul]
  have hself : BitVec.ofNat 256 (d / BitVec.twoPow 256 k).toNat = d / BitVec.twoPow 256 k := by
    rw [BitVec.ofNat_toNat, BitVec.setWidth_eq]
  rw [hself]
  exact mul_inverse_cancel (mul_inverse hodd)

/-- What `Math.mulDiv` returns for any three words: the quotient of the full product, a panic for a
zero denominator, and a panic for a quotient that does not fit. -/
theorem mulDiv_eq (x y denominator : Word) :
    mulDiv x y denominator =
      if denominator = 0 then .error .divisionByZero
      else if 2 ^ 256 ≤ x.toNat * y.toNat / denominator.toNat then .error .underOverflow
      else .ok (BitVec.ofNat 256 (x.toNat * y.toNat / denominator.toNat)) := by
  have hvalue := mul512_value x y
  rw [mulDiv]
  rcases hwords : mul512 x y with ⟨high, low⟩
  rw [hwords] at hvalue
  have hlow := low.isLt
  simp only at hvalue ⊢
  by_cases hzero : denominator = 0
  · subst hzero
    by_cases hhigh : high = 0
    · rw [if_pos hhigh, if_pos rfl, if_pos rfl]
    · rw [if_neg hhigh, if_pos (by simp [BitVec.le_def]), if_pos rfl, if_pos rfl]
  · have hpos : 0 < denominator.toNat := by
      rcases Nat.eq_zero_or_pos denominator.toNat with hnat | hnat
      · exact absurd (BitVec.eq_of_toNat_eq hnat) hzero
      · exact hnat
    rw [if_neg hzero, if_neg hzero, if_neg hzero]
    by_cases hhigh : high = 0
    · have hproduct : x.toNat * y.toNat = low.toNat := by
        rw [← hvalue, hhigh]
        simp
      have hfits : low.toNat / denominator.toNat < 2 ^ 256 :=
        (Nat.div_le_self _ _).trans_lt hlow
      have hquotient : low / denominator = BitVec.ofNat 256 (low.toNat / denominator.toNat) := by
        apply BitVec.eq_of_toNat_eq
        rw [BitVec.toNat_udiv, BitVec.toNat_ofNat, Nat.mod_eq_of_lt hfits]
      rw [if_pos hhigh, hproduct, if_neg (by omega), hquotient]
    · rw [if_neg hhigh]
      have hfits : denominator ≤ high ↔ 2 ^ 256 ≤ x.toNat * y.toNat / denominator.toNat := by
        rw [BitVec.le_def, Nat.le_div_iff_mul_le hpos, ← hvalue]
        constructor
        · intro hle
          have hmul := Nat.mul_le_mul_left (2 ^ 256) hle
          omega
        · intro hle
          by_contra hlt
          have hnext : high.toNat + 1 ≤ denominator.toNat := by omega
          have hmul := Nat.mul_le_mul_left (2 ^ 256) hnext
          omega
      by_cases hle : denominator ≤ high
      · rw [if_pos hle, if_pos (hfits.mp hle)]
      · rw [if_neg hle, if_neg (mt hfits.mpr hle), divide512_eq hzero hvalue]

end Math

/-! ## The contract's division -/

/-- On words, the library function and the division of the contract's model agree: they return the
same quotient, or both revert. -/
theorem mulDiv_words (x y denominator : Word) :
    ((Math.mulDiv x y denominator).map BitVec.toNat).mapError (fun _ => Err.arithmetic) =
      mulDiv x.toNat y.toNat denominator.toNat := by
  have hzero : denominator.toNat = 0 ↔ denominator = 0 :=
    ⟨fun h => BitVec.eq_of_toNat_eq h, fun h => by rw [h]; rfl⟩
  rw [Math.mulDiv_eq, mulDiv]
  by_cases hd : denominator = 0
  · rw [if_pos hd, revertIf, if_pos (Or.inl (hzero.mpr hd))]
    rfl
  · rw [if_neg hd]
    by_cases hfits : 2 ^ 256 ≤ x.toNat * y.toNat / denominator.toNat
    · rw [if_pos hfits, revertIf, if_pos (Or.inr hfits)]
      rfl
    · have hsound : ¬(denominator.toNat = 0 ∨ 2 ^ 256 ≤ x.toNat * y.toNat / denominator.toNat) := by
        rw [hzero]
        exact not_or.mpr ⟨hd, hfits⟩
      rw [if_neg hfits, revertIf, if_neg hsound]
      show Except.ok (BitVec.ofNat 256 (x.toNat * y.toNat / denominator.toNat)).toNat = _
      rw [BitVec.toNat_ofNat, Nat.mod_eq_of_lt (Nat.not_le.mp hfits)]
      rfl

/-- `Math.mulDiv` for any three words: it divides the full product of 512 bits, panics with a
division by zero for a zero denominator and with an overflow for a quotient that does not fit, and
the contract's division is this one. -/
theorem mulDiv_full_precision (x y denominator : Word) :
    Math.mulDiv x y denominator =
        (if denominator = 0 then .error .divisionByZero
        else if 2 ^ 256 ≤ x.toNat * y.toNat / denominator.toNat then .error .underOverflow
        else .ok (BitVec.ofNat 256 (x.toNat * y.toNat / denominator.toNat))) ∧
      ((Math.mulDiv x y denominator).map BitVec.toNat).mapError (fun _ => Err.arithmetic) =
        mulDiv x.toNat y.toNat denominator.toNat :=
  ⟨Math.mulDiv_eq x y denominator, mulDiv_words x y denominator⟩

example : Math.mulDiv (2 ^ 255) 6 12 = .ok (2 ^ 254) := by decide +kernel

end PrismBackend.PrismV2
