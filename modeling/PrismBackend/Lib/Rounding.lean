import Mathlib.Data.Int.ConditionallyCompleteOrder
import Mathlib.Data.Int.Log
import Mathlib.Data.Rat.Floor
import Mathlib.Tactic.Linarith
import Mathlib.Tactic.Ring

/-!
# Rounding

What a machine makes of the exact result of one operation. Two arithmetics are
here: the exact one, and double precision, which keeps 53 bits, takes the nearest
number and, between two, the even one. Magnitudes from 2^1024 on, which double
precision calls infinite, stay numbers.
-/

namespace PrismBackend.Lib

/-- An arithmetic: the number that stands for an exact result. -/
structure Rounding where
  round : ℚ → ℚ
  mono : Monotone round
  neg : ∀ x, round (-x) = -round x
  idem : ∀ x, round (round x) = round x
  one : round 1 = 1
  half : round (1 / 2) = 1 / 2

namespace Rounding

variable (r : Rounding)

def exact : Rounding where
  round := id
  mono := monotone_id
  neg _ := rfl
  idem _ := rfl
  one := rfl
  half := rfl

def sum (xs : List ℚ) : ℚ := xs.foldl (fun total x => r.round (total + x)) 0

@[simp] theorem exact_round (x : ℚ) : exact.round x = x := rfl

theorem exact_sum (xs : List ℚ) : exact.sum xs = xs.sum := List.sum_eq_foldl.symm

theorem zero : r.round 0 = 0 := by
  have hneg := r.neg 0
  rw [neg_zero] at hneg
  linarith

theorem nonneg {x : ℚ} (h : 0 ≤ x) : 0 ≤ r.round x := by
  have hround := r.mono h
  rwa [r.zero] at hround

end Rounding

/-! ## The nearest integer -/

/-- The nearest integer, and of two the even one. -/
def roundEven (x : ℚ) : Int :=
  if Int.fract x < 1 / 2 ∨ Int.fract x = 1 / 2 ∧ ⌊x⌋ % 2 = 0 then ⌊x⌋ else ⌊x⌋ + 1

theorem roundEven_intCast (n : Int) : roundEven n = n := by
  unfold roundEven
  rw [Int.fract_intCast, Int.floor_intCast, if_pos (Or.inl (by norm_num))]

theorem roundEven_cases (x : ℚ) :
    (roundEven x = ⌊x⌋ ∧ Int.fract x ≤ 1 / 2) ∨ (roundEven x = ⌊x⌋ + 1 ∧ 1 / 2 ≤ Int.fract x) := by
  unfold roundEven
  split
  · next h => exact Or.inl ⟨rfl, h.elim le_of_lt fun htie => htie.1.le⟩
  · next h =>
    rw [not_or, not_lt] at h
    exact Or.inr ⟨rfl, h.1⟩

theorem roundEven_mono : Monotone roundEven := by
  intro x y hxy
  have hfloor : ⌊x⌋ ≤ ⌊y⌋ := Int.floor_mono hxy
  rcases hfloor.lt_or_eq with hlt | heq
  · rcases roundEven_cases x with ⟨hx, _⟩ | ⟨hx, _⟩
    · rcases roundEven_cases y with ⟨hy, _⟩ | ⟨hy, _⟩
      · omega
      · omega
    · rcases roundEven_cases y with ⟨hy, _⟩ | ⟨hy, _⟩
      · omega
      · omega
  · -- in one unit the fractions decide
    have hfract : Int.fract x ≤ Int.fract y := by
      have hx := Int.floor_add_fract x
      have hy := Int.floor_add_fract y
      rw [heq] at hx
      linarith
    unfold roundEven
    rw [heq]
    split
    · split
      · exact le_rfl
      · omega
    · next hx =>
      rw [if_neg]
      intro hy
      apply hx
      rcases hy with hy | hy
      · exact Or.inl (hfract.trans_lt hy)
      · exact (hfract.trans_eq hy.1).lt_or_eq.imp id fun htie => ⟨htie, hy.2⟩

theorem roundEven_neg (x : ℚ) : roundEven (-x) = -roundEven x := by
  by_cases hzero : Int.fract x = 0
  · have hx : ((⌊x⌋ : Int) : ℚ) = x := by
      have hsum := Int.floor_add_fract x
      rwa [hzero, add_zero] at hsum
    rw [← hx, ← Int.cast_neg, roundEven_intCast, roundEven_intCast]
  · have hfract : Int.fract (-x) = 1 - Int.fract x := Int.fract_neg hzero
    have hfloor : ⌊-x⌋ = -⌊x⌋ - 1 := by
      have hx := Int.floor_add_fract x
      have hneg := Int.floor_add_fract (-x)
      rw [hfract] at hneg
      have hcast : ((⌊-x⌋ : Int) : ℚ) = ((-⌊x⌋ - 1 : Int) : ℚ) := by
        push_cast
        linarith
      exact Int.cast_injective hcast
    unfold roundEven
    rw [hfract, hfloor]
    rcases lt_trichotomy (Int.fract x) (1 / 2) with hlt | htie | hgt
    · rw [if_pos (Or.inl hlt), if_neg]
      · omega
      · rintro (h | h)
        · linarith
        · linarith [h.1]
    · -- a tie: of two neighbours one is even
      rw [htie]
      have htie' : (1 : ℚ) - 1 / 2 = 1 / 2 := by norm_num
      rw [htie']
      rcases Int.emod_two_eq_zero_or_one ⌊x⌋ with heven | hodd
      · rw [if_neg, if_pos (Or.inr ⟨rfl, heven⟩)]
        · omega
        · rintro (h | h)
          · exact absurd h (lt_irrefl _)
          · omega
      · rw [if_pos (Or.inr ⟨rfl, by omega⟩), if_neg]
        · omega
        · rintro (h | h)
          · exact absurd h (lt_irrefl _)
          · omega
    · rw [if_pos (Or.inl (by linarith)), if_neg]
      · omega
      · rintro (h | h)
        · linarith
        · linarith [h.1]

/-! ## Double precision -/

/-- The exponent of the last of 53 bits, as far down as there are numbers. -/
def ulpExponent (x : ℚ) : Int := max (Int.log 2 |x| - 52) (-1074)

def ulp (x : ℚ) : ℚ := 2 ^ ulpExponent x

def roundFloat64 (x : ℚ) : ℚ := roundEven (x / ulp x) * ulp x

theorem ulp_pos (x : ℚ) : 0 < ulp x := zpow_pos (by norm_num) _

theorem roundFloat64_neg (x : ℚ) : roundFloat64 (-x) = -roundFloat64 x := by
  have hulp : ulp (-x) = ulp x := by rw [ulp, ulp, ulpExponent, ulpExponent, abs_neg]
  rw [roundFloat64, roundFloat64, hulp, neg_div, roundEven_neg, Int.cast_neg, neg_mul]

theorem exists_multiple {x : ℚ} {e : Int} (n : Int) (he : ulpExponent x ≤ e) :
    ∃ m : Int, (n * 2 ^ e : ℚ) = m * ulp x := by
  obtain ⟨k, rfl⟩ := Int.le.dest he
  refine ⟨n * 2 ^ k, ?_⟩
  rw [ulp, zpow_add₀ two_ne_zero, zpow_natCast]
  push_cast
  ring

theorem roundFloat64_le_multiple {x : ℚ} {n e : Int} (he : ulpExponent x ≤ e)
    (h : x ≤ n * 2 ^ e) : roundFloat64 x ≤ n * 2 ^ e := by
  obtain ⟨m, hm⟩ := exists_multiple n he
  have hquotient : x / ulp x ≤ m := by rwa [div_le_iff₀ (ulp_pos x), ← hm]
  have hround := roundEven_mono hquotient
  rw [roundEven_intCast] at hround
  rw [hm]
  exact mul_le_mul_of_nonneg_right (Int.cast_le.mpr hround) (ulp_pos x).le

theorem multiple_le_roundFloat64 {x : ℚ} {n e : Int} (he : ulpExponent x ≤ e)
    (h : n * 2 ^ e ≤ x) : n * 2 ^ e ≤ roundFloat64 x := by
  obtain ⟨m, hm⟩ := exists_multiple n he
  have hquotient : m ≤ x / ulp x := by rwa [le_div_iff₀ (ulp_pos x), ← hm]
  have hround := roundEven_mono hquotient
  rw [roundEven_intCast] at hround
  rw [hm]
  exact mul_le_mul_of_nonneg_right (Int.cast_le.mpr hround) (ulp_pos x).le

theorem roundFloat64_of_multiple {x : ℚ} {n e : Int} (he : ulpExponent x ≤ e)
    (hx : x = n * 2 ^ e) : roundFloat64 x = x := by
  apply le_antisymm
  · calc roundFloat64 x ≤ n * 2 ^ e := roundFloat64_le_multiple he hx.le
      _ = x := hx.symm
  · calc x = n * 2 ^ e := hx
      _ ≤ roundFloat64 x := multiple_le_roundFloat64 he hx.ge

theorem roundFloat64_of_bits {x : ℚ} {n : Int} {e : Int} (hn : |n| ≤ 2 ^ 53) (he : -1074 ≤ e)
    (hx : x = n * 2 ^ e) : roundFloat64 x = x := by
  by_cases hzero : n = 0
  · rw [hx, hzero, Int.cast_zero, zero_mul, roundFloat64, zero_div]
    exact (congrArg (fun m : Int => (m : ℚ) * ulp 0) (roundEven_intCast 0)).trans (by simp)
  have hpower : (0 : ℚ) < 2 ^ e := zpow_pos (by norm_num) e
  have habs : |x| = |n| * 2 ^ e := by rw [hx, abs_mul, abs_of_pos hpower, Int.cast_abs]
  have hpos : 0 < |x| := by
    rw [habs]
    exact mul_pos (by exact_mod_cast abs_pos.mpr hzero) hpower
  rcases hn.lt_or_eq with hlt | heq
  · apply roundFloat64_of_multiple _ hx
    have hbits : |x| < 2 ^ (e + 53) := by
      rw [habs, zpow_add₀ two_ne_zero, mul_comm]
      apply mul_lt_mul_of_pos_left _ hpower
      exact_mod_cast hlt
    have hlog : Int.log 2 |x| < e + 53 := (Int.lt_zpow_iff_log_lt (by norm_num) hpos).mp hbits
    unfold ulpExponent
    omega
  · -- one bit more, but a power of two
    have hpowerOf : |x| = 2 ^ (e + 53) := by
      rw [habs, heq, zpow_add₀ two_ne_zero, mul_comm]
      norm_num
    have hlog : Int.log 2 |x| = e + 53 := by
      rw [hpowerOf]
      exact_mod_cast Int.log_zpow (R := ℚ) (b := 2) (by norm_num) (e + 53)
    have hle : ulpExponent x ≤ e + 1 := by
      unfold ulpExponent
      omega
    rcases abs_eq (by norm_num : (0 : Int) ≤ 2 ^ 53) |>.mp heq with hn | hn
    · apply roundFloat64_of_multiple (n := 2 ^ 52) hle
      rw [hx, hn, zpow_add₀ two_ne_zero]
      push_cast
      ring
    · apply roundFloat64_of_multiple (n := -2 ^ 52) hle
      rw [hx, hn, zpow_add₀ two_ne_zero]
      push_cast
      ring

/-- The last of 53 bits is too small for one more bit. -/
theorem abs_lt_ulp (x : ℚ) : |x| < 2 ^ (53 : Nat) * ulp x := by
  have hlog : |x| < 2 ^ (Int.log 2 |x| + 1) := by
    exact_mod_cast Int.lt_zpow_succ_log_self (b := 2) (by norm_num) |x|
  have hexponent : Int.log 2 |x| + 1 ≤ 53 + ulpExponent x := by
    unfold ulpExponent
    omega
  calc |x| < 2 ^ (Int.log 2 |x| + 1) := hlog
    _ ≤ 2 ^ (53 + ulpExponent x) := zpow_le_zpow_right₀ (by norm_num) hexponent
    _ = 2 ^ (53 : Nat) * ulp x := by
      rw [ulp, zpow_add₀ two_ne_zero]
      norm_num

theorem roundFloat64_roundFloat64 (x : ℚ) : roundFloat64 (roundFloat64 x) = roundFloat64 x := by
  have hquotient : |x / ulp x| ≤ ((2 ^ 53 : Int) : ℚ) := by
    rw [abs_div, abs_of_pos (ulp_pos x), div_le_iff₀ (ulp_pos x)]
    exact_mod_cast (abs_lt_ulp x).le
  rw [abs_le] at hquotient
  have hupper := roundEven_mono hquotient.2
  have hlower := roundEven_mono hquotient.1
  rw [← Int.cast_neg, roundEven_intCast] at hlower
  rw [roundEven_intCast] at hupper
  exact roundFloat64_of_bits (abs_le.mpr ⟨hlower, hupper⟩) (le_max_right _ _) rfl

/-- Where the last bits differ, a power of two lies between the numbers. -/
theorem roundFloat64_le {x y : ℚ} (hx : 0 < x) (hxy : x ≤ y) : roundFloat64 x ≤ roundFloat64 y := by
  have hy := hx.trans_le hxy
  have hlogs : Int.log 2 |x| ≤ Int.log 2 |y| := by
    rw [abs_of_pos hx, abs_of_pos hy]
    exact Int.log_mono_right hx hxy
  have hexponents : ulpExponent x ≤ ulpExponent y := by
    unfold ulpExponent
    omega
  rcases hexponents.lt_or_eq with hlt | heq
  · have hshort : Int.log 2 |x| + 1 ≤ Int.log 2 |y| ∧ ulpExponent y ≤ Int.log 2 |y| := by
      unfold ulpExponent at hlt ⊢
      omega
    have hupper : x ≤ (1 : Int) * 2 ^ Int.log 2 |y| := by
      have hlog := Int.lt_zpow_succ_log_self (b := 2) (by norm_num) |x|
      have hpower : (2 : ℚ) ^ (Int.log 2 |x| + 1) ≤ 2 ^ Int.log 2 |y| :=
        zpow_le_zpow_right₀ (by norm_num) hshort.1
      rw [Int.cast_one, one_mul]
      exact (le_abs_self x).trans (hlog.le.trans hpower)
    have hlower : (1 : Int) * 2 ^ Int.log 2 |y| ≤ y := by
      have hlog := Int.zpow_log_le_self (b := 2) (by norm_num) (abs_pos.mpr hy.ne')
      rw [Int.cast_one, one_mul]
      exact hlog.trans_eq (abs_of_pos hy)
    exact (roundFloat64_le_multiple (hlt.le.trans hshort.2) hupper).trans
      (multiple_le_roundFloat64 hshort.2 hlower)
  · have hulp : ulp x = ulp y := congrArg (fun e : Int => (2 : ℚ) ^ e) heq
    rw [roundFloat64, roundFloat64, hulp]
    apply mul_le_mul_of_nonneg_right _ (ulp_pos y).le
    exact Int.cast_le.mpr (roundEven_mono (div_le_div_of_nonneg_right hxy (ulp_pos y).le))

theorem roundFloat64_nonneg {x : ℚ} (h : 0 ≤ x) : 0 ≤ roundFloat64 x := by
  have hzero : ((0 : Int) : ℚ) * 2 ^ ulpExponent x = 0 := by rw [Int.cast_zero, zero_mul]
  rw [← hzero] at h ⊢
  exact multiple_le_roundFloat64 le_rfl h

theorem roundFloat64_mono : Monotone roundFloat64 := by
  intro x y hxy
  have hneg (x : ℚ) (h : x ≤ 0) : roundFloat64 x ≤ 0 := by
    have hround := roundFloat64_nonneg (neg_nonneg.mpr h)
    rw [roundFloat64_neg] at hround
    exact neg_nonneg.mp hround
  rcases lt_trichotomy x 0 with hx | rfl | hx
  · rcases lt_or_ge y 0 with hy | hy
    · have hround := roundFloat64_le (neg_pos.mpr hy) (neg_le_neg hxy)
      rw [roundFloat64_neg, roundFloat64_neg] at hround
      exact neg_le_neg_iff.mp hround
    · exact (hneg x hx.le).trans (roundFloat64_nonneg hy)
  · exact (hneg 0 le_rfl).trans (roundFloat64_nonneg hxy)
  · exact roundFloat64_le hx hxy

def float64 : Rounding where
  round := roundFloat64
  mono := roundFloat64_mono
  neg := roundFloat64_neg
  idem := roundFloat64_roundFloat64
  one := roundFloat64_of_bits (n := 1) (e := 0) (by norm_num) (by norm_num) (by norm_num)
  half := roundFloat64_of_bits (n := 1) (e := -1) (by norm_num) (by norm_num) (by norm_num)

/-- The fifth of double precision is a little more than a fifth. -/
example : float64.round (1 / 5) = 3602879701896397 / 18014398509481984 := by decide +kernel

end PrismBackend.Lib
