import Mathlib.Algebra.Order.Field.Basic
import Mathlib.Tactic.FieldSimp
import Mathlib.Tactic.Linarith
import Mathlib.Tactic.Ring

/-!
# Average-cost accounting

A holding has a quantity and the cost of what is held. A purchase adds to both;
a sale takes the average cost of what it sells out of the cost, and its gain is
the difference to the proceeds.
-/

namespace PrismBackend.Lib

structure CostBasis (K : Type) where
  quantity : K
  cost : K

namespace CostBasis

variable {K : Type} [Field K]

def average (holding : CostBasis K) : K := holding.cost / holding.quantity

def buy (holding : CostBasis K) (quantity price : K) : CostBasis K :=
  ⟨holding.quantity + quantity, holding.cost + quantity * price⟩

def sell (holding : CostBasis K) (quantity : K) : CostBasis K :=
  ⟨holding.quantity - quantity, holding.cost - holding.average * quantity⟩

def gain (holding : CostBasis K) (quantity price : K) : K :=
  quantity * price - holding.average * quantity

variable {holding : CostBasis K}

theorem average_mul_quantity (h : holding.quantity = 0 → holding.cost = 0) :
    holding.average * holding.quantity = holding.cost := by
  by_cases hzero : holding.quantity = 0
  · rw [hzero, mul_zero, h hzero]
  · exact div_mul_cancel₀ holding.cost hzero

/-- What is left of the cost is the average cost of what is left. -/
theorem sell_cost (h : holding.quantity = 0 → holding.cost = 0) (quantity : K) :
    (holding.sell quantity).cost = holding.average * (holding.sell quantity).quantity := by
  show holding.cost - holding.average * quantity = holding.average * (holding.quantity - quantity)
  rw [mul_sub, average_mul_quantity h]

/-- A sale leaves the average cost of a remaining holding as it was. -/
theorem sell_average (h : holding.quantity = 0 → holding.cost = 0) {quantity : K}
    (hleft : (holding.sell quantity).quantity ≠ 0) :
    (holding.sell quantity).average = holding.average := by
  rw [average, sell_cost h]
  exact mul_div_cancel_right₀ _ hleft

/-- The cash flow of a sale is its gain and what it takes from the cost. -/
theorem gain_sub_cost (quantity price : K) :
    holding.gain quantity price - (holding.sell quantity).cost =
      quantity * price - holding.cost := by
  show quantity * price - holding.average * quantity -
      (holding.cost - holding.average * quantity) = quantity * price - holding.cost
  ring

variable [LinearOrder K] [IsStrictOrderedRing K]

/-- Nothing negative is held, and nothing costs nothing. -/
structure Sound (holding : CostBasis K) : Prop where
  quantity : 0 ≤ holding.quantity
  cost : 0 ≤ holding.cost
  none : holding.quantity = 0 → holding.cost = 0

def CostsAtMost (holding : CostBasis K) (bound : K) : Prop :=
  holding.cost ≤ bound * holding.quantity

theorem Sound.average_nonneg (h : holding.Sound) : 0 ≤ holding.average :=
  div_nonneg h.cost h.quantity

theorem Sound.average_le (h : holding.Sound) {bound : K} (hbound : 0 ≤ bound)
    (hcosts : holding.CostsAtMost bound) : holding.average ≤ bound := by
  rcases h.quantity.eq_or_lt with hzero | hpos
  · rw [average, ← hzero, div_zero]
    exact hbound
  · exact (div_le_iff₀ hpos).mpr hcosts

theorem Sound.buy (h : holding.Sound) {quantity price : K} (hquantity : 0 ≤ quantity)
    (hprice : 0 ≤ price) : (holding.buy quantity price).Sound := by
  have hpaid : 0 ≤ quantity * price := mul_nonneg hquantity hprice
  refine ⟨add_nonneg h.quantity hquantity, add_nonneg h.cost hpaid, ?_⟩
  intro hzero
  have hheld : holding.quantity = 0 ∧ quantity = 0 :=
    (add_eq_zero_iff_of_nonneg h.quantity hquantity).mp hzero
  show holding.cost + quantity * price = 0
  rw [h.none hheld.1, hheld.2, zero_mul, zero_add]

theorem Sound.sell (h : holding.Sound) {quantity : K} (hheld : quantity ≤ holding.quantity) :
    (holding.sell quantity).Sound := by
  have hleft : 0 ≤ (holding.sell quantity).quantity := sub_nonneg.mpr hheld
  refine ⟨hleft, ?_, ?_⟩
  · rw [sell_cost h.none]
    exact mul_nonneg h.average_nonneg hleft
  · intro hzero
    rw [sell_cost h.none, hzero, mul_zero]

theorem CostsAtMost.buy {bound : K} (h : holding.CostsAtMost bound) {quantity price : K}
    (hquantity : 0 ≤ quantity) (hprice : price ≤ bound) :
    (holding.buy quantity price).CostsAtMost bound := by
  have hpaid : quantity * price ≤ quantity * bound := mul_le_mul_of_nonneg_left hprice hquantity
  calc holding.cost + quantity * price
      ≤ bound * holding.quantity + quantity * bound := add_le_add h hpaid
    _ = bound * (holding.quantity + quantity) := by ring

theorem CostsAtMost.sell {bound : K} (h : holding.CostsAtMost bound) (hsound : holding.Sound)
    (hbound : 0 ≤ bound) {quantity : K} (hheld : quantity ≤ holding.quantity) :
    (holding.sell quantity).CostsAtMost bound := by
  have hleft : 0 ≤ (holding.sell quantity).quantity := sub_nonneg.mpr hheld
  unfold CostsAtMost
  rw [sell_cost hsound.none]
  exact mul_le_mul_of_nonneg_right (hsound.average_le hbound h) hleft

end CostBasis

end PrismBackend.Lib
