import Mathlib.Algebra.BigOperators.Ring.List
import Mathlib.Algebra.Order.BigOperators.Group.List
import Mathlib.Data.Rat.Floor
import Mathlib.Algebra.Order.Field.Rat
import Mathlib.Tactic.Linarith
import Mathlib.Tactic.Ring

/-!
# Sharing out

An amount that is shared out by weight, each share rounded down to a whole number:
what the rounding drops, and that the shares together are no more than the amount.
-/

namespace PrismBackend.Lib

/-! ## Rounding down -/

theorem sum_floor_add_fract (xs : List ℚ) :
    ((xs.map Int.floor).sum : ℚ) + (xs.map Int.fract).sum = xs.sum := by
  induction xs with
  | nil => simp
  | cons x xs ih =>
      simp only [List.map_cons, List.sum_cons, Int.cast_add]
      have hx := Int.floor_add_fract x
      linarith

theorem sum_fract_nonneg (xs : List ℚ) : 0 ≤ (xs.map Int.fract).sum := by
  apply List.sum_nonneg
  intro y hy
  obtain ⟨x, _, rfl⟩ := List.mem_map.mp hy
  exact Int.fract_nonneg x

theorem sum_fract_le (xs : List ℚ) : (xs.map Int.fract).sum ≤ xs.length := by
  induction xs with
  | nil => simp
  | cons x xs ih =>
      have hx := (Int.fract_lt_one x).le
      simp only [List.map_cons, List.sum_cons, List.length_cons, Nat.cast_add, Nat.cast_one]
      linarith

theorem sum_fract_lt {xs : List ℚ} (h : xs ≠ []) : (xs.map Int.fract).sum < xs.length := by
  cases xs with
  | nil => exact absurd rfl h
  | cons x xs =>
      have hx := Int.fract_lt_one x
      have hrest := sum_fract_le xs
      simp only [List.map_cons, List.sum_cons, List.length_cons, Nat.cast_add, Nat.cast_one]
      linarith
/-! ## Sharing out -/

section Sharing

variable {α : Type} {items : List α} {weight : α → ℚ}

theorem weight_le_sum (hweight : ∀ x ∈ items, 0 ≤ weight x) {x : α} (hx : x ∈ items) :
    weight x ≤ (items.map weight).sum := by
  apply List.single_le_sum _ _ (List.mem_map_of_mem hx)
  intro y hy
  obtain ⟨z, hz, rfl⟩ := List.mem_map.mp hy
  exact hweight z hz

theorem sum_nonneg_of_weights (hweight : ∀ x ∈ items, 0 ≤ weight x) :
    0 ≤ (items.map weight).sum := by
  apply List.sum_nonneg
  intro y hy
  obtain ⟨z, hz, rfl⟩ := List.mem_map.mp hy
  exact hweight z hz

theorem sum_eq_zero_of_weights (hweight : ∀ x ∈ items, weight x = 0) :
    (items.map weight).sum = 0 := by
  apply List.sum_eq_zero
  intro y hy
  obtain ⟨z, hz, rfl⟩ := List.mem_map.mp hy
  exact hweight z hz

theorem share_mem_unit (hweight : ∀ x ∈ items, 0 ≤ weight x) (htotal : 0 < (items.map weight).sum)
    {x : α} (hx : x ∈ items) :
    0 ≤ weight x / (items.map weight).sum ∧ weight x / (items.map weight).sum ≤ 1 :=
  ⟨div_nonneg (hweight x hx) htotal.le, (div_le_one htotal).mpr (weight_le_sum hweight hx)⟩

/-- Shares by weight, each rounded down, are no more than the budget. -/
theorem sum_floor_shares_le {total budget : ℚ} (htotal : 0 < total) (hbudget : 0 ≤ budget)
    (hitems : (items.map weight).sum ≤ total) :
    ((items.map fun x => ⌊budget * (weight x / total)⌋).sum : ℚ) ≤ budget := by
  have hrounded := sum_floor_add_fract (items.map fun x => budget * (weight x / total))
  have hdropped := sum_fract_nonneg (items.map fun x => budget * (weight x / total))
  have hshare : (fun x => budget * (weight x / total)) = fun x => budget / total * weight x := by
    funext x
    ring
  have hshares : (items.map fun x => budget * (weight x / total)).sum ≤ budget := by
    calc (items.map fun x => budget * (weight x / total)).sum
        = budget / total * (items.map weight).sum := by rw [hshare, List.sum_map_mul_left]
      _ ≤ budget / total * total := mul_le_mul_of_nonneg_left hitems (div_nonneg hbudget htotal.le)
      _ = budget := div_mul_cancel₀ budget htotal.ne'
  rw [List.map_map] at hrounded
  have hfloor : (items.map fun x => ⌊budget * (weight x / total)⌋).sum =
      (items.map (Int.floor ∘ fun x => budget * (weight x / total))).sum := rfl
  rw [hfloor]
  linarith

end Sharing

end PrismBackend.Lib
