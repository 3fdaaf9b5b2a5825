import Mathlib.Algebra.BigOperators.Group.List.Basic
import Mathlib.Algebra.GroupWithZero.Nat
import Mathlib.Algebra.Order.Group.Nat

/-!
# Sums of rounded splits

A fill of `f` units at price `p` out of `scale` is split into `f * p / scale`
and the complement. Splitting a quantity into several fills loses less than one
unit per fill against the exact proportion, and only in one direction.
-/

namespace PrismBackend.Lib

/-- The rounded-down part of a fill. -/
def lower (scale : Nat) (fill : Nat × Nat) : Nat := fill.1 * fill.2 / scale

/-- What the rounded-down part leaves of the fill. -/
def upper (scale : Nat) (fill : Nat × Nat) : Nat := fill.1 - lower scale fill

def quantity (fills : List (Nat × Nat)) : Nat := (fills.map Prod.fst).sum

section Fill

variable {scale : Nat} {fill : Nat × Nat} {limit : Nat}

theorem lower_mul_le (scale : Nat) (fill : Nat × Nat) (h : fill.2 ≤ limit) :
    lower scale fill * scale ≤ fill.1 * limit :=
  (Nat.div_mul_le_self _ _).trans (Nat.mul_le_mul_left _ h)

theorem lt_lower_mul (fill : Nat × Nat) (hscale : 0 < scale) (h : limit ≤ fill.2) :
    fill.1 * limit < lower scale fill * scale + scale := by
  have hdiv := Nat.lt_mul_div_succ (fill.1 * fill.2) hscale
  have hlimit : fill.1 * limit ≤ fill.1 * fill.2 := Nat.mul_le_mul_left _ h
  unfold lower
  rw [Nat.mul_comm scale, Nat.add_mul, Nat.one_mul] at hdiv
  omega

theorem lower_le (fill : Nat × Nat) (h : fill.2 ≤ scale) : lower scale fill ≤ fill.1 := by
  apply Nat.div_le_of_le_mul
  rw [Nat.mul_comm]
  exact Nat.mul_le_mul_right _ h

theorem upper_add_lower (fill : Nat × Nat) (h : fill.2 ≤ scale) :
    upper scale fill + lower scale fill = fill.1 :=
  Nat.sub_add_cancel (lower_le fill h)

theorem upper_mul_lt (fill : Nat × Nat) (hscale : 0 < scale) (h : limit ≤ fill.2)
    (hfill : fill.2 ≤ scale) :
    upper scale fill * scale < fill.1 * (scale - limit) + scale := by
  have hsum := congrArg (· * scale) (upper_add_lower fill hfill)
  have hlower := lt_lower_mul fill hscale h
  have hle : fill.1 * limit ≤ fill.1 * scale := Nat.mul_le_mul_left _ (h.trans hfill)
  simp only [Nat.add_mul] at hsum
  rw [Nat.mul_sub]
  omega

theorem le_upper_mul (fill : Nat × Nat) (h : fill.2 ≤ limit) (hlimit : limit ≤ scale) :
    fill.1 * (scale - limit) ≤ upper scale fill * scale := by
  have hsum := congrArg (· * scale) (upper_add_lower fill (h.trans hlimit))
  have hlower := lower_mul_le scale fill h
  simp only [Nat.add_mul] at hsum
  rw [Nat.mul_sub]
  omega

end Fill

/-! ## Growing fills -/

section Growth

variable {scale price m n : Nat}

theorem lower_mono (h : m ≤ n) : lower scale (m, price) ≤ lower scale (n, price) :=
  Nat.div_le_div_right (Nat.mul_le_mul_right price h)

/-- A fill that grows raises its rounded-down part by no more than it grows. -/
theorem lower_le_add (hscale : 0 < scale) (hprice : price ≤ scale) (h : m ≤ n) :
    lower scale (n, price) ≤ lower scale (m, price) + (n - m) := by
  have hsplit : n * price = m * price + (n - m) * price := by
    rw [← Nat.add_mul, Nat.add_sub_cancel' h]
  calc n * price / scale ≤ (m * price + (n - m) * scale) / scale := by
        rw [hsplit]
        exact Nat.div_le_div_right (Nat.add_le_add_left (Nat.mul_le_mul_left _ hprice) _)
    _ = m * price / scale + (n - m) := Nat.add_mul_div_right _ _ hscale

theorem upper_mono (hscale : 0 < scale) (hprice : price ≤ scale) (h : m ≤ n) :
    upper scale (m, price) ≤ upper scale (n, price) := by
  have hgrow := lower_le_add hscale hprice h
  show m - lower scale (m, price) ≤ n - lower scale (n, price)
  omega

theorem upper_le_add (h : m ≤ n) :
    upper scale (n, price) ≤ upper scale (m, price) + (n - m) := by
  have hgrow : lower scale (m, price) ≤ lower scale (n, price) := lower_mono h
  show n - lower scale (n, price) ≤ m - lower scale (m, price) + (n - m)
  omega

end Growth

section Sums

variable {scale limit : Nat} {fills : List (Nat × Nat)}

/-- Prices at or below the limit: the rounded-down parts never exceed the exact proportion. -/
theorem sum_lower_le (hscale : 0 < scale) (h : ∀ fill ∈ fills, fill.2 ≤ limit) :
    (fills.map (lower scale)).sum ≤ quantity fills * limit / scale := by
  rw [Nat.le_div_iff_mul_le hscale]
  unfold quantity
  induction fills with
  | nil => simp
  | cons fill fills ih =>
      have hhead := lower_mul_le scale fill (h fill List.mem_cons_self)
      have htail := ih fun x hx => h x (List.mem_cons_of_mem _ hx)
      simp only [List.map_cons, List.sum_cons, Nat.add_mul]
      omega

/-- Prices at or above the limit: the rounded-down parts fall short by less than one unit
per fill. -/
theorem lt_sum_lower (hscale : 0 < scale) (h : ∀ fill ∈ fills, limit ≤ fill.2)
    (hne : fills ≠ []) :
    quantity fills * limit < ((fills.map (lower scale)).sum + fills.length) * scale := by
  unfold quantity
  induction fills with
  | nil => exact absurd rfl hne
  | cons fill fills ih =>
      have hhead := lt_lower_mul fill hscale (h fill List.mem_cons_self)
      simp only [List.map_cons, List.sum_cons, List.length_cons, Nat.add_mul, Nat.one_mul]
      by_cases hnil : fills = []
      · subst hnil
        simp only [List.map_nil, List.sum_nil, List.length_nil, Nat.zero_mul]
        omega
      · have htail := ih (fun x hx => h x (List.mem_cons_of_mem _ hx)) hnil
        rw [Nat.add_mul] at htail
        omega

/-- Prices at or above the limit: the complements exceed the exact proportion by less than one
unit per fill. -/
theorem sum_upper_lt (hscale : 0 < scale) (h : ∀ fill ∈ fills, limit ≤ fill.2 ∧ fill.2 ≤ scale)
    (hne : fills ≠ []) :
    (fills.map (upper scale)).sum * scale <
      quantity fills * (scale - limit) + fills.length * scale := by
  unfold quantity
  induction fills with
  | nil => exact absurd rfl hne
  | cons fill fills ih =>
      obtain ⟨hlow, hhigh⟩ := h fill List.mem_cons_self
      have hhead := upper_mul_lt fill hscale hlow hhigh
      simp only [List.map_cons, List.sum_cons, List.length_cons, Nat.add_mul, Nat.one_mul]
      by_cases hnil : fills = []
      · subst hnil
        simp only [List.map_nil, List.sum_nil, List.length_nil, Nat.zero_mul]
        omega
      · have htail := ih (fun x hx => h x (List.mem_cons_of_mem _ hx)) hnil
        omega

/-- Prices at or below the limit: the complements never fall short of the exact proportion. -/
theorem le_sum_upper (h : ∀ fill ∈ fills, fill.2 ≤ limit) (hlimit : limit ≤ scale) :
    quantity fills * (scale - limit) ≤ (fills.map (upper scale)).sum * scale := by
  unfold quantity
  induction fills with
  | nil => simp
  | cons fill fills ih =>
      have hhead := le_upper_mul fill (h fill List.mem_cons_self) hlimit
      have htail := ih fun x hx => h x (List.mem_cons_of_mem _ hx)
      simp only [List.map_cons, List.sum_cons, Nat.add_mul]
      omega

end Sums

end PrismBackend.Lib
