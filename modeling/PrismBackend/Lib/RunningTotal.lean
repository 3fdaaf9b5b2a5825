import Mathlib.Algebra.BigOperators.Group.List.Basic
import Mathlib.Algebra.GroupWithZero.Nat
import Mathlib.Data.List.Infix

/-!
# Running totals against a budget

A list of costs is walked with a running total. The items at which the total
is beyond a budget are singled out, and the items before them are the longest
initial part that fits.
-/

namespace PrismBackend.Lib

variable {α : Type} (cost : α → Nat) (budget : Nat)

def totalCost (xs : List α) : Nat := (xs.map cost).sum

def overBudget : Nat → List α → List α
  | _, [] => []
  | required, x :: xs =>
    if required + cost x > budget then x :: overBudget (required + cost x) xs
    else overBudget (required + cost x) xs

/-- `kept` is the longest initial part of `all` that fits the budget. -/
structure LongestFitting (all kept : List α) : Prop where
  initial : kept <+: all
  fits : totalCost cost kept ≤ budget
  longest : ∀ other, other <+: all → totalCost cost other ≤ budget → other <+: kept

variable {cost budget}

@[simp] theorem totalCost_nil : totalCost cost [] = 0 := rfl

@[simp] theorem totalCost_cons (x : α) (xs : List α) :
    totalCost cost (x :: xs) = cost x + totalCost cost xs := List.sum_cons

theorem totalCost_append (xs ys : List α) :
    totalCost cost (xs ++ ys) = totalCost cost xs + totalCost cost ys := by
  unfold totalCost
  rw [List.map_append, List.sum_append]

theorem totalCost_perm {xs ys : List α} (h : xs.Perm ys) : totalCost cost xs = totalCost cost ys :=
  (h.map cost).sum_eq

theorem overBudget_append (required : Nat) (xs ys : List α) :
    overBudget cost budget required (xs ++ ys) =
      overBudget cost budget required xs ++
        overBudget cost budget (required + totalCost cost xs) ys := by
  induction xs generalizing required with
  | nil => rfl
  | cons x xs ih =>
      rw [List.cons_append, overBudget, overBudget, ih, totalCost_cons, Nat.add_assoc]
      split <;> rfl

theorem overBudget_sublist (required : Nat) (xs : List α) :
    (overBudget cost budget required xs).Sublist xs := by
  induction xs generalizing required with
  | nil => exact List.Sublist.slnil
  | cons x xs ih =>
      rw [overBudget]
      split
      · exact (ih _).cons_cons x
      · exact (ih _).cons x

theorem overBudget_eq_nil {required : Nat} {xs : List α}
    (h : required + totalCost cost xs ≤ budget) : overBudget cost budget required xs = [] := by
  induction xs generalizing required with
  | nil => rfl
  | cons x xs ih =>
      rw [totalCost_cons] at h
      rw [overBudget, if_neg (by omega)]
      exact ih (by omega)

/-- Items that do not fit by themselves are all singled out. -/
theorem overBudget_eq_self {xs : List α} (h : ∀ x ∈ xs, budget < cost x) (required : Nat) :
    overBudget cost budget required xs = xs := by
  induction xs generalizing required with
  | nil => rfl
  | cons x xs ih =>
      have hx := h x List.mem_cons_self
      rw [overBudget, if_pos (by omega), ih fun y hy => h y (List.mem_cons_of_mem x hy)]

theorem LongestFitting.unique {all kept kept' : List α} (h : LongestFitting cost budget all kept)
    (h' : LongestFitting cost budget all kept') : kept = kept' := by
  have hle := h'.longest kept h.initial h.fits
  have hge := h.longest kept' h'.initial h'.fits
  exact hle.eq_of_length (le_antisymm hle.length_le hge.length_le)

theorem longestFitting_all {all : List α} (h : totalCost cost all ≤ budget) :
    LongestFitting cost budget all all :=
  ⟨List.prefix_rfl, h, fun _ hother _ => hother⟩

theorem longestFitting_nil {all : List α} (h : ∀ x ∈ all, budget < cost x) :
    LongestFitting cost budget all [] := by
  refine ⟨List.nil_prefix, Nat.zero_le _, ?_⟩
  intro other hother hfits
  cases other with
  | nil => exact List.prefix_rfl
  | cons x xs =>
      have hx := h x (hother.subset List.mem_cons_self)
      rw [totalCost_cons] at hfits
      omega

/-- An item that comes first is singled out only if it does not fit by itself. -/
theorem mem_overBudget_first {x : α} {xs : List α} (hnodup : (x :: xs).Nodup) :
    x ∈ overBudget cost budget 0 (x :: xs) ↔ budget < cost x := by
  have hrest : x ∉ overBudget cost budget (0 + cost x) xs := fun hmem =>
    (List.nodup_cons.mp hnodup).1 ((overBudget_sublist _ xs).subset hmem)
  rw [overBudget]
  split
  · next h => simpa using h
  · next h => exact iff_of_false hrest (by omega)

/-- An item that comes last is singled out if the whole does not fit. -/
theorem mem_overBudget_last {x : α} {xs : List α} (h : budget < totalCost cost (xs ++ [x])) :
    x ∈ overBudget cost budget 0 (xs ++ [x]) := by
  rw [totalCost_append] at h
  simp only [totalCost_cons, totalCost_nil, Nat.add_zero] at h
  rw [overBudget_append, overBudget, if_pos (by omega)]
  exact List.mem_append_right _ List.mem_cons_self

/-- Whatever the order of the walk, it singles out all but the longest initial part that fits,
exactly if everything fits or nothing does. -/
theorem overBudget_any_order_iff (cost : α → Nat) (budget : Nat)
    {all : List α} (hnodup : all.Nodup) :
    (∀ xs, xs.Perm all → ∃ kept, LongestFitting cost budget all kept ∧
      ∀ x ∈ all, x ∈ overBudget cost budget 0 xs ↔ x ∉ kept) ↔
    totalCost cost all ≤ budget ∨ ∀ x ∈ all, budget < cost x := by
  constructor
  · intro h
    by_contra hneither
    rw [not_or, not_le] at hneither
    obtain ⟨htotal, hsome⟩ := hneither
    obtain ⟨x, hx, hfits⟩ : ∃ x ∈ all, cost x ≤ budget := by
      by_contra hnot
      exact hsome fun x hx => not_le.mp fun hle => hnot ⟨x, hx, hle⟩
    obtain ⟨before, after, rfl⟩ := List.append_of_mem hx
    have hfirst : (x :: (before ++ after)).Perm (before ++ x :: after) := List.perm_middle.symm
    have hlast : (before ++ after ++ [x]).Perm (before ++ x :: after) :=
      (List.perm_append_singleton x _).trans hfirst
    obtain ⟨kept, hkept, hsingled⟩ := h _ hfirst
    obtain ⟨kept', hkept', hsingled'⟩ := h _ hlast
    have hsame := hkept.unique hkept'
    subst hsame
    have hin : x ∈ kept := by
      by_contra hout
      have hmem := (mem_overBudget_first (hfirst.nodup_iff.mpr hnodup)).mp
        ((hsingled x hx).mpr hout)
      omega
    have hout : x ∉ kept := by
      apply (hsingled' x hx).mp
      apply mem_overBudget_last
      rwa [totalCost_perm hlast]
    exact hout hin
  · intro h xs hperm
    rcases h with htotal | hnone
    · refine ⟨all, longestFitting_all htotal, ?_⟩
      intro x hx
      rw [overBudget_eq_nil (by rw [totalCost_perm hperm]; omega)]
      simpa using hx
    · refine ⟨[], longestFitting_nil hnone, ?_⟩
      intro x hx
      rw [overBudget_eq_self fun y hy => hnone y (hperm.subset hy)]
      simpa using hperm.symm.subset hx

end PrismBackend.Lib
