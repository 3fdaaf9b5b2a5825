import Mathlib.Algebra.BigOperators.Group.Finset.Basic
import Mathlib.Algebra.BigOperators.Group.Finset.Piecewise
import Mathlib.Algebra.Order.BigOperators.Group.Finset

/-!
# Ledgers

A ledger gives every account of a finite type a natural number. `total` adds
all accounts up, `move` transfers an amount between two of them, and `update₂`
writes one cell of a two-level ledger.
-/

namespace PrismBackend.Lib

variable {α β γ : Type}

/-- The sum of a ledger over all accounts; never evaluated, the accounts may be many. -/
@[irreducible] def total [Fintype α] (f : α → Nat) : Nat := ∑ a, f a

def update₂ [DecidableEq α] [DecidableEq β] (f : α → β → γ) (a : α) (b : β) (v : γ) :
    α → β → γ :=
  Function.update f a (Function.update (f a) b v)

/-- Take `amount` from `source` and give it to `target`. -/
def move [DecidableEq α] (f : α → Nat) (source target : α) (amount : Nat) : α → Nat :=
  let debited := Function.update f source (f source - amount)
  Function.update debited target (debited target + amount)

section Update

variable [DecidableEq α] [DecidableEq β]

theorem update₂_apply (f : α → β → γ) (a x : α) (b y : β) (v : γ) :
    update₂ f a b v x y = if x = a ∧ y = b then v else f x y := by
  unfold update₂
  by_cases hx : x = a
  · subst hx
    by_cases hy : y = b
    · subst hy
      simp
    · simp [hy]
  · simp [hx]

@[simp] theorem update₂_same (f : α → β → γ) (a : α) (b : β) (v : γ) :
    update₂ f a b v a b = v := by
  simp [update₂]

theorem update₂_of_ne (f : α → β → γ) {a x : α} (h : x ≠ a) (b : β) (v : γ) :
    update₂ f a b v x = f x := by
  simp [update₂, h]

theorem update₂_row (f : α → β → γ) (a : α) (b : β) (v : γ) :
    update₂ f a b v a = Function.update (f a) b v := by
  simp [update₂]

@[simp] theorem update₂_eq_self (f : α → β → γ) (a : α) (b : β) :
    update₂ f a b (f a b) = f := by
  simp [update₂]

theorem update₂_comm (f : α → β → γ) {a a' : α} {b b' : β} (h : a ≠ a' ∨ b ≠ b') (v v' : γ) :
    update₂ (update₂ f a b v) a' b' v' = update₂ (update₂ f a' b' v') a b v := by
  funext x y
  simp only [update₂_apply]
  by_cases hcell : x = a ∧ y = b
  · have hother : ¬(x = a' ∧ y = b') := by
      rw [hcell.1, hcell.2, not_and_or]
      exact h
    rw [if_pos hcell, if_neg hother, if_pos hcell]
  · rw [if_neg hcell, if_neg hcell]

end Update

section Total

variable [Fintype α]

theorem le_total (f : α → Nat) (x : α) : f x ≤ total f := by
  unfold total
  exact Finset.single_le_sum (fun _ _ => Nat.zero_le _) (Finset.mem_univ x)

@[simp] theorem total_zero : total (fun _ : α => 0) = 0 := by
  simp [total]

theorem total_eq_zero {f : α → Nat} : total f = 0 ↔ ∀ x, f x = 0 := by
  simp [total]

theorem total_add (f g : α → Nat) : total (fun x => f x + g x) = total f + total g := by
  unfold total
  exact Finset.sum_add_distrib

variable [DecidableEq α]

theorem total_update (f : α → Nat) (x : α) (v : Nat) :
    total (Function.update f x v) + f x = total f + v := by
  unfold total
  have hnew := Finset.sum_update_of_mem (Finset.mem_univ x) f v
  have hold := Finset.sum_update_of_mem (Finset.mem_univ x) f (f x)
  rw [Function.update_eq_self] at hold
  omega

/-- A ledger that funds two accounts holds no more than what they were given. -/
theorem total_pair_lt {f : α → Nat} {x y : α} {n k bound : Nat}
    (hf : f = Function.update (Function.update (fun _ => 0) x n) y k) (h : n + k < bound) :
    total f < bound := by
  have hfirst := total_update (fun _ : α => 0) x n
  have hsecond := total_update (Function.update (fun _ : α => 0) x n) y k
  rw [total_zero] at hfirst
  rw [hf]
  omega

theorem add_le_total (f : α → Nat) {x y : α} (h : x ≠ y) : f x + f y ≤ total f := by
  have hx := total_update f x 0
  have hy := le_total (Function.update f x 0) y
  rw [Function.update_of_ne (Ne.symm h)] at hy
  omega

end Total

section Move

variable [DecidableEq α]

theorem move_source (f : α → Nat) {s t : α} (h : s ≠ t) (n : Nat) :
    move f s t n s = f s - n := by
  simp [move, h]

theorem move_target (f : α → Nat) {s t : α} (h : s ≠ t) (n : Nat) :
    move f s t n t = f t + n := by
  simp [move, Ne.symm h]

theorem move_other (f : α → Nat) {s t x : α} (hs : x ≠ s) (ht : x ≠ t) (n : Nat) :
    move f s t n x = f x := by
  simp [move, hs, ht]

theorem move_self (f : α → Nat) (s : α) {n : Nat} (h : n ≤ f s) : move f s s n = f := by
  unfold move
  rw [Function.update_idem, Function.update_self, Nat.sub_add_cancel h,
    Function.update_eq_self]

@[simp] theorem move_zero (f : α → Nat) (s t : α) : move f s t 0 = f := by
  simp [move]

theorem le_move (f : α → Nat) {s t x : α} (h : x ≠ s) (n : Nat) : f x ≤ move f s t n x := by
  by_cases ht : x = t
  · subst ht
    rw [move_target f (Ne.symm h)]
    omega
  · rw [move_other f h ht]

theorem total_move [Fintype α] (f : α → Nat) {s t : α} {n : Nat} (h : n ≤ f s) :
    total (move f s t n) = total f := by
  unfold move
  have hdebit := total_update f s (f s - n)
  have hcredit := total_update (Function.update f s (f s - n)) t
    (Function.update f s (f s - n) t + n)
  simp only at hcredit ⊢
  omega

end Move

end PrismBackend.Lib
