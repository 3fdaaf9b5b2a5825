import Mathlib.Order.Basic

/-!
# Binary search on a predicate

The search keeps an interval whose lower end satisfies the predicate (or is the
start) and halves it, rounding the middle up.
-/

namespace PrismBackend.Lib

/-- The loop `while lo < hi`, with fuel at least the width of the interval. -/
def searchLoop (p : Nat → Bool) : Nat → Nat → Nat → Nat
  | 0, lo, _ => lo
  | fuel + 1, lo, hi =>
    if lo < hi then
      let mid := lo + (hi - lo + 1) / 2
      if p mid then searchLoop p fuel mid hi else searchLoop p fuel lo (mid - 1)
    else lo

/-- The search result is the start or a point that satisfies the predicate. -/
theorem searchLoop_sound (p : Nat → Bool) (start fuel lo hi : Nat)
    (hlo : lo = start ∨ p lo = true) (hle : lo ≤ hi) :
    (searchLoop p fuel lo hi = start ∨ p (searchLoop p fuel lo hi) = true) ∧
      searchLoop p fuel lo hi ≤ hi := by
  induction fuel generalizing lo hi with
  | zero => exact ⟨hlo, hle⟩
  | succ fuel ih =>
      simp only [searchLoop]
      by_cases hlt : lo < hi
      · rw [if_pos hlt]
        by_cases hp : p (lo + (hi - lo + 1) / 2) = true
        · rw [if_pos hp]
          exact ih _ _ (Or.inr hp) (by omega)
        · rw [if_neg hp]
          obtain ⟨hsound, hbound⟩ := ih lo (lo + (hi - lo + 1) / 2 - 1) hlo (by omega)
          exact ⟨hsound, by omega⟩
      · rw [if_neg hlt]
        exact ⟨hlo, hle⟩

/-- Where the predicate holds of a prefix only, nothing up to the bound lies beyond the search
result and satisfies it. -/
theorem le_searchLoop {p : Nat → Bool} (bound : Nat) {fuel lo hi : Nat} (hfuel : hi ≤ lo + fuel)
    (hdown : ∀ m n, m ≤ n → n ≤ bound → p n = true → p m = true)
    (hmax : ∀ n, hi < n → n ≤ bound → p n = false) :
    ∀ n ≤ bound, p n = true → n ≤ searchLoop p fuel lo hi := by
  have hbelow {n : Nat} (hn : n ≤ bound) (hp : p n = true) : n ≤ hi := by
    by_contra hgt
    rw [hmax n (by omega) hn] at hp
    exact absurd hp (by simp)
  induction fuel generalizing lo hi with
  | zero =>
      intro n hn hp
      have hle := hbelow hn hp
      show n ≤ lo
      omega
  | succ fuel ih =>
      intro n hn hp
      rw [searchLoop]
      by_cases hlt : lo < hi
      · rw [if_pos hlt]
        by_cases hmid : p (lo + (hi - lo + 1) / 2) = true
        · rw [if_pos hmid]
          exact ih (by omega) hmax hbelow n hn hp
        · rw [if_neg hmid]
          have hmax' (k : Nat) (hk : lo + (hi - lo + 1) / 2 - 1 < k) (hkb : k ≤ bound) :
              p k = false := by
            rw [Bool.eq_false_iff]
            intro hpk
            exact hmid (hdown _ k (by omega) hkb hpk)
          refine ih (by omega) hmax' ?_ n hn hp
          intro m hm hpm
          by_contra hgt
          rw [hmax' m (by omega) hm] at hpm
          exact absurd hpm (by simp)
      · rw [if_neg hlt]
        have hle := hbelow hn hp
        omega

end PrismBackend.Lib
