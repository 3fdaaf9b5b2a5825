import Mathlib.Algebra.Order.Group.Nat
import Mathlib.Algebra.Order.Ring.Nat

/-!
# Pro-rata shares

A pot is shared out among outstanding units, claim after claim: each claim takes
its share of what is left, rounded down, and the last one takes the rest. A pot
that covers the units pays each claim at least its units and still covers the
others.
-/

namespace PrismBackend.Lib

/-- What a claim of some units is paid from the pot. -/
def proRata (pot outstanding units : Nat) : Nat :=
  if units = outstanding then pot else pot * units / outstanding

variable {pot outstanding units : Nat}

theorem proRata_le (h : units ≤ outstanding) : proRata pot outstanding units ≤ pot := by
  unfold proRata
  split
  · exact le_rfl
  · apply Nat.div_le_of_le_mul
    rw [Nat.mul_comm outstanding]
    exact Nat.mul_le_mul_left pot h

theorem le_proRata (hpot : outstanding ≤ pot) (hpos : 0 < outstanding) :
    units ≤ proRata pot outstanding units := by
  unfold proRata
  split
  case isTrue hall => omega
  case isFalse =>
    rw [Nat.le_div_iff_mul_le hpos, Nat.mul_comm]
    exact Nat.mul_le_mul_right units hpot

theorem sub_le_sub_proRata (hpot : outstanding ≤ pot) (h : units ≤ outstanding) :
    outstanding - units ≤ pot - proRata pot outstanding units := by
  unfold proRata
  split
  case isTrue hall => omega
  case isFalse =>
    have hshare : pot * units / outstanding ≤ pot - outstanding + units := by
      apply Nat.div_le_of_le_mul
      calc pot * units = (pot - outstanding) * units + outstanding * units := by
            rw [← Nat.add_mul, Nat.sub_add_cancel hpot]
        _ ≤ (pot - outstanding) * outstanding + outstanding * units :=
            Nat.add_le_add_right (Nat.mul_le_mul_left _ h) _
        _ = outstanding * (pot - outstanding + units) := by
            rw [Nat.mul_add, Nat.mul_comm outstanding (pot - outstanding)]
    omega

end PrismBackend.Lib
