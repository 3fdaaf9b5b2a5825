import Mathlib.Algebra.BigOperators.Group.List.Basic
import Mathlib.Algebra.GroupWithZero.Nat
import Mathlib.Order.Bounds.Basic

/-!
# Offers

A quantity is taken from offers, one after the other. An offer has a least and a
greatest part that can be taken: of each one as much is taken as is still wanted
and as it gives, or nothing where that is less than its least part.
-/

namespace PrismBackend.Lib

structure Offer where
  least : Nat
  most : Nat
  deriving DecidableEq, Repr

/-- The parts that may be taken of an offer. -/
structure Offer.Takes (offer : Offer) (wanted part : Nat) : Prop where
  least : offer.least ≤ part
  most : part ≤ offer.most
  wanted : part ≤ wanted

def parts : List Offer → Nat → List Nat
  | [], _ => []
  | offer :: offers, wanted =>
    let part := min wanted offer.most
    if offer.least ≤ part then part :: parts offers (wanted - part) else parts offers wanted

/-- The parts make up all that is wanted. -/
def Covers (offers : List Offer) (wanted : Nat) : Prop := (parts offers wanted).sum = wanted

instance (offers : List Offer) (wanted : Nat) : Decidable (Covers offers wanted) :=
  inferInstanceAs (Decidable (_ = _))

section Offer

variable {offer : Offer} {offers : List Offer} {wanted : Nat}

theorem isGreatest_part (h : offer.least ≤ min wanted offer.most) :
    IsGreatest {part | offer.Takes wanted part} (min wanted offer.most) := by
  constructor
  · exact ⟨h, Nat.min_le_right .., Nat.min_le_left ..⟩
  · intro part hpart
    exact le_min hpart.wanted hpart.most

theorem not_takes (h : ¬offer.least ≤ min wanted offer.most) (part : Nat) :
    ¬offer.Takes wanted part := by
  intro hpart
  exact h (hpart.least.trans (le_min hpart.wanted hpart.most))

/-- Where nothing is wanted, an offer that gives no empty part gives nothing. -/
theorem parts_zero (h : ∀ offer ∈ offers, 0 < offer.least) : parts offers 0 = [] := by
  induction offers with
  | nil => rfl
  | cons offer offers ih =>
      have hleast := h offer List.mem_cons_self
      rw [parts, Nat.zero_min, if_neg (by omega)]
      exact ih fun other hother => h other (List.mem_cons_of_mem offer hother)

end Offer

end PrismBackend.Lib
