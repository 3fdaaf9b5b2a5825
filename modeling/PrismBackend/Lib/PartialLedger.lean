import Mathlib.Algebra.BigOperators.Group.List.Basic
import Mathlib.Algebra.Order.Ring.Int
import Mathlib.Data.List.Infix

/-!
# Ledgers that are counted in part

The entries of a ledger are deposits and withdrawals, and its balance was never
negative. A copy counts the entries one by one, in an order of its own: its
balance is never negative either, if no withdrawal is counted while a deposit
before it is not.
-/

namespace PrismBackend.Lib

variable {α : Type} (amount : α → Int)

def netTotal (entries : List α) : Int := (entries.map amount).sum

/-- No initial part of the ledger withdraws more than it deposits. -/
def NeverNegative (entries : List α) : Prop := ∀ n, 0 ≤ netTotal amount (entries.take n)

variable [DecidableEq α] (counted entries : List α)

def countedTotal : Int := netTotal amount (entries.filter (· ∈ counted))

/-- A withdrawal is counted after the deposits before it. -/
def DepositsFirst : Prop :=
  entries.Pairwise fun x y => y ∈ counted → amount y < 0 → 0 < amount x → x ∈ counted

variable {amount counted entries}

omit [DecidableEq α] in
@[simp] theorem netTotal_nil : netTotal amount [] = 0 := rfl

omit [DecidableEq α] in
@[simp] theorem netTotal_cons (x : α) (xs : List α) :
    netTotal amount (x :: xs) = amount x + netTotal amount xs := List.sum_cons

omit [DecidableEq α] in
theorem netTotal_append (xs ys : List α) :
    netTotal amount (xs ++ ys) = netTotal amount xs + netTotal amount ys := by
  unfold netTotal
  rw [List.map_append, List.sum_append]

omit [DecidableEq α] in
theorem netTotal_congr {amount' : α → Int} (h : ∀ x ∈ entries, amount x = amount' x) :
    netTotal amount entries = netTotal amount' entries := by
  unfold netTotal
  rw [List.map_congr_left h]

omit [DecidableEq α] in
theorem NeverNegative.congr {amount' : α → Int} (hnever : NeverNegative amount entries)
    (h : ∀ x ∈ entries, amount x = amount' x) : NeverNegative amount' entries := by
  intro n
  rw [← netTotal_congr fun x hx => h x (List.mem_of_mem_take hx)]
  exact hnever n

omit [DecidableEq α] in
theorem DepositsFirst.congr {amount' : α → Int} (hfirst : DepositsFirst amount counted entries)
    (h : ∀ x ∈ entries, amount x = amount' x) : DepositsFirst amount' counted entries := by
  refine List.Pairwise.imp_of_mem ?_ hfirst
  intro x y hx hy hxy
  rw [← h x hx, ← h y hy]
  exact hxy

theorem countedTotal_congr {amount' : α → Int} (h : ∀ x ∈ entries, amount x = amount' x) :
    countedTotal amount counted entries = countedTotal amount' counted entries :=
  netTotal_congr fun x hx => h x (List.mem_of_mem_filter hx)

omit [DecidableEq α] in
theorem NeverNegative.total (h : NeverNegative amount entries) : 0 ≤ netTotal amount entries := by
  have hall := h entries.length
  rwa [List.take_length] at hall

omit [DecidableEq α] in
theorem NeverNegative.of_append {later : List α} (h : NeverNegative amount (entries ++ later)) :
    NeverNegative amount entries := by
  intro n
  rcases Nat.le_total n entries.length with hle | hge
  · have htake := h n
    rwa [List.take_append_of_le_length hle] at htake
  · have htake := h entries.length
    rw [List.take_append_of_le_length le_rfl, List.take_length] at htake
    rwa [List.take_of_length_le hge]

omit [DecidableEq α] in
theorem NeverNegative.concat (h : NeverNegative amount entries) {x : α}
    (hx : 0 ≤ netTotal amount (entries ++ [x])) : NeverNegative amount (entries ++ [x]) := by
  intro n
  rcases Nat.lt_or_ge n (entries ++ [x]).length with hlt | hge
  · rw [List.length_append, List.length_singleton] at hlt
    rw [List.take_append_of_le_length (by omega)]
    exact h n
  · rwa [List.take_of_length_le hge]

theorem netTotal_le_counted (h : ∀ x ∈ entries, 0 < amount x → x ∈ counted) :
    netTotal amount entries ≤ countedTotal amount counted entries := by
  induction entries with
  | nil => exact le_rfl
  | cons x entries ih =>
      have hrest := ih fun y hy => h y (List.mem_cons_of_mem _ hy)
      unfold countedTotal at hrest ⊢
      rw [List.filter_cons, netTotal_cons]
      by_cases hx : x ∈ counted
      · rw [if_pos (decide_eq_true hx), netTotal_cons]
        omega
      · have hle : ¬0 < amount x := fun hpos => hx (h x List.mem_cons_self hpos)
        rw [if_neg (by simpa using hx)]
        omega

theorem NeverNegative.countedTotal_nonneg (h : NeverNegative amount entries)
    (hfirst : DepositsFirst amount counted entries) : 0 ≤ countedTotal amount counted entries := by
  induction entries using List.reverseRecOn with
  | nil => exact le_rfl
  | append_singleton entries x ih =>
      obtain ⟨hbefore, _, hlast⟩ := List.pairwise_append.mp hfirst
      have hrest := ih h.of_append hbefore
      unfold countedTotal at hrest ⊢
      rw [List.filter_append, netTotal_append]
      by_cases hx : x ∈ counted
      · rw [List.filter_cons, if_pos (decide_eq_true hx), List.filter_nil,
          netTotal_cons, netTotal_nil,
          add_zero]
        by_cases hneg : amount x < 0
        · -- the deposits before it are counted, so the copy holds at least what the ledger held
          have hle : netTotal amount entries ≤ countedTotal amount counted entries :=
            netTotal_le_counted fun y hy => hlast y hy x List.mem_cons_self hx hneg
          have htotal := h.total
          rw [netTotal_append, netTotal_cons, netTotal_nil, add_zero] at htotal
          unfold countedTotal at hle
          omega
        · omega
      · rw [List.filter_cons, if_neg (by simpa using hx), List.filter_nil, netTotal_nil, add_zero]
        exact hrest

theorem countedTotal_cons (hnodup : entries.Nodup) {x : α} (hmem : x ∈ entries)
    (hnew : x ∉ counted) :
    countedTotal amount (x :: counted) entries =
      countedTotal amount counted entries + amount x := by
  induction entries with
  | nil => exact absurd hmem List.not_mem_nil
  | cons y entries ih =>
      obtain ⟨hy, hrest⟩ := List.nodup_cons.mp hnodup
      unfold countedTotal at ih ⊢
      rw [List.filter_cons, List.filter_cons]
      by_cases hyx : y = x
      · subst hyx
        have hsame : entries.filter (· ∈ y :: counted) = entries.filter (· ∈ counted) := by
          apply List.filter_congr
          intro z hz
          have hzy : z ≠ y := fun heq => hy (heq ▸ hz)
          simp [hzy]
        rw [if_pos (by simp), if_neg (by simpa using hnew), hsame, netTotal_cons, add_comm]
      · have hmem' : x ∈ entries := (List.mem_cons.mp hmem).resolve_left (Ne.symm hyx)
        have htail := ih hrest hmem'
        by_cases hcounted : y ∈ counted
        · rw [if_pos (by simp [hcounted]), if_pos (by simpa using hcounted), netTotal_cons,
            netTotal_cons]
          omega
        · rw [if_neg (by simp [hcounted, hyx]), if_neg (by simpa using hcounted)]
          exact htail

theorem countedTotal_all (h : ∀ x ∈ entries, x ∈ counted) :
    countedTotal amount counted entries = netTotal amount entries := by
  unfold countedTotal
  rw [List.filter_eq_self.mpr fun x hx => decide_eq_true (h x hx)]

theorem countedTotal_append {later : List α} (h : ∀ x ∈ later, x ∉ counted) :
    countedTotal amount counted (entries ++ later) = countedTotal amount counted entries := by
  have hnone : later.filter (· ∈ counted) = [] :=
    List.filter_eq_nil_iff.mpr fun x hx => by simpa using h x hx
  unfold countedTotal
  rw [List.filter_append, hnone, List.append_nil]

omit [DecidableEq α] in
theorem DepositsFirst.append {later : List α} (h : DepositsFirst amount counted entries)
    (hlater : ∀ x ∈ later, x ∉ counted) : DepositsFirst amount counted (entries ++ later) := by
  refine List.pairwise_append.mpr ⟨h, ?_, ?_⟩
  · exact List.Pairwise.imp_of_mem (fun _ hy _ hcounted => absurd hcounted (hlater _ hy))
      (List.pairwise_of_forall fun _ _ => trivial)
  · exact fun x _ y hy hcounted => absurd hcounted (hlater y hy)

omit [DecidableEq α] in
/-- One more entry is counted, and the deposits before it are. -/
theorem DepositsFirst.cons {x : α} (h : DepositsFirst amount counted entries)
    (hx : entries.Pairwise fun y z => z = x → amount x < 0 → 0 < amount y → y ∈ counted) :
    DepositsFirst amount (x :: counted) entries := by
  refine (h.and hx).imp ?_
  intro y z hyz hz hneg hpos
  apply List.mem_cons_of_mem
  rcases List.mem_cons.mp hz with rfl | hz
  · exact hyz.2 rfl hneg hpos
  · exact hyz.1 hz hneg hpos

end PrismBackend.Lib
