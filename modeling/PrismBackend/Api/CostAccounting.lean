import Mathlib.Algebra.Order.Ring.Rat
import Mathlib.Data.Rat.Cast.Order
import Mathlib.Tactic.Linarith
import PrismBackend.Lib.System
import PrismBackend.Api.Positions

/-!
# API: the cost basis of positions

What `applyPositionDelta` makes of a row of `positions`, as average-cost
accounting: a buy is a purchase, a sell is a sale, and over a run the profit and
the remaining cost balance what was paid and received.
-/

namespace PrismBackend.Api

open PrismBackend.Lib PrismBackend.Clob PrismBackend.PrismV2

/-! ## One holding -/

namespace Holding

def zero : Holding := ⟨0, 0, 0⟩

def account (holding : Holding) : CostBasis ℚ := ⟨holding.n.val, holding.costAccumUsd⟩

/-- The columns agree: the price is the average of the accumulator. -/
structure Accurate (holding : Holding) : Prop where
  sound : holding.account.Sound
  costsAtMost : holding.account.CostsAtMost 1
  costBasisPriceUsd : holding.costBasisPriceUsd = holding.account.average

theorem accurate_zero : zero.Accurate where
  sound := ⟨le_rfl, le_rfl, fun _ => rfl⟩
  costsAtMost := by simp [CostBasis.CostsAtMost, account, zero]
  costBasisPriceUsd := by simp [CostBasis.average, account, zero]

theorem inserted_eq (n : Quantity) (priceUsd : ℚ) :
    inserted n priceUsd = zero.updated n priceUsd := by
  by_cases hn : 0 < n.val
  · have hcast : (n.val : ℚ) ≠ 0 := by exact_mod_cast hn.ne'
    simp [inserted, updated, costAccumAfter, zero, hn, hcast]
  · simp [inserted, updated, costAccumAfter, zero, hn]

theorem realizedBy_zero (n : Quantity) (priceUsd : ℚ) : zero.realizedBy n priceUsd = 0 := by
  simp [realizedBy, zero]

variable {old : Holding} {n : Quantity} {k : Nat}

theorem updated_account (priceUsd : ℚ) :
    (old.updated n priceUsd).account = ⟨n.val, old.costAccumAfter n priceUsd⟩ := rfl

/-- The price of an updated row is the average of its accumulator. -/
theorem updated_price (priceUsd : ℚ) :
    (old.updated n priceUsd).costBasisPriceUsd = (old.updated n priceUsd).account.average := by
  by_cases hn : n.val > 0
  · simp only [updated, if_pos hn]
    rfl
  · have hzero : n.val = 0 := by omega
    simp [updated, account, CostBasis.average, hzero]

theorem updated_buy (hn : n.val = old.n.val + k) (priceUsd : ℚ) :
    (old.updated n priceUsd).account = old.account.buy k |priceUsd| := by
  have hcast : (n.val : ℚ) = old.n.val + k := by exact_mod_cast hn
  rw [updated_account]
  simp only [CostBasis.buy, account, CostBasis.mk.injEq]
  refine ⟨hcast, ?_⟩
  unfold costAccumAfter
  rcases Nat.eq_zero_or_pos k with hk | hk
  · subst hk
    rw [if_neg (by omega), if_neg (by omega), Nat.cast_zero, zero_mul, add_zero]
  · rw [if_pos (by omega), hcast, add_sub_cancel_left]

theorem realizedBy_buy (hn : n.val = old.n.val + k) (priceUsd : ℚ) :
    old.realizedBy n priceUsd = 0 := by
  unfold realizedBy
  exact if_neg (by omega)

theorem soldCost_eq (hn : n.val + k = old.n.val) : old.soldCost n = old.account.average * k := by
  have hcast : (old.n.val : ℚ) - n.val = k := by
    rw [sub_eq_iff_eq_add']
    exact_mod_cast hn.symm
  rw [soldCost, hcast]
  rfl

theorem updated_sell (h : old.Accurate) (hn : n.val + k = old.n.val) (priceUsd : ℚ) :
    (old.updated n priceUsd).account = old.account.sell k := by
  have hcast : (n.val : ℚ) + k = old.n.val := by exact_mod_cast hn
  have hheld : (k : ℚ) ≤ old.account.quantity := by
    show (k : ℚ) ≤ old.n.val
    have hnonneg : (0 : ℚ) ≤ n.val := Nat.cast_nonneg _
    linarith
  have hcost : 0 ≤ old.costAccumUsd - old.account.average * k := (h.sound.sell hheld).cost
  rw [updated_account]
  simp only [CostBasis.sell, CostBasis.mk.injEq]
  refine ⟨eq_sub_of_add_eq hcast, ?_⟩
  unfold costAccumAfter
  rw [if_neg (by omega), soldCost_eq hn]
  rcases Nat.eq_zero_or_pos k with hk | hk
  · subst hk
    rw [if_neg (by omega), Nat.cast_zero, mul_zero, sub_zero]
    rfl
  · rw [if_pos ⟨by omega, by omega⟩]
    exact max_eq_left hcost

theorem realizedBy_sell (hn : n.val + k = old.n.val) (priceUsd : ℚ) :
    old.realizedBy n priceUsd = old.account.gain k |priceUsd| := by
  have hcast : (old.n.val : ℚ) - n.val = k := by
    rw [sub_eq_iff_eq_add']
    exact_mod_cast hn.symm
  unfold realizedBy
  rw [soldCost_eq hn, hcast]
  rcases Nat.eq_zero_or_pos k with hk | hk
  · subst hk
    rw [if_neg (by omega)]
    simp [CostBasis.gain]
  · rw [if_pos ⟨by omega, by omega⟩]
    rfl

theorem accurate_buy (h : old.Accurate) (hn : n.val = old.n.val + k) {priceUsd : ℚ}
    (hprice : 0 ≤ priceUsd ∧ priceUsd ≤ 1) : (old.updated n priceUsd).Accurate := by
  have hquantity : (0 : ℚ) ≤ k := Nat.cast_nonneg k
  have habs : |priceUsd| ≤ 1 := (abs_of_nonneg hprice.1).trans_le hprice.2
  refine ⟨?_, ?_, updated_price priceUsd⟩
  · rw [updated_buy hn]
    exact h.sound.buy hquantity (abs_nonneg priceUsd)
  · rw [updated_buy hn]
    exact h.costsAtMost.buy hquantity habs

theorem accurate_sell (h : old.Accurate) (hn : n.val + k = old.n.val) (priceUsd : ℚ) :
    (old.updated n priceUsd).Accurate := by
  have hheld : (k : ℚ) ≤ old.account.quantity := by
    show (k : ℚ) ≤ old.n.val
    exact_mod_cast hn ▸ Nat.le_add_left k n.val
  refine ⟨?_, ?_, updated_price priceUsd⟩
  · rw [updated_sell h hn]
    exact h.sound.sell hheld
  · rw [updated_sell h hn]
    exact h.costsAtMost.sell h.sound zero_le_one hheld

theorem Accurate.permitted (h : old.Accurate) : old.permitted := by
  unfold Holding.permitted
  rw [h.costBasisPriceUsd]
  exact ⟨h.sound.average_nonneg, h.sound.average_le zero_le_one h.costsAtMost, h.sound.cost⟩

end Holding

/-! ## One row -/

def PositionRow.holding (position : PositionRow) : Side → Holding
  | .yes => position.yes
  | .no => position.no

def PositionRow.Accurate (position : PositionRow) : Prop :=
  ∀ side, (position.holding side).Accurate

/-- An address without a row holds nothing. -/
def PositionRow.zero (evmAddress : Str) : PositionRow := ⟨evmAddress, .zero, .zero, 0⟩

def positionOf (positions : PositionTable) (evmAddress : Str) : PositionRow :=
  (positions.find evmAddress).getD (.zero evmAddress)

theorem positionOf_evmAddress (positions : PositionTable) (evmAddress : Str) :
    (positionOf positions evmAddress).evmAddress = evmAddress := by
  unfold positionOf
  cases hfind : positions.find evmAddress with
  | none => rfl
  | some row => exact (Table.find_eq_some.mp hfind).2

def PositionRow.moved (position : PositionRow) (nYes nNo : Quantity) (priceUsd : ℚ) :
    PositionRow :=
  { position with
    yes := position.yes.updated nYes priceUsd
    no := position.no.updated nNo priceUsd
    realizedPnlUsd := position.realizedPnlUsd + position.yes.realizedBy nYes priceUsd +
      position.no.realizedBy nNo priceUsd }

theorem upsertedRow_eq (positions : PositionTable) (evmAddress : Str) (nYes nNo : Quantity)
    (priceUsd : ℚ) :
    upsertedRow (positions.find evmAddress) evmAddress nYes nNo priceUsd =
      (positionOf positions evmAddress).moved nYes nNo priceUsd := by
  unfold positionOf
  cases positions.find evmAddress with
  | none =>
      simp [upsertedRow, PositionRow.moved, PositionRow.zero, Holding.inserted_eq,
        Holding.realizedBy_zero]
  | some row => rfl

/-- An upsert that passes the checks moves one row and leaves the others. -/
theorem positionOf_upsert {positions : PositionTable} {evmAddress : Str} {nYes nNo : Quantity}
    {priceUsd : ℚ}
    (hpermitted : ((positionOf positions evmAddress).moved nYes nNo priceUsd).yes.permitted ∧
      ((positionOf positions evmAddress).moved nYes nNo priceUsd).no.permitted) :
    ∃ positions', upsertPositions positions evmAddress nYes nNo priceUsd = .ok positions' ∧
      ∀ a, positionOf positions' a = if a = evmAddress then
        (positionOf positions evmAddress).moved nYes nNo priceUsd else positionOf positions a := by
  have hkey : ((positionOf positions evmAddress).moved nYes nNo priceUsd).evmAddress = evmAddress :=
    positionOf_evmAddress positions evmAddress
  unfold upsertPositions
  simp only [upsertedRow_eq, hpermitted.1, hpermitted.2, not_true_eq_false, or_self, revertIf,
    if_false, ok_bind]
  refine ⟨_, rfl, ?_⟩
  generalize (positionOf positions evmAddress).moved nYes nNo priceUsd = row at hkey ⊢
  intro a
  cases hfind : positions.find evmAddress with
  | none =>
      rw [if_neg (by simp)]
      by_cases ha : a = evmAddress
      · rw [if_pos ha, ha]
        have hnone : positions.find row.evmAddress = none := by rwa [hkey]
        have hinsert := Table.find_insert_self hnone
        rw [hkey] at hinsert
        rw [positionOf, hinsert, Option.getD_some]
      · rw [if_neg ha, positionOf, Table.find_insert_of_ne (by rw [hkey]; exact Ne.symm ha)]
        rfl
  | some old =>
      rw [if_pos (Option.isSome_some), positionOf, Table.find_put, hkey]
      by_cases ha : a = evmAddress
      · rw [if_pos ha, if_pos ha, ha, hfind]
        rfl
      · rw [if_neg ha, if_neg ha]
        rfl

/-! ## One fill -/

/-- One leg of a settled match, as `recordFillBookkeeping` hands it on: the fill is a signed word
and the contract settles at no price beyond the scale. `deletedAt` is the mark of the market at
the time. -/
structure PositionFill where
  deletedAt : Bool
  row : PredictionIntent
  shares : Nat
  executionYesPrice : Nat
  shares_lt : shares < 2 ^ 63
  price_le : executionYesPrice ≤ PrismV2.priceScale

namespace PositionFill

variable (fill : PositionFill)

def side : Side := if fill.row.side.getD 0 = Clob.sideYes then .yes else .no

def isSell : Bool := fill.row.action.getD 0 = actionSell

def tokenPrice : ℚ :=
  match fill.side with
  | .yes => (fill.executionYesPrice : ℚ) / PrismV2.priceScale
  | .no => 1 - (fill.executionYesPrice : ℚ) / PrismV2.priceScale

theorem tokenPrice_mem : 0 ≤ fill.tokenPrice ∧ fill.tokenPrice ≤ 1 := by
  have hscale : (0 : ℚ) < (PrismV2.priceScale : ℚ) := by
    exact_mod_cast (by decide : 0 < PrismV2.priceScale)
  have hle : (fill.executionYesPrice : ℚ) / PrismV2.priceScale ≤ 1 := by
    rw [div_le_one hscale]
    exact_mod_cast fill.price_le
  have hnonneg : 0 ≤ (fill.executionYesPrice : ℚ) / PrismV2.priceScale :=
    div_nonneg (Nat.cast_nonneg _) hscale.le
  unfold tokenPrice
  cases fill.side with
  | yes => exact ⟨hnonneg, hle⟩
  | no => exact ⟨sub_nonneg.mpr hle, sub_le_self 1 hnonneg⟩

def balance (held : Nat) : Nat := if fill.isSell then held - fill.shares else held + fill.shares

end PositionFill

/-- The positions of one market; a step applies one fill. The sell of a step does not exceed the
holding that its trader has. -/
def positionSystem : System PositionTable PositionFill where
  next positions fill :=
    applyPositionDelta fill.deletedAt positions fill.row fill.shares fill.executionYesPrice
  Allowed positions fill := fill.isSell = true →
    fill.shares ≤ ((positionOf positions fill.row.evmaddress).holding fill.side).n.val

/-- The fill is counted: its trader's holdings are read, and a bought holding fits its column. -/
def PositionFill.Counted (positions : PositionTable) (fill : PositionFill) : Prop :=
  (fill.deletedAt = true →
    ∀ side, ((positionOf positions fill.row.evmaddress).holding side).n.val = 0) ∧
  (fill.isSell = false →
    ((positionOf positions fill.row.evmaddress).holding fill.side).n.val + fill.shares < 2 ^ 63)

/-- The balances that are read of a counted fill are those of the trader's row. -/
theorem read_position {positions : PositionTable} {deletedAt : Bool} {evmAddress : Str}
    (h : deletedAt = true → ∀ side, ((positionOf positions evmAddress).holding side).n.val = 0) :
    (((getUserPositionsByMarketId deletedAt positions evmAddress).head?.map
        fun position => (position.yes.n.val : Int)).getD 0 =
        (positionOf positions evmAddress).yes.n.val) ∧
      (((getUserPositionsByMarketId deletedAt positions evmAddress).head?.map
        fun position => (position.no.n.val : Int)).getD 0 =
        (positionOf positions evmAddress).no.n.val) := by
  cases deletedAt with
  | true =>
      have hyes : (positionOf positions evmAddress).yes.n.val = 0 := h rfl .yes
      have hno : (positionOf positions evmAddress).no.n.val = 0 := h rfl .no
      rw [hyes, hno]
      exact ⟨rfl, rfl⟩
  | false =>
      have hhead : (getUserPositionsByMarketId false positions evmAddress).head? =
          positions.find evmAddress := List.head?_filter
      rw [hhead]
      unfold positionOf
      cases positions.find evmAddress with
      | none => exact ⟨rfl, rfl⟩
      | some row => exact ⟨rfl, rfl⟩

theorem addInt64_eq {x y : Int} (hlow : -2 ^ 63 ≤ x + y) (hhigh : x + y < 2 ^ 63) :
    addInt64 x y = x + y :=
  Int.bmod_eq_of_le (by omega) (by omega)

theorem clampZero_val {x : Nat} (h : x < 2 ^ 63) : (clampZero x).val = x := by
  rw [clampZero, Int.max_eq_left (Int.natCast_nonneg x), Int.toNat_natCast]
  exact Nat.mod_eq_of_lt h

theorem clampZero_quantity (n : Quantity) : clampZero n.val = n :=
  Fin.ext (clampZero_val n.isLt)

def PositionRow.traded (position : PositionRow) (side : Side) (n : Quantity) (priceUsd : ℚ) :
    PositionRow :=
  match side with
  | .yes => position.moved n position.no.n priceUsd
  | .no => position.moved position.yes.n n priceUsd

theorem PositionRow.traded_holding (position : PositionRow) (side side' : Side) (n : Quantity)
    (priceUsd : ℚ) : (position.traded side n priceUsd).holding side' =
      (position.holding side').updated
        (if side' = side then n else (position.holding side').n) priceUsd := by
  cases side <;> cases side' <;> rfl

theorem PositionRow.traded_realized (position : PositionRow) (side : Side) (n : Quantity)
    (priceUsd : ℚ) : (position.traded side n priceUsd).realizedPnlUsd =
      position.realizedPnlUsd + (position.holding side).realizedBy n priceUsd := by
  have hstays : ∀ holding : Holding, holding.realizedBy holding.n priceUsd = 0 :=
    fun holding => Holding.realizedBy_buy (Nat.add_zero _).symm priceUsd
  cases side with
  | yes => simp [PositionRow.traded, PositionRow.moved, PositionRow.holding, hstays]
  | no => simp [PositionRow.traded, PositionRow.moved, PositionRow.holding, hstays]

namespace PositionFill

variable {fill : PositionFill} {positions : PositionTable}

theorem addInt64_balance {held : Quantity} (hsell : fill.isSell = true → fill.shares ≤ held.val)
    (hbuy : fill.isSell = false → held.val + fill.shares < 2 ^ 63) :
    addInt64 held.val
      (if fill.row.action.getD 0 = actionSell then -(fill.shares : Int) else fill.shares) =
      fill.balance held.val ∧ fill.balance held.val < 2 ^ 63 := by
  have hheld := held.isLt
  unfold balance
  cases hdirection : fill.isSell with
  | true =>
      have hle := hsell hdirection
      have haction : fill.row.action.getD 0 = actionSell := of_decide_eq_true hdirection
      rw [if_pos haction, if_pos rfl, addInt64_eq (by omega) (by omega)]
      omega
  | false =>
      have hlt := hbuy hdirection
      have haction : ¬fill.row.action.getD 0 = actionSell := of_decide_eq_false hdirection
      rw [if_neg haction, if_neg (by decide), addInt64_eq (by omega) (by omega)]
      omega

theorem clampZero_balance {held : Quantity} (hsell : fill.isSell = true → fill.shares ≤ held.val)
    (hbuy : fill.isSell = false → held.val + fill.shares < 2 ^ 63) :
    (clampZero (addInt64 held.val
      (if fill.row.action.getD 0 = actionSell then -(fill.shares : Int) else fill.shares))).val =
      fill.balance held.val := by
  obtain ⟨hbalance, hlt⟩ := addInt64_balance hsell hbuy
  rw [hbalance, clampZero_val hlt]

/-- A balance that did not wrap and is not negative is that of a counted fill. -/
theorem counted_of_balance {held : Quantity} (h : 0 ≤ addInt64 held.val
    (if fill.row.action.getD 0 = actionSell then -(fill.shares : Int) else fill.shares)) :
    (fill.isSell = true → fill.shares ≤ held.val) ∧
      (fill.isSell = false → held.val + fill.shares < 2 ^ 63) := by
  have hheld := held.isLt
  have hshares := fill.shares_lt
  constructor
  · intro hdirection
    have haction : fill.row.action.getD 0 = actionSell := of_decide_eq_true hdirection
    rw [if_pos haction, addInt64_eq (by omega) (by omega)] at h
    omega
  · intro hdirection
    have haction : ¬fill.row.action.getD 0 = actionSell := of_decide_eq_false hdirection
    rw [if_neg haction, addInt64, Int.bmod_def] at h
    split at h
    · omega
    · omega

theorem accurate_traded {position : PositionRow} (h : position.Accurate) {n : Quantity}
    (hsell : fill.isSell = true → fill.shares ≤ (position.holding fill.side).n.val)
    (hn : n.val = fill.balance (position.holding fill.side).n.val) :
    (position.traded fill.side n fill.tokenPrice).Accurate := by
  intro side
  rw [PositionRow.traded_holding]
  split
  · next hside =>
    subst hside
    unfold balance at hn
    cases hdirection : fill.isSell with
    | true =>
        have hle := hsell hdirection
        rw [hdirection, if_pos rfl] at hn
        exact Holding.accurate_sell (h fill.side) (k := fill.shares) (by omega) _
    | false =>
        rw [hdirection, if_neg (by decide)] at hn
        exact Holding.accurate_buy (h fill.side) hn fill.tokenPrice_mem
  · exact Holding.accurate_buy (h side) (Nat.add_zero _).symm fill.tokenPrice_mem

theorem deltaPrice_eq (fill : PositionFill) :
    deltaPrice fill.row fill.executionYesPrice = fill.tokenPrice := by
  unfold deltaPrice tokenPrice side
  split <;> rfl

/-- The balances that are computed for a fill, with the one of its side moved. -/
theorem movedBalances_eq (h : fill.deletedAt = true →
    ∀ side, ((positionOf positions fill.row.evmaddress).holding side).n.val = 0) :
    movedBalances (getUserPositionsByMarketId fill.deletedAt positions fill.row.evmaddress) fill.row
        fill.shares =
      let position := positionOf positions fill.row.evmaddress
      let moved := addInt64 (position.holding fill.side).n.val
        (if fill.row.action.getD 0 = actionSell then -(fill.shares : Int) else fill.shares)
      match fill.side with
      | .yes => (moved, (position.no.n.val : Int))
      | .no => ((position.yes.n.val : Int), moved) := by
  obtain ⟨hyes, hno⟩ := read_position h
  unfold movedBalances side
  simp only [hyes, hno]
  split <;> rfl

theorem movedBalances_nonneg (hcounted : fill.Counted positions)
    (hallowed : positionSystem.Allowed positions fill) :
    let moved := movedBalances (getUserPositionsByMarketId fill.deletedAt positions
      fill.row.evmaddress) fill.row fill.shares
    0 ≤ moved.1 ∧ 0 ≤ moved.2 := by
  have hbalance := (Int.natCast_nonneg _).trans_eq (addInt64_balance hallowed hcounted.2).1.symm
  rw [movedBalances_eq hcounted.1]
  cases hside : fill.side with
  | yes =>
      rw [hside] at hbalance
      exact ⟨hbalance, Int.natCast_nonneg _⟩
  | no =>
      rw [hside] at hbalance
      exact ⟨Int.natCast_nonneg _, hbalance⟩

theorem counted_of_nonneg (h : fill.deletedAt = false)
    (hnonneg : let moved := movedBalances (getUserPositionsByMarketId false positions
      fill.row.evmaddress) fill.row fill.shares
    0 ≤ moved.1 ∧ 0 ≤ moved.2) : fill.Counted positions ∧
      positionSystem.Allowed positions fill := by
  have hshown : fill.deletedAt = true →
      ∀ side, ((positionOf positions fill.row.evmaddress).holding side).n.val = 0 := by
    intro hdeleted
    rw [h] at hdeleted
    exact absurd hdeleted (by decide)
  rw [← h, movedBalances_eq hshown] at hnonneg
  have hbalance : 0 ≤ addInt64 ((positionOf positions fill.row.evmaddress).holding fill.side).n.val
      (if fill.row.action.getD 0 = actionSell then -(fill.shares : Int) else fill.shares) := by
    cases hside : fill.side with
    | yes =>
        rw [hside] at hnonneg
        exact hnonneg.1
    | no =>
        rw [hside] at hnonneg
        exact hnonneg.2
  obtain ⟨hsell, hbuy⟩ := counted_of_balance hbalance
  exact ⟨⟨hshown, hbuy⟩, hsell⟩

/-- A counted fill is written: it moves the balance of its side and nothing else. -/
theorem write_counted (hcounted : fill.Counted positions)
    (hallowed : positionSystem.Allowed positions fill)
    (haccurate : (positionOf positions fill.row.evmaddress).Accurate) :
    ∃ positions', writeBalances positions fill.row fill.executionYesPrice
        (movedBalances (getUserPositionsByMarketId fill.deletedAt positions fill.row.evmaddress)
          fill.row fill.shares) = .ok positions' ∧
      ∃ n : Quantity,
        n.val = fill.balance ((positionOf positions fill.row.evmaddress).holding fill.side).n.val ∧
        ∀ a, positionOf positions' a = if a = fill.row.evmaddress then
          (positionOf positions fill.row.evmaddress).traded fill.side n fill.tokenPrice
          else positionOf positions a := by
  have hbalance := clampZero_balance hallowed hcounted.2
  have haccurate' := accurate_traded haccurate hallowed hbalance
  unfold writeBalances
  rw [deltaPrice_eq, movedBalances_eq hcounted.1]
  cases hside : fill.side with
  | yes =>
      simp only [hside, PositionRow.holding, PositionRow.traded] at haccurate' hbalance ⊢
      rw [clampZero_quantity]
      obtain ⟨positions', hupsert, hposition⟩ :=
        positionOf_upsert ⟨(haccurate' .yes).permitted, (haccurate' .no).permitted⟩
      exact ⟨positions', hupsert, _, hbalance, hposition⟩
  | no =>
      simp only [hside, PositionRow.holding, PositionRow.traded] at haccurate' hbalance ⊢
      rw [clampZero_quantity]
      obtain ⟨positions', hupsert, hposition⟩ :=
        positionOf_upsert ⟨(haccurate' .yes).permitted, (haccurate' .no).permitted⟩
      exact ⟨positions', hupsert, _, hbalance, hposition⟩

theorem next_position (hcounted : fill.Counted positions)
    (hallowed : positionSystem.Allowed positions fill)
    (haccurate : (positionOf positions fill.row.evmaddress).Accurate) :
    ∃ n : Quantity,
      n.val = fill.balance ((positionOf positions fill.row.evmaddress).holding fill.side).n.val ∧
      ∀ a, positionOf (positionSystem.next positions fill) a = if a = fill.row.evmaddress then
        (positionOf positions fill.row.evmaddress).traded fill.side n fill.tokenPrice
        else positionOf positions a := by
  obtain ⟨positions', hwrite, hmoved⟩ := write_counted hcounted hallowed haccurate
  have hnext : positionSystem.next positions fill = positions' := by
    show applyPositionDelta fill.deletedAt positions fill.row fill.shares fill.executionYesPrice = _
    rw [applyPositionDelta_eq, hwrite]
  rw [hnext]
  exact hmoved

end PositionFill

/-! ## Runs -/

def PositionRow.worth (position : PositionRow) : ℚ :=
  position.realizedPnlUsd - (position.yes.costAccumUsd + position.no.costAccumUsd)

def PositionFill.value (fill : PositionFill) : ℚ := fill.shares * fill.tokenPrice

/-- What a fill brings its trader. -/
def PositionFill.cash (fill : PositionFill) : ℚ :=
  if fill.isSell then fill.value else -fill.value

def totalPurchases (evmAddress : Str) (fills : List PositionFill) : ℚ :=
  ((fills.filter fun fill => fill.row.evmaddress = evmAddress ∧ fill.isSell = false).map
    PositionFill.value).sum

def totalProceeds (evmAddress : Str) (fills : List PositionFill) : ℚ :=
  ((fills.filter fun fill => fill.row.evmaddress = evmAddress ∧ fill.isSell = true).map
    PositionFill.value).sum

theorem totals_cons (evmAddress : Str) (fill : PositionFill) (fills : List PositionFill) :
    totalProceeds evmAddress (fill :: fills) - totalPurchases evmAddress (fill :: fills) =
      (if fill.row.evmaddress = evmAddress then fill.cash else 0) +
        (totalProceeds evmAddress fills - totalPurchases evmAddress fills) := by
  unfold totalProceeds totalPurchases PositionFill.cash
  rw [List.filter_cons, List.filter_cons]
  by_cases ha : fill.row.evmaddress = evmAddress
  · cases fill.isSell with
    | true =>
        simp [ha]
        ring
    | false =>
        simp [ha]
        ring
  · simp [ha]

theorem worth_traded {position : PositionRow} {fill : PositionFill} (h : position.Accurate)
    {n : Quantity}
    (hsell : fill.isSell = true → fill.shares ≤ (position.holding fill.side).n.val)
    (hn : n.val = fill.balance (position.holding fill.side).n.val) :
    (position.traded fill.side n fill.tokenPrice).worth = position.worth + fill.cash := by
  have hprice := abs_of_nonneg fill.tokenPrice_mem.1
  have hmoved : ((position.holding fill.side).realizedBy n fill.tokenPrice) -
      ((position.holding fill.side).updated n fill.tokenPrice).costAccumUsd =
        fill.cash - (position.holding fill.side).costAccumUsd := by
    unfold PositionFill.balance at hn
    unfold PositionFill.cash
    cases hdirection : fill.isSell with
    | true =>
        have hle := hsell hdirection
        rw [hdirection, if_pos rfl] at hn
        have hsum : n.val + fill.shares = (position.holding fill.side).n.val := by omega
        have haccount := congrArg CostBasis.cost
          (Holding.updated_sell (h fill.side) hsum fill.tokenPrice)
        have hgain : (position.holding fill.side).account.gain fill.shares fill.tokenPrice -
            ((position.holding fill.side).account.sell fill.shares).cost =
              fill.value - (position.holding fill.side).costAccumUsd :=
          CostBasis.gain_sub_cost _ _
        rw [Holding.realizedBy_sell hsum, hprice, if_pos rfl]
        rw [← haccount] at hgain
        exact hgain
    | false =>
        rw [hdirection, if_neg (by decide)] at hn
        have hcost : ((position.holding fill.side).updated n fill.tokenPrice).costAccumUsd =
            (position.holding fill.side).costAccumUsd + fill.shares * |fill.tokenPrice| :=
          congrArg CostBasis.cost (Holding.updated_buy hn fill.tokenPrice)
        rw [hprice] at hcost
        rw [Holding.realizedBy_buy hn, hcost, if_neg (by decide), PositionFill.value]
        ring
  have hstays : ∀ side, ((position.holding side).updated (position.holding side).n
      fill.tokenPrice).costAccumUsd = (position.holding side).costAccumUsd := by
    intro side
    have hcost : ((position.holding side).updated (position.holding side).n
        fill.tokenPrice).costAccumUsd =
          (position.holding side).costAccumUsd + (0 : Nat) * |fill.tokenPrice| :=
      congrArg CostBasis.cost (Holding.updated_buy (Nat.add_zero _).symm fill.tokenPrice)
    rw [hcost, Nat.cast_zero, zero_mul, add_zero]
  unfold PositionRow.worth
  rw [PositionRow.traded_realized]
  cases hside : fill.side with
  | yes =>
      rw [hside] at hmoved
      have hno := hstays .no
      simp only [PositionRow.holding, PositionRow.traded, PositionRow.moved] at hmoved hno ⊢
      rw [hno]
      linarith
  | no =>
      rw [hside] at hmoved
      have hyes := hstays .yes
      simp only [PositionRow.holding, PositionRow.traded, PositionRow.moved] at hmoved hyes ⊢
      rw [hyes]
      linarith

theorem run_accounts {positions : PositionTable} {fills : List PositionFill}
    (h : positionSystem.Runs (fun positions fill => fill.Counted positions) positions fills)
    (haccurate : ∀ a, (positionOf positions a).Accurate) (a : Str) :
    (positionOf (positionSystem.run positions fills) a).Accurate ∧
      (positionOf (positionSystem.run positions fills) a).worth =
        (positionOf positions a).worth + (totalProceeds a fills - totalPurchases a fills) := by
  induction fills generalizing positions with
  | nil =>
      refine ⟨haccurate a, ?_⟩
      simp [totalProceeds, totalPurchases]
  | cons fill fills ih =>
      obtain ⟨hallowed, hcounted, hrest⟩ := h
      obtain ⟨n, hn, hposition⟩ :=
        PositionFill.next_position hcounted hallowed (haccurate fill.row.evmaddress)
      have hnext : ∀ a, (positionOf (positionSystem.next positions fill) a).Accurate := by
        intro a
        rw [hposition a]
        split
        · exact PositionFill.accurate_traded (haccurate fill.row.evmaddress) hallowed hn
        · exact haccurate a
      obtain ⟨hfinal, hworth⟩ := ih hrest hnext
      refine ⟨hfinal, ?_⟩
      rw [System.run_cons, hworth, totals_cons, hposition a]
      by_cases ha : a = fill.row.evmaddress
      · rw [if_pos ha, if_pos ha.symm, worth_traded (haccurate fill.row.evmaddress) hallowed hn, ha]
        ring
      · rw [if_neg ha, if_neg (Ne.symm ha)]
        ring

theorem accurate_empty (a : Str) : (positionOf .empty a).Accurate := by
  intro side
  cases side <;> exact Holding.accurate_zero

/-- The cost basis of a market's positions. As long as no fill is applied to a trader who holds
something while the market is marked as deleted, and no bought holding outgrows its column: on
either side the average cost times the quantity is the accumulated cost, which is not negative
and is zero where nothing is held; the realized profit without the accumulated costs is what
sales brought without what purchases cost; and a sell leaves the average cost of what remains. -/
theorem cost_basis {fills : List PositionFill}
    (h : positionSystem.Runs (fun positions fill => fill.Counted positions) .empty fills)
    (a : Str) :
    let position := positionOf (positionSystem.run .empty fills) a
    (∀ side, (position.holding side).costBasisPriceUsd * (position.holding side).n.val =
        (position.holding side).costAccumUsd ∧
      0 ≤ (position.holding side).costAccumUsd ∧
      ((position.holding side).n.val = 0 → (position.holding side).costAccumUsd = 0)) ∧
    position.realizedPnlUsd - (position.yes.costAccumUsd + position.no.costAccumUsd) =
      totalProceeds a fills - totalPurchases a fills ∧
    ∀ before fill after, fills = before ++ fill :: after → fill.isSell = true → ∀ side,
      let old := positionOf (positionSystem.run .empty before) a
      let new := positionOf (positionSystem.run .empty (before ++ [fill])) a
      (new.holding side).n.val ≠ 0 →
        (new.holding side).costBasisPriceUsd = (old.holding side).costBasisPriceUsd := by
  obtain ⟨haccurate, hworth⟩ := run_accounts h accurate_empty a
  refine ⟨?_, ?_, ?_⟩
  · intro side
    have hside := haccurate side
    have hnone : ((positionOf (positionSystem.run .empty fills) a).holding side).n.val = 0 →
        ((positionOf (positionSystem.run .empty fills) a).holding side).costAccumUsd = 0 :=
      fun hzero => hside.sound.none (Nat.cast_eq_zero.mpr hzero)
    refine ⟨?_, hside.sound.cost, hnone⟩
    rw [hside.costBasisPriceUsd]
    exact CostBasis.average_mul_quantity hside.sound.none
  · have hzero : (positionOf .empty a).worth = 0 := by
      simp [positionOf, Table.find, Table.empty, PositionRow.worth, PositionRow.zero, Holding.zero]
    rw [hzero, zero_add] at hworth
    exact hworth
  · intro before fill after hfills hsold side
    rw [hfills] at h
    obtain ⟨hbefore, hallowed, hcounted, _⟩ := System.runs_append.mp h
    have hold := fun a => (run_accounts hbefore accurate_empty a).1
    dsimp only
    rw [System.run_concat]
    generalize positionSystem.run .empty before = positions at hallowed hcounted hold ⊢
    obtain ⟨n, hn, hposition⟩ :=
      PositionFill.next_position hcounted hallowed (hold fill.row.evmaddress)
    have hheld := hallowed hsold
    rw [PositionFill.balance, if_pos hsold] at hn
    rw [hposition a]
    split
    · next ha =>
      rw [ha, PositionRow.traded_holding]
      intro hleft
      rw [Holding.updated_price, (hold fill.row.evmaddress side).costBasisPriceUsd]
      split at hleft
      · next hside =>
        subst hside
        have hsum : n.val + fill.shares =
            ((positionOf positions fill.row.evmaddress).holding fill.side).n.val := by
          omega
        have haccount := Holding.updated_sell (hold fill.row.evmaddress fill.side) hsum
          fill.tokenPrice
        have hquantity := congrArg CostBasis.quantity haccount
        rw [if_pos rfl, haccount]
        apply CostBasis.sell_average (hold fill.row.evmaddress fill.side).sound.none
        rw [← hquantity]
        exact Nat.cast_ne_zero.mpr hleft
      · next hside =>
        rw [if_neg hside, Holding.updated_buy (Nat.add_zero _).symm fill.tokenPrice]
        simp [CostBasis.buy]
    · exact fun _ => rfl

instance (positions : PositionTable) (fill : PositionFill) :
    Decidable (positionSystem.Allowed positions fill) :=
  inferInstanceAs (Decidable (_ → _))

instance (positions : PositionTable) (fill : PositionFill) : Decidable (fill.Counted positions) :=
  have : ∀ P : Side → Prop, [DecidablePred P] → Decidable (∀ side, P side) := fun P _ =>
    decidable_of_iff (P .yes ∧ P .no)
      ⟨fun h side => match side with | .yes => h.1 | .no => h.2, fun h => ⟨h .yes, h .no⟩⟩
  inferInstanceAs (Decidable ((_ → ∀ _, _) ∧ (_ → _)))

def samplePositionOrder (side action : Nat) : PredictionIntent where
  txID := 1
  net := "testnet".toList
  marketID := 7
  accountID := "0.0.5".toList
  sig := []
  publicKeyHex := []
  evmaddress := "05".toList
  keytype := 1
  protocolVersion := 2
  chainID := some 296
  verifyingContract := none
  side := some side
  action := some action
  limitYesPrice := some 500000
  qtyShares := some 100
  collateralCap := some 100
  deadline := some 100
  sharesFilled := 0
  collateralFilled := 0
  qtyRem := 100
  cancelledAt := false
  fullyMatchedAt := false
  evictedAt := false

/-- Ten YES shares at 0.4 and five at 0.7, and three are sold at 0.6; after the first purchase the
market may be marked as deleted, and stays so. -/
def samplePositionFills (deletedAt : Bool) : List PositionFill :=
  [⟨false, samplePositionOrder 0 0, 10, 400000, by decide, by decide⟩,
    ⟨deletedAt, samplePositionOrder 0 0, 5, 700000, by decide, by decide⟩,
    ⟨deletedAt, samplePositionOrder 0 1, 3, 600000, by decide, by decide⟩]

theorem cost_basis_sample :
    (positionOf (positionSystem.run .empty
      (samplePositionFills false)) "05".toList).realizedPnlUsd -
      ((positionOf (positionSystem.run .empty
        (samplePositionFills false)) "05".toList).yes.costAccumUsd +
        (positionOf (positionSystem.run .empty
          (samplePositionFills false)) "05".toList).no.costAccumUsd) =
      totalProceeds "05".toList (samplePositionFills false) -
        totalPurchases "05".toList (samplePositionFills false) :=
  (cost_basis (by decide +kernel) "05".toList).2.1

/-- When the market is marked as deleted before the second purchase, the ten shares are not read, and
the purchase is booked as the sale of five. -/
theorem deleted_market_breaks_cost_basis :
    positionSystem.Runs (fun _ _ => True) .empty (samplePositionFills true) ∧
      (positionOf (positionSystem.run .empty
        (samplePositionFills true)) "05".toList).realizedPnlUsd -
        ((positionOf (positionSystem.run .empty
          (samplePositionFills true)) "05".toList).yes.costAccumUsd +
          (positionOf (positionSystem.run .empty
            (samplePositionFills true)) "05".toList).no.costAccumUsd) ≠
        totalProceeds "05".toList (samplePositionFills true) -
          totalPurchases "05".toList (samplePositionFills true) := by
  decide +kernel

end PrismBackend.Api
