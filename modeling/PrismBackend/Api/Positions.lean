import Mathlib.Algebra.Order.Ring.Rat
import Mathlib.Data.Int.DivMod
import PrismBackend.Lib.CostBasis
import PrismBackend.Api.Database

/-!
# API: positions

The rows of `positions` for one market, the upsert that keeps their cost basis,
and the delta that a settled fill applies to them. Floats are exact rationals.
-/

namespace PrismBackend.Api

open PrismBackend.Lib PrismBackend.Clob PrismBackend.PrismV2

/-! ## Rows -/

/-- A `BIGINT` column under a check that it is not negative. -/
abbrev Quantity := Fin (2 ^ 63)

instance neZeroQuantity : NeZero (2 ^ 63) := inferInstance

/-- The columns of one outcome. -/
structure Holding where
  n : Quantity
  costBasisPriceUsd : ℚ
  costAccumUsd : ℚ
  deriving DecidableEq

structure PositionRow where
  evmAddress : Str
  yes : Holding
  no : Holding
  realizedPnlUsd : ℚ
  deriving DecidableEq

/-- The checks of the cost columns. -/
def Holding.permitted (holding : Holding) : Prop :=
  0 ≤ holding.costBasisPriceUsd ∧ holding.costBasisPriceUsd ≤ 1 ∧ 0 ≤ holding.costAccumUsd

instance (holding : Holding) : Decidable holding.permitted := inferInstanceAs (Decidable (_ ∧ _))

/-- The positions in one market, one row for each address as it is spelt. -/
abbrev PositionTable := Table PositionRow Str fun row => row.evmAddress

/-! ## UpsertPositions -/

namespace Holding

def inserted (n : Quantity) (priceUsd : ℚ) : Holding where
  n := n
  costBasisPriceUsd := if 0 < n.val then |priceUsd| else 0
  costAccumUsd := if 0 < n.val then n.val * |priceUsd| else 0

variable (old : Holding) (n : Quantity) (priceUsd : ℚ)

/-- What leaves the accumulator when the balance falls to `n`. -/
def soldCost : ℚ := old.costAccumUsd / old.n.val * ((old.n.val : ℚ) - n.val)

def costAccumAfter : ℚ :=
  if n.val > old.n.val then old.costAccumUsd + ((n.val : ℚ) - old.n.val) * |priceUsd|
  else if n.val < old.n.val ∧ old.n.val > 0 then max (old.costAccumUsd - old.soldCost n) 0
  else old.costAccumUsd

/-- Profit is realized only when shares are removed. -/
def realizedBy : ℚ :=
  if n.val < old.n.val ∧ old.n.val > 0 then
    ((old.n.val : ℚ) - n.val) * |priceUsd| - old.soldCost n
  else 0

def updated : Holding where
  n := n
  costBasisPriceUsd := if n.val > 0 then old.costAccumAfter n priceUsd / n.val else 0
  costAccumUsd := old.costAccumAfter n priceUsd

end Holding

/-- The row that `UpsertPositions` writes: inserted, or updated on a conflict of keys. -/
def upsertedRow (old : Option PositionRow) (evmAddress : Str) (nYes nNo : Quantity)
    (priceUsd : ℚ) : PositionRow :=
  match old with
  | none => ⟨evmAddress, .inserted nYes priceUsd, .inserted nNo priceUsd, 0⟩
  | some row =>
    { row with
      yes := row.yes.updated nYes priceUsd
      no := row.no.updated nNo priceUsd
      realizedPnlUsd := row.realizedPnlUsd + row.yes.realizedBy nYes priceUsd +
        row.no.realizedBy nNo priceUsd }

def checkCosts : String := "new row for relation \"positions\" violates check constraint"

def upsertPositions (positions : PositionTable) (evmAddress : Str) (nYes nNo : Quantity)
    (priceUsd : ℚ) : Except String PositionTable := do
  let old := positions.find evmAddress
  let row := upsertedRow old evmAddress nYes nNo priceUsd
  revertIf (¬row.yes.permitted ∨ ¬row.no.permitted) checkCosts
  .ok (if old.isSome then positions.put row else positions.insert row)

/-! ## The delta of a fill -/

/-- `GetUserPositionsByMarketId`: a market that was deleted softly shows no positions. -/
def getUserPositionsByMarketId (deletedAt : Bool) (positions : PositionTable) (evmAddress : Str) :
    List PositionRow :=
  if deletedAt then [] else positions.rows.filter fun row => row.evmAddress = evmAddress

def addInt64 (x y : Int) : Int := Int.bmod (x + y) (2 ^ 64)

/-- `max(x, 0)` of a signed word. -/
def clampZero (x : Int) : Quantity := Fin.ofNat (2 ^ 63) (max x 0).toNat

/-- `applyPositionDelta`: moves one signer's YES or NO balance by a fill, at the price of the
token traded. A failing upsert is logged and leaves the table. -/
def applyPositionDelta (deletedAt : Bool) (positions : PositionTable) (row : PredictionIntent)
    (fill executionYesPrice : Nat) : PositionTable :=
  let held := (getUserPositionsByMarketId deletedAt positions row.evmaddress).head?
  let nYes : Int := (held.map fun position => (position.yes.n.val : Int)).getD 0
  let nNo : Int := (held.map fun position => (position.no.n.val : Int)).getD 0
  let delta : Int := if row.action.getD 0 = actionSell then -(fill : Int) else fill
  let tokenPrice : ℚ := (executionYesPrice : ℚ) / PrismV2.priceScale
  let isYes := row.side.getD 0 = Clob.sideYes
  let nYes' := if isYes then addInt64 nYes delta else nYes
  let nNo' := if isYes then nNo else addInt64 nNo delta
  let tokenPrice' := if isYes then tokenPrice else 1 - tokenPrice
  match upsertPositions positions row.evmaddress (clampZero nYes') (clampZero nNo') tokenPrice' with
  | .ok positions => positions
  | .error _ => positions

/-! The delta in its two statements, between which others may write. -/

/-- The balances that a fill leads to from the rows that were read, before they are clamped. -/
def movedBalances (held : List PositionRow) (row : PredictionIntent) (fill : Nat) : Int × Int :=
  let nYes : Int := (held.head?.map fun position => (position.yes.n.val : Int)).getD 0
  let nNo : Int := (held.head?.map fun position => (position.no.n.val : Int)).getD 0
  let delta : Int := if row.action.getD 0 = actionSell then -(fill : Int) else fill
  let isYes := row.side.getD 0 = Clob.sideYes
  (if isYes then addInt64 nYes delta else nYes, if isYes then nNo else addInt64 nNo delta)

def deltaPrice (row : PredictionIntent) (executionYesPrice : Nat) : ℚ :=
  let tokenPrice : ℚ := (executionYesPrice : ℚ) / PrismV2.priceScale
  if row.side.getD 0 = Clob.sideYes then tokenPrice else 1 - tokenPrice

def writeBalances (positions : PositionTable) (row : PredictionIntent) (executionYesPrice : Nat)
    (moved : Int × Int) : Except String PositionTable :=
  upsertPositions positions row.evmaddress (clampZero moved.1) (clampZero moved.2)
    (deltaPrice row executionYesPrice)

theorem applyPositionDelta_eq (deletedAt : Bool) (positions : PositionTable)
    (row : PredictionIntent) (fill executionYesPrice : Nat) :
    applyPositionDelta deletedAt positions row fill executionYesPrice =
      match writeBalances positions row executionYesPrice
        (movedBalances (getUserPositionsByMarketId deletedAt positions row.evmaddress)
          row fill) with
      | .ok positions => positions
      | .error _ => positions := rfl

end PrismBackend.Api
