import PrismBackend.Lib.Rounding
import PrismBackend.Rewards.Campaign

/-!
# Rewards: limit order mining

The job that scores the open orders of each account and shares the budget of a
run out among the accounts. The scores are taken in any arithmetic; the shares
of the budget are exact, as for the campaign.
-/

namespace PrismBackend.Rewards

open PrismBackend.Lib PrismBackend.Clob PrismBackend.PrismV2

/-! ## The budget -/

def lomRewardsVestingSchedule : List Nat := [8600000, 7200000, 5400000, 4375000, 3200000, 1225000]

def lomAnniversaries : List Nat :=
  [1806537600, 1838160000, 1869696000, 1901232000, 1932768000, 1964390400].map (· * second)

def lomEnd : Nat := lomAnniversaries.getLastD launchDate

def lomRewardsForYearAtTime (at_ : Nat) : ℚ :=
  if at_ < launchDate then 0
  else
    let yearIndex := (lomAnniversaries.filter (· ≤ at_)).length
    lomRewardsVestingSchedule[yearIndex]?.getD 0

def lomRewardsPerDayAtTime (at_ : Nat) : ℚ := lomRewardsForYearAtTime at_ / 365

/-! ## Scores -/

def distance2durationRatio : ℚ := 2
def dollarValue2lomScoreRatio : ℚ := 5 / 4
def executionMultiplier : ℚ := 2

structure Tier (α : Type) where
  threshold : α
  weight : ℚ

def priceDistanceTiers : List (Tier ℚ) :=
  [⟨1 / 5, 5⟩, ⟨1 / 10, 10⟩, ⟨1 / 20, 30⟩, ⟨1 / 50, 60⟩, ⟨1 / 100, 90⟩]

def orderDurationIgnoreFurtherThan : ℚ := 1 / 5

/-- Durations in microseconds. -/
def orderDurationTiers : List (Tier Int) :=
  [⟨24 * hour, 15⟩, ⟨hour, 10⟩, ⟨30 * 60 * second, 2⟩, ⟨10 * 60 * second, 1⟩]

def tierPoints {α : Type} (tiers : List (Tier α)) (isReached : α → Bool) : ℚ :=
  tiers.foldl (fun points tier =>
    if isReached tier.threshold && decide (points < tier.weight) then tier.weight else points) 0

/-- The columns of `prediction_intents` that the job reads. -/
structure LomOrder where
  marketID : Uint128
  accountID : Str
  isSecondary : Bool
  priceUsd : ℚ
  qtyOrig : ℚ
  qtyRem : ℚ
  createdAt : Nat
  cancelledAt : Bool
  fullyMatchedAt : Bool
  evictedAt : Bool

structure UserLOMSummary where
  sizePoints : ℚ
  lomScore : ℚ

namespace LomOrder

variable (order : LomOrder)

def isLive : Bool := !order.cancelledAt && !order.fullyMatchedAt && !order.evictedAt

def isOpen : Bool := order.isLive && decide (0 < order.qtyRem)

variable (r : Rounding) (currentMarketPrice : ℚ)

def distance : Option ℚ :=
  (quotient (r.round (order.priceUsd - currentMarketPrice)) currentMarketPrice).map (|r.round ·|)

def distancePoints : ℚ :=
  tierPoints priceDistanceTiers fun threshold =>
    (order.distance r currentMarketPrice).any fun distance => decide (distance ≤ r.round threshold)

/-- A distance over zero is infinite, but no number for an order that costs nothing. -/
def isFar : Bool :=
  match order.distance r currentMarketPrice with
  | some distance => decide (r.round orderDurationIgnoreFurtherThan < distance)
  | none => decide (order.priceUsd ≠ 0)

def calculateOrderSizePoints (r : Rounding) (orderSizeUsd qtyOrig qtyRem : ℚ) : ℚ :=
  if qtyOrig ≤ 0 then orderSizeUsd
  else
    let ratioMatched := min (max (r.round (1 - r.round (qtyRem / qtyOrig))) 0) 1
    let executionBonus :=
      r.round (r.round (orderSizeUsd * r.round (executionMultiplier - 1)) * ratioMatched)
    r.round (orderSizeUsd + executionBonus)

def sizePoints : ℚ :=
  calculateOrderSizePoints r |r.round (order.priceUsd * order.qtyRem)| order.qtyOrig order.qtyRem

def durationPoints (now : Nat) : ℚ :=
  if order.isFar r currentMarketPrice then 0
  else
    tierPoints orderDurationTiers fun duration => decide (duration ≤ (now : Int) - order.createdAt)

end LomOrder

/-- The score of the open orders of an account in one market; secondary orders do not count. -/
def summarize (r : Rounding) (orders : List LomOrder) (currentMarketPrice : ℚ) (now : Nat) :
    UserLOMSummary :=
  let counted := orders.filter fun order => !order.isSecondary
  let distancePoints := r.sum (counted.map (·.distancePoints r currentMarketPrice))
  let sizePoints := r.sum (counted.map (·.sizePoints r))
  let durationPoints := r.sum (counted.map (·.durationPoints r currentMarketPrice now))
  { sizePoints
    lomScore :=
      r.round (r.round (r.round (distance2durationRatio * distancePoints) + durationPoints) +
        r.round (dollarValue2lomScoreRatio * sizePoints)) }

/-! ## The calculation -/

/-- The columns of `markets` that the job reads. -/
structure LomMarket where
  marketID : Uint128
  net : Str
  isLomEnabled : Bool

/-- What a run of the job starts from: its clock, the environment and the tables. The price, a
decimal, and the accounts of a market, and the orders of an account in it, may fail to be read. -/
structure LomRun where
  cronRanAt : Nat
  now : Nat
  schedule : Schedule
  tokenDecimals : Int
  unresolvedMarkets : List LomMarket
  orders : List LomOrder
  getLatestPriceByMarket : Uint128 → Option ℚ
  isReadable : Uint128 → Str → Bool

namespace LomRun

variable (run : LomRun)

def prismToBeAllocatedThisRun : ℚ := lomRewardsPerDayAtTime run.now / cronJobsPerDay run.schedule

/-- `GetAllAccountIdsForMarketId`. -/
def getAllAccountIdsForMarketId (marketID : Uint128) : List Str :=
  ((run.orders.filter fun order => order.marketID == marketID && order.isLive).map
    (·.accountID)).dedup

def openOrdersOf (marketID : Uint128) (accountID : Str) : List LomOrder :=
  run.orders.filter fun order =>
    order.marketID == marketID && order.accountID == accountID && order.isOpen

structure Entry where
  accountID : Str
  market : LomMarket
  summary : UserLOMSummary

def marketEntries (r : Rounding) (market : LomMarket) : List Entry :=
  if market.isLomEnabled = false then []
  else
    match run.getLatestPriceByMarket market.marketID with
    | none => []
    | some currentMarketPriceStr =>
      ((run.getAllAccountIdsForMarketId market.marketID).filter
        (run.isReadable market.marketID)).map fun accountID =>
          ⟨accountID, market, summarize r (run.openOrdersOf market.marketID accountID)
            (r.round currentMarketPriceStr) run.now⟩

/-- `lom_scores`. -/
def lomScores (r : Rounding) : List Entry := run.unresolvedMarkets.flatMap (run.marketEntries r)

def scoresOf (accountID : Str) : List Entry :=
  (run.lomScores .exact).filter fun entry => entry.accountID == accountID

def accounts : List Str := ((run.lomScores .exact).map (·.accountID)).dedup

def compoundedLOM (accountID : Str) : ℚ :=
  dollarValue2lomScoreRatio * ((run.scoresOf accountID).map (·.summary.sizePoints)).sum +
    ((run.scoresOf accountID).map (·.summary.lomScore)).sum

def totalLOMScoreCompounded : ℚ := (run.accounts.map run.compoundedLOM).sum

/-- The network of an account's markets, when they have one. -/
def netOf (accountID : Str) : Option Str :=
  match (run.scoresOf accountID).map (·.market.net) with
  | [] => none
  | net :: nets => if nets.all (· == net) then some net else none

def prismToSendUser (accountID : Str) : ℚ :=
  if 0 < run.totalLOMScoreCompounded then
    run.prismToBeAllocatedThisRun * (run.compoundedLOM accountID / run.totalLOMScoreCompounded)
  else 0

def sanityCheckPrismAllocation (accountID : Str) : Bool :=
  decide (0 ≤ run.prismToSendUser accountID) &&
    decide (run.prismToSendUser accountID ≤ run.prismToBeAllocatedThisRun)

def reward (accountID : Str) : Option CreatePrismRewardParams :=
  match run.netOf accountID with
  | none => none
  | some net =>
    if run.sanityCheckPrismAllocation accountID then
      some {
        net
        destAccountID := accountID
        nPrismScaled := int64 (some (run.prismToSendUser accountID * 10 ^ run.tokenDecimals))
        ratioOfAllocation := quotient (run.compoundedLOM accountID) run.totalLOMScoreCompounded
        cronRanAt := run.cronRanAt
        campaignID := 1 }
    else none

/-- `CalcLOM`: the rewards that it asks the table to take; their order is left open. -/
def calcLOM : Except String (List CreatePrismRewardParams) := do
  revertIf (lomEnd < run.now) "LOM initiative has finished. Date is too far in the future."
  revertIf (run.now < launchDate)
    "LOM initiative has not started yet. Date is too far in the past."
  .ok (run.accounts.filterMap run.reward)

/-! ## Accounts -/

variable {run} {accountID : Str}

theorem reward_destAccountID {params : CreatePrismRewardParams}
    (h : run.reward accountID = some params) : params.destAccountID = accountID := by
  unfold reward at h
  split at h
  · exact absurd h (by simp)
  split at h
  · cases h
    rfl
  · exact absurd h (by simp)

theorem exists_order_of_mem_accounts (h : accountID ∈ run.accounts) :
    ∃ order ∈ run.orders, order.accountID = accountID := by
  obtain ⟨entry, hentry, rfl⟩ := List.mem_map.mp (List.mem_dedup.mp h)
  obtain ⟨market, _, hmem⟩ := List.mem_flatMap.mp hentry
  unfold marketEntries at hmem
  split at hmem
  · exact absurd hmem List.not_mem_nil
  split at hmem
  · exact absurd hmem List.not_mem_nil
  obtain ⟨accountID, haccount, rfl⟩ := List.mem_map.mp hmem
  obtain ⟨order, horder, haccountID⟩ :=
    List.mem_map.mp (List.mem_dedup.mp (List.mem_filter.mp haccount).1)
  exact ⟨order, (List.mem_filter.mp horder).1, haccountID⟩

theorem exists_order_of_mem_calcLOM {rewards : List CreatePrismRewardParams}
    (h : run.calcLOM = .ok rewards) {params : CreatePrismRewardParams}
    (hparams : params ∈ rewards) :
    ∃ order ∈ run.orders, order.accountID = params.destAccountID := by
  simp only [calcLOM, bind_ok_iff, Except.ok.injEq] at h
  obtain ⟨_, _, _, _, rfl⟩ := h
  obtain ⟨accountID, haccount, hreward⟩ := List.mem_filterMap.mp hparams
  rw [reward_destAccountID hreward]
  exact exists_order_of_mem_accounts haccount

end LomRun

end PrismBackend.Rewards
