import Mathlib.Algebra.BigOperators.Group.List.Basic
import Mathlib.Data.Int.CardIntervalMod
import Mathlib.Data.Nat.Count
import Mathlib.Data.Rat.Floor
import Mathlib.Tactic.Ring
import PrismBackend.Api.Gates

/-!
# Rewards: the campaign

The table `prism_rewards` with its checks, and the job of the rewards campaign,
which shares the budget of a run out among the holders of position tokens in
the markets that were resolved since the run before. Floats are exact rationals,
and a quotient by zero is not a number. Instants are in microseconds.
-/

namespace PrismBackend.Rewards

open PrismBackend.Lib PrismBackend.Clob PrismBackend.PrismV2
open PrismBackend.Api (add64)

/-! ## Reward rows -/

def isDigits (s : Str) : Bool := s != [] && s.all Char.isDigit

/-- `IsValidHederaAccountID`, which is also the check of the column `dest_account_id`. -/
def isValidHederaAccountID (s : Str) : Bool :=
  match s.splitOn '.' with
  | [shard, realm, num] => isDigits shard && isDigits realm && isDigits num
  | _ => false

/-- The arguments of `CreatePrismReward`. -/
structure CreatePrismRewardParams where
  net : Str
  destAccountID : Str
  nPrismScaled : Int
  ratioOfAllocation : Option ℚ
  cronRanAt : Nat
  campaignID : Nat

/-- The checks of the columns. -/
def CreatePrismRewardParams.permitted (params : CreatePrismRewardParams) : Bool :=
  [ "mainnet", "testnet" ].any (·.toList == params.net) &&
    isValidHederaAccountID params.destAccountID &&
    decide (params.destAccountID.length ≤ 255) &&
    decide (0 ≤ params.nPrismScaled) &&
    params.ratioOfAllocation.any fun ratio => decide (0 ≤ ratio) && decide (ratio ≤ 1)

/-- A row of `prism_rewards`. -/
structure PrismReward extends CreatePrismRewardParams where
  id : Nat
  redeemedAt : Bool
  redeemedBy : Option Str
  hederaTxHash : Option Str
  isRedeemable : Bool
  permitted : toCreatePrismRewardParams.permitted = true

/-! ## The schedule -/

def second : Nat := 1000000
def hour : Nat := 3600 * second

abbrev Schedule := Nat → Bool

/-- The start of the year that `CronJobsPerDay` counts. -/
def countedFrom : Nat := 1735689600

/-- The firing times that the loop of `CronJobsPerDay` visits: those of 366 days, without their
last second. -/
def cronJobs (schedule : Schedule) : Nat :=
  Nat.count (fun i => schedule (countedFrom + i) = true) (366 * 86400 - 1)

def cronJobsPerDay (schedule : Schedule) : ℚ := cronJobs schedule / 366

/-- `time.Duration(24/cronJobsPerDay) * time.Hour`: whole hours. -/
def lookBack (schedule : Schedule) : Nat := ⌊24 / cronJobsPerDay schedule⌋₊ * hour

/-- Every day, twenty minutes past midnight. -/
def daily : Schedule := fun seconds => seconds % 86400 == 1200

theorem cronJobs_daily : cronJobs daily = 366 := by
  have hfires (i : Nat) : daily (countedFrom + i) = true ↔ i ≡ 1200 [MOD 86400] := by
    unfold daily countedFrom Nat.ModEq
    rw [beq_iff_eq]
    omega
  unfold cronJobs
  simp only [hfires]
  rw [Nat.count_modEq_card _ (by norm_num)]
  norm_num

theorem lookBack_daily : lookBack daily = 24 * hour := by
  have hfloor : ⌊24 / cronJobsPerDay daily⌋₊ = 24 := by
    have hday : 24 / cronJobsPerDay daily = (24 : Nat) := by
      rw [cronJobsPerDay, cronJobs_daily]
      norm_num
    rw [hday, Nat.floor_natCast]
  rw [lookBack, hfloor]

/-! ## The budget -/

def rewardsCampaignVestingSchedule : List Nat := [1000000]

def launchDate : Nat := 1775001600 * second

/-- The anniversaries of the launch, as many as the vesting schedule has years. -/
def anniversaries : List Nat := [1806537600 * second]

def campaignEnd : Nat := anniversaries.getLastD launchDate

def rewardsCampaignForYearAtTime (at_ : Nat) : ℚ :=
  if at_ < launchDate then 0
  else
    let yearIndex := (anniversaries.filter (· ≤ at_)).length
    rewardsCampaignVestingSchedule[yearIndex]?.getD 0

def rewardsCampaignPerDayAtTime (at_ : Nat) : ℚ :=
  rewardsCampaignForYearAtTime at_ / (rewardsCampaignVestingSchedule.length * 365)

/-! ## The calculation -/

/-- The columns of `markets` that the job reads. -/
structure Market where
  marketID : Uint128
  net : Str
  resolvedAt : Option Nat
  deletedAt : Bool
  isSuspended : Bool
  isPaused : Bool
  deriving DecidableEq

abbrev Markets := Table Market Uint128 fun market => market.marketID

def Market.isShown (market : Market) : Bool :=
  !market.deletedAt && !market.isSuspended && !market.isPaused

/-- `GetResolvedMarketsAfter`; the order of the rows is left open. -/
def getResolvedMarketsAfter (markets : Markets) (after : Nat) : List Market :=
  markets.rows.filter fun market =>
    market.resolvedAt.any (fun resolvedAt => decide (after < resolvedAt)) && market.isShown

/-- A row of `positions`, with the checks of its columns. -/
structure Position where
  evmAddress : Str
  nYes : Nat
  nNo : Nat
  nYes_lt : nYes < 2 ^ 63
  nNo_lt : nNo < 2 ^ 63

/-- The positions in one market, one row for each address. -/
abbrev Positions := Table Position Str fun position => position.evmAddress

def quotient (x y : ℚ) : Option ℚ := if y = 0 then none else some (x / y)

/-- The conversion of a float to a signed 64-bit number: what does not fit becomes the least
one. -/
def int64 : Option ℚ → Int
  | none => -2 ^ 63
  | some x =>
    let truncated := if 0 ≤ x then ⌊x⌋ else ⌈x⌉
    if -2 ^ 63 ≤ truncated ∧ truncated < 2 ^ 63 then truncated else -2 ^ 63

def Position.tokens (position : Position) : Nat := add64 position.nYes position.nNo

/-- The totals of a market, as the loop sums them up. -/
def totalTokens (positions : List Position) : Nat :=
  add64 (positions.foldl (fun total position => add64 total position.nYes) 0)
    (positions.foldl (fun total position => add64 total position.nNo) 0)

/-- What a run of the job starts from: its clock, the environment and the tables. The positions of
a market may fail to be read. -/
structure CampaignRun where
  cronRanAt : Nat
  now : Nat
  schedule : Schedule
  tokenDecimals : Int
  markets : Markets
  getPositionsByMarketId : Uint128 → Option Positions

namespace CampaignRun

variable (run : CampaignRun)

def nPRISMthisEpoch : ℚ := rewardsCampaignPerDayAtTime run.now / cronJobsPerDay run.schedule

def reward (market : Market) (total : Nat) (position : Position) : Option CreatePrismRewardParams :=
  if position.tokens = 0 then none
  else
    let userProportion := quotient position.tokens total
    let prismToSendUser := userProportion.map (run.nPRISMthisEpoch * ·)
    some {
      net := market.net
      destAccountID := position.evmAddress
      nPrismScaled := int64 (prismToSendUser.map (· * 10 ^ run.tokenDecimals))
      ratioOfAllocation := prismToSendUser.bind (quotient · run.nPRISMthisEpoch)
      cronRanAt := run.cronRanAt
      campaignID := 2 }

def rewardsOf (market : Market) : List CreatePrismRewardParams :=
  match run.getPositionsByMarketId market.marketID with
  | none => []
  | some positions =>
    positions.rows.filterMap (run.reward market (totalTokens positions.rows))

def resolvedMarketsInEpoch : List Market :=
  getResolvedMarketsAfter run.markets (run.cronRanAt - lookBack run.schedule)

/-- `Calc`: the rewards that it asks the table to take, in order. -/
def calc_ : Except String (List CreatePrismRewardParams) := do
  revertIf (campaignEnd < run.now) "Rewards campaign has finished. Date is too far in the future."
  revertIf (run.now < launchDate)
    "Rewards campaign has not started yet. Date is too far in the past."
  .ok (run.resolvedMarketsInEpoch.flatMap run.rewardsOf)

end CampaignRun

end PrismBackend.Rewards
