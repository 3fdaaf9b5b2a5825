import PrismBackend.Lib.Sharing
import PrismBackend.Rewards.Campaign

/-!
# Rewards: the budget of a run

Each market of the window gives the whole budget away, in proportion to the
tokens held in that market. A run stays within its budget where the holders that
are paid make up no more than one market, and exceeds it as soon as they make up
a unit of the budget more for each of them.
-/

namespace PrismBackend.Rewards

open PrismBackend.Lib PrismBackend.Clob PrismBackend.PrismV2
open PrismBackend.Api (add64 add64_eq foldl_add64)

/-! ## Rounding down -/

def totalPrism (rewards : List CreatePrismRewardParams) : Int :=
  (rewards.map (·.nPrismScaled)).sum

theorem int64_of_fits {x : ℚ} (hnonneg : 0 ≤ x) (hfits : x < 2 ^ 63) : int64 (some x) = ⌊x⌋ := by
  have hfloor : 0 ≤ ⌊x⌋ := Int.floor_nonneg.mpr hnonneg
  have hlt : ⌊x⌋ < 2 ^ 63 := by
    apply Int.floor_lt.mpr
    exact_mod_cast hfits
  simp only [int64, if_pos hnonneg]
  rw [if_pos ⟨by omega, hlt⟩]

theorem int64_of_large {x : ℚ} (hlarge : 2 ^ 63 ≤ x) : int64 (some x) = -2 ^ 63 := by
  have hnonneg : 0 ≤ x := le_trans (by norm_num) hlarge
  have hfloor : 2 ^ 63 ≤ ⌊x⌋ := by
    apply Int.le_floor.mpr
    exact_mod_cast hlarge
  simp only [int64, if_pos hnonneg]
  rw [if_neg]
  intro h
  omega

/-! ## Totals -/

theorem Position.tokens_eq (position : Position) :
    position.tokens = position.nYes + position.nNo := by
  have hyes := position.nYes_lt
  have hno := position.nNo_lt
  exact add64_eq (by omega)

/-- The total of a market is the sum of what its holders have, in 64 bits. -/
theorem totalTokens_eq (positions : List Position) :
    totalTokens positions = (positions.map Position.tokens).sum % 2 ^ 64 := by
  have hsum : (positions.map Position.tokens).sum =
      (positions.map (·.nYes)).sum + (positions.map (·.nNo)).sum := by
    rw [← List.sum_map_add]
    exact congrArg List.sum (List.map_congr_left fun position _ => position.tokens_eq)
  rw [totalTokens, foldl_add64, foldl_add64, add64, ← Nat.add_mod, hsum]

/-! ## What the table takes -/

namespace CampaignRun

variable (run : CampaignRun)

def budget : ℚ := run.nPRISMthisEpoch * 10 ^ run.tokenDecimals

def share (total : Nat) (position : Position) : ℚ := run.budget * (position.tokens / total)

/-- The table takes a reward for the position: its network and the text of its address pass the
checks, there are tokens, no more than the total, and their part of the budget is a signed 64-bit
number. -/
def payable (market : Market) (total : Nat) (position : Position) : Bool :=
  [ "mainnet", "testnet" ].any (·.toList == market.net) &&
    isValidHederaAccountID position.evmAddress && decide (position.evmAddress.length ≤ 255) &&
    decide (0 < position.tokens) && decide (position.tokens ≤ total) &&
    decide (0 < run.nPRISMthisEpoch) && decide (run.budget * position.tokens < 2 ^ 63 * total)

def payablePositions (market : Market) : List (Nat × Position) :=
  match run.getPositionsByMarketId market.marketID with
  | none => []
  | some positions =>
    let total := totalTokens positions.rows
    (positions.rows.filter (run.payable market total)).map fun position => (total, position)

/-- What the holders whose rewards the table takes have, as a part of what the market has. -/
def payableFraction (market : Market) : ℚ :=
  ((run.payablePositions market).map fun held => (held.2.tokens / held.1 : ℚ)).sum

def payableFractions : ℚ := (run.resolvedMarketsInEpoch.map run.payableFraction).sum

def payableCount : Nat :=
  (run.resolvedMarketsInEpoch.map fun market => (run.payablePositions market).length).sum

def shares : List ℚ :=
  run.resolvedMarketsInEpoch.flatMap fun market =>
    (run.payablePositions market).map fun held => run.share held.1 held.2

def permittedRewards : List CreatePrismRewardParams :=
  (run.calc_.toOption.getD []).filter (·.permitted)

variable {run}

theorem nPRISMthisEpoch_nonneg : 0 ≤ run.nPRISMthisEpoch := by
  have hyear : 0 ≤ rewardsCampaignForYearAtTime run.now := by
    unfold rewardsCampaignForYearAtTime
    split
    · exact le_rfl
    · exact Nat.cast_nonneg _
  unfold nPRISMthisEpoch rewardsCampaignPerDayAtTime cronJobsPerDay
  positivity

theorem budget_nonneg : 0 ≤ run.budget :=
  mul_nonneg nPRISMthisEpoch_nonneg (zpow_nonneg (by norm_num) _)

theorem share_lt_iff {total : Nat} {position : Position} (htotal : 0 < total) :
    run.share total position < 2 ^ 63 ↔ run.budget * position.tokens < 2 ^ 63 * total := by
  rw [share, ← mul_div_assoc, div_lt_iff₀ (by exact_mod_cast htotal)]

theorem share_nonneg (total : Nat) (position : Position) : 0 ≤ run.share total position :=
  mul_nonneg budget_nonneg (by positivity)

/-- What is due to a position, once its proportion and the budget are numbers. -/
theorem reward_eq {market : Market} {total : Nat} {position : Position}
    (hheld : 0 < position.tokens) (htotal : 0 < total) (hepoch : 0 < run.nPRISMthisEpoch) :
    run.reward market total position = some {
      net := market.net
      destAccountID := position.evmAddress
      nPrismScaled := int64 (some (run.share total position))
      ratioOfAllocation := some (position.tokens / total)
      cronRanAt := run.cronRanAt
      campaignID := 2 } := by
  have hne : (total : ℚ) ≠ 0 := by exact_mod_cast htotal.ne'
  have hshare : run.nPRISMthisEpoch * ((position.tokens : ℚ) / total) * 10 ^ run.tokenDecimals =
      run.share total position := by
    unfold share budget
    ring
  have hratio : run.nPRISMthisEpoch * ((position.tokens : ℚ) / total) / run.nPRISMthisEpoch =
      position.tokens / total := by
    field_simp
  simp only [reward, if_neg hheld.ne', quotient, if_neg hne, Option.map_some, Option.bind_some,
    if_neg hepoch.ne', hshare, hratio]

/-- The table takes the rewards of the payable positions and no others. -/
theorem permitted_iff_payable {market : Market} {total : Nat} {position : Position} :
    (run.reward market total position).any (·.permitted) = run.payable market total position := by
  rw [Bool.eq_iff_iff]
  by_cases hheld : position.tokens = 0
  · simp [reward, payable, hheld]
  by_cases htotal : total = 0
  · simp [reward, payable, hheld, htotal, quotient, CreatePrismRewardParams.permitted]
  by_cases hepoch : run.nPRISMthisEpoch = 0
  · have hne : (total : ℚ) ≠ 0 := by exact_mod_cast htotal
    simp [reward, payable, hheld, hne, hepoch, quotient, CreatePrismRewardParams.permitted]
  have hpos := lt_of_le_of_ne nPRISMthisEpoch_nonneg (Ne.symm hepoch)
  have hratio : (0 : ℚ) ≤ position.tokens / total := by positivity
  have hpart : (position.tokens : ℚ) / total ≤ 1 ↔ position.tokens ≤ total := by
    rw [div_le_one (by exact_mod_cast Nat.pos_of_ne_zero htotal)]
    exact Nat.cast_le
  have hamount : 0 ≤ int64 (some (run.share total position)) ↔
      run.budget * position.tokens < 2 ^ 63 * total := by
    rw [← share_lt_iff (Nat.pos_of_ne_zero htotal)]
    rcases lt_or_ge (run.share total position) (2 ^ 63) with hfits | hlarge
    · rw [int64_of_fits (share_nonneg _ _) hfits]
      exact iff_of_true (Int.floor_nonneg.mpr (share_nonneg _ _)) hfits
    · rw [int64_of_large hlarge]
      exact iff_of_false (by norm_num) (not_lt.mpr hlarge)
  rw [reward_eq (Nat.pos_of_ne_zero hheld) (Nat.pos_of_ne_zero htotal) hpos]
  simp only [Option.any_some, CreatePrismRewardParams.permitted, payable, Bool.and_eq_true,
    decide_eq_true_eq, hratio, hpart, hamount, hpos, Nat.pos_of_ne_zero hheld, true_and, and_true]
  tauto

/-! ## The sum -/

variable (run) in
def Open : Prop := launchDate ≤ run.now ∧ run.now ≤ campaignEnd

theorem calc_eq (h : run.Open) :
    run.calc_ = .ok (run.resolvedMarketsInEpoch.flatMap run.rewardsOf) := by
  have hended : revertIf (campaignEnd < run.now)
      "Rewards campaign has finished. Date is too far in the future." = .ok () :=
    revertIf_ok_iff.mpr (Nat.not_lt.mpr h.2)
  have hstarted : revertIf (run.now < launchDate)
      "Rewards campaign has not started yet. Date is too far in the past." = .ok () :=
    revertIf_ok_iff.mpr (Nat.not_lt.mpr h.1)
  rw [calc_, hended, ok_bind, hstarted, ok_bind]

theorem calc_of_not_open (h : ¬run.Open) : run.permittedRewards = [] := by
  have herror : run.calc_.toOption = none := by
    cases hcalc : run.calc_ with
    | error err => rfl
    | ok rewards =>
        simp only [calc_, bind_ok_iff, revertIf_ok_iff, exists_const, Nat.not_lt] at hcalc
        exact absurd ⟨hcalc.2.1, hcalc.1⟩ h
  rw [permittedRewards, herror]
  rfl

/-- In one market, the table takes the shares of the payable positions, rounded down. -/
theorem rewardsOf_amounts (market : Market) :
    ((run.rewardsOf market).filter (·.permitted)).map (·.nPrismScaled) =
      (run.payablePositions market).map fun held => ⌊run.share held.1 held.2⌋ := by
  unfold rewardsOf payablePositions
  cases run.getPositionsByMarketId market.marketID with
  | none => rfl
  | some positions =>
      dsimp only
      generalize totalTokens positions.rows = total
      induction positions.rows with
      | nil => rfl
      | cons position rest ih =>
          have hpermitted : (run.reward market total position).any (·.permitted) =
              run.payable market total position := permitted_iff_payable
          cases hreward : run.reward market total position with
          | none =>
              rw [hreward, Option.any_none] at hpermitted
              rw [List.filterMap_cons_none hreward, ih,
                List.filter_cons_of_neg (by simp [← hpermitted])]
          | some reward =>
              rw [hreward, Option.any_some] at hpermitted
              rw [List.filterMap_cons_some hreward]
              by_cases hpayable : run.payable market total position = true
              · rw [List.filter_cons_of_pos (hpermitted.trans hpayable),
                  List.filter_cons_of_pos hpayable, List.map_cons, List.map_cons, List.map_cons, ih]
                congr 1
                simp only [payable, Bool.and_eq_true, decide_eq_true_eq] at hpayable
                obtain ⟨⟨⟨⟨_, hheld⟩, hpart⟩, hepoch⟩, hfits⟩ := hpayable
                rw [reward_eq hheld (by omega) hepoch, Option.some.injEq] at hreward
                rw [← hreward]
                exact int64_of_fits (share_nonneg _ _) ((share_lt_iff (by omega)).mpr hfits)
              · rw [List.filter_cons_of_neg (by rw [hpermitted]; exact hpayable),
                  List.filter_cons_of_neg hpayable, ih]

theorem totalPrism_permittedRewards (h : run.Open) :
    totalPrism run.permittedRewards = (run.shares.map Int.floor).sum := by
  rw [totalPrism, permittedRewards, calc_eq h]
  show (((List.flatMap run.rewardsOf _).filter _).map _).sum = _
  rw [shares, List.filter_flatMap, List.map_flatMap, List.map_flatMap]
  refine congrArg (fun f => (List.flatMap f _).sum) (funext fun market => ?_)
  rw [rewardsOf_amounts, List.map_map]
  rfl

/-- Every market of the window gives the budget away, as far as its holders are payable. -/
theorem sum_shares : run.shares.sum = run.budget * run.payableFractions := by
  have hmarket (market : Market) : ((run.payablePositions market).map fun held =>
      run.share held.1 held.2).sum = run.budget * run.payableFraction market := by
    rw [payableFraction, ← List.sum_map_mul_left]
    rfl
  unfold shares payableFractions
  induction run.resolvedMarketsInEpoch with
  | nil => simp
  | cons market markets ih =>
      rw [List.flatMap_cons, List.sum_append, hmarket, ih, List.map_cons, List.sum_cons, mul_add]

theorem length_shares : run.shares.length = run.payableCount := by
  rw [shares, payableCount, List.length_flatMap]
  exact congrArg List.sum (List.map_congr_left fun market _ => List.length_map _)

/-! ## The budget -/

variable (run)

/-- Whatever the database fails to take, the rewards that are created stay within the budget, and
none is negative. -/
def WithinBudget : Prop :=
  ∀ created, List.Sublist created run.permittedRewards →
    (totalPrism created : ℚ) ≤ run.budget ∧ ∀ reward ∈ created, 0 ≤ reward.nPrismScaled

/-- The holders that are paid make up no more than one market. -/
def SharesOnce : Prop := run.payableFractions ≤ 1

/-- They make up more than one market, by a unit of the budget for each of them. -/
def SharesMore : Prop :=
  0 < run.payableCount ∧ run.payableCount ≤ (run.payableFractions - 1) * run.budget

variable {run}

theorem permittedRewards_nonneg : ∀ reward ∈ run.permittedRewards, 0 ≤ reward.nPrismScaled := by
  intro reward hmem
  have hpermitted := (List.mem_filter.mp hmem).2
  simp only [CreatePrismRewardParams.permitted, Bool.and_eq_true, decide_eq_true_eq] at hpermitted
  exact hpermitted.1.2

theorem totalPrism_le (h : run.Open) :
    (totalPrism run.permittedRewards : ℚ) ≤ run.budget * run.payableFractions := by
  have hsum := sum_floor_add_fract run.shares
  have hdropped := sum_fract_nonneg run.shares
  rw [totalPrism_permittedRewards h, ← sum_shares]
  linarith

theorem lt_totalPrism (h : run.Open) (hcount : 0 < run.payableCount) :
    run.budget * run.payableFractions - run.payableCount < totalPrism run.permittedRewards := by
  have hsum := sum_floor_add_fract run.shares
  have hdropped : (run.shares.map Int.fract).sum < run.payableCount := by
    rw [← length_shares] at hcount ⊢
    exact sum_fract_lt (List.ne_nil_of_length_pos hcount)
  rw [totalPrism_permittedRewards h, ← sum_shares]
  linarith

theorem SharesOnce.withinBudget (h : run.Open → run.SharesOnce) : run.WithinBudget := by
  intro created hcreated
  refine ⟨?_, fun reward hmem => permittedRewards_nonneg reward (hcreated.subset hmem)⟩
  have hle : totalPrism created ≤ totalPrism run.permittedRewards := by
    apply (hcreated.map _).sum_le_sum
    intro amount hamount
    obtain ⟨reward, hmem, rfl⟩ := List.mem_map.mp hamount
    exact permittedRewards_nonneg reward hmem
  by_cases hopen : run.Open
  · calc (totalPrism created : ℚ) ≤ totalPrism run.permittedRewards := Int.cast_le.mpr hle
      _ ≤ run.budget * run.payableFractions := totalPrism_le hopen
      _ ≤ run.budget * 1 := mul_le_mul_of_nonneg_left (h hopen) budget_nonneg
      _ = run.budget := mul_one _
  · rw [calc_of_not_open hopen] at hle
    calc (totalPrism created : ℚ) ≤ (0 : Int) := Int.cast_le.mpr hle
      _ = 0 := Int.cast_zero
      _ ≤ run.budget := budget_nonneg

theorem SharesMore.not_withinBudget (h : run.SharesMore) (hopen : run.Open) :
    ¬run.WithinBudget := by
  intro hwithin
  have hall := (hwithin _ (List.Sublist.refl _)).1
  have hcreated := lt_totalPrism hopen h.1
  have hmore := h.2
  linarith

/-- A run stays within its budget where the holders that are paid make up no more than one market,
and exceeds it where they make up a unit of the budget more for each of them. -/
theorem within_budget_of_sharesOnce (run : CampaignRun) :
    ((run.Open → run.SharesOnce) → run.WithinBudget) ∧
      (run.Open → run.SharesMore → ¬run.WithinBudget) :=
  ⟨SharesOnce.withinBudget, fun hopen hmore => hmore.not_withinBudget hopen⟩

/-! ## Which runs do -/

/-- The parts of the holders of one market make up no more than one, where the tokens of the market
fit 64 bits. -/
theorem payableFraction_le_one {market : Market}
    (hfits : ∀ positions, run.getPositionsByMarketId market.marketID = some positions →
      (positions.rows.map Position.tokens).sum < 2 ^ 64) : run.payableFraction market ≤ 1 := by
  unfold payableFraction payablePositions
  cases hread : run.getPositionsByMarketId market.marketID with
  | none => simp
  | some positions =>
      have htotal : totalTokens positions.rows = (positions.rows.map Position.tokens).sum := by
        rw [totalTokens_eq, Nat.mod_eq_of_lt (hfits positions hread)]
      have hsub : (((positions.rows.filter (run.payable market (totalTokens positions.rows))).map
          Position.tokens).sum : Nat) ≤ totalTokens positions.rows := by
        rw [htotal]
        exact (List.filter_sublist.map _).sum_le_sum fun _ _ => Nat.zero_le _
      dsimp only
      generalize totalTokens positions.rows = total at hsub ⊢
      rw [List.map_map]
      have hsum : (((positions.rows.filter (run.payable market total)).map
          fun position => (position.tokens / total : ℚ))).sum =
          (((positions.rows.filter (run.payable market total)).map Position.tokens).sum : Nat) /
            total := by
        induction positions.rows.filter (run.payable market total) with
        | nil => simp
        | cons position rest ih =>
            rw [List.map_cons, List.sum_cons, ih, List.map_cons, List.sum_cons, Nat.cast_add,
              add_div]
      calc _ = _ := hsum
        _ ≤ 1 := div_le_one_of_le₀ (Nat.cast_le.mpr hsub) (Nat.cast_nonneg _)

/-- One market with holders that are paid, whose tokens fit 64 bits, gives the budget away once. -/
theorem sharesOnce_of_one
    (hfits : ∀ market ∈ run.resolvedMarketsInEpoch, ∀ positions,
      run.getPositionsByMarketId market.marketID = some positions →
        (positions.rows.map Position.tokens).sum < 2 ^ 64)
    (hone : run.resolvedMarketsInEpoch.countP
      (fun market => !(run.payablePositions market).isEmpty) ≤ 1) : run.SharesOnce := by
  have hcount (markets : List Market) (h : ∀ market ∈ markets, run.payableFraction market ≤ 1) :
      (markets.map run.payableFraction).sum ≤
        markets.countP fun market => !(run.payablePositions market).isEmpty := by
    induction markets with
    | nil => simp
    | cons market markets ih =>
        have hrest := ih fun other hother => h other (List.mem_cons_of_mem market hother)
        rw [List.map_cons, List.sum_cons, List.countP_cons, Nat.cast_add, add_comm]
        apply add_le_add hrest
        cases hheld : run.payablePositions market with
        | nil => simp [payableFraction, hheld]
        | cons held rest => simpa using h market List.mem_cons_self
  calc run.payableFractions ≤ _ :=
        hcount _ fun market hmarket => payableFraction_le_one (hfits market hmarket)
    _ ≤ 1 := by exact_mod_cast hone

end CampaignRun

/-! ## Two markets in one window -/

def samplePositions : Positions where
  rows := [⟨"0.0.1001".toList, 5000000, 0, by decide, by decide⟩]
  nodup := List.nodup_singleton _

def secondDay : Nat := launchDate + 24 * hour + 1200 * second

def sampleMarket (marketID : Uint128) : Market where
  marketID
  net := "testnet".toList
  resolvedAt := some (secondDay - hour)
  deletedAt := false
  isSuspended := false
  isPaused := false

def sampleRun (markets : Markets) : CampaignRun where
  cronRanAt := secondDay
  now := secondDay
  schedule := daily
  tokenDecimals := 6
  markets
  getPositionsByMarketId := fun _ => some samplePositions

def oneMarket : Markets := ⟨[sampleMarket 1], by decide⟩

def twoMarkets : Markets := ⟨[sampleMarket 1, sampleMarket 2], by decide⟩

section Sample

variable {markets : Markets}

theorem sampleRun_markets (h : ∀ market ∈ markets.rows, ∃ marketID, market = sampleMarket marketID) :
    (sampleRun markets).resolvedMarketsInEpoch = markets.rows := by
  unfold CampaignRun.resolvedMarketsInEpoch
  rw [show (sampleRun markets).schedule = daily from rfl, lookBack_daily,
    show (sampleRun markets).cronRanAt = secondDay from rfl]
  apply List.filter_eq_self.mpr
  intro market hmarket
  obtain ⟨marketID, rfl⟩ := h market hmarket
  have hafter : secondDay - 24 * hour < secondDay - hour := by decide +kernel
  simp [sampleMarket, Market.isShown, hafter]

theorem sampleRun_epoch : (sampleRun markets).nPRISMthisEpoch = 1000000 / 365 := by
  have hyear : rewardsCampaignForYearAtTime secondDay = 1000000 := by decide +kernel
  unfold CampaignRun.nPRISMthisEpoch rewardsCampaignPerDayAtTime cronJobsPerDay
  rw [show (sampleRun markets).now = secondDay from rfl, hyear,
    show (sampleRun markets).schedule = daily from rfl, cronJobs_daily,
    show rewardsCampaignVestingSchedule.length = 1 from rfl]
  norm_num

theorem sampleRun_budget : (sampleRun markets).budget = 1000000 / 365 * 1000000 := by
  unfold CampaignRun.budget
  rw [sampleRun_epoch]
  norm_num [sampleRun]

theorem sampleRun_held (marketID : Uint128) :
    (sampleRun markets).payablePositions (sampleMarket marketID) =
      samplePositions.rows.map fun position => (5000000, position) := by
  have htotal : totalTokens samplePositions.rows = 5000000 := by decide +kernel
  have hpayable : ∀ position ∈ samplePositions.rows,
      (sampleRun markets).payable (sampleMarket marketID) 5000000 position = true := by
    intro position hposition
    rw [List.mem_singleton.mp hposition]
    have htokens : Position.tokens ⟨"0.0.1001".toList, 5000000, 0, by decide, by decide⟩ =
      5000000 := by decide +kernel
    have hnetwork : ([ "mainnet", "testnet" ].any (·.toList == "testnet".toList)) = true := by
      decide +kernel
    have haddress : isValidHederaAccountID "0.0.1001".toList = true := by decide +kernel
    have hepoch : (0 : ℚ) < 1000000 / 365 := by norm_num
    have hfits : (1000000 / 365 * 1000000 * (5000000 : Nat) : ℚ) < 2 ^ 63 * (5000000 : Nat) := by
      norm_num
    unfold CampaignRun.payable
    rw [show (sampleMarket marketID).net = "testnet".toList from rfl, htokens, sampleRun_epoch,
      sampleRun_budget, hnetwork, haddress, Bool.true_and, Bool.true_and,
      decide_eq_true (by decide), decide_eq_true (by decide), decide_eq_true (by decide),
      decide_eq_true hepoch, decide_eq_true hfits]
    rfl
  unfold CampaignRun.payablePositions
  show List.map _ (List.filter _ samplePositions.rows) = _
  rw [htotal, List.filter_eq_self.mpr hpayable]

theorem sampleRun_fraction (marketID : Uint128) :
    (sampleRun markets).payableFraction (sampleMarket marketID) = 1 := by
  rw [CampaignRun.payableFraction, sampleRun_held]
  decide +kernel

theorem sampleRun_open : (sampleRun markets).Open := by
  show launchDate ≤ secondDay ∧ secondDay ≤ campaignEnd
  decide +kernel

end Sample

theorem within_budget_of_sharesOnce_sample : (sampleRun oneMarket).WithinBudget := by
  apply (CampaignRun.within_budget_of_sharesOnce (sampleRun oneMarket)).1
  intro _
  have hmarkets := @sampleRun_markets oneMarket (by simp [oneMarket])
  unfold CampaignRun.SharesOnce CampaignRun.payableFractions
  rw [hmarkets]
  simp [oneMarket, sampleRun_fraction]

/-- Both markets give the whole budget away. -/
theorem twoMarkets_exceed : ¬(sampleRun twoMarkets).WithinBudget := by
  have hmarkets := @sampleRun_markets twoMarkets (by simp [twoMarkets])
  apply CampaignRun.SharesMore.not_withinBudget _ sampleRun_open
  unfold CampaignRun.SharesMore CampaignRun.payableFractions CampaignRun.payableCount
  rw [hmarkets, sampleRun_budget]
  simp only [twoMarkets, List.map_cons, List.map_nil, List.sum_cons, List.sum_nil,
    sampleRun_fraction, sampleRun_held, List.length_map]
  norm_num [samplePositions]

end PrismBackend.Rewards
