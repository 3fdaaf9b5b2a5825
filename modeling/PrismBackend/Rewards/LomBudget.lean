import PrismBackend.Rewards.BookSides
import PrismBackend.Rewards.Budget

/-!
# Rewards: the budget of limit order mining

The accounts of a run share its allocation in proportion to their scores, so the
payouts stay within it. What a payout is divided by is checked first, but the
recorded ratio and the printed percentages are formed without a check: when no
order scores they are zero over zero.
-/

namespace PrismBackend.Rewards

open PrismBackend.Lib PrismBackend.Clob PrismBackend.PrismV2

/-! ## Points -/

namespace LomOrder

variable {order : LomOrder} {currentMarketPrice : ℚ}

theorem tierPoints_nonneg {α : Type} (tiers : List (Tier α)) (isReached : α → Bool) :
    0 ≤ tierPoints tiers isReached :=
  le_foldl_tiers 0

theorem distancePoints_nonneg : 0 ≤ order.distancePoints .exact currentMarketPrice :=
  tierPoints_nonneg _ _

theorem durationPoints_nonneg (now : Nat) :
    0 ≤ order.durationPoints .exact currentMarketPrice now := by
  unfold durationPoints
  split
  · exact le_rfl
  · exact tierPoints_nonneg _ _

theorem size_le_points {orderSizeUsd : ℚ} (hsize : 0 ≤ orderSizeUsd) (qtyOrig qtyRem : ℚ) :
    orderSizeUsd ≤ calculateOrderSizePoints .exact orderSizeUsd qtyOrig qtyRem := by
  unfold calculateOrderSizePoints
  split
  · exact le_rfl
  · simp only [Rounding.exact_round]
    have hmatched : 0 ≤ min (max (1 - qtyRem / qtyOrig) 0) 1 :=
      le_min (le_max_right _ _) zero_le_one
    have hmultiplier : 0 ≤ executionMultiplier - 1 := by norm_num [executionMultiplier]
    have hbonus := mul_nonneg (mul_nonneg hsize hmultiplier) hmatched
    exact le_add_of_nonneg_right hbonus

theorem sizePoints_nonneg : 0 ≤ order.sizePoints .exact :=
  (abs_nonneg _).trans (size_le_points (abs_nonneg _) _ _)

theorem sizePoints_pos (hprice : order.priceUsd ≠ 0) (hqty : 0 < order.qtyRem) :
    0 < order.sizePoints .exact :=
  lt_of_lt_of_le (abs_pos.mpr (mul_ne_zero hprice hqty.ne')) (size_le_points (abs_nonneg _) _ _)

theorem sizePoints_of_free (hprice : order.priceUsd = 0) : order.sizePoints .exact = 0 := by
  rw [sizePoints, hprice, zero_mul, Rounding.exact_round, abs_zero]
  unfold calculateOrderSizePoints
  split
  · rfl
  · simp only [Rounding.exact_round]
    ring

end LomOrder

/-! ## Scores -/

section Summaries

variable {orders : List LomOrder} {currentMarketPrice : ℚ} {now : Nat}

theorem lomScore_eq :
    (summarize .exact orders currentMarketPrice now).lomScore =
      distance2durationRatio * ((orders.filter fun order => !order.isSecondary).map
          (·.distancePoints .exact currentMarketPrice)).sum +
        ((orders.filter fun order => !order.isSecondary).map
          (·.durationPoints .exact currentMarketPrice now)).sum +
        dollarValue2lomScoreRatio * (summarize .exact orders currentMarketPrice now).sizePoints := by
  simp only [summarize, Rounding.exact_sum, Rounding.exact_round]

theorem summarize_sizePoints :
    (summarize .exact orders currentMarketPrice now).sizePoints =
      ((orders.filter fun order => !order.isSecondary).map (·.sizePoints .exact)).sum :=
  Rounding.exact_sum _

theorem lomScore_le_sums : 5 / 4 * (summarize .exact orders currentMarketPrice now).sizePoints ≤
    (summarize .exact orders currentMarketPrice now).lomScore := by
  have hdistance : 0 ≤ ((orders.filter fun order => !order.isSecondary).map
      (·.distancePoints .exact currentMarketPrice)).sum :=
    sum_nonneg_of_weights fun _ _ => LomOrder.distancePoints_nonneg
  have hduration : 0 ≤ ((orders.filter fun order => !order.isSecondary).map
      (·.durationPoints .exact currentMarketPrice now)).sum :=
    sum_nonneg_of_weights fun _ _ => LomOrder.durationPoints_nonneg now
  rw [lomScore_eq]
  unfold distance2durationRatio dollarValue2lomScoreRatio
  linarith

theorem summarize_sizePoints_nonneg :
    0 ≤ (summarize .exact orders currentMarketPrice now).sizePoints := by
  rw [summarize_sizePoints]
  exact sum_nonneg_of_weights fun _ _ => LomOrder.sizePoints_nonneg

theorem summarize_sizePoints_pos {order : LomOrder} (horder : order ∈ orders)
    (hprimary : order.isSecondary = false) (hprice : order.priceUsd ≠ 0) (hqty : 0 < order.qtyRem) :
    0 < (summarize .exact orders currentMarketPrice now).sizePoints := by
  have hcounted : order ∈ orders.filter fun order => !order.isSecondary :=
    List.mem_filter.mpr ⟨horder, by rw [hprimary, Bool.not_false]⟩
  rw [summarize_sizePoints]
  exact (LomOrder.sizePoints_pos hprice hqty).trans_le
    (weight_le_sum (fun _ _ => LomOrder.sizePoints_nonneg) hcounted)

theorem summarize_of_free (hmarket : 0 < currentMarketPrice)
    (hfree : ∀ order ∈ orders, order.isSecondary = false → order.priceUsd = 0) :
    (summarize .exact orders currentMarketPrice now).sizePoints = 0 ∧
      (summarize .exact orders currentMarketPrice now).lomScore = 0 := by
  have hcounted : ∀ order ∈ orders.filter fun order => !order.isSecondary, order.priceUsd = 0 := by
    intro order horder
    obtain ⟨hmem, hprimary⟩ := List.mem_filter.mp horder
    exact hfree order hmem (Bool.not_eq_true' _ ▸ hprimary)
  have hfar : ∀ order ∈ orders.filter fun order => !order.isSecondary,
      order.isFar .exact currentMarketPrice = true := by
    intro order horder
    exact LomOrder.isFar_of_nonpos hmarket rfl (hcounted order horder).le
  have hsize : (summarize .exact orders currentMarketPrice now).sizePoints = 0 := by
    rw [summarize_sizePoints]
    exact sum_eq_zero_of_weights fun order horder =>
      LomOrder.sizePoints_of_free (hcounted order horder)
  have hdistance : ((orders.filter fun order => !order.isSecondary).map
      (·.distancePoints .exact currentMarketPrice)).sum = 0 :=
    sum_eq_zero_of_weights fun order horder =>
      LomOrder.distancePoints_of_far hmarket (hfar order horder)
  have hduration : ((orders.filter fun order => !order.isSecondary).map
      (·.durationPoints .exact currentMarketPrice now)).sum = 0 :=
    sum_eq_zero_of_weights fun order horder => LomOrder.durationPoints_of_far (hfar order horder)
  refine ⟨hsize, ?_⟩
  rw [lomScore_eq, hsize, hdistance, hduration, mul_zero, mul_zero, add_zero, add_zero]

end Summaries

/-! ## What the job reads -/

namespace LomRun

variable (run : LomRun)

def Open : Prop := launchDate ≤ run.now ∧ run.now ≤ lomEnd

structure Reads (market : LomMarket) (accountID : Str) : Prop where
  unresolved : market ∈ run.unresolvedMarkets
  enabled : market.isLomEnabled = true
  price : (run.getLatestPriceByMarket market.marketID).isSome = true
  readable : run.isReadable market.marketID accountID = true
  live : ∃ order ∈ run.orders, order.marketID = market.marketID ∧ order.accountID = accountID ∧
    order.isLive = true

def OnOneNetwork (accountID : Str) : Prop :=
  ∃ net, (∃ market, run.Reads market accountID) ∧
    ∀ market, run.Reads market accountID → market.net = net

/-- The job scores the order, which is primary and does not cost nothing. -/
def Scores (order : LomOrder) : Prop :=
  ∃ market accountID, run.Reads market accountID ∧ order ∈ run.orders ∧
    order.marketID = market.marketID ∧ order.accountID = accountID ∧ order.isOpen = true ∧
    order.isSecondary = false ∧ order.priceUsd ≠ 0

def PricesPositive : Prop :=
  ∀ market ∈ run.unresolvedMarkets, ∀ currentMarketPrice,
    run.getLatestPriceByMarket market.marketID = some currentMarketPrice → 0 < currentMarketPrice

/-! ## What a run is held to -/

def totalSize : ℚ := ((run.lomScores .exact).map (·.summary.sizePoints)).sum
def totalLOMScore : ℚ := ((run.lomScores .exact).map (·.summary.lomScore)).sum

/-- The divisors of the first pass: the market price, and the quantity of an order, unless it is
zero or less. -/
def scoreDivisors (market : LomMarket) : List ℚ :=
  match run.getLatestPriceByMarket market.marketID with
  | none => []
  | some currentMarketPrice =>
    ((run.getAllAccountIdsForMarketId market.marketID).filter
      (run.isReadable market.marketID)).flatMap fun accountID =>
        ((run.openOrdersOf market.marketID accountID).filter fun order =>
          !order.isSecondary).flatMap fun order =>
            currentMarketPrice :: if order.qtyOrig ≤ 0 then [] else [order.qtyOrig]

/-- The divisors of the final pass: of the percentages that are printed, of the payout and of the
ratio that is recorded. -/
def allocationDivisors (accountID : Str) : List ℚ :=
  match run.netOf accountID with
  | none => []
  | some _ =>
    [run.totalSize, run.totalLOMScore] ++
      (if 0 < run.totalLOMScoreCompounded then [run.totalLOMScoreCompounded] else []) ++
      if run.sanityCheckPrismAllocation accountID then
        [run.prismToBeAllocatedThisRun, run.totalLOMScoreCompounded]
      else []

def divisors : List ℚ :=
  cronJobsPerDay run.schedule ::
    (((run.unresolvedMarkets.filter (·.isLomEnabled)).flatMap run.scoreDivisors) ++
      run.accounts.flatMap run.allocationDivisors)

/-- Payouts that are not negative and, rounded down, stay within the allocation; recorded ratios
between zero and one; and no division by zero. -/
structure KeepsBudget (rewards : List CreatePrismRewardParams) : Prop where
  payouts : ∀ reward ∈ rewards, 0 ≤ run.prismToSendUser reward.destAccountID
  allocation : ((rewards.map fun reward =>
    ⌊run.prismToSendUser reward.destAccountID * 10 ^ run.tokenDecimals⌋).sum : ℚ) ≤
      run.prismToBeAllocatedThisRun * 10 ^ run.tokenDecimals
  ratios : ∀ reward ∈ rewards, ∃ ratio, reward.ratioOfAllocation = some ratio ∧ 0 ≤ ratio ∧
    ratio ≤ 1
  divisors : ∀ divisor ∈ run.divisors, divisor ≠ 0

def FiresInYear : Prop := ∃ i < 366 * 86400 - 1, run.schedule (countedFrom + i) = true

/-- The run has jobs to divide by and, where an account can be paid, an allocation and a score. -/
def HasScore : Prop :=
  run.Open → run.FiresInYear ∧ ((∃ accountID, run.OnOneNetwork accountID) →
    run.now < lomEnd ∧ ∃ order, run.Scores order)

variable {run} {accountID : Str}

/-! ## The entries -/

theorem mem_lomScores {entry : Entry} (h : entry ∈ run.lomScores .exact) :
    run.Reads entry.market entry.accountID ∧ ∃ currentMarketPrice,
      run.getLatestPriceByMarket entry.market.marketID = some currentMarketPrice ∧
        entry.summary = summarize .exact (run.openOrdersOf entry.market.marketID entry.accountID)
          currentMarketPrice run.now := by
  obtain ⟨market, hmarket, hmem⟩ := List.mem_flatMap.mp h
  unfold marketEntries at hmem
  split at hmem
  · exact absurd hmem List.not_mem_nil
  · next henabled =>
    split at hmem
    · exact absurd hmem List.not_mem_nil
    · next currentMarketPrice hprice =>
      obtain ⟨accountID, haccount, rfl⟩ := List.mem_map.mp hmem
      obtain ⟨hlive, hreadable⟩ := List.mem_filter.mp haccount
      obtain ⟨order, horder, haccountID⟩ := List.mem_map.mp (List.mem_dedup.mp hlive)
      obtain ⟨hmemOrder, hfilter⟩ := List.mem_filter.mp horder
      rw [Bool.and_eq_true, beq_iff_eq] at hfilter
      refine ⟨⟨hmarket, Bool.eq_true_of_not_eq_false henabled, ?_, hreadable,
        order, hmemOrder, hfilter.1, haccountID, hfilter.2⟩, currentMarketPrice, hprice, rfl⟩
      rw [hprice]
      rfl

theorem Reads.entry {market : LomMarket} (h : run.Reads market accountID)
    {currentMarketPrice : ℚ}
    (hprice : run.getLatestPriceByMarket market.marketID = some currentMarketPrice) :
    (⟨accountID, market, summarize .exact (run.openOrdersOf market.marketID accountID)
      currentMarketPrice run.now⟩ : Entry) ∈ run.lomScores .exact := by
  obtain ⟨order, horder, hmarket, haccount, hlive⟩ := h.live
  apply List.mem_flatMap.mpr
  refine ⟨market, h.unresolved, ?_⟩
  have henabled : ¬market.isLomEnabled = false := by simp [h.enabled]
  unfold marketEntries
  rw [if_neg henabled, hprice]
  apply List.mem_map.mpr
  refine ⟨accountID, List.mem_filter.mpr ⟨List.mem_dedup.mpr (List.mem_map.mpr
    ⟨order, List.mem_filter.mpr ⟨horder, ?_⟩, haccount⟩), h.readable⟩, rfl⟩
  rw [Bool.and_eq_true, beq_iff_eq]
  exact ⟨hmarket, hlive⟩

theorem mem_accounts_iff : accountID ∈ run.accounts ↔ ∃ market, run.Reads market accountID := by
  unfold accounts
  rw [List.mem_dedup, List.mem_map]
  constructor
  · rintro ⟨entry, hentry, rfl⟩
    exact ⟨entry.market, (mem_lomScores hentry).1⟩
  · intro h
    obtain ⟨market, hreads⟩ := h
    obtain ⟨currentMarketPrice, hprice⟩ := Option.isSome_iff_exists.mp hreads.price
    exact ⟨_, hreads.entry hprice, rfl⟩

theorem netOf_isSome_iff : (run.netOf accountID).isSome = true ↔ run.OnOneNetwork accountID := by
  have hmem : ∀ net, net ∈ (run.scoresOf accountID).map (·.market.net) ↔
      ∃ market, run.Reads market accountID ∧ market.net = net := by
    intro net
    rw [List.mem_map]
    constructor
    · rintro ⟨entry, hentry, rfl⟩
      obtain ⟨hscored, haccount⟩ := List.mem_filter.mp hentry
      rw [beq_iff_eq] at haccount
      exact ⟨entry.market, haccount ▸ (mem_lomScores hscored).1, rfl⟩
    · rintro ⟨market, hreads, rfl⟩
      obtain ⟨currentMarketPrice, hprice⟩ := Option.isSome_iff_exists.mp hreads.price
      exact ⟨_, List.mem_filter.mpr ⟨hreads.entry hprice, beq_self_eq_true accountID⟩, rfl⟩
  unfold netOf OnOneNetwork
  cases hnets : (run.scoresOf accountID).map (·.market.net) with
  | nil =>
    rw [hnets] at hmem
    apply iff_of_false Bool.false_ne_true
    rintro ⟨net, ⟨market, hreads⟩, _⟩
    exact List.not_mem_nil ((hmem _).mpr ⟨market, hreads, rfl⟩)
  | cons net nets =>
    rw [hnets] at hmem
    dsimp only
    constructor
    · intro hsome
      split at hsome
      · next hall =>
        obtain ⟨first, hfirst, _⟩ := (hmem net).mp List.mem_cons_self
        refine ⟨net, ⟨first, hfirst⟩, ?_⟩
        intro market hreads
        cases List.mem_cons.mp ((hmem _).mpr ⟨market, hreads, rfl⟩) with
        | inl heq => exact heq
        | inr hrest => exact beq_iff_eq.mp (List.all_eq_true.mp hall _ hrest)
      · exact absurd hsome Bool.false_ne_true
    · rintro ⟨net', _, hsame⟩
      have hone : ∀ other ∈ net :: nets, other = net' := by
        intro other hother
        obtain ⟨market, hreads, rfl⟩ := (hmem other).mp hother
        exact hsame market hreads
      rw [if_pos]
      · rfl
      · apply List.all_eq_true.mpr
        intro other hother
        rw [beq_iff_eq, hone other (List.mem_cons_of_mem net hother), hone net List.mem_cons_self]

/-! ## The totals -/

theorem sizePoints_nonneg {entry : Entry} (h : entry ∈ run.lomScores .exact) :
    0 ≤ entry.summary.sizePoints := by
  obtain ⟨_, currentMarketPrice, _, hsummary⟩ := mem_lomScores h
  rw [hsummary]
  exact summarize_sizePoints_nonneg

theorem size_le_lomScore {entry : Entry} (h : entry ∈ run.lomScores .exact) :
    5 / 4 * entry.summary.sizePoints ≤ entry.summary.lomScore := by
  obtain ⟨_, currentMarketPrice, _, hsummary⟩ := mem_lomScores h
  rw [hsummary]
  exact lomScore_le_sums

theorem lomScore_nonneg {entry : Entry} (h : entry ∈ run.lomScores .exact) :
    0 ≤ entry.summary.lomScore := by
  have hsize := sizePoints_nonneg h
  have hscore := size_le_lomScore h
  linarith

theorem compoundedLOM_nonneg (accountID : Str) : 0 ≤ run.compoundedLOM accountID := by
  have hsize : 0 ≤ ((run.scoresOf accountID).map (·.summary.sizePoints)).sum :=
    sum_nonneg_of_weights fun _ hentry => sizePoints_nonneg (List.mem_filter.mp hentry).1
  have hscore : 0 ≤ ((run.scoresOf accountID).map (·.summary.lomScore)).sum :=
    sum_nonneg_of_weights fun _ hentry => lomScore_nonneg (List.mem_filter.mp hentry).1
  unfold compoundedLOM dollarValue2lomScoreRatio
  linarith

/-- An order that scores makes each of the three totals positive. -/
theorem Scores.totals_pos {order : LomOrder} (h : run.Scores order) :
    0 < run.totalSize ∧ 0 < run.totalLOMScore ∧ 0 < run.totalLOMScoreCompounded := by
  obtain ⟨market, accountID, hreads, horder, hmarket, haccount, hopen, hprimary, hprice⟩ := h
  obtain ⟨currentMarketPrice, hmarketPrice⟩ := Option.isSome_iff_exists.mp hreads.price
  have hentry := hreads.entry hmarketPrice
  have hqty : 0 < order.qtyRem := of_decide_eq_true (Bool.and_eq_true_iff.mp hopen).2
  have hmine : order ∈ run.openOrdersOf market.marketID accountID := by
    apply List.mem_filter.mpr
    rw [hmarket, haccount, hopen, beq_self_eq_true, beq_self_eq_true]
    exact ⟨horder, rfl⟩
  have hsize := @summarize_sizePoints_pos _ currentMarketPrice run.now order hmine hprimary hprice
    hqty
  have hscore := size_le_lomScore hentry
  dsimp only at hscore
  have hscored : _ ∈ run.scoresOf accountID :=
    List.mem_filter.mpr ⟨hentry, beq_self_eq_true accountID⟩
  refine ⟨?_, ?_, ?_⟩
  · exact hsize.trans_le (weight_le_sum (fun _ hmem => sizePoints_nonneg hmem) hentry)
  · have hpos : 0 < (summarize .exact (run.openOrdersOf market.marketID accountID) currentMarketPrice
        run.now).lomScore := by linarith
    exact hpos.trans_le (weight_le_sum (fun _ hmem => lomScore_nonneg hmem) hentry)
  · have hsizes : 0 < ((run.scoresOf accountID).map (·.summary.sizePoints)).sum :=
      hsize.trans_le (weight_le_sum
        (fun _ hmem => sizePoints_nonneg (List.mem_filter.mp hmem).1) hscored)
    have hscores : 0 ≤ ((run.scoresOf accountID).map (·.summary.lomScore)).sum :=
      sum_nonneg_of_weights fun _ hmem => lomScore_nonneg (List.mem_filter.mp hmem).1
    have hcompounded : 0 < run.compoundedLOM accountID := by
      unfold compoundedLOM dollarValue2lomScoreRatio
      linarith
    exact hcompounded.trans_le (weight_le_sum (fun account _ => compoundedLOM_nonneg account)
      (mem_accounts_iff.mpr ⟨market, hreads⟩))

theorem totals_eq_zero (hprices : run.PricesPositive) (hnone : ¬∃ order, run.Scores order) :
    run.totalSize = 0 ∧ run.totalLOMScoreCompounded = 0 := by
  have hzero : ∀ entry ∈ run.lomScores .exact,
      entry.summary.sizePoints = 0 ∧ entry.summary.lomScore = 0 := by
    intro entry hentry
    obtain ⟨hreads, currentMarketPrice, hprice, hsummary⟩ := mem_lomScores hentry
    rw [hsummary]
    apply summarize_of_free (hprices _ hreads.unresolved _ hprice)
    intro order horder hprimary
    obtain ⟨hmem, hfilter⟩ := List.mem_filter.mp horder
    rw [Bool.and_eq_true, Bool.and_eq_true, beq_iff_eq, beq_iff_eq] at hfilter
    by_contra hcosts
    exact hnone ⟨order, entry.market, entry.accountID, hreads, hmem, hfilter.1.1, hfilter.1.2,
      hfilter.2, hprimary, hcosts⟩
  refine ⟨sum_eq_zero_of_weights fun entry hentry => (hzero entry hentry).1, ?_⟩
  apply sum_eq_zero_of_weights
  intro accountID _
  have hsizes : ((run.scoresOf accountID).map (·.summary.sizePoints)).sum = 0 :=
    sum_eq_zero_of_weights fun entry hentry => (hzero entry (List.mem_filter.mp hentry).1).1
  have hscores : ((run.scoresOf accountID).map (·.summary.lomScore)).sum = 0 :=
    sum_eq_zero_of_weights fun entry hentry => (hzero entry (List.mem_filter.mp hentry).1).2
  rw [compoundedLOM, hsizes, hscores, mul_zero, add_zero]

/-! ## The allocation -/

theorem lomRewardsForYearAtTime_nonneg (at_ : Nat) : 0 ≤ lomRewardsForYearAtTime at_ := by
  unfold lomRewardsForYearAtTime
  split
  · exact le_rfl
  · exact Nat.cast_nonneg _

theorem prismToBeAllocatedThisRun_nonneg : 0 ≤ run.prismToBeAllocatedThisRun := by
  have hyear := lomRewardsForYearAtTime_nonneg run.now
  unfold prismToBeAllocatedThisRun lomRewardsPerDayAtTime cronJobsPerDay
  positivity

theorem cronJobsPerDay_ne_zero_iff : cronJobsPerDay run.schedule ≠ 0 ↔ run.FiresInYear := by
  unfold cronJobsPerDay
  rw [div_ne_zero_iff, Nat.cast_ne_zero, cronJobs, Nat.count_ne_iff_exists]
  exact and_iff_left (by norm_num)

/-- In the instant in which the schedule ends nothing is left to allocate. -/
theorem lomRewardsForYearAtTime_pos_iff {at_ : Nat} (hstart : launchDate ≤ at_)
    (hend : at_ ≤ lomEnd) : lomRewardsForYearAtTime at_ ≠ 0 ↔ at_ < lomEnd := by
  have hrates : ∀ i < 6, lomRewardsVestingSchedule[i]?.getD 0 ≠ 0 := by decide
  have hlast : lomEnd ∈ lomAnniversaries := by decide
  have hmost : ∀ t ∈ lomAnniversaries, t ≤ lomEnd := by decide
  have hlength : lomAnniversaries.length = 6 := by decide
  unfold lomRewardsForYearAtTime
  rw [if_neg (Nat.not_lt.mpr hstart), Nat.cast_ne_zero]
  constructor
  · intro hrate
    by_contra hover
    have hall : (lomAnniversaries.filter (· ≤ at_)).length = 6 := by
      rw [List.filter_eq_self.mpr, hlength]
      intro t ht
      have hle := hmost t ht
      rw [decide_eq_true_eq]
      omega
    rw [hall] at hrate
    exact hrate rfl
  · intro hbefore
    apply hrates
    rw [← hlength]
    apply List.length_filter_lt_length_iff_exists.mpr
    refine ⟨lomEnd, hlast, ?_⟩
    rw [decide_eq_true_eq]
    omega

theorem prismToBeAllocatedThisRun_ne_zero_iff (hopen : run.Open) (hfires : run.FiresInYear) :
    run.prismToBeAllocatedThisRun ≠ 0 ↔ run.now < lomEnd := by
  unfold prismToBeAllocatedThisRun lomRewardsPerDayAtTime
  rw [div_ne_zero_iff, and_iff_left (cronJobsPerDay_ne_zero_iff.mpr hfires), div_ne_zero_iff,
    and_iff_left (by norm_num), lomRewardsForYearAtTime_pos_iff hopen.1 hopen.2]

/-- The payout of an account is a part of the allocation, so that the check lets it pass. -/
theorem prismToSendUser_mem (haccount : accountID ∈ run.accounts) :
    0 ≤ run.prismToSendUser accountID ∧
      run.prismToSendUser accountID ≤ run.prismToBeAllocatedThisRun := by
  have hallocated := @prismToBeAllocatedThisRun_nonneg run
  unfold prismToSendUser
  split
  · next htotal =>
    have hshare := share_mem_unit (fun account _ => compoundedLOM_nonneg account) htotal haccount
    exact ⟨mul_nonneg hallocated hshare.1, mul_le_of_le_one_right hallocated hshare.2⟩
  · exact ⟨le_rfl, hallocated⟩

theorem sanityCheck_passes (haccount : accountID ∈ run.accounts) :
    run.sanityCheckPrismAllocation accountID = true := by
  have hpayout := prismToSendUser_mem haccount
  rw [sanityCheckPrismAllocation, decide_eq_true hpayout.1, decide_eq_true hpayout.2]
  rfl

theorem reward_eq (haccount : accountID ∈ run.accounts) {net : Str}
    (hnet : run.netOf accountID = some net) : run.reward accountID = some {
      net
      destAccountID := accountID
      nPrismScaled := int64 (some (run.prismToSendUser accountID * 10 ^ run.tokenDecimals))
      ratioOfAllocation := quotient (run.compoundedLOM accountID) run.totalLOMScoreCompounded
      cronRanAt := run.cronRanAt
      campaignID := 1 } := by
  rw [reward, hnet]
  exact if_pos (sanityCheck_passes haccount)

theorem netOf_of_reward {reward : CreatePrismRewardParams}
    (h : run.reward accountID = some reward) : ∃ net, run.netOf accountID = some net := by
  unfold LomRun.reward at h
  split at h
  · exact absurd h (Option.some_ne_none _).symm
  · next net hnet => exact ⟨net, hnet⟩

theorem payouts_le_allocation :
    (((run.accounts.filterMap run.reward).map fun reward =>
      ⌊run.prismToSendUser reward.destAccountID * 10 ^ run.tokenDecimals⌋).sum : ℚ) ≤
        run.prismToBeAllocatedThisRun * 10 ^ run.tokenDecimals := by
  have hbudget : 0 ≤ run.prismToBeAllocatedThisRun * 10 ^ run.tokenDecimals :=
    mul_nonneg prismToBeAllocatedThisRun_nonneg (zpow_nonneg (by norm_num) _)
  have hpaid : ∀ (accounts : List Str) (f : Str → Int),
      (accounts.filterMap run.reward).map (fun reward => f reward.destAccountID) =
        (accounts.filter fun accountID => (run.reward accountID).isSome).map f := by
    intro accounts f
    induction accounts with
    | nil => rfl
    | cons accountID accounts ih =>
      cases hreward : run.reward accountID with
      | none =>
        rw [List.filterMap_cons_none hreward, ih, List.filter_cons_of_neg (by simp [hreward])]
      | some reward =>
        rw [List.filterMap_cons_some hreward, List.map_cons, ih, reward_destAccountID hreward,
          List.filter_cons_of_pos (by simp [hreward]), List.map_cons]
  rw [hpaid run.accounts fun accountID => ⌊run.prismToSendUser accountID * 10 ^ run.tokenDecimals⌋]
  by_cases htotal : 0 < run.totalLOMScoreCompounded
  · have hshare : (fun accountID => ⌊run.prismToSendUser accountID * 10 ^ run.tokenDecimals⌋) =
        fun accountID => ⌊run.prismToBeAllocatedThisRun * 10 ^ run.tokenDecimals *
          (run.compoundedLOM accountID / run.totalLOMScoreCompounded)⌋ := by
      funext accountID
      rw [prismToSendUser, if_pos htotal]
      congr 1
      ring
    rw [hshare]
    apply sum_floor_shares_le htotal hbudget
    apply (List.filter_sublist.map run.compoundedLOM).sum_le_sum
    intro y hy
    obtain ⟨accountID, _, rfl⟩ := List.mem_map.mp hy
    exact compoundedLOM_nonneg accountID
  · have hzero : (fun accountID => ⌊run.prismToSendUser accountID * 10 ^ run.tokenDecimals⌋) =
        fun _ => 0 := by
      funext accountID
      rw [prismToSendUser, if_neg htotal, zero_mul, Int.floor_zero]
    rw [hzero, List.sum_map_zero, Int.cast_zero]
    exact hbudget

/-- What is recorded is the payout rounded down, when the allocation is a signed 64-bit number. -/
theorem nPrismScaled_of_fits
    (hfits : run.prismToBeAllocatedThisRun * 10 ^ run.tokenDecimals < 2 ^ 63)
    {reward : CreatePrismRewardParams} (hreward : reward ∈ run.accounts.filterMap run.reward) :
    reward.nPrismScaled =
      ⌊run.prismToSendUser reward.destAccountID * 10 ^ run.tokenDecimals⌋ := by
  obtain ⟨accountID, haccount, hsome⟩ := List.mem_filterMap.mp hreward
  have hpayout := prismToSendUser_mem haccount
  have hpower : (0 : ℚ) ≤ 10 ^ run.tokenDecimals := zpow_nonneg (by norm_num) _
  obtain ⟨net, hnet⟩ := netOf_of_reward hsome
  rw [reward_eq haccount hnet, Option.some.injEq] at hsome
  rw [← hsome]
  exact int64_of_fits (mul_nonneg hpayout.1 hpower)
    ((mul_le_mul_of_nonneg_right hpayout.2 hpower).trans_lt hfits)

theorem calcLOM_ok_iff {rewards : List CreatePrismRewardParams} :
    run.calcLOM = .ok rewards ↔ run.Open ∧ rewards = run.accounts.filterMap run.reward := by
  simp only [calcLOM, bind_ok_iff, revertIf_ok_iff, exists_const, Nat.not_lt, Except.ok.injEq, Open]
  constructor
  · intro h
    exact ⟨⟨h.2.1, h.1⟩, h.2.2.symm⟩
  · intro h
    exact ⟨h.1.2, h.1.1, h.2.symm⟩

/-! ## Division by zero -/

theorem scoreDivisors_ne_zero (hprices : run.PricesPositive) {market : LomMarket}
    (hmarket : market ∈ run.unresolvedMarkets) {divisor : ℚ}
    (h : divisor ∈ run.scoreDivisors market) : divisor ≠ 0 := by
  unfold scoreDivisors at h
  split at h
  · exact absurd h List.not_mem_nil
  · next currentMarketPrice hprice =>
    obtain ⟨accountID, _, horders⟩ := List.mem_flatMap.mp h
    obtain ⟨order, _, hdivisor⟩ := List.mem_flatMap.mp horders
    cases List.mem_cons.mp hdivisor with
    | inl heq =>
      rw [heq]
      exact (hprices market hmarket currentMarketPrice hprice).ne'
    | inr hquantity =>
      split at hquantity
      · exact absurd hquantity List.not_mem_nil
      · next hqty =>
        rw [List.mem_singleton.mp hquantity]
        exact (not_le.mp hqty).ne'

theorem mem_allocationDivisors (haccount : accountID ∈ run.accounts)
    (hnetwork : run.OnOneNetwork accountID) {divisor : ℚ} :
    divisor ∈ run.allocationDivisors accountID ↔ divisor = run.totalSize ∨
      divisor = run.totalLOMScore ∨ divisor = run.prismToBeAllocatedThisRun ∨
      divisor = run.totalLOMScoreCompounded := by
  obtain ⟨net, hnet⟩ := Option.isSome_iff_exists.mp (netOf_isSome_iff.mpr hnetwork)
  unfold allocationDivisors
  rw [hnet]
  dsimp only
  rw [if_pos (sanityCheck_passes haccount)]
  split
  · simp only [List.mem_append, List.mem_cons, List.not_mem_nil, or_false]
    tauto
  · simp only [List.mem_append, List.mem_cons, List.not_mem_nil, or_false]
    tauto

theorem allocationDivisors_of_mem {divisor : ℚ}
    (h : divisor ∈ run.allocationDivisors accountID) : run.OnOneNetwork accountID := by
  apply netOf_isSome_iff.mp
  unfold allocationDivisors at h
  split at h
  · exact absurd h List.not_mem_nil
  · next net hnet =>
    rw [hnet]
    rfl

/-- What every account that can be paid is divided by is a divisor of the run. -/
theorem allocationDivisors_ne_zero (hdivisors : ∀ divisor ∈ run.divisors, divisor ≠ 0)
    (hnetwork : run.OnOneNetwork accountID) :
    run.totalSize ≠ 0 ∧ run.prismToBeAllocatedThisRun ≠ 0 := by
  have haccount : accountID ∈ run.accounts := by
    obtain ⟨_, hsome, _⟩ := hnetwork
    exact mem_accounts_iff.mpr hsome
  have hall : ∀ divisor ∈ run.allocationDivisors accountID, divisor ≠ 0 := by
    intro divisor hmem
    apply hdivisors
    exact List.mem_cons_of_mem _ (List.mem_append_right _ (List.mem_flatMap.mpr
      ⟨accountID, haccount, hmem⟩))
  have hmem := fun divisor => @mem_allocationDivisors run accountID haccount hnetwork divisor
  exact ⟨hall _ ((hmem _).mpr (.inl rfl)), hall _ ((hmem _).mpr (.inr (.inr (.inl rfl))))⟩

/-! ## The budget -/

theorem HasScore.keepsBudget (h : run.HasScore) (hprices : run.PricesPositive) (hopen : run.Open) :
    run.KeepsBudget (run.accounts.filterMap run.reward) where
  payouts reward hreward := by
    obtain ⟨accountID, haccount, hsome⟩ := List.mem_filterMap.mp hreward
    rw [reward_destAccountID hsome]
    exact (prismToSendUser_mem haccount).1
  allocation := payouts_le_allocation
  ratios reward hreward := by
    obtain ⟨accountID, haccount, hsome⟩ := List.mem_filterMap.mp hreward
    obtain ⟨net, hnet⟩ := netOf_of_reward hsome
    have hnetwork : run.OnOneNetwork accountID := netOf_isSome_iff.mp (by rw [hnet]; rfl)
    obtain ⟨_, order, hscores⟩ := (h hopen).2 ⟨accountID, hnetwork⟩
    have htotal := hscores.totals_pos.2.2
    rw [reward_eq haccount hnet, Option.some.injEq] at hsome
    refine ⟨run.compoundedLOM accountID / run.totalLOMScoreCompounded, ?_,
      share_mem_unit (fun account _ => compoundedLOM_nonneg account) htotal haccount⟩
    rw [← hsome]
    exact if_neg htotal.ne'
  divisors divisor hdivisor := by
    cases List.mem_cons.mp hdivisor with
    | inl heq =>
      rw [heq]
      exact cronJobsPerDay_ne_zero_iff.mpr (h hopen).1
    | inr hrest =>
      cases List.mem_append.mp hrest with
      | inl hscore =>
        obtain ⟨market, hmarket, hmem⟩ := List.mem_flatMap.mp hscore
        exact scoreDivisors_ne_zero hprices (List.mem_filter.mp hmarket).1 hmem
      | inr hallocation =>
        obtain ⟨accountID, haccount, hmem⟩ := List.mem_flatMap.mp hallocation
        have hnetwork := allocationDivisors_of_mem hmem
        obtain ⟨hbefore, order, hscores⟩ := (h hopen).2 ⟨accountID, hnetwork⟩
        obtain ⟨hsize, hscore, hcompounded⟩ := hscores.totals_pos
        have hallocated := (prismToBeAllocatedThisRun_ne_zero_iff hopen (h hopen).1).mpr hbefore
        obtain heq | heq | heq | heq := (mem_allocationDivisors haccount hnetwork).mp hmem
        · rw [heq]
          exact hsize.ne'
        · rw [heq]
          exact hscore.ne'
        · rw [heq]
          exact hallocated
        · rw [heq]
          exact hcompounded.ne'

theorem KeepsBudget.hasScore {rewards : List CreatePrismRewardParams}
    (h : run.KeepsBudget rewards) (hprices : run.PricesPositive) : run.HasScore := by
  intro hopen
  have hfires := cronJobsPerDay_ne_zero_iff.mp (h.divisors _ List.mem_cons_self)
  refine ⟨hfires, ?_⟩
  intro hpaid
  obtain ⟨accountID, hnetwork⟩ := hpaid
  obtain ⟨hsize, hallocated⟩ := allocationDivisors_ne_zero h.divisors hnetwork
  refine ⟨(prismToBeAllocatedThisRun_ne_zero_iff hopen hfires).mp hallocated, ?_⟩
  by_contra hnone
  exact hsize (totals_eq_zero hprices hnone).1

end LomRun

/-- A run keeps its budget exactly when it has a score to share it by. -/
theorem lom_keepsBudget_iff {run : LomRun} (hprices : run.PricesPositive) :
    ((∀ rewards, run.calcLOM = .ok rewards → run.KeepsBudget rewards) ↔ run.HasScore) ∧
      (run.prismToBeAllocatedThisRun * 10 ^ run.tokenDecimals < 2 ^ 63 →
        ∀ rewards, run.calcLOM = .ok rewards → ∀ reward ∈ rewards, reward.nPrismScaled =
          ⌊run.prismToSendUser reward.destAccountID * 10 ^ run.tokenDecimals⌋) := by
  constructor
  · constructor
    · intro hkeeps hopen
      exact (hkeeps _ (LomRun.calcLOM_ok_iff.mpr ⟨hopen, rfl⟩)).hasScore hprices hopen
    · intro h rewards hrewards
      obtain ⟨hopen, rfl⟩ := LomRun.calcLOM_ok_iff.mp hrewards
      exact h.keepsBudget hprices hopen
  · intro hfits rewards hrewards reward hreward
    rw [(LomRun.calcLOM_ok_iff.mp hrewards).2] at hreward
    exact LomRun.nPrismScaled_of_fits hfits hreward

/-! ## A run with one order -/

def onlyOrder (isSecondary : Bool) : LomOrder where
  marketID := 7
  accountID := "0.0.1001".toList
  isSecondary
  priceUsd := 1 / 2
  qtyOrig := 10
  qtyRem := 10
  createdAt := launchDate
  cancelledAt := false
  fullyMatchedAt := false
  evictedAt := false

def onlyMarket : LomMarket := ⟨7, "testnet".toList, true⟩

def oneOrderRun (isSecondary : Bool) : LomRun where
  cronRanAt := launchDate
  now := launchDate
  schedule := daily
  tokenDecimals := 6
  unresolvedMarkets := [onlyMarket]
  orders := [onlyOrder isSecondary]
  getLatestPriceByMarket := fun _ => some (1 / 2)
  isReadable := fun _ _ => true

section OneOrder

variable (isSecondary : Bool)

theorem oneOrderRun_prices : (oneOrderRun isSecondary).PricesPositive := by
  intro market _ currentMarketPrice hprice
  cases hprice
  norm_num

theorem oneOrderRun_reads :
    (oneOrderRun isSecondary).Reads onlyMarket (onlyOrder isSecondary).accountID :=
  ⟨List.mem_singleton_self _, rfl, rfl, rfl, onlyOrder isSecondary, List.mem_singleton_self _, rfl,
    rfl, rfl⟩

theorem oneOrderRun_network :
    (oneOrderRun isSecondary).OnOneNetwork (onlyOrder isSecondary).accountID := by
  refine ⟨onlyMarket.net, ⟨onlyMarket, oneOrderRun_reads isSecondary⟩, ?_⟩
  intro market hreads
  rw [List.mem_singleton.mp hreads.unresolved]

theorem oneOrderRun_open : (oneOrderRun isSecondary).Open := by
  have hend : launchDate ≤ lomEnd := by decide
  exact ⟨le_rfl, hend⟩

end OneOrder

theorem lom_keepsBudget_iff_sample : (oneOrderRun false).KeepsBudget
    ((oneOrderRun false).accounts.filterMap (oneOrderRun false).reward) := by
  refine (lom_keepsBudget_iff (oneOrderRun_prices false)).1.mpr ?_ _
    (LomRun.calcLOM_ok_iff.mpr ⟨oneOrderRun_open false, rfl⟩)
  intro _
  refine ⟨⟨1200, by decide, by decide +kernel⟩, ?_⟩
  intro _
  refine ⟨by decide +kernel, onlyOrder false, onlyMarket, _, oneOrderRun_reads false,
    List.mem_singleton_self _, rfl, rfl, by decide +kernel, rfl, ?_⟩
  norm_num [onlyOrder]

/-- The only order is secondary: its account is recorded with a ratio that is no number. -/
theorem lom_ratio_undefined :
    (oneOrderRun true).PricesPositive ∧ ∃ rewards, (oneOrderRun true).calcLOM = .ok rewards ∧
      (∃ reward ∈ rewards, reward.ratioOfAllocation = none) ∧
      ¬(oneOrderRun true).KeepsBudget rewards := by
  have hprices := oneOrderRun_prices true
  have hnone : ¬∃ order, (oneOrderRun true).Scores order := by
    intro hsome
    obtain ⟨order, _, _, _, hmem, _, _, _, hprimary, _⟩ := hsome
    rw [List.mem_singleton.mp hmem] at hprimary
    cases hprimary
  have hnetwork := oneOrderRun_network true
  have haccount := LomRun.mem_accounts_iff.mpr ⟨onlyMarket, oneOrderRun_reads true⟩
  obtain ⟨net, hnet⟩ := Option.isSome_iff_exists.mp (LomRun.netOf_isSome_iff.mpr hnetwork)
  refine ⟨hprices, _, LomRun.calcLOM_ok_iff.mpr ⟨oneOrderRun_open true, rfl⟩,
    ⟨_, List.mem_filterMap.mpr ⟨_, haccount, LomRun.reward_eq haccount hnet⟩, ?_⟩, ?_⟩
  · exact if_pos (LomRun.totals_eq_zero hprices hnone).2
  · intro hkeeps
    exact hnone ((hkeeps.hasScore hprices (oneOrderRun_open true)).2 ⟨_, hnetwork⟩).2

end PrismBackend.Rewards
