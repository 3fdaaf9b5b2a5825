import Mathlib.Algebra.BigOperators.Ring.Finset
import Mathlib.Algebra.Order.BigOperators.Group.Finset
import Mathlib.Algebra.Order.Monoid.WithTop
import Mathlib.Data.List.GetD
import Mathlib.Tactic.FieldSimp
import PrismBackend.Lib.Calendar
import PrismBackend.Lib.Entries
import PrismBackend.Rewards.LimitOrderMining

/-!
# Rewards: vesting

What the runs of limit order mining allocate in each year of the campaign, for
any calendar, launch date, vesting schedule and cron schedule.
-/

namespace PrismBackend.Rewards

open PrismBackend.Lib

/-- The launch date, the yearly allotments and the cron schedule of the job. -/
structure LomCampaign where
  calendar : Calendar
  launchDate : calendar.Date
  vestingSchedule : List Nat
  schedule : Schedule

namespace LomCampaign

variable (campaign : LomCampaign)

/-! ## One run -/

def lomRewardsForYearAtTime (at_ : Int) : ℚ :=
  if at_ < campaign.launchDate.instant then 0
  else
    let yearIndex := campaign.calendar.year at_ - campaign.launchDate.year
    let yearIndex :=
      if at_ < campaign.launchDate.addYears yearIndex then yearIndex - 1 else yearIndex
    if yearIndex < 0 then 0
    else if (campaign.vestingSchedule.length : Int) ≤ yearIndex then 0
    else campaign.vestingSchedule.getD yearIndex.toNat 0

def lomRewardsPerDayAtTime (at_ : Int) : ℚ :=
  let allocationForCurrentYear := campaign.lomRewardsForYearAtTime at_
  if allocationForCurrentYear ≤ 0 then 0 else allocationForCurrentYear / 365

/-- The allocation of a run, which is no finite number for a schedule without a counted firing. -/
def prismToBeAllocatedThisRun (now : Int) : WithTop ℚ :=
  (quotient (campaign.lomRewardsPerDayAtTime now) (cronJobsPerDay campaign.schedule)).elim ⊤ (↑)

def finish : Int := campaign.launchDate.addYears campaign.vestingSchedule.length

/-- The start of `CalcLOM`, up to the allocation of the run. -/
def calcLOM (now : Int) : Except String (WithTop ℚ) := do
  revertIf (campaign.finish < now) "LOM initiative has finished. Date is too far in the future."
  revertIf (now < campaign.launchDate.instant)
    "LOM initiative has not started yet. Date is too far in the past."
  .ok (campaign.prismToBeAllocatedThisRun now)

/-! ## Sequences of runs -/

def allocatedBy (now : Int) : WithTop ℚ :=
  match campaign.calcLOM now with
  | .ok amount => amount
  | .error _ => 0

def allocated (runs : List Int) : WithTop ℚ := (runs.map campaign.allocatedBy).sum

def isInYear (k : Nat) (now : Int) : Bool :=
  decide (campaign.launchDate.addYears k ≤ now) &&
    decide (now < campaign.launchDate.addYears (k + 1))

def runsOfYear (runs : List Int) (k : Nat) : List Int := runs.filter (campaign.isInYear k)

def allotment (k : Nat) : Nat := campaign.vestingSchedule.getD k 0

def vested (moment : Int) : Nat :=
  ∑ k ∈ Finset.range campaign.vestingSchedule.length,
    if campaign.launchDate.addYears k ≤ moment then campaign.allotment k else 0

/-- At each moment, what was allocated is within what has vested, and what was allocated in each
campaign year is within the allotment of the year. -/
def KeepsToSchedule (runs : List Int) : Prop :=
  ∀ moment : Int,
    let past := runs.filter (· ≤ moment)
    campaign.allocated past ≤ ((campaign.vested moment : ℚ) : WithTop ℚ) ∧
      ∀ k < campaign.vestingSchedule.length,
        campaign.allocated (campaign.runsOfYear past k) ≤
          ((campaign.allotment k : ℚ) : WithTop ℚ)

/-- The condition on the schedule and the runs: a campaign year with an allotment has at most 365
runs for 366 counted firings, and there is a counted firing if there is a run at all. -/
def KeepsPace (runs : List Int) : Prop :=
  (cronJobs campaign.schedule = 0 →
    ∀ now ∈ runs, now < campaign.launchDate.instant ∨ campaign.finish < now) ∧
  ∀ k < campaign.vestingSchedule.length,
    campaign.allotment k = 0 ∨
      366 * (campaign.runsOfYear runs k).length ≤ 365 * cronJobs campaign.schedule

/-! ## The campaign year of a run -/

theorem isInYear_iff (k : Nat) (now : Int) :
    campaign.isInYear k now = true ↔ campaign.launchDate.yearsUntil now = k := by
  rw [isInYear, Bool.and_eq_true, decide_eq_true_iff, decide_eq_true_iff,
    Calendar.Date.yearsUntil_eq_iff]

/-- The index that the code computes is the number of whole years since the launch. -/
theorem lomRewardsForYearAtTime_of_isInYear {k : Nat} {now : Int}
    (hyear : campaign.isInYear k now = true) :
    campaign.lomRewardsForYearAtTime now = campaign.allotment k := by
  rw [isInYear_iff] at hyear
  have hlaunch : campaign.launchDate.instant ≤ now := by
    have hyears := (campaign.launchDate.le_yearsUntil_iff now 0).mp (by omega)
    rwa [Calendar.Date.addYears_zero] at hyears
  rw [lomRewardsForYearAtTime, if_neg (by omega)]
  change (if campaign.launchDate.yearsUntil now < 0 then (0 : ℚ)
    else if (campaign.vestingSchedule.length : Int) ≤ campaign.launchDate.yearsUntil now then 0
    else campaign.vestingSchedule.getD (campaign.launchDate.yearsUntil now).toNat 0) = _
  rw [hyear, if_neg (by omega), allotment, Int.toNat_natCast]
  split
  case isTrue hlength =>
    rw [List.getD_eq_default _ _ (by omega), Nat.cast_zero]
  case isFalse => rfl

theorem exists_isInYear {now : Int} (hlaunch : campaign.launchDate.instant ≤ now) :
    ∃ k : Nat, campaign.isInYear k now = true := by
  have hyears : 0 ≤ campaign.launchDate.yearsUntil now := by
    rw [Calendar.Date.le_yearsUntil_iff, Calendar.Date.addYears_zero]
    exact hlaunch
  exact ⟨(campaign.launchDate.yearsUntil now).toNat,
    (campaign.isInYear_iff _ _).mpr (by omega)⟩

theorem allotment_of_length_le {k : Nat} (hk : campaign.vestingSchedule.length ≤ k) :
    campaign.allotment k = 0 :=
  List.getD_eq_default _ _ hk

theorem lt_finish_iff {k : Nat} {now : Int} (hyear : campaign.isInYear k now = true) :
    now < campaign.finish ↔ k < campaign.vestingSchedule.length := by
  rw [isInYear_iff] at hyear
  have hfinish := campaign.launchDate.le_yearsUntil_iff now campaign.vestingSchedule.length
  rw [hyear] at hfinish
  rw [finish, ← not_le, ← hfinish]
  omega

theorem launch_le_of_isInYear {k : Nat} {now : Int} (hyear : campaign.isInYear k now = true) :
    campaign.launchDate.instant ≤ now := by
  rw [isInYear_iff] at hyear
  have hyears := (campaign.launchDate.le_yearsUntil_iff now 0).mp (by omega)
  rwa [Calendar.Date.addYears_zero] at hyears

/-! ## The rate of a campaign year -/

theorem calcLOM_of_isIn {now : Int} (hlaunch : campaign.launchDate.instant ≤ now)
    (hfinish : now ≤ campaign.finish) :
    campaign.calcLOM now = .ok (campaign.prismToBeAllocatedThisRun now) := by
  unfold calcLOM revertIf
  rw [if_neg (by omega), if_neg (by omega)]
  rfl

theorem allocatedBy_of_isIn {now : Int} (hlaunch : campaign.launchDate.instant ≤ now)
    (hfinish : now ≤ campaign.finish) :
    campaign.allocatedBy now = campaign.prismToBeAllocatedThisRun now := by
  rw [allocatedBy, campaign.calcLOM_of_isIn hlaunch hfinish]

theorem allocatedBy_of_isOut {now : Int}
    (hout : now < campaign.launchDate.instant ∨ campaign.finish < now) :
    campaign.allocatedBy now = 0 := by
  have herror : ∃ msg, campaign.calcLOM now = .error msg := by
    unfold calcLOM revertIf
    by_cases hfinish : campaign.finish < now
    · rw [if_pos hfinish]
      exact ⟨_, rfl⟩
    · rw [if_neg hfinish, if_pos (by omega)]
      exact ⟨_, rfl⟩
  obtain ⟨msg, herror⟩ := herror
  rw [allocatedBy, herror]

theorem quotient_zero (x : ℚ) : quotient x 0 = none := if_pos rfl

theorem quotient_of_ne_zero (x : ℚ) {y : ℚ} (hy : y ≠ 0) : quotient x y = some (x / y) := if_neg hy

/-- Without a counted firing the allocation of a run is no finite number. -/
theorem prismToBeAllocatedThisRun_eq_top (hjobs : cronJobs campaign.schedule = 0) (now : Int) :
    campaign.prismToBeAllocatedThisRun now = ⊤ := by
  have hperDay : cronJobsPerDay campaign.schedule = 0 := by
    rw [cronJobsPerDay, hjobs, Nat.cast_zero, zero_div]
  rw [prismToBeAllocatedThisRun, hperDay, quotient_zero, Option.elim_none]

def rate (k : Nat) : ℚ := campaign.allotment k / 365 / (cronJobs campaign.schedule / 366)

theorem prismToBeAllocatedThisRun_of_isInYear (hjobs : 0 < cronJobs campaign.schedule) {k : Nat}
    {now : Int} (hyear : campaign.isInYear k now = true) :
    campaign.prismToBeAllocatedThisRun now = (campaign.rate k : ℚ) := by
  have hperDay : cronJobsPerDay campaign.schedule ≠ 0 :=
    div_ne_zero (Nat.cast_ne_zero.mpr hjobs.ne') (by norm_num)
  have hday : campaign.lomRewardsPerDayAtTime now = (campaign.allotment k : ℚ) / 365 := by
    rw [lomRewardsPerDayAtTime, campaign.lomRewardsForYearAtTime_of_isInYear hyear]
    split
    case isTrue hzero =>
      have hallotment : (campaign.allotment k : ℚ) = 0 := le_antisymm hzero (Nat.cast_nonneg _)
      rw [hallotment, zero_div]
    case isFalse => rfl
  rw [prismToBeAllocatedThisRun, quotient_of_ne_zero _ hperDay, hday, Option.elim_some, rate,
    cronJobsPerDay]

theorem rate_of_length_le {k : Nat} (hk : campaign.vestingSchedule.length ≤ k) :
    campaign.rate k = 0 := by
  rw [rate, campaign.allotment_of_length_le hk, Nat.cast_zero, zero_div, zero_div]

/-- A run allocates the rate of its year, and nothing outside the years of the campaign. -/
theorem allocatedBy_eq_sum (hjobs : 0 < cronJobs campaign.schedule) (now : Int) :
    campaign.allocatedBy now =
      ((∑ k ∈ Finset.range campaign.vestingSchedule.length,
        if campaign.isInYear k now then campaign.rate k else 0 : ℚ) : WithTop ℚ) := by
  by_cases hlaunch : campaign.launchDate.instant ≤ now
  · obtain ⟨k, hyear⟩ := campaign.exists_isInYear hlaunch
    have hsum : (∑ j ∈ Finset.range campaign.vestingSchedule.length,
        if campaign.isInYear j now then campaign.rate j else 0) = campaign.rate k := by
      have honly (j : Nat) : campaign.isInYear j now = true ↔ j = k := by
        rw [isInYear_iff] at hyear ⊢
        omega
      simp only [honly, Finset.sum_ite_eq', Finset.mem_range]
      split
      case isTrue => rfl
      case isFalse hlength => rw [campaign.rate_of_length_le (by omega)]
    rw [hsum]
    by_cases hfinish : now ≤ campaign.finish
    · rw [campaign.allocatedBy_of_isIn hlaunch hfinish,
        campaign.prismToBeAllocatedThisRun_of_isInYear hjobs hyear]
    · have hlength := campaign.lt_finish_iff hyear
      rw [campaign.allocatedBy_of_isOut (Or.inr (by omega)),
        campaign.rate_of_length_le (by omega), WithTop.coe_zero]
  · have hsum : (∑ j ∈ Finset.range campaign.vestingSchedule.length,
        if campaign.isInYear j now then campaign.rate j else 0) = 0 := by
      apply Finset.sum_eq_zero
      intro j _
      rw [if_neg]
      intro hyear
      exact hlaunch (campaign.launch_le_of_isInYear hyear)
    rw [hsum, campaign.allocatedBy_of_isOut (Or.inl (by omega)), WithTop.coe_zero]

/-! ## What a sequence of runs allocates -/

theorem allocated_cons (now : Int) (runs : List Int) :
    campaign.allocated (now :: runs) = campaign.allocatedBy now + campaign.allocated runs := by
  rw [allocated, List.map_cons, List.sum_cons, allocated]

theorem allocated_of_isOut {runs : List Int}
    (hout : ∀ now ∈ runs, now < campaign.launchDate.instant ∨ campaign.finish < now) :
    campaign.allocated runs = 0 := by
  induction runs with
  | nil => rfl
  | cons now runs ih =>
      have hnow := hout now List.mem_cons_self
      have hruns := ih fun later hlater => hout later (List.mem_cons_of_mem now hlater)
      rw [allocated_cons, campaign.allocatedBy_of_isOut hnow, hruns, add_zero]

theorem allocated_eq_top {runs : List Int} {now : Int} (hmem : now ∈ runs)
    (htop : campaign.allocatedBy now = ⊤) : campaign.allocated runs = ⊤ := by
  induction runs with
  | nil => cases hmem
  | cons first runs ih =>
      rw [allocated_cons]
      cases hmem with
      | head => rw [htop, WithTop.top_add]
      | tail _ hmem => rw [ih hmem, WithTop.add_top]

theorem allocated_eq_sum (hjobs : 0 < cronJobs campaign.schedule) (runs : List Int) :
    campaign.allocated runs =
      ((∑ k ∈ Finset.range campaign.vestingSchedule.length,
        (campaign.runsOfYear runs k).length * campaign.rate k : ℚ) : WithTop ℚ) := by
  induction runs with
  | nil => simp [allocated, runsOfYear]
  | cons now runs ih =>
      rw [allocated_cons, ih, campaign.allocatedBy_eq_sum hjobs, ← WithTop.coe_add,
        ← Finset.sum_add_distrib]
      congr 1
      apply Finset.sum_congr rfl
      intro k _
      rw [runsOfYear, runsOfYear, List.filter_cons]
      split
      case isTrue =>
        rw [List.length_cons, Nat.cast_add_one]
        ring
      case isFalse => rw [zero_add]

theorem runsOfYear_runsOfYear (runs : List Int) (j k : Nat) :
    campaign.runsOfYear (campaign.runsOfYear runs k) j =
      if j = k then campaign.runsOfYear runs k else [] := by
  split
  case isTrue hyear =>
    rw [hyear, runsOfYear, runsOfYear, List.filter_filter]
    simp only [Bool.and_self]
  case isFalse hyear =>
    apply List.filter_eq_nil_iff.mpr
    intro now hmem hj
    have hk := (List.mem_filter.mp hmem).2
    rw [isInYear_iff] at hj hk
    omega

theorem allocated_runsOfYear (hjobs : 0 < cronJobs campaign.schedule) (runs : List Int) {k : Nat}
    (hk : k < campaign.vestingSchedule.length) :
    campaign.allocated (campaign.runsOfYear runs k) =
      (((campaign.runsOfYear runs k).length * campaign.rate k : ℚ) : WithTop ℚ) := by
  rw [campaign.allocated_eq_sum hjobs, WithTop.coe_inj]
  rw [Finset.sum_eq_single_of_mem k (Finset.mem_range.mpr hk)]
  · rw [runsOfYear_runsOfYear, if_pos rfl]
  · intro j _ hj
    rw [runsOfYear_runsOfYear, if_neg hj, List.length_nil, Nat.cast_zero, zero_mul]

/-- An allotment pays for 365 runs where 366 firings are counted. -/
theorem mul_rate_le_iff (hjobs : 0 < cronJobs campaign.schedule) (n k : Nat) :
    n * campaign.rate k ≤ campaign.allotment k ↔
      campaign.allotment k = 0 ∨ 366 * n ≤ 365 * cronJobs campaign.schedule := by
  have hcount : (0 : ℚ) < 365 * cronJobs campaign.schedule := by
    have hcast : (0 : ℚ) < cronJobs campaign.schedule := by exact_mod_cast hjobs
    linarith
  have hrate : n * campaign.rate k =
      campaign.allotment k * (366 * n) / (365 * cronJobs campaign.schedule) := by
    unfold rate
    field_simp
  rw [hrate, div_le_iff₀ hcount]
  rcases Nat.eq_zero_or_pos (campaign.allotment k) with hzero | hpos
  · rw [hzero, Nat.cast_zero, zero_mul, zero_mul]
    exact iff_of_true le_rfl (Or.inl rfl)
  · have hallotment : (0 : ℚ) < campaign.allotment k := by exact_mod_cast hpos
    rw [mul_le_mul_iff_right₀ hallotment]
    constructor
    · intro h
      exact Or.inr (by exact_mod_cast h)
    · rintro (h | h)
      · omega
      · exact_mod_cast h

/-! ## The schedule is kept -/

/-- The past runs of a campaign year that has not begun. -/
theorem runsOfYear_past_of_lt {k : Nat} {moment : Int}
    (hmoment : moment < campaign.launchDate.addYears k) (runs : List Int) :
    campaign.runsOfYear (runs.filter (· ≤ moment)) k = [] := by
  apply List.filter_eq_nil_iff.mpr
  intro now hmem hyear
  have hpast := of_decide_eq_true (List.mem_filter.mp hmem).2
  rw [isInYear, Bool.and_eq_true, decide_eq_true_iff] at hyear
  omega

/-- At the end of a campaign year all its runs are past. -/
theorem runsOfYear_past_of_end (runs : List Int) (k : Nat) :
    campaign.runsOfYear (runs.filter (· ≤ campaign.launchDate.addYears (k + 1))) k =
      campaign.runsOfYear runs k := by
  rw [runsOfYear, runsOfYear, List.filter_filter]
  apply List.filter_congr
  intro now _
  rw [isInYear]
  by_cases hend : now < campaign.launchDate.addYears (k + 1)
  · simp [hend, hend.le]
  · simp [hend]

theorem runsOfYear_past_length_le (runs : List Int) (moment : Int) (k : Nat) :
    (campaign.runsOfYear (runs.filter (· ≤ moment)) k).length ≤
      (campaign.runsOfYear runs k).length :=
  (List.filter_sublist.filter _).length_le

theorem KeepsPace.year_le {campaign : LomCampaign} {runs : List Int} (h : campaign.KeepsPace runs)
    (hjobs : 0 < cronJobs campaign.schedule) (moment : Int) {k : Nat}
    (hk : k < campaign.vestingSchedule.length) :
    ((campaign.runsOfYear (runs.filter (· ≤ moment)) k).length * campaign.rate k : ℚ) ≤
      campaign.allotment k := by
  rw [campaign.mul_rate_le_iff hjobs]
  have hlength := campaign.runsOfYear_past_length_le runs moment k
  apply (h.2 k hk).imp_right
  intro hpace
  omega

theorem KeepsPace.keepsToSchedule {campaign : LomCampaign} {runs : List Int}
    (h : campaign.KeepsPace runs) : campaign.KeepsToSchedule runs := by
  intro moment past
  rcases Nat.eq_zero_or_pos (cronJobs campaign.schedule) with hjobs | hjobs
  · have hout : ∀ now ∈ past, now < campaign.launchDate.instant ∨ campaign.finish < now :=
      fun now hmem => h.1 hjobs now (List.mem_of_mem_filter hmem)
    constructor
    · rw [campaign.allocated_of_isOut hout]
      exact_mod_cast Nat.zero_le _
    · intro k _
      have hyear : ∀ now ∈ campaign.runsOfYear past k,
          now < campaign.launchDate.instant ∨ campaign.finish < now :=
        fun now hmem => hout now (List.mem_of_mem_filter hmem)
      rw [campaign.allocated_of_isOut hyear]
      exact_mod_cast Nat.zero_le _
  · constructor
    · rw [campaign.allocated_eq_sum hjobs, WithTop.coe_le_coe, vested, Nat.cast_sum]
      apply Finset.sum_le_sum
      intro k hk
      split
      case isTrue => exact h.year_le hjobs moment (Finset.mem_range.mp hk)
      case isFalse hmoment =>
        rw [campaign.runsOfYear_past_of_lt (by omega), List.length_nil, Nat.cast_zero, zero_mul]
    · intro k hk
      rw [campaign.allocated_runsOfYear hjobs past hk, WithTop.coe_le_coe]
      exact h.year_le hjobs moment hk

/-- Without a counted firing, a run within the campaign allocates more than any number. -/
theorem KeepsToSchedule.isOut {campaign : LomCampaign} {runs : List Int}
    (h : campaign.KeepsToSchedule runs) (hjobs : cronJobs campaign.schedule = 0) :
    ∀ now ∈ runs, now < campaign.launchDate.instant ∨ campaign.finish < now := by
  intro now hmem
  by_contra hin
  rw [not_or, not_lt, not_lt] at hin
  have htop : campaign.allocatedBy now = ⊤ := by
    rw [campaign.allocatedBy_of_isIn hin.1 hin.2, campaign.prismToBeAllocatedThisRun_eq_top hjobs]
  have hpast : now ∈ runs.filter (· ≤ now) :=
    List.mem_filter.mpr ⟨hmem, decide_eq_true le_rfl⟩
  have hvested := (h now).1
  rw [campaign.allocated_eq_top hpast htop] at hvested
  exact WithTop.coe_ne_top (top_le_iff.mp hvested)

theorem runsOfYear_of_isOut {runs : List Int}
    (hout : ∀ now ∈ runs, now < campaign.launchDate.instant ∨ campaign.finish < now) {k : Nat}
    (hk : k < campaign.vestingSchedule.length) : campaign.runsOfYear runs k = [] := by
  apply List.filter_eq_nil_iff.mpr
  intro now hmem hyear
  have hlaunch := campaign.launch_le_of_isInYear hyear
  have hfinish := (campaign.lt_finish_iff hyear).mpr hk
  have hnow := hout now hmem
  omega

theorem KeepsToSchedule.keepsPace {campaign : LomCampaign} {runs : List Int}
    (h : campaign.KeepsToSchedule runs) : campaign.KeepsPace runs := by
  constructor
  · exact h.isOut
  · intro k hk
    rcases Nat.eq_zero_or_pos (cronJobs campaign.schedule) with hjobs | hjobs
    · rw [campaign.runsOfYear_of_isOut (h.isOut hjobs) hk]
      exact Or.inr (Nat.zero_le _)
    · have hyear := (h (campaign.launchDate.addYears (k + 1))).2 k hk
      rw [runsOfYear_past_of_end, campaign.allocated_runsOfYear hjobs runs hk,
        WithTop.coe_le_coe, campaign.mul_rate_le_iff hjobs] at hyear
      exact hyear

/-- The runs keep to the vesting schedule exactly where no campaign year has more than 365 runs
for each 366 firings that the schedule was counted with. -/
theorem keepsToSchedule_iff (runs : List Int) :
    campaign.KeepsToSchedule runs ↔ campaign.KeepsPace runs :=
  ⟨KeepsToSchedule.keepsPace, KeepsPace.keepsToSchedule⟩

end LomCampaign

/-! ## The same runs on each day -/

def runOfDay {dayLength : Nat} (start : Int) (day : Nat) (time : Fin dayLength) : Int :=
  start + day * dayLength + time

/-- Runs at the same times of each day, on as many days from an instant on. -/
def dailyRuns {dayLength : Nat} (start : Int) (times : List (Fin dayLength)) (days : Nat) :
    List Int :=
  (List.range days).flatMap fun day => times.map (runOfDay start day)

def LomCampaign.ofDate {dayLength : Nat} (launchDate : Calendar.GregorianDate dayLength)
    (vestingSchedule : List Nat) (schedule : Schedule) : LomCampaign where
  calendar := Calendar.gregorian dayLength launchDate.dayLength_pos
  launchDate := launchDate.date
  vestingSchedule := vestingSchedule
  schedule := schedule

section

variable {dayLength : Nat} (launchDate : Calendar.GregorianDate dayLength)
  (vestingSchedule : List Nat) (schedule : Schedule)

theorem mul_dayLength_le_iff (days day : Nat) (time : Fin dayLength) :
    (days * dayLength : Int) ≤ day * dayLength + time ↔ days ≤ day := by
  have htime := time.isLt
  constructor
  · intro h
    by_contra hlt
    have hmul : ((day + 1 : Nat) : Int) * dayLength ≤ days * dayLength :=
      Int.mul_le_mul_of_nonneg_right (by omega) (by omega)
    rw [Nat.cast_add_one, add_mul, one_mul] at hmul
    omega
  · intro h
    have hmul : (days * dayLength : Int) ≤ day * dayLength :=
      Int.mul_le_mul_of_nonneg_right (by omega) (by omega)
    omega

/-- A run is in a campaign year exactly where its day is. -/
theorem isInYear_daily (k day : Nat) (time : Fin dayLength) :
    (LomCampaign.ofDate launchDate vestingSchedule schedule).isInYear k
        (runOfDay launchDate.date.instant day time) =
      (decide (launchDate.daysUntil k ≤ day) && decide (day < launchDate.daysUntil (k + 1))) := by
  have hyear := launchDate.addYears_eq k
  have hnext := launchDate.addYears_eq (k + 1)
  have hstart := mul_dayLength_le_iff (launchDate.daysUntil k) day time
  have hend := mul_dayLength_le_iff (launchDate.daysUntil (k + 1)) day time
  rw [Nat.cast_add_one] at hnext
  unfold runOfDay
  change (decide (launchDate.date.addYears k ≤ _) &&
    decide (_ < launchDate.date.addYears (k + 1))) = _
  rw [hyear, hnext]
  congr 1
  · rw [decide_eq_decide, ← hstart]
    omega
  · rw [decide_eq_decide, ← not_le, ← not_le, ← hend]
    omega

theorem runsOfYear_daily_length (times : List (Fin dayLength)) (k days : Nat) :
    ((LomCampaign.ofDate launchDate vestingSchedule schedule).runsOfYear
        (dailyRuns launchDate.date.instant times days) k).length =
      (min days (launchDate.daysUntil (k + 1)) - min days (launchDate.daysUntil k)) *
        times.length := by
  rw [← length_filter_range]
  unfold LomCampaign.runsOfYear dailyRuns
  induction List.range days with
  | nil =>
      rw [List.flatMap_nil, List.filter_nil, List.filter_nil, List.length_nil, List.length_nil,
        zero_mul]
  | cons day rest ih =>
      rw [List.flatMap_cons, List.filter_append, List.length_append, ih, List.filter_cons]
      have hday : (List.filter ((LomCampaign.ofDate launchDate vestingSchedule schedule).isInYear k)
          (times.map (runOfDay launchDate.date.instant day))).length =
          (times.filter fun _ => decide (launchDate.daysUntil k ≤ day) &&
            decide (day < launchDate.daysUntil (k + 1))).length := by
        rw [List.filter_map, List.length_map]
        congr 2
        ext time
        exact isInYear_daily launchDate vestingSchedule schedule k day time
      rw [hday]
      split
      case isTrue hbetween =>
        simp only [hbetween, List.filter_true, List.length_cons]
        ring
      case isFalse hbetween =>
        rw [Bool.not_eq_true] at hbetween
        simp only [hbetween, List.filter_false, List.length_nil, zero_add]

/-- Runs at the same times of each day keep to the schedule exactly where no campaign year with an
allotment has a leap day. -/
theorem keepsToSchedule_daily_iff {times : List (Fin dayLength)} (htimes : times ≠ [])
    (hjobs : cronJobs schedule = 366 * times.length) {days : Nat}
    (hdays : launchDate.daysUntil vestingSchedule.length ≤ days) :
    (LomCampaign.ofDate launchDate vestingSchedule schedule).KeepsToSchedule
        (dailyRuns launchDate.date.instant times days) ↔
      ∀ k < vestingSchedule.length,
        vestingSchedule.getD k 0 = 0 ∨
          launchDate.daysUntil (k + 1) ≤ launchDate.daysUntil k + 365 := by
  have hpos : 0 < times.length := List.length_pos_iff.mpr htimes
  have hpace (k : Nat) (hk : k < vestingSchedule.length) :
      366 * ((LomCampaign.ofDate launchDate vestingSchedule schedule).runsOfYear
          (dailyRuns launchDate.date.instant times days) k).length ≤ 365 * cronJobs schedule ↔
        launchDate.daysUntil (k + 1) ≤ launchDate.daysUntil k + 365 := by
    have hmono := launchDate.daysUntil_strictMono.monotone
    have hyear := hmono (show k ≤ k + 1 by omega)
    have hend := hmono (show k + 1 ≤ vestingSchedule.length by omega)
    rw [runsOfYear_daily_length, hjobs, Nat.min_eq_right (by omega), Nat.min_eq_right (by omega)]
    calc 366 * ((launchDate.daysUntil (k + 1) - launchDate.daysUntil k) * times.length) ≤
          365 * (366 * times.length)
        ↔ (launchDate.daysUntil (k + 1) - launchDate.daysUntil k) * (366 * times.length) ≤
          365 * (366 * times.length) := by rw [Nat.mul_left_comm]
      _ ↔ launchDate.daysUntil (k + 1) - launchDate.daysUntil k ≤ 365 :=
          Nat.mul_le_mul_right_iff (by omega)
      _ ↔ launchDate.daysUntil (k + 1) ≤ launchDate.daysUntil k + 365 := by omega
  constructor
  · intro h k hk
    exact (h.keepsPace.2 k hk).imp_right (hpace k hk).mp
  · intro h
    apply LomCampaign.KeepsPace.keepsToSchedule
    constructor
    · intro hnone
      change cronJobs schedule = 0 at hnone
      omega
    · intro k hk
      exact (h k hk).imp_right (hpace k hk).mpr

end

/-! ## The campaign -/

def lomLaunchDate : Calendar.GregorianDate (86400 * second) where
  year := 2026
  monthDay := { month := 3, day := 1, one_le_day := by decide, day_le := by decide }
  time := ⟨0, by decide⟩

def lomCampaign (schedule : Schedule) : LomCampaign :=
  LomCampaign.ofDate lomLaunchDate lomRewardsVestingSchedule schedule

theorem lomLaunchDate_instant : lomLaunchDate.date.instant = launchDate := by
  decide +kernel

theorem lomAnniversaries_eq :
    lomAnniversaries =
      (List.range 6).map fun k : Nat => (lomLaunchDate.date.addYears (k + 1)).toNat := by
  decide +kernel

/-- The anniversaries that have come are as many as the whole years since the launch. -/
theorem lomAnniversaries_passed {schedule : Schedule} {k at_ : Nat}
    (hyear : (lomCampaign schedule).isInYear k at_ = true) :
    (lomAnniversaries.filter (· ≤ at_)).length = min 6 k := by
  rw [LomCampaign.isInYear_iff] at hyear
  have hpassed (j : Nat) : (lomLaunchDate.date.addYears (j + 1)).toNat ≤ at_ ↔ j < k := by
    have hiff := (lomCampaign schedule).launchDate.le_yearsUntil_iff at_ (j + 1)
    rw [hyear] at hiff
    change _ ↔ lomLaunchDate.date.addYears (j + 1) ≤ at_ at hiff
    omega
  rw [lomAnniversaries_eq, List.filter_map, List.length_map, ← Nat.sub_zero (min 6 k),
    ← Nat.min_zero 6, ← length_filter_range]
  apply congrArg List.length
  apply List.filter_congr
  intro j _
  simp [hpassed]

/-- The amounts that the job reads are those of the campaign. -/
theorem lomRewardsForYearAtTime_eq (schedule : Schedule) (at_ : Nat) :
    lomRewardsForYearAtTime at_ = (lomCampaign schedule).lomRewardsForYearAtTime at_ := by
  have hinstant : (lomCampaign schedule).launchDate.instant = launchDate := lomLaunchDate_instant
  by_cases hlaunch : at_ < launchDate
  · rw [lomRewardsForYearAtTime, LomCampaign.lomRewardsForYearAtTime, if_pos hlaunch,
      if_pos (by omega)]
  · obtain ⟨k, hyear⟩ := (lomCampaign schedule).exists_isInYear
      (show (lomCampaign schedule).launchDate.instant ≤ at_ by omega)
    rw [lomRewardsForYearAtTime, if_neg hlaunch, LomCampaign.lomRewardsForYearAtTime_of_isInYear _
      hyear]
    simp only [lomAnniversaries_passed hyear]
    rcases Nat.lt_or_ge k 6 with hk | hk
    · rw [Nat.min_eq_right (by omega), LomCampaign.allotment, List.getD_eq_getElem?_getD]
      rfl
    · rw [Nat.min_eq_left hk, LomCampaign.allotment_of_length_le _ hk]
      rfl

def sampleRuns : List Int :=
  dailyRuns lomLaunchDate.date.instant [(⟨1200 * second, by decide⟩ : Fin (86400 * second))] 2192

theorem daily_exceeds :
    (∀ now ∈ sampleRuns, daily (now.toNat / second) = true) ∧
      ¬ (lomCampaign daily).KeepsToSchedule sampleRuns := by
  constructor
  · decide +kernel
  · intro h
    have hyear := h.keepsPace.2 1 (by decide)
    have hlength : ((lomCampaign daily).runsOfYear sampleRuns 1).length = 366 := by decide +kernel
    have hallotment : (lomCampaign daily).allotment 1 = 7200000 := rfl
    have hjobs : cronJobs (lomCampaign daily).schedule = 366 := cronJobs_daily
    omega

end PrismBackend.Rewards
