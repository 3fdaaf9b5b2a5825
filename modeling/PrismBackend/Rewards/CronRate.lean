import Mathlib.Algebra.Order.Field.Rat
import Mathlib.Tactic.Linarith
import PrismBackend.Lib.Revert
import PrismBackend.Rewards.Campaign

/-!
# Rewards: the rate of a schedule

`CronJobsPerDay` walks through the firing times of a year. The cron package is a
parameter: `Next` gives the zero time when a schedule does not fire within five
years, and the zero time lies before the end of the year that is counted.
Instants are in seconds.
-/

namespace PrismBackend.Rewards

open PrismBackend.Lib PrismBackend.Clob

/-! ## The package -/

/-- `time.Time{}`, the first of January of the year one. -/
def zeroTime : Int := -62135596800

/-- A schedule that is given by the fields of an expression: its firing times, the last instant
that `Next` looks at, five years on, and what `Next` gives. -/
structure SpecSchedule where
  fires : Int → Prop
  limit : Int → Int
  limit_le : ∀ t, t + 5 * 365 * 86400 ≤ limit t
  limit_mono : ∀ t u, t ≤ u → limit t ≤ limit u
  next : Int → Int
  next_first : ∀ t u, fires u → t < u → u ≤ limit t →
    fires (next t) ∧ t < next t ∧ next t ≤ limit t ∧ ∀ v, fires v → t < v → next t ≤ v
  next_zero : ∀ t, (∀ u, fires u → t < u → ¬u ≤ limit t) → next t = zeroTime

inductive CronSchedule
  | spec (schedule : SpecSchedule)
  /- `@every`, rounded to whole seconds, one at least -/
  | constantDelay (delay : Int) (h : 1 ≤ delay)

def CronSchedule.next : CronSchedule → Int → Int
  | .spec schedule, t => schedule.next t
  | .constantDelay delay _, t => t + delay

/-- The two parsers: with a field for the seconds, and without. -/
structure CronParsers where
  withSeconds : Str → Except String CronSchedule
  withoutSeconds : Str → Except String CronSchedule

/-! ## The function -/

/-- The characters of the Unicode property `White_Space`. -/
def isSpace (ch : Char) : Bool :=
  [0x09, 0x0A, 0x0B, 0x0C, 0x0D, 0x20, 0x85, 0xA0, 0x1680, 0x2028, 0x2029, 0x202F, 0x205F,
    0x3000].contains ch.toNat || (decide (0x2000 ≤ ch.toNat) && decide (ch.toNat ≤ 0x200A))

def trimSpace (s : Str) : Str := ((s.dropWhile isSpace).reverse.dropWhile isSpace).reverse

def oneDay : Nat := 86400
def oneYear : Nat := 366 * oneDay

/-- A second before 2025. -/
def countStart : Int := countedFrom - 1
def countEnd : Int := countStart + oneYear

def countLoop (next : Int → Int) : Nat → Nat → Int → Option Nat
  | 0, _, _ => none
  | fuel + 1, count, t =>
    if t < countEnd then countLoop next fuel (count + 1) (next t) else some count

namespace CronParsers

variable (parsers : CronParsers)

def parse (cronStr : Str) : Except String CronSchedule := do
  let cronStr := trimSpace cronStr
  revertIf (cronStr = []) "empty cron string"
  match parsers.withSeconds cronStr with
  | .ok schedule => .ok schedule
  | .error _ => (parsers.withoutSeconds cronStr).mapError ("invalid cron string format: " ++ ·)

/-- `CronJobsPerDay`; nothing while the loop still runs after that many rounds. -/
def cronJobsPerDay (fuel : Nat) (cronStr : Str) : Option (Except String ℚ) :=
  match parsers.parse cronStr with
  | .error err => some (.error err)
  | .ok schedule =>
    (countLoop schedule.next fuel 0 (schedule.next countStart)).map fun count : Nat =>
      .ok ((count : ℚ) / (oneYear / oneDay))

end CronParsers

/-! ## The loop -/

section Loop

variable {next : Int → Int}

/-- Where the walk cannot pass some instant before the end, it goes on for ever. -/
theorem countLoop_stuck {stop : Int} (hstop : stop < countEnd) (hnext : ∀ t ≤ stop, next t ≤ stop)
    (fuel count : Nat) {t : Int} (ht : t ≤ stop) : countLoop next fuel count t = none := by
  induction fuel generalizing count t with
  | zero => rfl
  | succ fuel ih =>
      rw [countLoop, if_pos (by omega)]
      exact ih (count + 1) (hnext t ht)

theorem countLoop_ends (hnext : ∀ t, countStart ≤ t → t < countEnd → t < next t) (count : Nat)
    {t : Int} (ht : countStart ≤ t) : ∃ fuel result, countLoop next fuel count t = some result := by
  generalize hdistance : (countEnd - t).toNat = distance
  induction distance using Nat.strong_induction_on generalizing count t with
  | _ distance ih =>
      by_cases hlt : t < countEnd
      · have hforward := hnext t ht hlt
        obtain ⟨fuel, result, hresult⟩ := ih (countEnd - next t).toNat (by omega) (count + 1)
          (by omega : countStart ≤ next t) rfl
        refine ⟨fuel + 1, result, ?_⟩
        rw [countLoop, if_pos hlt]
        exact hresult
      · exact ⟨1, count, by rw [countLoop, if_neg hlt]⟩

theorem le_countLoop {fuel count result : Nat} {t : Int}
    (h : countLoop next fuel count t = some result) : count ≤ result := by
  induction fuel generalizing count t with
  | zero => exact absurd h (by simp [countLoop])
  | succ fuel ih =>
      rw [countLoop] at h
      split at h
      · have hrest := ih h
        omega
      · rw [Option.some.inj h]

/-- The walk counts something exactly when it starts before the end. -/
theorem countLoop_pos_iff {fuel result : Nat} {t : Int}
    (h : countLoop next fuel 0 t = some result) : 0 < result ↔ t < countEnd := by
  cases fuel with
  | zero => exact absurd h (by simp [countLoop])
  | succ fuel =>
      rw [countLoop] at h
      split at h
      · next hlt =>
        have hcount := le_countLoop h
        exact ⟨fun _ => hlt, fun _ => by omega⟩
      · next hge =>
        have hzero := Option.some.inj h
        exact ⟨fun hpos => by omega, fun hlt => absurd hlt hge⟩

end Loop

/-! ## Schedules -/

namespace SpecSchedule

variable (schedule : SpecSchedule)

def FiresInYear : Prop := ∃ t, countStart < t ∧ t < countEnd ∧ schedule.fires t

/-- From each instant of that year, the schedule fires again within five years. -/
def FiresAgain : Prop := ∀ t, countStart ≤ t → t < countEnd →
  ∃ u, schedule.fires u ∧ t < u ∧ u ≤ schedule.limit t

variable {schedule}

/-- No step of the walk passes an instant after which the schedule does not fire within five
years. -/
theorem next_le_of_quiet {stop : Int} (hzero : zeroTime ≤ stop)
    (hquiet : ∀ u, schedule.fires u → stop < u → ¬u ≤ schedule.limit stop) :
    ∀ t ≤ stop, schedule.next t ≤ stop := by
  intro t ht
  by_cases hfires : ∃ u, schedule.fires u ∧ t < u ∧ u ≤ schedule.limit t
  · obtain ⟨u, hu, htu, hlimit⟩ := hfires
    obtain ⟨hnext, _, hnextLimit, _⟩ := schedule.next_first t u hu htu hlimit
    by_contra hpast
    have hmono := schedule.limit_mono t stop ht
    exact hquiet (schedule.next t) hnext (by omega) (by omega)
  · have hnone : ∀ u, schedule.fires u → t < u → ¬u ≤ schedule.limit t :=
      fun u hu htu hlimit => hfires ⟨u, hu, htu, hlimit⟩
    rw [schedule.next_zero t hnone]
    exact hzero

theorem next_gt (h : schedule.FiresAgain) {t : Int} (hstart : countStart ≤ t)
    (hend : t < countEnd) : t < schedule.next t := by
  obtain ⟨u, hu, htu, hlimit⟩ := h t hstart hend
  exact (schedule.next_first t u hu htu hlimit).2.1

/-- The walk ends exactly when the schedule fires again from everywhere. -/
theorem countLoop_ends_iff :
    (∃ fuel result, countLoop schedule.next fuel 0 (schedule.next countStart) = some result) ↔
      schedule.FiresAgain := by
  constructor
  · intro h stop hstart hend
    by_contra hnone
    obtain ⟨fuel, result, hresult⟩ := h
    have hzero : zeroTime ≤ stop := le_trans (by decide) hstart
    have hnext := next_le_of_quiet hzero fun u hu hstop hlimit => hnone ⟨u, hu, hstop, hlimit⟩
    rw [countLoop_stuck hend hnext fuel 0 (hnext countStart hstart)] at hresult
    exact absurd hresult (by simp)
  · intro h
    have hforward := next_gt h le_rfl (by decide : countStart < countEnd)
    exact countLoop_ends (fun t hstart hend => next_gt h hstart hend) 0 hforward.le

/-- The first step lands in the year exactly when the schedule fires in it. -/
theorem next_countStart_lt_iff (h : schedule.FiresAgain) :
    schedule.next countStart < countEnd ↔ schedule.FiresInYear := by
  obtain ⟨u, hu, hstart, hlimit⟩ := h countStart le_rfl (by decide)
  obtain ⟨hfires, hgt, _, hfirst⟩ := schedule.next_first countStart u hu hstart hlimit
  constructor
  · exact fun hlt => ⟨schedule.next countStart, hgt, hlt, hfires⟩
  · intro hyear
    obtain ⟨t, ht, hend, htFires⟩ := hyear
    exact lt_of_le_of_lt (hfirst t htFires ht) hend

end SpecSchedule

/-- The schedule fires in the counted year, and from each instant of it again within five years. -/
def CronSchedule.FiresThroughYear : CronSchedule → Prop
  | .spec schedule => schedule.FiresInYear ∧ schedule.FiresAgain
  | .constantDelay delay _ => delay < oneYear

namespace CronSchedule

variable (schedule : CronSchedule)

theorem countLoop_positive_iff :
    (∃ fuel result, countLoop schedule.next fuel 0 (schedule.next countStart) = some result ∧
      0 < result) ↔ schedule.FiresThroughYear := by
  cases schedule with
  | spec schedule =>
      constructor
      · intro h
        obtain ⟨fuel, result, hresult, hpos⟩ := h
        have hagain := SpecSchedule.countLoop_ends_iff.mp ⟨fuel, result, hresult⟩
        rw [countLoop_pos_iff hresult] at hpos
        exact ⟨(SpecSchedule.next_countStart_lt_iff hagain).mp hpos, hagain⟩
      · intro h
        obtain ⟨fuel, result, hresult⟩ := SpecSchedule.countLoop_ends_iff.mpr h.2
        refine ⟨fuel, result, hresult, ?_⟩
        rw [countLoop_pos_iff hresult]
        exact (SpecSchedule.next_countStart_lt_iff h.2).mpr h.1
  | constantDelay delay hdelay =>
      have hnext (t : Int) : (CronSchedule.constantDelay delay hdelay).next t = t + delay := rfl
      have hyear : countStart + delay < countEnd ↔ delay < oneYear := by
        unfold countEnd
        omega
      constructor
      · intro h
        obtain ⟨fuel, result, hresult, hpos⟩ := h
        rw [countLoop_pos_iff hresult, hnext] at hpos
        exact hyear.mp hpos
      · intro h
        have hforward : ∀ t, countStart ≤ t → t < countEnd →
            t < (CronSchedule.constantDelay delay hdelay).next t := by
          intro t _ _
          rw [hnext]
          omega
        obtain ⟨fuel, result, hresult⟩ := countLoop_ends hforward 0
          (hforward countStart le_rfl (by decide)).le
        refine ⟨fuel, result, hresult, ?_⟩
        rw [countLoop_pos_iff hresult, hnext]
        exact hyear.mpr h

end CronSchedule

/-- For an accepted expression, `CronJobsPerDay` returns a positive rate exactly when the schedule
fires in the counted year, and from each instant of it again within five years. -/
theorem cronJobsPerDay_positive_iff (parsers : CronParsers) (cronStr : Str)
    (schedule : CronSchedule) (h : parsers.parse cronStr = .ok schedule) :
    (∃ fuel rate, parsers.cronJobsPerDay fuel cronStr = some (.ok rate) ∧ 0 < rate) ↔
      schedule.FiresThroughYear := by
  have hrate (count : Nat) : (0 : ℚ) < count / (oneYear / oneDay) ↔ 0 < count := by
    rw [show (oneYear : ℚ) / oneDay = 366 by norm_num [oneYear, oneDay], lt_div_iff₀ (by norm_num),
      zero_mul, Nat.cast_pos]
  rw [← schedule.countLoop_positive_iff]
  simp only [CronParsers.cronJobsPerDay, h, Option.map_eq_some_iff, Except.ok.injEq]
  constructor
  · intro hreturns
    obtain ⟨fuel, rate, ⟨count, hcount, rfl⟩, hpos⟩ := hreturns
    exact ⟨fuel, count, hcount, (hrate count).mp hpos⟩
  · intro hreturns
    obtain ⟨fuel, count, hcount, hpos⟩ := hreturns
    exact ⟨fuel, _, ⟨count, hcount, rfl⟩, (hrate count).mpr hpos⟩

/-! ## The count -/

section Count

variable {schedule : SpecSchedule} {seconds : Schedule}

theorem count_of_none {p : Nat → Prop} [DecidablePred p] {i j : Nat} (hij : i ≤ j)
    (h : ∀ k, i ≤ k → k < j → ¬p k) : Nat.count p j = Nat.count p i := by
  induction j with
  | zero => rw [Nat.le_zero.mp hij]
  | succ j ih =>
      by_cases heq : i = j + 1
      · rw [heq]
      · rw [Nat.count_succ, if_neg (h j (by omega) (by omega)), Nat.add_zero]
        exact ih (by omega) fun k hik hkj => h k hik (by omega)

def firedBefore (seconds : Schedule) (t : Int) : Nat :=
  Nat.count (fun i => seconds (countedFrom + i) = true) (min t countEnd - countedFrom).toNat

/-- The schedule fires in these seconds, as far as the counted year goes. -/
def SpecSchedule.FiresAt (schedule : SpecSchedule) (seconds : Schedule) : Prop :=
  ∀ i : Nat, schedule.fires ↑(countedFrom + i) ↔ seconds (countedFrom + i) = true

theorem firedBefore_next (hseconds : schedule.FiresAt seconds) (hagain : schedule.FiresAgain)
    {t : Int} (hstart : countStart < t) (hend : t < countEnd) (hfires : schedule.fires t) :
    firedBefore seconds (schedule.next t) = firedBefore seconds t + 1 := by
  obtain ⟨i, hi⟩ : ∃ i : Nat, t = ↑(countedFrom + i) :=
    ⟨(t - countedFrom).toNat, by unfold countStart at hstart; omega⟩
  obtain ⟨u, hu, htu, hlimit⟩ := hagain t hstart.le hend
  obtain ⟨_, hgt, _, hfirst⟩ := schedule.next_first t u hu htu hlimit
  have hhere : (min t countEnd - countedFrom).toNat = i := by omega
  have hpasses : i + 1 ≤ (min (schedule.next t) countEnd - countedFrom).toNat := by omega
  have hquiet : ∀ k, i + 1 ≤ k → k < (min (schedule.next t) countEnd - countedFrom).toNat →
      ¬seconds (countedFrom + k) = true := by
    intro k hik hk hfiresAt
    have hlater := hfirst _ ((hseconds k).mpr hfiresAt) (by omega)
    omega
  rw [firedBefore, firedBefore, hhere, count_of_none hpasses hquiet, Nat.count_succ,
    if_pos ((hseconds i).mp (hi ▸ hfires))]

theorem countLoop_add_firedBefore (hseconds : schedule.FiresAt seconds)
    (hagain : schedule.FiresAgain) {fuel count result : Nat} {t : Int} (hstart : countStart < t)
    (hfires : schedule.fires t) (h : countLoop schedule.next fuel count t = some result) :
    result + firedBefore seconds t = count + firedBefore seconds countEnd := by
  induction fuel generalizing count t with
  | zero => exact absurd h (by simp [countLoop])
  | succ fuel ih =>
      rw [countLoop] at h
      split at h
      · next hend =>
        obtain ⟨u, hu, htu, hlimit⟩ := hagain t hstart.le hend
        obtain ⟨hnext, hgt, _, _⟩ := schedule.next_first t u hu htu hlimit
        have hrest := ih (by omega) hnext h
        rw [firedBefore_next hseconds hagain hstart hend hfires] at hrest
        omega
      · next hend =>
        have hsame : firedBefore seconds t = firedBefore seconds countEnd := by
          rw [firedBefore, firedBefore, min_eq_right (by omega), min_self]
        rw [← Option.some.inj h, hsame]

theorem countLoop_eq_cronJobs (hseconds : schedule.FiresAt seconds) {fuel count : Nat}
    (h : countLoop schedule.next fuel 0 (schedule.next countStart) = some count) :
    count = cronJobs seconds := by
  have hagain := SpecSchedule.countLoop_ends_iff.mp ⟨fuel, count, h⟩
  obtain ⟨u, hu, hstart, hlimit⟩ := hagain countStart le_rfl (by decide)
  obtain ⟨hfires, hgt, _, hfirst⟩ := schedule.next_first countStart u hu hstart hlimit
  have hrun := countLoop_add_firedBefore hseconds hagain hgt hfires h
  have hnone : firedBefore seconds (schedule.next countStart) = 0 := by
    have hquiet : ∀ k, 0 ≤ k →
        k < (min (schedule.next countStart) countEnd - countedFrom).toNat →
        ¬seconds (countedFrom + k) = true := by
      intro k _ hk hfiresAt
      have hlater := hfirst _ ((hseconds k).mpr hfiresAt) (by unfold countStart; omega)
      omega
    rw [firedBefore, count_of_none (Nat.zero_le _) hquiet, Nat.count_zero]
  have hyear : (min countEnd countEnd - countedFrom).toNat = 366 * 86400 - 1 := by decide
  rw [hnone, firedBefore, hyear] at hrun
  rw [cronJobs]
  omega

end Count

/-! ## Schedules that fail -/

/-- The thirtieth of February. -/
def neverFires : SpecSchedule where
  fires := fun _ => False
  limit := fun t => t + 5 * 366 * 86400
  limit_le := by intro t; omega
  limit_mono := by intro t u h; omega
  next := fun _ => zeroTime
  next_first := fun _ _ hu => hu.elim
  next_zero := fun _ _ => rfl

def hourly : SpecSchedule where
  fires := fun t => t % 3600 = 0
  limit := fun t => t + 5 * 366 * 86400
  limit_le := by intro t; omega
  limit_mono := by intro t u h; omega
  next := fun t => (t / 3600 + 1) * 3600
  next_first := by
    intro t u hu htu hlimit
    refine ⟨by omega, by omega, by omega, ?_⟩
    intro v hv htv
    omega
  next_zero := by
    intro t h
    exact absurd (by omega) (h ((t / 3600 + 1) * 3600) (by omega) (by omega))

def sampleParsers : CronParsers where
  withSeconds := fun cronStr =>
    if cronStr = "@every 9000h".toList then .ok (.constantDelay 32400000 (by decide))
    else .error "expected exactly 6 fields"
  withoutSeconds := fun cronStr =>
    if cronStr = "0 0 30 2 *".toList then .ok (.spec neverFires)
    else if cronStr = "0 * * * *".toList then .ok (.spec hourly)
    else .error "expected exactly 5 fields"

theorem cronJobsPerDay_positive_iff_sample :
    ∃ fuel rate, sampleParsers.cronJobsPerDay fuel "0 * * * *".toList = some (.ok rate) ∧
      0 < rate := by
  apply (cronJobsPerDay_positive_iff sampleParsers "0 * * * *".toList (.spec hourly) rfl).mpr
  constructor
  · refine ⟨1735689600, by decide, by decide, ?_⟩
    show (1735689600 : Int) % 3600 = 0
    decide
  · intro t _ _
    refine ⟨(t / 3600 + 1) * 3600, ?_, by omega, ?_⟩
    · show (t / 3600 + 1) * 3600 % 3600 = 0
      omega
    · show (t / 3600 + 1) * 3600 ≤ t + 5 * 366 * 86400
      omega

/-- The walk of one accepted expression never ends, and another one has the rate zero. -/
theorem cronJobsPerDay_fails :
    (∀ fuel, sampleParsers.cronJobsPerDay fuel "0 0 30 2 *".toList = none) ∧
      sampleParsers.cronJobsPerDay 1 "@every 9000h".toList = some (.ok 0) := by
  have hnever : sampleParsers.parse "0 0 30 2 *".toList = .ok (.spec neverFires) := rfl
  have hevery : sampleParsers.parse "@every 9000h".toList =
      .ok (.constantDelay 32400000 (by decide)) := rfl
  constructor
  · intro fuel
    have hstuck : countLoop neverFires.next fuel 0 (neverFires.next countStart) = none :=
      countLoop_stuck (by decide : zeroTime < countEnd) (fun _ _ => le_rfl) fuel 0 le_rfl
    simp only [CronParsers.cronJobsPerDay, hnever]
    exact congrArg (Option.map _) hstuck
  · have hloop : countLoop (CronSchedule.constantDelay 32400000 (by decide)).next 1 0
        ((CronSchedule.constantDelay 32400000 (by decide)).next countStart) = some 0 := by decide
    simp only [CronParsers.cronJobsPerDay, hevery, hloop, Option.map_some, Nat.cast_zero,
      zero_div]

end PrismBackend.Rewards
