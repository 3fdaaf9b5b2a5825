import Mathlib.Data.Int.ConditionallyCompleteOrder
import Mathlib.Order.Interval.Set.Monotone
import Mathlib.Tactic.Ring

/-!
# Calendars

A calendar cuts the line of instants into years. A date recurs once in each year,
so the whole years since a date are found from the year of an instant with one
correction. The Gregorian calendar is an instance, at any length of the day.
-/

namespace PrismBackend.Lib

/-- Where each year starts, and the year of each instant. -/
structure Calendar where
  yearStart : Int → Int
  year : Int → Int
  yearStart_lt_succ : ∀ y, yearStart y < yearStart (y + 1)
  yearStart_year_le : ∀ at_, yearStart (year at_) ≤ at_
  lt_yearStart_succ : ∀ at_, at_ < yearStart (year at_ + 1)

namespace Calendar

structure Date (calendar : Calendar) where
  year : Int
  inYear : Int → Int
  yearStart_le : ∀ y, calendar.yearStart y ≤ inYear y
  lt_yearStart : ∀ y, inYear y < calendar.yearStart (y + 1)

namespace Date

variable {calendar : Calendar} (date : calendar.Date)

def instant : Int := date.inYear date.year

def addYears (years : Int) : Int := date.inYear (date.year + years)

def yearsUntil (at_ : Int) : Int :=
  let years := calendar.year at_ - date.year
  if at_ < date.addYears years then years - 1 else years

@[simp] theorem addYears_zero : date.addYears 0 = date.instant := by
  rw [addYears, add_zero, instant]

theorem addYears_lt_succ (years : Int) : date.addYears years < date.addYears (years + 1) := by
  calc date.addYears years
      < calendar.yearStart (date.year + years + 1) := date.lt_yearStart _
    _ ≤ date.inYear (date.year + years + 1) := date.yearStart_le _
    _ = date.addYears (years + 1) := by rw [addYears, add_assoc]

theorem addYears_strictMono : StrictMono date.addYears :=
  strictMono_int_of_lt_succ date.addYears_lt_succ

theorem addYears_le_of_year (at_ : Int) :
    date.addYears (calendar.year at_ - date.year - 1) ≤ at_ := by
  have hyear : date.year + (calendar.year at_ - date.year - 1) = calendar.year at_ - 1 := by omega
  have hbefore := date.lt_yearStart (calendar.year at_ - 1)
  have hstart := calendar.yearStart_year_le at_
  rw [sub_add_cancel] at hbefore
  rw [addYears, hyear]
  omega

theorem lt_addYears_of_year (at_ : Int) :
    at_ < date.addYears (calendar.year at_ - date.year + 1) := by
  have hyear : date.year + (calendar.year at_ - date.year + 1) = calendar.year at_ + 1 := by omega
  have hafter := date.yearStart_le (calendar.year at_ + 1)
  have hend := calendar.lt_yearStart_succ at_
  rw [addYears, hyear]
  omega

theorem yearsUntil_spec (at_ : Int) :
    date.addYears (date.yearsUntil at_) ≤ at_ ∧ at_ < date.addYears (date.yearsUntil at_ + 1) := by
  simp only [yearsUntil]
  split
  case isTrue hbefore =>
    rw [sub_add_cancel]
    exact ⟨date.addYears_le_of_year at_, hbefore⟩
  case isFalse hbefore =>
    exact ⟨by omega, date.lt_addYears_of_year at_⟩

theorem eq_of_between {at_ j k : Int} (hj : date.addYears j ≤ at_ ∧ at_ < date.addYears (j + 1))
    (hk : date.addYears k ≤ at_ ∧ at_ < date.addYears (k + 1)) : j = k := by
  have hjk : j < k + 1 := date.addYears_strictMono.lt_iff_lt.mp (by omega)
  have hkj : k < j + 1 := date.addYears_strictMono.lt_iff_lt.mp (by omega)
  omega

theorem yearsUntil_eq_iff (at_ k : Int) :
    date.yearsUntil at_ = k ↔ date.addYears k ≤ at_ ∧ at_ < date.addYears (k + 1) := by
  constructor
  · intro h
    rw [← h]
    exact date.yearsUntil_spec at_
  · intro h
    exact date.eq_of_between (date.yearsUntil_spec at_) h

theorem le_yearsUntil_iff (at_ k : Int) : k ≤ date.yearsUntil at_ ↔ date.addYears k ≤ at_ := by
  have hspec := date.yearsUntil_spec at_
  constructor
  · intro h
    have hmono := date.addYears_strictMono.monotone h
    omega
  · intro h
    have hlt : k < date.yearsUntil at_ + 1 := date.addYears_strictMono.lt_iff_lt.mp (by omega)
    omega

end Date

/-! ## The Gregorian calendar -/

def isLeap (year : Int) : Bool := year % 4 == 0 && (year % 100 != 0 || year % 400 == 0)

/-- The days before a year, from the first day of the year 1. -/
def daysBeforeYear (year : Int) : Int :=
  365 * (year - 1) + (year - 1) / 4 - (year - 1) / 100 + (year - 1) / 400

theorem daysBeforeYear_succ (year : Int) :
    daysBeforeYear (year + 1) = daysBeforeYear year + (if isLeap year then 366 else 365) := by
  unfold daysBeforeYear
  split
  case isTrue hleap =>
    simp only [isLeap, Bool.and_eq_true, Bool.or_eq_true, beq_iff_eq, bne_iff_ne] at hleap
    omega
  case isFalse hleap =>
    simp only [isLeap, Bool.and_eq_true, Bool.or_eq_true, beq_iff_eq, bne_iff_ne] at hleap
    omega

/-- The year of a day: the estimate from the mean length of a year is off by one at most. -/
def yearOfDay (day : Int) : Int :=
  let estimate := 400 * day / 146097 + 1
  if day < daysBeforeYear estimate then estimate - 1
  else if daysBeforeYear (estimate + 1) ≤ day then estimate + 1
  else estimate

theorem yearOfDay_spec (day : Int) :
    daysBeforeYear (yearOfDay day) ≤ day ∧ day < daysBeforeYear (yearOfDay day + 1) := by
  have hbelow : daysBeforeYear (400 * day / 146097 + 1 - 1) ≤ day := by
    unfold daysBeforeYear
    omega
  have habove : day < daysBeforeYear (400 * day / 146097 + 1 + 1 + 1) := by
    unfold daysBeforeYear
    omega
  simp only [yearOfDay]
  split
  case isTrue hbefore =>
    rw [sub_add_cancel]
    exact ⟨hbelow, hbefore⟩
  case isFalse hbefore =>
    split
    case isTrue hafter => exact ⟨hafter, habove⟩
    case isFalse hafter => exact ⟨by omega, by omega⟩

/-- The days from the first day of the year 1 to the epoch of 1970. -/
def unixEpoch : Int := daysBeforeYear 1970

/-- Instants count from the epoch; a day is that many of them long. -/
def gregorian (dayLength : Nat) (hday : 0 < dayLength) : Calendar where
  yearStart := fun year => (daysBeforeYear year - unixEpoch) * dayLength
  year := fun at_ => yearOfDay (at_ / dayLength + unixEpoch)
  yearStart_lt_succ := by
    intro year
    have hsucc := daysBeforeYear_succ year
    apply Int.mul_lt_mul_of_pos_right _ (by omega)
    split at hsucc <;> omega
  yearStart_year_le := by
    intro at_
    have hspec := (yearOfDay_spec (at_ / dayLength + unixEpoch)).1
    apply Int.mul_le_of_le_ediv (by omega)
    omega
  lt_yearStart_succ := by
    intro at_
    have hspec := (yearOfDay_spec (at_ / dayLength + unixEpoch)).2
    apply Int.lt_mul_of_ediv_lt (by omega)
    omega

/-- The days before each month, and at last the days, of a year without a leap day. -/
def daysBefore : List Int := [0, 31, 59, 90, 120, 151, 181, 212, 243, 273, 304, 334, 365]

instance neZeroMonths : NeZero 12 := inferInstance

def monthLength (month : Fin 12) : Int :=
  daysBefore.getD (month + 1) 0 - daysBefore.getD month 0 + (if month = 1 then 1 else 0)

structure MonthDay where
  month : Fin 12
  day : Int
  one_le_day : 1 ≤ day
  day_le : day ≤ monthLength month

/-- The days of the year before the day. A leap day that the year lacks is the first of March. -/
def MonthDay.daysBefore (monthDay : MonthDay) (leap : Bool) : Int :=
  Calendar.daysBefore.getD monthDay.month 0 +
    (if leap && decide (2 ≤ monthDay.month.val) then 1 else 0) + (monthDay.day - 1)

theorem MonthDay.daysBefore_nonneg (monthDay : MonthDay) (leap : Bool) :
    0 ≤ monthDay.daysBefore leap := by
  have hmonth : ∀ month : Fin 12, 0 ≤ Calendar.daysBefore.getD month 0 := by decide
  have hday := monthDay.one_le_day
  have hbefore := hmonth monthDay.month
  unfold daysBefore
  split <;> omega

theorem MonthDay.daysBefore_lt (monthDay : MonthDay) (leap : Bool) :
    monthDay.daysBefore leap < if leap then 366 else 365 := by
  have hmonth : ∀ (leap : Bool) (month : Fin 12),
      Calendar.daysBefore.getD month 0 + (if leap && decide (2 ≤ month.val) then 1 else 0) +
        (monthLength month - 1) < if leap then 366 else 365 := by decide
  have hday := monthDay.day_le
  have hbefore := hmonth leap monthDay.month
  unfold daysBefore
  omega

/-- The days before the day in a year, from the first day of the year 1. -/
def MonthDay.dayNumber (monthDay : MonthDay) (year : Int) : Int :=
  daysBeforeYear year + monthDay.daysBefore (isLeap year)

theorem MonthDay.dayNumber_lt_succ (monthDay : MonthDay) (year : Int) :
    monthDay.dayNumber year < monthDay.dayNumber (year + 1) := by
  have hbefore := monthDay.daysBefore_lt (isLeap year)
  have hnext := monthDay.daysBefore_nonneg (isLeap (year + 1))
  have hsucc := daysBeforeYear_succ year
  unfold dayNumber
  omega

/-- A year, a day of a month and a time of the day. -/
structure GregorianDate (dayLength : Nat) where
  year : Int
  monthDay : MonthDay
  time : Fin dayLength

namespace GregorianDate

variable {dayLength : Nat} (gregorianDate : GregorianDate dayLength)

include gregorianDate in
theorem dayLength_pos : 0 < dayLength := gregorianDate.time.pos

def date : (gregorian dayLength gregorianDate.dayLength_pos).Date where
  year := gregorianDate.year
  inYear := fun y =>
    (gregorianDate.monthDay.dayNumber y - unixEpoch) * dayLength + gregorianDate.time
  yearStart_le := by
    intro y
    have hbefore := gregorianDate.monthDay.daysBefore_nonneg (isLeap y)
    have hstart : (daysBeforeYear y - unixEpoch) * (dayLength : Int) ≤
        (gregorianDate.monthDay.dayNumber y - unixEpoch) * dayLength :=
      Int.mul_le_mul_of_nonneg_right (by rw [MonthDay.dayNumber]; omega) (by omega)
    change (daysBeforeYear y - unixEpoch) * (dayLength : Int) ≤ _
    omega
  lt_yearStart := by
    intro y
    have hbefore := gregorianDate.monthDay.daysBefore_lt (isLeap y)
    have hsucc := daysBeforeYear_succ y
    have hend : (gregorianDate.monthDay.dayNumber y - unixEpoch + 1) * (dayLength : Int) ≤
        (daysBeforeYear (y + 1) - unixEpoch) * dayLength :=
      Int.mul_le_mul_of_nonneg_right (by rw [MonthDay.dayNumber]; omega) (by omega)
    have htime := gregorianDate.time.isLt
    change _ < (daysBeforeYear (y + 1) - unixEpoch) * (dayLength : Int)
    rw [add_mul, one_mul] at hend
    omega

/-- The days from the date to the same date as many years later. -/
def daysUntil (years : Nat) : Nat :=
  (gregorianDate.monthDay.dayNumber (gregorianDate.year + years) -
    gregorianDate.monthDay.dayNumber gregorianDate.year).toNat

theorem daysUntil_cast (years : Nat) :
    (gregorianDate.daysUntil years : Int) =
      gregorianDate.monthDay.dayNumber (gregorianDate.year + years) -
        gregorianDate.monthDay.dayNumber gregorianDate.year := by
  have hstrict := strictMono_int_of_lt_succ gregorianDate.monthDay.dayNumber_lt_succ
  have hmono := hstrict.monotone
    (show gregorianDate.year ≤ gregorianDate.year + years by omega)
  rw [daysUntil]
  omega

theorem daysUntil_lt_succ (years : Nat) :
    gregorianDate.daysUntil years < gregorianDate.daysUntil (years + 1) := by
  have hnow := gregorianDate.daysUntil_cast years
  have hnext := gregorianDate.daysUntil_cast (years + 1)
  have hsucc := gregorianDate.monthDay.dayNumber_lt_succ (gregorianDate.year + years)
  rw [Nat.cast_add_one, ← add_assoc] at hnext
  omega

theorem daysUntil_strictMono : StrictMono gregorianDate.daysUntil :=
  strictMono_nat_of_lt_succ gregorianDate.daysUntil_lt_succ

theorem addYears_eq (years : Nat) :
    gregorianDate.date.addYears years =
      gregorianDate.date.instant + gregorianDate.daysUntil years * dayLength := by
  rw [daysUntil_cast]
  change (gregorianDate.monthDay.dayNumber (gregorianDate.year + years) - unixEpoch) *
      (dayLength : Int) + gregorianDate.time =
    (gregorianDate.monthDay.dayNumber gregorianDate.year - unixEpoch) * dayLength +
      gregorianDate.time + _
  ring

end GregorianDate

end Calendar

end PrismBackend.Lib
