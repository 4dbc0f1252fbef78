import Mathlib.Order.Monotone.Basic
import Mathlib.Algebra.Order.Group.Int
import Mathlib.Tactic.IntervalCases
import Mathlib.Tactic.SplitIfs
import Mathlib.Data.Int.ConditionallyCompleteOrder

/-!
# The Gregorian calendar

Days are counted from 1970-01-01 and months from January of the year 0. Every day lies in one
month (`monthStart_le`, `lt_monthStart`), and the months tile the days (`monthStart_strictMono`).
A time is a day and a time of the day: `instant` composes what `monthOf`, `dateOf` and `timeOf`
take apart.
-/

namespace Gregorian

/-! ## Years -/

def leapDay (year : ℤ) : ℤ := if year % 4 = 0 ∧ (year % 100 ≠ 0 ∨ year % 400 = 0) then 1 else 0

theorem leapDay_cases (year : ℤ) : leapDay year = 0 ∨ leapDay year = 1 := by
  unfold leapDay
  split_ifs
  · exact .inr rfl
  · exact .inl rfl

/-- The first day of a year. -/
def yearStart (year : ℤ) : ℤ :=
  365 * (year - 1970) + (year - 1969) / 4 - (year - 1901) / 100 + (year - 1601) / 400

theorem yearStart_succ (year : ℤ) :
    yearStart (year + 1) = yearStart year + 365 + leapDay year := by
  unfold yearStart leapDay
  split_ifs <;> omega

/-- The mean year misses the year of a day by one at most. -/
def yearOfDay (day : ℤ) : ℤ :=
  let year := 1970 + 400 * day / 146097
  if day < yearStart year then year - 1
  else if yearStart (year + 1) ≤ day then year + 1
  else year

theorem yearStart_le (day : ℤ) : yearStart (yearOfDay day) ≤ day := by
  unfold yearOfDay
  dsimp only
  split_ifs with before after
  · unfold yearStart at before ⊢
    omega
  · exact after
  · omega

theorem lt_yearStart (day : ℤ) : day < yearStart (yearOfDay day + 1) := by
  unfold yearOfDay
  dsimp only
  split_ifs with before after
  · simpa using before
  · unfold yearStart at after ⊢
    omega
  · omega

theorem yearStart_strictMono : StrictMono yearStart := by
  refine strictMono_int_of_lt_succ fun year => ?_
  have := leapDay_cases year
  rw [yearStart_succ]
  omega

theorem le_yearOfDay {year day : ℤ} : year ≤ yearOfDay day ↔ yearStart year ≤ day := by
  constructor
  · intro le
    exact (yearStart_strictMono.monotone le).trans (yearStart_le day)
  · intro le
    have := yearStart_strictMono.lt_iff_lt.mp (le.trans_lt (lt_yearStart day))
    omega

/-! ## Months -/

/-- The days of a year before one of its months, of which January is 0. -/
def daysBefore (leap month : ℤ) : ℤ :=
  -- From March on, five months have 153 days.
  if month < 2 then 31 * month else 59 + leap + (153 * (month - 2) + 2) / 5

/-- The length of a month of the year. -/
def monthLength (leap month : ℤ) : ℤ :=
  if month = 1 then 28 + leap
  else if month = 3 ∨ month = 5 ∨ month = 8 ∨ month = 10 then 30
  else 31

theorem daysBefore_succ (leap : ℤ) {month : ℤ} (low : 0 ≤ month) (high : month < 11) :
    daysBefore leap (month + 1) = daysBefore leap month + monthLength leap month := by
  unfold daysBefore monthLength
  interval_cases month <;> simp <;> omega

/-- The first day of a month. -/
def monthStart (month : ℤ) : ℤ :=
  yearStart (month / 12) + daysBefore (leapDay (month / 12)) (month % 12)

def daysInMonth (month : ℤ) : ℤ := monthLength (leapDay (month / 12)) (month % 12)

theorem daysInMonth_pos (month : ℤ) : 28 ≤ daysInMonth month := by
  have := leapDay_cases (month / 12)
  unfold daysInMonth monthLength
  split_ifs <;> omega

theorem monthStart_succ (month : ℤ) :
    monthStart (month + 1) = monthStart month + daysInMonth month := by
  unfold monthStart daysInMonth
  by_cases december : month % 12 = 11
  · have year : (month + 1) / 12 = month / 12 + 1 := by omega
    have next : (month + 1) % 12 = 0 := by omega
    rw [year, next, december, yearStart_succ]
    unfold daysBefore monthLength
    split_ifs <;> omega
  · have year : (month + 1) / 12 = month / 12 := by omega
    have next : (month + 1) % 12 = month % 12 + 1 := by omega
    rw [year, next, daysBefore_succ _ (by omega) (by omega), add_assoc]

theorem monthStart_strictMono : StrictMono monthStart := by
  refine strictMono_int_of_lt_succ fun month => ?_
  have := daysInMonth_pos month
  rw [monthStart_succ]
  omega

/-- The month of the year of one of its days, of which the first is 0. -/
def monthOfYear (leap day : ℤ) : ℤ :=
  if day < 31 then 0 else if day < 59 + leap then 1 else (5 * (day - 59 - leap) + 2) / 153 + 2

/-- The month of a day. -/
def monthOfDay (day : ℤ) : ℤ :=
  12 * yearOfDay day + monthOfYear (leapDay (yearOfDay day)) (day - yearStart (yearOfDay day))

section

variable {leap day : ℤ} (first : 0 ≤ day) (last : day < 365 + leap)
include first last

omit first in
theorem monthOfYear_bounds : 0 ≤ monthOfYear leap day ∧ monthOfYear leap day ≤ 11 := by
  unfold monthOfYear
  split_ifs <;> omega

theorem daysBefore_le : daysBefore leap (monthOfYear leap day) ≤ day := by
  unfold daysBefore monthOfYear
  split_ifs <;> omega

theorem lt_daysBefore : day < daysBefore leap (monthOfYear leap day) +
    monthLength leap (monthOfYear leap day) := by
  have bounds := monthOfYear_bounds last
  unfold daysBefore monthOfYear monthLength at *
  split_ifs at * <;> omega

end

theorem dayOfYear_bounds (day : ℤ) :
    0 ≤ day - yearStart (yearOfDay day) ∧
      day - yearStart (yearOfDay day) < 365 + leapDay (yearOfDay day) := by
  have low := yearStart_le day
  have high := lt_yearStart day
  rw [yearStart_succ] at high
  omega

theorem monthOfDay_parts (day : ℤ) : monthOfDay day / 12 = yearOfDay day ∧
    monthOfDay day % 12 =
      monthOfYear (leapDay (yearOfDay day)) (day - yearStart (yearOfDay day)) := by
  obtain ⟨first, last⟩ := dayOfYear_bounds day
  have := monthOfYear_bounds last
  unfold monthOfDay
  omega

theorem monthStart_le (day : ℤ) : monthStart (monthOfDay day) ≤ day := by
  obtain ⟨first, last⟩ := dayOfYear_bounds day
  have within := daysBefore_le first last
  obtain ⟨year, month⟩ := monthOfDay_parts day
  rw [monthStart, year, month]
  omega

theorem lt_monthStart (day : ℤ) : day < monthStart (monthOfDay day + 1) := by
  obtain ⟨first, last⟩ := dayOfYear_bounds day
  have within := lt_daysBefore first last
  obtain ⟨year, month⟩ := monthOfDay_parts day
  rw [monthStart_succ, monthStart, daysInMonth, year, month]
  omega

theorem monthOfDay_eq {day month : ℤ} (low : monthStart month ≤ day)
    (high : day < monthStart (month + 1)) : monthOfDay day = month := by
  have after := monthStart_strictMono.lt_iff_lt.mp ((monthStart_le day).trans_lt high)
  have before := monthStart_strictMono.lt_iff_lt.mp (low.trans_lt (lt_monthStart day))
  omega

/-! ## Times -/

/-- The milliseconds of a day. -/
def msPerDay : ℤ := 86400000

def timeOf (t : ℤ) : ℤ := t % msPerDay

def monthOf (t : ℤ) : ℤ := monthOfDay (t / msPerDay)

/-- The day of the month, of which the first is 1. -/
def dateOf (t : ℤ) : ℤ := t / msPerDay - monthStart (monthOf t) + 1

def instant (month date time : ℤ) : ℤ := (monthStart month + date - 1) * msPerDay + time

example : (monthOf 951782400000, dateOf 951782400000) = (2000 * 12 + 1, 29) ∧
    (monthOf (-1), dateOf (-1)) = (1969 * 12 + 11, 31) := by decide

theorem timeOf_bounds (t : ℤ) : 0 ≤ timeOf t ∧ timeOf t < msPerDay := by
  unfold timeOf msPerDay
  omega

theorem dateOf_bounds (t : ℤ) : 1 ≤ dateOf t ∧ dateOf t ≤ daysInMonth (monthOf t) := by
  have low := monthStart_le (t / msPerDay)
  have high := lt_monthStart (t / msPerDay)
  rw [monthStart_succ] at high
  unfold dateOf monthOf
  omega

@[simp] theorem instant_parts (t : ℤ) : instant (monthOf t) (dateOf t) (timeOf t) = t := by
  unfold instant dateOf timeOf msPerDay
  omega

theorem monthOf_mono : Monotone monthOf := by
  intro s t le
  have days : s / msPerDay ≤ t / msPerDay := Int.ediv_le_ediv (by decide) le
  have low := monthStart_le (s / msPerDay)
  have high := lt_monthStart (t / msPerDay)
  have := monthStart_strictMono.lt_iff_lt.mp ((low.trans days).trans_lt high)
  unfold monthOf
  omega

theorem lt_of_monthOf_lt {s t : ℤ} (h : monthOf s < monthOf t) : s < t := by
  by_contra le
  exact absurd (monthOf_mono (not_lt.mp le)) (not_le.mpr h)

section Instant

variable {month date time : ℤ}

theorem instant_div (low : 0 ≤ time) (high : time < msPerDay) :
    instant month date time / msPerDay = monthStart month + date - 1 := by
  unfold instant msPerDay at *
  omega

theorem timeOf_instant (low : 0 ≤ time) (high : time < msPerDay) :
    timeOf (instant month date time) = time := by
  unfold timeOf instant msPerDay at *
  omega

variable (first : 1 ≤ date) (last : date ≤ daysInMonth month) (low : 0 ≤ time)
  (high : time < msPerDay)
include first last low high

theorem monthOf_instant : monthOf (instant month date time) = month := by
  have next := monthStart_succ month
  rw [monthOf, instant_div low high]
  exact monthOfDay_eq (by omega) (by omega)

theorem dateOf_instant : dateOf (instant month date time) = date := by
  rw [dateOf, monthOf_instant first last low high, instant_div low high]
  omega

end Instant

/-! ## Adding months -/

/-- The same day and time of a later month, or its last day. -/
def plusMonths (t months : ℤ) : ℤ :=
  instant (monthOf t + months) (min (dateOf t) (daysInMonth (monthOf t + months))) (timeOf t)

theorem plusMonths_date (t months : ℤ) :
    1 ≤ min (dateOf t) (daysInMonth (monthOf t + months)) := by
  have := dateOf_bounds t
  have := daysInMonth_pos (monthOf t + months)
  omega

@[simp] theorem monthOf_plusMonths (t months : ℤ) :
    monthOf (plusMonths t months) = monthOf t + months :=
  monthOf_instant (plusMonths_date t months) (min_le_right _ _) (timeOf_bounds t).1
    (timeOf_bounds t).2

@[simp] theorem plusMonths_zero (t : ℤ) : plusMonths t 0 = t := by
  rw [plusMonths, add_zero, min_eq_left (dateOf_bounds t).2, instant_parts]

theorem plusMonths_strictMono (t : ℤ) : StrictMono (plusMonths t) := by
  intro m n lt
  refine lt_of_monthOf_lt ?_
  rw [monthOf_plusMonths, monthOf_plusMonths]
  omega

end Gregorian
