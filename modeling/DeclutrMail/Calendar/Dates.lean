import DeclutrMail.Calendar.Gregorian

/-!
# Dates of ECMAScript

A date is a time in milliseconds since 1970 that `maxTime` bounds on both sides. `utc` composes
one from its parts in UTC, of which any but the year may be out of its range, and has no result
(`NaN`) beyond the bounds. It takes the years 0 to 99 for those of the twentieth century.
-/

namespace JsDate

open Gregorian

/-- 100,000,000 days. -/
def maxTime : ℤ := 8640000000000000

def Valid (t : ℤ) : Prop := -maxTime ≤ t ∧ t ≤ maxTime

instance (t : ℤ) : Decidable (Valid t) := inferInstanceAs (Decidable (_ ∧ _))

def timeClip (t : ℤ) : Option ℤ := if Valid t then some t else none

/-! ## Parts -/

def getUTCFullYear (t : ℤ) : ℤ := yearOfDay (t / msPerDay)
def getUTCMonth (t : ℤ) : ℤ := monthOf t % 12
def getUTCDate (t : ℤ) : ℤ := dateOf t
def getUTCHours (t : ℤ) : ℤ := timeOf t / 3600000
def getUTCMinutes (t : ℤ) : ℤ := timeOf t / 60000 % 60
def getUTCSeconds (t : ℤ) : ℤ := timeOf t / 1000 % 60
def getUTCMilliseconds (t : ℤ) : ℤ := timeOf t % 1000

/-! ## Composition -/

def makeFullYear (year : ℤ) : ℤ := if 0 ≤ year ∧ year ≤ 99 then 1900 + year else year

def makeTime (hour minute second ms : ℤ) : ℤ :=
  hour * 3600000 + minute * 60000 + second * 1000 + ms

def makeDay (year month date : ℤ) : ℤ := monthStart (12 * year + month) + date - 1

/-- `Date.UTC` -/
def utc (year month date hour minute second ms : ℤ) : Option ℤ :=
  timeClip (makeDay (makeFullYear year) month date * msPerDay + makeTime hour minute second ms)

example : utc 2024 1 29 0 0 0 0 = some 1709164800000 ∧
    utc 2023 12 0 0 0 0 0 = utc 2023 11 31 0 0 0 0 ∧
    utc 50 0 1 0 0 0 0 = utc 1950 0 1 0 0 0 0 := by decide

theorem monthOf_eq (t : ℤ) : 12 * getUTCFullYear t + getUTCMonth t = monthOf t := by
  have := (monthOfDay_parts (t / msPerDay)).1
  unfold getUTCFullYear getUTCMonth monthOf
  omega

theorem makeTime_parts (t : ℤ) : makeTime (getUTCHours t) (getUTCMinutes t) (getUTCSeconds t)
    (getUTCMilliseconds t) = timeOf t := by
  have := timeOf_bounds t
  unfold makeTime getUTCHours getUTCMinutes getUTCSeconds getUTCMilliseconds msPerDay at *
  omega

theorem utc_eq (year month date hour minute second ms : ℤ) :
    utc year month date hour minute second ms =
      timeClip (instant (12 * makeFullYear year + month) date (makeTime hour minute second ms)) :=
  rfl

/-- Day 0 of the next month is the last day of the month. -/
theorem utc_lastDay (year month : ℤ) : utc year (month + 1) 0 0 0 0 0 =
    timeClip (instant (12 * makeFullYear year + month)
      (daysInMonth (12 * makeFullYear year + month)) 0) := by
  have next := monthStart_succ (12 * makeFullYear year + month)
  rw [utc_eq, ← add_assoc]
  unfold instant makeTime msPerDay
  congr 1
  omega

section

variable {t : ℤ} (full : makeFullYear (getUTCFullYear t) = getUTCFullYear t)
include full

theorem utc_dateOf (days : ℤ) :
    utc (getUTCFullYear t) (getUTCMonth t) (getUTCDate t + days) 0 0 0 0 =
      timeClip ((t / msPerDay + days) * msPerDay) := by
  rw [utc_eq, full, monthOf_eq]
  unfold instant getUTCDate dateOf makeTime
  congr 1
  rw [show monthStart (monthOf t) + (t / msPerDay - monthStart (monthOf t) + 1 + days) - 1 =
    t / msPerDay + days by omega]
  omega

theorem utc_seconds :
    utc (getUTCFullYear t) (getUTCMonth t) (getUTCDate t) (getUTCHours t) (getUTCMinutes t)
      (getUTCSeconds t) 0 = timeClip (t - t % 1000) := by
  rw [utc_eq, full, monthOf_eq]
  unfold instant getUTCDate dateOf makeTime getUTCHours getUTCMinutes getUTCSeconds timeOf msPerDay
  congr 1
  omega

end

end JsDate
