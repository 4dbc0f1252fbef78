import DeclutrMail.Calendar.Dates
import DeclutrMail.Calendar.Zones
import DeclutrMail.Text.Strings
import Mathlib.Algebra.Order.Group.Abs

/-!
# The local day of a Brief

A Brief is about the messages of the previous local day. `resolveBriefLocalWindow` bounds this day
by two instants, each of which it looks for from the UTC midnight of its date by correcting it with
the zone's offset, four times at most.
-/

namespace DeclutrMail.Briefs

open Gregorian JsDate

structure LocalDate where
  year : ℤ
  month : ℤ
  day : ℤ
  deriving DecidableEq

structure LocalDateParts extends LocalDate where
  hour : ℤ
  minute : ℤ
  second : ℤ
  deriving DecidableEq

structure BriefLocalWindow where
  timeZone : Text
  runDateLocal : Text
  previousDayStart : ℤ
  todayStart : ℤ
  ready : Bool
  deriving DecidableEq

def BRIEF_DEFAULT_HOUR : ℤ := 8

/-- Clamp a stored hour to a usable gate; a number that is no integer is nothing. -/
def validDeliveryHourOrDefault : Option ℤ → ℤ
  | none => BRIEF_DEFAULT_HOUR
  | some candidate => if candidate < 0 ∨ candidate > 23 then BRIEF_DEFAULT_HOUR else candidate

def validTimeZoneOrUtc (intl : Text → Option Zone) : Option Text → Text
  | none => "UTC".toList
  | some candidate =>
    if candidate ≠ [] ∧ (intl candidate).isSome then candidate else "UTC".toList

/-- The format has no era: the years before 1 are counted backwards. -/
def partsInTimeZone (instant : ℤ) (zone : Zone) : LocalDateParts :=
  let wall := zone.reading instant
  let year := getUTCFullYear wall
  { year := if year ≤ 0 then 1 - year else year
    month := getUTCMonth wall + 1
    day := getUTCDate wall
    hour := getUTCHours wall
    minute := getUTCMinutes wall
    second := getUTCSeconds wall }

def observedWallTime (instant : ℤ) (zone : Zone) : Option ℤ :=
  let observed := partsInTimeZone instant zone
  utc observed.year (observed.month - 1) observed.day observed.hour observed.minute
    observed.second 0

/-- The corrections of an instant. An invalid date ends them: no zone evaluates it. -/
def correct (zone : Zone) (targetWallTime : ℤ) : ℕ → ℤ → Option ℤ
  | 0, instant => some instant
  | attempts + 1, instant =>
    (observedWallTime instant zone).bind fun observedWallTime =>
      let correction := targetWallTime - observedWallTime
      if correction = 0 then some instant
      else (timeClip (instant + correction)).bind (correct zone targetWallTime attempts)

def localMidnightToInstant (date : LocalDate) (zone : Zone) : Option ℤ :=
  (utc date.year (date.month - 1) date.day 0 0 0 0).bind fun targetWallTime =>
    correct zone targetWallTime 4 targetWallTime

def shiftCalendarDate (date : LocalDate) (days : ℤ) : Option LocalDate :=
  (utc date.year (date.month - 1) (date.day + days) 0 0 0 0).map fun shifted =>
    ⟨getUTCFullYear shifted, getUTCMonth shifted + 1, getUTCDate shifted⟩

def padStart (length : ℕ) (n : ℤ) : Text := (toString n).toList.leftpad length '0'

def isoDate (date : LocalDate) : Text :=
  padStart 4 date.year ++ '-' :: padStart 2 date.month ++ '-' :: padStart 2 date.day

def resolveBriefLocalWindow (intl : Text → Option Zone) (now : ℤ)
    (candidateTimeZone : Option Text) (deliveryHour : Option ℤ) : Option BriefLocalWindow :=
  let timeZone := validTimeZoneOrUtc intl candidateTimeZone
  -- Every runtime evaluates UTC.
  let zone := (intl timeZone).getD .utc
  let localDate := partsInTimeZone now zone
  match shiftCalendarDate localDate.toLocalDate (-1) with
  | none => none
  | some previousLocalDate =>
    match localMidnightToInstant previousLocalDate zone,
      localMidnightToInstant localDate.toLocalDate zone with
    | some previousDayStart, some todayStart =>
      some {
        timeZone
        runDateLocal := isoDate localDate.toLocalDate
        previousDayStart
        todayStart
        ready := localDate.hour ≥ validDeliveryHourOrDefault deliveryHour }
    | _, _ => none

/-- May 25 in Kolkata, half an hour past five. -/
example : let kolkata : Zone := ⟨fun _ => 19800000⟩
    resolveBriefLocalWindow (fun _ => some kolkata) 1779667200000 (some "Asia/Kolkata".toList)
      (some 8) = some ⟨"Asia/Kolkata".toList, "2026-05-25".toList, 1779561000000, 1779647400000,
        false⟩ := by decide +kernel

/-! ## Corrections -/

/-- An offset from UTC: whole seconds, a day at most. -/
def IsOffset (zone : Zone) : Prop :=
  ∀ t, 1000 ∣ zone.offset t ∧ -msPerDay ≤ zone.offset t ∧ zone.offset t ≤ msPerDay

/-- The readings that the dates compose as the calendar has them. -/
def Modern (wall : ℤ) : Prop := yearStart 100 * msPerDay ≤ wall ∧ wall ≤ maxTime

section Modern

variable {wall : ℤ} (modern : Modern wall)
include modern

theorem Modern.year : 100 ≤ getUTCFullYear wall := by
  refine le_yearOfDay.mpr ?_
  unfold Modern msPerDay at *
  omega

theorem Modern.makeFullYear : makeFullYear (getUTCFullYear wall) = getUTCFullYear wall :=
  if_neg (by have := modern.year; omega)

theorem Modern.valid : Valid wall := by
  have first : -maxTime ≤ yearStart 100 * msPerDay := by decide
  exact ⟨first.trans modern.1, modern.2⟩

end Modern

variable {zone : Zone} {instant : ℤ}

theorem partsInTimeZone_date (modern : Modern (zone.reading instant)) :
    (partsInTimeZone instant zone).toLocalDate =
      ⟨getUTCFullYear (zone.reading instant), getUTCMonth (zone.reading instant) + 1,
        getUTCDate (zone.reading instant)⟩ := by
  unfold partsInTimeZone
  dsimp only
  rw [if_neg (by have := modern.year; omega)]

theorem observedWallTime_eq (modern : Modern (zone.reading instant))
    (whole : 1000 ∣ zone.reading instant) :
    observedWallTime instant zone = some (zone.reading instant) := by
  have year := congrArg LocalDate.year (partsInTimeZone_date modern)
  unfold observedWallTime
  dsimp only at year ⊢
  rw [year]
  unfold partsInTimeZone
  dsimp only
  rw [add_sub_cancel_right, utc_seconds modern.makeFullYear, Int.emod_eq_zero_of_dvd whole,
    sub_zero]
  exact if_pos modern.valid

/-- A midnight whose date and the days around it the dates compose as the calendar has them. -/
def Settled (midnight : ℤ) : Prop :=
  Modern (midnight - 2 * msPerDay) ∧ Modern (midnight + 2 * msPerDay) ∧ msPerDay ∣ midnight

section Midnight

variable {midnight : ℤ} (offsets : IsOffset zone) (settled : Settled midnight)
include offsets settled

/-- The corrections move by the offset alone. -/
theorem correct_eq (attempts : ℕ) :
    ∀ instant, midnight - msPerDay ≤ instant → instant ≤ midnight + msPerDay → 1000 ∣ instant →
      correct zone midnight attempts instant =
        some ((zone.towards midnight)^[attempts] instant) := by
  induction attempts with
  | zero =>
    intro instant _ _ _
    rw [correct, Function.iterate_zero, id]
  | succ attempts ih =>
    intro instant low high whole
    obtain ⟨early, late, days⟩ := settled
    obtain ⟨whole_offset, least, most⟩ := offsets instant
    have modern : Modern (zone.reading instant) := by
      unfold Modern Zone.reading msPerDay at *
      omega
    have moved : instant + (midnight - zone.reading instant) = zone.towards midnight instant := rfl
    have next : zone.towards midnight instant = midnight - zone.offset instant :=
      Zone.towards_eq ..
    have reads : 1000 ∣ zone.reading instant := Int.dvd_add whole whole_offset
    rw [correct, observedWallTime_eq modern reads, Option.bind_some]
    dsimp only
    rw [moved]
    split_ifs with found
    · have fixed : zone.towards midnight instant = instant := by rw [← moved, found, add_zero]
      rw [Function.iterate_fixed fixed]
    · have valid : Valid (zone.towards midnight instant) := by
        have first : -maxTime ≤ yearStart 100 * msPerDay := by decide
        rw [next]
        unfold Valid Modern msPerDay at *
        omega
      have seconds : (1000 : ℤ) ∣ midnight := Int.dvd_trans ⟨86400, rfl⟩ days
      rw [timeClip, if_pos valid, Option.bind_some]
      exact ih _ (by rw [next]; omega) (by rw [next]; omega)
        (by rw [next]; exact Int.dvd_sub seconds whole_offset)

theorem localMidnightToInstant_eq (date : LocalDate)
    (target : utc date.year (date.month - 1) date.day 0 0 0 0 = some midnight) :
    localMidnightToInstant date zone = some ((zone.towards midnight)^[4] midnight) := by
  have seconds : (1000 : ℤ) ∣ midnight := Int.dvd_trans ⟨86400, rfl⟩ settled.2.2
  rw [localMidnightToInstant, target, Option.bind_some]
  exact correct_eq offsets settled 4 midnight (by unfold msPerDay; omega)
    (by unfold msPerDay; omega) seconds

end Midnight

/-! ## The window -/

/-- The local day of an instant, counted from 1970-01-01. -/
def localDay (zone : Zone) (instant : ℤ) : ℤ := zone.reading instant / msPerDay

/-- The midnight that begins a local day, as its clock reads it. -/
def midnightOf (day : ℤ) : ℤ := day * msPerDay

section Resolve

variable {intl : Text → Option Zone} {now : ℤ} {candidate : Option Text}

/-- The local date and the days around it are of years that the dates compose, from 100 on. -/
def Dated (zone : Zone) (now : ℤ) : Prop :=
  yearStart 100 + 3 ≤ localDay zone now ∧ localDay zone now + 2 ≤ 100000000

instance (zone : Zone) (now : ℤ) : Decidable (Dated zone now) :=
  inferInstanceAs (Decidable (_ ∧ _))

theorem settled_midnightOf (dated : Dated zone now) {day : ℤ} (low : localDay zone now - 1 ≤ day)
    (high : day ≤ localDay zone now) : Settled (midnightOf day) := by
  have hundred : yearStart 100 = -683003 := by decide
  unfold Settled Modern midnightOf Dated at *
  rw [hundred] at dated ⊢
  unfold msPerDay maxTime
  omega

section

variable (dated : Dated zone now)
include dated

theorem modern_reading : Modern (zone.reading now) := by
  have settled := settled_midnightOf dated (by omega) le_rfl
  unfold Settled Modern midnightOf localDay msPerDay at *
  omega

/-- The dates that the window is about, as midnights. -/
theorem utc_today (days : ℤ) : let today := (partsInTimeZone now zone).toLocalDate
    utc today.year (today.month - 1) (today.day + days) 0 0 0 0 =
      timeClip (midnightOf (localDay zone now + days)) := by
  have modern := modern_reading dated
  rw [partsInTimeZone_date modern]
  dsimp only
  rw [add_sub_cancel_right, utc_dateOf modern.makeFullYear]
  rfl

theorem utc_shiftCalendarDate : ∃ date,
    shiftCalendarDate (partsInTimeZone now zone).toLocalDate (-1) = some date ∧
      utc date.year (date.month - 1) date.day 0 0 0 0 =
        some (midnightOf (localDay zone now - 1)) := by
  have settled := settled_midnightOf dated le_rfl (by omega)
  have modern : Modern (midnightOf (localDay zone now - 1)) := by
    unfold Settled Modern msPerDay at *
    omega
  have shifted := utc_today dated (-1)
  rw [timeClip, ← sub_eq_add_neg, if_pos modern.valid] at shifted
  refine ⟨_, by rw [shiftCalendarDate, shifted, Option.map_some], ?_⟩
  dsimp only
  have date := utc_dateOf modern.makeFullYear 0
  rw [add_zero] at date
  rw [add_sub_cancel_right, date, timeClip]
  have same : (midnightOf (localDay zone now - 1) / msPerDay + 0) * msPerDay =
      midnightOf (localDay zone now - 1) := by
    unfold midnightOf msPerDay
    omega
  rw [same]
  exact if_pos modern.valid

end

/-- The window is bounded by where the corrections lead from its two midnights. -/
theorem resolveBriefLocalWindow_eq (hour : Option ℤ)
    (resolved : (intl (validTimeZoneOrUtc intl candidate)).getD .utc = zone)
    (offsets : IsOffset zone) (dated : Dated zone now) :
    ∃ window, resolveBriefLocalWindow intl now candidate hour = some window ∧
      window.previousDayStart = (zone.towards (midnightOf (localDay zone now - 1)))^[4]
        (midnightOf (localDay zone now - 1)) ∧
      window.todayStart = (zone.towards (midnightOf (localDay zone now)))^[4]
        (midnightOf (localDay zone now)) := by
  obtain ⟨previous, shifted, previous_midnight⟩ := utc_shiftCalendarDate dated
  have today := utc_today dated 0
  have settled := settled_midnightOf dated (by omega) le_rfl
  have modern : Modern (midnightOf (localDay zone now)) := by
    unfold Settled Modern msPerDay at *
    omega
  dsimp only at today
  rw [add_zero, add_zero, timeClip, if_pos modern.valid] at today
  have starts := localMidnightToInstant_eq offsets settled _ today
  have starts' := localMidnightToInstant_eq offsets
    (settled_midnightOf dated le_rfl (by omega)) _ previous_midnight
  unfold resolveBriefLocalWindow
  dsimp only
  rw [resolved, shifted]
  dsimp only
  rw [starts, starts']
  exact ⟨_, rfl, rfl, rfl⟩

end Resolve

end DeclutrMail.Briefs
