import DeclutrMail.Actions.CleanupMeter
import DeclutrMail.Calendar.Dates

/-!
# Cleanup periods of dates

`cleanupPeriodFor` computes the quota period of a time from the workspace's signup, with the dates
of ECMAScript: it counts the calendar months between the two and corrects the count by at most
one. The periods tile the time from the signup on (`cleanupPeriodFor_tiles_iff`), except where the
dates themselves end and for a signup in the years that `Date.UTC` takes for others. They are the
periods that the meter counts by (`toInstant_plusMonths`).
-/

namespace DeclutrMail.Actions.Dates

open Gregorian JsDate

/-- Nothing is a date that is no time. -/
structure CleanupPeriod where
  periodStart : Option ℤ
  resetsAt : Option ℤ
  deriving DecidableEq

/-- Anchor + N months in UTC, day-of-month clamped to the target month's last day. -/
def addMonthsClampedUtc (anchor months : ℤ) : Option ℤ :=
  let targetMonth := getUTCMonth anchor + months
  match utc (getUTCFullYear anchor) (targetMonth + 1) 0 0 0 0 0 with
  | none => none
  | some lastDay =>
    let lastDayOfTarget := getUTCDate lastDay
    utc (getUTCFullYear anchor) targetMonth (min (getUTCDate anchor) lastDayOfTarget)
      (getUTCHours anchor) (getUTCMinutes anchor) (getUTCSeconds anchor)
      (getUTCMilliseconds anchor)

def cleanupMonths (workspaceCreatedAt now : ℤ) : ℤ :=
  let months := (getUTCFullYear now - getUTCFullYear workspaceCreatedAt) * 12 +
    (getUTCMonth now - getUTCMonth workspaceCreatedAt)
  -- The difference overshoots by one before the anchor's day and time of its month.
  let months :=
    if 0 < months ∧ (addMonthsClampedUtc workspaceCreatedAt months).any (now < ·) then months - 1
    else months
  if months < 0 then 0 else months

def cleanupPeriodFor (workspaceCreatedAt now : ℤ) : CleanupPeriod :=
  let months := cleanupMonths workspaceCreatedAt now
  ⟨addMonthsClampedUtc workspaceCreatedAt months,
    addMonthsClampedUtc workspaceCreatedAt (months + 1)⟩

/-- The last month of which every day is a date: August of the year 275760. -/
def lastMonth : ℤ := 275760 * 12 + 7

/-- A time that a period may be anchored at. -/
def ofFullYear (t : ℤ) : Prop := ¬ (0 ≤ getUTCFullYear t ∧ getUTCFullYear t ≤ 99)

instance (t : ℤ) : Decidable (ofFullYear t) := inferInstanceAs (Decidable (¬ _))

/-! ## Adding months -/

variable {createdAt now : ℤ}

/-- The month that the dates are composed in. -/
def monthTaken (t : ℤ) : ℤ := 12 * makeFullYear (getUTCFullYear t) + getUTCMonth t

theorem monthTaken_of_full (full : ofFullYear createdAt) :
    monthTaken createdAt = monthOf createdAt := by
  rw [monthTaken, makeFullYear, if_neg full, monthOf_eq]

theorem monthTaken_of_not_full (early : ¬ ofFullYear createdAt) :
    monthTaken createdAt = monthOf createdAt + 22800 := by
  rw [monthTaken, makeFullYear, if_pos (not_not.mp early), ← monthOf_eq createdAt]
  omega

theorem addMonthsClampedUtc_eq (t months : ℤ) :
    addMonthsClampedUtc t months =
      let month := monthTaken t + months
      if Valid (instant month (daysInMonth month) 0) then
        timeClip (instant month (min (dateOf t) (daysInMonth month)) (timeOf t))
      else none := by
  have target : 12 * makeFullYear (getUTCFullYear t) + (getUTCMonth t + months) =
      monthTaken t + months := (add_assoc _ _ _).symm
  have length := daysInMonth_pos (monthTaken t + months)
  unfold addMonthsClampedUtc
  dsimp only
  rw [utc_lastDay, target, timeClip]
  split_ifs with valid
  · have date : getUTCDate (instant (monthTaken t + months)
        (daysInMonth (monthTaken t + months)) 0) = daysInMonth (monthTaken t + months) :=
      dateOf_instant (by omega) le_rfl le_rfl (by decide)
    simp only [date]
    rw [utc_eq, target, makeTime_parts]
    rfl
  · rfl

theorem monthOf_addMonthsClampedUtc {t months added : ℤ}
    (h : addMonthsClampedUtc t months = some added) : monthOf added = monthTaken t + months := by
  have date := dateOf_bounds t
  have length := daysInMonth_pos (monthTaken t + months)
  rw [addMonthsClampedUtc_eq] at h
  dsimp only at h
  split_ifs at h
  unfold timeClip at h
  split_ifs at h
  obtain rfl := Option.some.inj h
  exact monthOf_instant (by omega) (min_le_right _ _) (timeOf_bounds t).1 (timeOf_bounds t).2

theorem plusMonths_lt (t months : ℤ) :
    plusMonths t months < monthStart (monthOf t + months + 1) * msPerDay := by
  have next := monthStart_succ (monthOf t + months)
  have time := timeOf_bounds t
  have last := min_le_right (dateOf t) (daysInMonth (monthOf t + months))
  unfold plusMonths instant msPerDay at *
  omega

theorem valid_lastDay {month : ℤ} (low : -100000000 < monthStart (month + 1)) :
    Valid (instant month (daysInMonth month) 0) ↔ month ≤ lastMonth := by
  have next := monthStart_succ month
  have august : monthStart (lastMonth + 1) = 99999988 := by decide
  have september : monthStart (lastMonth + 2) = 100000018 := by decide
  unfold Valid instant maxTime msPerDay
  constructor
  · intro valid
    by_contra beyond
    have := monthStart_strictMono.monotone (show lastMonth + 2 ≤ month + 1 by omega)
    omega
  · intro within
    have := monthStart_strictMono.monotone (show month + 1 ≤ lastMonth + 1 by omega)
    omega

section Full

variable (full : ofFullYear createdAt) (valid : Valid createdAt) {months : ℤ} (later : 0 ≤ months)
include valid later

theorem valid_plusMonths (within : monthOf createdAt + months ≤ lastMonth) :
    Valid (plusMonths createdAt months) := by
  have low := (plusMonths_strictMono createdAt).monotone later
  have high := plusMonths_lt createdAt months
  have august : monthStart (lastMonth + 1) = 99999988 := by decide
  have := monthStart_strictMono.monotone
    (show monthOf createdAt + months + 1 ≤ lastMonth + 1 by omega)
  rw [plusMonths_zero] at low
  unfold Valid maxTime at *
  unfold msPerDay at high
  omega

include full

/-- As long as the whole target month exists, months are added as the calendar has it. -/
theorem addMonthsClampedUtc_full : addMonthsClampedUtc createdAt months =
    if monthOf createdAt + months ≤ lastMonth then some (plusMonths createdAt months)
    else none := by
  have low : -100000000 < monthStart (monthOf createdAt + months + 1) := by
    have high := plusMonths_lt createdAt months
    have anchored := (plusMonths_strictMono createdAt).monotone later
    rw [plusMonths_zero] at anchored
    unfold Valid maxTime at valid
    unfold msPerDay at high
    omega
  rw [addMonthsClampedUtc_eq, monthTaken_of_full full]
  dsimp only
  simp only [valid_lastDay low]
  split_ifs with within
  · exact if_pos (valid_plusMonths valid later within)
  · rfl

theorem addMonthsClampedUtc_within (within : monthOf createdAt + months ≤ lastMonth) :
    addMonthsClampedUtc createdAt months = some (plusMonths createdAt months) := by
  rw [addMonthsClampedUtc_full full valid later, if_pos within]

theorem addMonthsClampedUtc_beyond (beyond : ¬ monthOf createdAt + months ≤ lastMonth) :
    addMonthsClampedUtc createdAt months = none := by
  rw [addMonthsClampedUtc_full full valid later, if_neg beyond]

end Full

/-! ## Periods -/

/-- The months of a growing sequence that surround a time. -/
theorem exists_months {f : ℤ → ℤ} {t : ℤ} (low : f 0 ≤ t) :
    ∀ {m : ℕ}, t < f m → ∃ n : ℕ, n < m ∧ f n ≤ t ∧ t < f (n + 1)
  | 0, high => absurd high (not_lt.mpr low)
  | m + 1, high => by
    by_cases before : t < f m
    · obtain ⟨n, lt, bounds⟩ := exists_months low before
      exact ⟨n, by omega, bounds⟩
    · exact ⟨m, by omega, not_lt.mp before, by exact_mod_cast high⟩

theorem cleanupMonths_eq (createdAt now : ℤ) : cleanupMonths createdAt now =
    let months := monthOf now - monthOf createdAt
    max 0 (if 0 < months ∧ (addMonthsClampedUtc createdAt months).any (now < ·) then months - 1
      else months) := by
  have months : (getUTCFullYear now - getUTCFullYear createdAt) * 12 +
      (getUTCMonth now - getUTCMonth createdAt) = monthOf now - monthOf createdAt := by
    have := monthOf_eq now
    have := monthOf_eq createdAt
    omega
  unfold cleanupMonths
  dsimp only
  rw [months]
  split_ifs <;> omega

/-- The count is right wherever the month of the time is still one of whole dates. -/
theorem cleanupMonths_of_between (full : ofFullYear createdAt) (valid : Valid createdAt) {n : ℕ}
    (start : plusMonths createdAt n ≤ now) (reset : now < plusMonths createdAt (n + 1))
    (within : monthOf now ≤ lastMonth) : cleanupMonths createdAt now = n := by
  have low := monthOf_mono start
  have high := monthOf_mono reset.le
  rw [monthOf_plusMonths] at low high
  rw [cleanupMonths_eq]
  dsimp only
  rcases eq_or_lt_of_le low with same | next
  · -- The month of the start: the correction sees a start that is not after now.
    have months : monthOf now - monthOf createdAt = n := by omega
    rw [months, addMonthsClampedUtc_within full valid (by omega) (by omega), if_neg]
    · omega
    · simpa using fun _ => start
  · have months : monthOf now - monthOf createdAt = n + 1 := by omega
    rw [months, addMonthsClampedUtc_within full valid (by omega) (by omega), if_pos]
    · omega
    · exact ⟨by omega, by simpa using reset⟩

/-- The period of `now` contains it and is bounded by whole months from the anchor. Every time in
it has the same period, and its end is the start of the next. -/
def Tiles (createdAt now : ℤ) : Prop :=
  ∃ months : ℕ, ∃ resetsAt : ℤ,
    resetsAt = plusMonths createdAt (months + 1) ∧
    cleanupPeriodFor createdAt now = ⟨some (plusMonths createdAt months), some resetsAt⟩ ∧
    plusMonths createdAt months ≤ now ∧ now < resetsAt ∧
    (∀ now', plusMonths createdAt months ≤ now' → now' < resetsAt →
      cleanupPeriodFor createdAt now' = cleanupPeriodFor createdAt now) ∧
    (cleanupPeriodFor createdAt resetsAt).periodStart = some resetsAt

/-- The anchor is in a year that the dates keep, and the end of the period in a whole month. -/
def Dated (createdAt now : ℤ) : Prop :=
  ofFullYear createdAt ∧
    ∃ months : ℕ, now < plusMonths createdAt months ∧ monthOf createdAt + months ≤ lastMonth

theorem tiles_of_dated (valid : Valid createdAt) (created : createdAt ≤ now)
    (dated : Dated createdAt now) : Tiles createdAt now := by
  obtain ⟨full, m, before, whole⟩ := dated
  obtain ⟨n, lt, start, reset⟩ :=
    exists_months (f := plusMonths createdAt) (by simpa using created) before
  have count {now' : ℤ} (start : plusMonths createdAt n ≤ now')
      (reset : now' < plusMonths createdAt (n + 1)) : cleanupMonths createdAt now' = n := by
    have month := monthOf_mono reset.le
    rw [monthOf_plusMonths] at month
    exact cleanupMonths_of_between full valid start reset (by omega)
  have next : cleanupMonths createdAt (plusMonths createdAt (n + 1)) = n + 1 := by
    have := cleanupMonths_of_between full valid (n := n + 1) (by push_cast; rfl)
      (plusMonths_strictMono createdAt (by omega))
      (by rw [monthOf_plusMonths]; omega)
    exact_mod_cast this
  have added {k : ℤ} (later : 0 ≤ k) (within : k ≤ n + 1) :
      addMonthsClampedUtc createdAt k = some (plusMonths createdAt k) :=
    addMonthsClampedUtc_within full valid later (by omega)
  refine ⟨n, _, rfl, ?_, start, reset, fun now' start' reset' => ?_, ?_⟩
  · rw [cleanupPeriodFor, count start reset, added (by omega) (by omega),
      added (by omega) le_rfl]
  · rw [cleanupPeriodFor, count start' reset', cleanupPeriodFor, count start reset]
  · rw [cleanupPeriodFor, next]
    exact added (by omega) le_rfl

theorem dated_of_tiles (valid : Valid createdAt) (tiles : Tiles createdAt now) :
    Dated createdAt now := by
  obtain ⟨n, _, rfl, period, start, reset, -⟩ := tiles
  have startsAt := congrArg CleanupPeriod.periodStart period
  have endsAt := congrArg CleanupPeriod.resetsAt period
  have months := monthOf_addMonthsClampedUtc startsAt
  have end_month := monthOf_addMonthsClampedUtc endsAt
  rw [monthOf_plusMonths] at months end_month
  have low := monthOf_mono start
  rw [monthOf_plusMonths] at low
  have full : ofFullYear createdAt := by
    by_contra early
    rw [monthTaken_of_not_full early, cleanupMonths_eq] at months
    dsimp only at months
    split_ifs at months <;> omega
  refine ⟨full, n + 1, by exact_mod_cast reset, ?_⟩
  rw [monthTaken_of_full full] at months
  have count : cleanupMonths createdAt now = n := by omega
  by_contra beyond
  rw [Nat.cast_succ] at beyond
  rw [cleanupPeriodFor, count] at endsAt
  exact absurd (endsAt.symm.trans (addMonthsClampedUtc_beyond full valid (by omega) beyond)) nofun

def toInstant (t : ℤ) : Instant := .of (monthOf t) (dateOf t).toNat (timeOf t).toNat

theorem lastDayOf_eq (month : ℤ) : (lastDayOf month : ℤ) = daysInMonth month := by
  have low := Int.emod_nonneg month (show (12 : ℤ) ≠ 0 by decide)
  have high := Int.emod_lt_of_pos month (show (0 : ℤ) < 12 by decide)
  unfold lastDayOf daysInMonth monthLength leapDay
  dsimp only
  generalize month % 12 = rest at low high
  interval_cases rest <;> simp
  split_ifs <;> rfl

theorem toInstant_plusMonths (t months : ℤ) :
    toInstant (plusMonths t months) = Actions.addMonthsClampedUtc (toInstant t) months := by
  have date := dateOf_bounds t
  have length := lastDayOf_eq (monthOf t + months)
  have within := min_le_right (dateOf t) (daysInMonth (monthOf t + months))
  have first := plusMonths_date t months
  have time := timeOf_bounds t
  have month := monthOf_plusMonths t months
  unfold toInstant
  rw [month]
  unfold plusMonths
  rw [dateOf_instant first within time.1 time.2, timeOf_instant time.1 time.2]
  unfold Actions.addMonthsClampedUtc
  change Instant.of _ _ _ = Instant.of _ _ _
  congr 1
  change (min (dateOf t) _).toNat = min (dateOf t).toNat (lastDayOf (monthOf t + months))
  omega

theorem toInstant_strictMono : StrictMono toInstant := by
  intro s t lt
  have months := monthOf_mono lt.le
  rcases months.lt_or_eq with before | same
  · exact Instant.lt_of_month_lt before
  have s_date := dateOf_bounds s
  have t_date := dateOf_bounds t
  have s_time := timeOf_bounds s
  have t_time := timeOf_bounds t
  have s_parts := instant_parts s
  have t_parts := instant_parts t
  unfold instant at s_parts t_parts
  rw [same] at s_parts
  unfold msPerDay at *
  refine Prod.Lex.lt_iff.mpr (.inr ⟨same, ?_⟩)
  rcases lt_or_ge (dateOf s) (dateOf t) with earlier | later
  · exact Prod.Lex.lt_iff.mpr (.inl (by change (dateOf s).toNat < (dateOf t).toNat; omega))
  · refine Prod.Lex.lt_iff.mpr (.inr ⟨?_, ?_⟩)
    · change (dateOf s).toNat = (dateOf t).toNat
      omega
    · change (timeOf s).toNat < (timeOf t).toNat
      omega

/-- The meter counts by the periods of the dates. -/
theorem cleanupPeriodFor_toInstant (valid : Valid createdAt) (created : createdAt ≤ now)
    (dated : Dated createdAt now) :
    ∃ periodStart resetsAt, cleanupPeriodFor createdAt now = ⟨some periodStart, some resetsAt⟩ ∧
      Actions.cleanupPeriodFor (toInstant createdAt) (toInstant now) =
        ⟨toInstant periodStart, toInstant resetsAt⟩ := by
  obtain ⟨n, _, rfl, period, start, reset, -⟩ := tiles_of_dated valid created dated
  have meter : monthsSince (toInstant createdAt) (toInstant now) = n := by
    have low := monthOf_mono start
    have high := monthOf_mono reset.le
    rw [monthOf_plusMonths] at low high
    have after (m : ℤ) : toInstant now < Actions.addMonthsClampedUtc (toInstant createdAt) m ↔
        now < plusMonths createdAt m := by
      rw [← toInstant_plusMonths]
      exact toInstant_strictMono.lt_iff_lt
    have months : (toInstant now).month - (toInstant createdAt).month =
        monthOf now - monthOf createdAt := rfl
    unfold monthsSince
    simp only [gt_iff_lt, months, after]
    rcases eq_or_lt_of_le low with same | next
    · rw [show monthOf now - monthOf createdAt = n by omega, if_neg (by omega)]
      omega
    · rw [show monthOf now - monthOf createdAt = n + 1 by omega, if_pos (by omega)]
      omega
  refine ⟨_, _, period, ?_⟩
  rw [Actions.cleanupPeriodFor, meter, toInstant_plusMonths, toInstant_plusMonths]
  rfl

end DeclutrMail.Actions.Dates
