import DeclutrMail.Briefs.LocalWindow

/-!
# Briefs are of whole local days

What the window of a Brief should be is said by the local days of its instants (`Bounds`). Near one
change of the offset the corrections find the midnights that the clock reads once. One that it
skips or repeats they find or miss by the side of the change on which they start, at the UTC
midnight of the date: `resolveBriefLocalWindow_bounds_iff` has the changes that mislead them.
-/

namespace DeclutrMail.Briefs

open Gregorian JsDate

/-- The window is of the latest local day before that of `now`. -/
structure Bounds (zone : Zone) (now previousDayStart todayStart : ℤ) : Prop where
  past : todayStart ≤ now
  today : ∀ t, localDay zone t = localDay zone now → todayStart ≤ t
  previous : ∀ t, previousDayStart ≤ t → t < todayStart →
    localDay zone t < localDay zone now ∧
      ∀ s, localDay zone s < localDay zone now → localDay zone s ≤ localDay zone t
  nonempty : previousDayStart < todayStart

/-- In the three days either side of a midnight the offset changes once at most, at `c`. -/
structure OneChange (zone : Zone) (midnight c old new : ℤ) : Prop where
  once : zone.ChangesOnce (midnight - 3 * msPerDay) (midnight + 3 * msPerDay) c old new
  size : |new - old| ≤ msPerDay
  old_offset : |old| ≤ msPerDay
  new_offset : |new| ≤ msPerDay

/-- The change does not mislead the corrections for a midnight and the one a day before. Before
the change the clock has come to `c + old`, which it reads as `c + new` from it on. -/
structure Harmless (midnight c old new : ℤ) : Prop where
  skipped : c ≤ midnight → ¬ (c + old < midnight ∧ midnight < c + new)
  repeated : c ≤ midnight → ¬ (c + new ≤ midnight ∧ midnight < c + old)
  absent : midnight < c → new = old + msPerDay →
    ¬ (midnight - msPerDay < c + old ∧ c + old ≤ midnight)
  previous_skipped : midnight - msPerDay < c →
    c + old ≤ midnight - msPerDay → midnight - msPerDay < c + new →
    c + old = midnight - msPerDay ∧ c + new = midnight
  previous_repeated : midnight - msPerDay < c →
    ¬ (c + new < midnight - msPerDay ∧ midnight - msPerDay < c + old)
  previous_absent : c ≤ midnight - msPerDay → new = old + msPerDay →
    ¬ (c + old ≤ midnight - msPerDay ∧ midnight - msPerDay < c + new)

/-- Where the corrections lead from a midnight. -/
def found (midnight c old new : ℤ) : ℤ :=
  if midnight < c then if midnight - old < c then midnight - old else midnight - new
  else if c ≤ midnight - new then midnight - new else midnight - old

variable {zone : Zone} {now c old new : ℤ}

theorem localDay_lt_iff {t day : ℤ} : localDay zone t < day ↔ zone.reading t < midnightOf day := by
  unfold localDay midnightOf msPerDay
  omega

theorem le_localDay_iff {t day : ℤ} : day ≤ localDay zone t ↔ midnightOf day ≤ zone.reading t := by
  unfold localDay midnightOf msPerDay
  omega

theorem midnightOf_pred (day : ℤ) : midnightOf (day - 1) = midnightOf day - msPerDay := by
  unfold midnightOf msPerDay
  omega

theorem midnightOf_succ (day : ℤ) : midnightOf (day + 1) = midnightOf day + msPerDay := by
  unfold midnightOf msPerDay
  omega

section

variable {midnight : ℤ} (one : OneChange zone midnight c old new)
include one

theorem OneChange.reading {t : ℤ} (low : midnight - 3 * msPerDay ≤ t)
    (high : t ≤ midnight + 3 * msPerDay) :
    zone.reading t = t + if t < c then old else new := by
  rw [Zone.reading, one.once t low high]

theorem OneChange.iterate_towards {target : ℤ} (low : midnight - msPerDay ≤ target)
    (high : target ≤ midnight) :
    (zone.towards target)^[4] target = found target c old new := by
  obtain ⟨once, -, old_offset, new_offset⟩ := one
  rw [abs_le] at old_offset new_offset
  unfold msPerDay at *
  exact once.iterate_towards (by omega) (by omega) (by omega)

end

section

variable (one : OneChange zone (midnightOf (localDay zone now)) c old new)
include one

/-- A bound that is off shows at an instant beside the change. -/
theorem harmless_of_bounds
    (bounds : Bounds zone now (found (midnightOf (localDay zone now) - msPerDay) c old new)
      (found (midnightOf (localDay zone now)) c old new)) :
    Harmless (midnightOf (localDay zone now)) c old new := by
  have reads {t : ℤ} := one.reading (t := t)
  obtain ⟨-, size, old_offset, new_offset⟩ := one
  rw [abs_le] at size old_offset new_offset
  obtain ⟨-, today, previous, nonempty⟩ := bounds
  have of_today {t : ℤ} (low : midnightOf (localDay zone now) ≤ zone.reading t)
      (high : zone.reading t < midnightOf (localDay zone now) + msPerDay) :
      found (midnightOf (localDay zone now)) c old new ≤ t := by
    refine today t (le_antisymm ?_ (le_localDay_iff.mpr low))
    rw [← midnightOf_succ, ← localDay_lt_iff] at high
    omega
  have of_previous {s t : ℤ} (low : midnightOf (localDay zone now) - msPerDay ≤ zone.reading s)
      (high : zone.reading s < midnightOf (localDay zone now))
      (after : found (midnightOf (localDay zone now) - msPerDay) c old new ≤ t)
      (before : t < found (midnightOf (localDay zone now)) c old new) :
      midnightOf (localDay zone now) - msPerDay ≤ zone.reading t := by
    rw [← midnightOf_pred, ← le_localDay_iff] at low ⊢
    have := (previous t after before).2 s (localDay_lt_iff.mpr high)
    omega
  have length : msPerDay = 86400000 := rfl
  generalize midnightOf (localDay zone now) = midnight at *
  constructor
  · -- The first instant of the day is that of the change.
    rintro early ⟨before, beyond⟩
    have start : found midnight c old new = midnight - old := by
      unfold found
      split_ifs <;> omega
    have reading := reads (t := c) (by omega) (by omega)
    rw [if_neg (lt_irrefl c)] at reading
    have := of_today (t := c) (by omega) (by omega)
    omega
  · -- The clock has read the midnight before it is put back.
    rintro early ⟨before, beyond⟩
    have start : found midnight c old new = midnight - new := by
      unfold found
      split_ifs <;> omega
    have reading := reads (t := midnight - old) (by omega) (by omega)
    rw [if_pos (by omega)] at reading
    have := of_today (t := midnight - old) (by omega) (by omega)
    omega
  · -- Both midnights lead to the same instant.
    rintro late whole ⟨before, beyond⟩
    have start : found (midnight - msPerDay) c old new = midnight - msPerDay - old := by
      unfold found
      split_ifs <;> omega
    have finish : found midnight c old new = midnight - new := by
      unfold found
      split_ifs <;> omega
    omega
  · -- The previous day starts with instants of the day before it.
    intro late before beyond
    by_contra partly
    have start : found (midnight - msPerDay) c old new = midnight - msPerDay - new := by
      unfold found
      split_ifs <;> omega
    have finish : found midnight c old new = midnight - new := by
      unfold found
      split_ifs <;> omega
    have first := reads (t := midnight - msPerDay - new) (by omega) (by omega)
    rw [if_pos (by omega)] at first
    have later := reads (t := c) (by omega) (by omega)
    rw [if_neg (lt_irrefl c)] at later
    have := of_previous (s := c) (t := midnight - msPerDay - new) (by omega) (by omega)
      (by omega) (by omega)
    omega
  · -- The clock is put back into the day before.
    rintro late ⟨before, beyond⟩
    have start : found (midnight - msPerDay) c old new = midnight - msPerDay - old := by
      unfold found
      split_ifs <;> omega
    have finish : found midnight c old new = midnight - new := by
      unfold found
      split_ifs <;> omega
    have first := reads (t := midnight - msPerDay - old) (by omega) (by omega)
    rw [if_pos (by omega)] at first
    have later := reads (t := c) (by omega) (by omega)
    rw [if_neg (lt_irrefl c)] at later
    have := of_previous (s := midnight - msPerDay - old) (t := c) (by omega) (by omega)
      (by omega) (by omega)
    omega
  · -- As above.
    rintro early whole ⟨before, beyond⟩
    have start : found (midnight - msPerDay) c old new = midnight - msPerDay - old := by
      unfold found
      split_ifs <;> omega
    have finish : found midnight c old new = midnight - new := by
      unfold found
      split_ifs <;> omega
    omega

/-- Otherwise the clock reads the day from its bound on, and the day before up to it. -/
theorem bounds_of_harmless (offsets : IsOffset zone)
    (harmless : Harmless (midnightOf (localDay zone now)) c old new) :
    Bounds zone now (found (midnightOf (localDay zone now) - msPerDay) c old new)
      (found (midnightOf (localDay zone now)) c old new) := by
  have reads {t : ℤ} := one.reading (t := t)
  have bounded (t : ℤ) := (offsets t).2
  obtain ⟨-, size, old_offset, new_offset⟩ := one
  rw [abs_le] at size old_offset new_offset
  obtain ⟨skipped, repeated, absent, previous_skipped, previous_repeated, previous_absent⟩ :=
    harmless
  have length : msPerDay = 86400000 := rfl
  have near {t : ℤ} : t - msPerDay ≤ zone.reading t ∧ zone.reading t ≤ t + msPerDay := by
    have := bounded t
    unfold Zone.reading
    omega
  have today (t : ℤ) (same : localDay zone t = localDay zone now) :
      found (midnightOf (localDay zone now)) c old new ≤ t := by
    have low := le_localDay_iff.mp same.ge
    have high := localDay_lt_iff.mp (Int.lt_add_one_of_le same.le)
    rw [midnightOf_succ] at high
    have := near (t := t)
    have reading := reads (t := t) (by omega) (by omega)
    unfold found
    split_ifs at reading ⊢ <;> omega
  refine ⟨today now rfl, today, fun t after before => ?_, ?_⟩
  · have near_t := near (t := t)
    have window : midnightOf (localDay zone now) - 2 * msPerDay ≤ t ∧
        t ≤ midnightOf (localDay zone now) + msPerDay := by
      unfold found at after before
      split_ifs at after before <;> omega
    have reading := reads (t := t) (by omega) (by omega)
    have earlier : zone.reading t < midnightOf (localDay zone now) := by
      unfold found at after before
      split_ifs at after before reading <;> omega
    refine ⟨localDay_lt_iff.mpr earlier, fun s before_s => ?_⟩
    by_cases previous : midnightOf (localDay zone now) - msPerDay ≤ zone.reading t
    · rw [← midnightOf_pred, ← le_localDay_iff] at previous
      omega
    · -- The day before is skipped as a whole, and this is the one before it.
      have whole : c + old = midnightOf (localDay zone now) - msPerDay ∧
          c + new = midnightOf (localDay zone now) ∧
          midnightOf (localDay zone now) - msPerDay - msPerDay ≤ zone.reading t := by
        unfold found at after before
        split_ifs at after before reading <;> omega
      have skips : zone.reading s < midnightOf (localDay zone now) - msPerDay := by
        have before_s := localDay_lt_iff.mp before_s
        have near_s := near (t := s)
        by_contra within
        have reading_s := reads (t := s) (by omega) (by omega)
        split_ifs at reading_s <;> omega
      have low := whole.2.2
      rw [← midnightOf_pred, ← midnightOf_pred, ← le_localDay_iff] at low
      rw [← midnightOf_pred, ← localDay_lt_iff] at skips
      omega
  · unfold found
    split_ifs <;> omega

end

section Window

variable {intl : Text → Option Zone} {candidate : Option Text} {hour : Option ℤ}

/-- Near at most one change of the offset, the window is right iff the change misleads none of the
corrections. -/
theorem resolveBriefLocalWindow_bounds_iff
    (resolved : (intl (validTimeZoneOrUtc intl candidate)).getD .utc = zone)
    (offsets : IsOffset zone) (dated : Dated zone now)
    (one : OneChange zone (midnightOf (localDay zone now)) c old new) :
    (∃ window, resolveBriefLocalWindow intl now candidate hour = some window ∧
      Bounds zone now window.previousDayStart window.todayStart) ↔
      Harmless (midnightOf (localDay zone now)) c old new := by
  obtain ⟨window, result, previous, today⟩ :=
    resolveBriefLocalWindow_eq hour resolved offsets dated
  have length : msPerDay = 86400000 := rfl
  rw [one.iterate_towards (by omega) le_rfl] at today
  rw [midnightOf_pred, one.iterate_towards (by omega) (by omega)] at previous
  rw [result]
  constructor
  · rintro ⟨_, same, bounds⟩
    rw [← Option.some.inj same, previous, today] at bounds
    exact harmless_of_bounds one bounds
  · intro harmless
    refine ⟨window, rfl, ?_⟩
    rw [previous, today]
    exact bounds_of_harmless one offsets harmless

/-- A night in Los Angeles in which the clock is put forward at two. -/
theorem resolveBriefLocalWindow_bounds_iff_sample :
    let zone : Zone := ⟨fun t => if t < 1772964000000 then -28800000 else -25200000⟩
    let intl (_ : Text) : Option Zone := some zone
    (∃ window, resolveBriefLocalWindow intl 1773057600000 (some "America/Los_Angeles".toList)
        (some 8) = some window ∧
      Bounds zone 1773057600000 window.previousDayStart window.todayStart) ↔
      Harmless (midnightOf (localDay zone 1773057600000)) 1772964000000 (-28800000)
        (-25200000) := by
  intro zone intl
  refine resolveBriefLocalWindow_bounds_iff rfl (fun t => ?_) (by decide +kernel)
    ⟨fun _ _ _ => rfl, by decide, by decide, by decide⟩
  change 1000 ∣ (if t < 1772964000000 then -28800000 else -25200000 : ℤ) ∧
    -msPerDay ≤ (if t < 1772964000000 then -28800000 else -25200000 : ℤ) ∧
      (if t < 1772964000000 then -28800000 else -25200000 : ℤ) ≤ msPerDay
  split_ifs <;> decide

/-- In Havana the clock is put forward at midnight. The day after, the window starts an hour
before the previous day. -/
theorem resolveBriefLocalWindow_havana :
    ¬ ∀ (intl : Text → Option Zone) (zone : Zone) (now : ℤ) (candidate : Option Text)
        (hour : Option ℤ), (intl (validTimeZoneOrUtc intl candidate)).getD .utc = zone →
      IsOffset zone → (∀ t, |zone.offset t - zone.offset (t - 1)| ≤ msPerDay) → Valid now →
      ∃ window, resolveBriefLocalWindow intl now candidate hour = some window ∧
        Bounds zone now window.previousDayStart window.todayStart := by
  intro right
  let zone : Zone := ⟨fun t => if t < 1772946000000 then -18000000 else -14400000⟩
  have offset (t : ℤ) : zone.offset t = -18000000 ∨ zone.offset t = -14400000 := by
    change (if t < 1772946000000 then -18000000 else -14400000 : ℤ) = -18000000 ∨
      (if t < 1772946000000 then -18000000 else -14400000 : ℤ) = -14400000
    split_ifs <;> simp
  obtain ⟨window, result, bounds⟩ := right (fun _ => some zone) zone 1773057600000
    (some "America/Havana".toList) (some 8) rfl
    (fun t => by rcases offset t with eq | eq <;> rw [eq] <;> decide)
    (fun t => by
      rcases offset t with eq | eq <;> rcases offset (t - 1) with eq' | eq' <;>
        rw [eq, eq'] <;> decide)
    (by decide)
  have computed : resolveBriefLocalWindow (fun _ => some zone) 1773057600000
      (some "America/Havana".toList) (some 8) = some ⟨"America/Havana".toList,
        "2026-03-09".toList, 1772942400000, 1773028800000, true⟩ := by decide +kernel
  obtain rfl := Option.some.inj (computed.symm.trans result)
  have first := (bounds.previous 1772942400000 le_rfl (by decide)).2 1772946000000
    (by decide +kernel)
  exact absurd first (by decide +kernel)

end Window

end DeclutrMail.Briefs
