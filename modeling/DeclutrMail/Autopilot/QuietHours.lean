import DeclutrMail.Calendar.Zones
import DeclutrMail.Text.Strings
import Mathlib.Algebra.Order.Group.Abs

/-!
# Quiet hours

A mailbox may have a daily window in which the automatic actions wait. The hint of
`msUntilQuietWindowEnd` says when to look again. It is computed on the wall clock and corrected
once by the drift that it observes there (`msUntilQuietWindowEnd_lands`).

Instants and waits are in milliseconds, without the bounds of a `Date`.
-/

namespace DeclutrMail.QuietHours

/-! ## Times of the day -/

def isDigit (c : Char) : Bool := '0' ≤ c && c ≤ '9'

/-- `TIME_RE` -/
def isTime : Text → Bool
  | [h, h', ':', m, m'] =>
    ((h == '0' || h == '1') && isDigit h' || h == '2' && '0' ≤ h' && h' ≤ '3') &&
      ('0' ≤ m && m ≤ '5') && isDigit m'
  | _ => false

/-- "HH:MM" — 24h local wall-clock time. -/
structure LocalTime where
  text : Text
  valid : isTime text = true
  deriving DecidableEq

/-- `Number` of digits. -/
def number (s : Text) : ℤ := s.foldl (fun n c => 10 * n + (c.toNat - '0'.toNat : ℕ)) 0

/-- Parse "HH:MM" → minutes-of-day. -/
def parseTimeToMinutes (time : LocalTime) : ℤ :=
  match time.text.splitOn ':' with
  | h :: m :: _ => number h * 60 + number m
  | _ => 0

/-- The PUT body, which `QuietHoursConfigSchema` has checked. -/
structure QuietHoursConfig where
  enabled : Bool
  /-- Inclusive. -/
  startLocal : LocalTime
  /-- Exclusive. -/
  endLocal : LocalTime
  timezone : Text

/-! ## The window -/

/-- Minutes-of-day of `now` in the zone (0–1439). -/
def minutesOfDayInZone (zone : Zone) (now : ℤ) : ℤ :=
  let hour := zone.reading now / 3600000 % 24
  let minute := zone.reading now / 60000 % 60
  hour * 60 + minute

section

variable (intl : Text → Option Zone) (config : QuietHoursConfig) (now : ℤ)

def isWithinQuietWindow : Bool :=
  if !config.enabled then false
  else
    match intl config.timezone with
    -- Fail closed: defer mutations when the zone is unevaluable.
    | none => true
    | some zone =>
      let nowMin := minutesOfDayInZone zone now
      let startMin := parseTimeToMinutes config.startLocal
      let endMin := parseTimeToMinutes config.endLocal
      if startMin < endMin then nowMin ≥ startMin && nowMin < endMin
      else nowMin ≥ startMin || nowMin < endMin

/-- The whole minutes that the clock still has to go to the end. -/
def minutesLeft (zone : Zone) : ℤ :=
  (parseTimeToMinutes config.endLocal - minutesOfDayInZone zone now + 1440).tmod 1440

def msUntilQuietWindowEnd : Option ℤ :=
  if !isWithinQuietWindow intl config now then none
  else
    match intl config.timezone with
    | none => none
    | some zone =>
      let endMin := parseTimeToMinutes config.endLocal
      let span := minutesLeft config now zone * 60000
      let wallMinutesAt (ms : ℤ) := minutesOfDayInZone zone (now + ms)
      -- A change inside the span moves the wall clock by its size.
      let drift := (wallMinutesAt span - endMin + 1440 + 720).tmod 1440 - 720
      if drift = 0 then some span
      else
        let corrected := span - drift * 60000
        -- Never a zero or negative delay.
        if corrected > 0 ∧ wallMinutesAt corrected = endMin then some corrected else some span

end

/-! ## The clock -/

theorem LocalTime.exists_digits (time : LocalTime) : ∃ h h' m m' : Char,
    time.text = [h, h', ':', m, m'] ∧
      (48 ≤ h.toNat ∧ h.toNat ≤ 49 ∧ 48 ≤ h'.toNat ∧ h'.toNat ≤ 57 ∨
        h.toNat = 50 ∧ 48 ≤ h'.toNat ∧ h'.toNat ≤ 51) ∧
      (48 ≤ m.toNat ∧ m.toNat ≤ 53) ∧ 48 ≤ m'.toNat ∧ m'.toNat ≤ 57 := by
  obtain ⟨text, valid⟩ := time
  unfold isTime at valid
  split at valid
  · rename_i h h' m m'
    have lower (c : Char) : '0' ≤ c ↔ 48 ≤ c.toNat := Iff.rfl
    have three : h' ≤ '3' ↔ h'.toNat ≤ 51 := Iff.rfl
    have five : m ≤ '5' ↔ m.toNat ≤ 53 := Iff.rfl
    have nine (c : Char) : c ≤ '9' ↔ c.toNat ≤ 57 := Iff.rfl
    have eq (c d : Char) : c = d ↔ c.toNat = d.toNat := Char.toNat_inj.symm
    simp only [isDigit, Bool.and_eq_true, Bool.or_eq_true, beq_iff_eq, decide_eq_true_eq, lower,
      three, five, nine, eq, show '0'.toNat = 48 from rfl, show '1'.toNat = 49 from rfl,
      show '2'.toNat = 50 from rfl] at valid
    exact ⟨h, h', m, m', rfl, by omega, by omega, by omega⟩
  · cases valid

theorem parseTimeToMinutes_of_text {time : LocalTime} {h h' m m' : Char}
    (text : time.text = [h, h', ':', m, m'])
    (digits : ∀ c ∈ [h, h', m, m'], 48 ≤ c.toNat ∧ c.toNat ≤ 57) :
    parseTimeToMinutes time = (10 * (h.toNat - 48) + (h'.toNat - 48)) * 60 +
      (10 * (m.toNat - 48) + (m'.toNat - 48)) := by
  have separate {c : Char} (mem : c ∈ [h, h', m, m']) : c ≠ ':' := by
    rintro rfl
    exact absurd (digits _ mem).2 (by decide)
  have split : time.text.splitOn ':' = [[h, h'], [m, m']] := by
    simp [text, List.splitOn_eq_splitOnP, List.splitOnP_cons_eq_if_modifyHead, separate]
  simp only [List.mem_cons, List.not_mem_nil, or_false, forall_eq_or_imp, forall_eq] at digits
  simp only [parseTimeToMinutes, split, number, List.foldl_cons, List.foldl_nil,
    show '0'.toNat = 48 from rfl]
  omega

theorem parseTimeToMinutes_bounds (time : LocalTime) :
    0 ≤ parseTimeToMinutes time ∧ parseTimeToMinutes time < 1440 := by
  obtain ⟨h, h', m, m', text, hour, minute, minute'⟩ := time.exists_digits
  rw [parseTimeToMinutes_of_text text (by simp; omega)]
  omega

theorem parseTimeToMinutes_injective : Function.Injective parseTimeToMinutes := by
  intro s t same
  obtain ⟨h, h', m, m', text, hour, minute, minute'⟩ := s.exists_digits
  obtain ⟨k, k', n, n', text', hour', minute₂, minute₂'⟩ := t.exists_digits
  rw [parseTimeToMinutes_of_text text (by simp; omega),
    parseTimeToMinutes_of_text text' (by simp; omega)] at same
  obtain rfl : h = k := Char.toNat_inj.mp (by omega)
  obtain rfl : h' = k' := Char.toNat_inj.mp (by omega)
  obtain rfl : m = n := Char.toNat_inj.mp (by omega)
  obtain rfl : m' = n' := Char.toNat_inj.mp (by omega)
  cases s
  cases t
  exact (LocalTime.mk.injEq _ _ _ _).mpr (text.trans text'.symm)

variable {intl : Text → Option Zone} {config : QuietHoursConfig} {zone : Zone} {now : ℤ}

theorem minutesOfDayInZone_eq (zone : Zone) (now : ℤ) :
    minutesOfDayInZone zone now = zone.reading now / 60000 % 1440 := by
  unfold minutesOfDayInZone
  dsimp only
  omega

/-- The offset is in whole minutes. -/
def WholeMinutes (zone : Zone) : Prop := ∀ t, 60000 ∣ zone.offset t

/-- At most one change in 48 hours, of less than 12. -/
def SeldomChanges (zone : Zone) : Prop :=
  ∀ t, ∃ c old new, zone.ChangesOnce t (t + 48 * 3600000) c old new ∧
    |new - old| < 12 * 3600000

/-- The offset changes between minutes of the clock. -/
def ChangesOnMinutes (zone : Zone) : Prop :=
  ∀ t, zone.offset (t - 1) ≠ zone.offset t → 60000 ∣ t

theorem minutesOfDayInZone_of_offset {minutes : ℤ} (offset : zone.offset now = 60000 * minutes) :
    minutesOfDayInZone zone now = (now / 60000 + minutes) % 1440 := by
  rw [minutesOfDayInZone_eq, Zone.reading, offset]
  omega

/-- The one change of the next 48 hours, if there is any, in minutes. -/
theorem exists_change (minutes : WholeMinutes zone) (seldom : SeldomChanges zone) (now : ℤ) :
    ∃ c o k, now < c ∧ -720 < k ∧ k < 720 ∧
      zone.ChangesOnce now (now + 48 * 3600000) c (60000 * o) (60000 * (o + k)) := by
  obtain ⟨c, old, new, once, small⟩ := seldom now
  rw [abs_lt] at small
  rcases le_or_gt c now with past | after
  · obtain ⟨o, offset⟩ := minutes now
    rw [once.offset_after le_rfl (by omega) past] at offset
    refine ⟨now + 48 * 3600000 + 1, o, 0, by omega, by omega, by omega, fun t low high => ?_⟩
    rw [once.offset_after low high (by omega), offset, if_pos (by omega)]
  · obtain ⟨o, offset⟩ := minutes now
    rw [once.offset_before le_rfl (by omega) after] at offset
    rcases le_or_gt c (now + 48 * 3600000) with within | beyond
    · obtain ⟨n, offset'⟩ := minutes c
      rw [once.offset_after after.le within le_rfl] at offset'
      refine ⟨c, o, n - o, after, by omega, by omega, ?_⟩
      rw [← offset, show 60000 * (o + (n - o)) = new by omega]
      exact once
    · refine ⟨c, o, 0, after, by omega, by omega, fun t low high => ?_⟩
      rw [once.offset_before low high (by omega), offset, if_pos (by omega)]

section Window

variable (evaluable : intl config.timezone = some zone)
include evaluable

theorem isWithinQuietWindow_iff : isWithinQuietWindow intl config now = true ↔
    config.enabled = true ∧
      if parseTimeToMinutes config.startLocal < parseTimeToMinutes config.endLocal then
        parseTimeToMinutes config.startLocal ≤ minutesOfDayInZone zone now ∧
          minutesOfDayInZone zone now < parseTimeToMinutes config.endLocal
      else
        parseTimeToMinutes config.startLocal ≤ minutesOfDayInZone zone now ∨
          minutesOfDayInZone zone now < parseTimeToMinutes config.endLocal := by
  unfold isWithinQuietWindow
  rw [evaluable]
  cases config.enabled
  · simp
  · simp only [Bool.not_true, Bool.false_eq_true, if_false]
    split_ifs <;> simp

variable (distinct : config.startLocal ≠ config.endLocal)
include distinct

theorem isWithinQuietWindow_end
    (reached : minutesOfDayInZone zone now = parseTimeToMinutes config.endLocal) :
    isWithinQuietWindow intl config now = false := by
  have times := parseTimeToMinutes_injective.ne distinct
  rw [← Bool.not_eq_true, isWithinQuietWindow_iff evaluable, reached]
  split_ifs <;> omega

theorem minutesLeft_bounds (active : isWithinQuietWindow intl config now = true) :
    1 ≤ minutesLeft config now zone ∧ minutesLeft config now zone ≤ 1439 ∧
      (minutesOfDayInZone zone now + minutesLeft config now zone) % 1440 =
        parseTimeToMinutes config.endLocal := by
  have ends := parseTimeToMinutes_bounds config.endLocal
  have running : minutesOfDayInZone zone now ≠ parseTimeToMinutes config.endLocal := by
    intro reached
    rw [isWithinQuietWindow_end evaluable distinct reached] at active
    cases active
  have clock := minutesOfDayInZone_eq zone now
  unfold minutesLeft
  rw [Int.tmod_eq_emod_of_nonneg (by omega)]
  omega

end Window

/-! ## The hint -/

/-- The clock jumps over the end of the window, with the seconds that it reads now. -/
def SkipsEnd (config : QuietHoursConfig) (zone : Zone) (now d : ℤ) : Prop :=
  ∃ t, now < t ∧ t ≤ now + d ∧
    zone.SkipsAt (zone.reading now + minutesLeft config now zone * 60000) t

section Change

variable {c o k : ℤ}
  (once : zone.ChangesOnce now (now + 48 * 3600000) c (60000 * o) (60000 * (o + k)))
include once

theorem minutes_of_change {ms : ℤ} (ahead : 0 ≤ ms) (within : ms ≤ 48 * 3600000) :
    minutesOfDayInZone zone (now + ms) =
      ((now + ms) / 60000 + if now + ms < c then o else o + k) % 1440 := by
  refine minutesOfDayInZone_of_offset ?_
  rw [once _ (by omega) (by omega)]
  split_ifs <;> rfl

variable (after : now < c)
include after

theorem minutes_now : minutesOfDayInZone zone now = (now / 60000 + o) % 1440 :=
  minutesOfDayInZone_of_offset (once.offset_before le_rfl (by omega) after)

/-- The end is skipped by a change before it that puts the clock forward over it. -/
theorem skipsEnd_iff {d : ℤ} (within : d ≤ 48 * 3600000) : SkipsEnd config zone now d ↔
    c ≤ now + d ∧ c ≤ now + minutesLeft config now zone * 60000 ∧
      now + (minutesLeft config now zone * 60000 - k * 60000) < c := by
  have start : zone.reading now = now + 60000 * o := by
    rw [Zone.reading, once.offset_before le_rfl (by omega) after]
  unfold SkipsEnd
  constructor
  · rintro ⟨t, later, until_d, skips⟩
    obtain ⟨rfl, before, jumps⟩ := (once.skipsAt_iff later (by omega)).mp skips
    omega
  · rintro ⟨reached, before, jumps⟩
    exact ⟨c, after, reached, (once.skipsAt_iff after (by omega)).mpr ⟨rfl, by omega, by omega⟩⟩

/-- Where the clock changes between two minutes, it skips an end that it does not read. -/
theorem skipsEnd_minutes (aligned : ChangesOnMinutes zone) {left endMin : ℤ}
    (positive : 1 ≤ left) (day : left ≤ 1439) (forward : k < 720)
    (target : (minutesOfDayInZone zone now + left) % 1440 = endMin)
    (before : c ≤ now + left * 60000) (jumps : now + (left * 60000 - k * 60000) < c) :
    ∀ t, now < t → t ≤ now + left * 60000 → minutesOfDayInZone zone t ≠ endMin := by
  intro t later within
  have start := minutes_now once after
  obtain ⟨minute, rfl⟩ : 60000 ∣ c := aligned c (by
    rw [once.offset_before (by omega) (by omega) (by omega),
      once.offset_after after.le (by omega) le_rfl]
    omega)
  have clock := minutes_of_change once (show 0 ≤ t - now by omega) (by omega)
  rw [add_sub_cancel] at clock
  rw [clock]
  split_ifs with old <;> omega

end Change

section Hint

variable (evaluable : intl config.timezone = some zone)
  (active : isWithinQuietWindow intl config now = true)
include evaluable active

theorem msUntilQuietWindowEnd_eq : msUntilQuietWindowEnd intl config now =
    let endMin := parseTimeToMinutes config.endLocal
    let span := minutesLeft config now zone * 60000
    let drift := (minutesOfDayInZone zone (now + span) - endMin + 1440 + 720).tmod 1440 - 720
    let corrected := span - drift * 60000
    some (if drift ≠ 0 ∧ 0 < corrected ∧ minutesOfDayInZone zone (now + corrected) = endMin
      then corrected else span) := by
  unfold msUntilQuietWindowEnd
  rw [active, evaluable]
  dsimp only [Bool.not_true]
  split_ifs <;> grind

variable (distinct : config.startLocal ≠ config.endLocal)
  {c o k : ℤ} (after : now < c) (low : -720 < k) (high : k < 720)
  (once : zone.ChangesOnce now (now + 48 * 3600000) c (60000 * o) (60000 * (o + k)))
include after low high once distinct

/-- The drift is the size of the change, if it comes before the span is over. -/
theorem drift_eq : (minutesOfDayInZone zone (now + minutesLeft config now zone * 60000) -
      parseTimeToMinutes config.endLocal + 1440 + 720).tmod 1440 - 720 =
    if c ≤ now + minutesLeft config now zone * 60000 then k else 0 := by
  obtain ⟨positive, day, target⟩ := minutesLeft_bounds evaluable distinct active
  have ends := parseTimeToMinutes_bounds config.endLocal
  have start := minutes_now once after
  rw [minutes_of_change once (by omega) (by omega)]
  generalize minutesLeft config now zone = left at positive day target
  rw [Int.tmod_eq_emod_of_nonneg (by omega)]
  split_ifs <;> omega

/-- The correction is taken where the clock reads the end only after the change. -/
theorem msUntilQuietWindowEnd_of_change :
    let span := minutesLeft config now zone * 60000
    msUntilQuietWindowEnd intl config now =
      some (if c ≤ now + span ∧ c ≤ now + (span - k * 60000) then span - k * 60000 else span) := by
  obtain ⟨positive, day, target⟩ := minutesLeft_bounds evaluable distinct active
  have ends := parseTimeToMinutes_bounds config.endLocal
  have start := minutes_now once after
  rw [msUntilQuietWindowEnd_eq evaluable active]
  dsimp only
  rw [drift_eq evaluable active distinct after low high once]
  generalize minutesLeft config now zone = left at positive day target
  rcases lt_or_ge (now + left * 60000) c with beyond | reached
  · rw [if_neg (not_le.mpr beyond), if_neg (by simp), if_neg (by omega)]
  · rw [if_pos reached]
    congr 1
    rcases lt_or_ge (now + (left * 60000 - k * 60000)) c with skipped | shown
    · -- Corrected, the wait ends before the change, where the clock is not at the end.
      rw [if_neg, if_neg (by omega)]
      rintro ⟨moved, ahead, lands⟩
      rw [minutes_of_change once (by omega) (by omega), if_pos skipped] at lands
      omega
    · by_cases moved : k = 0
      · rw [if_neg (by simp [moved]), moved]
        simp
      · rw [if_pos, if_pos ⟨reached, shown⟩]
        refine ⟨moved, by omega, ?_⟩
        rw [minutes_of_change once (by omega) (by omega), if_neg (by omega)]
        omega

end Hint

/-- Where a wait of `d` ends. -/
structure Lands (intl : Text → Option Zone) (config : QuietHoursConfig) (zone : Zone)
    (now d : ℤ) : Prop where
  positive : 0 < d
  atEnd : ¬ SkipsEnd config zone now d →
    minutesOfDayInZone zone (now + d) = parseTimeToMinutes config.endLocal ∧
      isWithinQuietWindow intl config (now + d) = false
  skipped : SkipsEnd config zone now d → d = minutesLeft config now zone * 60000
  /-- A clock that changes between two minutes skips the end iff it never reads it. -/
  never : ChangesOnMinutes zone → (SkipsEnd config zone now d ↔ ∀ t, now < t → t ≤ now + d →
    minutesOfDayInZone zone t ≠ parseTimeToMinutes config.endLocal)

theorem lands_of_reads (evaluable : intl config.timezone = some zone)
    (distinct : config.startLocal ≠ config.endLocal) {d : ℤ} (ahead : 0 < d)
    (noSkip : ¬ SkipsEnd config zone now d)
    (reads : minutesOfDayInZone zone (now + d) = parseTimeToMinutes config.endLocal) :
    Lands intl config zone now d where
  positive := ahead
  atEnd _ := ⟨reads, isWithinQuietWindow_end evaluable distinct reads⟩
  skipped skips := absurd skips noSkip
  never _ := ⟨fun skips => absurd skips noSkip,
    fun never => absurd reads (never _ (by omega) le_rfl)⟩

/-- The hint leads out of the window, to its end, unless the clock skips the end. -/
theorem msUntilQuietWindowEnd_lands (evaluable : intl config.timezone = some zone)
    (minutes : WholeMinutes zone) (seldom : SeldomChanges zone)
    (distinct : config.startLocal ≠ config.endLocal)
    (active : isWithinQuietWindow intl config now = true) :
    ∃ d, msUntilQuietWindowEnd intl config now = some d ∧ Lands intl config zone now d := by
  obtain ⟨c, o, k, after, low, high, once⟩ := exists_change minutes seldom now
  obtain ⟨positive, day, target⟩ := minutesLeft_bounds evaluable distinct active
  have start := minutes_now once after
  refine ⟨_, msUntilQuietWindowEnd_of_change evaluable active distinct after low high once, ?_⟩
  split_ifs with corrected
  · refine lands_of_reads evaluable distinct (by omega) ?_ ?_
    · rw [skipsEnd_iff once after (by omega)]
      omega
    · rw [minutes_of_change once (by omega) (by omega), if_neg (by omega)]
      omega
  · rcases lt_or_ge (now + minutesLeft config now zone * 60000) c with beyond | reached
    · refine lands_of_reads evaluable distinct (by omega) ?_ ?_
      · rw [skipsEnd_iff once after (by omega)]
        omega
      · rw [minutes_of_change once (by omega) (by omega), if_pos beyond]
        omega
    · have skips : SkipsEnd config zone now (minutesLeft config now zone * 60000) := by
        rw [skipsEnd_iff once after (by omega)]
        omega
      refine ⟨by omega, fun noSkip => absurd skips noSkip, fun _ => rfl, fun aligned => ?_⟩
      exact ⟨fun _ => skipsEnd_minutes once after aligned positive day high target reached
        (by omega), fun _ => skips⟩

/-- A window from ten in the evening to seven, in the night that the clock is put forward at two:
the hint given at midnight is of six hours. -/
theorem msUntilQuietWindowEnd_lands_sample :
    let zone : Zone := ⟨fun t => if t < 1710054000000 then -18000000 else -14400000⟩
    let intl (_ : Text) : Option Zone := some zone
    let config : QuietHoursConfig :=
      ⟨true, ⟨"22:00".toList, by decide⟩, ⟨"07:00".toList, by decide⟩, "America/New_York".toList⟩
    msUntilQuietWindowEnd intl config 1710046800000 = some 21600000 ∧
      ∃ d, msUntilQuietWindowEnd intl config 1710046800000 = some d ∧
        Lands intl config zone 1710046800000 d := by
  intro zone intl config
  refine ⟨by decide +kernel, msUntilQuietWindowEnd_lands rfl (fun t => ?_)
    (fun t => ⟨1710054000000, -18000000, -14400000, fun _ _ _ => rfl, by decide⟩)
    (by decide +kernel) (by decide +kernel)⟩
  change 60000 ∣ (if t < 1710054000000 then -18000000 else -14400000 : ℤ)
  split_ifs <;> decide

/-! ## Both kinds of quiet -/

/-- `until_at` of the quiet state that the user toggles. -/
inductive UntilAt
  /-- Absent, or null. -/
  | indefinite
  /-- No string, or one that is no time. -/
  | unreadable
  | time (parsed : ℤ)
  deriving DecidableEq

/-- What `quiet_state` holds. -/
structure QuietState where
  enabled : Bool
  untilAt : UntilAt
  quietHours : Option QuietHoursConfig

def isQuietStateActive (state : QuietState) (now : ℤ) : Bool :=
  if !state.enabled then false
  else
    match state.untilAt with
    | .indefinite => true
    | .unreadable => true
    | .time parsed => parsed > now

section

variable (intl : Text → Option Zone) (state : QuietState) (now : ℤ)

def isQuietActive : Bool :=
  isQuietStateActive state now ||
    state.quietHours.any fun config => isWithinQuietWindow intl config now

/-- The candidates for the hint of the quiet that the user toggled, or nothing if there is none
to give. -/
def manualCandidates : Option (List ℤ) :=
  if isQuietStateActive state now then
    match state.untilAt with
    | .time parsed => some [parsed - now]
    | _ => none
  else some []

def windowCandidates : Option (List ℤ) :=
  match state.quietHours with
  | none => some []
  | some config =>
    if isWithinQuietWindow intl config now then
      (msUntilQuietWindowEnd intl config now).map ([·])
    else some []

def msUntilQuietEnds : Option ℤ :=
  match manualCandidates state now, windowCandidates intl state now with
  | some manual, some window => (manual ++ window).max?
  | _, _ => none

end

section

variable {state : QuietState} {d : ℤ}

/-- The hint waits for the end of every kind of quiet that is active. -/
theorem msUntilQuietEnds_covers (hint : msUntilQuietEnds intl state now = some d) :
    (isQuietStateActive state now = true → ∃ parsed, state.untilAt = .time parsed ∧
      parsed ≤ now + d) ∧
    ∀ config, state.quietHours = some config → isWithinQuietWindow intl config now = true →
      ∃ ms, msUntilQuietWindowEnd intl config now = some ms ∧ ms ≤ d := by
  unfold msUntilQuietEnds at hint
  split at hint
  · rename_i manual window manual_eq window_eq
    have covers := (List.max?_eq_some_iff.mp hint).2
    constructor
    · intro active
      unfold manualCandidates at manual_eq
      rw [if_pos active] at manual_eq
      split at manual_eq
      · rename_i parsed time
        obtain rfl := Option.some.inj manual_eq
        have := covers (parsed - now) (by simp)
        exact ⟨parsed, time, by omega⟩
      · cases manual_eq
    · intro config stored active
      unfold windowCandidates at window_eq
      simp only [stored, active, if_true, Option.map_eq_some_iff] at window_eq
      obtain ⟨ms, ends, rfl⟩ := window_eq
      exact ⟨ms, ends, covers ms (by simp)⟩
  · cases hint

end

end DeclutrMail.QuietHours
