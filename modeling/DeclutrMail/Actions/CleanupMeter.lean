import Mathlib.Algebra.BigOperators.Group.List.Basic
import Mathlib.Algebra.Order.BigOperators.Group.List
import Mathlib.Algebra.Order.Group.Nat
import Mathlib.Data.Finset.Card
import Mathlib.Data.Prod.Lex
import Mathlib.Algebra.GroupWithZero.Nat

/-!
# The cleanup meter

`EntitlementsService` counts the cleanups of a workspace in the current month of its signup
anniversary. With the emails-cleared meter (`METER_V2`) the count is the sum of the units
that forward jobs hold, less what Undo has restored of them; without it, the number of
pairs of a decision and a sender.

An instant is its month since the year 0, its day of the month and its millisecond of the
day, in UTC.
-/

namespace DeclutrMail.Actions

/-! ## Periods -/

abbrev Instant := ℤ ×ₗ ℕ ×ₗ ℕ

namespace Instant

def of (month : ℤ) (day time : ℕ) : Instant := toLex (month, toLex (day, time))

def month (t : Instant) : ℤ := (ofLex t).1

def day (t : Instant) : ℕ := (ofLex (ofLex t).2).1

def time (t : Instant) : ℕ := (ofLex (ofLex t).2).2

theorem lt_of_month_lt {s t : Instant} (h : s.month < t.month) : s < t :=
  Prod.Lex.lt_iff.mpr (.inl h)

end Instant

/-- The length of a month. -/
def lastDayOf (month : ℤ) : ℕ :=
  let year := month / 12
  match month % 12 with
  | 1 => if year % 4 = 0 ∧ (year % 100 ≠ 0 ∨ year % 400 = 0) then 29 else 28
  | 3 | 5 | 8 | 10 => 30
  | _ => 31

/-- Anchor + N months in UTC, day-of-month clamped to the target month. -/
def addMonthsClampedUtc (anchor : Instant) (months : ℤ) : Instant :=
  .of (anchor.month + months) (min anchor.day (lastDayOf (anchor.month + months))) anchor.time

structure CleanupPeriod where
  periodStart : Instant
  resetsAt : Instant
  deriving DecidableEq

/-- The whole months from the anchor to `now`. -/
def monthsSince (workspaceCreatedAt now : Instant) : ℕ :=
  let months := now.month - workspaceCreatedAt.month
  -- The calendar difference overshoots by one before the anchor's day of its month.
  let months :=
    if months > 0 ∧ addMonthsClampedUtc workspaceCreatedAt months > now then months - 1
    else months
  -- `months < 0` is clock skew: never a period before the anchor.
  months.toNat

def cleanupPeriod (workspaceCreatedAt : Instant) (months : ℕ) : CleanupPeriod where
  periodStart := addMonthsClampedUtc workspaceCreatedAt months
  resetsAt := addMonthsClampedUtc workspaceCreatedAt (months + 1)

def cleanupPeriodFor (workspaceCreatedAt now : Instant) : CleanupPeriod :=
  cleanupPeriod workspaceCreatedAt (monthsSince workspaceCreatedAt now)

/-- A signup on January 31 is clamped in February and returns to the 31st in March. -/
example : cleanupPeriodFor (.of (2023 * 12) 31 0) (.of (2023 * 12 + 1) 28 0) =
    ⟨.of (2023 * 12 + 1) 28 0, .of (2023 * 12 + 2) 31 0⟩ := by decide

def CleanupPeriod.Contains (period : CleanupPeriod) (t : Instant) : Prop :=
  period.periodStart ≤ t ∧ t < period.resetsAt

instance (period : CleanupPeriod) (t : Instant) : Decidable (period.Contains t) :=
  inferInstanceAs (Decidable (_ ∧ _))

theorem addMonthsClampedUtc_lt {anchor : Instant} {m m' : ℤ} (h : m < m') :
    addMonthsClampedUtc anchor m < addMonthsClampedUtc anchor m' := by
  refine Instant.lt_of_month_lt ?_
  change anchor.month + m < anchor.month + m'
  omega

theorem addMonthsClampedUtc_le (anchor : Instant) {m m' : ℤ} (h : m ≤ m') :
    addMonthsClampedUtc anchor m ≤ addMonthsClampedUtc anchor m' := by
  rcases h.lt_or_eq with lt | rfl
  · exact (addMonthsClampedUtc_lt lt).le
  · exact le_rfl

/-- Two periods of a workspace are disjoint. -/
theorem cleanupPeriod_unique {createdAt t : Instant} {m m' : ℕ}
    (h : (cleanupPeriod createdAt m).Contains t) (h' : (cleanupPeriod createdAt m').Contains t) :
    m = m' := by
  by_contra ne
  rcases Nat.lt_or_gt_of_ne ne with lt | gt
  · have := addMonthsClampedUtc_le createdAt (show (m : ℤ) + 1 ≤ m' by omega)
    exact absurd (h.2.trans_le this) (not_lt.mpr h'.1)
  · have := addMonthsClampedUtc_le createdAt (show (m' : ℤ) + 1 ≤ m by omega)
    exact absurd (h'.2.trans_le this) (not_lt.mpr h.1)

/-! ## Jobs -/

inductive Verb
  | archive
  | later
  | delete
  | unsubscribe
  deriving DecidableEq

/-- `METER.countsVerbs` -/
def Verb.countsTowardMeter : Verb → Bool
  | archive | delete => true
  | later | unsubscribe => false

inductive JobStatus
  | queued
  | executing
  | done
  | failed
  deriving DecidableEq

/-- A forward row of `action_jobs`. -/
structure Job where
  id : ℕ
  verb : Verb
  senderId : Option String
  senderKey : String
  requestedCount : ℕ
  quotaUnits : ℕ
  idempotencyKey : String
  compositeId : Option ℕ
  rootActionId : Option ℕ
  status : JobStatus
  affectedCount : ℕ
  createdAt : Instant
  /-- `affected_count` of the reverse job of its undo token, once that one is done. -/
  undone : Option ℕ
  deriving DecidableEq

namespace Job

/-- `COALESCE(composite_id, root_action_id, id)` -/
def group (job : Job) : ℕ := (job.compositeId.or job.rootActionId).getD job.id

/-- The decision and the sender, which is the decision itself without a sender. -/
def unit (job : Job) : ℕ × (String ⊕ ℕ) :=
  (job.group, match job.senderId with
    | some senderId => .inl senderId
    | none => .inr job.group)

/-- The rows that count as a cleanup: no failed one, no label action that changed nothing,
and of an unsubscribe only its intent. -/
def countsAsCleanup (job : Job) : Bool :=
  (job.verb ≠ .unsubscribe || "unsub:".toList.isPrefixOf job.idempotencyKey.toList) &&
    job.status ≠ .failed &&
    (job.verb = .unsubscribe || !(job.status = .done && job.affectedCount = 0))

/-- What Undo has given back of the units of this job. -/
def restored (job : Job) : ℕ := min (job.undone.getD 0) job.quotaUnits

end Job

/-! ## Counts -/

/-- A workspace of a finite tier. -/
structure Workspace where
  createdAt : Instant
  meterV2 : Bool
  cleanupActionsPerMonth : ℕ
  emailsPerMonth : ℕ

namespace Workspace

variable (ws : Workspace)

def meterLimitFor : ℕ := if ws.meterV2 then ws.emailsPerMonth else ws.cleanupActionsPerMonth

/-- `quotaUnitsForEnqueue` on this tier. -/
def meterUnits (verb : Verb) (requestedCount : ℕ) : ℕ :=
  if ws.meterV2 && verb.countsTowardMeter then requestedCount else 0

/-- `meteredEmailsUsed` -/
def meteredEmailsUsed (jobs : List Job) (periodStart : Instant) : ℕ :=
  let charged := jobs.filter fun job => periodStart ≤ job.createdAt
  (charged.map (·.quotaUnits)).sum - (charged.map (·.restored)).sum

def cleanupUnitsUsed (jobs : List Job) (periodStart : Instant) : ℕ :=
  if ws.meterV2 then meteredEmailsUsed jobs periodStart
  else
    ((jobs.filter fun job => periodStart ≤ job.createdAt && job.countsAsCleanup).map
      (·.unit)).toFinset.card

/-- The check of `assertCleanupCapacityForWorkspace` passes. -/
def hasCapacity (jobs : List Job) (unitsNeeded : ℕ) (now : Instant) : Bool :=
  (ws.meterV2 && unitsNeeded = 0) ||
    ws.cleanupUnitsUsed jobs (cleanupPeriodFor ws.createdAt now).periodStart + unitsNeeded ≤
      ws.meterLimitFor

/-! ## What a period records -/

/-- The units that the jobs of one period hold. -/
def recorded (jobs : List Job) (months : ℕ) : ℕ :=
  let created := jobs.filter fun job => (cleanupPeriod ws.createdAt months).Contains job.createdAt
  if ws.meterV2 then (created.map (·.quotaUnits)).sum
  else ((created.filter (·.countsAsCleanup)).map (·.unit)).toFinset.card

/-- What Undo has given back of the units of one period. -/
def restored (jobs : List Job) (months : ℕ) : ℕ :=
  if ws.meterV2 then
    ((jobs.filter fun job => (cleanupPeriod ws.createdAt months).Contains job.createdAt).map
      (·.restored)).sum
  else 0

end Workspace

end DeclutrMail.Actions
