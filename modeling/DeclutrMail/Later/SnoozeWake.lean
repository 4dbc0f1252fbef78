import Mathlib.Data.Int.Notation
import DeclutrMail.Collections.InsertionMap
import DeclutrMail.Interleaving.Triple
import DeclutrMail.LabelAction.Registry

/-!
# The return of a Later

A sweep, or a Wake now, brings the mail of a sender back to the inbox and clears the timer of the
sender's policy. In between, the user may choose another time, a Later may set one, and an Undo may
cancel it. The timer's version is what both sides go by.

The row and the mail are those of one sender. The mailbox lock is asked for and given back, but it
may be lost with its session, so it keeps nobody out here.
-/

namespace DeclutrMail.Later

open Interleaving
open LabelAction (MessageId Label LabelChange labelChangeForVerb)

/-- Times are in milliseconds, as `Date` has them. -/
structure SnoozeTimerVersion where
  snoozedUntil : ℤ
  snoozedAt : Option ℤ
  deriving DecidableEq

inductive WakeFailureKind where
  | temporary
  | reauthorize
  | needsAttention
  deriving DecidableEq

/-- The timer columns of a row of `sender_policies`. -/
structure SenderPolicy where
  snoozedUntil : Option ℤ
  snoozedAt : Option ℤ
  snoozedReason : Option String
  wakeLastAttemptAt : Option ℤ
  wakeLastFailedAt : Option ℤ
  wakeFailureCount : ℕ
  wakeFailureKind : Option WakeFailureKind
  deriving DecidableEq

structure MailMessage where
  providerMessageId : MessageId
  labelIds : List Label
  deriving DecidableEq

namespace SenderPolicy

variable (p : SenderPolicy)

/-- `timerVersionWhere`. -/
def carries (v : SnoozeTimerVersion) : Bool :=
  decide (p.snoozedUntil = some v.snoozedUntil ∧ p.snoozedAt = v.snoozedAt)

def version : Option SnoozeTimerVersion := p.snoozedUntil.map fun due => ⟨due, p.snoozedAt⟩

/-- When, since when, and why. -/
def timer : Option ℤ × Option ℤ × Option String := (p.snoozedUntil, p.snoozedAt, p.snoozedReason)

/-- A row without a timer. -/
def cleared : SenderPolicy := ⟨none, none, none, none, none, 0, none⟩

/-- A new timer starts without failures. -/
def scheduled (due setAt : ℤ) (reason : Option String) : SenderPolicy :=
  ⟨some due, some setAt, reason, none, none, 0, none⟩

def claimed (now : ℤ) : SenderPolicy := { p with wakeLastAttemptAt := some now }

def backedOff (now : ℤ) (kind : WakeFailureKind) : SenderPolicy :=
  { p with
    wakeLastAttemptAt := some now
    wakeLastFailedAt := some now
    wakeFailureCount := p.wakeFailureCount + 1
    wakeFailureKind := some kind }

/-- A deterministic failure is left to the user. -/
def due (now : ℤ) : Bool :=
  p.snoozedUntil.any (· ≤ now) && p.wakeFailureKind != some .needsAttention

end SenderPolicy

/-! ## What is remembered of the wakes -/

/-- A timer version with the number of timer writes that had been committed when it was read. -/
structure Pinned where
  version : SnoozeTimerVersion
  writes : ℕ
  deriving DecidableEq

/-- A wake: the messages it has chosen, and the chunks that Gmail has accepted. -/
structure Attempt where
  pinned : Pinned
  ids : List MessageId
  accepted : List (List MessageId)
  deriving DecidableEq

inductive ActKind where
  | claimed
  | backedOff
  | cleared
  deriving DecidableEq

/-- A write of a wake to the row, with the row as it was. -/
structure Act where
  kind : ActKind
  attempt : Option Attempt
  policy : SenderPolicy
  writes : ℕ
  deriving DecidableEq

/-- `queue` holds the jobs of Wake now. `writes` counts the timer writes that were not a wake's,
and `latest` is the timer as the last of them left it. -/
structure World where
  active : Bool
  policy : Option SenderPolicy
  mail : List MailMessage
  queue : List Pinned
  writes : ℕ
  latest : Option ℤ × Option ℤ × Option String
  attempts : InsertionMap ℕ Attempt
  acts : List Act

/-! ## The worker -/

inductive Request where
  | selectDue (now : ℤ)
  | lockMailbox
  | unlockMailbox
  | claim (v : SnoozeTimerVersion)
  | getClient
  | ensureLabelId (name : String)
  | publishLabelId (labelId : Label)
  | selectLabelled (labelId : Label)
  | post (ids : List MessageId) (change : LabelChange)
  | settle (labelId : Label) (restored : Bool) (v : SnoozeTimerVersion)
  | recordMailboxSyncFailure
  | backOff (v : SnoozeTimerVersion) (kind : WakeFailureKind)
  deriving DecidableEq

abbrev Request.Answer : Request → Type
  | .selectDue _ => Option SnoozeTimerVersion
  | .claim _ | .recordMailboxSyncFailure => Bool
  | .ensureLabelId _ => Label
  | .selectLabelled _ => List MessageId
  | _ => Unit

inductive WakeError where
  | transient
  | rateLimit
  | authExpired
  | invalidGrant
  | validation
  | permanent
  | unknown
  deriving DecidableEq

def WakeError.isNonRetryable : WakeError → Bool
  | .invalidGrant | .validation | .permanent => true
  | _ => false

abbrev WakeSignature : Signature := ⟨Request, Request.Answer, WakeError⟩

abbrev WakeProgram (α : Type) := Program WakeSignature α

def ask (q : Request) : WakeProgram q.Answer := Program.perform (S := WakeSignature) q

/-- The label that the Later verb adds. -/
def laterLabelName : String := (labelChangeForVerb .later).forward.addLabelIds.headD ""

def gmailBatchModifyMaxIds : ℕ := 1000

/-- The label change of a return. -/
def restoring (labelId : Label) : LabelChange := ⟨["INBOX"], [labelId]⟩

def postAll (change : LabelChange) : List (List MessageId) → WakeProgram Unit
  | [] => return ()
  | chunk :: rest => do
    ask (.post chunk change)
    postAll change rest

def batchModify (ids : List MessageId) (change : LabelChange) : WakeProgram Unit :=
  postAll change (Batches.batches gmailBatchModifyMaxIds ids)

def wakeSender (v : SnoozeTimerVersion) : WakeProgram (Option ℕ) := do
  if ← ask (.claim v) then
    ask .getClient
    let labelId ← ask (.ensureLabelId laterLabelName)
    -- best effort: the list of the Later page may stay without its label
    tryCatch (ask (.publishLabelId labelId)) fun _ => return ()
    let ids ← ask (.selectLabelled labelId)
    Program.when (decide (0 < ids.length)) (batchModify ids (restoring labelId))
    ask (.settle labelId (decide (0 < ids.length)) v)
    return some ids.length
  else return none

/-- A grant that the user has replaced in the meantime is no reason to reconnect. -/
def wakeFailureKind (superseded : Bool) : WakeError → WakeFailureKind
  | .invalidGrant => if superseded then .temporary else .reauthorize
  | .permanent | .validation => .needsAttention
  | _ => .temporary

def grantSuperseded (e : WakeError) : WakeProgram Bool :=
  if e = .invalidGrant then ask .recordMailboxSyncFailure else return false

def recordWakeFailure (v : SnoozeTimerVersion) (e : WakeError) : WakeProgram Unit := do
  let superseded ← grantSuperseded e
  ask (.backOff v (wakeFailureKind superseded e))

inductive WakeOutcome where
  | notDue
  | lockFailed
  | stale
  | woken (restored : ℕ)
  | failed
  deriving DecidableEq

def WakeOutcome.of : Option ℕ → WakeOutcome
  | none => .stale
  | some restored => .woken restored

/-- A lock that cannot be given back is dropped with its connection. -/
def unlock : WakeProgram Unit := tryCatch (ask .unlockMailbox) fun _ => return ()

/-- What a sweep does about the sender. -/
def sweep (now : ℤ) : WakeProgram WakeOutcome := do
  match ← ask (.selectDue now) with
  | none => return .notDue
  | some v =>
    let entered ← tryCatch (do
      ask .lockMailbox
      return true) fun _ => return false
    if entered then
      Program.ensure (tryCatch (WakeOutcome.of <$> wakeSender v) fun e => do
        recordWakeFailure v e
        return .failed) unlock
    else return .lockFailed

/-- A retry records nothing unless it is the last one. -/
def runTargetedWake (v : SnoozeTimerVersion) (attempt maxAttempts : ℕ) :
    WakeProgram WakeOutcome := do
  ask .lockMailbox
  Program.ensure (tryCatch (WakeOutcome.of <$> wakeSender v) fun e => do
    Program.when (e.isNonRetryable || decide (maxAttempts ≤ attempt)) (recordWakeFailure v e)
    throw e) unlock

/-! ## The system -/

inductive Task where
  | sweep (now : ℤ)
  | wake (pinned : Pinned) (attempt maxAttempts : ℕ)

def Task.code : Task → WakeProgram WakeOutcome
  | .sweep now => Later.sweep now
  | .wake pinned attempt maxAttempts => runTargetedWake pinned.version attempt maxAttempts

namespace World

variable (w : World)

def timer : Option ℤ × Option ℤ × Option String :=
  (w.policy.map SenderPolicy.timer).getD (none, none, none)

def carries (v : SnoozeTimerVersion) : Bool := w.policy.any (·.carries v)

def labelled (labelId : Label) : List MailMessage :=
  w.mail.filter fun message => decide (labelId ∈ message.labelIds)

/-- The sweep's read, outside of any lock. -/
def dueVersion (now : ℤ) : Option SnoozeTimerVersion :=
  if w.active then (w.policy.filter (·.due now)).bind SenderPolicy.version else none

/-- A wake's update of the row, under the version. -/
def touch (t : ℕ) (kind : ActKind) (v : SnoozeTimerVersion) (f : SenderPolicy → SenderPolicy) :
    World :=
  match w.policy with
  | none => w
  | some p =>
    if p.carries v then
      { w with policy := some (f p), acts := w.acts ++ [⟨kind, w.attempts.get t, p, w.writes⟩] }
    else w

/-- `buildWakeMirrorExpr`, on the messages that carry the label. -/
def restoreMirror (labelId : Label) : List MailMessage :=
  w.mail.map fun message =>
    if labelId ∈ message.labelIds then
      { message with labelIds := (restoring labelId).mirror message.labelIds }
    else message

/-- The wake of thread `t` goes on. -/
def put (t : ℕ) (a : Attempt) : World := { w with attempts := w.attempts.set t a }

def forget (t : ℕ) : World := { w with attempts := w.attempts.delete t }

/-- The row is read for thread `t`. -/
def pin (t : ℕ) (v : Option SnoozeTimerVersion) : World :=
  match v with
  | none => w
  | some v => w.put t ⟨⟨v, w.writes⟩, [], []⟩

def choose (t : ℕ) (ids : List MessageId) : World :=
  match w.attempts.get t with
  | none => w
  | some a => w.put t { a with ids := ids }

def accept (t : ℕ) (chunk : List MessageId) : World :=
  match w.attempts.get t with
  | none => w
  | some a => w.put t { a with accepted := a.accepted ++ [chunk] }

end World

/-- What a statement finds out besides. -/
structure Found where
  now : ℤ
  labelId : Label
  superseded : Bool

/-- A statement of thread `t`, as it takes effect. -/
def effect (t : ℕ) (f : Found) (w : World) : (q : Request) → q.Answer × World
  | .selectDue now => (w.dueVersion now, w.pin t (w.dueVersion now))
  | .claim v => (w.carries v, w.touch t .claimed v (·.claimed f.now))
  | .ensureLabelId _ => (f.labelId, w)
  | .selectLabelled labelId =>
    let ids := (w.labelled labelId).map (·.providerMessageId)
    (ids, w.choose t ids)
  | .post ids _ => ((), w.accept t ids)
  | .settle labelId restored v =>
    ((), { w.touch t .cleared v fun _ => .cleared with
      mail := if restored then w.restoreMirror labelId else w.mail })
  | .recordMailboxSyncFailure => (f.superseded, w)
  | .backOff v kind => ((), w.touch t .backedOff v (·.backedOff f.now kind))
  | .lockMailbox | .unlockMailbox | .getClient | .publishLabelId _ => ((), w)

/-- A statement goes through, is lost on its way back, or fails. -/
inductive Choice where
  | go (f : Found)
  | lost (f : Found) (e : WakeError)
  | fail (e : WakeError)

def answer (t : ℕ) (q : Request) (c : Choice) (w : World) :
    Option (Except WakeError q.Answer × World) :=
  some <| match c with
  | .go f => (.ok (effect t f w q).1, (effect t f w q).2)
  | .lost f e => (.error e, (effect t f w q).2)
  | .fail e => (.error e, w)

/-- What the others do. An Undo that has moved mail names the label it took off. -/
inductive Event where
  | setSnooze (until_ : ℤ) (reason : Option String) (now : ℤ)
  | scheduleLaterReturn (wakeAt setAt : ℤ) (keepExisting : Bool)
  | undoLater (wakeAt : ℤ) (moved : Option Label)
  | wakeNow
  | jobRemoved (pinned : Pinned)
  | mirror (mail : List MailMessage)
  | mailbox (active : Bool)

namespace World

variable (w : World)

/-- A timer write that is not a wake's. -/
def write (p : SenderPolicy) : World :=
  { w with policy := some p, writes := w.writes + 1, latest := p.timer }

/-- `setSnooze` writes nothing for the same time and note, if no return has failed. -/
def replays (until_ : ℤ) (reason : Option String) : Bool :=
  w.policy.any fun p => decide (p.snoozedUntil = some until_ ∧ p.snoozedReason = reason ∧
    p.wakeLastFailedAt = none)

/-- The rows that the Undo's update finds. -/
def undoes (wakeAt : ℤ) (moved : Option Label) : Bool :=
  w.policy.any (fun p => decide (p.snoozedUntil = some wakeAt)) &&
    moved.all fun labelId => (w.labelled labelId).isEmpty

/-- The row that an event writes. -/
def written : Event → Option SenderPolicy
  | .setSnooze until_ reason now =>
    if w.replays until_ reason then none else some (.scheduled until_ now reason)
  | .scheduleLaterReturn wakeAt setAt keepExisting =>
    if keepExisting && w.policy.any (·.snoozedUntil.isSome) then none
    else some (.scheduled wakeAt setAt none)
  | .undoLater wakeAt moved => if w.undoes wakeAt moved then some .cleared else none
  | _ => none

def disturb (e : Event) : World :=
  match w.written e, e with
  | some p, _ => w.write p
  | none, .wakeNow =>
    match w.policy.bind SenderPolicy.version with
    | none => w
    | some v => { w with queue := w.queue ++ [⟨v, w.writes⟩] }
  | none, .jobRemoved pinned => { w with queue := w.queue.filter (· ≠ pinned) }
  | none, .mirror mail => { w with mail := mail }
  | none, .mailbox active => { w with active := active }
  | none, _ => w

end World

def waking : System WakeSignature where
  World := World
  Thread := ℕ
  Task := Task
  Outcome := WakeOutcome
  Choice := Choice
  Event := Event
  code := Task.code
  accept t task w :=
    match task with
    | .sweep _ => some (w.forget t)
    | .wake pinned _ _ => if pinned ∈ w.queue then some (w.put t ⟨pinned, [], []⟩) else none
  answer := answer
  settle t _ w := some (w.forget t)
  crash t w := some (w.forget t)
  disturb e w := some (w.disturb e)

end DeclutrMail.Later
