import Mathlib.Logic.Function.Basic
import DeclutrMail.LabelAction.Worker

/-!
# The label-action system

One forward job of one mailbox with its reverse job, and everything their deliveries meet:
the per-mailbox lock, the two rows of `action_jobs`, the protected senders, the labels of
every message in Gmail and in `mail_messages`, and what a finished job leaves behind.

A request of a delivery goes well, or fails before it had an effect, or has its effect while
its answer is lost (`Choice`). A request to Gmail has its effect before the delivery that
sent it goes on or crashes. What the worker reads of other tables (the rule behind an
action, the age of a message) is part of the choice.
-/

namespace DeclutrMail.LabelAction

open Interleaving Batches

/-- A row of `mail_messages`. -/
structure MailMessage where
  senderKey : SenderKey
  isOutbound : Bool
  labelIds : List Label
  deriving DecidableEq

/-- A row of `undo_journal`. -/
structure UndoEntry where
  token : UndoToken
  payload : UndoPayload
  reverted : Bool
  deriving DecidableEq

/-- A row of `activity_log`. -/
structure Activity where
  action : ActionVerb
  affectedCount : ℕ
  undoToken : Option UndoToken
  reverted : Bool
  deriving DecidableEq

/-- An `ACTION_LABEL_APPLIED` event. -/
structure LabelApplied where
  verb : ActionVerb
  undoToken : Option UndoToken
  affectedCount : ℕ
  deriving DecidableEq

/-- One delivery of a queue job. -/
structure Delivery where
  id : ℕ
  direction : Direction
  deriving DecidableEq

/-- What is remembered of the requests of the forward job. `isProtected` is whether the
sender of the job was Protected when the statement ran, `refused` that Gmail answered with a
refusal. -/
inductive LogEntry
  | reread (isProtected : Bool)
  | marked (isProtected : Bool)
  | sent (first refused : Bool)
  | stopped (status : ActionJobStatus) (errorCode : Option String)
  deriving DecidableEq

/-- The tables are newest first, and so is the log. `hooks` are the failures that `run` may
still hand to `onTerminalFailure`. -/
structure World where
  lock : Option Delivery
  forward : ActionJob
  reverse : Option ActionJob
  isProtected : SenderKey → Bool
  gmail : MessageId → Finset Label
  mailMessages : MessageId → Option MailMessage
  undoJournal : List UndoEntry
  activityLog : List Activity
  outbox : List LabelApplied
  hooks : List (Direction × ActionError)
  log : List LogEntry

/-- No delivery has started yet. -/
def World.enqueued (forward : ActionJob) (isProtected : SenderKey → Bool)
    (gmail : MessageId → Finset Label) (mailMessages : MessageId → Option MailMessage) : World where
  lock := none
  forward := forward
  reverse := none
  isProtected := isProtected
  gmail := gmail
  mailMessages := mailMessages
  undoJournal := []
  activityLog := []
  outbox := []
  hooks := []
  log := []

/-! ## Reading -/

namespace World

/-- `protectedSubjectRow` finds a row. -/
def subjectIsProtected (w : World) : ProtectionSubject → Bool
  | .sender senderKey => w.isProtected senderKey
  | .messages ids => ids.any fun m => (w.mailMessages m).any fun row => w.isProtected row.senderKey

/-- The sender of the job is Protected now. -/
def jobIsProtected (w : World) : Bool :=
  (protectionSubject w.forward false).any w.subjectIsProtected

def job (w : World) : Direction → Option ActionJob
  | .forward => some w.forward
  | .reverse => w.reverse

def hasInbox (w : World) (m : MessageId) : Bool :=
  (w.mailMessages m).any fun row => decide ("INBOX" ∈ row.labelIds)

def undoPayload (w : World) (token : UndoToken) : Option UndoPayload :=
  (w.undoJournal.find? fun entry => decide (entry.token = token)).map (·.payload)

end World

def allMailExcludedLabelIds : List Label := ["TRASH", "SPAM", "DRAFT", "CHAT"]

def reachWhere (reach : SenderActionReach) (labelIds : List Label) : Bool :=
  match reach with
  | .inboxOnly => decide ("INBOX" ∈ labelIds)
  | .allMail => !labelIds.any fun label => decide (label ∈ allMailExcludedLabelIds)

/-- `senderActionWhere`, but for the age of the message. -/
def senderActionWhere (job : ActionJob) (row : MailMessage) : Bool :=
  match job.selector with
  | .sender senderKey _ =>
    decide (row.senderKey = senderKey) && !row.isOutbound && reachWhere job.reach row.labelIds
  | .messages => false

/-- The condition of `eligibleCustomIds`. -/
def customWhere (job : ActionJob) (row : MailMessage) : Bool :=
  senderActionWhere job row && !row.labelIds.any fun label => decide (label ∈ allMailExcludedLabelIds)

/-! ## Writing -/

/-- `recordProtected` on the row. -/
def ActionJob.skipProtected (job : ActionJob) : ActionJob :=
  { job with
    status := .done
    affectedCount := 0
    errorCode := some labelSenderProtectedErrorCode
    quotaUnits := settledQuotaUnits job.quotaUnits 0 }

/-- A write of `failed`. `onTerminalFailure` leaves `affected_count` alone; it is 0 on every
row that is not done. -/
def ActionJob.fail (job : ActionJob) (errorCode : String) (affectedCount : ℕ) : ActionJob :=
  { job with
    status := .failed
    affectedCount := affectedCount
    errorCode := some errorCode
    quotaUnits := settledQuotaUnits job.quotaUnits 0 }

def ActionJob.finish (job : ActionJob) (affectedCount : ℕ) (undoToken : Option UndoToken) :
    ActionJob :=
  { job with
    status := .done
    affectedCount := affectedCount
    undoToken := undoToken
    quotaUnits := settledQuotaUnits job.quotaUnits affectedCount }

/-- `messages.batchModify`. -/
def batchModify (ids : List MessageId) (change : LabelChange) (gmail : MessageId → Finset Label) :
    MessageId → Finset Label :=
  fun m => if m ∈ ids then change.apply (gmail m) else gmail m

/-- The update of `label_ids` in the mirror. -/
def updateMirror (ids : List MessageId) (change : LabelChange)
    (mail : MessageId → Option MailMessage) : MessageId → Option MailMessage :=
  fun m =>
    if m ∈ ids then (mail m).map fun row => { row with labelIds := change.mirror row.labelIds }
    else mail m

def updateMirrors (groups : List ReverseGroup) (mail : MessageId → Option MailMessage) :
    MessageId → Option MailMessage :=
  groups.foldl (fun mail group => updateMirror group.ids group.change mail) mail

/-- The row that is inserted for an action on a sender. -/
def senderJob (verb : ActionVerb) (senderKey : SenderKey) (reach : SenderActionReach)
    (quotaUnits : ℕ) (wakeAt : Option ℤ) : ActionJob where
  verb := verb
  direction := .forward
  status := .queued
  errorCode := none
  selector := .sender senderKey false
  deleteUndo := none
  resolvedMessageIds := []
  affectedCount := 0
  undoToken := none
  quotaUnits := quotaUnits
  recoveryAttempt := 0
  reach := reach
  wakeAt := wakeAt

/-- The row that `enqueueRevert` inserts. -/
def revertJob (job : ActionJob) (token : UndoToken) : ActionJob where
  verb := job.verb
  direction := .reverse
  status := .queued
  errorCode := none
  selector := job.selector
  deleteUndo := job.deleteUndo
  resolvedMessageIds := job.resolvedMessageIds
  affectedCount := 0
  undoToken := some token
  quotaUnits := 0
  recoveryAttempt := 0
  reach := job.reach
  wakeAt := job.wakeAt

namespace World

def record (w : World) (entry : LogEntry) : World := { w with log := entry :: w.log }

/-- A protected stop writes the row. -/
def stop (w : World) (job : ActionJob) : World :=
  { w with forward := job, log := .stopped job.status job.errorCode :: w.log }

def persistIds (w : World) (ids : List MessageId) : World :=
  { w with forward := { w.forward with resolvedMessageIds := ids } }

/-- The terminal transaction of a job that matched no mail. -/
def commitNothing (w : World) : World :=
  { w with
    forward := w.forward.finish 0 w.forward.undoToken
    activityLog := ⟨w.forward.verb, 0, none, false⟩ :: w.activityLog
    outbox := ⟨w.forward.verb, none, 0⟩ :: w.outbox }

def markExecuting (w : World) (deleteUndo : Option DeleteUndo) : World :=
  { w with
    forward :=
      { w.forward with status := .executing, deleteUndo := deleteUndo.or w.forward.deleteUndo }
    log := .marked w.jobIsProtected :: w.log }

def send (w : World) (first : Bool) (ids : List MessageId) (change : LabelChange) : World :=
  { w with gmail := batchModify ids change w.gmail, log := .sent first false :: w.log }

def resetQueued (w : World) : World :=
  if w.forward.status = .executing then { w with forward := { w.forward with status := .queued } }
  else w

/-- The terminal transaction. -/
def commitForward (w : World) (ids : List MessageId) (payload : UndoPayload)
    (change : LabelChange) : World :=
  let token := w.undoJournal.length
  { w with
    forward := w.forward.finish ids.length (some token)
    mailMessages := updateMirror ids change w.mailMessages
    undoJournal := ⟨token, payload, false⟩ :: w.undoJournal
    activityLog := ⟨w.forward.verb, ids.length, some token, false⟩ :: w.activityLog
    outbox := ⟨w.forward.verb, some token, ids.length⟩ :: w.outbox }

def setReverse (w : World) (f : ActionJob → ActionJob) : World :=
  { w with reverse := w.reverse.map f }

/-- The terminal transaction of a reverse job. -/
def commitReverse (w : World) (token : UndoToken) (ids : List MessageId)
    (groups : List ReverseGroup) : World :=
  { w with
    undoJournal := w.undoJournal.map fun entry =>
      if entry.token = token then { entry with reverted := true } else entry
    activityLog := w.activityLog.map fun entry =>
      if entry.undoToken = some token then { entry with reverted := true } else entry
    mailMessages := if ids = [] then w.mailMessages else updateMirrors groups w.mailMessages
    reverse := w.reverse.map fun job => job.finish ids.length job.undoToken }

end World

/-! ## The system -/

/-- What a request finds outside the tables of the world. -/
structure Findings where
  gate : Gate
  ids : List MessageId

inductive Choice
  | go (f : Findings)
  | lost (f : Findings) (e : ActionError)
  | fail (e : ActionError)

/-- The errors that come from the database or from Gmail. -/
def ActionError.external : ActionError → Bool
  | .database | .transient | .rateLimit | .authExpired | .permanent | .invalidGrant => true
  | _ => false

/-- A request as it takes effect. -/
def effect (u : UserLabels) (t : Delivery) (f : Findings) (w : World) :
    (q : Request) → Option (q.Answer × World)
  | .acquireLock => if w.lock = none then some ((), { w with lock := some t }) else none
  | .releaseLock => if w.lock = some t then some ((), { w with lock := none }) else none
  | .selectJob direction => some (w.job direction, w)
  | .subjectIsProtected subject =>
    some (w.subjectIsProtected subject, w.record (.reread w.jobIsProtected))
  | .recordProtected => some ((), w.stop w.forward.skipProtected)
  | .recordRecoveryProtected =>
    some ((), w.stop (w.forward.fail recoverySenderProtectedErrorCode 0))
  | .customStartPredicate => some (f.gate, w)
  | .eligibleCustomIds ids =>
    some ((distinct ids).filter fun m =>
      (w.mailMessages m).any (customWhere w.forward) && decide (m ∈ f.ids), w)
  | .resolveSenderActionIds =>
    -- The rows come in any order, each once.
    if f.ids.Nodup ∧ ∀ m ∈ f.ids, (w.mailMessages m).any (senderActionWhere w.forward) = true then
      some (f.ids, w)
    else none
  | .persistIds ids => some ((), w.persistIds ids)
  | .commitNothing => some ((), w.commitNothing)
  | .getClient => some ((), w)
  | .ensureLabelId name => some (u.id name, w)
  | .acquireQuota => some ((), w)
  | .selectInboxIds ids => some (ids.filter w.hasInbox, w)
  | .markExecuting subject gated deleteUndo =>
    if subject.any w.subjectIsProtected || (gated && decide (f.gate ≠ .pass)) then some (false, w)
    else some (true, w.markExecuting deleteUndo)
  | .send first ids change => some ((), w.send first ids change)
  | .scheduleLaterReturn => some ((), w)
  | .resetQueued => some ((), w.resetQueued)
  | .undoExpiresAt => some ((), w)
  | .commitForward ids payload change =>
    some (w.undoJournal.length, w.commitForward ids payload change)
  | .failBlocked block => some ((), { w with forward := w.forward.fail block.code 0 })
  | .deferQuiet => some ((), w)
  | .markReverseExecuting => some ((), w.setReverse fun job => { job with status := .executing })
  | .selectUndoPayload token => some (w.undoPayload token, w)
  | .sendReverse ids change => some ((), { w with gmail := batchModify ids change w.gmail })
  | .commitReverse token ids groups => some ((), w.commitReverse token ids groups)

/-- A request that fails without effect leaves no more than a trace of a sent one. -/
def missed (e : ActionError) (w : World) : Request → World
  | .send first _ _ => w.record (.sent first (isRefusedBeforeApply e))
  | _ => w

/-- The errors a request may fail with. A failed unlock is swallowed, and the end of the
session unlocks. -/
def Request.mayFail (e : ActionError) : Request → Bool
  | .releaseLock => false
  | _ => e.external

/-- The errors that may hide an effect. A refusal of Gmail does not, and the session whose
lock request fails does not have the lock. -/
def Request.mayLose (e : ActionError) : Request → Bool
  | .acquireLock | .releaseLock => false
  | .send .. | .sendReverse .. => e.external && !isRefusedBeforeApply e
  | _ => e.external

def answer (u : UserLabels) (t : Delivery) (q : Request) (c : Choice) (w : World) :
    Option (Except ActionError q.Answer × World) :=
  match c with
  | .go f => (effect u t f w q).map fun r => (.ok r.1, r.2)
  | .lost f e =>
    if q.mayLose e then (effect u t f w q).map fun r => (.error e, r.2) else none
  | .fail e => if q.mayFail e then some (.error e, missed e w q) else none

/-- What happens around the deliveries: a sender is Protected or no longer, someone else
changes the labels of a message or its row in the mirror, `enqueueJob` reports a failed add,
`onTerminalFailure` runs, the user clicks Undo. -/
inductive Event
  | protect (senderKey : SenderKey) (isProtected : Bool)
  | relabel (m : MessageId) (labels : Finset Label) (row : Option MailMessage)
  | enqueueFailed
  | terminalFailure (direction : Direction) (e : ActionError)
  | undo

/-- `onTerminalFailure` on the row of one direction. -/
def World.terminalFailure (w : World) (direction : Direction) (e : ActionError) : World :=
  match direction with
  | .forward => { w with forward := w.forward.fail e.name w.forward.affectedCount }
  | .reverse => w.setReverse fun job => job.fail e.name job.affectedCount

/-- `enqueueRevert` for the token of the forward job. -/
def World.undo (w : World) (token : UndoToken) : World :=
  match w.reverse with
  | none => { w with reverse := some (revertJob w.forward token) }
  | some job =>
    if job.status = .done then w
    else
      { w with
        reverse := some { job with status := .queued, errorCode := none, affectedCount := 0 } }

def disturb (w : World) : Event → Option World
  | .protect senderKey isProtected =>
    some { w with isProtected := Function.update w.isProtected senderKey isProtected }
  | .relabel m labels row =>
    some { w with
      gmail := Function.update w.gmail m labels
      mailMessages := Function.update w.mailMessages m row }
  | .enqueueFailed =>
    if w.forward.status = .queued then
      some { w with forward := w.forward.fail enqueueFailedErrorCode w.forward.affectedCount }
    else none
  | .terminalFailure direction e =>
    if (direction, e) ∈ w.hooks then
      some ({ w with hooks := w.hooks.erase (direction, e) }.terminalFailure direction e)
    else none
  | .undo => w.forward.undoToken.map w.undo

/-- The deliveries of one forward job and of its reverse job. `protectedConfirmed` is part of
the payload of the forward job's deliveries. -/
def system (u : UserLabels) (protectedConfirmed : Bool) : System Sig where
  World := World
  Thread := Delivery
  Task := Direction
  Outcome := LabelActionResult
  Choice := Choice
  Event := Event
  code := processJob protectedConfirmed
  accept t direction w := if direction = t.direction then some w else none
  answer := answer u
  settle t r w :=
    match r with
    | .ok _ => some w
    | .error e => some { w with hooks := (t.direction, e) :: w.hooks }
  crash t w := some { w with lock := if w.lock = some t then none else w.lock }
  disturb e w := disturb w e

end DeclutrMail.LabelAction
