import Mathlib.Data.List.Sort
import DeclutrMail.Actions.Rows
import DeclutrMail.Interleaving.Embedding
import DeclutrMail.Interleaving.UniqueKeys
import DeclutrMail.LabelAction.System

/-!
# Recovery of failed label actions

A failed Archive, Later or Delete is not run again: a review of it is verified against Gmail, and
its confirmation inserts a new attempt, which retries the failed one. `ActionRecoveryService` is
translated here as programs over `Statement`; the deliveries of the attempts are the label-action
worker's, embedded.

The verification of a review is an event, and the digests of keys and confirmations are taken as
given.
-/

namespace DeclutrMail.Recovery

open Interleaving LabelAction
open Actions (ServiceError MailboxId ActionId)

abbrev PreviewId := ℕ

/-! ## Rows -/

/-- A row of `action_jobs` for a label action, with its place in a lineage. -/
structure Attempt where
  id : ActionId
  mailboxAccountId : MailboxId
  idempotencyKey : String
  rootActionId : Option ActionId
  retryOfActionId : Option ActionId
  compositeId : Option ActionId
  job : ActionJob
  deriving DecidableEq

/-- `rootActionId ?? id` -/
def Attempt.lineage (action : Attempt) : ActionId := action.rootActionId.getD action.id

inductive PreviewStatus
  | verifying
  | ready
  | failed
  | consumed
  deriving DecidableEq

def PreviewStatus.active : PreviewStatus → Bool
  | verifying | ready => true
  | failed | consumed => false

inductive RecoveryOutcome
  | notApplied
  | partly
  | alreadyApplied
  | noChangeNeeded
  | uncertain
  | reconnectRequired
  | blocked
  deriving DecidableEq

/-- What `recoveryConfirmationFingerprint` hashes. -/
structure Fingerprint where
  previewId : PreviewId
  wakeAt : Option ℤ
  senderProtected : Bool
  deriving DecidableEq

/-- A row of `action_recovery_previews`. -/
structure Preview where
  id : PreviewId
  mailboxAccountId : MailboxId
  rootActionId : ActionId
  currentActionId : ActionId
  status : PreviewStatus
  outcome : Option RecoveryOutcome
  targetMessageIds : List MessageId
  errorCode : Option String
  expiresAt : ℤ
  recoveryActionId : Option ActionId
  confirmationFingerprint : Option Fingerprint
  deriving DecidableEq

/-- Unique keys of `action_jobs`, and locks on the rows of both tables. -/
inductive LineageLock
  | key (idempotencyKey : String)
  | id (actionId : ActionId)
  | retryOf (actionId : ActionId)
  | attempt (rootActionId : ActionId) (recoveryAttempt : ℕ)
  | preview (previewId : PreviewId)
  deriving DecidableEq

def Attempt.locks (action : Attempt) : List LineageLock :=
  .key action.idempotencyKey :: .id action.id :: action.retryOfActionId.toList.map .retryOf ++
    action.rootActionId.toList.map (.attempt · action.job.recoveryAttempt)

structure Store where
  attempts : List Attempt
  previews : List Preview

/-- What the transaction of a confirmation writes. -/
inductive Write
  | child (action : Attempt)
  | consume (previewId : PreviewId) (recoveryActionId : ActionId) (fingerprint : Fingerprint)

namespace Store

variable (s : Store)

def updatePreviews (chosen : Preview → Bool) (change : Preview → Preview) : Store :=
  { s with previews := s.previews.map fun preview => if chosen preview then change preview else preview }

def updateAttempt (id : ActionId) (change : ActionJob → ActionJob) : Store :=
  { s with attempts := s.attempts.map fun action =>
      if action.id = id then { action with job := change action.job } else action }

def apply : Write → Store
  | .child action => { s with attempts := s.attempts ++ [action] }
  | .consume previewId recoveryActionId fingerprint =>
    s.updatePreviews (·.id = previewId) fun preview =>
      { preview with
        status := .consumed
        recoveryActionId := some recoveryActionId
        confirmationFingerprint := some fingerprint }

/-- A lineage with its root, the latest attempt first. -/
def lineage (root : ActionId) : List Attempt :=
  (s.attempts.filter (·.lineage = root)).insertionSort fun a b =>
    b.job.recoveryAttempt ≤ a.job.recoveryAttempt

end Store

def attemptKeys : UniqueIndex Store.apply LineageLock where
  listed s := s.attempts.flatMap (·.locks)
  keys
    | .child action => action.locks
    | .consume .. => []
  listed_apply s x := by
    cases x with
    | child action => simp [Store.apply]
    | consume => simp [Store.apply, Store.updatePreviews]

/-! ## Statements -/

inductive Statement
  | delivery (actionId : ActionId) (q : Request)
  | now
  | selectAction (mailboxAccountId : MailboxId) (actionId : ActionId)
  | selectLineage (mailboxAccountId : MailboxId) (rootActionId : ActionId)
  | selectStale (mailboxAccountId : MailboxId) (rootActionId : ActionId) (now : ℤ)
  | expire (previewId : PreviewId) (status : PreviewStatus) (now : ℤ)
  | findActivePreview (mailboxAccountId : MailboxId) (rootActionId : ActionId) (now : ℤ)
  | insertPreview (mailboxAccountId : MailboxId) (rootActionId currentActionId : ActionId)
      (expiresAt : ℤ)
  | addVerification (previewId : PreviewId)
  | failVerification (mailboxAccountId : MailboxId) (previewId : PreviewId)
  | selectPreview (mailboxAccountId : MailboxId) (previewId : PreviewId)
  | senderProtected (selector : Selector) (messageIds : List MessageId)
  | findRecoveryByKey (key : String)
  | lockPreview (previewId : PreviewId)
  | lockAction (actionId : ActionId)
  | selectSnoozedUntil (senderKey : SenderKey)
  | quotaUnitsForEnqueue (verb : ActionVerb) (requestedCount : ℕ)
  | insertAttempt (action : Attempt)
  | consume (previewId : PreviewId) (recoveryActionId : ActionId) (fingerprint : Fingerprint)
  | commit
  | rollback
  | add (actionId : ActionId) (protectedConfirmed : Bool)

abbrev Statement.Answer : Statement → Type
  | .delivery _ q => q.Answer
  | .now => ℤ
  | .selectAction .. => Option Attempt
  | .selectLineage .. => List Attempt
  | .selectStale .. | .findActivePreview .. | .insertPreview .. => Option Preview
  | .selectPreview .. => Option (Preview × Attempt)
  | .senderProtected .. | .consume .. => Bool
  | .findRecoveryByKey _ => Option (Attempt × Option Preview)
  | .selectSnoozedUntil _ => Option ℤ
  | .quotaUnitsForEnqueue .. => ℕ
  | .insertAttempt _ => Attempt
  | _ => Unit

inductive RecoveryError
  | action (e : ActionError)
  | service (e : ServiceError)

abbrev RecoverySignature : Signature := ⟨Statement, Statement.Answer, RecoveryError⟩

abbrev RecoveryProgram (α : Type) := Program RecoverySignature α

def run (q : Statement) : RecoveryProgram q.Answer := Program.perform (S := RecoverySignature) q

def refuse {α : Type} (e : ServiceError) : RecoveryProgram α := throw (.service e)

/-- The requests of the worker for one attempt. -/
def deliveries (actionId : ActionId) : Embedding Sig RecoverySignature where
  request := .delivery actionId
  answer a := a
  error := .action
  back
    | .action e => e
    | .service _ => .database
  back_error _ := rfl

/-- `db.transaction` -/
def transaction {α : Type} (body : RecoveryProgram α) : RecoveryProgram α := do
  let a ← tryCatch body fun e => do
    run .rollback
    throw e
  run .commit
  return a

/-! ## Exceptions -/

namespace ServiceError

def actionNotFound : ServiceError := ⟨404, "ACTION_NOT_FOUND", "Action not found."⟩

def actionNotRecoverable : ServiceError :=
  ⟨409, "ACTION_NOT_RECOVERABLE",
    "Only failed Archive, Later, or Delete actions can be reviewed here."⟩

def actionAlreadyRecovered : ServiceError :=
  ⟨409, "ACTION_ALREADY_RECOVERED", "This action was already recovered successfully."⟩

def recoveryAttemptStale : ServiceError :=
  ⟨409, "RECOVERY_ATTEMPT_STALE",
    "A newer recovery attempt exists. Review the latest Activity state."⟩

def recoveryQueueUnavailable : ServiceError :=
  ⟨503, "RECOVERY_QUEUE_UNAVAILABLE", "Recovery verification is temporarily unavailable."⟩

def actionQueueUnavailable : ServiceError :=
  ⟨503, "ACTION_QUEUE_UNAVAILABLE", "Action recovery is temporarily unavailable."⟩

def recoveryPreviewConflict : ServiceError :=
  ⟨409, "RECOVERY_PREVIEW_CONFLICT",
    "A recovery review changed. Open the latest Activity row and try again."⟩

def recoveryPreviewNotFound : ServiceError :=
  ⟨404, "RECOVERY_PREVIEW_NOT_FOUND", "Recovery preview not found."⟩

def verificationNotStarted (reason : String) : ServiceError :=
  ⟨503, "RECOVERY_ENQUEUE_FAILED", "Recovery verification could not start: " ++ reason⟩

def deliveryNotConfirmed (reason : String) : ServiceError :=
  ⟨503, "RECOVERY_ENQUEUE_FAILED",
    "The recovery action is queued but delivery could not be confirmed: " ++ reason⟩

def idempotencyKeyConflict : ServiceError :=
  ⟨409, "IDEMPOTENCY_KEY_CONFLICT",
    "This recovery key was already used for a different confirmation."⟩

def recoveryAlreadyRequested : ServiceError :=
  ⟨409, "RECOVERY_ALREADY_REQUESTED", "This recovery review was already confirmed."⟩

def recoveryNotReady : ServiceError :=
  ⟨409, "RECOVERY_NOT_READY", "Wait for Gmail verification to finish before confirming."⟩

def recoveryPreviewExpired : ServiceError :=
  ⟨409, "RECOVERY_PREVIEW_EXPIRED",
    "This recovery review expired. Refresh it before trying again."⟩

def actionNoLongerFailed : ServiceError :=
  ⟨409, "ACTION_NO_LONGER_FAILED", "This action no longer needs recovery."⟩

def recoveryNothingToApply : ServiceError :=
  ⟨409, "RECOVERY_NOTHING_TO_APPLY", "No Gmail messages require reconciliation."⟩

def recoverySenderProtected : ServiceError :=
  ⟨409, "RECOVERY_SENDER_PROTECTED", "This sender is Protected now. Check again before retrying."⟩

def wakeTimeNotApplicable : ServiceError :=
  ⟨409, "WAKE_TIME_NOT_APPLICABLE", "A return time only applies to Later."⟩

def laterWakeTimeRequired : ServiceError :=
  ⟨409, "LATER_WAKE_TIME_REQUIRED",
    "Choose a new future return time before recovering this Later action."⟩

def laterSenderRequired : ServiceError :=
  ⟨409, "LATER_SENDER_REQUIRED", "Later recovery requires the original sender scope."⟩

def laterTimerSuperseded : ServiceError :=
  ⟨409, "LATER_TIMER_SUPERSEDED",
    "This sender already has a newer Later schedule. The failed action was not replayed."⟩

end ServiceError

/-- `safeErrorName`, where the queue has failed. -/
def RecoveryError.reason : RecoveryError → String
  | .action e => e.name
  | .service e => e.message

/-! ## A review -/

structure PreviewRequest where
  mailboxAccountId : MailboxId
  actionId : ActionId
  deriving DecidableEq

/-- The projection of a review, and whether its sender is Protected. -/
structure PreviewResult where
  preview : Preview
  senderProtected : Bool

def previewTtlMs : ℤ := 15 * 60 * 1000

def autopilotClaimKeyPrefixes : List String := ["autopilot-", "autopilot-unsubexec-"]

def isClaimKey (key : String) : Bool :=
  autopilotClaimKeyPrefixes.any fun start => start.toList.isPrefixOf key.toList

section Preview

variable (mailboxAccountId : MailboxId)

def rootKey (action : Attempt) : RecoveryProgram (Option String) :=
  match action.rootActionId with
  | none => return some action.idempotencyKey
  | some root => do
    let found ← run (.selectAction mailboxAccountId root)
    return found.map (·.idempotencyKey)

def requireFailedAttempt (actionId : ActionId) : RecoveryProgram Attempt := do
  match ← run (.selectAction mailboxAccountId actionId) with
  | none => refuse ServiceError.actionNotFound
  | some action => do
    .when (decide (action.job.status ≠ .failed) || decide (action.job.direction ≠ .forward))
      (refuse ServiceError.actionNotRecoverable)
    let key ← rootKey mailboxAccountId action
    .when (key.any isClaimKey) (refuse ServiceError.actionNotRecoverable)
    return action

def assertLatestUnresolvedAttempt (rootActionId actionId : ActionId) : RecoveryProgram Unit := do
  let rows ← run (.selectLineage mailboxAccountId rootActionId)
  .when (rows.any fun row => row.job.status = .done) (refuse ServiceError.actionAlreadyRecovered)
  .when (decide (rows.head?.map (·.id) ≠ some actionId)) (refuse ServiceError.recoveryAttemptStale)

/-- The slot of the active review is released after its window. -/
def expireStalePreview (rootActionId : ActionId) : RecoveryProgram Unit := do
  let now ← run .now
  match ← run (.selectStale mailboxAccountId rootActionId now) with
  | none => return ()
  | some stale => run (.expire stale.id stale.status now)

def findActivePreview (rootActionId : ActionId) : RecoveryProgram (Option Preview) := do
  let now ← run .now
  run (.findActivePreview mailboxAccountId rootActionId now)

def enqueuePreview (previewId : PreviewId) : RecoveryProgram Unit :=
  tryCatch (run (.addVerification previewId)) fun e => do
    run (.failVerification mailboxAccountId previewId)
    refuse (ServiceError.verificationNotStarted e.reason)

def getPreview (previewId : PreviewId) : RecoveryProgram PreviewResult := do
  match ← run (.selectPreview mailboxAccountId previewId) with
  | none => refuse ServiceError.recoveryPreviewNotFound
  | some (preview, action) => do
    let retrySet := if preview.targetMessageIds.isEmpty then action.job.resolvedMessageIds
      else preview.targetMessageIds
    let isProtected ← run (.senderProtected action.job.selector retrySet)
    return ⟨preview, isProtected⟩

/-- A review is delivered again while it is being verified; its job id is stable. -/
def openPreview (preview : Preview) : RecoveryProgram PreviewResult := do
  .when (decide (preview.status = .verifying)) (enqueuePreview mailboxAccountId preview.id)
  getPreview mailboxAccountId preview.id

/-- A new review, or the one that was inserted meanwhile. -/
def insertPreview (action : Attempt) : RecoveryProgram PreviewResult := do
  let now ← run .now
  let inserted ← run (.insertPreview mailboxAccountId action.lineage action.id (now + previewTtlMs))
  match inserted with
  | some preview => openPreview mailboxAccountId preview
  | none => do
    match ← findActivePreview mailboxAccountId action.lineage with
    | none => refuse ServiceError.recoveryPreviewConflict
    | some preview => openPreview mailboxAccountId preview

end Preview

def createPreview (request : PreviewRequest) (queue : Bool) : RecoveryProgram PreviewResult := do
  .when (!queue) (refuse ServiceError.recoveryQueueUnavailable)
  let action ← requireFailedAttempt request.mailboxAccountId request.actionId
  assertLatestUnresolvedAttempt request.mailboxAccountId action.lineage action.id
  expireStalePreview request.mailboxAccountId action.lineage
  match ← findActivePreview request.mailboxAccountId action.lineage with
  | some active => openPreview request.mailboxAccountId active
  | none => insertPreview request.mailboxAccountId action

/-! ## A confirmation -/

/-- `keyDigest` is the digest of the idempotency key. -/
structure ConfirmRequest where
  mailboxAccountId : MailboxId
  previewId : PreviewId
  keyDigest : String
  wakeAt : Option ℤ
  senderProtected : Bool
  deriving DecidableEq

namespace ConfirmRequest

variable (request : ConfirmRequest)

def storageKey : String := "recovery-" ++ request.keyDigest

def fingerprint : Fingerprint := ⟨request.previewId, request.wakeAt, request.senderProtected⟩

end ConfirmRequest

structure ConfirmResult where
  previewId : PreviewId
  rootActionId : Option ActionId
  actionId : ActionId
  attempt : ℕ
  status : ActionJobStatus
  replayed : Bool

section Confirm

variable (request : ConfirmRequest)

/-- The sender was acknowledged as Protected, and still is. -/
def retryConsent (child : Attempt) : RecoveryProgram Bool :=
  if request.senderProtected then
    run (.senderProtected child.job.selector child.job.resolvedMessageIds)
  else return false

def enqueueRecoveryAction (child : Attempt) : RecoveryProgram Unit := do
  let protectedConfirmed ← retryConsent request child
  tryCatch (run (.add child.id protectedConfirmed)) fun e =>
    refuse (ServiceError.deliveryNotConfirmed e.reason)

def ConfirmResult.of (child : Attempt) (replayed : Bool) : ConfirmResult :=
  ⟨request.previewId, child.rootActionId, child.id, child.job.recoveryAttempt, child.job.status,
    replayed⟩

def enqueueQueued (child : Attempt) (replayed : Bool) : RecoveryProgram ConfirmResult := do
  .when (decide (child.job.status = .queued)) (enqueueRecoveryAction request child)
  return .of request child replayed

/-- The confirmation that its key finds again. -/
def replayConfirmation (existing : Attempt) (preview : Option Preview) :
    RecoveryProgram ConfirmResult := do
  .when (decide (existing.mailboxAccountId ≠ request.mailboxAccountId) ||
    decide (preview.map (·.id) ≠ some request.previewId) ||
    decide (preview.bind (·.confirmationFingerprint) ≠ some request.fingerprint))
    (refuse ServiceError.idempotencyKeyConflict)
  enqueueQueued request existing true

/-- A review that is not ready: it was confirmed under this key, or it is refused. -/
def confirmedBefore (preview : Preview) : RecoveryProgram (Attempt × Bool) := do
  let winner ← match preview.status, preview.recoveryActionId with
    | .consumed, some child => run (.selectAction request.mailboxAccountId child)
    | _, _ => pure none
  match winner.filter (·.idempotencyKey = request.storageKey) with
  | some winner => do
    .when (decide (preview.confirmationFingerprint ≠ some request.fingerprint))
      (refuse ServiceError.idempotencyKeyConflict)
    return (winner, true)
  | none =>
    if preview.status = .consumed then refuse ServiceError.recoveryAlreadyRequested
    else refuse ServiceError.recoveryNotReady

/-- A Later that is retried needs a time in the future, unless a newer Later has set one. -/
def resolveLaterWakeAt (action : Attempt) : RecoveryProgram (Option ℤ) := do
  let now ← run .now
  match request.wakeAt.or action.job.wakeAt with
  | none => refuse ServiceError.laterWakeTimeRequired
  | some wakeAt => do
    .when (wakeAt ≤ now) (refuse ServiceError.laterWakeTimeRequired)
    match action.job.selector with
    | .messages => refuse ServiceError.laterSenderRequired
    | .sender senderKey _ => do
      let snoozedUntil ← run (.selectSnoozedUntil senderKey)
      let now ← run .now
      .when (snoozedUntil.any (now < ·)) (refuse ServiceError.laterTimerSuperseded)
      return some wakeAt

def resolveRecoveryWakeAt (action : Attempt) : RecoveryProgram (Option ℤ) :=
  if action.job.verb = .later then resolveLaterWakeAt request action
  else do
    .when request.wakeAt.isSome (refuse ServiceError.wakeTimeNotApplicable)
    return none

/-- The sender may have been Protected since its review. -/
def assertAcknowledged (preview : Preview) (action : Attempt) : RecoveryProgram Unit :=
  if request.senderProtected then return ()
  else do
    let isProtected ← run (.senderProtected action.job.selector preview.targetMessageIds)
    .when isProtected (refuse ServiceError.recoverySenderProtected)

def assertConfirmable (preview : Preview) (action : Attempt) : RecoveryProgram Unit := do
  let now ← run .now
  .when (preview.expiresAt ≤ now) (refuse ServiceError.recoveryPreviewExpired)
  .when (decide (action.job.status ≠ .failed)) (refuse ServiceError.actionNoLongerFailed)
  .when preview.targetMessageIds.isEmpty (refuse ServiceError.recoveryNothingToApply)
  assertAcknowledged request preview action

/-- The new attempt, before it has its id. -/
def childOf (preview : Preview) (action : Attempt) (attempt : ℕ) (wakeAt : Option ℤ)
    (quotaUnits : ℕ) : Attempt where
  id := 0
  mailboxAccountId := request.mailboxAccountId
  idempotencyKey := request.storageKey
  rootActionId := some preview.rootActionId
  retryOfActionId := some action.id
  compositeId := some (action.compositeId.getD preview.rootActionId)
  job :=
    { verb := action.job.verb
      direction := .forward
      status := .queued
      errorCode := none
      selector := action.job.selector
      deleteUndo := action.job.deleteUndo
      resolvedMessageIds := preview.targetMessageIds
      affectedCount := 0
      undoToken := none
      quotaUnits
      recoveryAttempt := attempt
      reach := action.job.reach
      wakeAt }

/-- The root of the lineage is locked before the number of the attempt is chosen. -/
def insertChild (preview : Preview) (action : Attempt) (wakeAt : Option ℤ) :
    RecoveryProgram Attempt := do
  run (.lockAction preview.rootActionId)
  let rows ← run (.selectLineage request.mailboxAccountId preview.rootActionId)
  let attempt := (rows.head?.map (·.job.recoveryAttempt)).getD 0 + 1
  let quotaUnits ← run (.quotaUnitsForEnqueue action.job.verb preview.targetMessageIds.length)
  run (.insertAttempt (childOf request preview action attempt wakeAt quotaUnits))

def confirmReady (preview : Preview) (action : Attempt) : RecoveryProgram (Attempt × Bool) := do
  assertConfirmable request preview action
  let wakeAt ← resolveRecoveryWakeAt request action
  let child ← insertChild request preview action wakeAt
  let consumed ← run (.consume preview.id child.id request.fingerprint)
  .when (!consumed) (refuse ServiceError.recoveryAlreadyRequested)
  return (child, false)

/-- The transaction of a confirmation. -/
def createAttempt : RecoveryProgram (Attempt × Bool) := do
  run (.lockPreview request.previewId)
  match ← run (.selectPreview request.mailboxAccountId request.previewId) with
  | none => refuse ServiceError.recoveryPreviewNotFound
  | some (preview, action) =>
    if preview.status = .ready then confirmReady request preview action
    else confirmedBefore request preview

def confirmPreview (queue : Bool) : RecoveryProgram ConfirmResult := do
  .when (!queue) (refuse ServiceError.actionQueueUnavailable)
  match ← run (.findRecoveryByKey request.storageKey) with
  | some (existing, preview) => replayConfirmation request existing preview
  | none => do
    let (child, replayed) ← transaction (createAttempt request)
    enqueueQueued request child replayed

end Confirm

end DeclutrMail.Recovery
