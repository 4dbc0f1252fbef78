import DeclutrMail.Interleaving.Ownership
import DeclutrMail.LabelAction.Registry

/-!
# The label-action worker

`LabelActionWorker` runs one durable `action_jobs` row: a forward job applies a verb to the
messages of a sender, a reverse job undoes it. Every statement, Gmail call and gate the
worker awaits is a `Request`; the code between them is translated here, and what the
requests do is in `System`.

A request to Gmail is sent by `GmailClientService.post`: quota, access token, the
`beforeFirstRequest` hook, then the call itself. That client runs the hook before it
sends, so the branch for a client that does not (`recordHookSkipped`) is not reached.

The timer of a Later and the wording of logs are left out.
-/

namespace DeclutrMail.LabelAction

open Interleaving Batches

abbrev SenderKey := String

/-- An `undo_journal.token`. -/
abbrev UndoToken := ℕ

inductive ActionJobStatus
  | queued
  | executing
  | done
  | failed
  deriving DecidableEq

inductive Direction
  | forward
  | reverse
  deriving DecidableEq

/-- `autopilot` is the provenance of an approved custom rule. -/
inductive Selector
  | sender (senderKey : SenderKey) (autopilot : Bool)
  | messages
  deriving DecidableEq

/-- A row of `action_jobs`; `deleteUndo` is the key of that name in its selector. -/
structure ActionJob where
  verb : ActionVerb
  direction : Direction
  status : ActionJobStatus
  errorCode : Option String
  selector : Selector
  deleteUndo : Option DeleteUndo
  resolvedMessageIds : List MessageId
  affectedCount : ℕ
  undoToken : Option UndoToken
  quotaUnits : ℕ
  recoveryAttempt : ℕ
  reach : SenderActionReach
  wakeAt : Option ℤ
  deriving DecidableEq

/-- `GMAIL_BATCH_MODIFY_MAX_IDS`. -/
def gmailBatchModifyMaxIds : ℕ := 1000

def enqueueFailedErrorCode : String := "ENQUEUE_FAILED"

def labelSenderProtectedErrorCode : String := "LABEL_SENDER_PROTECTED"

def recoverySenderProtectedErrorCode : String := "RECOVERY_SENDER_PROTECTED"

/-- Why a rule may not start an action. -/
inductive AutopilotBlock
  | ruleInvalid
  | ruleInactive
  | mailboxInactive
  | notEntitled
  deriving DecidableEq

def AutopilotBlock.code : AutopilotBlock → String
  | .ruleInvalid => "AUTOPILOT_RULE_INVALID"
  | .ruleInactive => "AUTOPILOT_RULE_INACTIVE"
  | .mailboxInactive => "AUTOPILOT_MAILBOX_INACTIVE"
  | .notEntitled => "AUTOPILOT_NOT_ENTITLED"

/-- What a delivery can throw; `database` stands for every failed statement. -/
inductive ActionError
  | database
  | transient
  | rateLimit
  | authExpired
  | permanent
  | invalidGrant
  | validation
  | senderProtectedAtSend
  | customAutopilotBlocked (block : AutopilotBlock)
  | customAutopilotQuiet
  deriving DecidableEq

/-- `error.name`. -/
def ActionError.name : ActionError → String
  | .database => "PostgresError"
  | .transient => "TransientError"
  | .rateLimit => "RateLimitError"
  | .authExpired => "AuthExpiredError"
  | .permanent => "PermanentError"
  | .invalidGrant => "InvalidGrantError"
  | .validation => "ValidationError"
  | .senderProtectedAtSend => "SenderProtectedAtSend"
  | .customAutopilotBlocked _ => "Error"
  | .customAutopilotQuiet => "Error"

/-- Gmail answered with a refusal, so it applied nothing. -/
def isRefusedBeforeApply : ActionError → Bool
  | .rateLimit | .authExpired | .permanent | .invalidGrant => true
  | _ => false

/-- Provably untouched by Gmail. -/
def neverReachedGmail (job : ActionJob) : Bool :=
  decide (job.status = .queued) ||
    (decide (job.status = .failed) && decide (job.errorCode = some enqueueFailedErrorCode))

def customAutopilot (job : ActionJob) : Bool :=
  match job.selector with
  | .sender _ autopilot => autopilot
  | .messages => false

/-- Whose protection a forward job must re-read. -/
inductive ProtectionSubject
  | sender (senderKey : SenderKey)
  | messages (messageIds : List MessageId)
  deriving DecidableEq

def protectionSubject (job : ActionJob) (protectedConfirmed : Bool) : Option ProtectionSubject :=
  if protectedConfirmed then none
  else
    match job.selector with
    | .sender senderKey _ => some (.sender senderKey)
    | .messages =>
      if job.resolvedMessageIds.length > 0 then some (.messages job.resolvedMessageIds) else none

/-- `settledQuotaUnits`, on the units a row holds. -/
def settledQuotaUnits (units affected : ℕ) : ℕ := if affected = 0 then 0 else min units affected

structure LabelActionResult where
  affectedCount : ℕ
  undoToken : Option UndoToken
  alreadyDone : Bool
  skippedProtected : Bool
  stoppedProtected : Bool
  deferredQuiet : Bool
  deriving DecidableEq

def LabelActionResult.plain (affectedCount : ℕ) (undoToken : Option UndoToken)
    (alreadyDone : Bool) : LabelActionResult :=
  ⟨affectedCount, undoToken, alreadyDone, false, false, false⟩

/-! ## Requests -/

/-- What `customStartPredicate` finds: the rule may start, or why it may not. -/
inductive Gate
  | pass
  | blocked (block : AutopilotBlock)
  | quiet
  | invalid
  deriving DecidableEq

inductive Request
  | acquireLock
  | releaseLock
  | selectJob (direction : Direction)
  | subjectIsProtected (subject : ProtectionSubject)
  | recordProtected
  | recordRecoveryProtected
  | customStartPredicate
  | eligibleCustomIds (ids : List MessageId)
  | resolveSenderActionIds
  | persistIds (ids : List MessageId)
  | commitNothing
  | getClient
  | ensureLabelId (name : String)
  | acquireQuota
  | selectInboxIds (ids : List MessageId)
  | markExecuting (subject : Option ProtectionSubject) (gated : Bool)
      (deleteUndo : Option DeleteUndo)
  | send (first : Bool) (ids : List MessageId) (change : LabelChange)
  | scheduleLaterReturn
  | resetQueued
  | undoExpiresAt
  | commitForward (ids : List MessageId) (payload : UndoPayload) (change : LabelChange)
  | failBlocked (block : AutopilotBlock)
  | deferQuiet
  | markReverseExecuting
  | selectUndoPayload (token : UndoToken)
  | sendReverse (ids : List MessageId) (change : LabelChange)
  | commitReverse (token : UndoToken) (ids : List MessageId) (groups : List ReverseGroup)

abbrev Request.Answer : Request → Type
  | .selectJob _ => Option ActionJob
  | .subjectIsProtected _ => Bool
  | .customStartPredicate => Gate
  | .eligibleCustomIds _ => List MessageId
  | .resolveSenderActionIds => List MessageId
  | .ensureLabelId _ => Label
  | .selectInboxIds _ => List MessageId
  | .markExecuting .. => Bool
  | .commitForward .. => UndoToken
  | .selectUndoPayload _ => Option UndoPayload
  | _ => Unit

abbrev Sig : Signature := ⟨Request, Request.Answer, ActionError⟩

abbrev await (q : Request) : Program Sig q.Answer := Program.perform (S := Sig) q

/-! ## Checks -/

def customStartPredicate : Program Sig Unit := do
  match ← await .customStartPredicate with
  | .pass => return ()
  | .blocked block => throw (.customAutopilotBlocked block)
  | .quiet => throw .customAutopilotQuiet
  | .invalid => throw .validation

def recordRecoveryProtected : Program Sig LabelActionResult := do
  await .recordRecoveryProtected
  return { LabelActionResult.plain 0 none false with stoppedProtected := true }

/-- A reviewed retry is never skipped. -/
def recordProtected (job : ActionJob) : Program Sig LabelActionResult :=
  if job.recoveryAttempt > 0 then recordRecoveryProtected
  else do
    await .recordProtected
    return { LabelActionResult.plain 0 none false with skippedProtected := true }

/-- A skip where nothing can have reached Gmail, else a failure. -/
def stopProtected (job : ActionJob) (landed : ℕ) : Program Sig LabelActionResult :=
  if landed = 0 ∧ neverReachedGmail job then recordProtected job else recordRecoveryProtected

def assertNotProtected (subject : ProtectionSubject) : Program Sig Unit := do
  let isProtected ← await (.subjectIsProtected subject)
  .when isProtected (throw .senderProtectedAtSend)

/-- Run a program to a value or an error. -/
def attempt {α : Type} (p : Program Sig α) : Program Sig (Except ActionError α) :=
  tryCatch (do
    let a ← p
    return .ok a) fun e => return .error e

/-! ## The first request -/

def storedOrThrow (job : ActionJob) (ids : List MessageId) : Program Sig (Option DeleteUndo) :=
  match storedDeleteUndo job.deleteUndo ids with
  | .ok stored => return stored
  | .error () => throw .validation

/-- `prepareDeleteUndo`: only an untouched root may replace its original placement. -/
def prepareDeleteUndo (job : ActionJob) (ids : List MessageId) : Program Sig DeleteUndo :=
  if job.recoveryAttempt > 0 || !neverReachedGmail job then do
    let stored ← storedOrThrow job ids
    return stored.getD ⟨ids, none⟩
  else do
    let inbox ← await (.selectInboxIds ids)
    return ⟨ids, some inbox⟩

/-- Classify a gate that changed after its read. -/
def explainGate : Program Sig Unit := do
  customStartPredicate
  throw .transient

/-- Why `markExecuting` marked nothing. -/
def explainUnmarked (subject : Option ProtectionSubject) (gated : Bool) : Program Sig Unit :=
  match subject with
  | some subject =>
    if gated then do
      assertNotProtected subject
      explainGate
    else throw .senderProtectedAtSend
  | none => if gated then explainGate else throw .validation

/-- The placement to store with the mark, for a Delete. -/
def deleteUndoToStore (job : ActionJob) (ids : List MessageId) :
    Program Sig (Option DeleteUndo) :=
  if job.verb = .delete then do
    let snapshot ← prepareDeleteUndo job ids
    return some snapshot
  else return none

/-- `markExecuting`. It gives back the placement that the row then holds. -/
def markExecuting (job : ActionJob) (ids : List MessageId) (subject : Option ProtectionSubject)
    (gated : Bool) : Program Sig (Option DeleteUndo) := do
  let deleteUndo ← deleteUndoToStore job ids
  let marked ← await (.markExecuting subject gated deleteUndo)
  .when (!marked) (explainUnmarked subject gated)
  return deleteUndo.or job.deleteUndo

/-- The scope may have shrunk while the request waited for quota. -/
def checkCustomScope (ids : List MessageId) : Program Sig Unit := do
  customStartPredicate
  let still ← await (.eligibleCustomIds ids)
  .when (decide (still.length ≠ ids.length)) (throw .transient)

/-- `beforeFirstRequest` of the first chunk. It gives back the placement stored. -/
def beforeFirstRequest (job : ActionJob) (ids : List MessageId)
    (subject : Option ProtectionSubject) (startingCustom : Bool) :
    Program Sig (Option DeleteUndo) := do
  .when startingCustom (checkCustomScope ids)
  markExecuting job ids subject startingCustom

/-! ## The requests of a forward job -/

/-- `batchModify` of the first chunk. -/
def sendFirst (job : ActionJob) (ids chunk : List MessageId) (change : LabelChange)
    (subject : Option ProtectionSubject) (startingCustom : Bool) :
    Program Sig (Option DeleteUndo) := do
  await .acquireQuota
  let deleteUndo ← beforeFirstRequest job ids subject startingCustom
  await (.send true chunk change)
  return deleteUndo

/-- `beforeFirstRequest` of a later chunk. -/
def recheck : Option ProtectionSubject → Program Sig Unit
  | none => return ()
  | some subject => assertNotProtected subject

/-- `batchModify` of a later chunk. -/
def sendLater (chunk : List MessageId) (change : LabelChange)
    (subject : Option ProtectionSubject) : Program Sig Unit := do
  await .acquireQuota
  recheck subject
  await (.send false chunk change)

/-- The chunks after the first one: how many had landed when one failed, if one did. -/
def sendRest (change : LabelChange) (subject : Option ProtectionSubject) :
    ℕ → List (List MessageId) → Program Sig (Option (ℕ × ActionError))
  | _, [] => return none
  | landed, chunk :: chunks => do
    match ← attempt (sendLater chunk change subject) with
    | .error e => return some (landed, e)
    | .ok () => sendRest change subject (landed + 1) chunks

/-- How the send loop ended: the placement stored, and the failure with what had landed. -/
structure Sent where
  deleteUndo : Option DeleteUndo
  failure : Option (ℕ × ActionError)

/-- The send loop. -/
def sendAll (job : ActionJob) (ids : List MessageId) (change : LabelChange)
    (subject : Option ProtectionSubject) (startingCustom : Bool) :
    List (List MessageId) → Program Sig Sent
  | [] => return ⟨job.deleteUndo, none⟩
  | chunk :: chunks => do
    match ← attempt (sendFirst job ids chunk change subject startingCustom) with
    | .error e => return ⟨job.deleteUndo, some (0, e)⟩
    | .ok deleteUndo => do
      match ← attempt (Program.when (decide (job.verb = .later)) (await .scheduleLaterReturn)) with
      | .error e => return ⟨deleteUndo, some (1, e)⟩
      | .ok () => do
        let failure ← sendRest change subject 1 chunks
        return ⟨deleteUndo, failure⟩

/-- The catch block around the send loop. -/
def sendFailed (job : ActionJob) (landed : ℕ) (err : ActionError) :
    Program Sig LabelActionResult :=
  if err = .senderProtectedAtSend then stopProtected job landed
  else do
    .when (neverReachedGmail job && decide (landed = 0) && isRefusedBeforeApply err)
      (await .resetQueued)
    throw err

/-- The Inbox placement for the undo payload, of a Delete. -/
def inboxPlacement (job : ActionJob) (ids : List MessageId) :
    Program Sig (Option (List MessageId)) :=
  if job.verb = .delete then do
    let stored ← storedOrThrow job ids
    return stored.bind (·.inboxMessageIds)
  else return none

/-- The terminal transaction, and the read before it. -/
def commitForward (job : ActionJob) (deleteUndo : Option DeleteUndo) (ids : List MessageId)
    (change : LabelChange) : Program Sig LabelActionResult := do
  await .undoExpiresAt
  let inboxMessageIds ← inboxPlacement { job with deleteUndo := deleteUndo } ids
  let payload := buildUndoPayload job.verb ids inboxMessageIds job.reach
  let token ← await (.commitForward ids payload change)
  return .plain ids.length (some token) false

/-- The name of a user label becomes its id, which is created where it does not exist. -/
def resolveLabel (label : Label) : Program Sig Label :=
  if label ∈ systemLabelIds then return label else await (.ensureLabelId label)

def resolveAll : List Label → Program Sig (List Label)
  | [] => return []
  | label :: labels => do
    let id ← resolveLabel label
    let ids ← resolveAll labels
    return id :: ids

def resolveLabelChange (change : LabelChange) : Program Sig LabelChange := do
  let addLabelIds ← resolveAll change.addLabelIds
  let removeLabelIds ← resolveAll change.removeLabelIds
  return ⟨addLabelIds, removeLabelIds⟩

/-- The durable id set of a forward job. -/
def executionSet (job : ActionJob) (startingCustom : Bool) : Program Sig (List MessageId) :=
  if startingCustom then do
    let ids ← await (.eligibleCustomIds job.resolvedMessageIds)
    await (.persistIds ids)
    return ids
  else if !customAutopilot job && job.resolvedMessageIds.isEmpty && decide (job.selector ≠ .messages)
  then do
    let ids ← await .resolveSenderActionIds
    await (.persistIds ids)
    return ids
  else return job.resolvedMessageIds

/-- What follows the send loop. -/
def finishForward (job : ActionJob) (ids : List MessageId) (resolved : LabelChange)
    (sent : Sent) : Program Sig LabelActionResult :=
  match sent.failure with
  | some (landed, err) => sendFailed job landed err
  | none => commitForward job sent.deleteUndo ids resolved

/-- Send the requests of a forward job and finish it. -/
def applyForward (job : ActionJob) (subject : Option ProtectionSubject)
    (startingCustom : Bool) (ids : List MessageId) : Program Sig LabelActionResult :=
  if ids = [] then do
    await .commitNothing
    return .plain 0 none false
  else do
    await .getClient
    let resolved ← resolveLabelChange (labelChangeForVerb job.verb).forward
    let sent ← sendAll job ids resolved subject startingCustom
      (batches gmailBatchModifyMaxIds ids)
    finishForward job ids resolved sent

/-- The re-check before any work. -/
def subjectIsProtected : Option ProtectionSubject → Program Sig Bool
  | none => return false
  | some subject => await (.subjectIsProtected subject)

/-- A forward job that was not stopped by its first re-check. -/
def startForward (job : ActionJob) (subject : Option ProtectionSubject) (startingCustom : Bool) :
    Program Sig LabelActionResult := do
  .when startingCustom customStartPredicate
  let ids ← executionSet job startingCustom
  applyForward job subject startingCustom ids

def executeForward (job : ActionJob) (protectedConfirmed : Bool) :
    Program Sig LabelActionResult := do
  let autopilot := customAutopilot job
  .when (autopilot && decide (job.verb = .later)) (throw .validation)
  .when (decide (job.verb = .later) && (decide (job.selector = .messages) || job.wakeAt.isNone))
    (throw .validation)
  .when (decide (job.selector = .messages) && decide (job.recoveryAttempt = 0) &&
    neverReachedGmail job) (throw .validation)
  let subject := protectionSubject job
    (if autopilot && decide (job.recoveryAttempt = 0) then false else protectedConfirmed)
  let isProtected ← subjectIsProtected subject
  if isProtected then stopProtected job 0
  else
    startForward job subject
      (autopilot && decide (job.recoveryAttempt = 0) && neverReachedGmail job)

/-! ## A reverse job -/

/-- `batchModify` of one group of a reverse job. -/
def sendChunks (change : LabelChange) : List (List MessageId) → Program Sig Unit
  | [] => return ()
  | chunk :: chunks => do
    await .acquireQuota
    await (.sendReverse chunk change)
    sendChunks change chunks

def sendGroups : List ReverseGroup → Program Sig Unit
  | [] => return ()
  | group :: groups => do
    sendChunks group.change (batches gmailBatchModifyMaxIds group.ids)
    sendGroups groups

def resolveGroups : List ReverseGroup → Program Sig (List ReverseGroup)
  | [] => return []
  | group :: groups => do
    let change ← resolveLabelChange group.change
    let resolved ← resolveGroups groups
    return ⟨group.ids, change⟩ :: resolved

/-- Resolve the labels of the groups and send their requests. -/
def sendReverse (ids : List MessageId) (groups : List ReverseGroup) :
    Program Sig (List ReverseGroup) :=
  if ids = [] then return groups
  else do
    await .getClient
    let resolved ← resolveGroups groups
    sendGroups resolved
    return resolved

def executeReverse (job : ActionJob) : Program Sig LabelActionResult :=
  match job.undoToken with
  | none => throw .validation
  | some token => do
    await .markReverseExecuting
    let ids := job.resolvedMessageIds
    let payload ← await (.selectUndoPayload token)
    let groups := reverseChangeGroups job.verb job.reach (labelChangeForVerb job.verb).reverse
      ids payload
    let resolved ← sendReverse ids groups
    await (.commitReverse token ids resolved)
    return .plain ids.length (some token) false

/-! ## One delivery -/

/-- The catch block of `execute`. -/
def forwardFailed (err : ActionError) : Program Sig LabelActionResult :=
  match err with
  | .customAutopilotBlocked block => do
    await (.failBlocked block)
    return .plain 0 none false
  | .customAutopilotQuiet => do
    await .deferQuiet
    return { LabelActionResult.plain 0 none false with deferredQuiet := true }
  | err => throw err

/-- A failed forward row is final, except one that the enqueue call itself failed. -/
def failedForGood (job : ActionJob) : Bool :=
  decide (job.status = .failed) && decide (job.direction = .forward) &&
    decide (job.errorCode ≠ some enqueueFailedErrorCode)

/-- A row that no delivery runs again. -/
def isFinal (job : ActionJob) : Bool := decide (job.status = .done) || failedForGood job

/-- What the delivery of a final row answers. -/
def alreadyDone (job : ActionJob) : LabelActionResult :=
  if job.status ≠ .done ∧ job.errorCode = some recoverySenderProtectedErrorCode then
    { LabelActionResult.plain 0 none true with stoppedProtected := true }
  else .plain job.affectedCount job.undoToken true

def executeJob (job : ActionJob) (protectedConfirmed : Bool) : Program Sig LabelActionResult :=
  if isFinal job then return alreadyDone job
  else
    match job.direction with
    | .reverse => executeReverse job
    | .forward => tryCatch (executeForward job protectedConfirmed) forwardFailed

def execute (protectedConfirmed : Bool) (direction : Direction) :
    Program Sig LabelActionResult := do
  match ← await (.selectJob direction) with
  | none => throw .validation
  | some job => executeJob job protectedConfirmed

def processJob (protectedConfirmed : Bool) (direction : Direction) :
    Program Sig LabelActionResult := do
  await .acquireLock
  (execute protectedConfirmed direction).ensure (await .releaseLock)

end DeclutrMail.LabelAction
