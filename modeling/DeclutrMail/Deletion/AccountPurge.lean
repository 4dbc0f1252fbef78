import Mathlib.Logic.Function.Basic
import Mathlib.Data.Nat.Notation
import DeclutrMail.Interleaving.Triple

/-!
# Purging an account

`AccountDeletionPurgeWorker`: the sweeps that execute one account deletion request, on several
workers. `purgeOne` claims the request, revokes the grants of the mailboxes, enqueues the receipt
and deletes what is stored.

The statements of `withVerifiedStopped` before the claim are one request that begins its
transaction, and the conditional update with the commit is another. The database and the workers
read one clock.
-/

namespace DeclutrMail.Deletion

open Interleaving

def EXECUTING_TAKEOVER_AFTER_MS : ℕ := 10 * 60 * 1000

def MAIL_MESSAGES_DELETE_CHUNK : ℕ := 5000

def BRIEF_BATCH : ℕ := 100

/-! ## Rows -/

inductive DeletionStatus
  | pending | cancelled | executing | completed
  deriving DecidableEq

inductive DeletionBasis
  | flatGrace | undoWindow | waivedImmediate
  deriving DecidableEq

structure DeletionRequest where
  basis : DeletionBasis
  requestedAt : ℕ
  effectiveAt : ℕ
  status : DeletionStatus
  cancelledAt : Option ℕ
  executedAt : Option ℕ
  deriving DecidableEq

/-- `executed_at < executingTakeoverCutoff()`, for a cutoff that was computed at `reading`. -/
def DeletionRequest.stranded (row : DeletionRequest) (reading : ℕ) : Bool :=
  row.status = .executing && row.executedAt.any (· + EXECUTING_TAKEOVER_AFTER_MS < reading)

/-- The rows that the claim takes, and that a billing check which failed puts back. -/
def DeletionRequest.claimable (row : DeletionRequest) (reading : ℕ) : Bool :=
  row.status = .pending || row.stranded reading

structure DueRequest where
  basis : DeletionBasis
  requestedAt : ℕ
  effectiveAt : ℕ
  deriving DecidableEq

def DeletionRequest.due (row : DeletionRequest) (reading now : ℕ) : Option DueRequest :=
  if row.status = .pending ∧ row.effectiveAt ≤ now ∨ row.stranded reading then
    some ⟨row.basis, row.requestedAt, row.effectiveAt⟩
  else none

structure User where
  email : String
  workspaceId : ℕ
  deriving DecidableEq

abbrev MailboxId := ℕ

structure Mailbox where
  id : MailboxId
  encryptedRefreshToken : Option ByteArray
  dekEncrypted : Option ByteArray

def Mailbox.hasCredentials (m : Mailbox) : Bool :=
  m.encryptedRefreshToken.isSome && m.dekEncrypted.isSome

structure WatchCounts where
  stopped : ℕ
  failed : ℕ
  skipped : ℕ
  deriving DecidableEq

structure GrantCounts where
  revoked : ℕ
  skipped : ℕ
  deriving DecidableEq

structure Lifecycle where
  watch : WatchCounts
  grant : GrantCounts
  deriving DecidableEq

/-- What the security event of an executed deletion records. -/
structure AuditPayload where
  workspaceId : ℕ
  request : DueRequest
  mailboxCount : ℕ
  lifecycle : Lifecycle
  deriving DecidableEq

/-! ## Requests -/

inductive Request
  | dateNow
  | findDueRequests (reading : ℕ)
  | assertStopped
  | putBack (reading : ℕ)
  | beginVerifiedStopped
  | claim (startedAt reading : ℕ)
  | selectUser
  | selectMailboxes
  | getClient (id : MailboxId)
  | stopWatch (id : MailboxId)
  | revokeGrant (id : MailboxId)
  | writeScanProgress (id : MailboxId)
  | removeInitialSyncJob (id : MailboxId)
  | trimInitialSyncEvents
  | selectBriefRuns (id : MailboxId) (afterId : Option ℕ)
  | removeBriefJob (id : ℕ)
  | trimBriefEvents
  | enqueueReceipt (recipientOverride : String)
  | findAudit
  | insertAudit (payload : AuditPayload)
  | deleteMessagesChunk
  | deleteMailboxes
  | deleteUserOrWorkspace (workspaceId : ℕ)
  deriving DecidableEq

abbrev Request.Answer : Request → Type
  | .dateNow | .beginVerifiedStopped | .deleteMessagesChunk => ℕ
  | .findDueRequests _ => Option DueRequest
  | .claim .. | .findAudit | .deleteUserOrWorkspace _ => Bool
  | .selectUser => Option User
  | .selectMailboxes => List Mailbox
  | .selectBriefRuns .. => List ℕ
  | _ => Unit

inductive PurgeError
  | invalidGrant
  | failed
  deriving DecidableEq

def signature : Signature := ⟨Request, Request.Answer, PurgeError⟩

abbrev Prog (α : Type) := Program signature α

def run (q : Request) : Prog q.Answer := Program.perform (S := signature) q

/-! ## Programs -/

structure PurgeDeps where
  topicName : Option String
  emailQueue : Bool
  scanProgress : Bool
  initialSyncQueue : Bool
  briefEmailQueue : Bool

/-- Log a failure and go on. -/
def bestEffort (p : Prog Unit) : Prog Unit := tryCatch p fun _ => return ()

def forEach {α : Type} (xs : List α) (body : α → Prog Unit) : Prog Unit :=
  match xs with
  | [] => return ()
  | x :: xs => do
    body x
    forEach xs body

variable (deps : PurgeDeps)

def stopWatch (id : MailboxId) (watch : WatchCounts) : Prog WatchCounts :=
  if deps.topicName.isSome then
    tryCatch (do
      run (.stopWatch id)
      return { watch with stopped := watch.stopped + 1 })
      fun _ => return { watch with failed := watch.failed + 1 }
  else return { watch with skipped := watch.skipped + 1 }

/-- A grant that Google has withdrawn is skipped, every other failure ends the run. -/
def skipInvalidGrant (p : Prog GrantCounts) (grant : GrantCounts) : Prog GrantCounts :=
  tryCatch p fun
    | .invalidGrant => return { grant with skipped := grant.skipped + 1 }
    | .failed => throw .failed

def stopAndRevokeAllGrants : List Mailbox → Lifecycle → Prog Lifecycle
  | [], lifecycle => return lifecycle
  | mailbox :: mailboxes, ⟨watch, grant⟩ => do
    if mailbox.hasCredentials then
      let client ← tryCatch (do
        run (.getClient mailbox.id)
        return true)
        fun
          | .invalidGrant => return false
          | .failed => throw .failed
      if client then
        let watch ← stopWatch deps mailbox.id watch
        let grant ← skipInvalidGrant (do
          run (.revokeGrant mailbox.id)
          return { grant with revoked := grant.revoked + 1 }) grant
        stopAndRevokeAllGrants mailboxes ⟨watch, grant⟩
      else
        stopAndRevokeAllGrants mailboxes
          ⟨{ watch with skipped := watch.skipped + 1 }, { grant with skipped := grant.skipped + 1 }⟩
    else
      stopAndRevokeAllGrants mailboxes
        ⟨{ watch with skipped := watch.skipped + 1 }, { grant with skipped := grant.skipped + 1 }⟩

def clearScanProgress (id : MailboxId) : Prog Unit :=
  Program.when deps.scanProgress (bestEffort (run (.writeScanProgress id)))

def clearInitialSyncArtifacts (id : MailboxId) : Prog Unit :=
  Program.when deps.initialSyncQueue do
    bestEffort (run (.removeInitialSyncJob id))
    bestEffort (run .trimInitialSyncEvents)

/-- A run that has made its `passes` is stopped. -/
def clearBriefJobs (id : MailboxId) : ℕ → Option ℕ → Prog Unit
  | 0, _ => throw .failed
  | passes + 1, afterId => do
    let batch ← run (.selectBriefRuns id afterId)
    forEach batch fun brief => bestEffort (run (.removeBriefJob brief))
    if batch.length < BRIEF_BATCH then return () else clearBriefJobs id passes batch.getLast?

def clearBriefEmailArtifacts (passes : ℕ) (id : MailboxId) : Prog Unit :=
  Program.when deps.briefEmailQueue do
    clearBriefJobs id passes none
    bestEffort (run .trimBriefEvents)

def enqueueReceipt (email : String) : Prog Unit :=
  Program.when deps.emailQueue (run (.enqueueReceipt email))

def recordAudit (payload : AuditPayload) : Prog Unit := do
  let existing ← run .findAudit
  if existing then return () else run (.insertAudit payload)

def deleteMailMessagesChunked : ℕ → ℕ → Prog ℕ
  | 0, _ => throw .failed
  | passes + 1, total => do
    let deleted ← run .deleteMessagesChunk
    if deleted < MAIL_MESSAGES_DELETE_CHUNK then return total + deleted
    else deleteMailMessagesChunked passes (total + deleted)

/-- What a purge logs at its end. -/
inductive PurgeLog
  | claimLost
  | userAlreadyGone
  | purged (mailboxes messagesDeleted : ℕ) (lifecycle : Lifecycle) (workspaceDeleted : Bool)

/-- The steps that follow the claim. -/
def executePurge (passes : ℕ) (request : DueRequest) : Prog PurgeLog := do
  match ← run .selectUser with
  | none => return .userAlreadyGone
  | some user =>
    let mailboxes ← run .selectMailboxes
    let lifecycle ← stopAndRevokeAllGrants deps mailboxes ⟨⟨0, 0, 0⟩, ⟨0, 0⟩⟩
    forEach mailboxes fun mailbox => do
      clearScanProgress deps mailbox.id
      clearInitialSyncArtifacts deps mailbox.id
      clearBriefEmailArtifacts deps passes mailbox.id
    run .assertStopped
    enqueueReceipt deps user.email
    recordAudit ⟨user.workspaceId, request, mailboxes.length, lifecycle⟩
    let messagesDeleted ← deleteMailMessagesChunked passes 0
    run .deleteMailboxes
    let _ ← run .beginVerifiedStopped
    let workspaceDeleted ← run (.deleteUserOrWorkspace user.workspaceId)
    return .purged mailboxes.length messagesDeleted lifecycle workspaceDeleted

/-- The cutoff is computed where the statement that uses it is built. -/
def putBack : Prog Unit := do
  let reading ← run .dateNow
  run (.putBack reading)

def purgeOne (passes : ℕ) (request : DueRequest) : Prog PurgeLog := do
  tryCatch (run .assertStopped) fun e => do
    putBack
    throw e
  let startedAt ← run .beginVerifiedStopped
  let reading ← run .dateNow
  let claimed ← run (.claim startedAt reading)
  if claimed then executePurge deps passes request else return .claimLost

inductive SweepOutcome
  | nothingDue
  | purged (log : PurgeLog)
  | failed

/-- One sweep, as far as it concerns the request. -/
def processJob (passes : ℕ) : Prog SweepOutcome := do
  let reading ← run .dateNow
  match ← run (.findDueRequests reading) with
  | none => return .nothingDue
  | some request =>
    tryCatch (do
      let log ← purgeOne deps passes request
      return .purged log)
      fun _ => return .failed

/-! ## The world -/

structure World where
  now : ℕ
  billingStopped : Bool
  request : Option DeletionRequest
  user : Option User
  otherMember : Bool
  mailboxes : List Mailbox
  messages : ℕ
  briefRuns : List (ℕ × MailboxId)
  audit : Option AuditPayload
  /-- The mailboxes whose grants a run has revoked. -/
  revoked : List MailboxId
  receipt : Option String
  /-- A run has deleted something. -/
  erased : Bool
  /-- The runs that have claimed the request and not ended, each with its `executed_at`. -/
  purging : List (ℕ × ℕ)
  /-- A run has not finished within the takeover cutoff. -/
  late : Bool
  /-- A request has been put back that a run had begun to execute, or was executing. -/
  amiss : Bool

namespace World

variable (w : World)

/-- A grant has been revoked, the receipt enqueued or data deleted. -/
def begun : Bool := !w.revoked.isEmpty || w.receipt.isSome || w.erased

def erase : World := { w with erased := true }

/-- Notice a run that has not finished in time. -/
def watched : World :=
  { w with late := w.late || w.purging.any fun r => r.2 + EXECUTING_TAKEOVER_AFTER_MS < w.now }

def putBack (reading : ℕ) : World :=
  match w.request with
  | some row =>
    if row.claimable reading then
      { w with
        request := some { row with status := .pending, executedAt := none }
        amiss := w.amiss ||
          row.status = .executing && (w.begun || !w.purging.isEmpty) }
    else w
  | none => w

def claim (t startedAt reading : ℕ) : Bool × World :=
  match w.request with
  | some row =>
    if row.claimable reading then
      (true, watched { w with
        request := some { row with status := .executing, executedAt := some startedAt }
        purging := w.purging ++ [(t, startedAt)] })
    else (false, w)
  | none => (false, w)

def briefBatch (id : MailboxId) (afterId : Option ℕ) : List ℕ :=
  (((w.briefRuns.filter fun r => r.2 = id ∧ afterId.all (· < r.1)).map (·.1)).mergeSort
    (· ≤ ·)).take BRIEF_BATCH

/-- What the rows of the user cascade to. -/
def dropMailboxes : World := erase { w with mailboxes := [], messages := 0, briefRuns := [] }

end World

/-- What a request does where it succeeds. -/
def effect (t : ℕ) : (q : Request) → World → Option (q.Answer × World)
  | .dateNow, w => some (w.now, w)
  | .findDueRequests reading, w => some (w.request.bind (·.due reading w.now), w)
  | .assertStopped, w => if w.billingStopped then some ((), w) else none
  | .putBack reading, w => some ((), w.putBack reading)
  | .beginVerifiedStopped, w => if w.billingStopped then some (w.now, w) else none
  | .claim startedAt reading, w =>
    if w.billingStopped then some (w.claim t startedAt reading) else none
  | .selectUser, w => some (w.user, w)
  | .selectMailboxes, w => some (w.mailboxes, w)
  | .getClient _, w | .stopWatch _, w => some ((), w)
  | .revokeGrant id, w => some ((), { w with revoked := w.revoked ++ [id] })
  | .writeScanProgress _, w | .removeInitialSyncJob _, w | .trimInitialSyncEvents, w
  | .removeBriefJob _, w | .trimBriefEvents, w => some ((), w.erase)
  | .selectBriefRuns id afterId, w => some (w.briefBatch id afterId, w)
  | .enqueueReceipt email, w => some ((), { w with receipt := some (w.receipt.getD email) })
  | .findAudit, w => some (w.audit.isSome, w)
  | .insertAudit payload, w => some ((), { w with audit := some payload })
  | .deleteMessagesChunk, w =>
    some (min MAIL_MESSAGES_DELETE_CHUNK w.messages,
      World.erase { w with messages := w.messages - MAIL_MESSAGES_DELETE_CHUNK })
  | .deleteMailboxes, w => some ((), w.dropMailboxes)
  | .deleteUserOrWorkspace _, w =>
    if w.billingStopped then
      some (!w.otherMember, World.dropMailboxes { w with request := none, user := none })
    else none

/-- How a request ends: as the world says, with an error before or after its effect, or with
the error of a grant that Google has withdrawn. -/
inductive Choice
  | ok | failed | lost | invalidGrant

def answer (t : ℕ) (q : Request) : Choice → World → Option (Except PurgeError q.Answer × World)
  | .ok, w => (effect t q w).map fun r => (.ok r.1, r.2)
  | .failed, w => some (.error .failed, w)
  | .lost, w => (effect t q w).map fun r => (.error .failed, r.2)
  | .invalidGrant, w =>
    match q with
    | .getClient _ | .stopWatch _ | .revokeGrant _ => some (.error .invalidGrant, w)
    | _ => none

inductive Event
  | elapse (ms : ℕ)
  /-- The subscription stops, or is resumed. -/
  | bill (stopped : Bool)
  | cancel
  /-- Other jobs of the user write rows. -/
  | store (mailboxes : List Mailbox) (messages : ℕ) (briefRuns : List (ℕ × MailboxId))

def disturb : Event → World → Option World
  | .elapse ms, w => some (World.watched { w with now := w.now + ms })
  | .bill stopped, w => some { w with billingStopped := stopped }
  | .cancel, w =>
    match w.request with
    | some row =>
      if row.status = .pending then
        some { w with
          request := some { row with status := .cancelled, cancelledAt := some w.now } }
      else none
    | none => none
  | .store mailboxes messages briefRuns, w =>
    if w.user.isSome then some { w with mailboxes, messages, briefRuns } else none

/-- A run that ends, or whose worker crashes, does nothing further. -/
def World.leave (w : World) (t : ℕ) : World :=
  { w with purging := w.purging.filter (·.1 ≠ t) }

/-- Sweeps of several workers, each of which stops after its number of passes. -/
@[reducible]
def sweeping : System signature where
  World := World
  Thread := ℕ
  Task := ℕ
  Outcome := SweepOutcome
  Choice := Choice
  Event := Event
  code := processJob deps
  accept _ _ w := some w
  answer := answer
  settle t _ w := some (w.leave t)
  crash t w := some (w.leave t)
  disturb := disturb

end DeclutrMail.Deletion
