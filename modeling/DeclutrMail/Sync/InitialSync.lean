import Mathlib.Data.Int.Notation
import Mathlib.Data.List.Basic
import Mathlib.Algebra.Group.Nat.Defs
import DeclutrMail.Interleaving.Triple

/-!
# The initial sync

A job of the initial sync claims the mailbox's row of `provider_sync_state` under an attempt id of
its own, and brings the mailbox from `queued` to `ready`. A connect, a retry, the recovery of an
expired cursor and the reconciler put the row back to `queued`; the terminal-failure hook of an
attempt records its failure. Every later write of an attempt is fenced by its id.

The rows are those of one mailbox. Every start of a job is one of its own, so retries and stalled
duplicates are among the runs, and so is a hook that runs beside its own attempt.
-/

namespace DeclutrMail.Sync.Initial

open Interleaving

inductive Readiness where
  | queued
  | syncing
  | ready
  | failed
  | needsReconnect
  deriving DecidableEq

inductive Stage where
  | queued
  | fetchingMetadata
  | buildingSenderIndex
  | computingRecommendations
  | finalizing
  | ready
  | failed
  deriving DecidableEq

/-- The names of the errors. -/
inductive SyncError where
  | transient
  | rateLimit
  | gmailQuota
  | authExpired
  | invalidGrant
  | providerPermission
  | validation
  | permanent
  | enumMissing
  | unknown
  deriving DecidableEq

/-- A row of `provider_sync_state`. Times are in milliseconds. -/
structure SyncState where
  currentStage : Stage
  readinessStatus : Readiness
  progressPct : ℕ
  errorCode : Option SyncError
  initialAttemptId : Option ℕ
  initialRecoveryAttempts : ℕ
  initialRetryAt : Option ℤ
  lastHistoryId : Option ℕ
  lastSyncedAt : Option ℤ
  lastIncrementalErrorCode : Option SyncError
  lastIncrementalErrorAt : Option ℤ
  updatedAt : ℤ
  deriving DecidableEq

def initialRecoveryLimit : ℕ := 3

def initialRecoveryBaseMs : ℕ := 15 * 60000

/-- `INITIAL_RECOVERY_ERROR_CODES`. -/
def SyncError.recoverable : SyncError → Bool
  | .transient | .rateLimit | .gmailQuota => true
  | _ => false

/-- `INITIAL_SYNC_RECONNECT_ERROR_CODES`. -/
def SyncError.reconnects : SyncError → Bool
  | .invalidGrant | .authExpired | .providerPermission => true
  | _ => false

inductive Eligibility where
  | active
  | inactive
  | deletionPending
  deriving DecidableEq

namespace SyncState

variable (r : SyncState)

/-- `notNeedingReconnect`, negated: the refused grant is newer than the last finished sync. -/
def needsGrant : Bool :=
  r.lastIncrementalErrorCode == some .invalidGrant && r.lastIncrementalErrorAt.any fun at_ =>
    !r.lastSyncedAt.any fun synced => at_ ≤ synced

/-- A row with the defaults of its columns. -/
def fresh (now : ℤ) : SyncState :=
  ⟨.queued, .queued, 0, none, none, 0, none, none, none, none, none, now⟩

/-- The claim, and each later stage of an attempt. -/
def advance (k : ℕ) (stage : Stage) (pct : ℕ) (now : ℤ) : SyncState :=
  { r with
    currentStage := stage
    initialAttemptId := some k
    progressPct := max r.progressPct pct
    readinessStatus := .syncing
    errorCode := none
    initialRetryAt := none
    updatedAt := now }

/-- The first attempt's snapshot wins. -/
def capture (candidate : ℕ) (now : ℤ) : SyncState :=
  { r with lastHistoryId := r.lastHistoryId.or (some candidate), updatedAt := now }

def progress (pct snapshot : ℕ) (now : ℤ) : SyncState :=
  { r with
    progressPct := max r.progressPct (min pct 75)
    currentStage := .fetchingMetadata
    readinessStatus := .syncing
    lastHistoryId := r.lastHistoryId.or (some snapshot)
    updatedAt := now }

/-- `GREATEST(stored, snapshot)`. -/
def greatest (snapshot : ℕ) : ℕ :=
  match r.lastHistoryId with
  | none => snapshot
  | some stored => max stored snapshot

def markReady (snapshot : ℕ) (now : ℤ) : SyncState :=
  { r with
    currentStage := .ready
    readinessStatus := .ready
    progressPct := 100
    errorCode := none
    initialRecoveryAttempts := 0
    initialRetryAt := none
    initialAttemptId := none
    lastHistoryId := some (r.greatest snapshot)
    lastSyncedAt := some now
    updatedAt := now }

/-- When a terminal failure may be retried by itself. -/
def retryAt (e : SyncError) (providerDelay : ℕ) (now : ℤ) : Option ℤ :=
  if e.reconnects || !e.recoverable then none
  else if r.initialRecoveryAttempts < initialRecoveryLimit then
    some (now + max (initialRecoveryBaseMs * 2 ^ r.initialRecoveryAttempts) providerDelay)
  else if 0 < providerDelay then some (now + providerDelay)
  else none

def fail (e : SyncError) (status : Readiness) (providerDelay : ℕ) (now : ℤ) : SyncState :=
  { r with
    currentStage := .failed
    readinessStatus := status
    errorCode := some e
    initialRetryAt := r.retryAt e providerDelay now
    updatedAt := now }

/-- The user has to act: the failure is published. -/
def failureNotice (e : SyncError) : Bool :=
  !e.reconnects &&
    !(r.initialRetryAt.isSome && decide (r.initialRecoveryAttempts < initialRecoveryLimit))

def park (status : Readiness) (now : ℤ) : SyncState :=
  { r with
    currentStage := .failed
    readinessStatus := status
    errorCode := some .invalidGrant
    initialRetryAt := none
    updatedAt := now }

/-- A claim may start. -/
def claimable (now : ℤ) : Bool :=
  r.readinessStatus != .ready && r.readinessStatus != .needsReconnect &&
    r.initialRetryAt.all (· ≤ now)

/-! ### What puts the row back to `queued` -/

/-- The part that all of them share. -/
def requeued (now : ℤ) : SyncState :=
  { r with
    currentStage := .queued
    readinessStatus := .queued
    errorCode := none
    initialAttemptId := none
    updatedAt := now }

/-- With fresh credentials, the errors of the old grant are gone. -/
def freshGrant : SyncState :=
  let stale := r.lastIncrementalErrorCode.any SyncError.reconnects
  { r with
    initialRecoveryAttempts := 0
    initialRetryAt := none
    lastIncrementalErrorAt := if stale then none else r.lastIncrementalErrorAt
    lastIncrementalErrorCode := if stale then none else r.lastIncrementalErrorCode }

/-- Only the applied cursor of a ready row is cleared. -/
def markQueued (freshCredentials : Bool) (now : ℤ) : SyncState :=
  let ready := decide (r.readinessStatus = .ready)
  let next := { r.requeued now with
    progressPct := if ready then 0 else r.progressPct
    lastHistoryId := if ready then none else r.lastHistoryId }
  if freshCredentials then next.freshGrant else next

def retried (now : ℤ) : SyncState :=
  { r.requeued now with
    initialRecoveryAttempts := 0
    initialRetryAt := none }

def retryable (now : ℤ) : Bool :=
  r.readinessStatus == .failed && r.initialRetryAt.all (· ≤ now) &&
    !r.errorCode.any SyncError.reconnects

def rescanned (now : ℤ) : SyncState :=
  { r.retried now with
    progressPct := 0
    lastHistoryId := none
    lastIncrementalErrorAt := none
    lastIncrementalErrorCode := none }

/-- The reconciler's own requeue. -/
def recovered (now : ℤ) : SyncState :=
  { r.requeued now with
    initialRecoveryAttempts := r.initialRecoveryAttempts + 1
    initialRetryAt := none }

/-- A failed row without a deadline cools down from its last heartbeat. -/
def recoverable (now : ℤ) : Bool :=
  r.readinessStatus == .failed && r.errorCode.any SyncError.recoverable && !r.needsGrant &&
    decide (r.initialRecoveryAttempts < initialRecoveryLimit) &&
    decide (r.initialRetryAt.getD (r.updatedAt + initialRecoveryBaseMs) ≤ now)

end SyncState

/-! ## What is remembered -/

/-- A write of attempt `attempt` to the row; `superseded` says whether it had been before. -/
structure AttemptWrite where
  attempt : ℕ
  superseded : Bool
  deriving DecidableEq

/-- An attempt that has reached ready, with the history id it brought and the one it left. -/
structure Completion where
  attempt : ℕ
  snapshot : ℕ
  cursor : ℕ
  deriving DecidableEq

inductive Notice where
  | syncReady (firstReady : Bool)
  | syncFailed (e : SyncError)
  deriving DecidableEq

/-- Gmail's history ids as they came in, and the listings of the attempts. -/
inductive Entry where
  | profile (historyId : ℕ)
  | incremental (historyId : ℕ)
  | listed (attempt : ℕ)
  deriving DecidableEq

def Entry.captured : Entry → Option ℕ
  | .profile historyId | .incremental historyId => some historyId
  | .listed _ => none

/-- `attemptIds` is the worker's map from a job's context to its attempt; `claimed` and
`superseded` are the attempts that have claimed the row and those that have lost it. `requeues` are
the requeues by the reconciler since the row's count was last reset, `sinceReady` those since the
last success. -/
structure World where
  mailbox : Eligibility
  row : Option SyncState
  now : ℤ
  nextId : ℕ
  attemptIds : ℕ → Option ℕ
  claimed : List ℕ
  superseded : List ℕ
  writes : List AttemptWrite
  completions : List Completion
  notices : List Notice
  log : List Entry
  requeues : ℕ
  sinceReady : ℕ

/-! ## The job -/

structure SyncRow where
  readinessStatus : Readiness
  initialRetryAt : Option ℤ

inductive Request where
  | eligibility
  | readSyncRow
  | awaitingReconnect
  | park (status : Readiness)
  | dateNow
  | insertSyncRun
  | randomUUID
  | claim (k : ℕ)
  | getClient
  | getProfile
  | capture (k candidate : ℕ)
  | listMessageIds
  | fetchMessages
  | updateProgress (k pct snapshot : ℕ)
  | advance (k : ℕ) (stage : Stage) (pct : ℕ)
  | buildSenderIndex
  | onSenderIndexBuilt
  | countStored
  | selectAccount
  | markReady (k snapshot : ℕ)
  | recordFailure (k : ℕ) (e : SyncError) (status : Readiness) (providerDelay : ℕ)
  deriving DecidableEq

abbrev Request.Answer : Request → Type
  | .eligibility => Eligibility
  | .readSyncRow => Option SyncRow
  | .dateNow => ℤ
  | .randomUUID | .getProfile => ℕ
  | .capture .. => Option ℕ
  | .awaitingReconnect | .claim _ | .advance .. | .selectAccount | .markReady .. => Bool
  | _ => Unit

abbrev SyncSignature : Signature := ⟨Request, Request.Answer, SyncError⟩

abbrev SyncProgram (α : Type) := Program SyncSignature α

def ask (q : Request) : SyncProgram q.Answer := Program.perform (S := SyncSignature) q

/-- How far the listing goes, and the counts that it reports. -/
structure Scan where
  morePages : ℕ
  counts : List (ℕ × ℕ)

/-- Before the migration that adds it, the new label is refused. -/
def parkKnownReconnect : SyncProgram Unit :=
  tryCatch (ask (.park .needsReconnect)) fun e =>
    if e = .enumMissing then ask (.park .failed) else throw e

def awaitsReconnect (row : SyncRow) : SyncProgram Bool :=
  if row.readinessStatus = .ready then return false else ask .awaitingReconnect

/-- The guards before an attempt. -/
def admitted (row : SyncRow) : SyncProgram Bool := do
  if row.readinessStatus = .needsReconnect then return false
  else if ← awaitsReconnect row then
    parkKnownReconnect
    return false
  else
    let now ← ask .dateNow
    if row.initialRetryAt.any (now < ·) then return false
    else if row.readinessStatus = .ready then
      ask .insertSyncRun
      return false
    else return true

/-- `upsertSyncState`, once the row is claimed. -/
def upsertSyncState (k : ℕ) (stage : Stage) (pct : ℕ) : SyncProgram Unit := do
  if ← ask (.advance k stage pct) then return () else throw .transient

def claimSyncState (k : ℕ) : SyncProgram Unit := do
  if ← ask (.claim k) then return () else throw .transient

def captureInitialHistorySnapshot (k candidate : ℕ) : SyncProgram ℕ := do
  match ← ask (.capture k candidate) with
  | some historyId => return historyId
  | none => throw .validation

/-- `5 + Math.round(70 * processed / total)`. -/
def scanPct (processed total : ℕ) : ℕ :=
  if total = 0 then 75 else 5 + (2 * 70 * processed + total) / (2 * total)

def listAll : ℕ → SyncProgram Unit
  | 0 => ask .listMessageIds
  | more + 1 => do
    ask .listMessageIds
    listAll more

def fetchAll (k snapshot : ℕ) : List (ℕ × ℕ) → SyncProgram Unit
  | [] => ask .fetchMessages
  | (processed, total) :: rest => do
    ask (.updateProgress k (scanPct processed total) snapshot)
    ask .fetchMessages
    fetchAll k snapshot rest

def fetchAndStoreMetadata (k snapshot : ℕ) (scan : Scan) : SyncProgram Unit := do
  listAll scan.morePages
  fetchAll k snapshot scan.counts

def markReady (k snapshot : ℕ) : SyncProgram Unit := do
  if ← ask .selectAccount then
    if ← ask (.markReady k snapshot) then return () else throw .transient
  else throw .validation

/-- The stages after the scan. -/
def finishStages (k snapshot : ℕ) : SyncProgram Unit := do
  upsertSyncState k .buildingSenderIndex 80
  ask .buildSenderIndex
  upsertSyncState k .computingRecommendations 90
  tryCatch (ask .onSenderIndexBuilt) fun _ => return ()
  upsertSyncState k .finalizing 97
  ask .countStored
  markReady k snapshot

def runAttempt (scan : Scan) : SyncProgram Unit := do
  let k ← ask .randomUUID
  claimSyncState k
  ask .getClient
  let historyId ← ask .getProfile
  let snapshot ← captureInitialHistorySnapshot k historyId
  fetchAndStoreMetadata k snapshot scan
  finishStages k snapshot

/-- Without a row there is nothing to guard. -/
def admits : Option SyncRow → SyncProgram Bool
  | none => return true
  | some row => admitted row

def processJob (scan : Scan) : SyncProgram Unit := do
  match ← ask .eligibility with
  | .inactive => return ()
  | .deletionPending => ask .insertSyncRun
  | .active =>
    let row ← ask .readSyncRow
    if ← admits row then runAttempt scan else return ()

/-! ## The hook of a terminal failure -/

/-- The account may be gone by now. -/
def applyTerminal (k : ℕ) (e : SyncError) (status : Readiness) (providerDelay : ℕ) :
    SyncProgram Bool := do
  if ← ask .selectAccount then
    ask (.recordFailure k e status providerDelay)
    return true
  else return false

def SyncError.failedStatus (e : SyncError) : Readiness :=
  if e.reconnects then .needsReconnect else .failed

def recordTerminalFailure (k : ℕ) (e : SyncError) (providerDelay : ℕ) : SyncProgram Unit := do
  let recorded ← tryCatch (applyTerminal k e e.failedStatus providerDelay) fun err =>
    if e.reconnects && err = .enumMissing then applyTerminal k e .failed providerDelay
    else throw err
  Program.when recorded (tryCatch (ask .insertSyncRun) fun _ => return ())

/-! ## The system -/

inductive Task where
  | job (scan : Scan)
  | terminalFailure (k : ℕ) (e : SyncError) (providerDelay : ℕ)

def Task.code : Task → SyncProgram Unit
  | .job scan => processJob scan
  | .terminalFailure k e providerDelay => recordTerminalFailure k e providerDelay

namespace World

variable (w : World)

/-- The attempt that the row belongs to. -/
def holder : Option ℕ := w.row.bind (·.initialAttemptId)

/-- The cursor of the row. -/
def cursor : Option ℕ := w.row.bind (·.lastHistoryId)

/-- A row is written: an attempt that loses it is superseded. -/
def setRow (r : SyncState) : World :=
  { w with
    row := some r
    superseded := w.superseded ++ (w.holder.toList.filter fun k => r.initialAttemptId ≠ some k) }

/-- Attempt `k` writes the row. -/
def writeBy (k : ℕ) (r : SyncState) : World :=
  { w.setRow r with writes := w.writes ++ [⟨k, decide (k ∈ w.superseded)⟩] }

/-- `UPDATE … WHERE initial_attempt_id = k`, with what else the statement asks for. -/
def fenced (k : ℕ) (also : SyncState → Bool) (f : SyncState → SyncState) : Bool × World :=
  match w.row with
  | none => (false, w)
  | some r =>
    if r.initialAttemptId = some k ∧ also r = true then (true, w.writeBy k (f r)) else (false, w)

def take (k : ℕ) (r : SyncState) : World :=
  { w.writeBy k (r.advance k .fetchingMetadata 5 w.now) with claimed := w.claimed ++ [k] }

/-- The claim inserts the row if there is none. -/
def claim (k : ℕ) : Bool × World :=
  if w.mailbox = .active then
    match w.row with
    | none => (true, w.take k (.fresh w.now))
    | some r => if r.claimable w.now then (true, w.take k r) else (false, w)
  else (false, w)

def updatesProgress (r : SyncState) : Bool :=
  r.currentStage == .fetchingMetadata || r.readinessStatus == .queued

/-- The transition to ready, and its event: both or neither. -/
def complete (k snapshot : ℕ) : Bool × World :=
  let (done, next) := w.fenced k (fun _ => true) (·.markReady snapshot w.now)
  if done then
    (true, { next with
      completions := w.completions ++ [⟨k, snapshot, next.cursor.getD snapshot⟩]
      notices := w.notices ++ [.syncReady (w.row.all (·.lastSyncedAt.isNone))]
      requeues := 0
      sinceReady := 0 })
  else (false, w)

/-- The failure of an attempt that still holds the row, and its event. -/
def failure (k : ℕ) (e : SyncError) (status : Readiness) (providerDelay : ℕ) : World :=
  let (done, next) := w.fenced k (fun r => r.readinessStatus == .syncing)
    (·.fail e status providerDelay w.now)
  if done && next.row.any (·.failureNotice e) then
    { next with notices := w.notices ++ [.syncFailed e] }
  else next

/-- A known refusal parks a row that is not ready. -/
def park (status : Readiness) : World :=
  match w.row with
  | none => w
  | some r =>
    if r.readinessStatus ≠ .ready ∧ r.readinessStatus ≠ .needsReconnect ∧ r.needsGrant = true then
      w.setRow (r.park status w.now)
    else w

def note (e : Entry) : World := { w with log := w.log ++ [e] }

/-- The thread's attempt. -/
def issue (t : ℕ) : World :=
  { w with
    nextId := w.nextId + 1
    attemptIds := Function.update w.attemptIds t (some w.nextId) }

def forget (t : ℕ) : World := { w with attemptIds := Function.update w.attemptIds t none }

def list (t : ℕ) : World :=
  match w.attemptIds t with
  | none => w
  | some k => w.note (.listed k)

end World

/-- What a statement finds out besides: the worker's clock, Gmail's history id, and whether the
account is still there. -/
structure Found where
  now : ℤ
  historyId : ℕ
  account : Bool

/-- A statement of thread `t`, as it takes effect. -/
def effect (t : ℕ) (f : Found) (w : World) : (q : Request) → q.Answer × World
  | .eligibility => (w.mailbox, w)
  | .readSyncRow => (w.row.map fun r => ⟨r.readinessStatus, r.initialRetryAt⟩, w)
  | .awaitingReconnect => (w.row.any (·.needsGrant), w)
  | .park status => ((), w.park status)
  | .dateNow => (f.now, w)
  | .randomUUID => (w.nextId, w.issue t)
  | .claim k => w.claim k
  | .getProfile => (f.historyId, w.note (.profile f.historyId))
  | .capture k candidate =>
    let (done, next) := w.fenced k (fun _ => true) (·.capture candidate w.now)
    (if done then next.cursor else none, next)
  | .listMessageIds => ((), w.list t)
  | .updateProgress k pct snapshot =>
    ((), (w.fenced k World.updatesProgress (·.progress pct snapshot w.now)).2)
  | .advance k stage pct => w.fenced k (fun _ => true) (·.advance k stage pct w.now)
  | .selectAccount => (f.account, w)
  | .markReady k snapshot => w.complete k snapshot
  | .recordFailure k e status providerDelay => ((), w.failure k e status providerDelay)
  | .insertSyncRun | .getClient | .fetchMessages | .buildSenderIndex | .onSenderIndexBuilt
  | .countStored => ((), w)

/-- A statement goes through, is lost on its way back, or fails. -/
inductive Choice where
  | go (f : Found)
  | lost (f : Found) (e : SyncError)
  | fail (e : SyncError)

def answer (t : ℕ) (q : Request) (c : Choice) (w : World) :
    Option (Except SyncError q.Answer × World) :=
  some <| match c with
  | .go f => (.ok (effect t f w q).1, (effect t f w q).2)
  | .lost f e => (.error e, (effect t f w q).2)
  | .fail e => (.error e, w)

/-- What the others do. -/
inductive Event where
  | markQueued (freshCredentials : Bool)
  | markConnected
  | retryFailedInitialSync
  | recoverExpiredHistoryCursor (expired : ℕ)
  | reconcile (tickNow : ℤ)
  | reconcilerPark
  | incrementalCursor (candidate : ℕ)
  | incrementalDone
  | incrementalFailed (e : SyncError) (at_ : ℤ)
  | mailbox (status : Eligibility)
  | tick (ms : ℕ)

namespace World

variable (w : World)

/-- The recovery count starts over. -/
def reset (w : World) : World := { w with requeues := 0 }

def queue (freshCredentials : Bool) : World :=
  let next := w.setRow ((w.row.map (·.markQueued freshCredentials w.now)).getD (.fresh w.now))
  if freshCredentials then next.reset else next

/-- Update the row if it is as asked for. -/
def updateIf (p : SyncState → Bool) (f : SyncState → SyncState) (then_ : World → World) : World :=
  match w.row with
  | none => w
  | some r => if p r then then_ (w.setRow (f r)) else w

def clearAuthError (r : SyncState) : SyncState :=
  if r.lastIncrementalErrorCode.any SyncError.reconnects then
    { r with lastIncrementalErrorCode := none, lastIncrementalErrorAt := none }
  else r

/-- The reconciler claims a failed row before it schedules the job. -/
def countRequeue (w : World) : World :=
  { w with requeues := w.requeues + 1, sinceReady := w.sinceReady + 1 }

def keptReady (r : SyncState) : Bool :=
  r.readinessStatus == .ready && r.lastHistoryId.isSome

def disturb : Event → World
  | .markQueued freshCredentials => w.queue freshCredentials
  | .markConnected =>
    if w.row.any keptReady then w.updateIf keptReady clearAuthError id else w.queue true
  | .retryFailedInitialSync => w.updateIf (·.retryable w.now) (·.retried w.now) reset
  | .recoverExpiredHistoryCursor expired =>
    w.updateIf (fun r => r.readinessStatus == .ready && r.lastHistoryId == some expired)
      (·.rescanned w.now) reset
  | .reconcile tickNow =>
    if w.mailbox = .active then
      w.updateIf (·.recoverable tickNow) (·.recovered w.now) countRequeue
    else w
  | .reconcilerPark =>
    if w.mailbox = .active then
      w.updateIf (fun r => r.readinessStatus == .failed && r.needsGrant)
        (·.park .needsReconnect w.now) id
    else w
  | .incrementalCursor candidate =>
    w.updateIf (fun r => r.lastHistoryId.all (· < candidate))
      (fun r => { r with
        lastHistoryId := some candidate
        lastIncrementalErrorCode := none
        lastIncrementalErrorAt := none
        updatedAt := w.now }) (·.note (.incremental candidate))
  | .incrementalDone =>
    w.updateIf (fun _ => true)
      (fun r => { r with
        lastSyncedAt := some w.now
        lastIncrementalErrorCode := none
        lastIncrementalErrorAt := none
        updatedAt := w.now }) id
  | .incrementalFailed e at_ =>
    w.updateIf (fun _ => true)
      (fun r => { r with
        lastIncrementalErrorCode := some e
        lastIncrementalErrorAt := some at_
        updatedAt := at_ }) id
  | .mailbox status => { w with mailbox := status }
  | .tick ms => { w with now := w.now + ms }

end World

def syncing : System SyncSignature where
  World := World
  Thread := ℕ
  Task := Task
  Outcome := Unit
  Choice := Choice
  Event := Event
  code := Task.code
  accept t _ w := some (w.forget t)
  answer := answer
  settle t _ w := some (w.forget t)
  crash t w := some (w.forget t)
  disturb e w := some (w.disturb e)

end DeclutrMail.Sync.Initial
