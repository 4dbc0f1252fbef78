import DeclutrMail.Actions.BulkCleanup
import DeclutrMail.Actions.RowLocks
import DeclutrMail.Interleaving.Triple

/-!
# Enqueuing cleanups, statement by statement

`enqueueComposite` inserts the jobs of one sender and looks for a live job of the sender in its
transaction; `enqueueBulkComposite` inserts the jobs of many and looks before its transaction. The
row of the workspace is locked in a finite tier only.

A thread runs one request, and its number tags the rows that it inserts.
-/

namespace DeclutrMail.Actions

open Interleaving Batches

namespace ServiceError

def laterWakeTimeRequired : ServiceError :=
  ⟨400, "LATER_WAKE_TIME_REQUIRED", "Later requires a wake time."⟩

def laterWakeTimeInvalid : ServiceError :=
  ⟨400, "LATER_WAKE_TIME_INVALID", "Wake time must be in the future."⟩

def wakeTimeNotApplicable : ServiceError :=
  ⟨400, "WAKE_TIME_NOT_APPLICABLE", "wakeAt is only valid for Later."⟩

def invalidReach : ServiceError := ⟨400, "INVALID_REACH", "Only Delete may reach past the inbox."⟩

def senderNotFound : ServiceError :=
  ⟨404, "SENDER_NOT_FOUND", "We couldn’t find this sender in this Gmail account."⟩

def protectedSender : ServiceError :=
  ⟨409, "PROTECTED_SENDER", "This sender is Protected. Confirm to apply the action anyway."⟩

def senderActionInProgress : ServiceError :=
  ⟨409, "SENDER_ACTION_IN_PROGRESS",
    "This sender already has an action running. Wait for it to finish."⟩

def noActionableSenders : ServiceError :=
  ⟨409, "NO_ACTIONABLE_SENDERS",
    "Every selected sender is Protected, already in progress, or no longer exists."⟩

end ServiceError

namespace Enqueue

/-- A row, and the request that has inserted it. -/
structure RequestJob extends ActionRow where
  request : Option ℕ
  deriving DecidableEq

/-- What the requests have in common. -/
structure CompositeRequest where
  mailboxAccountId : MailboxId
  primary : Verb
  secondary : Option Verb
  idempotencyKey : String
  reach : Reach
  wakeAt : Option ℤ
  deriving DecidableEq

/-! ## Statements -/

inductive Statement
  | now
  | assertActionSelectorTier (verb : Verb)
  | selectSender (senderId : String)
  | selectSenders (senderIds : List String)
  | selectProtected (senderKeys : List String)
  | countSenderAction (senderKeys : List String) (reach : Reach)
  | lockCleanupWorkspace
  | hasJobWithKey (key : String)
  | assertCleanupCapacity (unitsNeeded : ℕ)
  | liveForwardJobSenderKeys (mailboxAccountId : MailboxId) (senderKeys : List String)
      (excludeIdempotencyKeys : List String)
  | insertJob (input : ActionRow)
  | selectJob (key : String) (mailboxAccountId : MailboxId)
  | commit
  | rollback
  | add (actionId : ActionId)
  | failJob (actionId : ActionId) (mailboxAccountId : MailboxId)
  deriving DecidableEq

abbrev Statement.Answer : Statement → Type
  | .now => ℤ
  | .selectSender _ => Option Sender
  | .selectSenders _ => List Sender
  | .selectProtected _ | .liveForwardJobSenderKeys .. => List String
  | .countSenderAction .. => String → ℕ
  | .lockCleanupWorkspace => Option Workspace
  | .hasJobWithKey _ => Bool
  | .insertJob _ | .selectJob .. => Option ActionRow
  | _ => Unit

abbrev EnqueueSignature : Signature := ⟨Statement, Statement.Answer, ServiceError⟩

abbrev EnqueueProgram (α : Type) := Program EnqueueSignature α

def run (q : Statement) : EnqueueProgram q.Answer := Program.perform (S := EnqueueSignature) q

/-- `db.transaction` -/
def transaction {α : Type} (body : EnqueueProgram α) : EnqueueProgram α := do
  let a ← tryCatch body fun e => do
    run .rollback
    throw e
  run .commit
  return a

/-! ## The checks of a request -/

/-- Later needs a time in the future, and no other verb has one. -/
def assertValidWakeAt (verb : Verb) (wakeAt : Option ℤ) : EnqueueProgram Unit :=
  match verb, wakeAt with
  | .later, none => throw .laterWakeTimeRequired
  | .later, some wakeAt => do
    let now ← run .now
    .when (wakeAt ≤ now) (throw .laterWakeTimeInvalid)
  | _, some _ => throw .wakeTimeNotApplicable
  | _, none => return ()

namespace CompositeRequest

variable (request : CompositeRequest)

/-- A selection of senders under the key of the request. -/
def bulk (senderIds : List String) : BulkRequest :=
  ⟨senderIds, request.primary, request.secondary, request.idempotencyKey⟩

def safeKey : String := (request.bulk []).safeKey

def assertReach : EnqueueProgram Unit :=
  .when (request.reach = .allMail && request.primary ≠ .delete) (throw .invalidReach)

/-- A forward row for the sender, before it has its id. -/
def row (sender : Sender) (verb : Verb) (idempotencyKey : String) (requestedCount : ℕ)
    (compositeId : Option ActionId) : ActionRow where
  id := 0
  mailboxAccountId := request.mailboxAccountId
  verb
  direction := .forward
  selector := .sender sender.id sender.senderKey
  resolvedMessageIds := []
  requestedCount
  affectedCount := 0
  status := .queued
  idempotencyKey
  undoToken := none
  errorCode := none
  compositeId
  wakeAt := none
  reach := .inboxOnly

/-- The wake time and the reach are the primary's. -/
def primaryRow (sender : Sender) (idempotencyKey : String) (requestedCount : ℕ)
    (compositeId : Option ActionId) : ActionRow :=
  { request.row sender request.primary idempotencyKey requestedCount compositeId with
    wakeAt := request.wakeAt
    reach := request.reach }

/-- The units of one sender. -/
def units (workspace : Workspace) (primaryCount secondaryCount : ℕ) : ℕ :=
  workspace.meterUnits request.primary primaryCount +
    match request.secondary with
    | some verb => workspace.meterUnits verb secondaryCount
    | none => 0

end CompositeRequest

/-! ## The rows of a request -/

/-- Only a finite tier has a capacity. -/
def assertCapacity (workspace : Option Workspace) (unitsNeeded : Workspace → ℕ) :
    EnqueueProgram Unit :=
  match workspace with
  | none => return ()
  | some workspace => run (.assertCleanupCapacity (unitsNeeded workspace))

/-- The row that is inserted, or else the one of the mailbox that has its key. -/
def insertJob (input : ActionRow) : EnqueueProgram (Bool × ActionRow) := do
  match ← run (.insertJob input) with
  | some row => return (false, row)
  | none =>
    match ← run (.selectJob input.idempotencyKey input.mailboxAccountId) with
    | some row => return (true, row)
    | none => throw .idempotencyKeyConflict

/-- The queue takes a job, or the job fails if it has not begun. -/
def enqueueJob (mailboxAccountId : MailboxId) (actionId : ActionId) : EnqueueProgram Unit :=
  tryCatch (run (.add actionId)) fun e => do
    run (.failJob actionId mailboxAccountId)
    throw (.enqueueFailed e.message)

/-- Every fresh row is tried, whether the ones before it fail or not. -/
def enqueueAll (mailboxAccountId : MailboxId) : List ActionId → EnqueueProgram (List ServiceError)
  | [] => return []
  | actionId :: rest => do
    let failure ← tryCatch (do
      enqueueJob mailboxAccountId actionId
      return none) fun e => return some e
    let failures ← enqueueAll mailboxAccountId rest
    return failure.toList ++ failures

/-- The first failure is the answer. -/
def enqueueFresh (mailboxAccountId : MailboxId) (fresh : List ActionId) : EnqueueProgram Unit := do
  match ← enqueueAll mailboxAccountId fresh with
  | [] => return ()
  | failure :: _ => throw failure

/-! ## One sender -/

structure SingleRequest extends CompositeRequest where
  senderId : String
  override : Bool
  deriving DecidableEq

namespace SingleRequest

variable (request : SingleRequest)

def primaryStorageKey : String := request.primary.type ++ "-" ++ request.safeKey

def secondaryStorageKey (verb : Verb) : String := verb.type ++ "-" ++ request.safeKey ++ "-sec"

def storageKeys : List String :=
  request.primaryStorageKey :: (request.secondary.map request.secondaryStorageKey).toList

end SingleRequest

structure CompositeResult where
  actionId : ActionId
  secondaryId : Option ActionId
  status : JobStatus
  primaryCount : ℕ
  secondaryCount : Option ℕ
  wakeAt : Option ℤ

section Single

variable (request : SingleRequest) (sender : Sender)

/-- A request without a row of its key may not race a live job of the sender. -/
def assertNotBusy : EnqueueProgram Unit := do
  let busy ← run (.liveForwardJobSenderKeys request.mailboxAccountId [sender.senderKey] [])
  .when (busy.contains sender.senderKey) (throw .senderActionInProgress)

def insertSecondary (secondaryCount : ℕ) (compositeId : ActionId) :
    EnqueueProgram (Option (Bool × ActionRow)) :=
  match request.secondary with
  | none => return none
  | some verb => do
    let row ← insertJob (request.row sender verb (request.secondaryStorageKey verb) secondaryCount
      (some compositeId))
    return some row

/-- The transaction of one sender. -/
def persistComposite (primaryCount secondaryCount : ℕ) :
    EnqueueProgram ((Bool × ActionRow) × Option (Bool × ActionRow)) := do
  let workspace ← run .lockCleanupWorkspace
  let replay ← run (.hasJobWithKey request.primaryStorageKey)
  .when (!replay) (do
    assertCapacity workspace fun workspace =>
      if workspace.meterV2 then request.units workspace primaryCount secondaryCount else 1
    assertNotBusy request sender)
  let primary ← insertJob (request.primaryRow sender request.primaryStorageKey primaryCount none)
  let secondary ← insertSecondary request sender secondaryCount primary.2.id
  return (primary, secondary)

/-- The ids of the rows that are new. -/
def freshIds (rows : List (Bool × ActionRow)) : List ActionId :=
  (rows.filter fun row => !row.1).map (·.2.id)

def enqueueSender : EnqueueProgram CompositeResult := do
  let guarded ← run (.selectProtected [sender.senderKey])
  .when (guarded.contains sender.senderKey && !request.override) (throw .protectedSender)
  request.assertReach
  let primaryCount ← run (.countSenderAction [sender.senderKey] request.reach)
  let secondaryCount ← run (.countSenderAction [sender.senderKey] .inboxOnly)
  let (primary, secondary) ← transaction (persistComposite request sender
    (primaryCount sender.senderKey) (secondaryCount sender.senderKey))
  enqueueFresh request.mailboxAccountId (freshIds (primary :: secondary.toList))
  return ⟨primary.2.id, secondary.map (·.2.id), primary.2.status, primary.2.requestedCount,
    secondary.map (·.2.requestedCount), primary.2.wakeAt⟩

def enqueueComposite (queue : Bool) : EnqueueProgram CompositeResult := do
  assertValidWakeAt request.primary request.wakeAt
  .when (!queue) (throw .queueUnavailable)
  match ← run (.selectSender request.senderId) with
  | none => throw .senderNotFound
  | some sender => enqueueSender request sender

end Single

/-! ## Many senders -/

structure BulkCompositeRequest extends CompositeRequest where
  senderIds : List String
  deriving DecidableEq

inductive SkipReason
  | notFound
  | isProtected
  | inProgress
  deriving DecidableEq

namespace BulkCompositeRequest

variable (request : BulkCompositeRequest)

def uniqueIds : List String := (distinct request.senderIds).insertionSort (· ≤ ·)

def primaryKey (sender : Sender) : String := (request.bulk request.senderIds).primaryKey sender.id

def secondaryKey (verb : Verb) (sender : Sender) : String :=
  (request.bulk request.senderIds).secondaryKey verb sender.id

def ownKeys (sender : Sender) : List String := (request.bulk request.senderIds).ownKeys sender

/-- The rows of the selection, in the order of their ids. -/
def found (rows : List Sender) : List Sender :=
  request.uniqueIds.filterMap fun id => rows.find? (·.id = id)

def skippedFirst (rows : List Sender) (protectedKeys : List String) : List (String × SkipReason) :=
  request.uniqueIds.filterMap fun id =>
    match rows.find? (·.id = id) with
    | none => some (id, .notFound)
    | some sender => if protectedKeys.contains sender.senderKey then some (id, .isProtected) else none

def storageKeys : List String := request.uniqueIds.flatMap fun id => request.ownKeys ⟨id, ""⟩

end BulkCompositeRequest

structure BulkResult where
  batchId : Option ActionId
  status : JobStatus
  senderCount : ℕ
  requestedTotal : ℕ
  wakeAt : Option ℤ
  skipped : List (String × SkipReason)

/-- What the loop over the senders has inserted. -/
structure Inserted where
  anchorId : Option ActionId
  status : JobStatus
  requestedTotal : ℕ
  wakeAt : Option ℤ
  fresh : List ActionId

namespace Inserted

def empty : Inserted := ⟨none, .queued, 0, none, []⟩

variable (inserted : Inserted) (row : Bool × ActionRow)

/-- The first row is the anchor. -/
def primary : Inserted where
  anchorId := inserted.anchorId.or (some row.2.id)
  status := if inserted.anchorId.isNone then row.2.status else inserted.status
  requestedTotal := inserted.requestedTotal + row.2.requestedCount
  wakeAt := if inserted.anchorId.isNone then row.2.wakeAt else inserted.wakeAt
  fresh := inserted.fresh ++ freshIds [row]

def secondary : Inserted := { inserted with fresh := inserted.fresh ++ freshIds [row] }

end Inserted

section Bulk

variable (request : BulkCompositeRequest) (primaryCount secondaryCount : String → ℕ)

def insertSender (inserted : Inserted) (sender : Sender) : EnqueueProgram Inserted := do
  let row ← insertJob (request.primaryRow sender (request.primaryKey sender)
    (primaryCount sender.senderKey) inserted.anchorId)
  let inserted := inserted.primary row
  match request.secondary with
  | none => return inserted
  | some verb => do
    let row ← insertJob (request.row sender verb (request.secondaryKey verb sender)
      (secondaryCount sender.senderKey) inserted.anchorId)
    return inserted.secondary row

def insertSenders : Inserted → List Sender → EnqueueProgram Inserted
  | inserted, [] => return inserted
  | inserted, sender :: rest => do
    let inserted ← insertSender request primaryCount secondaryCount inserted sender
    insertSenders inserted rest

/-- The transaction of many senders. -/
def persistBulk (anchor : Sender) (rest : List Sender) : EnqueueProgram Inserted := do
  let workspace ← run .lockCleanupWorkspace
  let replay ← run (.hasJobWithKey (request.primaryKey anchor))
  .when (!replay) (assertCapacity workspace fun workspace =>
    if workspace.meterV2 then
      ((anchor :: rest).map fun sender => request.units workspace
        (primaryCount sender.senderKey) (secondaryCount sender.senderKey)).sum
    else (anchor :: rest).length)
  insertSenders request primaryCount secondaryCount .empty (anchor :: rest)

/-- The counts are read before the transaction. -/
def enqueueSenders (anchor : Sender) (rest : List Sender) (skipped : List (String × SkipReason)) :
    EnqueueProgram BulkResult := do
  let senderKeys := (anchor :: rest).map (·.senderKey)
  let primaryCount ← run (.countSenderAction senderKeys request.reach)
  let secondaryCount ← run (.countSenderAction senderKeys .inboxOnly)
  let inserted ← transaction (persistBulk request primaryCount secondaryCount anchor rest)
  enqueueFresh request.mailboxAccountId inserted.fresh
  return ⟨inserted.anchorId, inserted.status, (anchor :: rest).length, inserted.requestedTotal,
    inserted.wakeAt, skipped⟩

/-- The senders that are busy under keys that are not the request's own are skipped. -/
def enqueueActionable (rows : List Sender) (protectedKeys : List String) :
    EnqueueProgram BulkResult := do
  let found := (request.found rows).filter fun sender => !protectedKeys.contains sender.senderKey
  let busy ← run (.liveForwardJobSenderKeys request.mailboxAccountId (found.map (·.senderKey))
    (found.flatMap request.ownKeys))
  let skipped := request.skippedFirst rows protectedKeys ++
    (found.filter fun sender => busy.contains sender.senderKey).map fun sender =>
      (sender.id, .inProgress)
  match found.filter fun sender => !busy.contains sender.senderKey with
  | [] => throw .noActionableSenders
  | anchor :: rest => enqueueSenders request anchor rest skipped

def assertTiers : EnqueueProgram Unit := do
  run (.assertActionSelectorTier request.primary)
  match request.secondary with
  | none => return ()
  | some verb => run (.assertActionSelectorTier verb)

def enqueueBulkComposite (queue : Bool) : EnqueueProgram BulkResult := do
  request.assertReach
  assertTiers request
  .when (!queue) (throw .queueUnavailable)
  assertValidWakeAt request.primary request.wakeAt
  let rows ← run (.selectSenders request.uniqueIds)
  let protectedKeys ← run (.selectProtected (rows.map (·.senderKey)))
  enqueueActionable request rows protectedKeys

end Bulk

/-! ## The system -/

structure Store where
  senders : List Sender
  protectedKeys : List String
  jobs : List RequestJob

namespace Store

variable (s : Store)

def apply (job : RequestJob) : Store := { s with jobs := s.jobs ++ [job] }

def updateJobs (chosen : RequestJob → Bool) (change : ActionRow → ActionRow) : Store :=
  { s with jobs := s.jobs.map fun job =>
      if chosen job then { job with toActionRow := change job.toActionRow } else job }

end Store

/-- Both the key and the id of a job are unique. -/
def jobKeys : UniqueIndex Store.apply RowLock where
  listed s := s.jobs.flatMap fun job => job.locks
  keys job := job.locks
  listed_apply s job := by simp [Store.apply]

/-- A request of one sender or of many. -/
inductive Task
  | single (request : SingleRequest) (queue : Bool)
  | bulk (request : BulkCompositeRequest) (queue : Bool)
  deriving DecidableEq

namespace Task

def mailboxAccountId : Task → MailboxId
  | single request _ => request.mailboxAccountId
  | bulk request _ => request.mailboxAccountId

/-- The keys that its rows may have. -/
def storageKeys : Task → List String
  | single request _ => request.storageKeys
  | bulk request _ => request.storageKeys

def code : Task → EnqueueProgram Unit
  | single request queue => do
    let _ ← enqueueComposite request queue
    return ()
  | bulk request queue => do
    let _ ← enqueueBulkComposite request queue
    return ()

end Task

/-- A live job of another request for the sender of `job`. -/
def rivals (job row : RequestJob) : Bool :=
  row.status.live && row.request.isSome && row.request ≠ job.request &&
    row.selector.senderKey = job.selector.senderKey

/-- `tasks` are the requests so far and `since` the jobs that were committed or came back to life
since a thread has last looked for live ones. `amiss` says that a request was overtaken, that storage
keys have collided, or that a job came back to life beside a rival. -/
structure World where
  db : Transactions ℕ Store RequestJob RowLock
  tasks : List (ℕ × Task)
  since : ℕ → List ActionId
  amiss : Bool

namespace World

variable (w : World) (t : ℕ)

def view : Store := w.db.view Store.apply t

/-- The storage keys of the request of thread `t`. -/
def mine : List String := (w.tasks.filter (·.1 = t)).flatMap (·.2.storageKeys)

def put (store : Store) : World := { w with db := { w.db with store } }

def rollback : World := { w with db := w.db.rollback t }

/-- A rival of a new job was committed or came back to life since thread `t` has looked. -/
def overtaken : Bool :=
  (w.db.draft t).any fun job => w.db.store.jobs.any fun row =>
    decide (row.id ∈ w.since t) && rivals job row

/-- A job that has ended comes back to life beside a rival. -/
def revivesRival (job : RequestJob) : Bool :=
  !job.status.live && job.request.isSome && w.db.store.jobs.any fun row => rivals job row

/-- A key of the request is another's. -/
def collides (task : Task) : Bool :=
  task.storageKeys.any fun key =>
    w.tasks.any (fun other => other.2.storageKeys.contains key) ||
      w.db.store.jobs.any fun job => job.idempotencyKey = key

def commit : World :=
  { w with
    db := w.db.commit Store.apply t
    since := fun x => w.since x ++ (w.db.draft t).map (·.id)
    amiss := w.amiss || w.overtaken t }

end World

/-- What a statement finds outside the tables. A finite tier has a workspace with a quota. -/
structure Findings where
  id : ActionId
  now : ℤ
  workspace : Option Workspace
  counts : String → ℕ

section Effect

variable (t : ℕ) (f : Findings) (w : World)

def liveKeys (mailboxAccountId : MailboxId) (senderKeys excludeIdempotencyKeys : List String) :
    List String :=
  ((w.view t).jobs.filter fun job => job.mailboxAccountId = mailboxAccountId ∧
      job.direction = .forward ∧ job.status.live ∧
        job.idempotencyKey ∉ excludeIdempotencyKeys).filterMap (·.selector.senderKey)
    |>.filter fun key => senderKeys.contains key

/-- The other columns are those of the input. -/
def insertRow (input : ActionRow) : Option (Option ActionRow × World) :=
  let row := { input with id := f.id }
  (jobKeys.insert w.db t (.key input.idempotencyKey) ⟨row, some t⟩).map fun (inserted, db) =>
    (if inserted then some row else none, { w with db })

/-- A job that has not begun. -/
def waits (actionId : ActionId) (mailboxAccountId : MailboxId) (job : RequestJob) : Bool :=
  job.id = actionId && job.mailboxAccountId = mailboxAccountId && job.status = .queued

def restated (status : JobStatus) (errorCode : Option String) (row : ActionRow) : ActionRow :=
  { row with status, errorCode }

/-- A row that is locked is waited for. -/
def failJob (actionId : ActionId) (mailboxAccountId : MailboxId) : Option World :=
  if w.db.holder (.id actionId) = none then
    some <| w.put <| w.db.store.updateJobs (waits actionId mailboxAccountId) <|
      restated .failed (some enqueueFailedErrorCode)
  else none

/-- A statement of thread `t`, as it takes effect. -/
def effect : (q : Statement) → Option (q.Answer × World)
  | .now => some (f.now, w)
  | .assertActionSelectorTier _ | .assertCleanupCapacity _ | .add _ => some ((), w)
  | .selectSender senderId => some ((w.view t).senders.find? (·.id = senderId), w)
  | .selectSenders senderIds => some ((w.view t).senders.filter (·.id ∈ senderIds), w)
  | .selectProtected senderKeys =>
    some ((w.view t).protectedKeys.filter (· ∈ senderKeys), w)
  | .countSenderAction .. => some (f.counts, w)
  | .lockCleanupWorkspace =>
    if f.workspace.isSome then
      (w.db.acquire t .workspace).map fun db => (f.workspace, { w with db })
    else some (none, w)
  | .hasJobWithKey key => some ((w.view t).jobs.any (·.idempotencyKey = key), w)
  | .liveForwardJobSenderKeys mailboxAccountId senderKeys excludeIdempotencyKeys =>
    some (liveKeys t w mailboxAccountId senderKeys excludeIdempotencyKeys,
      { w with since := Function.update w.since t [] })
  | .insertJob input => insertRow t f w input
  | .selectJob key mailboxAccountId => some (((w.view t).jobs.find? fun job =>
      job.idempotencyKey = key ∧ job.mailboxAccountId = mailboxAccountId).map (·.toActionRow), w)
  | .commit => some ((), w.commit t)
  | .rollback => some ((), w.rollback t)
  | .failJob actionId mailboxAccountId => (failJob w actionId mailboxAccountId).map ((), ·)

end Effect

/-- A statement takes effect, takes effect while its answer is lost, or fails. -/
inductive Fate
  | go (findings : Findings)
  | lost (findings : Findings) (error : ServiceError)
  | fail (error : ServiceError)

/-- A transaction whose end fails is rolled back. -/
def failed (t : ℕ) (w : World) : Statement → World
  | .commit | .rollback => w.rollback t
  | _ => w

def answer (t : ℕ) (q : Statement) (fate : Fate) (w : World) :
    Option (Except ServiceError q.Answer × World) :=
  match fate with
  | .go f => (effect t f w q).map fun r => (.ok r.1, r.2)
  | .lost f e => (effect t f w q).map fun r => (.error e, r.2)
  | .fail e => some (.error e, failed t w q)

/-- What the rest of the application does to the tables. -/
inductive Event
  | senders (senders : List Sender)
  | protectedKeys (protectedKeys : List String)
  | inserted (row : ActionRow)
  | progressed (id : ActionId) (status : JobStatus) (errorCode : Option String)

/-- A job that could not be enqueued may still be delivered; any other that has ended is final. -/
def progresses (id : ActionId) (job : RequestJob) : Bool :=
  job.id = id && (job.status.live ||
    job.status = .failed && job.errorCode = some enqueueFailedErrorCode)

def disturb (w : World) : Event → Option World
  | .senders senders => some (w.put { w.db.store with senders })
  | .protectedKeys protectedKeys => some (w.put { w.db.store with protectedKeys })
  | .inserted row =>
    if ∀ k ∈ row.locks, w.db.holder k = none ∧ k ∉ jobKeys.listed w.db.store then
      some { w.put (w.db.store.apply ⟨row, none⟩) with
        amiss := w.amiss ||
          w.tasks.any fun task => task.2.storageKeys.contains row.idempotencyKey }
    else none
  | .progressed id status errorCode =>
    if w.db.holder (.id id) = none then
      let revived := (w.db.store.jobs.filter fun job => job.id = id ∧ !job.status.live).map (·.id)
      some { w.put (w.db.store.updateJobs (progresses id) (restated status errorCode)) with
        since := fun x => w.since x ++ revived
        amiss := w.amiss ||
          status.live && w.db.store.jobs.any fun job => progresses id job && w.revivesRival job }
    else none

/-- Requests for one mailbox, each on a thread of its own. -/
def enqueues (mailboxAccountId : MailboxId) : System EnqueueSignature where
  World := World
  Thread := ℕ
  Task := Task
  Outcome := Unit
  Choice := Fate
  Event := Event
  code := Task.code
  accept t task w :=
    if task.mailboxAccountId = mailboxAccountId ∧ t ∉ w.tasks.map (·.1) then
      some { w with tasks := w.tasks ++ [(t, task)], amiss := w.amiss || w.collides task }
    else none
  answer := answer
  settle t _ w := some (w.rollback t)
  crash t w := some (w.rollback t)
  disturb e w := disturb w e

end Enqueue

end DeclutrMail.Actions
