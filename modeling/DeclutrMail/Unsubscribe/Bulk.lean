import Mathlib.Data.List.Sort
import DeclutrMail.Unsubscribe.Tables

/-!
# Bulk unsubscribe

`enqueueBulkUnsubscribe` splits the selection by what each sender offers, and in one transaction
records the one-click senders (a job under a key of the request and the sender, and with a new
job the policy, the activity row and the event) and the mailto senders, for which there is no job
and nothing that tells a replay. The jobs are then handed to the queue.

The tier, the capacity and the switch of the environment are findings of the post.
-/

namespace DeclutrMail.Unsubscribe

open Actions Senders Batches

structure BulkRequest where
  mailboxAccountId : MailboxId
  senderIds : List String
  idempotencyKey : String

/-- What `unsubQueue.add` does for a job, unless the process is gone by then. -/
inductive QueueAnswer
  | accepted
  | thrown (reason : String)
  | unattempted
  deriving DecidableEq

/-- The circumstances of one post. -/
structure Env where
  now : ℤ
  tierAllows : Except ServiceError Unit
  queue : Bool
  sendsEnabled : Bool
  capacity : Except ServiceError Unit
  commits : Bool
  answer : String → QueueAnswer

inductive BulkSkipReason
  | notFound
  | protectedSender
  | inProgress
  | mailto (url : Option String)
  | unknown
  | noChannel
  deriving DecidableEq

/-- What the selection of a post comes to. -/
structure Split where
  skipped : List (String × BulkSkipReason)
  actionable : List Sender
  manual : List Sender
  deriving DecidableEq

namespace BulkRequest

variable (request : BulkRequest)

def rowKey (senderId : String) : String :=
  "unsubexec-" ++ safeKey request.idempotencyKey ++ "-" ++ senderId

def uniqueIds : List String := (distinct request.senderIds).insertionSort (· ≤ ·)

end BulkRequest

namespace Tables

variable (db : Tables) (request : BulkRequest)

def isProtected (key : SenderKey) : Bool := (db.policies key).any (·.isProtected)

/-- Which branch the loop over the ids takes. -/
def classify (id : String) : Sum BulkSkipReason Sender :=
  match db.senders.find? (·.id = id) with
  | none => .inl .notFound
  | some sender =>
    if db.isProtected sender.senderKey then .inl .protectedSender
    else if sender.unsubscribeMethod = some .oneClick ∧ sender.hasUrl = true then .inr sender
    else if sender.unsubscribeMethod = some .mailto ∧ sender.hasUrl = true then
      .inl (.mailto sender.unsubscribeUrl)
    else if sender.unsubscribeMethod = none then .inl .unknown
    else .inl .noChannel

/-- The senders that one-click can be sent to, before those in progress are left out. -/
def sendable : List Sender := request.uniqueIds.filterMap fun id => (db.classify id).getRight?

/-- The mailto senders. -/
def manual : List Sender :=
  request.uniqueIds.filterMap fun id =>
    match db.classify id with
    | .inl (.mailto _) => db.senders.find? (·.id = id)
    | _ => none

/-- Sender keys with another forward job that is queued or executing. -/
def liveForwardJobSenderKeys (mailboxAccountId : MailboxId) (excluded : List String) :
    List SenderKey :=
  db.jobs.rows.filterMap fun row =>
    if row.mailboxAccountId = mailboxAccountId ∧ row.direction = .forward ∧ row.status.live = true ∧
        row.idempotencyKey ∉ excluded then
      match row.selector with
      | .sender _ senderKey => some senderKey
      | .messages => none
    else none

def busyKeys : List SenderKey :=
  db.liveForwardJobSenderKeys request.mailboxAccountId
    ((db.sendable request).map fun sender => request.rowKey sender.id)

def split : Split where
  skipped :=
    (request.uniqueIds.filterMap fun id => (db.classify id).getLeft?.map fun reason => (id, reason)) ++
      ((db.sendable request).filter (·.senderKey ∈ db.busyKeys request)).map fun sender =>
        (sender.id, .inProgress)
  actionable := (db.sendable request).filter (·.senderKey ∉ db.busyKeys request)
  manual := db.manual request

end Tables

/-! ## The transaction -/

structure FreshJob where
  actionId : ActionId
  senderKey : SenderKey
  idempotencyKey : String
  deriving DecidableEq

structure Batch where
  db : Tables
  anchor : Option ActionRow
  fresh : List FreshJob

namespace Batch

variable (request : BulkRequest) (now : ℤ)

/-- What goes with a new job: the policy, the activity row and the event. -/
def recordIntent (db : Tables) (sender : Sender) (actionId : ActionId) : Tables :=
  (db.recordPolicy sender.senderKey now .requested fun _ => .requested).recordDecision
    sender.senderKey now .unsubscribe (some actionId) .oneClick

/-- One sender of the loop; an existing job is skipped with all that goes with it. -/
def persist (batch : Batch) (sender : Sender) : Except ServiceError Batch :=
  let key := request.rowKey sender.id
  let input := executionRow request.mailboxAccountId sender key (batch.anchor.map (·.id))
  match batch.db.jobs.insert input with
  | .error e => .error e
  | .ok (_, true, row) => .ok { batch with anchor := batch.anchor.or (some row) }
  | .ok (jobs, false, row) =>
    let db := recordIntent now { batch.db with jobs } sender row.id
    .ok ⟨db, batch.anchor.or (some row), batch.fresh ++ [⟨row.id, sender.senderKey, key⟩]⟩

/-- A sender that has progressed already stays where it is. -/
def escalated : Option UnsubStatus → UnsubStatus
  | some .draftOpened => .draftOpened
  | some .userMarkedSent => .userMarkedSent
  | _ => .actionRequired

/-- One mailto sender. -/
def recordManual (db : Tables) (sender : Sender) : Tables :=
  (db.recordPolicy sender.senderKey now .actionRequired escalated).recordDecision sender.senderKey now
    .unsubscribeActionRequired none .mailto

def transaction (db : Tables) : Except ServiceError Batch :=
  match (db.split request).actionable.foldlM (persist request now) ⟨db, none, []⟩ with
  | .error e => .error e
  | .ok batch => .ok { batch with db := (db.split request).manual.foldl (recordManual now) batch.db }

end Batch

/-! ## The post -/

structure BulkResult where
  batchId : Option ActionId
  status : JobStatus
  senderCount : ℕ
  requestedTotal : ℕ
  skipped : List (String × BulkSkipReason)
  deriving DecidableEq

def noActionableSenders : ServiceError :=
  ⟨409, "NO_ACTIONABLE_SENDERS",
    "No selected sender has a one-click unsubscribe DeclutrMail can send."⟩

def aborted : ServiceError := ⟨500, none, "The transaction was rolled back."⟩

/-- What stops a post before its transaction commits. -/
def admission (env : Env) (db : Tables) (request : BulkRequest) : Except ServiceError Batch := do
  env.tierAllows
  if env.queue = false then throw queueUnavailable
  match (db.split request).actionable with
  | [] => throw noActionableSenders
  | anchor :: _ =>
    if env.sendsEnabled = false then throw sendDisabled
    if (db.jobs.get (request.rowKey anchor.id)).isNone then env.capacity
    let batch ← Batch.transaction request env.now db
    if env.commits then return batch
    throw aborted

/-- Every new job is handed to the queue, whatever becomes of the others. -/
def enqueueAll (env : Env) (request : BulkRequest) (fresh : List FreshJob) (db : Tables) : Tables :=
  fresh.foldl (fun db job => match env.answer job.idempotencyKey with
    | .thrown _ => db.failExecution job.senderKey env.now request.mailboxAccountId job.actionId
    | _ => db) db

/-- The reply, none when the process did not live to send it. -/
def replyTo (env : Env) (db : Tables) (request : BulkRequest) (batch : Batch) :
    Option (Except ServiceError BulkResult) :=
  if batch.fresh.any fun job => env.answer job.idempotencyKey = .unattempted then none
  else
    match batch.fresh.findSome? fun job => match env.answer job.idempotencyKey with
      | .thrown reason => some reason
      | _ => none with
    | some reason => some (.error (enqueueFailed reason))
    | none =>
      let actionable := (db.split request).actionable
      some (.ok ⟨batch.anchor.map (·.id), (batch.anchor.map (·.status)).getD .queued,
        actionable.length, actionable.length, (db.split request).skipped⟩)

def enqueueBulkUnsubscribe (env : Env) (request : BulkRequest) (db : Tables) :
    Option (Except ServiceError BulkResult) × Tables :=
  match admission env db request with
  | .error e => (some (.error e), db)
  | .ok batch => (replyTo env db request batch, enqueueAll env request batch.fresh batch.db)

end DeclutrMail.Unsubscribe
