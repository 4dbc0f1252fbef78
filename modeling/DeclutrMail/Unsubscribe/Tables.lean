import Mathlib.Logic.Function.Basic
import DeclutrMail.Actions.Rows
import DeclutrMail.Senders.AutomaticProtection

/-!
# What an unsubscribe writes

The rows that `ActionsService` writes for an unsubscribe: the job of its execution, the standing
policy, the rows of the activity log and the event of the outbox. Apart from the jobs, whose keys
are unique over all mailboxes, the tables are their rows of one mailbox.
-/

namespace DeclutrMail.Unsubscribe

open Actions Senders

/-- `unsubscribe_method`, where it is known. -/
inductive UnsubscribeMethod
  | oneClick
  | mailto
  | none
  deriving DecidableEq

structure Sender where
  id : String
  senderKey : SenderKey
  unsubscribeMethod : Option UnsubscribeMethod
  unsubscribeUrl : Option String
  deriving DecidableEq

/-- The URL is there and not empty. -/
def Sender.hasUrl (sender : Sender) : Bool := sender.unsubscribeUrl.any (· ≠ "")

inductive UnsubStatus
  | pending
  | done
  | failed
  | ambiguous
  | requested
  | endpointAccepted
  | unconfirmed
  | actionRequired
  | draftOpened
  | userMarkedSent
  | unavailable
  deriving DecidableEq

/-- A column that may be null is compared as a whole. -/
instance : LawfulBEq (Option UnsubStatus) := inferInstance

/-- The columns of `sender_policies` that an unsubscribe reads and writes. -/
structure Policy where
  policyType : Option SenderPolicyType
  unsubStatus : Option UnsubStatus
  isProtected : Bool
  updatedAt : ℤ
  deriving DecidableEq

inductive ActivityAction
  | unsubscribe
  | unsubscribeActionRequired
  | unsubscribeUnavailable
  | unsubscribeFailed
  deriving DecidableEq

/-- A row of `activity_log`, whose source is `manual`; its id is its place. -/
structure ActivityRow where
  id : ℕ
  senderKey : SenderKey
  action : ActivityAction
  occurredAt : ℤ
  actionJobId : Option ActionId
  deriving DecidableEq

/-- `ACTIONS_UNSUBSCRIBE_INTENT_RECORDED`; the aggregate is the activity row. -/
structure IntentRecorded where
  activityLogId : ℕ
  senderKey : SenderKey
  recordedAt : ℤ
  method : UnsubscribeMethod
  deriving DecidableEq

structure Tables where
  senders : List Sender
  jobs : JobTable
  policies : SenderKey → Option Policy
  activity : List ActivityRow
  outbox : List IntentRecorded

namespace Tables

variable (db : Tables) (key : SenderKey) (now : ℤ)

/-- The upsert of a standing unsubscribe policy, with the status that the one there leads to. -/
def recordPolicy (status : UnsubStatus) (escalate : Option UnsubStatus → UnsubStatus) : Tables :=
  let row := match db.policies key with
    | none => ⟨some .unsubscribe, some status, false, now⟩
    | some policy => { policy with
        policyType := some .unsubscribe
        unsubStatus := some (escalate policy.unsubStatus)
        updatedAt := now }
  { db with policies := Function.update db.policies key (some row) }

def recordActivity (action : ActivityAction) (actionJobId : Option ActionId) : Tables :=
  { db with activity := db.activity ++ [⟨db.activity.length, key, action, now, actionJobId⟩] }

/-- A decision in the activity log, and the event that announces it. -/
def recordDecision (action : ActivityAction) (actionJobId : Option ActionId)
    (method : UnsubscribeMethod) : Tables :=
  { db.recordActivity key now action actionJobId with
    outbox := db.outbox ++ [⟨db.activity.length, key, now, method⟩] }

/-- A job whose execution has not begun. -/
def stillQueued (mailboxAccountId : MailboxId) (actionId : ActionId) (row : ActionRow) : Bool :=
  row.id = actionId && row.mailboxAccountId = mailboxAccountId && row.status = .queued

/-- The job fails, and its policy with it. -/
def markFailed (mailboxAccountId : MailboxId) (actionId : ActionId) : Tables :=
  { db with
    jobs := db.jobs.update (stillQueued mailboxAccountId actionId)
      (fun row => { row with status := .failed, errorCode := some enqueueFailedErrorCode })
      ActionRow.keeps_enqueueFailed
    policies := Function.update db.policies key ((db.policies key).map fun policy =>
      if policy.unsubStatus ∈ [some .pending, some .requested] then
        { policy with unsubStatus := some .failed, updatedAt := now }
      else policy) }

/-- What is written when the execution could not be enqueued, if it has not begun. -/
def failExecution (mailboxAccountId : MailboxId) (actionId : ActionId) : Tables :=
  if db.jobs.rows.any (stillQueued mailboxAccountId actionId) then
    (db.markFailed key now mailboxAccountId actionId).recordActivity key now .unsubscribeFailed none
  else db

end Tables

/-- The job that executes an unsubscribe, before it has its id. -/
def executionRow (mailboxAccountId : MailboxId) (sender : Sender) (idempotencyKey : String)
    (compositeId : Option ActionId) : ActionRow where
  id := 0
  mailboxAccountId
  verb := .unsubscribe
  direction := .forward
  selector := .sender sender.id sender.senderKey
  resolvedMessageIds := []
  requestedCount := 1
  affectedCount := 0
  status := .queued
  idempotencyKey
  undoToken := none
  errorCode := none
  compositeId
  wakeAt := none
  reach := .inboxOnly

/-- `idempotencyKey.replace(/:/g, '-')` -/
def safeKey (idempotencyKey : String) : String :=
  String.ofList (idempotencyKey.toList.map fun c => if c = ':' then '-' else c)

def queueUnavailable : ServiceError :=
  ⟨503, "QUEUE_UNAVAILABLE", "Unsubscribe queue unavailable — REDIS_URL is not set."⟩

def enqueueFailed (reason : String) : ServiceError :=
  ⟨503, "ENQUEUE_FAILED", "Could not enqueue the unsubscribe: " ++ reason⟩

def sendDisabled : ServiceError :=
  ⟨409, "UNSUB_SEND_DISABLED", "Unsubscribe sending is disabled in this environment."⟩

end DeclutrMail.Unsubscribe
