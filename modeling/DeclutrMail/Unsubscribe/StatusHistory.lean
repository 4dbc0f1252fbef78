import DeclutrMail.Unsubscribe.Bulk
import DeclutrMail.Unsubscribe.Execution
import DeclutrMail.Unsubscribe.Intents

/-!
# The status of a sender over its attempts

`sender_policies.unsub_status` of one sender, under everything that writes it: the transactions
that record an intent, those of the executions, and the consumers of the two events. Each of them
holds the row of the policy to its end, so a history is the list of them.

An attempt without a one-click channel ends where it is recorded. One that ends without an outcome
of its own, because it was refused or has crashed, has failed if the status was in flight.
-/

namespace DeclutrMail.Unsubscribe.StatusHistory

open Actions
open Execution (UnsubOutcome OutcomeRecord JobStatus.terminal)

/-! ## Tables -/

/-- `ACTIONS_UNSUBSCRIBE_INTENT_RECORDED` -/
structure IntentEvent where
  method : Option UnsubscribeMethod
  delivered : Bool
  deriving DecidableEq

/-- `ACTIONS_UNSUBSCRIBE_EXECUTED` -/
structure ExecutedEvent where
  outcome : UnsubOutcome
  delivered : Bool
  deriving DecidableEq

structure World where
  /-- The sender's row of `sender_policies`, its `unsub_status`. -/
  policy : Option (Option UnsubStatus)
  /-- The executions. -/
  rows : List ActionRow
  intents : List IntentEvent
  executed : List ExecutedEvent
  /-- The status that the attempt has ended in that was the last to end. -/
  newest : Option UnsubStatus
  deriving DecidableEq

/-- A write of an execution. -/
inductive ExecutionWrite
  | markExecuting
  | recordOutcome (record : OutcomeRecord)
  | refuse (errorCode : String)
  | recordTerminalFailure (errorName : String)
  deriving DecidableEq

inductive Step
  | recordUnsubscribeIntent (method : UnsubscribeMethod) (execution : ActionRow)
  | enqueueBulkUnsubscribe (manual : Bool) (execution : ActionRow)
  | executeUnsubscribeIntent (method : Option UnsubscribeMethod) (execution : ActionRow)
  | execution (i : ℕ) (write : ExecutionWrite)
  /-- An intent of a user was recorded, and its execution not added to the queue. -/
  | enqueueFailed (i : ℕ)
  | autopilotEnqueueFailed (i : ℕ)
  /-- An event is delivered, perhaps again. -/
  | handleUnsubscribeIntentRecorded (i : ℕ)
  | handleUnsubscribeExecuted (i : ℕ)
  deriving DecidableEq

namespace World

variable (w : World)

/-! ## Intents -/

/-- An upsert of the policy. -/
def upsert (inserted : Option UnsubStatus) (updated : Option UnsubStatus → Option UnsubStatus) :
    World :=
  { w with policy := some (match w.policy with
      | none => inserted
      | some status => updated status) }

/-- The event of an intent, with the row of its execution if it has one. -/
def announce (method : Option UnsubscribeMethod) (execution : ActionRow) : World :=
  { w with
    rows := if method = some .oneClick then w.rows ++ [execution] else w.rows
    intents := w.intents ++ [⟨method, false⟩] }

/-- The attempt ends in the status that the policy shows. -/
def rest : World := { w with newest := w.policy.join }

def recordUnsubscribeIntent (method : UnsubscribeMethod) (execution : ActionRow) : World :=
  let status := initialUnsubscribeLifecycleStatus method
  let w := (w.upsert (some status) fun _ => some status).announce (some method) execution
  if method = .oneClick then w else w.rest

/-- One sender of a bulk request. -/
def enqueueBulkUnsubscribe (manual : Bool) (execution : ActionRow) : World :=
  if manual then
    ((w.upsert (some .actionRequired) fun status => some (Batch.escalated status)).announce
      (some .mailto) execution).rest
  else (w.upsert (some .requested) fun _ => some .requested).announce (some .oneClick) execution

/-! ## Executions -/

/-- What an execution sees of the tables. -/
def view (row : ActionRow) : Execution.World := ⟨some row, w.policy, [], [], [], []⟩

/-- What an execution has written. -/
def put (i : ℕ) (v : Execution.World) : World :=
  { w with
    policy := v.policy
    rows := match v.row with
      | some row => w.rows.set i row
      | none => w.rows
    executed := w.executed ++ v.outbox.map fun event => ⟨event.outcome, false⟩ }

/-- An attempt fails that the policy shows in flight. -/
def failNewest : World :=
  { w with newest := if w.policy.any Execution.inFlight then some .failed else w.newest }

def execution (i : ℕ) (row : ActionRow) : ExecutionWrite → World
  | .markExecuting => w.put i (w.view row).markExecuting
  | .recordOutcome record =>
    { w.put i ((w.view row).recordOutcome row.id record) with
      newest := some record.outcome.unsubStatus }
  | .refuse errorCode => w.failNewest.put i ((w.view row).refuse errorCode)
  | .recordTerminalFailure errorName =>
    w.failNewest.put i
      ((w.view row).recordTerminalFailure errorName row.selector.senderKey.isSome)

/-- The update of a row that has not begun. -/
def failRow (i : ℕ) (row : ActionRow) : World :=
  let failed := { row with status := .failed, errorCode := some enqueueFailedErrorCode }
  { w with rows := w.rows.set i failed }

def enqueueFailed (i : ℕ) (row : ActionRow) : World :=
  if row.status = .queued then
    { w.failNewest.failRow i row with
      policy := w.policy.map fun status =>
        if Execution.inFlight status then some .failed else status }
  else w

/-- The policy is left to the consumer. -/
def autopilotEnqueueFailed (i : ℕ) (row : ActionRow) : World :=
  if row.status = .queued then
    { w.failRow i row with
      executed := w.executed ++ [⟨.failed, false⟩]
      newest := some UnsubOutcome.failed.unsubStatus }
  else w

/-! ## Consumers -/

def projected (method : UnsubscribeMethod) (status : Option UnsubStatus) : Option UnsubStatus :=
  if method = .oneClick then
    if status = none ∨ status = some .pending then some .requested else status
  else if status = none then some (initialUnsubscribeLifecycleStatus method)
  else status

/-- The upsert of `handleUnsubscribeIntentRecorded`. -/
def projectIntent : Option UnsubscribeMethod → World
  | none => w.upsert none id
  | some method =>
    let v := w.upsert (some (initialUnsubscribeLifecycleStatus method)) (projected method)
    if method ≠ .oneClick ∧ w.policy.join = none then v.rest else v

/-- The upsert of `handleUnsubscribeExecuted`. -/
def projectOutcome (outcome : UnsubOutcome) : World :=
  w.upsert (some outcome.unsubStatus) fun _ => some outcome.unsubStatus

def deliverIntent (i : ℕ) (event : IntentEvent) : World :=
  { w.projectIntent event.method with intents := w.intents.set i { event with delivered := true } }

def deliverExecuted (i : ℕ) (event : ExecutedEvent) : World :=
  { w.projectOutcome event.outcome with
    executed := w.executed.set i { event with delivered := true } }

/-! ## Histories -/

/-- A row that an intent inserts. -/
def isNew (row : ActionRow) : Bool := row.status = .queued && row.selector.senderKey.isSome

def step : Step → Option World
  | .recordUnsubscribeIntent method execution =>
    if isNew execution then some (w.recordUnsubscribeIntent method execution) else none
  | .enqueueBulkUnsubscribe manual execution =>
    if isNew execution then some (w.enqueueBulkUnsubscribe manual execution) else none
  | .executeUnsubscribeIntent method execution =>
    if isNew execution then some (w.announce method execution) else none
  | .execution i write => (w.rows[i]?).map fun row => w.execution i row write
  | .enqueueFailed i => (w.rows[i]?).map (w.enqueueFailed i)
  | .autopilotEnqueueFailed i => (w.rows[i]?).map (w.autopilotEnqueueFailed i)
  | .handleUnsubscribeIntentRecorded i => (w.intents[i]?).map (w.deliverIntent i)
  | .handleUnsubscribeExecuted i => (w.executed[i]?).map (w.deliverExecuted i)

/-- The world after a history whose steps are each permitted where they are taken. -/
def after (ok : World → Step → Bool) : World → List Step → Option World
  | w, [] => some w
  | w, s :: rest => if ok w s then (w.step s).bind fun w => after ok w rest else none

/-- No attempt has been made. -/
structure Unattempted : Prop where
  rows : w.rows = []
  executed : w.executed = []
  newest : w.newest = none

/-- All executions are terminal, and all events delivered. -/
def settled : Bool :=
  (w.rows.all fun row => JobStatus.terminal row.status) && w.intents.all (·.delivered) &&
    w.executed.all (·.delivered)

end World

/-- An outcome is delivered only while no later attempt has ended otherwise. -/
def current (w : World) : Step → Bool
  | .handleUnsubscribeExecuted i =>
    (w.executed[i]?).all fun event => w.newest = some event.outcome.unsubStatus
  | _ => true

end DeclutrMail.Unsubscribe.StatusHistory
