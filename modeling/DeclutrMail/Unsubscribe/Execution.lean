import DeclutrMail.Interleaving.Turns
import DeclutrMail.Network.SsrfGuard
import DeclutrMail.Unsubscribe.Tables

/-!
# Executing an unsubscribe

`UnsubExecutionWorker` on one row of `action_jobs`: its checks, the one-click POST and the terminal
transactions, inside the `run` of the base worker. A delivery of the job is a program, and a
statement of it may fail, or be executed without the worker hearing of it. The POST goes out in one
step and its response comes in another; `posts` remembers the responses.

What the tables of other writers and the network show is the answer's choice.
-/

namespace DeclutrMail.Unsubscribe.Execution

open Interleaving Actions
open SsrfGuard (TargetError Pin)

/-! ## Outcomes -/

inductive UnsubOutcome
  | endpointAccepted
  | failed
  | unconfirmed
  | actionRequired
  deriving DecidableEq

def unsubMaxAttempts : ℕ := 2

def unsubAmbiguousRedirectErrorCode : String := "UNSUB_AMBIGUOUS_REDIRECT"
def unsubManualRequiredErrorCode : String := "UNSUB_MANUAL_REQUIRED"
def unsubSenderProtectedErrorCode : String := "UNSUB_SENDER_PROTECTED"
def unsubSendBlockedErrorCode : String := "UNSUB_SEND_DISABLED"

/-- `sender_policies.unsub_status` of an outcome. -/
def UnsubOutcome.unsubStatus : UnsubOutcome → UnsubStatus
  | endpointAccepted => .endpointAccepted
  | failed => .failed
  | unconfirmed => .unconfirmed
  | actionRequired => .actionRequired

/-- `activity_log.action` of an outcome. -/
inductive TerminalAction
  | unsubscribeEndpointAccepted
  | unsubscribeUnconfirmed
  | unsubscribeActionRequired
  | unsubscribeFailed
  deriving DecidableEq

def UnsubOutcome.action : UnsubOutcome → TerminalAction
  | endpointAccepted => .unsubscribeEndpointAccepted
  | unconfirmed => .unsubscribeUnconfirmed
  | actionRequired => .unsubscribeActionRequired
  | failed => .unsubscribeFailed

structure OutcomeRecord where
  outcome : UnsubOutcome
  httpStatus : Option ℕ
  errorCode : Option String
  deriving DecidableEq

/-- What a response leads to; `mailto` says whether the sender has that channel too. -/
def recordOf (status : ℕ) (mailto : Bool) : OutcomeRecord :=
  if 200 ≤ status ∧ status < 300 then ⟨.endpointAccepted, some status, none⟩
  else if 300 ≤ status ∧ status < 400 then
    ⟨.unconfirmed, some status, some unsubAmbiguousRedirectErrorCode⟩
  else if mailto then ⟨.actionRequired, some status, some unsubManualRequiredErrorCode⟩
  else ⟨.failed, some status, some "UNSUB_TARGET_REJECTED"⟩

def refusal (errorCode : String) : OutcomeRecord := ⟨.failed, none, some errorCode⟩

def targetErrorCode : TargetError → String
  | .UNSUB_INVALID_URL => "UNSUB_INVALID_URL"
  | .UNSUB_INSECURE_SCHEME => "UNSUB_INSECURE_SCHEME"
  | .UNSUB_DNS_FAILURE => "UNSUB_DNS_FAILURE"
  | .UNSUB_PRIVATE_TARGET => "UNSUB_PRIVATE_TARGET"

structure UnsubExecutionResult where
  outcome : UnsubOutcome
  httpStatus : Option ℕ
  alreadyDone : Bool
  deriving DecidableEq

/-! ## The tables -/

/-- `ACTIONS_UNSUBSCRIBE_EXECUTED` of this job. -/
structure ExecutedEvent where
  actionId : ActionId
  outcome : UnsubOutcome
  httpStatus : Option ℕ
  deriving DecidableEq

structure World where
  /-- The row of the job. -/
  row : Option ActionRow
  /-- The sender's row of `sender_policies`, its `unsub_status`. -/
  policy : Option (Option UnsubStatus)
  /-- The rows of `activity_log` with this job's id. -/
  activity : List TerminalAction
  outbox : List ExecutedEvent
  /-- The one-click POSTs of the job, each with the status that the worker received. -/
  posts : List (Option ℕ)
  /-- The deliveries under way. -/
  live : List ℕ
  deriving DecidableEq

def JobStatus.terminal : JobStatus → Bool
  | .done | .failed => true
  | .queued | .executing => false

/-- `pending` or `requested` -/
def inFlight (status : Option UnsubStatus) : Bool :=
  status = some .pending || status = some .requested

namespace World

variable (w : World)

def setRow (f : ActionRow → ActionRow) : World := { w with row := w.row.map f }

def setPolicy (f : Option UnsubStatus → Option UnsubStatus) : World :=
  { w with policy := w.policy.map f }

def markExecuting : World := w.setRow fun row => { row with status := .executing }

/-- The update of the two refusals that write no activity. -/
def refuse (errorCode : String) : World :=
  (w.setRow fun row =>
      { row with status := .failed, errorCode := some errorCode, affectedCount := 0 }).setPolicy
    fun status => if inFlight status then some .failed else status

def recordOutcome (actionId : ActionId) (record : OutcomeRecord) : World :=
  let accepted := record.outcome = .endpointAccepted
  let w := (w.setRow fun row => { row with
      status := if accepted then .done else .failed
      errorCode := record.errorCode
      affectedCount := if accepted then 1 else 0 }).setPolicy
    fun _ => some record.outcome.unsubStatus
  { w with
    activity := w.activity ++ [record.outcome.action]
    outbox := w.outbox ++ [⟨actionId, record.outcome, record.httpStatus⟩] }

/-- The transaction of `onTerminalFailure`, which found the job to be one of a sender's or not. -/
def recordTerminalFailure (errorName : String) (ofSender : Bool) : World :=
  let failedJob := w.row.any fun row => !JobStatus.terminal row.status
  let failed := w.setRow fun row =>
    if JobStatus.terminal row.status then row
    else { row with status := .failed, errorCode := some errorName }
  if ofSender then
    let w := failed.setPolicy fun status => if inFlight status then some .failed else status
    { w with activity := if failedJob then w.activity ++ [.unsubscribeFailed] else w.activity }
  else failed

def send : World := { w with posts := w.posts ++ [none] }

/-- The response to the last POST. -/
def receive (status : ℕ) : World := { w with posts := w.posts.dropLast ++ [some status] }

end World

/-! ## Programs -/

structure SenderRow where
  unsubscribeMethod : Option UnsubscribeMethod
  unsubscribeUrl : Option String
  deriving DecidableEq

structure Channels where
  oneClickUrl : Option String
  mailtoUrl : Option String
  deriving DecidableEq

inductive Statement
  | selectJob
  | selectProtected (senderKey : String)
  | selectSender (senderKey : String)
  | resolveChannels (senderKey : String)
  | unsubSendsEnabled
  | validateTarget (url : String)
  | markExecuting (recheckProtected : Bool) (senderKey : String)
  | selectStill
  | sendPost (url : String) (pin : Pin)
  | awaitResponse
  | recordOutcome (actionId : ActionId) (senderKey : String) (record : OutcomeRecord)
  | recordSendDisabled (actionId : ActionId) (senderKey : String)
  | recordSenderProtected (actionId : ActionId) (senderKey : String)
  | recordTerminalFailure (errorName : String) (ofSender : Bool)

@[reducible]
def Statement.Answer : Statement → Type
  | .selectJob => Option ActionRow
  | .selectProtected _ => Bool
  | .selectSender _ => Option SenderRow
  | .resolveChannels _ => Channels
  | .unsubSendsEnabled => Bool
  | .validateTarget _ => Except TargetError Pin
  | .markExecuting .. => Bool
  | .selectStill => Bool
  | .sendPost .. => Unit
  | .awaitResponse => ℕ
  | .recordOutcome .. | .recordSendDisabled .. | .recordSenderProtected .. => Unit
  | .recordTerminalFailure .. => Unit

inductive ExecutionError
  | database
  | network
  | transient
  | validation
  deriving DecidableEq

/-- `error.name` -/
def ExecutionError.name : ExecutionError → String
  | database => "PostgresError"
  | network => "Error"
  | transient => "TransientError"
  | validation => "ValidationError"

def ExecutionError.isNonRetryable : ExecutionError → Bool
  | validation => true
  | database | network | transient => false

@[reducible]
def executionSignature : Signature := ⟨Statement, Statement.Answer, ExecutionError⟩

abbrev ExecutionProgram := Program executionSignature

def run (q : Statement) : ExecutionProgram q.Answer :=
  Program.perform (S := executionSignature) q

structure Delivery where
  protectedConfirmed : Bool
  /-- `ctx.attempt` -/
  attempt : ℕ
  deriving DecidableEq

section Code

variable (delivery : Delivery) (job : ActionRow) (senderKey : String)

def recordOutcome (record : OutcomeRecord) : ExecutionProgram UnsubExecutionResult := do
  run (.recordOutcome job.id senderKey record)
  return ⟨record.outcome, record.httpStatus, false⟩

def recordSendDisabled : ExecutionProgram UnsubExecutionResult := do
  run (.recordSendDisabled job.id senderKey)
  return ⟨.failed, none, false⟩

def recordSenderProtected : ExecutionProgram UnsubExecutionResult := do
  run (.recordSenderProtected job.id senderKey)
  return ⟨.failed, none, false⟩

def postOneClick (url : String) (pin : Pin) : ExecutionProgram ℕ := do
  run (.sendPost url pin)
  run .awaitResponse

/-- The response, or `none` where the network failed on the last attempt. -/
def response (url : String) (pin : Pin) : ExecutionProgram (Option ℕ) :=
  tryCatch (do
    let status ← postOneClick url pin
    return some status)
  fun _ => if delivery.attempt < unsubMaxAttempts then throw .transient else return none

def request (url : String) (pin : Pin) (mailto : Bool) : ExecutionProgram UnsubExecutionResult := do
  match ← response delivery url pin with
  | none => recordOutcome job senderKey (refusal "UNSUB_NETWORK_ERROR")
  | some status => recordOutcome job senderKey (recordOf status mailto)

/-- A POST may be on the wire once the row is `executing`. -/
def recheckProtected : Bool := job.status ≠ .executing && !delivery.protectedConfirmed

def requestMarked (url : String) (pin : Pin) (mailto : Bool) :
    ExecutionProgram UnsubExecutionResult := do
  if ← run (.markExecuting (recheckProtected delivery job) senderKey) then
    request delivery job senderKey url pin mailto
  else if (← run .selectStill) && recheckProtected delivery job then
    recordSenderProtected job senderKey
  else throw .validation

def requestChecked (url : String) (mailto : Bool) : ExecutionProgram UnsubExecutionResult := do
  match ← run (.validateTarget url) with
  | .error e => recordOutcome job senderKey (refusal (targetErrorCode e))
  | .ok pin => requestMarked delivery job senderKey url pin mailto

def requestEnabled (url : String) (mailto : Bool) : ExecutionProgram UnsubExecutionResult := do
  if ← run .unsubSendsEnabled then requestChecked delivery job senderKey url mailto
  else recordSendDisabled job senderKey

/-- Neither `null` nor empty. -/
def present (text : Option String) : Bool := text.any (· ≠ "")

def requestOneClick : ExecutionProgram UnsubExecutionResult := do
  match ← run (.selectSender senderKey) with
  | none => recordOutcome job senderKey (refusal "UNSUB_NOT_ONE_CLICK")
  | some sender =>
    if sender.unsubscribeMethod ≠ some .oneClick then
      recordOutcome job senderKey (refusal "UNSUB_NOT_ONE_CLICK")
    else
      let channels ← run (.resolveChannels senderKey)
      let oneClickUrl := channels.oneClickUrl.or sender.unsubscribeUrl
      if present oneClickUrl then
        requestEnabled delivery job senderKey (oneClickUrl.getD "") (present channels.mailtoUrl)
      else recordOutcome job senderKey (refusal "UNSUB_NOT_ONE_CLICK")

/-- The first of the two protection checks. -/
def isProtected : ExecutionProgram Bool :=
  if recheckProtected delivery job then run (.selectProtected senderKey) else return false

def execute : ExecutionProgram UnsubExecutionResult := do
  if ← isProtected delivery job senderKey then recordSenderProtected job senderKey
  else requestOneClick delivery job senderKey

/-- The result of a delivery that finds the row final. -/
def replayed : UnsubExecutionResult where
  outcome :=
    if job.status = .done then .endpointAccepted
    else if job.errorCode = some unsubAmbiguousRedirectErrorCode then .unconfirmed
    else .failed
  httpStatus := none
  alreadyDone := true

def processJob : ExecutionProgram UnsubExecutionResult := do
  match ← run .selectJob with
  | none => throw .validation
  | some job =>
    if JobStatus.terminal job.status then return replayed job
    else
      match job.verb, job.selector with
      | .unsubscribe, .sender _ senderKey => execute delivery job senderKey
      | _, _ => throw .validation

def onTerminalFailure (e : ExecutionError) : ExecutionProgram Unit :=
  tryCatch (do
    let job ← run .selectJob
    run (.recordTerminalFailure e.name (job.any (·.selector.senderKey.isSome))))
  fun _ => return

/-- `run` of the base worker. The queue's own budget of the job is `unsubMaxAttempts` too. -/
def deliver : ExecutionProgram UnsubExecutionResult :=
  tryCatch (processJob delivery) fun e => do
    Program.when (e.isNonRetryable || unsubMaxAttempts ≤ delivery.attempt) (onTerminalFailure e)
    throw e

end Code

/-! ## The system -/

inductive Choice
  | done
  /-- The statement is executed, and its answer is lost. -/
  | lost
  | fails
  | flag (b : Bool)
  | enabled (b : Bool)
  | sender (row : Option SenderRow)
  | channels (found : Channels)
  | target (checked : Except TargetError Pin)
  | status (code : ℕ)
  | unreachable

/-- One write of the database. -/
def write (w w' : World) : Choice → Option (Except ExecutionError Unit × World)
  | .done => some (.ok (), w')
  | .lost => some (.error .database, w')
  | .fails => some (.error .database, w)
  | _ => none

def answer (_ : ℕ) (q : Statement) (c : Choice) (w : World) :
    Option (Except ExecutionError q.Answer × World) :=
  match q with
  | .selectJob =>
    match c with
    | .done => some (.ok w.row, w)
    | .lost | .fails => some (.error .database, w)
    | _ => none
  | .selectProtected _ =>
    match c with
    | .flag b => some (.ok b, w)
    | .lost | .fails => some (.error .database, w)
    | _ => none
  | .selectSender _ =>
    match c with
    | .sender row => some (.ok row, w)
    | .lost | .fails => some (.error .database, w)
    | _ => none
  | .resolveChannels _ =>
    match c with
    | .channels found => some (.ok found, w)
    | .lost | .fails => some (.error .database, w)
    | _ => none
  | .unsubSendsEnabled =>
    match c with
    | .enabled b => some (.ok b, w)
    | _ => none
  | .validateTarget _ =>
    match c with
    | .target checked => some (.ok checked, w)
    | _ => none
  | .markExecuting recheckProtected _ =>
    match c with
    | .done => if w.row.isSome then some (.ok true, w.markExecuting) else some (.ok false, w)
    | .flag true => if recheckProtected then some (.ok false, w) else none
    | .lost => some (.error .database, w.markExecuting)
    | .fails => some (.error .database, w)
    | _ => none
  | .selectStill =>
    match c with
    | .done => some (.ok w.row.isSome, w)
    | .lost | .fails => some (.error .database, w)
    | _ => none
  | .sendPost .. =>
    match c with
    | .done => some (.ok (), w.send)
    | _ => none
  | .awaitResponse =>
    match c with
    | .status code => some (.ok code, w.receive code)
    | .unreachable => some (.error .network, w)
    | _ => none
  | .recordOutcome actionId _ record => write w (w.recordOutcome actionId record) c
  | .recordSendDisabled .. => write w (w.refuse unsubSendBlockedErrorCode) c
  | .recordSenderProtected .. => write w (w.refuse unsubSenderProtectedErrorCode) c
  | .recordTerminalFailure errorName ofSender =>
    write w (w.recordTerminalFailure errorName ofSender) c

/-- Deliveries of the job on any number of threads. -/
@[reducible]
def executing : System executionSignature where
  World := World
  Thread := ℕ
  Task := Delivery
  Outcome := UnsubExecutionResult
  Choice := Choice
  Event := Empty
  code := deliver
  accept t _ w := some { w with live := t :: w.live }
  answer := answer
  settle t _ w := some { w with live := w.live.erase t }
  crash t w := some { w with live := w.live.erase t }
  disturb e := nomatch e

end DeclutrMail.Unsubscribe.Execution
