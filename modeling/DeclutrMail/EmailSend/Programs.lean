import DeclutrMail.Interleaving.Triple
import Mathlib.Data.Nat.Notation

/-!
# Email sends

`enqueueEmailSend` decides on the recorded outcome of the job stored under a key whether that job
may be replaced; `EmailSendWorker` runs the job. Neither holds anything between two of its
requests.

The contents of a rendered notice other than its texts are left out, as are the logs.
-/

namespace DeclutrMail.EmailSend

open Interleaving

inductive EmailKind
  | briefReady
  | billingLifecycle
  | syncComplete
  | syncReminder24h
  | syncFailed
  | gmailReconnect
  | lapseReengagement
  | weeklyValueReceipt
  | deletionScheduled
  | deletionReceipt
  deriving DecidableEq

structure EmailPrefs where
  reminders : Bool
  syncComplete : Bool
  weeklyReceipt : Bool
  briefReady : Bool

def optOutPrefByKind : EmailKind → Option (EmailPrefs → Bool)
  | .briefReady => some (·.briefReady)
  | .syncReminder24h | .lapseReengagement => some (·.reminders)
  | .syncComplete => some (·.syncComplete)
  | .weeklyValueReceipt => some (·.weeklyReceipt)
  | _ => none

def commercialKinds : List EmailKind := [.syncReminder24h, .lapseReengagement, .weeklyValueReceipt]

/-- Instants are milliseconds. -/
structure EmailSendJobData where
  kind : EmailKind
  userId : String
  subject : String
  text : String
  idempotencyKey : String
  briefRunId : Option String
  billingContext : Bool
  mailboxAccountId : Option String
  reconnectRequiredAt : Option ℕ
  skipIfUserActiveSince : Option String
  recipientOverride : Option String
  deriving DecidableEq

def briefEmailSendQueue : String := "brief-email-send"

/-- What a deployment fixes. -/
structure Deps where
  queueName : String
  businessPostalAddress : List String
  resolvesBriefNotice : Bool
  resolvesBillingNotice : Bool

def Deps.hasPostalAddress (deps : Deps) : Bool := !deps.businessPostalAddress.isEmpty

/-! ## Outcomes -/

inductive Outcome
  | sent
  | skippedUserReturned
  | skippedOptedOut
  | skippedRecovered
  | skippedSuppressed
  | skippedNoRecipient
  | skippedNoPostalAddress
  | skippedDeliveryDisabled
  | skippedDeliveryRejected
  deriving DecidableEq

def Outcome.name : Outcome → String
  | .sent => "sent"
  | .skippedUserReturned => "skipped_user_returned"
  | .skippedOptedOut => "skipped_opted_out"
  | .skippedRecovered => "skipped_recovered"
  | .skippedSuppressed => "skipped_suppressed"
  | .skippedNoRecipient => "skipped_no_recipient"
  | .skippedNoPostalAddress => "skipped_no_postal_address"
  | .skippedDeliveryDisabled => "skipped_delivery_disabled"
  | .skippedDeliveryRejected => "skipped_delivery_rejected"

def deliveredByOutcome : List (String × Bool) :=
  [.sent, .skippedUserReturned, .skippedRecovered, .skippedOptedOut, .skippedSuppressed,
    .skippedNoRecipient, .skippedNoPostalAddress, .skippedDeliveryDisabled,
    .skippedDeliveryRejected].map fun outcome : Outcome => (outcome.name, outcome = .sent)

/-- A decoded value: a scalar, or an object and its `outcome` if that is a string. -/
inductive Decoded
  | scalar
  | object (outcome : Option String)
  deriving DecidableEq

/-- A return value as it is read: a string is what `JSON.parse` makes of it. -/
inductive Returnvalue
  | text (parsed : Option Decoded)
  | plain (value : Decoded)
  deriving DecidableEq

def Returnvalue.decoded : Returnvalue → Option Decoded
  | .text parsed => parsed
  | .plain value => some value

/-- Unreadable counts as delivered; no value at all is `undefined`. -/
def didSend (returnvalue : Option Returnvalue) : Bool :=
  match returnvalue.bind Returnvalue.decoded with
  | some (.object (some outcome)) => (deliveredByOutcome.lookup outcome).getD true
  | _ => true

/-- What BullMQ stores of a run's result. -/
def Outcome.recorded (outcome : Outcome) : Returnvalue := .plain (.object (some outcome.name))

theorem didSend_recorded (outcome : Outcome) :
    didSend (some outcome.recorded) = decide (outcome = .sent) := by
  cases outcome <;> decide

/-! ## Requests -/

inductive Error
  | redis
  | locked
  | wrongQueue
  | database
  | postponed
  | validation
  | permanent
  | transient
  deriving DecidableEq

/-- `InvalidGrantError` is not raised here. -/
def Error.nonRetryable (e : Error) : Bool := decide (e = .validation ∨ e = .permanent)

inductive JobState
  | waiting
  | active
  | completed
  | failed
  | unknown
  deriving DecidableEq

inductive NotDelivered
  | disabled
  | suppressed
  | permanent
  | transient

inductive EmailDeliveryOutcome
  | ok
  | failed (reason : NotDelivered)

structure Rendered where
  subject : String
  text : String

/-- A row of `users` with its preferences parsed. -/
structure UserRow where
  email : String
  emailPrefs : EmailPrefs
  hasBriefEmailConsent : Bool

inductive Request
  | getJob
  | getState
  | hexists
  | remove
  | add (data : EmailSendJobData)
  | resolveBriefNotice (runId mailboxAccountId userId : String)
  | resolveBillingNotice (userId : String)
  | park (payload : EmailSendJobData)
  | selectUser (userId : String)
  | hasUserActivitySince (userId since : String)
  | selectActiveMailbox (mailboxAccountId userId : String)
  | selectLastIncrementalErrorAt (mailboxAccountId : String)
  | isAwaitingReconnect (mailboxAccountId : String)
  | assertDeliveryAdmission
  | deliver (recipient subject text : String)
  | markDelivered
  | classifyDeliveryFailure

/-- `getJob` hands back the return value that the job has; `classifyDeliveryFailure` finds whether
the delivery is settled. -/
abbrev Request.Answer : Request → Type
  | .getJob => Option (Option Returnvalue)
  | .getState => JobState
  | .hexists => Bool
  | .resolveBriefNotice .. => Option Rendered
  | .resolveBillingNotice _ => Option Rendered
  | .selectUser _ => Option UserRow
  | .hasUserActivitySince .. => Bool
  | .selectActiveMailbox .. => Bool
  | .selectLastIncrementalErrorAt _ => Option ℕ
  | .isAwaitingReconnect _ => Bool
  | .deliver .. => EmailDeliveryOutcome
  | .classifyDeliveryFailure => Bool
  | _ => Unit

abbrev Sig : Signature := ⟨Request, Request.Answer, Error⟩

abbrev Prog (α : Type) := Program Sig α

abbrev await (q : Request) : Prog q.Answer := Program.perform (S := Sig) q

/-! ## `enqueueEmailSend` -/

inductive Enqueued
  | added
  | noop
  deriving DecidableEq

def reapable (state : JobState) (returnvalue : Option Returnvalue) : Bool :=
  decide (state = .unknown) || (decide (state = .completed) && !didSend returnvalue)

def addJob (data : EmailSendJobData) : Prog Enqueued := do
  await (.add data)
  return .added

/-- Whether the job could be removed. -/
def removed : Prog Bool :=
  tryCatch (do
    await .remove
    return true) fun _ => return false

/-- What becomes of the job that is there. -/
def replace (data : EmailSendJobData) (returnvalue : Option Returnvalue) : Prog Enqueued := do
  let state ← await .getState
  if reapable state returnvalue then do
    let evidence ← await .hexists
    if evidence then return .noop
    else do
      let gone ← removed
      if gone then addJob data else return .noop
  else return .noop

/-- The sends that are not refused for their kind. -/
def schedule (data : EmailSendJobData) : Prog Enqueued := do
  match ← await .getJob with
  | some returnvalue => replace data returnvalue
  | none => addJob data

def enqueueEmailSend (deps : Deps) (data : EmailSendJobData) : Prog Enqueued :=
  if data.kind = .briefReady ∧ deps.queueName ≠ briefEmailSendQueue then throw .wrongQueue
  else if data.kind ∈ commercialKinds ∧ deps.hasPostalAddress = false then return .noop
  else schedule data

/-! ## `EmailSendWorker` -/

def hexDigits : List Char := "0123456789abcdefABCDEF".toList

def isUuid (s : String) : Bool :=
  decide (s.toList.length = 36) && s.toList.zipIdx.all fun (c, i) =>
    if i ∈ [8, 13, 18, 23] then decide (c = '-') else decide (c ∈ hexDigits)

/-- Empty texts are falsy. -/
def truthy (value : Option String) : Option String := value.filter (· ≠ "")

/-- The identifiers of a Brief notice are there and owned. -/
def briefRun (deps : Deps) (payload : EmailSendJobData) : Option (String × String) :=
  match payload.briefRunId, payload.mailboxAccountId with
  | some runId, some mailboxAccountId =>
    if isUuid runId ∧ isUuid mailboxAccountId ∧ isUuid payload.userId ∧
        truthy payload.recipientOverride = none ∧
        payload.idempotencyKey = "email__brief-ready__" ++ runId ∧
        deps.queueName = briefEmailSendQueue ∧ deps.resolvesBriefNotice then
      some (runId, mailboxAccountId)
    else none
  | _, _ => none

/-- A notice that is rendered from current state; nothing is left to say if there is none. -/
def resolveNotice (deps : Deps) (payload : EmailSendJobData) : Prog (Option EmailSendJobData) :=
  match payload.kind with
  | .briefReady =>
    match briefRun deps payload with
    | none => throw .validation
    | some (runId, mailboxAccountId) => do
      let rendered ← await (.resolveBriefNotice runId mailboxAccountId payload.userId)
      return rendered.map fun rendered =>
        { payload with
          subject := rendered.subject, text := rendered.text, skipIfUserActiveSince := none }
  | .billingLifecycle =>
    if payload.billingContext ∧ truthy payload.recipientOverride = none ∧
        deps.resolvesBillingNotice then do
      let rendered ← await (.resolveBillingNotice payload.userId)
      return rendered.map fun rendered =>
        { payload with subject := rendered.subject, text := rendered.text }
    else throw .validation
  | _ => return some payload

def parkWithoutFailing (payload : EmailSendJobData) : Prog Unit :=
  tryCatch (await (.park payload)) fun _ => return ()

def optedOut (kind : EmailKind) (user : UserRow) : Bool :=
  (optOutPrefByKind kind).any (fun pref => !pref user.emailPrefs) ||
    (decide (kind = .briefReady) && !user.hasBriefEmailConsent)

/-- The address to send to, or why nothing is sent. -/
def resolveRecipient (payload : EmailSendJobData) : Prog (Except Outcome String) :=
  match truthy payload.recipientOverride with
  | some recipient => return .ok recipient
  | none => do
    match ← await (.selectUser payload.userId) with
    | none => return .error .skippedNoRecipient
    | some user =>
      if optedOut payload.kind user then return .error .skippedOptedOut
      else
        match truthy payload.skipIfUserActiveSince with
        | none => return .ok user.email
        | some since => do
          let returned ← await (.hasUserActivitySince payload.userId since)
          return if returned then .error .skippedUserReturned else .ok user.email

/-- A reconnect notice is sent for the incident that it was queued for. -/
def reconnectStands (payload : EmailSendJobData) : Prog Bool :=
  match payload.kind, truthy payload.mailboxAccountId, payload.reconnectRequiredAt with
  | .gmailReconnect, some account, some requiredAt => do
    let active ← await (.selectActiveMailbox account payload.userId)
    if active then do
      let errorAt ← await (.selectLastIncrementalErrorAt account)
      if errorAt = some requiredAt then await (.isAwaitingReconnect account) else return false
    else return false
  | .gmailReconnect, _, _ => return false
  | _, _, _ => return true

/-- The delivery itself. -/
def send (payload : EmailSendJobData) (recipient : String) : Prog Outcome := do
  await .assertDeliveryAdmission
  match ← await (.deliver recipient payload.subject payload.text) with
  | .ok => do
    .when (payload.kind = .briefReady) (tryCatch (await .markDelivered) fun _ => throw .transient)
    return .sent
  | .failed .suppressed => return .skippedSuppressed
  | .failed .disabled => do
    parkWithoutFailing payload
    return .skippedDeliveryDisabled
  | .failed .permanent => do
    parkWithoutFailing payload
    return .skippedDeliveryRejected
  | .failed .transient => throw .transient

def EmailSendJobData.complete (payload : EmailSendJobData) : Bool :=
  decide (payload.userId ≠ "" ∧ payload.subject ≠ "" ∧ payload.text ≠ "" ∧
    payload.idempotencyKey ≠ "")

def processJob (deps : Deps) (queued : EmailSendJobData) : Prog Outcome := do
  match ← resolveNotice deps queued with
  | none => return .skippedRecovered
  | some payload =>
    if payload.complete then
      if payload.kind ∈ commercialKinds ∧ deps.hasPostalAddress = false then do
        parkWithoutFailing payload
        return .skippedNoPostalAddress
      else do
        match ← resolveRecipient payload with
        | .error outcome => return outcome
        | .ok recipient => do
          let stands ← reconnectStands payload
          if stands then send payload recipient else return .skippedRecovered
    else throw .validation

/-- The run of a job. A delivery that is not settled fails for good; a job that was put off is
not judged. -/
def run (deps : Deps) (payload : EmailSendJobData) : Prog Outcome :=
  tryCatch (processJob deps payload) fun e =>
    if e = .postponed then throw e
    else do
      let settled ← await .classifyDeliveryFailure
      throw (if settled then e else .permanent)

end DeclutrMail.EmailSend
