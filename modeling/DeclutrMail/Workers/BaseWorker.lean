import DeclutrMail.Effects.Traced
import Mathlib.Tactic.SplitIfs

/-!
# The run of a worker's job

`BaseDeclutrWorker.run` processes one attempt of a job. A failure that no later attempt can
repair is terminal: the subclass is told (`onTerminalFailure`), the failure is captured once by
the observer and parked once as a dead letter, and the queue gets the failure itself.

The hooks of the subclass, the observer and the recorder are known by their answers, each of
which may be an error.
-/

namespace DeclutrMail.Workers

open Traced

/-! ## Errors -/

/-- The classes that `instanceof` tells apart. -/
inductive ErrorClass
  | error
  | delayed
  | unrecoverable
  | transient
  | rateLimit
  | authExpired
  | invalidGrant
  | validation
  | permanent (reason : Option String)
  deriving DecidableEq

structure JsError where
  cls : ErrorClass
  /-- Nothing where the getter throws. -/
  name : Option String
  message : String
  stack : Option String
  deriving DecidableEq

/-- Any value can be thrown: one that is not an `Error` is known by `String(err)`. -/
inductive Thrown
  | error (e : JsError)
  | value (text : String)
  deriving DecidableEq

/-- `err instanceof Error ? err : new Error(String(err))` -/
def Thrown.toError : Thrown → JsError
  | .error e => e
  | .value text => ⟨.error, some "Error", text, none⟩

def Thrown.isDelayed : Thrown → Bool
  | .error e => e.cls = .delayed
  | .value _ => false

def isNonRetryable (e : JsError) : Bool :=
  match e.cls with
  | .invalidGrant | .validation | .permanent _ => true
  | _ => false

def providerErrorReason (e : JsError) : Option String :=
  match e.cls with
  | .permanent reason => reason
  | _ => none

/-- `SAFE_WORKER_ERROR_KINDS` -/
def safeWorkerErrorKinds : List String :=
  ["AbortError", "AggregateError", "AuthExpiredError", "Error", "InvalidGrantError",
    "PermanentError", "RateLimitError", "TransientError", "TypeError", "UnrecoverableError",
    "ValidationError"]

def safeWorkerErrorKind : Thrown → String
  | .error ⟨_, some name, _, _⟩ => if name ∈ safeWorkerErrorKinds then name else "WorkerError"
  | .error ⟨_, none, _, _⟩ | .value _ => "WorkerError"

/-- A grant that the user revoked: a notice, and not a fault of the worker. -/
def isReconnectGrant (e : JsError) : Bool := safeWorkerErrorKind (.error e) = "InvalidGrantError"

/-- `new UnrecoverableError(error.message)` -/
def unrecoverable (message : String) : JsError :=
  ⟨.unrecoverable, some "UnrecoverableError", message, none⟩

/-! ## Workers -/

inductive WorkerPolicy
  | webhookPolicy
  | perMailboxPolicy
  | batchPolicy
  | cronPolicy
  | adminPolicy
  deriving DecidableEq

namespace WorkerPolicy

def maxAttempts : WorkerPolicy → ℕ
  | webhookPolicy | perMailboxPolicy => 5
  | batchPolicy | cronPolicy => 3
  | adminPolicy => 1

def timeoutMs : WorkerPolicy → Option ℕ
  | webhookPolicy | adminPolicy => some 30000
  | batchPolicy | cronPolicy => some 60000
  | perMailboxPolicy => none

end WorkerPolicy

structure Job (P : Type) where
  id : Option String
  queueName : String
  data : P
  /-- `data.mailboxAccountId`, where the payload has one. -/
  mailboxAccountId : Option String
  attemptsMade : ℕ
  /-- `opts.attempts`, where it is a number. -/
  attempts : Option ℕ

structure WorkerContext where
  jobId : String
  workerName : String
  mailboxAccountId : Option String
  /-- Counted from 1. -/
  attempt : ℕ
  maxAttempts : ℕ
  policy : WorkerPolicy
  deriving DecidableEq

structure DeadLetterEntry (P : Type) where
  queue : String
  jobId : String
  payload : P
  error : String

/-- The answers of the failure sink. -/
structure WorkerObserver where
  captureFailure (kind : String) (ctx : WorkerContext) (errorReason : Option String) :
    Except Thrown Unit
  captureBackgroundFailure (kind : String) (ctx : WorkerContext) : Except Thrown Unit
  recordBackgroundNotice (ctx : WorkerContext) : Except Thrown Unit

structure Worker (P : Type) where
  workerName : String
  policy : WorkerPolicy
  classifyRunFailure : Option (JsError → Except Thrown JsError)
  onTerminalFailure : Option (P → JsError → WorkerContext → Except Thrown Unit)
  observer : WorkerObserver
  deadLetterRecorder : Option (DeadLetterEntry P → Except Thrown Unit)

/-- A line of the lifecycle log. -/
inductive WorkerEvent
  | started
  | succeeded
  | failed (error : String) (terminal : Bool)
  | retried (error : String)
  | deadLettered (error : String)
  deriving DecidableEq

/-- What a run does outside its own state. -/
inductive Event
  | emit (event : WorkerEvent) (ctx : WorkerContext)
  | terminalHook (error : JsError) (ctx : WorkerContext)
  /-- The log line `worker.failure_capture`. -/
  | captureLog (kind : String) (ctx : WorkerContext) (errorReason : Option String)
  | capture (kind : String) (ctx : WorkerContext) (errorReason : Option String)
  | notice (ctx : WorkerContext)
  | record (queue jobId error : String)
  | captureBackground (kind : String) (ctx : WorkerContext)
  | observerFailed (kind : String)
  | recordFailed (kind : String)
  deriving DecidableEq

def Event.isCapture : Event → Bool
  | capture .. => true
  | _ => false

def Event.isRecord : Event → Bool
  | record .. => true
  | _ => false

/-- One attempt at the body of a job, and whether its deadline was over before it settled. -/
structure Attempt (R : Type) where
  result : Except Thrown R
  expired : Bool

/-! ## The run -/

variable {P R : Type}

namespace Worker

variable (w : Worker P)

def context (job : Job P) : WorkerContext where
  jobId := job.id.getD "unknown"
  workerName := w.workerName
  mailboxAccountId := job.mailboxAccountId
  attempt := job.attemptsMade + 1
  maxAttempts :=
    -- The budget of the job, and not of the policy, makes a failure final.
    match job.attempts with
    | some attempts => max 1 attempts
    | none => w.policy.maxAttempts
  policy := w.policy

/-- The attempt is drained before its deadline is reported. -/
def withTimeout (a : Attempt R) : Except Thrown R :=
  match w.policy.timeoutMs with
  | none => a.result
  | some ms =>
    if a.expired then
      .error (.error ⟨.error, some "Error",
        w.workerName ++ " exceeded " ++ toString ms ++ "ms timeout", none⟩)
    else a.result

def classified (error : JsError) : Except Thrown JsError :=
  match w.classifyRunFailure with
  | some classify => classify error
  | none => .ok error

def isTerminal (error : JsError) (ctx : WorkerContext) : Bool :=
  isNonRetryable error || ctx.maxAttempts ≤ ctx.attempt

/-- The answer of the hook, which a worker need not have. -/
def terminalAnswer (job : Job P) (error : JsError) (ctx : WorkerContext) : Except Thrown Unit :=
  match w.onTerminalFailure with
  | some hook => hook job.data error ctx
  | none => .ok ()

def onTerminal (job : Job P) (error : JsError) (ctx : WorkerContext) :
    Traced Thrown Event Unit :=
  match w.onTerminalFailure with
  | some hook => do
    emit (.terminalHook error ctx)
    answer (hook job.data error ctx)
  | none => pure ()

/-- Losing one capture must not block the dead letter. -/
def observed (event : Event) (answered : Except Thrown Unit) : Traced Thrown Event Unit :=
  attempt (do emit event; answer answered)
    fun observerErr => emit (.observerFailed (safeWorkerErrorKind observerErr))

/-- The single failure-capture point. -/
def captureFailure (error : JsError) (ctx : WorkerContext) : Traced Thrown Event Unit := do
  let errorReason := providerErrorReason error
  let errorKind := safeWorkerErrorKind (.error error)
  emit (.captureLog errorKind ctx errorReason)
  if isReconnectGrant error then
    observed (.notice ctx) (w.observer.recordBackgroundNotice ctx)
  else
    observed (.capture errorKind ctx errorReason)
      (w.observer.captureFailure errorKind ctx errorReason)

/-- Park a terminal failure. A failed insert must not mask it. -/
def recordDeadLetter (job : Job P) (error : JsError) (ctx : WorkerContext) :
    Traced Thrown Event Unit :=
  match w.deadLetterRecorder with
  | none => pure ()
  | some record =>
    let text := error.stack.getD error.message
    attempt
      (do
        emit (.record job.queueName ctx.jobId text)
        answer (record ⟨job.queueName, ctx.jobId, job.data, text⟩))
      fun recorderErr => do
        let kind := safeWorkerErrorKind (.error recorderErr.toError)
        emit (.recordFailed kind)
        observed (.captureBackground kind ctx) (w.observer.captureBackgroundFailure kind ctx)

/-- The `catch` of a run. -/
def fail (job : Job P) (ctx : WorkerContext) (err : Thrown) : Traced Thrown Event R :=
  -- The queue moved this job to delayed: no attempt is consumed.
  if err.isDelayed then raise err
  else do
    let error ← answer (w.classified err.toError)
    let kind := safeWorkerErrorKind (.error error)
    emit (.emit (.failed kind (isTerminal error ctx)) ctx)
    if isTerminal error ctx then
      -- The domain's side effect first, then the single capture point.
      w.onTerminal job error ctx
      w.captureFailure error ctx
      w.recordDeadLetter job error ctx
      emit (.emit (.deadLettered kind) ctx)
      if isNonRetryable error then raise (.error (unrecoverable error.message))
      else raise (.error error)
    else
      emit (.emit (.retried kind) ctx)
      raise (.error error)

def run (job : Job P) (processJob : P → WorkerContext → Attempt R) : Traced Thrown Event R := do
  let ctx := w.context job
  emit (.emit .started ctx)
  attempt
    (do
      let result ← answer (w.withTimeout (processJob job.data ctx))
      emit (.emit .succeeded ctx)
      pure result)
    (w.fail job ctx)

/-! ## The trace of a failure -/

variable {w} {job : Job P} {error : JsError} {ctx : WorkerContext}

@[simp] theorem result_observed (event : Event) (answered : Except Thrown Unit) :
    (observed event answered).result = .ok () := result_attempt fun _ => rfl

@[simp] theorem result_captureFailure : (w.captureFailure error ctx).result = .ok () := by
  unfold captureFailure
  dsimp only
  split_ifs <;> rw [bind_of_ok (result_emit _)] <;> exact result_observed _ _

@[simp] theorem result_recordDeadLetter :
    (w.recordDeadLetter job error ctx).result = .ok () := by
  unfold recordDeadLetter
  split
  · rfl
  · refine result_attempt fun e => ?_
    rw [bind_of_ok (result_emit _)]
    exact result_observed _ _

theorem result_onTerminal :
    (w.onTerminal job error ctx).result = w.terminalAnswer job error ctx := by
  unfold onTerminal terminalAnswer
  cases w.onTerminalFailure with
  | none => rfl
  | some hook =>
    dsimp only
    rw [bind_of_ok (result_emit _), result_answer]

/-- The reports among the events: captures and dead letters. -/
def reports (trace : List Event) : List Event :=
  trace.filter fun event => event.isCapture || event.isRecord

@[simp] theorem reports_nil : reports [] = [] := rfl

@[simp] theorem reports_emit (event : WorkerEvent) : reports [.emit event ctx] = [] := rfl

theorem countP_reports {p : Event → Bool} (reported : ∀ e, p e = true →
    (e.isCapture || e.isRecord) = true) (trace : List Event) :
    trace.countP p = (reports trace).countP p := by
  rw [reports, List.countP_filter]
  refine List.countP_congr fun e _ => ?_
  have := reported e
  grind

theorem reports_append (xs ys : List Event) :
    reports (xs ++ ys) = reports xs ++ reports ys := List.filter_append ..

theorem reports_observed (event : Event) (answered : Except Thrown Unit) :
    reports (observed event answered).trace = reports [event] := by
  unfold observed
  rw [bind_of_ok (result_emit event)]
  cases answered with
  | ok _ => rw [attempt_of_ok rfl]; rfl
  | error e =>
    rw [attempt_of_error rfl]
    show reports ([event] ++ [.observerFailed _]) = _
    rw [reports_append]
    exact List.append_nil _

theorem reports_captureFailure (fault : isReconnectGrant error = false) :
    reports (w.captureFailure error ctx).trace =
      [.capture (safeWorkerErrorKind (.error error)) ctx (providerErrorReason error)] := by
  unfold captureFailure
  simp only [fault, bind_of_ok (result_emit _), Bool.false_eq_true, if_false, reports_append,
    reports_observed]
  rfl

/-- The dead letter of a failure. -/
def letter (job : Job P) (error : JsError) (ctx : WorkerContext) : Event :=
  .record job.queueName ctx.jobId (error.stack.getD error.message)

theorem reports_recordDeadLetter :
    reports (w.recordDeadLetter job error ctx).trace =
      if w.deadLetterRecorder.isSome then [letter job error ctx] else [] := by
  unfold recordDeadLetter
  cases w.deadLetterRecorder with
  | none => rfl
  | some record =>
    dsimp only
    rw [bind_of_ok (result_emit _)]
    cases record _ with
    | ok _ => rw [attempt_of_ok rfl]; rfl
    | error e =>
      rw [attempt_of_error rfl, bind_of_ok (result_emit _)]
      simp only [trace_emit, trace_answer, List.append_nil, reports_append, reports_observed]
      rfl

theorem reports_onTerminal : reports (w.onTerminal job error ctx).trace = [] := by
  unfold onTerminal
  cases w.onTerminalFailure with
  | none => rfl
  | some hook =>
    dsimp only
    rw [bind_of_ok (result_emit _)]
    rfl

/-- What the queue gets for a failure. -/
def rethrown (error : JsError) : Thrown :=
  if isNonRetryable error then .error (unrecoverable error.message) else .error error

section Fail

variable {err : Thrown} (consumed : err.isDelayed = false)
include consumed

/-- A failed classification ends the run. -/
theorem fail_of_unclassified {e : Thrown} (classified : w.classified err.toError = .error e) :
    (w.fail job ctx err : Traced Thrown Event R) = ⟨[], .error e⟩ := by
  rw [fail, if_neg (by simp [consumed]), bind_of_error (e := e) classified]
  rfl

variable (classified : w.classified err.toError = .ok error)
include classified

theorem fail_of_retried (again : isTerminal error ctx = false) :
    reports (w.fail job ctx err : Traced Thrown Event R).trace = [] ∧
      (w.fail job ctx err : Traced Thrown Event R).result = .error (.error error) := by
  rw [fail, if_neg (by simp [consumed]), bind_of_ok (a := error) classified]
  simp only [again, Bool.false_eq_true, if_false, bind_of_ok (result_emit _)]
  exact ⟨rfl, rfl⟩

/-- An error of the hook hides the failure. -/
theorem fail_of_hook {e : Thrown} (final : isTerminal error ctx = true)
    (hook : w.terminalAnswer job error ctx = .error e) :
    reports (w.fail job ctx err : Traced Thrown Event R).trace = [] ∧
      (w.fail job ctx err : Traced Thrown Event R).result = .error e := by
  have raised : (w.onTerminal job error ctx).result = .error e := result_onTerminal.trans hook
  rw [fail, if_neg (by simp [consumed]), bind_of_ok (a := error) classified]
  simp only [final, if_true, bind_of_ok (result_emit _), bind_of_error raised, reports_append,
    reports_onTerminal, reports_emit, trace_emit, trace_answer, List.nil_append, and_self]

theorem fail_of_terminal (final : isTerminal error ctx = true)
    (hook : w.terminalAnswer job error ctx = .ok ()) :
    reports (w.fail job ctx err : Traced Thrown Event R).trace =
        reports (w.captureFailure error ctx).trace ++
          reports (w.recordDeadLetter job error ctx).trace ∧
      (w.fail job ctx err : Traced Thrown Event R).result = .error (rethrown error) := by
  have returned : (w.onTerminal job error ctx).result = .ok () := result_onTerminal.trans hook
  rw [fail, if_neg (by simp [consumed]), bind_of_ok (a := error) classified]
  simp only [final, if_true, bind_of_ok (result_emit _), bind_of_ok returned,
    bind_of_ok result_captureFailure, bind_of_ok result_recordDeadLetter, reports_append,
    reports_onTerminal, reports_emit, trace_emit, trace_answer, List.nil_append]
  unfold rethrown
  split_ifs <;> simp

end Fail

/-! ## The trace of a run -/

theorem run_of_error {processJob : P → WorkerContext → Attempt R} {err : Thrown}
    (failed : w.withTimeout (processJob job.data (w.context job)) = .error err) :
    reports (w.run job processJob).trace =
        reports (w.fail job (w.context job) err : Traced Thrown Event R).trace ∧
      (w.run job processJob).result =
        (w.fail job (w.context job) err : Traced Thrown Event R).result := by
  unfold run
  dsimp only
  rw [bind_of_ok (result_emit _), bind_of_error failed, attempt_of_error rfl]
  exact ⟨rfl, rfl⟩

/-- The failure is captured once and parked once if it is terminal, and the queue gets it. -/
def ReportsOnce (w : Worker P) (job : Job P) (err : Thrown) (ran : Traced Thrown Event R) : Prop :=
  ∃ failure, w.classified err.toError = .ok failure ∧
    ran.trace.countP Event.isCapture =
      (if isTerminal failure (w.context job) then 1 else 0) ∧
    ran.trace.countP Event.isRecord =
      (if isTerminal failure (w.context job) ∧ w.deadLetterRecorder.isSome then 1 else 0) ∧
    ran.result = .error (rethrown failure)

/-- No hook of the subclass throws on this failure. -/
def HooksReturn (w : Worker P) (job : Job P) (err : Thrown) : Prop :=
  ∃ failure, w.classified err.toError = .ok failure ∧
    (isTerminal failure (w.context job) = true →
      w.terminalAnswer job failure (w.context job) = .ok ())

theorem isTerminal_of_nonRetryable (never : isNonRetryable error = true) :
    isTerminal error ctx = true := by simp [isTerminal, never]

theorem rethrown_of_retried (again : isTerminal error ctx = false) :
    rethrown error = .error error := by
  refine if_neg fun never => ?_
  rw [isTerminal_of_nonRetryable never] at again
  cases again

/-- A failure is reported once exactly if the hooks of the subclass return: the observer and the
recorder may throw. -/
theorem run_reports_once (w : Worker P) (job : Job P)
    (processJob : P → WorkerContext → Attempt R) (err : Thrown)
    (failed : w.withTimeout (processJob job.data (w.context job)) = .error err)
    (consumed : err.isDelayed = false)
    (fault : ∀ failure, w.classified err.toError = .ok failure →
      isReconnectGrant failure = false) :
    ReportsOnce w job err (w.run job processJob) ↔ HooksReturn w job err := by
  obtain ⟨reported, ended⟩ := run_of_error failed
  have captures : (w.run job processJob).trace.countP Event.isCapture = _ :=
    countP_reports (fun e h => by simp [h]) _
  have records : (w.run job processJob).trace.countP Event.isRecord = _ :=
    countP_reports (fun e h => by simp [h]) _
  unfold ReportsOnce HooksReturn
  rw [captures, records, reported, ended]
  refine exists_congr fun failure => and_congr_right fun classified => ?_
  cases final : isTerminal failure (w.context job) with
  | false =>
    obtain ⟨none, result⟩ :
        reports (w.fail job (w.context job) err : Traced Thrown Event R).trace = [] ∧ _ :=
      fail_of_retried consumed classified final
    simp [none, result, rethrown_of_retried final]
  | true =>
    cases hook : w.terminalAnswer job failure (w.context job) with
    | error e =>
      obtain ⟨none, -⟩ := fail_of_hook (R := R) consumed classified final hook
      simp [none]
    | ok _ =>
      obtain ⟨both, result⟩ := fail_of_terminal (R := R) consumed classified final hook
      rw [both, result, reports_captureFailure (fault failure classified),
        reports_recordDeadLetter]
      cases w.deadLetterRecorder.isSome <;> exact iff_of_true ⟨rfl, rfl, rfl⟩ fun _ => rfl

/-! ## A database that is away -/

def databaseAway : Thrown := .error ⟨.error, some "Error", "connect ECONNREFUSED", none⟩

/-- The observer and the recorder fail as well. -/
def sampleWorker (hook : Except Thrown Unit) : Worker Unit where
  workerName := "IncrementalSyncWorker"
  policy := .perMailboxPolicy
  classifyRunFailure := none
  onTerminalFailure := some fun _ _ _ => hook
  observer := ⟨fun _ _ _ => .error databaseAway, fun _ _ => .error databaseAway,
    fun _ => .error databaseAway⟩
  deadLetterRecorder := some fun _ => .error databaseAway

/-- The fifth attempt of five. -/
def sampleJob : Job Unit := ⟨some "j", "incremental-sync", (), some "m", 4, none⟩

def sampleFailure : Thrown := .error ⟨.transient, some "TransientError", "still 503", none⟩

def sampleRun (hook : Except Thrown Unit) : Traced Thrown Event Unit :=
  (sampleWorker hook).run sampleJob fun _ _ => ⟨.error sampleFailure, false⟩

theorem run_reports_once_sample :
    ReportsOnce (sampleWorker (.ok ())) sampleJob sampleFailure (sampleRun (.ok ())) :=
  (run_reports_once _ _ _ sampleFailure rfl rfl fun _ same => by cases same; rfl).mpr
    ⟨_, rfl, fun _ => rfl⟩

/-- The hook records the failed sync in the database, and its error hides the failure. -/
theorem run_unreported_sample :
    ¬ ReportsOnce (sampleWorker (.error databaseAway)) sampleJob sampleFailure
      (sampleRun (.error databaseAway)) := by
  rintro ⟨failure, classified, captures, -⟩
  obtain rfl := Except.ok.inj classified
  exact absurd captures (by decide)

end Worker
end DeclutrMail.Workers
