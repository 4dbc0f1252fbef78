import Mathlib.Data.List.Basic
import Mathlib.Data.Int.Notation
import DeclutrMail.Collections.InsertionMap
import DeclutrMail.Interleaving.Triple

/-!
# The outbox dispatcher

One process runs `OutboxDispatcherWorker`: ticks claim pending rows of `outbox_events`,
hand each to the consumer and record what came of it, all in one transaction. A consumer
call is raced against a deadline and abandoned when the deadline wins, but it keeps
running, and may settle at any later moment.

The world holds the committed table, the transaction of the tick in flight, the fields of
the dispatcher object, and every consumer call that was ever started. A call is started,
told to the dispatcher (`seen`) and settled at three different moments.

A transaction ends only when its callback has ended. A transaction that fails, at any
statement or at its commit, has written nothing.
-/

namespace DeclutrMail.Outbox

open Interleaving

/-- A random uuid. -/
abbrev EventId := ℕ

/-- The `n`-th call of the consumer. -/
abbrev CallId := ℕ

/-- An invocation of `tick`. -/
abbrev TickId := ℕ

inductive OutboxStatus where
  | pending
  | dispatched
  | failed
  deriving DecidableEq

/-- A row of `outbox_events`. -/
structure OutboxEvent where
  topic : String
  aggregateId : String
  status : OutboxStatus
  createdAt : ℤ
  dispatchedAt : Option ℤ
  attempts : ℕ
  lastError : Option String
  deriving DecidableEq

/-- What a consumer is called with: a row as it was claimed. -/
structure DispatchedEvent where
  id : EventId
  topic : String
  aggregateId : String
  attempts : ℕ
  createdAt : ℤ
  deriving DecidableEq

structure ErrorInfo where
  name : String
  message : String
  deriving DecidableEq

/-- What can be thrown inside a tick. `timeout` is `OutboxConsumerTimeoutError`. -/
inductive TickError where
  | consumer (e : ErrorInfo)
  | timeout (message : String)
  | database (e : ErrorInfo)
  | admission (e : ErrorInfo)
  deriving DecidableEq

def isOutboxTimeoutError : TickError → Bool
  | .timeout _ => true
  | _ => false

def TickError.info : TickError → ErrorInfo
  | .consumer e => e
  | .timeout message => ⟨"OutboxConsumerTimeoutError", message⟩
  | .database e => e
  | .admission e => e

def LAST_ERROR_MAX_LEN : ℕ := 1000

def truncateError (err : TickError) : String :=
  let raw := err.info.name ++ ": " ++ err.info.message
  if raw.length ≤ LAST_ERROR_MAX_LEN then raw
  else String.ofList (raw.toList.take (LAST_ERROR_MAX_LEN - 3)) ++ "..."

/-- The unit that must not run concurrently with itself. -/
abbrev Key := String × String

instance : LawfulBEq Key := inferInstanceAs (LawfulBEq (String × String))

def orphanGuardKey (event : DispatchedEvent) : Key := (event.topic, event.aggregateId)

def OutboxEvent.key (row : OutboxEvent) : Key := (row.topic, row.aggregateId)

/-- A call the dispatcher gave up waiting on. -/
structure Orphan where
  topic : String
  aggregateId : String
  eventId : EventId
  since : ℤ
  escalated : Bool
  call : CallId
  deriving DecidableEq

structure Settings where
  claimBatchSize : ℕ
  maxAttempts : ℕ
  maxPendingTicks : ℕ
  consumerTimeoutMs : ℕ
  timeoutStuckCeilingMs : ℕ

/-! ## The world -/

/-- How a consumer's promise settles. -/
inductive Settlement where
  | resolved
  | rejected (e : ErrorInfo)
  deriving DecidableEq

/-- What the race of a call against its deadline told the dispatcher. -/
inductive Outcome where
  | resolved
  | threw
  | timedOut
  deriving DecidableEq

structure Call where
  event : DispatchedEvent
  settled : Option Settlement
  seen : Option Outcome

/-- What reaches the observer. -/
inductive Report where
  | eventFailed (topic : String) (eventId : EventId)
  | consumerSettledAfterTimeout (topic : String) (eventId : EventId)
  | tickFailed
  deriving DecidableEq

/-- A table of rows. -/
abbrev Table := EventId → Option OutboxEvent

/-- The open transaction: the rows it has written, and those at its last savepoint. -/
structure Tx where
  written : Table
  saved : Table

structure World where
  rows : Table
  tx : Option Tx
  calls : List Call
  reports : List Report
  clock : ℤ
  inFlight : Option TickId
  pendingTickCalls : ℕ
  shuttingDown : Bool
  orphanedEvents : InsertionMap Key Orphan
  timeoutStuckSince : EventId → Option ℤ

namespace World

/-- A fresh dispatcher over the table it finds. -/
def boot (rows : Table) : World where
  rows := rows
  tx := none
  calls := []
  reports := []
  clock := 0
  inFlight := none
  pendingTickCalls := 0
  shuttingDown := false
  orphanedEvents := .empty
  timeoutStuckSince := fun _ => none

/-- Rows as the open transaction sees them. -/
def view (w : World) : Table := fun id =>
  match w.tx with
  | none => w.rows id
  | some tx => (tx.written id).or (w.rows id)

def mapTx (w : World) (f : Tx → Tx) : World := { w with tx := w.tx.map f }

/-- Write a row inside the open transaction. -/
def write (w : World) (id : EventId) (row : OutboxEvent) : World :=
  w.mapTx fun tx => { tx with written := Function.update tx.written id (some row) }

/-- Write a row outside any transaction. -/
def setRow (w : World) (id : EventId) (row : OutboxEvent) : World :=
  { w with rows := Function.update w.rows id (some row) }

def setOrphan (w : World) (key : Key) (orphan : Orphan) : World :=
  { w with orphanedEvents := w.orphanedEvents.set key orphan }

def setStreak (w : World) (id : EventId) (since : Option ℤ) : World :=
  { w with timeoutStuckSince := Function.update w.timeoutStuckSince id since }

/-- Record what the dispatcher was told about a call. -/
def see (w : World) (i : CallId) (o : Outcome) : World :=
  { w with calls := w.calls.modify i fun c => { c with seen := some o } }

/-- The promise of call `i` settles. A call that was abandoned reports a rejection and
clears its entry in the orphan guard. -/
def settle (w : World) (i : CallId) (c : Call) (s : Settlement) : World :=
  let key := orphanGuardKey c.event
  let late : List Report := match c.seen, s with
    | some .timedOut, .rejected _ => [.consumerSettledAfterTimeout c.event.topic c.event.id]
    | _, _ => []
  { w with
    calls := w.calls.set i { c with settled := some s }
    reports := w.reports ++ late
    orphanedEvents :=
      if (w.orphanedEvents.get key).any (·.call = i) then w.orphanedEvents.delete key
      else w.orphanedEvents }

end World

/-! ## What a tick awaits, and what it reads and writes between -/

/-- How an invocation of `tick` goes on. -/
inductive Entry where
  | refused
  | coalesced (t : TickId)
  | entered
  deriving DecidableEq

inductive Request where
  | enterTick
  | awaitInFlight (t : TickId)
  | leavePending
  | leaveTick
  | assertAdmission
  | beginTx
  | commit
  | rollback
  | savepoint
  | rollbackTo
  | claim (excluded : List Key)
  | markDispatched (id : EventId)
  | bumpAttempts (event : DispatchedEvent) (nextAttempts : ℕ) (lastError : String) (failed : Bool)
  | failStuck (id : EventId) (lastError : String)
  | consumer (event : DispatchedEvent)
  | race (i : CallId) (message : String)
  | trackOrphan (event : DispatchedEvent) (i : CallId)
  | orphanKeys
  | orphan (key : Key)
  | markEscalated (key : Key) (orphan : Orphan)
  | streak (id : EventId)
  | setStreak (id : EventId) (since : ℤ)
  | deleteStreak (id : EventId)
  | now
  | capture (r : Report)

abbrev Request.Answer : Request → Type
  | .enterTick => Entry
  | .claim _ => List DispatchedEvent
  | .bumpAttempts .. => Bool
  | .failStuck .. => Bool
  | .consumer _ => CallId
  | .orphanKeys => List Key
  | .orphan _ => Option Orphan
  | .streak _ => Option ℤ
  | .now => ℤ
  | _ => Unit

abbrev Sig : Signature := ⟨Request, Request.Answer, TickError⟩

abbrev await (q : Request) : Program Sig q.Answer := Program.perform (S := Sig) q

/-- `db.transaction`: a body that throws rolls back and rethrows. -/
def transaction {α : Type} (body : Program Sig α) : Program Sig α := do
  await .beginTx
  let a ← tryCatch body fun e => do
    await .rollback
    throw e
  await .commit
  return a

/-- `tx.transaction`: the same, inside a transaction. -/
def nested {α : Type} (body : Program Sig α) : Program Sig α := do
  await .savepoint
  tryCatch body fun e => do
    await .rollbackTo
    throw e

variable (s : Settings)

def timeoutMessage (event : DispatchedEvent) : String :=
  s!"Outbox consumer for topic \"{event.topic}\" (event {event.id}) exceeded {s.consumerTimeoutMs}ms"

def stuckMessage (orphan : Orphan) : String :=
  s!"Outbox consumer for topic \"{orphan.topic}\" (event {orphan.eventId}) never settled " ++
    s!"within timeoutStuckCeilingMs ({s.timeoutStuckCeilingMs}ms)"

def runConsumerWithOrphanGuard (event : DispatchedEvent) : Program Sig Unit := do
  let i ← await (.consumer event)
  tryCatch (await (.race i (timeoutMessage s event))) fun err => do
    .when (isOutboxTimeoutError err) (await (.trackOrphan event i))
    throw err

/-- A consumer throw whose attempt bookkeeping this tick committed. -/
structure ConsumerFailure where
  event : DispatchedEvent
  error : TickError
  attempts : ℕ
  failed : Bool
  timedOut : Bool

/-- When the unbroken timeout streak of an event began: now, if it has none. -/
def streakStartedAt (id : EventId) : Program Sig ℤ := do
  match ← await (.streak id) with
  | some since => return since
  | none => do
    let since ← await .now
    await (.setStreak id since)
    return since

/-- Whether a failure is a timeout whose streak has outlived the ceiling. A failure of
any other kind ends the streak. -/
def timeoutStreakExceededCeiling (id : EventId) (isTimeout : Bool) : Program Sig Bool :=
  if isTimeout then do
    let since ← streakStartedAt id
    let now ← await .now
    return decide ((s.timeoutStuckCeilingMs : ℤ) ≤ now - since)
  else do
    await (.deleteStreak id)
    return false

/-- The catch block of the loop in `runOneTick`. -/
def recordFailure (event : DispatchedEvent) (err : TickError) :
    Program Sig (List ConsumerFailure) := do
  let isTimeout := isOutboxTimeoutError err
  let nextAttempts := event.attempts + 1
  let exceeded ← timeoutStreakExceededCeiling s event.id isTimeout
  let shouldFail := exceeded || (!isTimeout && decide (s.maxAttempts ≤ nextAttempts))
  .when shouldFail (await (.deleteStreak event.id))
  let bumped ← await (.bumpAttempts event nextAttempts (truncateError err) shouldFail)
  return if bumped then [⟨event, err, nextAttempts, shouldFail, isTimeout⟩] else []

/-- The `try` block of the loop in `runOneTick`. -/
def deliver (event : DispatchedEvent) : Program Sig Unit := do
  nested do
    runConsumerWithOrphanGuard s event
    await (.markDispatched event.id)
  await (.deleteStreak event.id)

/-- One iteration of the loop in `runOneTick`. -/
def dispatchRow (event : DispatchedEvent) : Program Sig (List ConsumerFailure) := do
  match ← await (.orphan (orphanGuardKey event)) with
  | some _ => return []
  | none =>
    tryCatch (do deliver s event; return []) fun err => recordFailure s event err

def dispatchRows : List DispatchedEvent → Program Sig (List ConsumerFailure)
  | [] => return []
  | event :: events => do
    let failures ← dispatchRow s event
    let more ← dispatchRows events
    return failures ++ more

/-- The claim transaction, with the failures it collected. -/
def claimAndDispatch : Program Sig (List ConsumerFailure) :=
  transaction do
    let excluded ← await .orphanKeys
    let events ← await (.claim excluded)
    dispatchRows s events

def reportConsumerFailure (f : ConsumerFailure) : Program Sig Unit :=
  .when f.failed (await (.capture (.eventFailed f.event.topic f.event.id)))

def reportConsumerFailures : List ConsumerFailure → Program Sig Unit
  | [] => return ()
  | f :: fs => do
    reportConsumerFailure f
    reportConsumerFailures fs

def logTickError (_ : TickError) : Program Sig Unit := await (.capture .tickFailed)

/-- One iteration of the loop in `escalateStuckOrphans`. -/
def escalate (startedAt : ℤ) (key : Key) : Program Sig Unit := do
  match ← await (.orphan key) with
  | none => return ()
  | some orphan =>
    .when (!orphan.escalated && decide (s.timeoutStuckCeilingMs ≤ startedAt - orphan.since)) do
      let stuckError := TickError.timeout (stuckMessage s orphan)
      let bumped ← await (.failStuck orphan.eventId (truncateError stuckError))
      await (.markEscalated key orphan)
      await (.deleteStreak orphan.eventId)
      .when bumped (await (.capture (.eventFailed orphan.topic orphan.eventId)))

def escalateAll (startedAt : ℤ) : List Key → Program Sig Unit
  | [] => return ()
  | key :: keys => do
    escalate s startedAt key
    escalateAll startedAt keys

/-- The map is only added to by the loop of the same tick, so the keys the iteration will
visit are those it has at the start; a key that is gone when its turn comes is skipped. -/
def escalateStuckOrphans : Program Sig Unit := do
  let startedAt ← await .now
  let keys ← await .orphanKeys
  escalateAll s startedAt keys

def runOneTick : Program Sig Unit := do
  tryCatch
    (do
      await .assertAdmission
      let failures ← claimAndDispatch s
      reportConsumerFailures failures)
    logTickError
  tryCatch (escalateStuckOrphans s) logTickError

def tick : Program Sig Unit := do
  match ← await .enterTick with
  | .refused => return ()
  | .coalesced t =>
    await (.awaitInFlight t)
    await .leavePending
  | .entered => (runOneTick s).ensure (await .leaveTick)

/-! ## The effect of each request -/

/-- What the world may decide when it answers. -/
inductive Choice where
  | go
  | fail (e : ErrorInfo)
  | pick (ids : List EventId)
  | deadline

def toEvent (id : EventId) (row : OutboxEvent) : DispatchedEvent :=
  ⟨id, row.topic, row.aggregateId, row.attempts, row.createdAt⟩

/-- A row the claim query may return. -/
def Claimable (rows : Table) (excluded : List Key) (id : EventId) : Prop :=
  ∃ row, rows id = some row ∧ row.status = .pending ∧ row.key ∉ excluded

instance (rows : Table) (excluded : List Key) (id : EventId) :
    Decidable (Claimable rows excluded id) :=
  match h : rows id with
  | none => isFalse fun ⟨row, hr, _⟩ => by simp [h] at hr
  | some row => decidable_of_iff (row.status = .pending ∧ row.key ∉ excluded)
      ⟨fun ok => ⟨row, h, ok⟩, fun ⟨row', hr, ok⟩ => by
        obtain rfl : row = row' := by simpa [h] using hr
        exact ok⟩

/-- The answers of the claim query: `SKIP LOCKED` may pass over any row. -/
structure ClaimResult (limit : ℕ) (rows : Table) (excluded : List Key) (ids : List EventId) :
    Prop where
  nodup : ids.Nodup
  limit : ids.length ≤ limit
  claimable : ∀ id ∈ ids, Claimable rows excluded id
  fifo : (ids.filterMap rows).Pairwise fun a b => a.createdAt ≤ b.createdAt

instance (limit : ℕ) (rows : Table) (excluded : List Key) (ids : List EventId) :
    Decidable (ClaimResult limit rows excluded ids) :=
  decidable_of_iff (ids.Nodup ∧ ids.length ≤ limit ∧ (∀ id ∈ ids, Claimable rows excluded id) ∧
      (ids.filterMap rows).Pairwise fun a b => a.createdAt ≤ b.createdAt)
    ⟨fun ⟨a, b, c, d⟩ => ⟨a, b, c, d⟩, fun ⟨a, b, c, d⟩ => ⟨a, b, c, d⟩⟩

/-- The row that an `UPDATE ... WHERE status = 'pending' AND attempts = n` would change. -/
def guarded (row : Option OutboxEvent) (attempts : ℕ) : Option OutboxEvent :=
  row.filter fun r => r.status = .pending ∧ r.attempts = attempts

/-- One request of tick `t`. Statements fail only when `faults` allows it. -/
def answer (faults : Bool) (t : TickId) (q : Request) (ch : Choice) (w : World) :
    Option (Except TickError q.Answer × World) :=
  match q, ch with
  | .enterTick, .go =>
    if w.shuttingDown then some (.ok .refused, w)
    else match w.inFlight with
      | some t' =>
        if s.maxPendingTicks ≤ w.pendingTickCalls then some (.ok .refused, w)
        else some (.ok (.coalesced t'), { w with pendingTickCalls := w.pendingTickCalls + 1 })
      | none => some (.ok .entered, { w with inFlight := some t })
  | .awaitInFlight t', .go => if w.inFlight = some t' then none else some (.ok (), w)
  | .leavePending, .go => some (.ok (), { w with pendingTickCalls := w.pendingTickCalls - 1 })
  | .leaveTick, .go => some (.ok (), { w with inFlight := none })
  | .assertAdmission, .go => some (.ok (), w)
  | .assertAdmission, .fail e => some (.error (.admission e), w)
  | .beginTx, .go =>
    if w.tx.isSome then none
    else some (.ok (), { w with tx := some ⟨fun _ => none, fun _ => none⟩ })
  | .beginTx, .fail e => if faults then some (.error (.database e), w) else none
  | .commit, .go => some (.ok (), { w with rows := w.view, tx := none })
  | .commit, .fail e =>
    if faults then some (.error (.database e), { w with tx := none }) else none
  | .rollback, .go => some (.ok (), { w with tx := none })
  | .savepoint, .go => some (.ok (), w.mapTx fun tx => { tx with saved := tx.written })
  | .savepoint, .fail e => if faults then some (.error (.database e), w) else none
  | .rollbackTo, .go => some (.ok (), w.mapTx fun tx => { tx with written := tx.saved })
  | .rollbackTo, .fail e => if faults then some (.error (.database e), w) else none
  | .claim excluded, .pick ids =>
    if ClaimResult s.claimBatchSize w.view excluded ids then
      some (.ok (ids.filterMap fun id => (w.view id).map (toEvent id)), w)
    else none
  | .claim _, .fail e => if faults then some (.error (.database e), w) else none
  | .markDispatched id, .go =>
    match w.view id with
    | some row =>
      some (.ok (), w.write id { row with status := .dispatched, dispatchedAt := some w.clock })
    | none => some (.ok (), w)
  | .markDispatched _, .fail e => if faults then some (.error (.database e), w) else none
  | .bumpAttempts event nextAttempts lastError failed, .go =>
    match guarded (w.view event.id) event.attempts with
    | some row => some (.ok true, w.write event.id { row with
        attempts := nextAttempts
        lastError := some lastError
        status := if failed then .failed else row.status })
    | none => some (.ok false, w)
  | .bumpAttempts .., .fail e => if faults then some (.error (.database e), w) else none
  | .failStuck id lastError, .go =>
    match (w.rows id).filter (·.status = .pending) with
    | some row =>
      some (.ok true, w.setRow id { row with status := .failed, lastError := some lastError })
    | none => some (.ok false, w)
  | .failStuck .., .fail e => if faults then some (.error (.database e), w) else none
  | .consumer event, .go =>
    some (.ok w.calls.length, { w with calls := w.calls ++ [⟨event, none, none⟩] })
  | .race i _, .go =>
    match (w.calls[i]?).bind (·.settled) with
    | none => none
    | some .resolved => some (.ok (), w.see i .resolved)
    | some (.rejected e) => some (.error (.consumer e), w.see i .threw)
  | .race i message, .deadline =>
    match (w.calls[i]?).bind (·.settled) with
    | none => some (.error (.timeout message), w.see i .timedOut)
    | some _ => none
  | .trackOrphan event i, .go =>
    -- a promise that has settled meanwhile clears its entry at once
    if ((w.calls[i]?).bind (·.settled)).isSome then some (.ok (), w)
    else some (.ok (), w.setOrphan (orphanGuardKey event)
      ⟨event.topic, event.aggregateId, event.id, w.clock, false, i⟩)
  | .orphanKeys, .go => some (.ok w.orphanedEvents.keys, w)
  | .orphan key, .go => some (.ok (w.orphanedEvents.get key), w)
  | .markEscalated key orphan, .go =>
    if w.orphanedEvents.get key = some orphan then
      some (.ok (), w.setOrphan key { orphan with escalated := true })
    else some (.ok (), w)
  | .streak id, .go => some (.ok (w.timeoutStuckSince id), w)
  | .setStreak id since, .go => some (.ok (), w.setStreak id (some since))
  | .deleteStreak id, .go => some (.ok (), w.setStreak id none)
  | .now, .go => some (.ok w.clock, w)
  | .capture r, .go => some (.ok (), { w with reports := w.reports ++ [r] })
  | _, _ => none

theorem answer_now {faults : Bool} {t : TickId} {w : World} :
    answer s faults t .now .go w = some (.ok w.clock, w) := by simp [answer]

/-! ## The system -/

/-- What happens around the dispatcher. -/
inductive Event where
  | clock (now : ℤ)
  | publish (id : EventId) (topic aggregateId : String) (createdAt : ℤ)
  | settle (i : CallId) (s : Settlement)
  | stop
  | start

def published (topic aggregateId : String) (createdAt : ℤ) : OutboxEvent :=
  ⟨topic, aggregateId, .pending, createdAt, none, 0, none⟩

def disturb (e : Event) (w : World) : Option World :=
  match e with
  | .clock now => some { w with clock := now }
  | .publish id topic aggregateId createdAt =>
    match w.rows id with
    | none => some (w.setRow id (published topic aggregateId createdAt))
    | some _ => none
  | .settle i st =>
    match w.calls[i]? with
    | some c => if c.settled.isSome then none else some (w.settle i c st)
    | none => none
  | .stop => some { w with shuttingDown := true }
  | .start => some { w with shuttingDown := false }

/-- Every invocation of `tick` is a thread of its own. -/
abbrev dispatcher (faults : Bool) : System Sig where
  World := World
  Thread := TickId
  Task := Unit
  Outcome := Unit
  Choice := Choice
  Event := Event
  code := fun _ => tick s
  accept := fun _ _ w => some w
  answer := answer s faults
  settle := fun _ _ w => some w
  crash := fun _ _ => none
  disturb := disturb

end DeclutrMail.Outbox
