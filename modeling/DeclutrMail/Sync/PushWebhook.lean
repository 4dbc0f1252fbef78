import DeclutrMail.Interleaving.Turns
import DeclutrMail.Sync.CoalescedQueue

/-!
# Gmail pushes

`processVerifiedPush` plans a history range in one transaction and then enqueues the
incremental sync of one mailbox through `addCoalescedJob`, as the other producers do. The other
processes are events: BullMQ's workers, the sync that moves the cursor, changes of the mailbox.

The logs are left out, and `mailbox_account_id` of the dedup row.
-/

namespace DeclutrMail.Sync.Push

open Interleaving

abbrev MessageId := String

structure GmailPubSubPayload where
  emailAddress : String
  historyId : ℕ

inductive ReadinessStatus
  | queued
  | syncing
  | ready
  | failed
  deriving DecidableEq

/-- A row of `provider_sync_state`. -/
structure ProviderSyncState where
  lastHistoryId : Option ℕ
  readinessStatus : ReadinessStatus

inductive HistorySyncPlanResult
  | uninitialized
  | deferredInitialSyncInFlight
  | stale (lastHistoryId : ℕ)
  | ready (previousHistoryId : ℕ)

/-- What a push answers; `κ` is what is known of the enqueue. -/
inductive ProcessOutcome (κ : Type) where
  | duplicateMessageId (messageId : MessageId)
  | unknownMailbox (emailAddress : String)
  | deletionPending
  | syncStateUninitialized
  | staleHistoryId (lastHistoryId incomingHistoryId : ℕ)
  | deferredInitialSyncInFlight (incomingHistoryId : ℕ)
  | enqueued (previousHistoryId historyId : ℕ) (queue : κ)

inductive AddOutcome
  | added
  | noop
  deriving DecidableEq

inductive QueueOutcome
  | added
  | coalesced
  | failed
  deriving DecidableEq

inductive Error
  | database
  | redis
  | noJobId
  deriving DecidableEq

inductive Request
  | insertDedup (messageId : MessageId)
  | selectMailbox (emailAddress : String)
  | updateDedup (messageId : MessageId)
  | selectSyncState
  | rollback
  | commit
  | add (data : IncrementalSyncJobData)
  | getJob (id : JobId)
  | getState (id : JobId)
  | removeDeduplicationKey (id : JobId)

/-- `selectMailbox` finds whether a deletion is pending. The answer to `add` is the id that was
asked for and that of the job handed back; `getJob` finds `processedOn`, and `getState` comes
with the time. -/
abbrev Request.Answer : Request → Type
  | .insertDedup _ => Bool
  | .selectMailbox _ => Option Bool
  | .selectSyncState => Option ProviderSyncState
  | .add _ => JobId × Option JobId
  | .getJob _ => Option (Option ℕ)
  | .getState _ => Option JobState × ℕ
  | .removeDeduplicationKey _ => Bool
  | _ => Unit

abbrev Sig : Signature := ⟨Request, Request.Answer, Error⟩

abbrev Prog (α : Type) := Program Sig α

abbrev await (q : Request) : Prog q.Answer := Program.perform (S := Sig) q

/-! ## `addCoalescedJob` -/

def coalescedStuckActiveMs : ℕ := 30 * 60000

structure Added where
  added : Bool
  holderId : JobId

def add (data : IncrementalSyncJobData) : Prog Added := do
  let (jobId, returned) ← await (.add data)
  match returned with
  | none => throw .noJobId
  | some id => return ⟨decide (id = jobId), id⟩

/-- What is seen of the job that absorbed an add; no state is `unknown`. -/
structure HolderSeen where
  state : Option JobState
  activeForMs : ℕ

def HolderSeen.stuck (seen : HolderSeen) : Bool := coalescedStuckActiveMs < seen.activeForMs

/-- It is there and will run, or is followed. -/
def HolderSeen.absorbs (seen : HolderSeen) : Bool :=
  !seen.stuck && seen.state.any fun state => decide (state ≠ .completed ∧ state ≠ .failed)

def inspect (id : JobId) : Option (Option ℕ) → Prog HolderSeen
  | none => return ⟨none, 0⟩
  | some processedOn => do
    let (state, now) ← await (.getState id)
    return ⟨state, if state = some .active then (processedOn.map (now - ·)).getD 0 else 0⟩

/-- The key is taken off the holder, and the add repeated. -/
def retake (data : IncrementalSyncJobData) (holderId : JobId) : Prog AddOutcome := do
  let cleared ← await (.removeDeduplicationKey holderId)
  if cleared then do
    let again ← add data
    return if again.added then .added else .noop
  else return .noop

def addCoalescedJob (data : IncrementalSyncJobData) : Prog AddOutcome := do
  let first ← add data
  if first.added then return .added
  else do
    let holder ← await (.getJob first.holderId)
    let seen ← inspect first.holderId holder
    if seen.absorbs then return .noop else retake data first.holderId

/-! ## `processVerifiedPush` -/

def planHistorySync (incomingHistoryId : ℕ) : Prog HistorySyncPlanResult := do
  match ← await .selectSyncState with
  | none => return .uninitialized
  | some row =>
    match row.lastHistoryId with
    | none => return .deferredInitialSyncInFlight
    | some previous =>
      if row.readinessStatus ≠ .ready then return .deferredInitialSyncInFlight
      else if incomingHistoryId ≤ previous then return .stale previous
      else return .ready previous

def outcomeOf (incomingHistoryId : ℕ) : HistorySyncPlanResult → ProcessOutcome Unit
  | .uninitialized => .syncStateUninitialized
  | .stale last => .staleHistoryId last incomingHistoryId
  | .deferredInitialSyncInFlight => .deferredInitialSyncInFlight incomingHistoryId
  | .ready previous => .enqueued previous incomingHistoryId ()

/-- The body of the transaction. -/
def planPush (messageId : MessageId) (payload : GmailPubSubPayload) :
    Prog (ProcessOutcome Unit) := do
  let inserted ← await (.insertDedup messageId)
  if inserted then do
    match ← await (.selectMailbox payload.emailAddress) with
    | none => return .unknownMailbox payload.emailAddress
    | some true => return .deletionPending
    | some false => do
      await (.updateDedup messageId)
      let plan ← planHistorySync payload.historyId
      return outcomeOf payload.historyId plan
  else return .duplicateMessageId messageId

def transaction {α : Type} (p : Prog α) : Prog α := do
  let a ← tryCatch p fun e => do
    await .rollback
    throw e
  await .commit
  return a

def AddOutcome.queue : AddOutcome → QueueOutcome
  | .added => .added
  | .noop => .coalesced

/-- The enqueue after the commit; its failure is logged. -/
def enqueue (data : IncrementalSyncJobData) : Prog QueueOutcome :=
  tryCatch (do
    let result ← addCoalescedJob data
    return result.queue) fun _ => return .failed

def answerPush : ProcessOutcome Unit → Prog (ProcessOutcome QueueOutcome)
  | .enqueued previous historyId () => do
    let queue ← enqueue ⟨previous, historyId⟩
    return .enqueued previous historyId queue
  | .duplicateMessageId messageId => return .duplicateMessageId messageId
  | .unknownMailbox emailAddress => return .unknownMailbox emailAddress
  | .deletionPending => return .deletionPending
  | .syncStateUninitialized => return .syncStateUninitialized
  | .staleHistoryId last incoming => return .staleHistoryId last incoming
  | .deferredInitialSyncInFlight incoming => return .deferredInitialSyncInFlight incoming

def processVerifiedPush (messageId : MessageId) (payload : GmailPubSubPayload) :
    Prog (ProcessOutcome QueueOutcome) := do
  let outcome ← transaction (planPush messageId payload)
  answerPush outcome

/-! ## The world -/

structure Mailbox where
  emailAddress : String
  active : Bool
  deletionPending : Bool

/-- What is remembered of a call: when its first add took effect, the holder whose key it is
about to take off, whether a job that starts after that add was stored when the queue last
answered, and the applied cursor of a ready mailbox that it read. -/
structure Call where
  firstAdd : Option ℕ
  inspected : Option JobId
  covered : Bool
  applied : Option ℕ

def Call.new : Call := ⟨none, none, false, none⟩

structure World where
  mailbox : Mailbox
  syncState : Option ProviderSyncState
  dedup : List MessageId
  /-- The rows of open transactions -/
  inserted : List (ℕ × MessageId)
  syncLock : Option ℕ
  queue : Queue
  clock : ℕ
  calls : ℕ → Call
  underWay : List ℕ

namespace World

/-- Nothing has happened yet. -/
def initial (mailbox : Mailbox) (syncState : Option ProviderSyncState) (queue : Queue) :
    World where
  mailbox := mailbox
  syncState := syncState
  dedup := []
  inserted := []
  syncLock := none
  queue := queue
  clock := 0
  calls _ := .new
  underWay := []

def setCall (w : World) (t : ℕ) (call : Call) : World :=
  { w with calls := Function.update w.calls t call }

/-- The transaction of a call is over. -/
def close (w : World) (t : ℕ) : World :=
  { w with
    inserted := w.inserted.filter fun row => row.1 ≠ t
    syncLock := if w.syncLock = some t then none else w.syncLock }

def commit (w : World) (t : ℕ) : World :=
  { w.close t with
    dedup := ((w.inserted.filter fun row => row.1 = t).map Prod.snd) ++ w.dedup }

/-- A call ends. -/
def leave (w : World) (t : ℕ) : World :=
  { (w.close t).setCall t .new with underWay := w.underWay.filter (· ≠ t) }

/-- The queue has answered a call whose first add was at `firstAdd`. -/
def answered (w : World) (t : ℕ) (queue : Queue) (firstAdd : ℕ) (inspected : Option JobId) :
    World :=
  { w.setCall t ⟨some firstAdd, inspected, decide (queue.covers firstAdd), (w.calls t).applied⟩ with
    queue := queue }

def since (w : World) (t : ℕ) : ℕ := (w.calls t).firstAdd.getD w.queue.now

/-- The applied cursor. -/
def applied (w : World) : Option ℕ :=
  w.syncState.bind fun row => if row.readinessStatus = .ready then row.lastHistoryId else none

end World

/-! ## The system -/

/-- A request as it takes effect. -/
def effect (t : ℕ) (w : World) : (q : Request) → Option (q.Answer × World)
  | .insertDedup messageId =>
    -- The insert waits for a transaction that has the same key.
    if w.inserted.any fun row => decide (row.1 ≠ t ∧ row.2 = messageId) then none
    else if messageId ∈ w.dedup then some (false, w)
    else some (true, { w with inserted := (t, messageId) :: w.inserted })
  | .selectMailbox emailAddress =>
    some (if w.mailbox.emailAddress = emailAddress ∧ w.mailbox.active then
      some w.mailbox.deletionPending else none, w)
  | .updateDedup _ => some ((), w)
  | .selectSyncState =>
    -- `FOR UPDATE`
    if w.syncLock.all (· = t) then
      some (w.syncState,
        { w.setCall t { w.calls t with applied := w.applied } with
          syncLock := if w.syncState.isSome then some t else w.syncLock })
    else none
  | .rollback => some ((), w.close t)
  | .commit => some ((), w.commit t)
  | .add data =>
    let (ids, queue) := w.queue.add data
    some ((ids.1, some ids.2), w.answered t queue ((w.calls t).firstAdd.getD queue.now) none)
  | .getJob id =>
    some ((w.queue.jobs id).map (·.processedOn),
      w.answered t w.queue (w.since t) (if w.queue.jobs id = none then some id else none))
  | .getState id =>
    some (((w.queue.jobs id).map (·.state), w.clock),
      w.answered t w.queue (w.since t) (some id))
  | .removeDeduplicationKey id =>
    let (cleared, queue) := w.queue.removeKey id
    some (cleared, w.answered t queue (w.since t) none)

inductive Choice
  | go
  | lost
  | fail

def Request.error : Request → Error
  | .add _ | .getJob _ | .getState _ | .removeDeduplicationKey _ => .redis
  | _ => .database

/-- A request that fails without effect. A transaction that cannot be committed is rolled
back, and a connection that fails a rollback has ended. -/
def missed (t : ℕ) (w : World) : Request → World
  | .commit | .rollback => w.close t
  | _ => w

def answer (t : ℕ) (q : Request) (c : Choice) (w : World) :
    Option (Except Error q.Answer × World) :=
  match c with
  | .go => (effect t w q).map fun r => (.ok r.1, r.2)
  | .lost => (effect t w q).map fun r => (.error q.error, r.2)
  | .fail => some (.error q.error, missed t w q)

inductive Task
  | push (messageId : MessageId) (payload : GmailPubSubPayload)
  | produce (data : IncrementalSyncJobData)

inductive Returned
  | pushed (outcome : ProcessOutcome QueueOutcome)
  | produced (outcome : AddOutcome)

def code : Task → Prog Returned
  | .push messageId payload => do
    let outcome ← processVerifiedPush messageId payload
    return .pushed outcome
  | .produce data => do
    let outcome ← addCoalescedJob data
    return .produced outcome

/-- `addCoalescedJob` returned. -/
def Returned.promises : Returned → Bool
  | .pushed (.enqueued _ _ queue) => decide (queue ≠ .failed)
  | .pushed _ => false
  | .produced _ => true

/-- What other processes do. Where the key names another job than the one that settles, `moves`
says whether it moves on. -/
inductive Event
  | start (id : JobId)
  | retry (id : JobId)
  | settle (id : JobId) (completes moves : Bool)
  | lose (id : JobId)
  | pass (ms : ℕ)
  | setMailbox (mailbox : Mailbox)
  | setSyncState (syncState : Option ProviderSyncState)
  | expireDedup (messageId : MessageId)

def disturb (w : World) : Event → Option World
  | .start id => (w.queue.start id w.clock).map fun queue => { w with queue := queue }
  | .retry id => (w.queue.retry id).map fun queue => { w with queue := queue }
  | .settle id completes moves =>
    (w.queue.settle id completes moves).map fun queue => { w with queue := queue }
  | .lose id => some { w with queue := w.queue.lose id }
  | .pass ms => some { w with clock := w.clock + ms }
  | .setMailbox mailbox => some { w with mailbox := mailbox }
  | .setSyncState syncState =>
    if w.syncLock = none then some { w with syncState := syncState } else none
  | .expireDedup messageId => some { w with dedup := w.dedup.filter (· ≠ messageId) }

def system : System Sig where
  World := World
  Thread := ℕ
  Task := Task
  Outcome := Returned
  Choice := Choice
  Event := Event
  code := code
  accept t _ w := some { w with underWay := t :: w.underWay }
  answer := answer
  settle t _ w := some (w.leave t)
  crash t w := some (w.leave t)
  disturb e w := disturb w e

end DeclutrMail.Sync.Push
