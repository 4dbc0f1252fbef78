import DeclutrMail.Actions.RowLocks
import DeclutrMail.Interleaving.Triple
import DeclutrMail.Unsubscribe.Tables

/-!
# Intents to unsubscribe

`recordUnsubscribeIntent`, statement by statement. A post looks for an earlier post of its key and
for an execution that is still live, both before its transaction; the transaction looks for the
earlier post again, reserves the key of the intent and of its execution, and writes what goes with
them. The execution is handed to the queue after the commit.

The tables are those of one mailbox, apart from the jobs. `ledger` remembers what each key's posts
have committed. Posts run on any number of threads, beside whatever else the application does.
-/

namespace DeclutrMail.Unsubscribe

open Interleaving Actions Senders

structure JobRow extends ActionRow where
  createdAt : ℤ
  deriving DecidableEq

structure IntentRequest where
  mailboxAccountId : MailboxId
  senderId : String
  idempotencyKey : String
  includesBacklogAction : Bool
  skipCleanupCharge : Bool
  compositeId : Option ActionId
  override : Bool
  deriving DecidableEq

/-- `unsub:` keys the intent. -/
def namespacedKey (idempotencyKey : String) : String := "unsub:" ++ idempotencyKey

/-- `unsubexec-` keys the execution. -/
def executionKey (idempotencyKey : String) : String := "unsubexec-" ++ safeKey idempotencyKey

/-- One write of a post's transaction. -/
inductive Change
  | job (row : JobRow)
  | policy (senderKey : SenderKey) (status : UnsubStatus) (now : ℤ)
  | activity (row : ActivityRow)
  | intent (id : ActionId) (activityLogId : String)
  | event (event : IntentRecorded)
  | failJob (id : ActionId)
  | failPolicy (senderKey : SenderKey) (now : ℤ)
  deriving DecidableEq

/-- `post` is the idempotency key of the post that writes. -/
structure Write where
  post : String
  change : Change
  deriving DecidableEq

structure Store where
  senders : List Sender
  jobs : List JobRow
  policies : SenderKey → Option Policy
  activity : List ActivityRow
  outbox : List IntentRecorded
  ledger : List Write

namespace Store

variable (s : Store)

def updateJobs (chosen : JobRow → Bool) (change : ActionRow → ActionRow) : List JobRow :=
  s.jobs.map fun row => if chosen row then { row with toActionRow := change row.toActionRow } else row

/-- The upsert of the policy. -/
def upsertPolicy (senderKey : SenderKey) (status : UnsubStatus) (now : ℤ) :
    SenderKey → Option Policy :=
  Function.update s.policies senderKey <| some <| match s.policies senderKey with
    | none => ⟨some .unsubscribe, some status, false, now⟩
    | some policy => { policy with
        policyType := some .unsubscribe
        unsubStatus := some status
        updatedAt := now }

/-- A policy whose request has not been sent fails. -/
def failPolicy (senderKey : SenderKey) (now : ℤ) : SenderKey → Option Policy :=
  Function.update s.policies senderKey <| (s.policies senderKey).map fun policy =>
    if policy.unsubStatus ∈ [some .pending, some .requested] then
      { policy with unsubStatus := some .failed, updatedAt := now }
    else policy

def change (s : Store) : Change → Store
  | .job row => { s with jobs := s.jobs ++ [row] }
  | .policy senderKey status now => { s with policies := s.upsertPolicy senderKey status now }
  | .activity row => { s with activity := s.activity ++ [row] }
  | .intent id activityLogId => { s with
      jobs := s.updateJobs (·.id = id) fun row =>
        { row with resolvedMessageIds := [activityLogId] } }
  | .event event => { s with outbox := s.outbox ++ [event] }
  | .failJob id => { s with
      jobs := s.updateJobs (·.id = id) fun row =>
        { row with status := .failed, errorCode := some enqueueFailedErrorCode } }
  | .failPolicy senderKey now => { s with policies := s.failPolicy senderKey now }

def apply (s : Store) (write : Write) : Store :=
  { s.change write.change with ledger := s.ledger ++ [write] }

end Store

/-! ## The method of a sender -/

/-- A method without its URL is none. -/
def Sender.method (sender : Sender) : UnsubscribeMethod :=
  if sender.unsubscribeMethod = some .oneClick ∧ sender.hasUrl = true then .oneClick
  else if sender.unsubscribeMethod = some .mailto ∧ sender.hasUrl = true then .mailto
  else .none

def initialUnsubscribeLifecycleStatus : UnsubscribeMethod → UnsubStatus
  | .oneClick => .requested
  | .mailto => .actionRequired
  | .none => .unavailable

def normalizeUnsubscribeLifecycleStatus : Option UnsubStatus → Option UnsubStatus
  | some .pending => some .requested
  | some .done => some .endpointAccepted
  | some .ambiguous => some .unconfirmed
  | status => status

/-! ## Statements -/

inductive Statement
  | selectSender (senderId : String)
  | selectIsProtected (senderKey : SenderKey)
  | selectOwners (keys : List String)
  | selectJob (key : String) (mailboxAccountId : MailboxId)
  | selectLive (mailboxAccountId : MailboxId) (senderKey : SenderKey)
  | selectUnsubStatus (senderKey : SenderKey)
  | lockCleanupWorkspace
  | assertCleanupCapacity (units : ℕ)
  | insertJob (post : String) (row : ActionRow)
  | upsertPolicy (post : String) (senderKey : SenderKey) (status : UnsubStatus)
  | insertActivity (post : String) (senderKey : SenderKey) (action : ActivityAction)
      (actionJobId : Option ActionId)
  | updateIntent (post : String) (id : ActionId) (activityLogId : String)
  | publish (post : String) (event : IntentRecorded)
  | commit
  | rollback
  | add (actionId : ActionId)
  | failJob (post : String) (actionId : ActionId) (mailboxAccountId : MailboxId)
  | failPolicy (post : String) (senderKey : SenderKey)
  deriving DecidableEq

abbrev Statement.Answer : Statement → Type
  | .selectSender _ => Option Sender
  | .selectIsProtected _ => Bool
  | .selectOwners _ => List JobRow
  | .selectJob .. => Option JobRow
  | .selectLive .. => Bool
  | .selectUnsubStatus _ => Option UnsubStatus
  | .insertJob .. => Option ActionId
  | .insertActivity .. => ActivityRow
  | .failJob .. => Bool
  | _ => Unit

abbrev IntentSignature : Signature := ⟨Statement, Statement.Answer, ServiceError⟩

abbrev IntentProgram (α : Type) := Program IntentSignature α

def run (q : Statement) : IntentProgram q.Answer := Program.perform (S := IntentSignature) q

/-- `db.transaction` -/
def transaction {α : Type} (body : IntentProgram α) : IntentProgram α := do
  let a ← tryCatch body fun e => do
    run .rollback
    throw e
  run .commit
  return a

/-! ## The post -/

def senderNotFound : ServiceError :=
  ⟨404, "SENDER_NOT_FOUND", "We couldn’t find this sender in this Gmail account."⟩

def channelUnknown : ServiceError :=
  ⟨409, "UNSUBSCRIBE_CHANNEL_UNKNOWN",
    "This sender hasn’t been checked for an unsubscribe option yet."⟩

def inFlight : ServiceError :=
  ⟨409, "UNSUBSCRIBE_IN_FLIGHT", "An unsubscribe request to this sender is already on its way."⟩

structure IntentResult where
  senderId : String
  recordedAt : ℤ
  activityLogId : String
  lifecycleStatus : UnsubStatus
  method : UnsubscribeMethod
  executionActionId : Option ActionId
  mailtoUrl : Option String
  deriving DecidableEq

/-- A post, on a server with or without a queue and with the sending switched on or off. -/
structure Post where
  request : IntentRequest
  unsubQueue : Bool
  unsubSendsEnabled : Bool
  deriving DecidableEq

namespace IntentRequest

variable (request : IntentRequest) (senderKey : SenderKey)

def namespaced : String := namespacedKey request.idempotencyKey

def execution : String := executionKey request.idempotencyKey

def belongsToThisRequest (row : ActionRow) : Bool :=
  row.mailboxAccountId = request.mailboxAccountId && row.verb = .unsubscribe &&
    row.selector = .sender request.senderId senderKey

/-- An execution without its intent is another key's. -/
def ownsKeys (rows : List JobRow) : Bool :=
  let intentOwner := rows.find? (·.idempotencyKey = request.namespaced)
  let executionOwner := rows.find? (·.idempotencyKey = request.execution)
  intentOwner.all (fun row => request.belongsToThisRequest senderKey row.toActionRow) &&
    executionOwner.all fun row =>
      request.belongsToThisRequest senderKey row.toActionRow && intentOwner.isSome

def assertKeyOwners : IntentProgram Unit := do
  let rows ← run (.selectOwners [request.namespaced, request.execution])
  .when (!request.ownsKeys senderKey rows) (throw .idempotencyKeyConflict)

/-- The row that reserves the key; its status is no success for a sender without a channel. -/
def intentRow (method : UnsubscribeMethod) : ActionRow where
  id := 0
  mailboxAccountId := request.mailboxAccountId
  verb := .unsubscribe
  direction := .forward
  selector := .sender request.senderId senderKey
  resolvedMessageIds := []
  requestedCount := 0
  affectedCount := 0
  status := if method = .none then .failed else .done
  idempotencyKey := request.namespaced
  undoToken := none
  errorCode := none
  compositeId := request.compositeId
  wakeAt := none
  reach := .inboxOnly

end IntentRequest

/-- What a transaction has found or recorded. -/
structure Recorded where
  recordedAt : ℤ
  activityLogId : String
  execution : Option (ActionId × JobStatus)

section Code

variable (request : IntentRequest) (sender : Sender)

/-- An intent that is there is projected with its execution. -/
def cachedIntent (intent : JobRow) : IntentProgram Recorded :=
  match intent.resolvedMessageIds with
  | [] => throw .idempotencyKeyConflict
  | activityLogId :: _ => do
    let execution ← run (.selectJob request.execution request.mailboxAccountId)
    return ⟨intent.createdAt, activityLogId, execution.map fun row => (row.id, row.status)⟩

/-- An execution that has not begun fails. -/
def failExecution (actionId : ActionId) : IntentProgram Unit := do
  let failed ← run (.failJob request.idempotencyKey actionId request.mailboxAccountId)
  .when failed (do
    run (.failPolicy request.idempotencyKey sender.senderKey)
    let _ ← run (.insertActivity request.idempotencyKey sender.senderKey .unsubscribeFailed none)
    return ())

def enqueueUnsubExecution (actionId : ActionId) : IntentProgram Unit :=
  tryCatch (run (.add actionId)) fun e => do
    transaction (failExecution request sender actionId)
    throw (enqueueFailed e.message)

def enqueueQueued (recorded : Recorded) : IntentProgram Unit :=
  match recorded.execution with
  | some (actionId, .queued) =>
    .when (sender.method = .oneClick) (enqueueUnsubExecution request sender actionId)
  | _ => return ()

/-- The key of the execution is reserved, too. -/
def insertExecution : IntentProgram (Option ActionId) :=
  if sender.method = .oneClick then do
    match ← run (.insertJob request.idempotencyKey
        (executionRow request.mailboxAccountId ⟨request.senderId, sender.senderKey,
          sender.unsubscribeMethod, sender.unsubscribeUrl⟩ request.execution request.compositeId)) with
    | none => throw .idempotencyKeyConflict
    | some id => return some id
  else return none

/-- The rows of a new intent, its keys reserved first. -/
def recordFresh (intentId : ActionId) : IntentProgram Recorded := do
  let post := request.idempotencyKey
  let execution ← insertExecution request sender
  run (.upsertPolicy post sender.senderKey (initialUnsubscribeLifecycleStatus sender.method))
  let activity ← run (.insertActivity post sender.senderKey .unsubscribe execution)
  .when (sender.method ≠ .oneClick) (do
    let _ ← run (.insertActivity post sender.senderKey
      (if sender.method = .mailto then .unsubscribeActionRequired else .unsubscribeUnavailable) none)
    return ())
  run (.updateIntent post intentId (toString activity.id))
  run (.publish post ⟨activity.id, sender.senderKey, activity.occurredAt, sender.method⟩)
  return ⟨activity.occurredAt, toString activity.id, execution.map (·, .queued)⟩

/-- The key was taken after the looks: another look. -/
def recordRaced : IntentProgram Recorded := do
  request.assertKeyOwners sender.senderKey
  match ← run (.selectJob request.namespaced request.mailboxAccountId) with
  | none => throw .idempotencyKeyConflict
  | some intent => cachedIntent request intent

/-- Two units where a backlog action follows. -/
def unitsNeeded (isMeterV2 : Bool) : ℕ :=
  if isMeterV2 then 0 else if request.includesBacklogAction then 2 else 1

def recordIntent (isMeterV2 : Bool) : IntentProgram Recorded := do
  run .lockCleanupWorkspace
  request.assertKeyOwners sender.senderKey
  match ← run (.selectJob request.namespaced request.mailboxAccountId) with
  | some intent => cachedIntent request intent
  | none =>
    .when (sender.method ≠ .none && !request.skipCleanupCharge)
      (run (.assertCleanupCapacity (unitsNeeded request isMeterV2)))
    match ← run (.insertJob request.idempotencyKey
      (request.intentRow sender.senderKey sender.method)) with
    | none => recordRaced request sender
    | some intentId => recordFresh request sender intentId

def replayStatus : IntentProgram UnsubStatus := do
  let status ← run (.selectUnsubStatus sender.senderKey)
  return (normalizeUnsubscribeLifecycleStatus status).getD
    (initialUnsubscribeLifecycleStatus sender.method)

def result (recorded : Recorded) (lifecycleStatus : UnsubStatus) : IntentResult where
  senderId := request.senderId
  recordedAt := recorded.recordedAt
  activityLogId := recorded.activityLogId
  lifecycleStatus
  method := sender.method
  executionActionId := recorded.execution.map (·.1)
  mailtoUrl := if sender.method = .mailto then sender.unsubscribeUrl else none

/-- An earlier post of the key, found before the transaction. -/
def replay (intent : JobRow) : IntentProgram IntentResult := do
  let recorded ← cachedIntent request intent
  enqueueQueued request sender recorded
  let lifecycleStatus ← replayStatus sender
  return result request sender recorded lifecycleStatus

/-- One request at a time for a sender, as far as this look tells. -/
def assertNoneLive : IntentProgram Unit :=
  .when (sender.method = .oneClick) (do
    let live ← run (.selectLive request.mailboxAccountId sender.senderKey)
    .when live (throw inFlight))

def recordFirst (isMeterV2 : Bool) : IntentProgram IntentResult := do
  assertNoneLive request sender
  let recorded ← transaction (recordIntent request sender isMeterV2)
  enqueueQueued request sender recorded
  return result request sender recorded (initialUnsubscribeLifecycleStatus sender.method)

end Code

/-- The checks on the sender and on the server. -/
def admitIntent (post : Post) (sender : Sender) : IntentProgram Unit := do
  .when post.request.override (do
    let _ ← run (.selectIsProtected sender.senderKey)
    return ())
  post.request.assertKeyOwners sender.senderKey
  .when (sender.method = .oneClick && !post.unsubQueue) (throw queueUnavailable)
  .when (sender.method = .oneClick && !post.unsubSendsEnabled) (throw sendDisabled)

def recordUnsubscribeIntent (isMeterV2 : Bool) (post : Post) : IntentProgram IntentResult := do
  match ← run (.selectSender post.request.senderId) with
  | none => throw senderNotFound
  | some sender =>
    .when sender.unsubscribeMethod.isNone (throw channelUnknown)
    admitIntent post sender
    match ← run (.selectJob post.request.namespaced post.request.mailboxAccountId) with
    | some intent => replay post.request sender intent
    | none => recordFirst post.request sender isMeterV2

/-! ## The system -/

def Write.locks (write : Write) : List RowLock :=
  match write.change with
  | .job row => row.locks
  | _ => []

/-- Both the key and the id of a job are unique. -/
def jobKeys : UniqueIndex Store.apply RowLock where
  listed s := s.jobs.flatMap fun row => row.locks
  keys := Write.locks
  listed_apply s x := by
    obtain ⟨post, change⟩ := x
    cases change with
    | job row => simp [Store.apply, Store.change, Write.locks]
    | intent | failJob =>
      simp only [Store.apply, Store.change, Write.locks, List.append_nil]
      exact locks_update fun _ => rfl
    | policy | activity | event | failPolicy =>
      simp [Store.apply, Store.change, Write.locks]

theorem listed_jobKeys (s : Store) :
    jobKeys.listed s = s.jobs.flatMap fun row => row.locks := rfl

structure World where
  db : Transactions ℕ Store Write RowLock

namespace World

def view (w : World) (t : ℕ) : Store := w.db.view Store.apply t

def write (w : World) (t : ℕ) (x : Write) : World := ⟨w.db.write t x⟩

def rollback (w : World) (t : ℕ) : World := ⟨w.db.rollback t⟩

def commit (w : World) (t : ℕ) : World := ⟨w.db.commit Store.apply t⟩

end World

/-- What a statement finds: a new id, the time, and whether the tier has a quota. -/
structure Findings where
  id : ActionId
  now : ℤ
  finite : Bool

section Effect

variable (t : ℕ) (f : Findings) (w : World)

def insertJob (post : String) (row : ActionRow) : Option (Option ActionId × World) :=
  (jobKeys.insert w.db t (.key row.idempotencyKey)
    ⟨post, .job { row with id := f.id, createdAt := f.now }⟩).map fun (inserted, db) =>
      (if inserted then some f.id else none, ⟨db⟩)

/-- The update locks the row that it changes. -/
def failJob (post : String) (actionId : ActionId) (mailboxAccountId : MailboxId) :
    Option (Bool × World) :=
  if (w.view t).jobs.any fun row => row.id = actionId ∧ row.mailboxAccountId = mailboxAccountId ∧
      row.status = .queued then
    (w.db.acquire t (.id actionId)).map fun db => (true, ⟨db.write t ⟨post, .failJob actionId⟩⟩)
  else some (false, w)

/-- A statement of thread `t`, as it takes effect. -/
def effect : (q : Statement) → Option (q.Answer × World)
  | .selectSender senderId => some ((w.view t).senders.find? (·.id = senderId), w)
  | .selectIsProtected senderKey => some (((w.view t).policies senderKey).any (·.isProtected), w)
  | .selectOwners keys => some ((w.view t).jobs.filter (·.idempotencyKey ∈ keys), w)
  | .selectJob key mailboxAccountId => some ((w.view t).jobs.find? fun row =>
      row.idempotencyKey = key ∧ row.mailboxAccountId = mailboxAccountId, w)
  | .selectLive mailboxAccountId senderKey => some ((w.view t).jobs.any fun row =>
      row.mailboxAccountId = mailboxAccountId ∧ row.verb = .unsubscribe ∧
        row.direction = .forward ∧ row.status.live ∧ row.selector.senderKey = some senderKey, w)
  | .selectUnsubStatus senderKey => some (((w.view t).policies senderKey).bind (·.unsubStatus), w)
  | .lockCleanupWorkspace =>
    if f.finite then (w.db.acquire t .workspace).map fun db => ((), ⟨db⟩) else some ((), w)
  | .assertCleanupCapacity _ | .add _ => some ((), w)
  | .insertJob post row => insertJob t f w post row
  | .upsertPolicy post senderKey status =>
    some ((), w.write t ⟨post, .policy senderKey status f.now⟩)
  | .insertActivity post senderKey action actionJobId =>
    let row := ⟨f.id, senderKey, action, f.now, actionJobId⟩
    some (row, w.write t ⟨post, .activity row⟩)
  | .updateIntent post id activityLogId => some ((), w.write t ⟨post, .intent id activityLogId⟩)
  | .publish post event => some ((), w.write t ⟨post, .event event⟩)
  | .commit => some ((), w.commit t)
  | .rollback => some ((), w.rollback t)
  | .failJob post actionId mailboxAccountId => failJob t w post actionId mailboxAccountId
  | .failPolicy post senderKey => some ((), w.write t ⟨post, .failPolicy senderKey f.now⟩)

end Effect

/-- A statement takes effect, takes effect while its answer is lost, or fails. -/
inductive Fate
  | go (findings : Findings)
  | lost (findings : Findings) (error : ServiceError)
  | fail (error : ServiceError)

/-- A transaction whose end fails is rolled back. -/
def failed (t : ℕ) (w : World) : Statement → World
  | .commit | .rollback => w.rollback t
  | _ => w

def answer (t : ℕ) (q : Statement) (fate : Fate) (w : World) :
    Option (Except ServiceError q.Answer × World) :=
  match fate with
  | .go f => (effect t f w q).map fun r => (.ok r.1, r.2)
  | .lost f e => (effect t f w q).map fun r => (.error e, r.2)
  | .fail e => some (.error e, failed t w q)

/-- What the rest of the application does to the tables. -/
inductive Event
  | senders (senders : List Sender)
  | policy (senderKey : SenderKey) (policy : Option Policy)
  | activity (row : ActivityRow)
  | inserted (row : JobRow)
  | progressed (id : ActionId) (status : JobStatus) (errorCode : Option String)

/-- A job that is locked waits, and none is queued again. -/
def disturb (w : World) : Event → Option World
  | .senders senders => some ⟨{ w.db with store := { w.db.store with senders } }⟩
  | .policy senderKey policy => some ⟨{ w.db with store := { w.db.store with
      policies := Function.update w.db.store.policies senderKey policy } }⟩
  | .activity row => some ⟨{ w.db with store := { w.db.store with
      activity := w.db.store.activity ++ [row] } }⟩
  | .inserted row =>
    if ∀ k ∈ row.locks, w.db.holder k = none ∧ k ∉ jobKeys.listed w.db.store then
      some ⟨{ w.db with store := { w.db.store with jobs := w.db.store.jobs ++ [row] } }⟩
    else none
  | .progressed id status errorCode =>
    if w.db.holder (.id id) = none ∧ status ≠ .queued then
      some ⟨{ w.db with store := { w.db.store with
        jobs := w.db.store.updateJobs (·.id = id) fun row => { row with status, errorCode } } }⟩
    else none

/-- Posts for the senders of one mailbox. -/
def intents (isMeterV2 : Bool) (mailboxAccountId : MailboxId) : System IntentSignature where
  World := World
  Thread := ℕ
  Task := Post
  Outcome := IntentResult
  Choice := Fate
  Event := Event
  code := recordUnsubscribeIntent isMeterV2
  accept _ post w := if post.request.mailboxAccountId = mailboxAccountId then some w else none
  answer := answer
  settle t _ w := some (w.rollback t)
  crash t w := some (w.rollback t)
  disturb e w := disturb w e

end DeclutrMail.Unsubscribe
