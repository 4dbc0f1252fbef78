import Mathlib.Data.List.Sort
import DeclutrMail.Actions.CleanupMeter
import DeclutrMail.Collections.Batches

/-!
# Bulk cleanups

`enqueueBulkComposite` reads the actionable senders of a request before its transaction
(`post`), and in the transaction, under the lock of the workspace row, checks the capacity
and inserts a job for each sender and verb (`commit`). The check is left out when the key of
the first actionable sender exists already, which is taken for a replay of the same bulk,
while the inserts skip each key that exists.

Between the posts senders are rebuilt and Protected or not, other jobs are enqueued, run and
undone.
-/

namespace DeclutrMail.Actions

open Batches

structure Sender where
  id : String
  senderKey : String
  deriving DecidableEq

/-- The parts of a request that its keys, its senders and its units depend on. -/
structure BulkRequest where
  senderIds : List String
  primary : Verb
  secondary : Option Verb
  idempotencyKey : String

def Verb.type : Verb → String
  | archive => "archive"
  | later => "later"
  | delete => "delete"
  | unsubscribe => "unsubscribe"

namespace BulkRequest

variable (request : BulkRequest)

/-- `idempotencyKey.replace(/:/g, '-')` -/
def safeKey : String :=
  String.ofList (request.idempotencyKey.toList.map fun c => if c = ':' then '-' else c)

def primaryKey (senderId : String) : String :=
  request.primary.type ++ "-" ++ request.safeKey ++ "-" ++ senderId

def secondaryKey (secondary : Verb) (senderId : String) : String :=
  secondary.type ++ "-" ++ request.safeKey ++ "-" ++ senderId ++ "-sec"

/-- The prospective keys of one sender. -/
def ownKeys (sender : Sender) : List String :=
  request.primaryKey sender.id ::
    (request.secondary.map fun secondary => request.secondaryKey secondary sender.id).toList

end BulkRequest

/-- What a post has read when its transaction starts. -/
structure Plan where
  request : BulkRequest
  actionable : List Sender
  nonempty : actionable ≠ []
  primaryCount : String → ℕ
  secondaryCount : String → ℕ

/-- What the transaction of a post leaves beside its jobs: the senders whose units its
capacity check summed, none when it made no check, and the rows it inserted. -/
structure Committed where
  counted : List Sender
  fresh : List Job

structure State where
  jobs : List Job
  senders : List Sender
  protectedKeys : List String
  plans : List Plan
  commits : List Committed

def State.initial : State := ⟨[], [], [], [], []⟩

/-! ## The reads -/

/-- Senders with a job that is queued or executing under another key. -/
def liveForwardJobSenderKeys (jobs : List Job) (excludeIdempotencyKeys : List String) :
    List String :=
  (jobs.filter fun job => (job.status = .queued || job.status = .executing) &&
    !(excludeIdempotencyKeys.contains job.idempotencyKey)).map (·.senderKey)

/-- The senders that exist, are not Protected and have no other job in progress, in the
order of their ids. -/
def actionableSenders (state : State) (request : BulkRequest) : List Sender :=
  let uniqueIds := (distinct request.senderIds).insertionSort (· ≤ ·)
  let rows := uniqueIds.filterMap fun id => state.senders.find? fun sender => sender.id = id
  let unprotected := rows.filter fun sender => !state.protectedKeys.contains sender.senderKey
  let busyKeys := liveForwardJobSenderKeys state.jobs (unprotected.flatMap request.ownKeys)
  unprotected.filter fun sender => !busyKeys.contains sender.senderKey

/-- A post without an actionable sender is refused. -/
def post (state : State) (request : BulkRequest) (primaryCount secondaryCount : String → ℕ) :
    State :=
  if nonempty : actionableSenders state request = [] then state
  else
    { state with
      plans := state.plans ++
        [⟨request, actionableSenders state request, nonempty, primaryCount, secondaryCount⟩] }

/-! ## The transaction -/

namespace Plan

variable (plan : Plan)

def anchorKey : String := plan.request.primaryKey (plan.actionable.head plan.nonempty).id

/-- The units that the jobs of one sender hold. -/
def unitsOf (ws : Workspace) (sender : Sender) : ℕ :=
  ws.meterUnits plan.request.primary (plan.primaryCount sender.senderKey) +
    match plan.request.secondary with
    | some secondary => ws.meterUnits secondary (plan.secondaryCount sender.senderKey)
    | none => 0

def unitsNeeded (ws : Workspace) : ℕ :=
  if ws.meterV2 then (plan.actionable.map (plan.unitsOf ws)).sum else plan.actionable.length

end Plan

def hasJobWithKey (jobs : List Job) (key : String) : Bool :=
  jobs.any (·.idempotencyKey = key)

/-- `INSERT … ON CONFLICT DO NOTHING`, else the row that is there. -/
def insertJob (jobs : List Job) (input : Job) : List Job × Bool × Job :=
  match jobs.find? (·.idempotencyKey = input.idempotencyKey) with
  | some row => (jobs, true, row)
  | none =>
    let row := { input with id := jobs.length }
    (jobs ++ [row], false, row)

/-- The locals of the insert loop. -/
structure Persisted where
  jobs : List Job
  anchorId : Option ℕ
  fresh : List Job

/-- The values of a new row; its id is the insert's. -/
def newJob (verb : Verb) (sender : Sender) (requestedCount quotaUnits : ℕ)
    (idempotencyKey : String) (compositeId : Option ℕ) (createdAt : Instant) : Job where
  id := 0
  verb
  senderId := some sender.id
  senderKey := sender.senderKey
  requestedCount
  quotaUnits
  idempotencyKey
  compositeId
  rootActionId := none
  status := .queued
  affectedCount := 0
  createdAt
  undone := none

/-- The inserts for one sender. -/
def Plan.persistSender (plan : Plan) (ws : Workspace) (started : Instant) (p : Persisted)
    (sender : Sender) : Persisted :=
  let primaryCount := plan.primaryCount sender.senderKey
  let primary := insertJob p.jobs (newJob plan.request.primary sender primaryCount
    (ws.meterUnits plan.request.primary primaryCount) (plan.request.primaryKey sender.id)
    p.anchorId started)
  let anchorId := p.anchorId.getD primary.2.2.id
  let fresh := if primary.2.1 then p.fresh else p.fresh ++ [primary.2.2]
  match plan.request.secondary with
  | none => ⟨primary.1, some anchorId, fresh⟩
  | some verb =>
    let secondaryCount := plan.secondaryCount sender.senderKey
    let secondary := insertJob primary.1 (newJob verb sender secondaryCount
      (ws.meterUnits verb secondaryCount) (plan.request.secondaryKey verb sender.id)
      (some anchorId) started)
    ⟨secondary.1, some anchorId, if secondary.2.1 then fresh else fresh ++ [secondary.2.2]⟩

def Plan.persist (plan : Plan) (ws : Workspace) (started : Instant) (jobs : List Job) :
    Persisted :=
  plan.actionable.foldl (plan.persistSender ws started) ⟨jobs, none, []⟩

/-- The transaction that began at `started` by the clock of the database and read the time
`now` once it had the lock. It throws, and leaves nothing, when its check fails. -/
def commit (ws : Workspace) (state : State) (plan : Plan) (started now : Instant) : State :=
  let replayed := hasJobWithKey state.jobs plan.anchorKey
  if replayed || ws.hasCapacity state.jobs (plan.unitsNeeded ws) now then
    let persisted := plan.persist ws started state.jobs
    { state with
      jobs := persisted.jobs
      commits := state.commits ++
        [⟨if replayed then [] else plan.actionable, persisted.fresh⟩] }
  else state

/-! ## The system -/

inductive Move
  /-- A post reads its senders and counts its mail. -/
  | post (request : BulkRequest) (primaryCount secondaryCount : String → ℕ)
  | commit (plan : ℕ) (started now : Instant)
  /-- Another writer enqueues forward jobs, for which it counted `needed` units at `now`. -/
  | enqueue (jobs : List Job) (needed : ℕ) (started now : Instant)
  | execute (id : ℕ)
  /-- `settledQuotaUnits` at the end of a job. -/
  | settle (id affected : ℕ)
  | fail (id : ℕ)
  /-- The reverse job of a job's undo token is done. -/
  | undo (id affected : ℕ)
  | protect (senderKeys : List String)
  | rebuild (senders : List Sender)

/-- `f` on the rows with this id that meet the condition of the update. -/
def updateWhere (jobs : List Job) (id : ℕ) (p : Job → Bool) (f : Job → Job) : List Job :=
  jobs.map fun job => if job.id = id && p job then f job else job

namespace Job

/-- Not done and not failed. -/
def live (job : Job) : Bool := job.status = .queued || job.status = .executing

def settled (affected : ℕ) (job : Job) : Job :=
  { job with
    status := .done
    affectedCount := affected
    quotaUnits := if affected = 0 then 0 else min job.quotaUnits affected }

def failedNow (job : Job) : Job := { job with status := .failed, quotaUnits := 0 }

/-- A row as it is inserted. -/
def enqueued (started : Instant) (job : Job) : Job :=
  { job with status := .queued, affectedCount := 0, createdAt := started, undone := none }

end Job

def step (ws : Workspace) (state : State) : Move → State
  | .post request primaryCount secondaryCount => post state request primaryCount secondaryCount
  | .commit plan started now =>
    match state.plans[plan]? with
    | some plan => commit ws state plan started now
    | none => state
  | .enqueue jobs _ started _ => { state with jobs := state.jobs ++ jobs.map (.enqueued started) }
  | .execute id =>
    { state with jobs := updateWhere state.jobs id Job.live ({ · with status := .executing }) }
  | .settle id affected =>
    { state with jobs := updateWhere state.jobs id Job.live (.settled affected) }
  | .fail id => { state with jobs := updateWhere state.jobs id Job.live .failedNow }
  | .undo id affected =>
    { state with
      jobs := updateWhere state.jobs id (fun job => job.status = .done && job.undone.isNone)
        ({ · with undone := some affected }) }
  | .protect senderKeys => { state with protectedKeys := senderKeys }
  | .rebuild senders => { state with senders }

def run (ws : Workspace) (state : State) (moves : List Move) : State :=
  moves.foldl (step ws) state

end DeclutrMail.Actions
