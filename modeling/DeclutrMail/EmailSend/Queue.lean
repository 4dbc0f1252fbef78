import DeclutrMail.EmailSend.Programs
import DeclutrMail.Interleaving.System

/-!
# The queue of email sends

BullMQ stores at most one job under a key. Every request acts on the job that is stored when it
takes effect, whichever job the caller has read before. A run takes the job and holds it until it
ends or stalls; a run that has stalled may still go on.
-/

namespace DeclutrMail.EmailSend

open Interleaving

/-- `waiting` includes `delayed` and `prioritized`. An `orphaned` job has left every list of the
queue, but not its hash. -/
inductive Stored
  | waiting
  | active (token : ℕ)
  | completed (returnvalue : Returnvalue)
  | failed
  | orphaned (returnvalue : Option Returnvalue)
  deriving DecidableEq

/-- `number` tells apart the jobs that have been stored; `delivery` says whether the hash has the
delivery field. -/
structure Job where
  number : ℕ
  data : EmailSendJobData
  state : Stored
  attemptsMade : ℕ
  delivery : Bool
  deriving DecidableEq

namespace Job

def returnvalue (job : Job) : Option Returnvalue :=
  match job.state with
  | .completed returnvalue => some returnvalue
  | .orphaned returnvalue => returnvalue
  | _ => none

def jobState (job : Job) : JobState :=
  match job.state with
  | .waiting => .waiting
  | .active _ => .active
  | .completed _ => .completed
  | .failed => .failed
  | .orphaned _ => .unknown

def locked (job : Job) : Bool :=
  match job.state with
  | .active _ => true
  | _ => false

def heldBy (job : Job) (token : ℕ) : Bool := decide (job.state = .active token)

def sent (job : Job) : Bool :=
  match job.state with
  | .completed returnvalue => didSend (some returnvalue)
  | _ => false

def failed (job : Job) : Bool := decide (job.state = .failed)

/-- Nothing went out, and that is known. -/
def unsent (job : Job) : Bool :=
  match job.state with
  | .completed returnvalue => !didSend (some returnvalue) && !job.delivery
  | _ => false

end Job

/-- What is remembered of the task of a thread: the token of its lock, the job that its `getJob`
handed back, and whether it is about to remove or to deliver. -/
structure Call where
  token : Option ℕ
  read : Option ℕ
  removing : Bool
  delivering : Bool

def Call.new : Call := ⟨none, none, false, false⟩

/-- `sent` and `failed` say how a job ended that BullMQ retains since; `resent` and `readded` that
a delivery or an add has happened in spite of it. -/
structure World where
  key : String
  job : Option Job
  issued : ℕ
  tokens : ℕ
  calls : ℕ → Call
  sent : Bool
  failed : Bool
  resent : Bool
  readded : Bool

namespace World

/-- No task runs. -/
def initial (key : String) (job : Option Job) : World where
  key := key
  job := job
  issued := (job.map fun job => job.number + 1).getD 0
  tokens := 0
  calls _ := .new
  sent := job.any (·.sent)
  failed := job.any (·.failed)
  resent := false
  readded := false

def setCall (w : World) (t : ℕ) (call : Call) : World :=
  { w with calls := Function.update w.calls t call }

/-- The run of a thread holds the job. -/
def held (w : World) (t : ℕ) : Bool :=
  (w.calls t).token.any fun token => w.job.any (·.heldBy token)

def jobState (w : World) : JobState := (w.job.map (·.jobState)).getD .unknown

/-- An id that is taken is not added again. -/
def add (w : World) (data : EmailSendJobData) : World :=
  match w.job with
  | some _ => w
  | none =>
    { w with
      job := some ⟨w.issued, data, .waiting, 0, false⟩
      issued := w.issued + 1
      readded := w.readded || w.failed }

/-- A worker takes a waiting job. -/
def take (w : World) (t : ℕ) (payload : EmailSendJobData) : Option World :=
  match w.job with
  | some job =>
    if job.state = .waiting ∧ job.data = payload then
      some { w.setCall t { Call.new with token := some w.tokens } with
        job := some { job with state := .active w.tokens }
        tokens := w.tokens + 1 }
    else none
  | none => none

def complete (w : World) (outcome : Outcome) : World :=
  { w with
    job := w.job.map fun job => { job with state := .completed outcome.recorded }
    sent := w.sent || decide (outcome = .sent) }

def fail (w : World) : World :=
  { w with
    job := w.job.map fun job => { job with state := .failed }
    failed := true }

def release (w : World) (attempts : ℕ) : World :=
  { w with
    job := w.job.map fun job =>
      { job with state := .waiting, attemptsMade := job.attemptsMade + attempts } }

/-- `batchPolicy` -/
def maxAttempts : ℕ := 3

def attemptsMade (w : World) : ℕ := (w.job.map (·.attemptsMade)).getD 0

/-- A run that raised. -/
def raised (w : World) (e : Error) : World :=
  if e = .postponed then w.release 0
  else if e.nonRetryable ∨ maxAttempts ≤ w.attemptsMade + 1 then w.fail
  else w.release 1

def leave (w : World) (t : ℕ) : World := w.setCall t .new

/-- The provider's port was called, and leaves the delivery field as `evidence` says. -/
def delivered (w : World) (t : ℕ) (evidence : Bool) : World :=
  { w.setCall t { w.calls t with delivering := false } with
    job := w.job.map fun job => { job with delivery := evidence }
    resent := w.resent || w.sent }

end World

/-! ## The system -/

inductive Task
  | enqueue (data : EmailSendJobData)
  | process (payload : EmailSendJobData)

inductive Returned
  | enqueued (result : Enqueued)
  | processed (outcome : Outcome)
  deriving DecidableEq

def code (deps : Deps) : Task → Prog Returned
  | .enqueue data => do
    let result ← enqueueEmailSend deps data
    return .enqueued result
  | .process payload => do
    let outcome ← run deps payload
    return .processed outcome

/-- `found` answers a request that the queue does not answer, and says what a delivery leaves in
the delivery field. -/
inductive Choice
  | go
  | lost
  | fail (e : Error)
  | found (answers : (q : Request) → q.Answer) (evidence : Bool)

/-- A request of the queue as it takes effect. -/
def effect (t : ℕ) (w : World) : (q : Request) → Option (Except Error q.Answer × World)
  | .getJob =>
    some (.ok (w.job.map (·.returnvalue)),
      w.setCall t { w.calls t with read := w.job.map (·.number) })
  | .getState => some (.ok w.jobState, w)
  | .hexists =>
    let evidence := w.job.any (·.delivery)
    some (.ok evidence, w.setCall t { w.calls t with removing := !evidence })
  | .remove =>
    if w.job.any (·.locked) then some (.error .locked, w)
    else some (.ok (), { w.setCall t { w.calls t with removing := false } with job := none })
  | .add data => some (.ok (), w.add data)
  | _ => none

/-- A request that other services answer. -/
def finding (t : ℕ) (w : World) (evidence : Bool) : Request → Option World
  | .getJob | .getState | .hexists | .remove | .add _ => none
  | .assertDeliveryAdmission => some (w.setCall t { w.calls t with delivering := true })
  | .deliver .. => some (w.delivered t evidence)
  | _ => some w

/-- A request that fails. The port was called all the same. -/
def missed (t : ℕ) (w : World) : Request → World
  | .deliver .. => w.delivered t (w.job.any (·.delivery))
  | _ => w

def answer (t : ℕ) (q : Request) (c : Choice) (w : World) :
    Option (Except Error q.Answer × World) :=
  match c with
  | .go => effect t w q
  | .lost => (effect t w q).map fun r => (.error .redis, r.2)
  | .fail e => some (.error e, missed t w q)
  | .found answers evidence => (finding t w evidence q).map fun w' => (.ok (answers q), w')

def accept (t : ℕ) (task : Task) (w : World) : Option World :=
  match task with
  | .enqueue data => if data.idempotencyKey = w.key then some (w.leave t) else none
  | .process payload => w.take t payload

/-- The result of a run is stored where it still holds the job. -/
def settle (t : ℕ) (r : Except Error Returned) (w : World) : World :=
  if w.held t then
    match r with
    | .ok (.processed outcome) => w.complete outcome
    | .ok (.enqueued _) => w
    | .error e => w.raised e
  else w

/-- A job whose run has stalled waits again, or fails where it has stalled too often. `evict`
stands for the end of its retention and for what a Redis that loses its data forgets. -/
inductive Event
  | stall (fails : Bool)
  | evict (orphans : Bool)

def World.evict (w : World) (orphans : Bool) : World :=
  { w with
    job := if orphans then w.job.map fun job => { job with state := .orphaned job.returnvalue }
      else none
    sent := false
    failed := false }

def disturb (w : World) : Event → Option World
  | .stall fails =>
    if w.job.any (·.locked) then some (if fails then w.fail else w.release 0) else none
  | .evict orphans => some (w.evict orphans)

def system (deps : Deps) : System Sig where
  World := World
  Thread := ℕ
  Task := Task
  Outcome := Returned
  Choice := Choice
  Event := Event
  code := code deps
  accept := accept
  answer := answer
  settle t r w := some ((settle t r w).leave t)
  crash t w := some (w.leave t)
  disturb e w := disturb w e

end DeclutrMail.EmailSend
