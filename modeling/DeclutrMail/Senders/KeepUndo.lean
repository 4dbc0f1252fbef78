import DeclutrMail.Interleaving.Ownership
import DeclutrMail.Senders.AutomaticProtection

/-!
# Keep and its undo

A Keep is a row of the activity log and an event of the outbox, which projects it into the policy
of the sender later. Undo takes both back: it clears the policy and marks the rows of the log.
Undo and the projection hold the action lock of the mailbox; a Keep is recorded without it.

The model is of one sender. The rows of the log are numbered in the order of their commits.
-/

namespace DeclutrMail.Senders.KeepUndo

open Interleaving

/-! ## Tables -/

/-- The columns of `sender_policies` that are read here. -/
structure Policy where
  policyType : Option SenderPolicyType
  isProtected : Bool
  deriving DecidableEq

/-- A row of `activity_log` whose action is `keep`. -/
structure KeepRow where
  occurredAt : ℤ
  reverted : Bool
  deriving DecidableEq

abbrev KeepId := ℕ

/-- What a transaction will do when it commits. -/
structure Draft where
  inserted : Option ℤ
  policyType : Option (Option SenderPolicyType)
  /-- The rows below this one are reverted. -/
  reverts : KeepId
  /-- The rows below this one are those that the undo found. -/
  found : Option KeepId
  /-- The undo ends although a row that it found stands. -/
  overlooks : Bool
  /-- The row that the projection has read. -/
  decided : Option KeepId
  deriving DecidableEq

def Draft.empty : Draft := ⟨none, none, 0, none, false, none⟩

/-- A delivery of the event of `keep` has committed. -/
structure Projection where
  keep : KeepId
  /-- The row it has decided from. -/
  decided : KeepId
  /-- It has set `policy_type` to `keep`. -/
  wrote : Bool
  /-- The Keeps below this one were recorded before the last undo. -/
  undone : KeepId
  deriving DecidableEq

structure World where
  policy : Option Policy
  log : List KeepRow
  /-- The holder of the mailbox's action lock. -/
  lock : Option ℕ
  rowLock : Option ℕ
  draft : ℕ → Draft
  /-- The event that a thread delivers. -/
  delivers : ℕ → KeepId
  /-- The Keeps below this one were recorded before the last undo that has committed. -/
  undone : KeepId
  projections : List Projection
  /-- An undo has left a Keep standing, or a Keep is dated before one that had been undone. -/
  amiss : Bool

/-! ## Statements -/

structure Failure where
  code : String
  message : Option String
  deriving DecidableEq

namespace Failure

def senderNotFound : Failure :=
  ⟨"SENDER_NOT_FOUND", some "We couldn’t find this sender in this Gmail account."⟩

def protectedSender : Failure :=
  ⟨"PROTECTED_SENDER", some "Unprotect this sender before undoing Keep."⟩

def actionStillRunning : Failure := ⟨"ACTION_STILL_RUNNING", none⟩

def lockNotAvailable : Failure :=
  ⟨"55P03", some "canceling statement due to lock timeout"⟩

def lockTimedOut : Failure := ⟨"TransientError", some "Mailbox action lock timed out"⟩

/-- `isPostgresLockTimeout` -/
def isLockTimeout (e : Failure) : Bool := e = lockNotAvailable

end Failure

inductive Statement
  | selectSender
  | lockMailbox
  | selectPolicy
  | neutralize
  | revertKeeps
  | selectLatestKeep
  | upsertKeep
  | selectRecentKeep (windowStart : ℤ)
  | insertKeep
  | commit
  | rollback

@[reducible]
def Statement.Answer : Statement → Type
  | .selectSender => Bool
  | .selectPolicy | .neutralize => Option Policy
  | .revertKeeps => ℕ
  | .selectLatestKeep => Option Bool
  | .selectRecentKeep _ => Option ℤ
  | .insertKeep => ℤ
  | .lockMailbox | .upsertKeep | .commit | .rollback => Unit

abbrev KeepSignature : Signature := ⟨Statement, Statement.Answer, Failure⟩

abbrev KeepProgram (α : Type) := Program KeepSignature α

def run (q : Statement) : KeepProgram q.Answer := Program.perform (S := KeepSignature) q

def transaction {α : Type} (body : KeepProgram α) : KeepProgram α := do
  let a ← tryCatch body fun e => do
    run .rollback
    throw e
  run .commit
  return a

/-! ## Calls -/

structure SenderPolicyResult where
  policyType : Option SenderPolicyType
  isProtected : Bool
  changed : Bool
  deriving DecidableEq

def projectResult (row : Option Policy) (changed : Bool) : SenderPolicyResult :=
  ⟨row.bind (·.policyType), row.any (·.isProtected), changed⟩

/-- The transaction of `undoKeep`. -/
def undoStanding : KeepProgram SenderPolicyResult := do
  run .lockMailbox
  let existing ← run .selectPolicy
  .when (existing.any fun row => row.policyType = some .keep && row.isProtected)
    (throw .protectedSender)
  match existing.bind (·.policyType) with
  | some .keep =>
    let resultRow ← run .neutralize
    let _ ← run .revertKeeps
    return projectResult resultRow true
  | some _ => return projectResult existing false
  | none =>
    let reverted ← run .revertKeeps
    return projectResult existing (0 < reverted)

def undoKeep : KeepProgram SenderPolicyResult := do
  let sender ← run .selectSender
  .when (!sender) (throw .senderNotFound)
  tryCatch (transaction undoStanding) fun e =>
    throw (if e.isLockTimeout then .actionStillRunning else e)

def projectKeep : KeepProgram Unit :=
  transaction do
    run .lockMailbox
    let latestKeep ← run .selectLatestKeep
    .when (latestKeep ≠ some true) (run .upsertKeep)

/-- `handleTriageVerdictApplied`, with its two attempts. -/
def handleTriageVerdictApplied (verdict : SenderPolicyType) : KeepProgram Unit :=
  .when (verdict = .keep) (tryCatch projectKeep fun e =>
    if e.isLockTimeout then
      tryCatch projectKeep fun e => throw (if e.isLockTimeout then .lockTimedOut else e)
    else throw e)

/-- `recordKeepIntent`; a Keep that stands is not recorded again. -/
def recordKeepIntent (windowStart : ℤ) : KeepProgram ℤ := do
  let sender ← run .selectSender
  .when (!sender) (throw .senderNotFound)
  match ← run (.selectRecentKeep windowStart) with
  | some occurredAt => return occurredAt
  | none => transaction (run .insertKeep)

/-! ## The system -/

/-- The row is the latest of those that satisfy `p`. -/
def isLatest (log : List KeepRow) (p : KeepRow → Bool) (i : KeepId) : Bool :=
  (log[i]?).any fun row => p row && log.all fun other => !p other || other.occurredAt ≤ row.occurredAt

def revertBefore (n : KeepId) (log : List KeepRow) : List KeepRow :=
  log.mapIdx fun i row => if i < n then { row with reverted := true } else row

/-- A Keep from `undone` on is not dated after all those below. -/
def disordered (log : List KeepRow) (undone : KeepId) : Bool :=
  (log.drop undone).any fun later => (log.take undone).any fun earlier =>
    later.occurredAt ≤ earlier.occurredAt

inductive Choice
  | ok
  | fails (e : Failure)
  | sender (found : Bool)
  /-- The row of the log that a `LIMIT 1` takes. -/
  | row (i : Option KeepId)
  | time (now : ℤ)

namespace World

variable (w : World) (t : ℕ)

def write (d : Draft) : World := { w with draft := Function.update w.draft t d }

/-- End the transaction of `t`, with its locks. -/
def rollback : World where
  policy := w.policy
  log := w.log
  lock := if w.lock = some t then none else w.lock
  rowLock := if w.rowLock = some t then none else w.rowLock
  draft := Function.update w.draft t .empty
  delivers := w.delivers
  undone := w.undone
  projections := w.projections
  amiss := w.amiss

def committedPolicy : Option Policy :=
  match (w.draft t).policyType with
  | none => w.policy
  | some policyType => some ⟨policyType, w.policy.any (·.isProtected)⟩

def committedLog : List KeepRow :=
  revertBefore (w.draft t).reverts w.log ++ (w.draft t).inserted.toList.map (⟨·, false⟩)

def committedUndone : KeepId := (w.draft t).found.getD w.undone

def projected : List Projection :=
  ((w.draft t).decided.map fun i =>
    ⟨w.delivers t, i, (w.draft t).policyType = some (some .keep), w.undone⟩).toList

def commit : World :=
  { w.rollback t with
    policy := w.committedPolicy t
    log := w.committedLog t
    undone := w.committedUndone t
    projections := w.projections ++ w.projected t
    amiss := w.amiss || (w.draft t).overlooks ||
      disordered (w.committedLog t) (w.committedUndone t) }

/-- An undo that finds another standing decision ends there. -/
def readPolicy : Draft :=
  match w.policy.bind (·.policyType) with
  | none | some .keep => w.draft t
  | some _ =>
    { w.draft t with found := some w.log.length, overlooks := w.log.any (!·.reverted) }

end World

def answer (t : ℕ) (q : Statement) (c : Choice) (w : World) :
    Option (Except Failure q.Answer × World) :=
  let free := w.rowLock = none ∨ w.rowLock = some t
  match q, c with
  | .selectSender, .sender found => some (.ok found, w)
  | .lockMailbox, .ok =>
    if w.lock = none then some (.ok (), { w with lock := some t }) else none
  | .selectPolicy, .ok =>
    if w.policy = none then some (.ok none, w)
    else if free then some (.ok w.policy, { w.write t (w.readPolicy t) with rowLock := some t })
    else none
  | .neutralize, .ok =>
    if free then
      some (.ok (w.policy.map fun row => { row with policyType := none }),
        { w.write t { w.draft t with policyType := some none } with rowLock := some t })
    else none
  | .revertKeeps, .ok =>
    some (.ok (w.log.filter (!·.reverted)).length,
      w.write t { w.draft t with reverts := w.log.length, found := some w.log.length })
  | .selectLatestKeep, .row none => if w.log = [] then some (.ok none, w) else none
  | .selectLatestKeep, .row (some i) =>
    if isLatest w.log (fun _ => true) i then
      some (.ok ((w.log[i]?).map (·.reverted)), w.write t { w.draft t with decided := some i })
    else none
  | .upsertKeep, .ok =>
    if free then
      some (.ok (),
        { w.write t { w.draft t with policyType := some (some .keep) } with rowLock := some t })
    else none
  | .selectRecentKeep windowStart, .row none =>
    if w.log.any fun row => !row.reverted && windowStart ≤ row.occurredAt then none
    else some (.ok none, w)
  | .selectRecentKeep windowStart, .row (some i) =>
    if isLatest w.log (fun row => !row.reverted && windowStart ≤ row.occurredAt) i then
      some (.ok ((w.log[i]?).map (·.occurredAt)), w)
    else none
  | .insertKeep, .time now =>
    some (.ok now, w.write t { w.draft t with inserted := some now })
  | .commit, .ok => some (.ok (), w.commit t)
  | .commit, .fails e => some (.error e, w.rollback t)
  | .rollback, .ok => some (.ok (), w.rollback t)
  | .rollback, _ => none
  | _, .fails e => some (.error e, w)
  | _, _ => none

inductive Task
  | undoKeep
  | deliver (keep : KeepId)
  | recordKeepIntent (windowStart : ℤ)

def Task.code : Task → KeepProgram Unit
  | .undoKeep => do
    let _ ← KeepUndo.undoKeep
  | .deliver _ => handleTriageVerdictApplied .keep
  | .recordKeepIntent windowStart => do
    let _ ← KeepUndo.recordKeepIntent windowStart

/-- An event is delivered once its Keep is recorded, and may be delivered again. -/
def accept (t : ℕ) (task : Task) (w : World) : Option World :=
  match task with
  | .deliver keep =>
    if keep < w.log.length ∧ w.lock ≠ some t then
      some { w with delivers := Function.update w.delivers t keep }
    else none
  | .undoKeep | .recordKeepIntent _ => some w

/-- What the rest of the system does to the tables. -/
inductive Event
  /-- Another writer of the policy commits. -/
  | policy (row : Option Policy)
  /-- `setPolicy` has recorded a Keep and set the policy. -/
  | setKeep (now : ℤ)

def disturb (e : Event) (w : World) : Option World :=
  if w.rowLock = none then
    match e with
    | .policy row => some { w with policy := row }
    | .setKeep now =>
      let log := w.log ++ [⟨now, false⟩]
      some { w with
        policy := some ⟨some .keep, w.policy.any (·.isProtected)⟩
        log
        amiss := w.amiss || disordered log w.undone }
  else none

@[reducible]
def keeping : System KeepSignature where
  World := World
  Thread := ℕ
  Task := Task
  Outcome := Unit
  Choice := Choice
  Event := Event
  code := Task.code
  accept := accept
  answer := answer
  settle _ _ w := some w
  crash t w := some (w.rollback t)
  disturb := disturb

end DeclutrMail.Senders.KeepUndo
