import DeclutrMail.Undo.Journal

/-!
# Undo of a whole decision

`UndoController.performRevert` validates the posted token and hands it to
`enqueueCompositeRevert`, which walks the forward jobs of its decision and enqueues a reverse
job (`enqueueRevert`) for each that has a token. Validity is checked of the posted token alone.

What becomes of a job that the queue still holds under the same id is left out.
-/

namespace DeclutrMail.Undo

open Actions Batches

/-- What a call works on: the tables, and the tokens whose reverse jobs the queue got. -/
structure Api where
  db : Tables
  added : List UndoToken

abbrev Call (α : Type) := Api → Except ServiceError α × Api

/-- What `queue.add` does; one that throws may have landed all the same. -/
inductive QueueAnswer
  | accepted
  | failed (reason : String) (landed : Bool)

/-- The instant of a call, whether there is a queue, and what the queue answers. -/
structure Env where
  now : ℤ
  queue : Bool
  answer : UndoToken → QueueAnswer

/-! ## Reverse rows -/

def revertKey (token : UndoToken) : String := "revert-" ++ toString token

/-- The row that undoes a forward job, before it has its id. -/
def reverseRow (mailboxAccountId : MailboxId) (forward : ActionRow) (token : UndoToken) :
    ActionRow where
  id := 0
  mailboxAccountId
  verb := forward.verb
  direction := .reverse
  selector := forward.selector
  resolvedMessageIds := forward.resolvedMessageIds
  requestedCount := forward.resolvedMessageIds.length
  affectedCount := 0
  status := .queued
  idempotencyKey := revertKey token
  undoToken := some token
  errorCode := none
  compositeId := none
  wakeAt := forward.wakeAt
  reach := forward.reach

/-- The reverse job of the token is recorded done. -/
def ReverseDone (jobs : JobTable) (token : UndoToken) : Prop :=
  ∃ row, jobs.get (revertKey token) = some row ∧ row.status = .done

theorem IssuedOnce.insert {table table' : JobTable} {input row : ActionRow} {existing : Bool}
    (once : IssuedOnce table.rows) (isReverse : input.direction = .reverse)
    (inserted : table.insert input = .ok (table', existing, row)) : IssuedOnce table'.rows := by
  unfold JobTable.insert at inserted
  split at inserted
  · obtain ⟨rfl, -⟩ := Prod.mk.inj (Except.ok.inj inserted)
    intro a memA b memB forwardA forwardB
    simp only [JobTable.add, List.mem_append, List.mem_singleton] at memA memB
    rcases memA with memA | rfl
    · rcases memB with memB | rfl
      · exact once a memA b memB forwardA forwardB
      · simp [isReverse] at forwardB
    · simp [isReverse] at forwardA
  · split_ifs at inserted
    obtain ⟨rfl, -⟩ := Prod.mk.inj (Except.ok.inj inserted)
    exact once

theorem IssuedOnce.update {table : JobTable} {chosen : ActionRow → Bool}
    {change : ActionRow → ActionRow}
    {keeps : ∀ row, (change row).id = row.id ∧ (change row).idempotencyKey = row.idempotencyKey}
    (once : IssuedOnce table.rows)
    (same : ∀ row, (change row).direction = row.direction ∧
      (change row).undoToken = row.undoToken) :
    IssuedOnce (table.update chosen change keeps).rows := by
  have kept : ∀ row, (if chosen row then change row else row).direction = row.direction ∧
      (if chosen row then change row else row).undoToken = row.undoToken := by
    intro row
    split_ifs
    · exact same row
    · exact ⟨rfl, rfl⟩
  intro a memA b memB forwardA forwardB token tokenA tokenB
  obtain ⟨a, thereA, rfl⟩ := List.mem_map.mp memA
  obtain ⟨b, thereB, rfl⟩ := List.mem_map.mp memB
  rw [(kept a).1] at forwardA
  rw [(kept b).1] at forwardB
  rw [(kept a).2] at tokenA
  rw [(kept b).2] at tokenB
  rw [once a thereA b thereB forwardA forwardB token tokenA tokenB]

namespace Api

/-- A row is queued again: `status`, `errorCode` and `affectedCount` are reset. -/
def rearm (api : Api) (id : ActionId) : Api :=
  { api with
    db :=
      { api.db with
        jobs := api.db.jobs.update (·.id = id)
          (fun row => { row with status := .queued, errorCode := none, affectedCount := 0 })
          fun _ => ⟨rfl, rfl⟩
        issuedOnce := api.db.issuedOnce.update fun _ => ⟨rfl, rfl⟩ } }

/-- The row of an enqueue that failed, if it is still queued. -/
def fail (api : Api) (id : ActionId) (mailboxAccountId : MailboxId) : Api :=
  { api with
    db :=
      { api.db with
        jobs := api.db.jobs.update
          (fun row => row.id = id && row.mailboxAccountId = mailboxAccountId &&
            row.status = .queued)
          (fun row => { row with status := .failed, errorCode := some enqueueFailedErrorCode })
          ActionRow.keeps_enqueueFailed
        issuedOnce := api.db.issuedOnce.update fun _ => ⟨rfl, rfl⟩ } }

def add (api : Api) (token : UndoToken) : Api := { api with added := api.added ++ [token] }

end Api

/-! ## Enqueueing -/

variable (env : Env) (mailboxAccountId : MailboxId)

def enqueueJob (id : ActionId) (token : UndoToken) : Call Unit := fun api =>
  match env.answer token with
  | .accepted => (.ok (), api.add token)
  | .failed reason landed =>
    let api := if landed then api.add token else api
    (.error (.enqueueFailed reason), api.fail id mailboxAccountId)

structure Handle where
  token : UndoToken
  actionId : ActionId
  status : JobStatus
  deriving DecidableEq

def queueRevert (id : ActionId) (token : UndoToken) : Call Handle := fun api =>
  match enqueueJob env mailboxAccountId id token api with
  | (.error e, api) => (.error e, api)
  | (.ok (), api) => (.ok ⟨token, id, .queued⟩, api)

/-- A reverse row that exists and is not done may be stranded: it is queued once more. -/
def enqueueRevert (forward : ActionRow) (token : UndoToken) : Call Handle := fun api =>
  if env.queue = false then (.error .queueUnavailable, api)
  else
    match inserted : api.db.jobs.insert (reverseRow mailboxAccountId forward token) with
    | .error e => (.error e, api)
    | .ok (_, true, row) =>
      if row.status = .done then (.ok ⟨token, row.id, .done⟩, api)
      else queueRevert env mailboxAccountId row.id token (api.rearm row.id)
    | .ok (jobs, false, row) =>
      let db := { api.db with jobs, issuedOnce := api.db.issuedOnce.insert rfl inserted }
      queueRevert env mailboxAccountId row.id token { api with db }

/-- The loop over the jobs of a decision: one without a token changed nothing, an unsubscribe
has nothing to undo. -/
def enqueueReverts : List ActionRow → Call (List Handle)
  | [], api => (.ok [], api)
  | sibling :: siblings, api =>
    match sibling.undoToken with
    | none => enqueueReverts siblings api
    | some token =>
      if sibling.verb = .unsubscribe then enqueueReverts siblings api
      else
        match enqueueRevert env mailboxAccountId sibling token api with
        | (.error e, api) => (.error e, api)
        | (.ok handle, api) =>
          match enqueueReverts siblings api with
          | (.error e, api) => (.error e, api)
          | (.ok handles, api) => (.ok (handle :: handles), api)

namespace Tables

variable (db : Tables)

/-- The forward row that issued the token. -/
def forwardRow (token : UndoToken) : Option ActionRow :=
  db.jobs.rows.find? (·.issued mailboxAccountId token)

/-- Composite siblings: the primary itself and every secondary. -/
def siblings (primaryId : ActionId) : List ActionRow :=
  db.jobs.rows.filter fun row =>
    row.mailboxAccountId = mailboxAccountId && row.direction = .forward &&
      (row.id = primaryId || row.compositeId = some primaryId)

/-- `siblings.sort`: the primary first. -/
def primaryFirst (primaryId : ActionId) (siblings : List ActionRow) : List ActionRow :=
  siblings.filter (·.id = primaryId) ++ siblings.filter (·.id ≠ primaryId)

def hasUnrevertedCompositeSiblings (token : UndoToken) : Bool :=
  match db.forwardRow mailboxAccountId token with
  | none => false
  | some forward =>
    (db.siblings mailboxAccountId forward.groupId).any fun sibling =>
      sibling.verb ≠ .unsubscribe &&
        (sibling.status.live || sibling.undoToken.any fun token =>
          ((db.entryOf mailboxAccountId token).bind (·.revertedAt)).isNone)

end Tables

def ServiceError.actionNotFound : ServiceError :=
  ⟨404, "ACTION_NOT_FOUND", "No forward action matches this undo token."⟩

def ServiceError.actionStillRunning : ServiceError :=
  ⟨409, "ACTION_STILL_RUNNING", "Wait for this cleanup to finish before Undo."⟩

def ServiceError.unsubscribeIrreversible : ServiceError :=
  ⟨400, none, "Unsubscribe cannot be reversed."⟩

/-- `action` is the scope of one sender's action. -/
def enqueueCompositeRevert (token : UndoToken) (action : Bool) : Call (List Handle) := fun api =>
  if env.queue = false then (.error .queueUnavailable, api)
  else
    match api.db.forwardRow mailboxAccountId token with
    | none => (.error ServiceError.actionNotFound, api)
    | some forward =>
      if action then
        if forward.verb = .unsubscribe then (.error ServiceError.unsubscribeIrreversible, api)
        else
          match enqueueRevert env mailboxAccountId forward token api with
          | (.error e, api) => (.error e, api)
          | (.ok handle, api) => (.ok [handle], api)
      else
        let siblings := api.db.siblings mailboxAccountId forward.groupId
        if siblings.any fun sibling => sibling.verb ≠ .unsubscribe && sibling.status.live then
          (.error ServiceError.actionStillRunning, api)
        else
          enqueueReverts env mailboxAccountId (Tables.primaryFirst forward.groupId siblings) api

/-! ## The endpoint -/

structure UndoResult where
  token : UndoToken
  actionKind : UndoActionKind
  reverted : Bool
  expired : Bool
  revertedAt : Option ℤ
  actionId : Option ActionId
  actionIds : List ActionId
  deriving DecidableEq

def labelModifyUndoKinds : List UndoActionKind := [.archive, .later, .delete]

/-- `undo-action-kind` as the wire has it. -/
def UndoActionKind.name : UndoActionKind → String
  | archive => "archive"
  | unsubscribe => "unsubscribe"
  | later => "later"
  | applyRule => "apply-rule"
  | delete => "delete"

namespace Tables

variable (db : Tables)

/-- The checks before anything is enqueued. The flag says whether the call goes on; else the
success of an earlier one is returned. -/
def admitted (token : UndoToken) (action : Bool) (now : ℤ) :
    Except ServiceError (UndoJournalEntry × Bool) :=
  let supported (entry : UndoJournalEntry) : Except ServiceError (UndoJournalEntry × Bool) :=
    if entry.actionKind ∈ labelModifyUndoKinds then .ok (entry, true)
    else
      .error ⟨501, "UNSUPPORTED_UNDO",
        "Undo for \"" ++ entry.actionKind.name ++ "\" is not available yet."⟩
  match db.findRevertable mailboxAccountId token now with
  | .notFound => .error ⟨404, "NOT_FOUND", "Undo token not found."⟩
  | .expired _ => .error ⟨410, "GONE", "Undo window has expired."⟩
  | .alreadyReverted entry =>
    if action ∨ db.hasUnrevertedCompositeSiblings mailboxAccountId token = false then
      .ok (entry, false)
    else supported entry
  | .ready entry => supported entry

/-- `getUndoStatus(…).undoRevertedAt` -/
def undoRevertedAt (actionIds : List ActionId) : Except ServiceError (Option ℤ) :=
  let ids := distinct actionIds
  if ids = [] then .error ⟨400, "INVALID_REQUEST", "No reverse jobs to check."⟩
  else
    let rows := db.jobs.rows.filter fun row =>
      row.id ∈ ids && row.mailboxAccountId = mailboxAccountId && row.direction = .reverse
    let revertedAts := rows.map fun row =>
      row.undoToken.bind fun token => (db.entryOf mailboxAccountId token).bind (·.revertedAt)
    let terminal := rows.all fun row => !row.status.live
    let failed := rows.any (·.status = .failed)
    if rows.length ≠ ids.length then .error ⟨404, "ACTION_NOT_FOUND", "Action not found."⟩
    else if terminal && !failed && revertedAts.any (·.isNone) then
      .error ⟨503, "UNDO_STATUS_UNCONFIRMED", "Couldn’t confirm Undo. Try again."⟩
    else .ok (if terminal && !failed then (revertedAts.filterMap id).max? else none)

end Tables

def performRevert (token : UndoToken) (action : Bool) : Call UndoResult := fun api =>
  match api.db.admitted mailboxAccountId token action env.now with
  | .error e => (.error e, api)
  | .ok (entry, false) =>
    (.ok ⟨entry.token, entry.actionKind, true, false, entry.revertedAt, none, []⟩, api)
  | .ok (entry, true) =>
    match enqueueCompositeRevert env mailboxAccountId token action api with
    | (.error e, api) => (.error e, api)
    | (.ok reverts, api) =>
      let allDone := reverts ≠ [] && reverts.all (·.status = .done)
      let actionIds := reverts.map (·.actionId)
      match if allDone then api.db.undoRevertedAt mailboxAccountId actionIds else .ok none with
      | .error e => (.error e, api)
      | .ok revertedAt =>
        (.ok ⟨token, entry.actionKind, allDone, false, revertedAt, actionIds.head?, actionIds⟩, api)

end DeclutrMail.Undo
