import DeclutrMail.Actions.CleanupMeter

/-!
# Rows of `action_jobs`

The table as `ActionsService` reads and writes it: forward jobs and the reverse jobs of their
Undo, with the unique index on the idempotency key.
-/

namespace DeclutrMail.Actions

abbrev MailboxId := ℕ

abbrev ActionId := ℕ

/-- An `undo_journal.token`. -/
abbrev UndoToken := ℕ

inductive Direction
  | forward
  | reverse
  deriving DecidableEq

/-- `LabelActionSelector`, its ids and keys. -/
inductive Selector
  | sender (senderId senderKey : String)
  | messages
  deriving DecidableEq

/-- `selector->>'senderId'` -/
def Selector.senderId : Selector → Option String
  | sender senderId _ => some senderId
  | messages => none

/-- `selector->>'senderKey'` -/
def Selector.senderKey : Selector → Option String
  | sender _ senderKey => some senderKey
  | messages => none

inductive Reach
  | inboxOnly
  | allMail
  deriving DecidableEq

structure ActionRow where
  id : ActionId
  mailboxAccountId : MailboxId
  verb : Verb
  direction : Direction
  selector : Selector
  resolvedMessageIds : List String
  requestedCount : ℕ
  affectedCount : ℕ
  status : JobStatus
  idempotencyKey : String
  undoToken : Option UndoToken
  errorCode : Option String
  compositeId : Option ActionId
  wakeAt : Option ℤ
  reach : Reach
  deriving DecidableEq

/-- An exception of the API: its HTTP status, its message and, unless it is a bare text, its
code. -/
structure ServiceError where
  status : ℕ
  code : Option String
  message : String
  deriving DecidableEq

namespace ServiceError

def queueUnavailable : ServiceError :=
  ⟨503, "QUEUE_UNAVAILABLE", "Action queue unavailable — REDIS_URL is not set."⟩

def idempotencyKeyConflict : ServiceError :=
  ⟨409, "IDEMPOTENCY_KEY_CONFLICT", "Idempotency-Key already used by a different request."⟩

def enqueueFailed (reason : String) : ServiceError :=
  ⟨503, "ENQUEUE_FAILED", "Could not enqueue the action: " ++ reason⟩

end ServiceError

def enqueueFailedErrorCode : String := "ENQUEUE_FAILED"

/-- Queued or executing. -/
def JobStatus.live : JobStatus → Bool
  | queued | executing => true
  | done | failed => false

namespace ActionRow

/-- `coalesce(composite_id, id)` -/
def groupId (row : ActionRow) : ActionId := row.compositeId.getD row.id

/-- A forward row that carries the token. -/
def issued (mailboxAccountId : MailboxId) (token : UndoToken) (row : ActionRow) : Bool :=
  row.undoToken = some token && row.mailboxAccountId = mailboxAccountId &&
    row.direction = .forward

/-- A job that could not be enqueued keeps its id and its key. -/
theorem keeps_enqueueFailed (row : ActionRow) :
    let failed := { row with status := .failed, errorCode := some enqueueFailedErrorCode }
    failed.id = row.id ∧ failed.idempotencyKey = row.idempotencyKey :=
  ⟨rfl, rfl⟩

end ActionRow

/-! ## The table -/

structure JobTable where
  rows : List ActionRow
  ids : (rows.map (·.id)).Nodup
  keys : (rows.map (·.idempotencyKey)).Nodup

namespace JobTable

variable {table : JobTable} {row row' : ActionRow} {key : String}

def get (table : JobTable) (key : String) : Option ActionRow :=
  table.rows.find? (·.idempotencyKey = key)

/-- An id that no row has; the ids of the source are random. -/
def freshId (table : JobTable) : ActionId := (table.rows.map (·.id)).sum + 1

theorem lt_freshId (mem : row ∈ table.rows) : row.id < table.freshId :=
  Nat.lt_succ_of_le (List.single_le_sum (by simp) _ (List.mem_map_of_mem mem))

theorem eq_of_id (mem : row ∈ table.rows) (mem' : row' ∈ table.rows) (same : row.id = row'.id) :
    row = row' := List.inj_on_of_nodup_map table.ids mem mem' same

theorem eq_of_key (mem : row ∈ table.rows) (mem' : row' ∈ table.rows)
    (same : row.idempotencyKey = row'.idempotencyKey) : row = row' :=
  List.inj_on_of_nodup_map table.keys mem mem' same

theorem get_eq_some : table.get key = some row ↔ row ∈ table.rows ∧ row.idempotencyKey = key := by
  unfold get
  constructor
  · intro found
    exact ⟨List.mem_of_find?_eq_some found, by simpa using List.find?_some found⟩
  · rintro ⟨mem, rfl⟩
    cases found : table.rows.find? (·.idempotencyKey = row.idempotencyKey) with
    | none => simpa using List.find?_eq_none.mp found row mem
    | some other =>
      have same : other.idempotencyKey = row.idempotencyKey := by simpa using List.find?_some found
      rw [eq_of_key (List.mem_of_find?_eq_some found) mem same]

/-- The table with a row added under a new id. -/
def add (table : JobTable) (input : ActionRow) (absent : table.get input.idempotencyKey = none) :
    JobTable where
  rows := table.rows ++ [{ input with id := table.freshId }]
  ids := by
    rw [List.map_append, List.nodup_append]
    refine ⟨table.ids, List.nodup_singleton _, ?_⟩
    intro id mem other single
    obtain ⟨row, there, rfl⟩ := List.mem_map.mp mem
    have below := lt_freshId there
    simp only [List.map_cons, List.map_nil, List.mem_singleton] at single
    exact single ▸ below.ne
  keys := by
    rw [List.map_append, List.nodup_append]
    refine ⟨table.keys, List.nodup_singleton _, ?_⟩
    intro key mem other single
    obtain ⟨row, there, rfl⟩ := List.mem_map.mp mem
    have none := List.find?_eq_none.mp absent row there
    simp_all

/-- `INSERT … ON CONFLICT (idempotency_key) DO NOTHING`, else the row that is there, which
must be of the same mailbox. -/
def insert (table : JobTable) (input : ActionRow) :
    Except ServiceError (JobTable × Bool × ActionRow) :=
  match found : table.get input.idempotencyKey with
  | none => .ok (table.add input found, false, { input with id := table.freshId })
  | some existing =>
    if existing.mailboxAccountId = input.mailboxAccountId then .ok (table, true, existing)
    else .error .idempotencyKeyConflict

/-- `UPDATE … SET change WHERE chosen` -/
def update (table : JobTable) (chosen : ActionRow → Bool) (change : ActionRow → ActionRow)
    (keeps : ∀ row, (change row).id = row.id ∧ (change row).idempotencyKey = row.idempotencyKey) :
    JobTable where
  rows := table.rows.map fun row => if chosen row then change row else row
  ids := by
    rw [List.map_map]
    convert table.ids using 2
    funext row
    have := (keeps row).1
    grind
  keys := by
    rw [List.map_map]
    convert table.keys using 2
    funext row
    have := (keeps row).2
    grind

theorem get_add {input : ActionRow} (absent : table.get input.idempotencyKey = none) :
    (table.add input absent).get key =
      if key = input.idempotencyKey then some { input with id := table.freshId }
      else table.get key := by
  unfold get add at *
  rw [List.find?_append]
  split_ifs with here
  · rw [here, absent]
    simp
  · cases table.rows.find? (·.idempotencyKey = key) with
    | none => simp [Ne.symm here]
    | some row => rfl

theorem get_update {chosen : ActionRow → Bool} {change : ActionRow → ActionRow}
    (keeps : ∀ row, (change row).id = row.id ∧ (change row).idempotencyKey = row.idempotencyKey) :
    (table.update chosen change keeps).get key =
      (table.get key).map fun row => if chosen row then change row else row := by
  unfold get update
  rw [List.find?_map]
  congr 2
  funext row
  have := (keeps row).2
  simp only [Function.comp_apply]
  grind

/-- An insert adds the row or finds the one with its key. -/
theorem insert_eq_ok {input row : ActionRow} {table' : JobTable} {existing : Bool}
    (inserted : table.insert input = .ok (table', existing, row)) :
    (existing = true ∧ table' = table ∧ table.get input.idempotencyKey = some row ∧
      row.mailboxAccountId = input.mailboxAccountId) ∨
    (existing = false ∧ ∃ absent, table' = table.add input absent ∧
      row = { input with id := table.freshId }) := by
  unfold insert at inserted
  split at inserted
  next absent =>
    obtain ⟨rfl, rest⟩ := Prod.mk.inj (Except.ok.inj inserted)
    obtain ⟨rfl, rfl⟩ := Prod.mk.inj rest
    exact .inr ⟨rfl, absent, rfl, rfl⟩
  next found =>
    split_ifs at inserted with own
    obtain ⟨rfl, rest⟩ := Prod.mk.inj (Except.ok.inj inserted)
    obtain ⟨rfl, rfl⟩ := Prod.mk.inj rest
    exact .inl ⟨rfl, rfl, found, own⟩

end JobTable

end DeclutrMail.Actions
