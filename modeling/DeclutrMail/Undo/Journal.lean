import Mathlib.Data.List.Sort
import DeclutrMail.Actions.Rows
import DeclutrMail.Collections.Batches

/-!
# The undo journal and its decisions

`UndoService` says whether a token may be reverted (`findRevertable`) and lists the tokens
that may, grouped into the decisions of the user (`listActiveDecisions`).
-/

namespace DeclutrMail.Undo

open Actions Batches

/-- `undo_action_kind` -/
inductive UndoActionKind
  | archive
  | unsubscribe
  | later
  | applyRule
  | delete
  deriving DecidableEq

structure UndoJournalEntry where
  token : UndoToken
  mailboxAccountId : MailboxId
  actionKind : UndoActionKind
  createdAt : ℤ
  expiresAt : ℤ
  revertedAt : Option ℤ
  deriving DecidableEq

/-- What the names of a sender are read from. -/
structure SenderRow where
  id : String
  mailboxAccountId : MailboxId
  displayName : Option String
  email : Option String
  deriving DecidableEq

/-- No two forward rows carry one token. -/
def IssuedOnce (rows : List ActionRow) : Prop :=
  ∀ a ∈ rows, ∀ b ∈ rows, a.direction = .forward → b.direction = .forward →
    ∀ token, a.undoToken = some token → b.undoToken = some token → a = b

theorem issuedOnce_of_nodup {rows : List ActionRow} (nodup : (rows.map (·.undoToken)).Nodup) :
    IssuedOnce rows := fun _ memA _ memB _ _ _ tokenA tokenB =>
  List.inj_on_of_nodup_map nodup memA memB (tokenA.trans tokenB.symm)

/-- The tokens are the key of the journal, and each is on at most one forward job, the one
that issued it. -/
structure Tables where
  journal : List UndoJournalEntry
  jobs : JobTable
  senders : List SenderRow
  tokens : (journal.map (·.token)).Nodup
  issuedOnce : IssuedOnce jobs.rows

/-! ## Revertable tokens -/

def UndoJournalEntry.revertable (entry : UndoJournalEntry) (now : ℤ) : Bool :=
  entry.revertedAt.isNone && now < entry.expiresAt

inductive Found
  | ready (entry : UndoJournalEntry)
  | alreadyReverted (entry : UndoJournalEntry)
  | expired (entry : UndoJournalEntry)
  | notFound
  deriving DecidableEq

namespace Tables

variable (db : Tables)

def entryOf (mailboxAccountId : MailboxId) (token : UndoToken) : Option UndoJournalEntry :=
  db.journal.find? fun entry => entry.token = token && entry.mailboxAccountId = mailboxAccountId

def findRevertable (mailboxAccountId : MailboxId) (token : UndoToken) (now : ℤ) : Found :=
  match db.entryOf mailboxAccountId token with
  | none => .notFound
  | some entry =>
    if entry.revertedAt ≠ none then .alreadyReverted entry
    else if entry.expiresAt ≤ now then .expired entry
    else .ready entry

/-- The token is neither reverted nor expired. -/
def Revertable (mailboxAccountId : MailboxId) (token : UndoToken) (now : ℤ) : Prop :=
  ∃ entry, db.findRevertable mailboxAccountId token now = .ready entry

end Tables

/-! ## Decisions -/

/-- The identity of a decision: `coalesce(aj.composite_id, aj.id, uj.token)`. -/
inductive GroupId
  | job (id : ActionId)
  | token (token : UndoToken)
  deriving DecidableEq

/-- The order of the column, on which only ties depend. -/
def GroupId.rank : GroupId → ℕ ×ₗ ℕ
  | job id => toLex (0, id)
  | token t => toLex (1, t)

/-- A row of `active`: a token that may be reverted, beside the forward job that issued it. -/
structure ActiveRow where
  entry : UndoJournalEntry
  job : Option ActionRow
  deriving DecidableEq

namespace ActiveRow

def groupId (row : ActiveRow) : GroupId :=
  match row.job with
  | some job => .job job.groupId
  | none => .token row.entry.token

def affectedCount (row : ActiveRow) : Option ℕ := row.job.map (·.affectedCount)

def senderId (row : ActiveRow) : Option String := row.job.bind (·.selector.senderId)

/-- `affected_count desc nulls last, token` -/
def sizeKey (row : ActiveRow) : ℕ ×ₗ ℤ ×ₗ ℕ :=
  match row.affectedCount with
  | some count => toLex (0, toLex (-(count : ℤ), row.entry.token))
  | none => toLex (1, toLex (0, row.entry.token))

/-- The anchor of the decision comes first, then the largest member. -/
def leadKey (groupId : GroupId) (row : ActiveRow) : ℕ ×ₗ ℕ ×ₗ ℤ ×ₗ ℕ :=
  toLex (if row.job.any fun job => GroupId.job job.id = groupId then 0 else 1, row.sizeKey)

/-- The row of the two with the smaller key. -/
def lead (groupId : GroupId) (best row : ActiveRow) : ActiveRow :=
  if row.leadKey groupId < best.leadKey groupId then row else best

end ActiveRow

structure DecisionMember where
  token : UndoToken
  actionKind : UndoActionKind
  senderName : Option String
  affectedCount : ℕ
  deriving DecidableEq

structure UndoDecision where
  groupId : GroupId
  token : UndoToken
  actionKind : UndoActionKind
  createdAt : ℤ
  expiresAt : ℤ
  senderCount : ℕ
  memberCount : ℕ
  affectedCount : Option ℕ
  mixedKinds : Bool
  protectedSkippedCount : ℕ
  members : List DecisionMember
  deriving DecidableEq

/-- Members listed per decision; totals stay exact beyond it. -/
def decisionMembersMax : ℕ := 25

def labelSenderProtectedErrorCode : String := "LABEL_SENDER_PROTECTED"

namespace Tables

variable (db : Tables) (mailboxAccountId : MailboxId)

/-- The rows of a left join of the journal with the forward jobs. -/
def active (now : ℤ) : List ActiveRow :=
  (db.journal.filter fun entry =>
      entry.mailboxAccountId = mailboxAccountId && entry.revertable now).flatMap fun entry =>
    match db.jobs.rows.filter (·.issued mailboxAccountId entry.token) with
    | [] => [⟨entry, none⟩]
    | jobs => jobs.map fun job => ⟨entry, some job⟩

/-- The active rows of one decision. -/
def activeOf (now : ℤ) (groupId : GroupId) : List ActiveRow :=
  (db.active mailboxAccountId now).filter (·.groupId = groupId)

/-- The senders of a decision whose every job was skipped because they were Protected. -/
def protectedSkipped (groupId : GroupId) : ℕ :=
  let members := db.jobs.rows.filter fun job =>
    (GroupId.job job.id = groupId || job.compositeId.any fun id => GroupId.job id = groupId) &&
      job.mailboxAccountId = mailboxAccountId && job.direction = .forward
  ((distinct (members.filterMap (·.selector.senderId))).filter fun senderId =>
    members.all fun job => job.selector.senderId ≠ some senderId ||
      (job.status = .done && job.errorCode = some labelSenderProtectedErrorCode)).length

def senderName (senderId : Option String) : Option String :=
  (db.senders.find? fun sender =>
      some sender.id = senderId && sender.mailboxAccountId = mailboxAccountId).bind fun sender =>
    (sender.displayName.filter (· ≠ "")).or sender.email

def memberOf (row : ActiveRow) : DecisionMember where
  token := row.entry.token
  actionKind := row.entry.actionKind
  senderName := db.senderName mailboxAccountId row.senderId
  affectedCount := row.affectedCount.getD 0

/-- The decision whose active rows these are. -/
def decisionOf (groupId : GroupId) (first : ActiveRow) (rest : List ActiveRow) : UndoDecision :=
  let rows := first :: rest
  let lead := rest.foldl (ActiveRow.lead groupId) first
  let jobs := rows.filterMap (·.job)
  { groupId
    token := lead.entry.token
    actionKind := lead.entry.actionKind
    createdAt := rest.foldl (fun t row => max t row.entry.createdAt) first.entry.createdAt
    expiresAt := rest.foldl (fun t row => min t row.entry.expiresAt) first.entry.expiresAt
    senderCount := (distinct (rows.filterMap (·.senderId))).length
    memberCount := jobs.length
    affectedCount := if jobs.length = 0 then none else some (jobs.map (·.affectedCount)).sum
    mixedKinds := (distinct (rows.map (·.entry.actionKind))).length > 1
    protectedSkippedCount := db.protectedSkipped mailboxAccountId groupId
    members := (((rows.insertionSort fun a b => a.sizeKey ≤ b.sizeKey).take
      decisionMembersMax).filter (·.job.isSome)).map (db.memberOf mailboxAccountId) }

def decision (now : ℤ) (groupId : GroupId) : Option UndoDecision :=
  match db.activeOf mailboxAccountId now groupId with
  | [] => none
  | first :: rest => some (db.decisionOf mailboxAccountId groupId first rest)

/-- The newest decisions, no more than `limit` of them. -/
def listActiveDecisions (now : ℤ) (limit : ℕ) : List UndoDecision :=
  let groups := distinct ((db.active mailboxAccountId now).map (·.groupId))
  ((groups.filterMap (db.decision mailboxAccountId now)).insertionSort fun a b =>
    toLex (-a.createdAt, a.groupId.rank) ≤ toLex (-b.createdAt, b.groupId.rank)).take limit

/-- The tokens of a decision, all of which it counts and of which it names the largest. -/
def shown (now : ℤ) (groupId : GroupId) : List UndoToken :=
  (db.activeOf mailboxAccountId now groupId).map (·.entry.token)

end Tables

end DeclutrMail.Undo
