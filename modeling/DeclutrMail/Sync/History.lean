import Mathlib.Logic.Function.Basic
import DeclutrMail.Collections.Batches
import DeclutrMail.Collections.InsertionMap

/-!
# Applying Gmail history to the local mirror

`EventLoop` holds the locals of the event loop of `IncrementalSyncWorker` together with
the rows of `mail_messages` it writes. Consecutive label records and consecutive
tombstones are buffered and written set-based, one statement for `applyBatchSize`
messages. A run is flushed before any record of another kind.

The columns that the statements neither read nor write here (subject, dates, recipients,
the keys of touched senders) are left out.
-/

namespace DeclutrMail.Sync

open Batches

abbrev MessageId := String

abbrev Label := String

def nonMailLabels : List Label := ["DRAFT", "CHAT"]

/-- A draft or a chat line is not mail. -/
def isNonMail (labelIds : List Label) : Bool :=
  nonMailLabels.any fun label => decide (label ∈ labelIds)

inductive LabelHistoryKind
  | labelsAdded
  | labelsRemoved
  deriving DecidableEq

structure LabelHistoryRecord where
  kind : LabelHistoryKind
  messageId : MessageId
  labelIds : List Label
  deriving DecidableEq

/-- A normalised record of `users.history.list`. The two kinds of label record share their
shape and the code that buffers them. -/
inductive GmailHistoryRecord
  | added (messageId : MessageId) (labelIds : List Label)
  | deleted (messageId : MessageId)
  | labels (record : LabelHistoryRecord)
  deriving DecidableEq

structure GmailMessageMetadata where
  id : MessageId
  labelIds : List Label
  deriving DecidableEq

/-- The two columns of a row of `mail_messages` that history records change. -/
structure MailMessage where
  labelIds : List Label
  isUnread : Bool
  deriving DecidableEq

/-- The rows of one mailbox, by `provider_message_id`. -/
abbrev Mirror := MessageId → Option MailMessage

def applyBatchSize : ℕ := 1000

/-! ## Label runs -/

/-- The net change of one message: a label is added or removed, never both. -/
structure LabelChange where
  add : List Label
  remove : List Label
  records : ℕ
  apart : ∀ label ∈ add, label ∉ remove

namespace LabelChange

def none : LabelChange := ⟨[], [], 0, by simp⟩

/-- `into.add(label)` and `outOf.delete(label)`. -/
def touch (kind : LabelHistoryKind) (change : LabelChange) (label : Label) : LabelChange :=
  match kind with
  | .labelsAdded =>
    { change with
      add := put change.add label
      remove := change.remove.filter (· ≠ label)
      apart := by
        have apart := change.apart
        simp only [mem_put, List.mem_filter]
        grind }
  | .labelsRemoved =>
    { change with
      add := change.add.filter (· ≠ label)
      remove := put change.remove label
      apart := by
        have apart := change.apart
        simp only [mem_put, List.mem_filter]
        grind }

def record (change : LabelChange) (r : LabelHistoryRecord) : LabelChange :=
  r.labelIds.foldl (touch r.kind) { change with records := change.records + 1 }

end LabelChange

/-- One turn of the loop that folds a run to a net change for each message. -/
def recordChange (net : InsertionMap MessageId LabelChange) (r : LabelHistoryRecord) :
    InsertionMap MessageId LabelChange :=
  if r.labelIds = [] then net
  else net.set r.messageId (((net.get r.messageId).getD .none).record r)

def netChanges (records : List LabelHistoryRecord) : InsertionMap MessageId LabelChange :=
  records.foldl recordChange .empty

/-- The `SET` expressions of the batch update. The order that `array_agg(DISTINCT label)`
leaves depends on the collation; here the first occurrences stay in place. -/
def MailMessage.relabel (row : MailMessage) (v : LabelChange) : MailMessage where
  labelIds :=
    if v.add.length > 0 then distinct ((row.labelIds ++ v.add).filter (· ∉ v.remove))
    else row.labelIds.filter (· ∉ v.remove)
  isUnread :=
    if "UNREAD" ∈ v.add then true
    else if "UNREAD" ∈ v.remove then false
    else row.isUnread

/-- `UPDATE mail_messages … FROM v WHERE provider_message_id = v.message_id`. -/
def updateBatch (mirror : Mirror) (batch : List (MessageId × LabelChange)) : Mirror := fun id =>
  (mirror id).map fun row => ((InsertionMap.find id batch).map row.relabel).getD row

/-- The rows of a batch that the update returns. -/
def updated (mirror : Mirror) (batch : List (MessageId × LabelChange)) : List MessageId :=
  (batch.map Prod.fst).filter fun id => (mirror id).isSome

/-- `applyLabelRun`: the mirror, and `matchedRecords`. -/
def applyLabelRun (mirror : Mirror) (records : List LabelHistoryRecord) : Mirror × ℕ :=
  let net := netChanges records
  (batches applyBatchSize net.entries).foldl
    (fun (mirror, matchedRecords) batch =>
      (updateBatch mirror batch,
        matchedRecords +
          ((updated mirror batch).map fun id => ((net.get id).map (·.records)).getD 0).sum))
    (mirror, 0)

/-! ## Delete runs -/

/-- `DELETE FROM mail_messages WHERE provider_message_id IN (…)`. -/
def deleteBatch (mirror : Mirror) (ids : List MessageId) : Mirror := fun id =>
  if id ∈ ids then none else mirror id

/-- `applyDeleteRun`: the mirror, and the number of rows removed. -/
def applyDeleteRun (mirror : Mirror) (messageIds : List MessageId) : Mirror × ℕ :=
  (batches applyBatchSize (distinct messageIds)).foldl
    (fun (mirror, removed) ids =>
      (deleteBatch mirror ids, removed + (ids.filter fun id => (mirror id).isSome).length))
    (mirror, 0)

/-! ## The event loop -/

/-- The mirror and the counters that a run reports. -/
structure Applied where
  mirror : Mirror
  added : ℕ
  deleted : ℕ
  labelChanges : ℕ

/-- A mirror before any record. -/
def Applied.start (mirror : Mirror) : Applied := ⟨mirror, 0, 0, 0⟩

/-- `handleMessageAdded`, given what the metadata fetch resolved to: the upsert on
`(mailbox, provider_message_id)`, counted when it inserted. -/
def Applied.handleMessageAdded (s : Applied) (fetched : Option GmailMessageMetadata) : Applied :=
  match fetched with
  | none => s
  | some metadata =>
    if isNonMail metadata.labelIds then s
    else
      let isUnread := decide ("UNREAD" ∈ metadata.labelIds)
      { s with
        mirror := Function.update s.mirror metadata.id (some ⟨metadata.labelIds, isUnread⟩)
        added := s.added + if (s.mirror metadata.id).isSome then 0 else 1 }

/-- The loop's locals: what has been applied, and the two buffers. -/
structure EventLoop extends Applied where
  labelRun : List LabelHistoryRecord
  deleteRun : List MessageId

namespace EventLoop

def start (mirror : Mirror) : EventLoop := ⟨.start mirror, [], []⟩

def flushLabelRun (s : EventLoop) : EventLoop :=
  if s.labelRun = [] then s
  else
    let applied := applyLabelRun s.mirror s.labelRun
    { s with
      mirror := applied.1
      labelChanges := s.labelChanges + applied.2
      labelRun := [] }

def flushDeleteRun (s : EventLoop) : EventLoop :=
  if s.deleteRun = [] then s
  else
    let removed := applyDeleteRun s.mirror s.deleteRun
    { s with
      mirror := removed.1
      deleted := s.deleted + removed.2
      deleteRun := [] }

/-- The `added` case of the loop after its flushes. -/
def handleAdded (s : EventLoop) (fetched : Option GmailMessageMetadata) : EventLoop :=
  { s with toApplied := s.toApplied.handleMessageAdded fetched }

/-- The body of the event loop. `fetched` is what the metadata fetch of an `added` record
resolves to; the other records make no fetch. -/
def applyRecord (s : EventLoop) (ev : GmailHistoryRecord × Option GmailMessageMetadata) :
    EventLoop :=
  match ev.1 with
  | .added _ labelIds =>
    let s := s.flushLabelRun.flushDeleteRun
    if isNonMail labelIds then s else s.handleAdded ev.2
  | .deleted messageId =>
    let s := s.flushLabelRun
    { s with deleteRun := s.deleteRun ++ [messageId] }
  | .labels record =>
    let s := s.flushDeleteRun
    { s with labelRun := s.labelRun ++ [record] }

end EventLoop

/-- The event loop over all records, with its two flushes at the end. -/
def applyEvents (mirror : Mirror)
    (events : List (GmailHistoryRecord × Option GmailMessageMetadata)) : Applied :=
  (events.foldl EventLoop.applyRecord (.start mirror)).flushLabelRun.flushDeleteRun.toApplied

end DeclutrMail.Sync
