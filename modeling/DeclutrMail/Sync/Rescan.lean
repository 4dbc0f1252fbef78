import DeclutrMail.Collections.Batches
import DeclutrMail.Sync.Incremental
import DeclutrMail.Sync.Ingest
import DeclutrMail.Sync.InitialSync

/-!
# The scan after an expired cursor

An expired history cursor is cleared, and the initial sync scans the mailbox again. The scan
deletes the stored messages that Gmail no longer lists, and fetches the listed ones, except those
that it finds stored already with an identity of their sender, or as outbound mail. A message that
it skips keeps the labels that it was stored with, and the new cursor is past the records that
would correct them.

An attempt is the list of its writes, each of them atomic; an interrupted attempt is a beginning of
that list. Other workers of the mailbox are not among these runs.
-/

namespace DeclutrMail.Sync.Ingest.Rescan

open Batches Initial

/-- Gmail's mailbox, newest message first, and its history. -/
structure Gmail where
  messages : List GmailMessageMetadata
  historyId : HistoryId
  history : List (HistoryId × GmailHistoryRecord)
  nodup : (messages.map (·.id)).Nodup
  recorded : ∀ entry ∈ history, entry.1 ≤ historyId

/-- `messages.list` leaves out spam and trash. -/
def Gmail.listed (gmail : Gmail) : List GmailMessageMetadata :=
  gmail.messages.filter fun payload => "SPAM" ∉ payload.labelIds ∧ "TRASH" ∉ payload.labelIds

/-- The rows of one mailbox: `mail_messages`, the sender keys of `senders`, and its row of
`provider_sync_state`. -/
structure Mailbox where
  messages : List MailMessage
  withIdentity : List Text
  row : SyncState
  nodup : (messages.map (·.providerMessageId)).Nodup

/-! ## The writes -/

/-- `ON CONFLICT DO UPDATE` of a scanned message. -/
def rescannedRow (message stored : MailMessage) : MailMessage :=
  { message with
    mailboxAccountId := stored.mailboxAccountId
    providerThreadId := stored.providerThreadId
    sizeBytes := message.sizeBytes.or stored.sizeBytes }

def upsert (messages : List MailMessage) (message : MailMessage) : List MailMessage :=
  if message.providerMessageId ∈ messages.map (·.providerMessageId) then
    messages.map fun stored =>
      if stored.providerMessageId = message.providerMessageId then rescannedRow message stored
      else stored
  else messages ++ [message]

theorem nodup_upsert {messages : List MailMessage} (message : MailMessage)
    (nodup : (messages.map (·.providerMessageId)).Nodup) :
    ((upsert messages message).map (·.providerMessageId)).Nodup := by
  unfold upsert
  split_ifs with there
  · have ids : (messages.map fun stored =>
        if stored.providerMessageId = message.providerMessageId then rescannedRow message stored
        else stored).map (·.providerMessageId) = messages.map (·.providerMessageId) := by
      rw [List.map_map]
      refine List.map_congr_left fun stored _ => ?_
      by_cases same : stored.providerMessageId = message.providerMessageId
      · simp [same, rescannedRow]
      · simp [same]
    rwa [ids]
  · rw [List.map_append]
    refine List.nodup_append.mpr ⟨nodup, by simp, ?_⟩
    rintro id mem _ (_ | ⟨_, ⟨⟩⟩) rfl
    exact there mem

theorem nodup_foldl_upsert {messages : List MailMessage} (batch : List MailMessage)
    (nodup : (messages.map (·.providerMessageId)).Nodup) :
    ((batch.foldl upsert messages).map (·.providerMessageId)).Nodup := by
  induction batch generalizing messages with
  | nil => exact nodup
  | cons message batch ih => exact ih (nodup_upsert message nodup)

namespace Mailbox

variable (box : Mailbox)

/-- The rows that a delete leaves. -/
def keep (p : MailMessage → Bool) : Mailbox where
  messages := box.messages.filter p
  withIdentity := box.withIdentity
  row := box.row
  nodup := box.nodup.sublist (List.filter_sublist.map _)

def deleteMessages (ids : List MessageId) : Mailbox :=
  box.keep fun row => decide (row.providerMessageId ∉ ids)

/-- The batch as `mail_messages` accepts it; one row that it refuses rolls the batch back. -/
def flushBatch (keys : List Text) (rows : List MailMessage) : Option Mailbox :=
  (rows.mapM insertMessage).map fun batch =>
    { messages := batch.foldl upsert box.messages
      withIdentity := keys.foldl put box.withIdentity
      row := box.row
      nodup := nodup_foldl_upsert batch box.nodup }

def setRow (row : SyncState) : Mailbox := { box with row }

/-- There is inbound mail of this sender. -/
def writes (key : Text) : Bool :=
  box.messages.any fun row => !row.isOutbound && decide (row.senderKey = key)

/-- The batches of `purgeAllNonMail` that have gone through. -/
def purge (ids : List MessageId) : Mailbox :=
  let left := box.keep fun row => !(decide (row.providerMessageId ∈ ids) && isNonMail row.labelIds)
  { left with withIdentity := left.withIdentity.filter fun key => !box.writes key || left.writes key }

/-- `buildSenderIndex` inserts again the senders of the stored inbound mail. -/
def rebuild : Mailbox := { box with withIdentity := box.withIdentity.filter box.writes }

end Mailbox

inductive Write where
  | claim (k : ℕ) (now : ℤ)
  | setRow (f : SyncState → SyncState)
  | deleteMessages (ids : List MessageId)
  | flushBatch (keys : List Text) (rows : List MailMessage)
  | purge (ids : List MessageId)
  | rebuild

def Write.run (box : Mailbox) : Write → Option Mailbox
  | .claim k now =>
    if box.row.claimable now then some (box.setRow (box.row.advance k .fetchingMetadata 5 now))
    else none
  | .setRow f => some (box.setRow (f box.row))
  | .deleteMessages ids => some (box.deleteMessages ids)
  | .flushBatch keys rows => box.flushBatch keys rows
  | .purge ids => some (box.purge ids)
  | .rebuild => some box.rebuild

def runAll (box : Mailbox) (writes : List Write) : Option Mailbox := writes.foldlM Write.run box

/-! ## An attempt -/

/-- What an attempt meets: its id, the order in which it scans the stored messages, the messages
that Gmail refuses to render, and the rows that its purge gets to. -/
structure Attempt where
  k : ℕ
  now : ℤ
  scan : List MailMessage → List MailMessage
  perm : ∀ rows, (scan rows).Perm rows
  refuses : MessageId → Bool
  purged : List MessageId

def upsertBatch : ℕ := 500

section
variable (R : Runtime) (mailboxAccountId : String) (gmail : Gmail) (a : Attempt) (box : Mailbox)

/-- The rows of messages that Gmail has deleted, or moved to spam or trash. -/
def toDelete : List MessageId :=
  ((a.scan box.messages).map (·.providerMessageId)).filter fun id =>
    decide (id ∉ gmail.listed.map (·.id))

/-- The messages that count as stored already. -/
def skipSet : List MessageId :=
  ((a.scan box.messages).filter fun row =>
    decide (row.providerMessageId ∈ gmail.listed.map (·.id)) &&
      (row.isOutbound || decide (row.senderKey ∈ box.withIdentity))).map (·.providerMessageId)

/-- The messages to fetch, oldest first. -/
def toFetch : List GmailMessageMetadata :=
  gmail.listed.reverse.filter fun payload => decide (payload.id ∉ skipSet gmail a box)

/-- The row of a message that Gmail renders, if it is mail with a sender. -/
def fetchedRow (payload : GmailMessageMetadata) : Option MailMessage :=
  if a.refuses payload.id then none else (toMessageRow R mailboxAccountId payload).map Prod.fst

/-- The sender keys of the inbound messages of a batch. -/
def pendingSenders (rows : List MailMessage) : List Text :=
  (rows.filter fun row => !row.isOutbound).map (·.senderKey)

def flush (pending : List MailMessage) : List Write :=
  if pending = [] then [] else [.flushBatch (pendingSenders pending) pending]

/-- The first attempt's snapshot wins. -/
def snapshot : HistoryId := box.row.lastHistoryId.getD gmail.historyId

def onProgress (processed : ℕ) : Write :=
  .setRow fun row =>
    if World.updatesProgress row then
      row.progress (scanPct processed gmail.listed.length) (snapshot gmail box) a.now
    else row

/-- The loop over the chunks of messages to fetch; the last chunk goes uncounted. -/
def processChunks : List (List GmailMessageMetadata) → ℕ → List MailMessage → List Write
  | [], _, pending => flush pending
  | chunk :: chunks, processed, pending =>
    let gathered := pending ++ chunk.filterMap (fetchedRow R mailboxAccountId a)
    let counted := processed + chunk.length
    let full := decide (upsertBatch ≤ gathered.length)
    (if full then flush gathered else []) ++
      (if chunk.length = upsertBatch then [onProgress gmail a box counted] else []) ++
      processChunks chunks counted (if full then [] else gathered)

def fetchAndStoreMetadata : List Write :=
  (batches upsertBatch (toDelete gmail a box)).map Write.deleteMessages ++
    onProgress gmail a box (skipSet gmail a box).length ::
    processChunks R mailboxAccountId gmail a box (batches upsertBatch (toFetch gmail a box))
      (skipSet gmail a box).length []

/-- The number of messages that Gmail has refused. -/
def unreadable : ℕ := ((toFetch gmail a box).filter fun payload => a.refuses payload.id).length

def scanned : Bool := !systemic (unreadable gmail a box) (toFetch gmail a box).length

def beginWrites : List Write :=
  [.claim a.k a.now, .setRow fun row => row.capture gmail.historyId a.now]

def finishWrites : List Write :=
  [.setRow fun row => row.advance a.k .buildingSenderIndex 80 a.now,
    .purge a.purged,
    .rebuild,
    .setRow fun row => row.advance a.k .computingRecommendations 90 a.now,
    .setRow fun row => row.advance a.k .finalizing 97 a.now,
    .setRow fun row => row.markReady (snapshot gmail box) a.now]

/-- All the writes of an attempt. A scan with too many refusals fails before it finishes. -/
def attemptWrites : List Write :=
  beginWrites gmail a ++ fetchAndStoreMetadata R mailboxAccountId gmail a box ++
    if scanned gmail a box then finishWrites gmail a box else []

/-- An attempt that stops after some of its writes. -/
def interrupted (writes : ℕ) : Option Mailbox :=
  runAll box ((attemptWrites R mailboxAccountId gmail a box).take writes)

/-- An attempt that brings the mailbox to ready. -/
def completed : Option Mailbox :=
  if scanned gmail a box then runAll box (attemptWrites R mailboxAccountId gmail a box) else none

end

/-! ## The recovery -/

/-- What clears the cursor of a ready mailbox: `recoverExpiredHistoryCursor` and `markQueued`. -/
inductive Clearing where
  | recoverExpired (expiredCursor : HistoryId) (now : ℤ)
  | markQueued (freshCredentials : Bool) (now : ℤ)

def Clearing.run (row : SyncState) : Clearing → Option SyncState
  | .recoverExpired expiredCursor now =>
    if row.readinessStatus = .ready ∧ row.lastHistoryId = some expiredCursor then
      some (row.rescanned now)
    else none
  | .markQueued freshCredentials now =>
    if row.readinessStatus = .ready then some (row.markQueued freshCredentials now) else none

/-- What becomes of the row between two attempts. -/
inductive Requeue where
  | failed (e : SyncError) (status : Readiness) (providerDelay : ℕ) (now : ℤ)
  | markQueued (freshCredentials : Bool) (now : ℤ)
  | retried (now : ℤ)
  | recovered (now : ℤ)

def Requeue.run (row : SyncState) : Requeue → Option SyncState
  | .failed e status providerDelay now => some (row.fail e status providerDelay now)
  | .markQueued freshCredentials now => some (row.markQueued freshCredentials now)
  | .retried now => if row.retryable now then some (row.retried now) else none
  | .recovered now => if row.recoverable now then some (row.recovered now) else none

/-- An attempt, the number of its writes that go through, and what follows it. -/
structure Interruption where
  attempt : Attempt
  writes : ℕ
  requeues : List Requeue

section
variable (R : Runtime) (mailboxAccountId : String) (gmail : Gmail)

def Interruption.run (box : Mailbox) (i : Interruption) : Option Mailbox := do
  let stopped ← interrupted R mailboxAccountId gmail i.attempt box i.writes
  let row ← i.requeues.foldlM Requeue.run stopped.row
  return stopped.setRow row

/-- The mailbox that the last attempt finds: its cursor has been cleared, and any number of
attempts have been interrupted. -/
def recovering (clearing : Clearing) (interruptions : List Interruption) (box : Mailbox) :
    Option Mailbox := do
  let row ← clearing.run box.row
  interruptions.foldlM (Interruption.run R mailboxAccountId gmail) (box.setRow row)

end

/-- The rows as the incremental sync sees them. -/
def Mailbox.mirror (box : Mailbox) : Mirror := fun id =>
  (box.messages.find? fun row => decide (row.providerMessageId = id)).map fun row =>
    ⟨row.labelIds, row.isUnread⟩

/-- The records after a cursor, with the metadata that Gmail has by now. -/
def Gmail.recordsAfter (gmail : Gmail) (cursor : HistoryId) :
    List (GmailHistoryRecord × Option Sync.GmailMessageMetadata) :=
  (gmail.history.filter fun entry => decide (cursor < entry.1)).map fun entry =>
    (entry.2, match entry.2 with
      | .added id _ => (gmail.messages.find? fun payload => decide (payload.id = id)).map
          (·.toGmailMessageMetadata)
      | _ => none)

/-- The incremental run of a push with this cursor in its payload. -/
def catchUp (gmail : Gmail) (startHistoryId : HistoryId) (box : Mailbox) : Mirror :=
  let startCursor := match box.row.lastHistoryId with
    | some stored => if startHistoryId < stored then stored else startHistoryId
    | none => startHistoryId
  (applyEvents box.mirror (gmail.recordsAfter startCursor)).mirror

/-- The labels are the message's, and so is the read state. -/
def Shows (labelIds : List Label) (isUnread : Bool) (payload : GmailMessageMetadata) : Prop :=
  (∀ label, label ∈ labelIds ↔ label ∈ payload.labelIds) ∧
    isUnread = decide ("UNREAD" ∈ payload.labelIds)

/-- Every stored message is one of Gmail's, with its label set and its read state. -/
def Repaired (gmail : Gmail) (mirror : Mirror) : Prop :=
  ∀ id row, mirror id = some row →
    ∃ payload ∈ gmail.messages, payload.id = id ∧ Shows row.labelIds row.isUnread payload

/-- The attempt leaves the row of this message as it finds it: the message is listed, and it counts
as stored or gives no row; the purge does not get to it. -/
def Keeps (R : Runtime) (mailboxAccountId : String) (gmail : Gmail) (a : Attempt) (box : Mailbox)
    (row : MailMessage) (payload : GmailMessageMetadata) : Prop :=
  payload ∈ gmail.listed ∧ payload.id = row.providerMessageId ∧
    (row.isOutbound = true ∨ row.senderKey ∈ box.withIdentity ∨
      fetchedRow R mailboxAccountId a payload = none) ∧
    ¬ (row.providerMessageId ∈ a.purged ∧ isNonMail row.labelIds = true)

end DeclutrMail.Sync.Ingest.Rescan
