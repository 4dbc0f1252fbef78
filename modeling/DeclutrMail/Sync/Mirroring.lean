import DeclutrMail.Interleaving.Triple
import DeclutrMail.Replication.Lag
import DeclutrMail.Sync.Batching
import DeclutrMail.Sync.Incremental

/-!
# Runs of the incremental sync over one mirror

The statements of `IncrementalSyncWorker.processJob` against Gmail's history and the rows of one
mailbox. Gmail changes at any moment, any number of runs are under way, and each of them can fail at
a statement or stop there for good. A run pages the history and prefetches outside the lock of the
mailbox; it applies its records and advances the cursor under it.

Gmail lists the records after a cursor in order, on as many pages as it likes, and forgets none of
them. A job carries the cursor that was stored when it was queued, and can start again and again.
-/

namespace DeclutrMail.Sync.Mirroring

open Batches Interleaving Replication

/-! ## Gmail -/

/-- The record with its labels as a set. -/
def recordOf : GmailHistoryRecord → Record MessageId Label
  | .added id labelIds => .created id labelIds.toFinset
  | .deleted id => .removed id
  | .labels r => .edited r.messageId r.edit

/-- The labels of a message after a change. -/
def relabelled (r : LabelHistoryRecord) (labels : List Label) : List Label :=
  match r.kind with
  | .labelsAdded => labels ++ r.labelIds.filter (· ∉ labels)
  | .labelsRemoved => labels.filter (· ∉ r.labelIds)

/-- Gmail's messages after a change. -/
def change (messages : MessageId → Option (List Label)) :
    GmailHistoryRecord → MessageId → Option (List Label)
  | .added id labelIds => Function.update messages id (some labelIds)
  | .deleted id => Function.update messages id none
  | .labels r =>
    Function.update messages r.messageId ((messages r.messageId).map (relabelled r))

/-- Where a page of the history begins. -/
abbrev PageToken := HistoryId

structure HistoryPage where
  records : List GmailHistoryRecord
  nextPageToken : Option PageToken
  historyId : HistoryId

/-! ## The world -/

/-- `lock` is the run that holds the mailbox's lock, and `queue` the cursors of the jobs.
`passedOver` are the messages that Gmail refused to render, or rendered as a draft or a chat line;
`firstPage` is the length of the history when a run read its first page. -/
structure World where
  history : List (HistoryId × GmailHistoryRecord)
  historyId : HistoryId
  messages : MessageId → Option (List Label)
  mirror : Mirror
  lastHistoryId : Option HistoryId
  lock : Option ℕ
  queue : List HistoryId
  passedOver : List MessageId
  firstPage : ℕ → Option ℕ

namespace World

variable (w : World)

def cursor : HistoryId := w.lastHistoryId.getD 0

/-- The records after a history id. -/
def after (cursor : HistoryId) : List GmailHistoryRecord :=
  (w.history.filter fun entry => decide (cursor < entry.1)).map Prod.snd

/-- The records after a history id, up to another one. -/
def between (cursor last : HistoryId) : List GmailHistoryRecord :=
  (w.history.filter fun entry => decide (cursor < entry.1 ∧ entry.1 ≤ last)).map Prod.snd

/-- The worker does not mirror this message: Gmail refused it, or it is not mail. -/
def excluded (id : MessageId) : Prop :=
  id ∈ w.passedOver ∨
    ∃ labelIds, .added id labelIds ∈ w.history.map Prod.snd ∧ isNonMail labelIds = true

def passOver (id : MessageId) : World := { w with passedOver := put w.passedOver id }

def setMirror (mirror : Mirror) : World := { w with mirror }

def setLock (lock : Option ℕ) : World := { w with lock }

end World

/-! ## The run -/

inductive Request where
  | admitted
  | readCursor
  | listHistory (cursor : HistoryId) (token : Option PageToken)
  | getProfile
  | getMessageMetadata (id : MessageId)
  | getMessageLabelIds (id : MessageId)
  | acquire
  | release
  | updateBatch (batch : List (MessageId × LabelChange))
  | deleteBatch (ids : List MessageId)
  | upsert (metadata : GmailMessageMetadata)
  | advanceCursor (candidate : HistoryId)
  | statement

abbrev Request.Answer : Request → Type
  | .admitted => Bool
  | .readCursor => Option HistoryId
  | .listHistory .. => Option HistoryPage
  | .getProfile => HistoryId
  | .getMessageMetadata _ => Rendering
  | .getMessageLabelIds _ => Option (List Label)
  | _ => Unit

abbrev MirrorSignature : Signature := ⟨Request, Request.Answer, JobError⟩

abbrev MirrorProgram (α : Type) := Program MirrorSignature α

def ask (q : Request) : MirrorProgram q.Answer := Program.perform (S := MirrorSignature) q

inductive Outcome where
  | skipped
  | cursorTooOld (expiredHistoryId : HistoryId)
  | finished (advancedToHistoryId : HistoryId)
  deriving DecidableEq

/-- The paging loop, for at most this many pages. -/
def pages (cursor : HistoryId) : ℕ → List GmailHistoryRecord → Option PageToken →
    MirrorProgram (Option Listing)
  | 0, _, _ => throw .request
  | fuel + 1, collected, token => do
    match ← ask (.listHistory cursor token) with
    | none => return none
    | some page =>
      match page.nextPageToken with
      | none => return some ⟨collected ++ page.records, page.historyId⟩
      | some next => pages cursor fuel (collected ++ page.records) (some next)

def pageHistoryFrom (fuel : ℕ) (cursor : HistoryId) : MirrorProgram (Option Listing) :=
  pages cursor fuel [] none

/-- The metadata, and the messages that Gmail has refused to this client so far. -/
def getMessageMetadata (id : MessageId) (refused : List MessageId) :
    MirrorProgram (Option GmailMessageMetadata × List MessageId) := do
  match ← ask (.getMessageMetadata id) with
  | .rendered metadata => return (some metadata, refused)
  | .gone => return (none, refused)
  | .refused => return (none, put refused id)

def fetchAll : List MessageId → Metadata → List MessageId →
    MirrorProgram (Metadata × List MessageId)
  | [], metadata, refused => return (metadata, refused)
  | id :: ids, metadata, refused => do
    let (fetched, refused) ← getMessageMetadata id refused
    fetchAll ids (metadata.set id fetched) refused

/-- The profile's history id before the prefetch, and what it gave. -/
structure Prefetch where
  historyId : Option HistoryId
  metadata : Metadata
  refused : List MessageId

def prefetch (events : List GmailHistoryRecord) (refused : List MessageId) :
    MirrorProgram Prefetch :=
  if prefetched events = [] then return ⟨none, .empty, refused⟩
  else do
    let historyId ← ask .getProfile
    let (metadata, refused) ← fetchAll (prefetched events) .empty refused
    return ⟨some historyId, metadata, refused⟩

def refreshLabels : List MessageId → Metadata → MirrorProgram Metadata
  | [], metadata => return metadata
  | id :: ids, metadata => do
    match (metadata.get id).getD none with
    | none => refreshLabels ids metadata
    | some found =>
      let labels ← ask (.getMessageLabelIds id)
      refreshLabels ids (metadata.set id (labels.map fun labelIds => { found with labelIds }))

def refreshIfChanged (events : List GmailHistoryRecord) (before : Option HistoryId)
    (metadata : Metadata) : MirrorProgram Metadata := do
  match before with
  | none => return metadata
  | some before =>
    let historyId ← ask .getProfile
    if historyId = before then return metadata else refreshLabels (prefetched events) metadata

/-! ### Applying the records -/

def updateBatches : List (List (MessageId × LabelChange)) → MirrorProgram Unit
  | [] => return ()
  | batch :: rest => do
    ask (.updateBatch batch)
    updateBatches rest

def applyLabelRun (records : List LabelHistoryRecord) : MirrorProgram Unit :=
  updateBatches (batches applyBatchSize (netChanges records).entries)

def deleteBatches : List (List MessageId) → MirrorProgram Unit
  | [] => return ()
  | ids :: rest => do
    ask (.deleteBatch ids)
    deleteBatches rest

def applyDeleteRun (messageIds : List MessageId) : MirrorProgram Unit :=
  deleteBatches (batches applyBatchSize (distinct messageIds))

/-- The locals of the event loop. -/
structure Loop where
  labelRun : List LabelHistoryRecord
  deleteRun : List MessageId
  attempts : Attempts
  refused : List MessageId

def Loop.start (refused : List MessageId) : Loop := ⟨[], [], ⟨0, []⟩, refused⟩

def flushLabelRun (loop : Loop) : MirrorProgram Loop := do
  applyLabelRun loop.labelRun
  return { loop with labelRun := [] }

def flushDeleteRun (loop : Loop) : MirrorProgram Loop := do
  applyDeleteRun loop.deleteRun
  return { loop with deleteRun := [] }

/-- The metadata of an added message: prefetched, or asked for now. -/
def metadataOf (metadata : Metadata) (id : MessageId) (refused : List MessageId) :
    MirrorProgram (Option GmailMessageMetadata × List MessageId) :=
  match metadata.get id with
  | some fetched => return (fetched, refused)
  | none => getMessageMetadata id refused

/-- `handleMessageAdded`, once the metadata is there. -/
def store : Option GmailMessageMetadata → MirrorProgram Unit
  | none => return ()
  | some metadata => if isNonMail metadata.labelIds then return () else ask (.upsert metadata)

def handleAdded (metadata : Metadata) (loop : Loop) (id : MessageId) (labelIds : List Label) :
    MirrorProgram Loop :=
  if isNonMail labelIds then return loop
  else do
    let (fetched, refused) ← metadataOf metadata id loop.refused
    store fetched
    return { loop with attempts := loop.attempts.count metadata id, refused }

/-- One turn of the event loop. -/
def turn (metadata : Metadata) (loop : Loop) : GmailHistoryRecord → MirrorProgram Loop
  | .added id labelIds => do
    let loop ← flushLabelRun loop
    let loop ← flushDeleteRun loop
    handleAdded metadata loop id labelIds
  | .deleted id => do
    let loop ← flushLabelRun loop
    return { loop with deleteRun := loop.deleteRun ++ [id] }
  | .labels record => do
    let loop ← flushDeleteRun loop
    return { loop with labelRun := loop.labelRun ++ [record] }

def turns (metadata : Metadata) : Loop → List GmailHistoryRecord → MirrorProgram Loop
  | loop, [] => return loop
  | loop, ev :: events => do
    let loop ← turn metadata loop ev
    turns metadata loop events

def eventLoop (metadata : Metadata) (refused : List MessageId)
    (events : List GmailHistoryRecord) : MirrorProgram Loop := do
  let loop ← turns metadata (.start refused) events
  let loop ← flushLabelRun loop
  flushDeleteRun loop

/-! ### The section under the lock -/

/-- The reply attribution comes before the cursor; the time series, `last_synced_at` and the cached
report after it. -/
def conclude (listing : Listing) : MirrorProgram Outcome := do
  Program.when (!listing.events.isEmpty) (ask .statement)
  ask (.advanceCursor listing.lastPageHistoryId)
  ask .statement
  ask .statement
  ask .statement
  return .finished listing.lastPageHistoryId

def applyPass (listing : Listing) (p : Prefetch) (refusedBefore : List MessageId) :
    MirrorProgram Outcome := do
  let metadata ← refreshIfChanged listing.events p.historyId p.metadata
  let loop ← eventLoop metadata p.refused listing.events
  let unreadable := loop.refused.length - refusedBefore.length
  if systemic unreadable loop.attempts.addAttempts then
    throw (.unreadable unreadable loop.attempts.addAttempts)
  else conclude listing

/-- What the section gives back: the outcome, or the newer cursor that it saw. -/
inductive Guarded
  | finished (outcome : Outcome)
  | retry (cursor : HistoryId)

def guardedSection (listing : Listing) (snapshotCursor : HistoryId) (p : Prefetch)
    (refusedBefore : List MessageId) : MirrorProgram Guarded := do
  let currentCursor ← ask .readCursor
  if currentCursor.any (snapshotCursor < ·) then return .retry (currentCursor.getD 0)
  else do
    let outcome ← applyPass listing p refusedBefore
    return .finished outcome

/-- `lock.run` -/
def locked {α : Type} (body : MirrorProgram α) : MirrorProgram α := do
  ask .acquire
  Program.ensure body (ask .release)

def restarts (fuel : ℕ) : ℕ → Listing → HistoryId → List MessageId → MirrorProgram Outcome
  | 0, _, _, _ => throw .cursorMovedRepeatedly
  | left + 1, listing, snapshotCursor, refused => do
    Program.when (!listing.events.isEmpty) (ask .statement)
    let p ← prefetch listing.events refused
    match ← locked (guardedSection listing snapshotCursor p refused) with
    | .finished outcome => return outcome
    | .retry cursor =>
      match ← pageHistoryFrom fuel cursor with
      | none => return .cursorTooOld cursor
      | some refetched => restarts fuel left refetched cursor p.refused

def startCursor (startHistoryId : HistoryId) (storedCursor : Option HistoryId) : HistoryId :=
  if storedCursor.any (startHistoryId < ·) then storedCursor.getD 0 else startHistoryId

/-- `processJob`. The guards before it look at the mailbox's eligibility and its grant. -/
def processJob (fuel : ℕ) (startHistoryId : HistoryId) : MirrorProgram Outcome := do
  if ← ask .admitted then
    let storedCursor ← ask .readCursor
    let cursor := startCursor startHistoryId storedCursor
    match ← pageHistoryFrom fuel cursor with
    | none => return .cursorTooOld cursor
    | some firstPass => restarts fuel maxPasses firstPass cursor []
  else return .skipped

/-! ## The system -/

/-- What a request finds out besides: where a page ends unless it is the last one, whether Gmail
refuses a message, whether the guards admit the run. -/
structure Found where
  cut : Option HistoryId
  refused : Bool
  admitted : Bool

namespace World

variable (w : World)

/-- Run `t` reads a page; its first one is remembered. -/
def note (t : ℕ) : World :=
  { w with
    firstPage := Function.update w.firstPage t (some ((w.firstPage t).getD w.history.length)) }

def page (cut : Option HistoryId) (first : HistoryId) : HistoryPage :=
  match cut.filter fun last => decide (first ≤ last ∧ last ≤ w.historyId) with
  | some last => ⟨w.between first last, some last, w.historyId⟩
  | none => ⟨w.after first, none, w.historyId⟩

def render (id : MessageId) (refused : Bool) : Rendering :=
  if refused then .refused
  else match w.messages id with
    | none => .gone
    | some labelIds => .rendered ⟨id, labelIds⟩

/-- A message that is refused or no mail is passed over. -/
def noteRendering (id : MessageId) (labels : Option (List Label)) (refused : Bool) : World :=
  if refused || labels.any isNonMail then w.passOver id else w

/-- `IS NULL OR last_history_id < candidate` -/
def advance (candidate : HistoryId) : World :=
  { w with lastHistoryId :=
      if w.lastHistoryId.all (· < candidate) then some candidate else w.lastHistoryId }

def upsert (metadata : GmailMessageMetadata) : World :=
  w.setMirror <| Function.update w.mirror metadata.id
    (some ⟨metadata.labelIds, decide ("UNREAD" ∈ metadata.labelIds)⟩)

end World

/-- A statement of run `t`, as it takes effect. -/
def effect (t : ℕ) (f : Found) (w : World) : (q : Request) → q.Answer × World
  | .admitted => (f.admitted, w)
  | .readCursor => (w.lastHistoryId, w)
  | .listHistory cursor token => (some (w.page f.cut (token.getD cursor)), w.note t)
  | .getProfile => (w.historyId, w)
  | .getMessageMetadata id => (w.render id f.refused, w.noteRendering id (w.messages id) f.refused)
  | .getMessageLabelIds id => (w.messages id, w.noteRendering id (w.messages id) false)
  | .acquire => ((), w.setLock (some t))
  | .release => ((), w.setLock none)
  | .updateBatch batch => ((), w.setMirror (updateBatch w.mirror batch))
  | .deleteBatch ids => ((), w.setMirror (deleteBatch w.mirror ids))
  | .upsert metadata => ((), w.upsert metadata)
  | .advanceCursor candidate => ((), w.advance candidate)
  | .statement => ((), w)

/-- A statement goes through, is lost on its way back, or fails. -/
inductive Choice where
  | go (f : Found)
  | lost (f : Found)
  | fail

/-- The lock is granted when it is free. A session that cannot give it back is closed. A rendering
that is lost shows the worker nothing. -/
def answer (t : ℕ) (q : Request) (c : Choice) (w : World) :
    Option (Except JobError q.Answer × World) :=
  match q, c with
  | .acquire, .go _ => if w.lock = none then some (.ok (), w.setLock (some t)) else none
  | .acquire, _ => some (.error .request, w)
  | .release, .go _ => some (.ok (), w.setLock none)
  | .release, _ => some (.error .request, w.setLock none)
  | .getMessageMetadata _, .lost _ | .getMessageLabelIds _, .lost _ => some (.error .request, w)
  | q, .go f => some (.ok (effect t f w q).1, (effect t f w q).2)
  | q, .lost f => some (.error .request, (effect t f w q).2)
  | _, .fail => some (.error .request, w)

/-- A change in Gmail under the next history id, a history id without a record, and a job queued by
a push or the drift sweep. -/
inductive Event where
  | change (historyId : HistoryId) (record : GmailHistoryRecord)
  | touch (historyId : HistoryId)
  | enqueue

/-- Gmail gives a new message a new id. -/
def possible (w : World) : GmailHistoryRecord → Bool
  | .added id _ => (w.messages id).isNone &&
      w.history.all fun entry => decide ((recordOf entry.2).key ≠ id)
  | .deleted id => (w.messages id).isSome
  | .labels r => (w.messages r.messageId).isSome

def disturb (w : World) : Event → Option World
  | .change historyId record =>
    if w.historyId < historyId ∧ possible w record then
      some { w with
        history := w.history ++ [(historyId, record)]
        historyId
        messages := change w.messages record }
    else none
  | .touch historyId => if w.historyId ≤ historyId then some { w with historyId } else none
  | .enqueue => some { w with queue := w.queue ++ w.lastHistoryId.toList }

/-- A job, and the number of pages that its listings take at most. -/
structure Task where
  startHistoryId : HistoryId
  fuel : ℕ

def mirroring : System MirrorSignature where
  World := World
  Thread := ℕ
  Task := Task
  Outcome := Outcome
  Choice := Choice
  Event := Event
  code k := processJob k.fuel k.startHistoryId
  accept t k w :=
    if k.startHistoryId ∈ w.queue then
      some { w with firstPage := Function.update w.firstPage t none }
    else none
  answer := answer
  settle _ _ w := some w
  crash t w := some (if w.lock = some t then w.setLock none else w)
  disturb e w := disturb w e

end DeclutrMail.Sync.Mirroring
