import DeclutrMail.Sync.History

/-!
# An incremental sync job

`processJob` pages the history since a cursor, prefetches the metadata of a burst of new
messages, takes the mailbox lock and applies the records. When the cursor has moved while
the job waited for the lock, it pages again and starts over, with the same Gmail client.

Everything the job awaits is answered by a tape of `Reply`s: what Gmail returns, what the
database holds at that moment, or a failure. Whatever other workers do shows in these
answers. A tape that has run out fails too, so the tapes are all the runs of a job. The
order in which the eight prefetch workers get their answers does not matter to what they
leave behind, so they are read in order.

`passes` and the fields below it in `Job` record what has been asked and answered.
-/

namespace DeclutrMail.Sync

open Batches

/-- A Gmail `historyId`: history ids are increasing numbers. -/
abbrev HistoryId := ℕ

structure GmailHistoryPage where
  records : List GmailHistoryRecord
  nextPageToken : Option String
  historyId : HistoryId

/-- What Gmail answers to a `format=metadata` request for one message. -/
inductive Rendering
  | rendered (metadata : GmailMessageMetadata)
  | gone
  | refused
  deriving DecidableEq

inductive Reply
  | page (page : Option GmailHistoryPage)
  | cursor (lastHistoryId : Option HistoryId)
  | profile (historyId : HistoryId)
  | metadata (rendering : Rendering)
  | labelIds (labelIds : Option (List Label))
  | written
  | failed

/-- One pass of the restart loop: the records it paged, and what Gmail answered to its
metadata requests. -/
structure Pass where
  events : List GmailHistoryRecord
  answers : List (MessageId × Rendering)

/-- What became of the guarded update of `last_history_id`. -/
inductive CursorUpdate
  | untried
  | overtaken
  | advanced
  deriving DecidableEq

structure Job where
  replies : List Reply
  unreadableMessageIds : List MessageId
  loop : EventLoop
  passes : List Pass
  applied : Bool
  failed : Bool
  cursorUpdate : CursorUpdate

inductive JobError
  | request
  | unreadable (unreadable addAttempts : ℕ)
  | cursorMovedRepeatedly
  deriving DecidableEq

structure Report where
  recordsProcessed : ℕ
  added : ℕ
  deleted : ℕ
  labelChanges : ℕ
  cursorTooOld : Bool
  advancedToHistoryId : Option HistoryId
  unreadableSkipped : Option ℕ
  expiredHistoryId : Option HistoryId

abbrev SyncJob := EStateM JobError Job

/-! ## Requests -/

def fail {α : Type} : SyncJob α := do
  modify fun job => { job with failed := true }
  throw .request

def nextReply : SyncJob Reply := do
  match (← get).replies with
  | [] => return .failed
  | reply :: replies => do
    modify fun job => { job with replies := replies }
    return reply

def listHistory (_cursor : HistoryId) (_token : Option String) :
    SyncJob (Option GmailHistoryPage) := do
  match ← nextReply with
  | .page page => return page
  | _ => fail

/-- `SELECT last_history_id FROM provider_sync_state`. -/
def readCursor : SyncJob (Option HistoryId) := do
  match ← nextReply with
  | .cursor c => return c
  | _ => fail

def getProfile : SyncJob HistoryId := do
  match ← nextReply with
  | .profile historyId => return historyId
  | _ => fail

/-- Note the answer to a metadata request in the current pass. -/
def Job.answer (job : Job) (id : MessageId) (rendering : Rendering) : Job :=
  { job with
    passes := match job.passes with
      | [] => []
      | pass :: earlier => { pass with answers := pass.answers ++ [(id, rendering)] } :: earlier }

/-- `GmailClientService.getMessageMetadata`: a refusal is kept in the client's set, and
skips as a deleted message does. -/
def getMessageMetadata (id : MessageId) : SyncJob (Option GmailMessageMetadata) := do
  match ← nextReply with
  | .metadata rendering => do
    modify fun job => job.answer id rendering
    match rendering with
    | .rendered metadata => return some metadata
    | .gone => return none
    | .refused => do
      modify fun job => { job with unreadableMessageIds := put job.unreadableMessageIds id }
      return none
  | _ => fail

def getMessageLabelIds (_id : MessageId) : SyncJob (Option (List Label)) := do
  match ← nextReply with
  | .labelIds labels => return labels
  | _ => fail

/-- A statement on the mirror, or a step after it, that goes through. -/
def statement : SyncJob Unit := do
  match ← nextReply with
  | .written => return ()
  | _ => fail

def modifyLoop (f : EventLoop → EventLoop) : SyncJob Unit :=
  modify fun job => { job with loop := f job.loop }

/-! ## Paging and prefetching -/

/-- What paging the history gave: the records, and the id of its last page. -/
structure Listing where
  events : List GmailHistoryRecord
  lastPageHistoryId : HistoryId

/-- The paging loop. Every turn takes a reply, so fuel for one more than there are never
runs out. -/
def pages (cursor : HistoryId) :
    ℕ → List GmailHistoryRecord → Option String → SyncJob (Option Listing)
  | 0, _, _ => fail
  | fuel + 1, collected, token => do
    match ← listHistory cursor token with
    | none => return none
    | some page =>
      match page.nextPageToken with
      | none => return some ⟨collected ++ page.records, page.historyId⟩
      | some next => pages cursor fuel (collected ++ page.records) (some next)

def pageHistoryFrom (cursor : HistoryId) : SyncJob (Option Listing) := do
  pages cursor ((← get).replies.length + 1) [] none

/-- The messages that the `added` records of a list bring in, drafts and chat aside. -/
def mailAdds (events : List GmailHistoryRecord) : List MessageId :=
  events.filterMap fun
    | .added id labelIds => if isNonMail labelIds then none else some id
    | _ => none

def prefetchLimit : ℕ := 500

def addedIds (events : List GmailHistoryRecord) : List MessageId :=
  (distinct (mailAdds events)).take prefetchLimit

/-- The messages a pass prefetches: single arrivals keep the one-request path. -/
def prefetched (events : List GmailHistoryRecord) : List MessageId :=
  if 8 ≤ (addedIds events).length then addedIds events else []

abbrev Metadata := InsertionMap MessageId (Option GmailMessageMetadata)

def fetchAll : List MessageId → Metadata → SyncJob Metadata
  | [], metadata => return metadata
  | id :: ids, metadata => do
    let fetched ← getMessageMetadata id
    fetchAll ids (metadata.set id fetched)

/-- The prefetch of a pass: the metadata, and the profile's history id before it. -/
def prefetch (events : List GmailHistoryRecord) : SyncJob (Option HistoryId × Metadata) :=
  if prefetched events = [] then return (none, .empty)
  else do
    let historyId ← getProfile
    let metadata ← fetchAll (prefetched events) .empty
    return (some historyId, metadata)

/-- Read the labels of the prefetched messages again. -/
def refreshLabels : List MessageId → Metadata → SyncJob Metadata
  | [], metadata => return metadata
  | id :: ids, metadata => do
    match (metadata.get id).getD none with
    | none => refreshLabels ids metadata
    | some found => do
      let labels ← getMessageLabelIds id
      refreshLabels ids (metadata.set id (labels.map fun labelIds => { found with labelIds }))

/-- Refresh under the lock, if the mailbox changed since the prefetch. -/
def refreshIfChanged (events : List GmailHistoryRecord) (prefetchedHistoryId : Option HistoryId)
    (metadata : Metadata) : SyncJob Metadata := do
  match prefetchedHistoryId with
  | none => return metadata
  | some before => do
    let historyId ← getProfile
    if historyId = before then return metadata
    else refreshLabels (prefetched events) metadata

/-! ## The guarded section -/

/-- The locals of the event loop that count the metadata fetches. -/
structure Attempts where
  addAttempts : ℕ
  countedPrefetched : List MessageId

def Attempts.count (a : Attempts) (metadata : Metadata) (id : MessageId) : Attempts where
  addAttempts :=
    if (metadata.get id).isNone || decide (id ∉ a.countedPrefetched) then a.addAttempts + 1
    else a.addAttempts
  countedPrefetched := put a.countedPrefetched id

/-- The metadata of an added message: prefetched, or asked for now. -/
def metadataOf (metadata : Metadata) (id : MessageId) : SyncJob (Option GmailMessageMetadata) :=
  match metadata.get id with
  | some fetched => return fetched
  | none => getMessageMetadata id

/-- One turn of the event loop. -/
def turn (metadata : Metadata) (a : Attempts) (ev : GmailHistoryRecord) : SyncJob Attempts := do
  statement
  match ev with
  | .added id labelIds =>
    modifyLoop fun loop => loop.flushLabelRun.flushDeleteRun
    if isNonMail labelIds then return a
    else do
      let counted := a.count metadata id
      let fetched ← metadataOf metadata id
      statement
      modifyLoop fun loop => loop.handleAdded fetched
      return counted
  | ev => do
    modifyLoop fun loop => loop.applyRecord (ev, none)
    return a

def turns (metadata : Metadata) : Attempts → List GmailHistoryRecord → SyncJob Attempts
  | a, [] => return a
  | a, ev :: events => do
    let a ← turn metadata a ev
    turns metadata a events

def eventLoop (metadata : Metadata) (events : List GmailHistoryRecord) : SyncJob Attempts := do
  modifyLoop fun loop => .start loop.mirror
  let a ← turns metadata ⟨0, []⟩ events
  statement
  modify fun job =>
    { job with loop := job.loop.flushLabelRun.flushDeleteRun, applied := true }
  return a

def minUnreadableForSystemic : ℕ := 10

/-- The check before the cursor advances; `MAX_UNREADABLE_SHARE` is one half. -/
def systemic (unreadable attempts : ℕ) : Bool :=
  decide (minUnreadableForSystemic ≤ unreadable) && decide (attempts < 2 * unreadable)

/-- `UPDATE provider_sync_state SET last_history_id = candidate`, unless the stored cursor
is not behind it. -/
def advanceCursor (candidate : HistoryId) : SyncJob Unit := do
  let behind ← readCursor
  let update := if behind.all (· < candidate) then .advanced else .overtaken
  modify fun job => { job with cursorUpdate := update }

/-- What the guarded section gives back: the job's report, or the newer cursor it saw. -/
inductive Guarded
  | finished (report : Report)
  | retry (cursor : HistoryId)

/-- The end of the guarded section. The statements around the cursor update are the reply
attribution before it, and the time series and `last_synced_at` after it. -/
def conclude (listing : Listing) (unreadable : ℕ) : SyncJob Report := do
  statement
  advanceCursor listing.lastPageHistoryId
  statement
  statement
  let loop := (← get).loop
  return {
    recordsProcessed := listing.events.length
    added := loop.added
    deleted := loop.deleted
    labelChanges := loop.labelChanges
    cursorTooOld := false
    advancedToHistoryId := some listing.lastPageHistoryId
    unreadableSkipped := if unreadable > 0 then some unreadable else none
    expiredHistoryId := none }

/-- Apply the records of a pass and advance the cursor past them. -/
def applyPass (listing : Listing) (prefetchedHistoryId : Option HistoryId) (metadata : Metadata)
    (unreadableBefore : ℕ) : SyncJob Report := do
  let metadata ← refreshIfChanged listing.events prefetchedHistoryId metadata
  let a ← eventLoop metadata listing.events
  let unreadable := (← get).unreadableMessageIds.length - unreadableBefore
  if systemic unreadable a.addAttempts then throw (.unreadable unreadable a.addAttempts)
  else conclude listing unreadable

/-- The section that runs under the mailbox lock. -/
def guardedSection (listing : Listing) (snapshotCursor : HistoryId)
    (prefetchedHistoryId : Option HistoryId) (metadata : Metadata) (unreadableBefore : ℕ) :
    SyncJob Guarded := do
  let currentCursor ← readCursor
  if currentCursor.any (snapshotCursor < ·) then return .retry (currentCursor.getD 0)
  else do
    let report ← applyPass listing prefetchedHistoryId metadata unreadableBefore
    return .finished report

def cursorTooOldResult (expired : HistoryId) : Report where
  recordsProcessed := 0
  added := 0
  deleted := 0
  labelChanges := 0
  cursorTooOld := true
  advancedToHistoryId := none
  unreadableSkipped := none
  expiredHistoryId := some expired

def beginPass (events : List GmailHistoryRecord) : SyncJob Unit :=
  modify fun job => { job with passes := ⟨events, []⟩ :: job.passes }

/-- The restart loop. -/
def restarts : ℕ → Listing → HistoryId → SyncJob Report
  | 0, _, _ => throw .cursorMovedRepeatedly
  | left + 1, listing, snapshotCursor => do
    beginPass listing.events
    let unreadableBefore := (← get).unreadableMessageIds.length
    let (prefetchedHistoryId, metadata) ← prefetch listing.events
    match ← guardedSection listing snapshotCursor prefetchedHistoryId metadata unreadableBefore with
    | .finished report => return report
    | .retry cursor =>
      match ← pageHistoryFrom cursor with
      | none => return cursorTooOldResult cursor
      | some refetched => restarts left refetched cursor

def maxPasses : ℕ := 4

/-- `processJob`, from the Gmail client on. -/
def processJob (startHistoryId : HistoryId) : SyncJob Report := do
  let storedCursor ← readCursor
  let startCursor := if storedCursor.any (startHistoryId < ·) then storedCursor.getD 0
    else startHistoryId
  match ← pageHistoryFrom startCursor with
  | none => return cursorTooOldResult startCursor
  | some firstPass => restarts maxPasses firstPass startCursor

/-- A job that begins: a new client, over the rows it finds. -/
def Job.start (mirror : Mirror) (replies : List Reply) : Job where
  replies := replies
  unreadableMessageIds := []
  loop := .start mirror
  passes := []
  applied := false
  failed := false
  cursorUpdate := .untried

end DeclutrMail.Sync
