import Mathlib.Logic.Function.Basic
import Mathlib.Order.Bounds.Basic
import DeclutrMail.Sync.Ingest

/-!
# The sender index

`IncrementalSyncWorker` maintains the aggregates of a sender message by message, and
`InitialSyncWorker.buildSenderIndex` folds the stored messages at once, in the order of
their random ids. Both aggregate the evidence of the sender's messages: their dates and
their unsubscribe channels (`Evidence`).

The first and last date, the count and the method agree for every order of arrival and
every order of the scan. Among messages of one date the fold keeps the first URL it meets
and the upsert takes the last one, so the URLs agree only when such messages share it
(`OneUrl`).
-/

namespace DeclutrMail.Sync.Ingest


inductive UnsubscribeMethod
  | oneClick
  | mailto
  | none
  deriving DecidableEq

/-- A row of `senders`. -/
structure Sender extends SenderIdentity where
  totalReceived : ℕ
  unsubscribeMethod : Option UnsubscribeMethod
  unsubscribeUrl : Option Text
  /-- Not a column: the date of the message whose URL is stored. -/
  urlFrom : Option ℤ

/-- The counts of one month of `sender_timeseries`. -/
structure MonthCount where
  volume : ℕ
  readCount : ℕ
  deriving DecidableEq

/-- Year and month of a time in milliseconds, in UTC. -/
def monthKey (date : ℤ) : ℤ × ℤ :=
  let days := date / 86400000 + 719468
  let era := days / 146097
  let dayOfEra := days - era * 146097
  let yearOfEra := (dayOfEra - dayOfEra / 1460 + dayOfEra / 36524 - dayOfEra / 146096) / 365
  let dayOfYear := dayOfEra - (365 * yearOfEra + yearOfEra / 4 - yearOfEra / 100)
  let month := (5 * dayOfYear + 2) / 153
  if month < 10 then (yearOfEra + era * 400, month + 3)
  else (yearOfEra + era * 400 + 1, month - 9)

/-- The year that the calendar counts from March turns within January and February. -/
example : monthKey 0 = (1970, 1) ∧ monthKey 951782400000 = (2000, 2) ∧
    monthKey (-1) = (1969, 12) := by decide

def MonthCount.add (count : MonthCount) (isUnread : Bool) : MonthCount :=
  ⟨count.volume + 1, count.readCount + if isUnread then 0 else 1⟩

/-! ## The incremental fold -/

/-- `UNSUB_RANK_EXCLUDED` and `UNSUB_RANK_CURRENT` -/
def unsubRank : Option UnsubscribeMethod → ℕ
  | some .oneClick => 2
  | some .mailto => 1
  | _ => 0

/-- The channel of one message's headers. -/
def senderUnsub (message : MailMessage) : UnsubscribeMethod × Option Text :=
  if message.unsubscribeOneClick = true ∧ message.unsubscribeUrl.isSome then
    (.oneClick, message.unsubscribeUrl)
  else if message.unsubscribeMailtoUrl.isSome then (.mailto, message.unsubscribeMailtoUrl)
  else (.none, none)

/-- The insert into `senders` with its `ON CONFLICT DO UPDATE`. -/
def upsertSender (who : SenderIdentity) (unsub : UnsubscribeMethod × Option Text) :
    Option Sender → Sender
  | none => { who with
      totalReceived := 1
      unsubscribeMethod := some unsub.1
      unsubscribeUrl := unsub.2
      urlFrom := unsub.2.map fun _ => who.lastSeenAt }
  | some current =>
    let excluded := unsubRank (some unsub.1)
    let rank := unsubRank current.unsubscribeMethod
    let refresh := excluded > rank ∨ excluded = rank ∧ who.lastSeenAt ≥ current.lastSeenAt
    { current with
      firstSeenAt := min current.firstSeenAt who.firstSeenAt
      lastSeenAt := max current.lastSeenAt who.lastSeenAt
      totalReceived := current.totalReceived + 1
      unsubscribeMethod := if excluded > rank then some unsub.1 else current.unsubscribeMethod
      unsubscribeUrl := if refresh then unsub.2 else current.unsubscribeUrl
      urlFrom := if refresh then unsub.2.map fun _ => who.lastSeenAt else current.urlFrom }

/-- The tables of one mailbox, `mail_messages` in the order of its inserts. -/
structure Index where
  messages : List MailMessage
  senders : Text → Option Sender
  timeseries : Text → ℤ × ℤ → MonthCount

def Index.empty : Index := ⟨[], fun _ => none, fun _ _ => ⟨0, 0⟩⟩

/-- A redelivered message refreshes the state columns of its row. -/
def refresh (message row : MailMessage) : MailMessage :=
  if row.providerMessageId = message.providerMessageId then
    { row with
      labelIds := message.labelIds
      isUnread := message.isUnread
      snippet := message.snippet
      sizeBytes := message.sizeBytes.or row.sizeBytes }
  else row

/-- The transaction of `handleMessageAdded`. -/
def Index.write (index : Index) (stored : Stored) : Index :=
  if stored.message.providerMessageId ∈ index.messages.map (·.providerMessageId) then
    { index with messages := index.messages.map (refresh stored.message) }
  else
    let messages := index.messages ++ [stored.message]
    match stored.sender with
    | none => { index with messages }
    | some who =>
      let current := index.senders who.senderKey
      let month := monthKey stored.message.internalDate
      let counts := index.timeseries who.senderKey
      { messages
        senders := Function.update index.senders who.senderKey
          (some (upsertSender who (senderUnsub stored.message) current))
        timeseries := Function.update index.timeseries who.senderKey
          (Function.update counts month ((counts month).add stored.message.isUnread)) }

/-- One record of an added message, with the metadata that Gmail returns. -/
def arrive (R : Runtime) (mailboxAccountId : String) (index : Index)
    (payload : GmailMessageMetadata) : Index :=
  match handleMessageAdded R mailboxAccountId payload with
  | none => index
  | some stored => index.write stored

def incremental (R : Runtime) (mailboxAccountId : String) (arrivals : List GmailMessageMetadata) :
    Index :=
  arrivals.foldl (arrive R mailboxAccountId) .empty

/-! ## The rebuild -/

structure DatedUrl where
  url : Text
  date : ℤ
  deriving DecidableEq

/-- Keep the URL of the newer message; ties keep the incumbent. -/
def newerUrl (current : Option DatedUrl) (url : Text) (date : ℤ) : DatedUrl :=
  match current with
  | some found => if found.date ≥ date then found else ⟨url, date⟩
  | none => ⟨url, date⟩

structure SenderAggregate where
  firstSeen : ℤ
  lastSeen : ℤ
  categoryCounts : GmailCategory → ℕ
  months : ℤ × ℤ → MonthCount
  oneClickUrl : Option DatedUrl
  httpsUrl : Option DatedUrl
  mailtoUrl : Option DatedUrl
  totalReceived : ℕ

def SenderAggregate.start (date : ℤ) : SenderAggregate :=
  ⟨date, date, fun _ => 0, fun _ => ⟨0, 0⟩, none, none, none, 0⟩

def SenderAggregate.fold (agg : SenderAggregate) (row : MailMessage) : SenderAggregate where
  firstSeen := if row.internalDate < agg.firstSeen then row.internalDate else agg.firstSeen
  lastSeen := if row.internalDate > agg.lastSeen then row.internalDate else agg.lastSeen
  totalReceived := agg.totalReceived + 1
  categoryCounts :=
    match messageGmailCategory row.labelIds with
    | some category =>
      Function.update agg.categoryCounts category (agg.categoryCounts category + 1)
    | none => agg.categoryCounts
  months :=
    let month := monthKey row.internalDate
    Function.update agg.months month ((agg.months month).add row.isUnread)
  oneClickUrl :=
    match row.unsubscribeOneClick, row.unsubscribeUrl with
    | true, some url => some (newerUrl agg.oneClickUrl url row.internalDate)
    | _, _ => agg.oneClickUrl
  httpsUrl :=
    match row.unsubscribeOneClick, row.unsubscribeUrl with
    | false, some url => some (newerUrl agg.httpsUrl url row.internalDate)
    | _, _ => agg.httpsUrl
  mailtoUrl :=
    match row.unsubscribeMailtoUrl with
    | some url => some (newerUrl agg.mailtoUrl url row.internalDate)
    | none => agg.mailtoUrl

/-- Fold one stored message into its sender's aggregate. -/
def foldMessage (aggregates : Text → Option SenderAggregate) (row : MailMessage) :
    Text → Option SenderAggregate :=
  let agg := (aggregates row.senderKey).getD (.start row.internalDate)
  Function.update aggregates row.senderKey (some (agg.fold row))

def deriveUnsubscribe (agg : SenderAggregate) : UnsubscribeMethod × Option DatedUrl :=
  match agg.oneClickUrl, agg.mailtoUrl with
  | some url, _ => (.oneClick, some url)
  | none, some url => (.mailto, some url)
  | none, none => (.none, none)

/-- The tab that more than half of the labelled messages carry. -/
def senderGmailCategory (counts : GmailCategory → ℕ) : GmailCategory :=
  let categories := categoryLabels.map Prod.snd
  let labelled := (categories.map counts).sum
  (categories.find? fun category => counts category * 2 > labelled).getD .unknown

/-- What the SQL pass after the inserts writes: the least and the greatest date of the
sender's inbound messages. -/
def seenPass (scan : List MailMessage) (sender : Sender) : Sender :=
  let dates := (scan.filter fun row => row.senderKey = sender.senderKey).map (·.internalDate)
  { sender with
    firstSeenAt := dates.min?.getD sender.firstSeenAt
    lastSeenAt := dates.max?.getD sender.lastSeenAt }

/-- `purgeAllNonMail` -/
def Index.purged (index : Index) : List MailMessage :=
  index.messages.filter fun row => ¬ isNonMail row.labelIds

/-- The pages of inbound messages, in the order of their random ids. -/
def Index.IsScan (index : Index) (scan : List MailMessage) : Prop :=
  scan.Perm (index.purged.filter fun row => ¬ row.isOutbound)

/-- The row that the rebuild inserts for a sender of known identity. -/
def rebuiltSender (R : Runtime) (agg : SenderAggregate) (who : Sender) : Sender :=
  let unsub := deriveUnsubscribe agg
  { who with
    id := deriveSenderId R who.mailboxAccountId who.senderKey
    gmailCategory := senderGmailCategory agg.categoryCounts
    firstSeenAt := agg.firstSeen
    lastSeenAt := agg.lastSeen
    unsubscribeMethod := some unsub.1
    unsubscribeUrl := unsub.2.map (·.url)
    urlFrom := unsub.2.map (·.date)
    totalReceived := agg.totalReceived }

/-- The senders after a rebuild that scans the messages in the given order. -/
def buildSenderIndex (R : Runtime) (identity : Text → Option Sender) (scan : List MailMessage) :
    Text → Option Sender := fun key =>
  match scan.foldl foldMessage (fun _ => none) key, identity key with
  | some agg, some who => some (seenPass scan (rebuiltSender R agg who))
  | _, _ => none

end DeclutrMail.Sync.Ingest
