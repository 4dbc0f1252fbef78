import DeclutrMail.Sync.Headers
import DeclutrMail.Sync.History

/-!
# Storing one message

`InitialSyncWorker` and `IncrementalSyncWorker` each map the metadata of a message to a row
of `mail_messages` and, for inbound mail, to the identity of its sender. A path stores what
the table accepts: `stored` is the row with the identity, or nothing.

The two mappers agree exactly on the payloads of `Agrees` (`initialStored_eq_iff`). They
differ on a `From` without an address, on a snippet longer than its column, on outbound mail
without recipients and on an address that is not in its normal form.
-/

namespace DeclutrMail.Sync.Ingest

open Text

structure GmailMessageMetadata extends Sync.GmailMessageMetadata where
  threadId : String
  snippet : Text
  /-- Milliseconds since the epoch. -/
  internalDate : ℤ
  /-- `from` -/
  sender : Option Text
  subject : Option Text
  recipients : Option Text
  cc : Option Text
  listUnsubscribe : Option Text
  listUnsubscribePost : Option Text
  sizeBytes : Option ℤ

inductive GmailCategory
  | primary
  | promotions
  | social
  | updates
  | forums
  | unknown
  deriving DecidableEq

/-- Gmail's label of each tab, in precedence order. -/
def categoryLabels : List (Label × GmailCategory) :=
  [("CATEGORY_PERSONAL", .primary), ("CATEGORY_PROMOTIONS", .promotions),
    ("CATEGORY_SOCIAL", .social), ("CATEGORY_UPDATES", .updates), ("CATEGORY_FORUMS", .forums)]

def messageGmailCategory (labelIds : List Label) : Option GmailCategory :=
  (categoryLabels.find? fun entry => decide (entry.1 ∈ labelIds)).map Prod.snd

/-- A row of `mail_messages`, without the columns that the database fills in. -/
structure MailMessage where
  mailboxAccountId : String
  providerMessageId : MessageId
  providerThreadId : String
  senderKey : Text
  subject : Text
  snippet : Text
  internalDate : ℤ
  labelIds : List Label
  isUnread : Bool
  isOutbound : Bool
  recipientEmails : Option (List Text)
  unsubscribeUrl : Option Text
  unsubscribeMailtoUrl : Option Text
  unsubscribeOneClick : Bool
  sizeBytes : Option ℤ
  deriving DecidableEq

/-- The row with another value of `snippet`. -/
def MailMessage.setSnippet (message : MailMessage) (snippet : Text) : MailMessage :=
  { message with snippet }

/-- The columns of a row of `senders` that say who the sender is. -/
structure SenderIdentity where
  id : Text
  mailboxAccountId : String
  senderKey : Text
  displayName : Text
  email : Text
  domain : Text
  gmailCategory : GmailCategory
  firstSeenAt : ℤ
  lastSeenAt : ℤ
  deriving DecidableEq

/-- What a path leaves of one message. -/
structure Stored where
  message : MailMessage
  sender : Option SenderIdentity
  deriving DecidableEq

/-- Lower casing and the digest of a text, in hexadecimal and in the shape of a UUID. -/
structure Runtime where
  lowerCase : LowerCase
  sha256Hex : Text → Text
  length_sha256Hex : ∀ text, (sha256Hex text).length = 64
  sha256Uuid : Text → Text

/-! ## The table -/

/-- The checks of `mail_messages` on the columns of `List-Unsubscribe`. -/
def urlsStorable (unsubscribeUrl unsubscribeMailtoUrl : Option Text) : Bool :=
  unsubscribeUrl.all ("https://".toList.isPrefixOf ·) &&
    unsubscribeMailtoUrl.all ("mailto:".toList.isPrefixOf ·)

/-- Whether the table accepts the channels of a payload. -/
def urlsAccepted (payload : GmailMessageMetadata) : Bool :=
  let channels := parseListUnsubscribe payload.listUnsubscribe payload.listUnsubscribePost
  urlsStorable channels.httpsUrl channels.mailtoUrl

/-- Recipients are stored for outbound mail only. -/
def recipientsStorable (message : MailMessage) : Bool :=
  message.recipientEmails.isNone || message.isOutbound

/-- The row that the table holds after the insert, unless it refuses the values. -/
def insertMessage (message : MailMessage) : Option MailMessage :=
  if urlsStorable message.unsubscribeUrl message.unsubscribeMailtoUrl &&
      recipientsStorable message then
    (fitVarchar 300 message.snippet).map message.setSnippet
  else none

section
variable (R : Runtime)

def deriveSenderKey (email : Text) : Text :=
  R.sha256Hex ("v1|".toList ++ normalizeEmail R.lowerCase email)

def deriveSenderId (mailboxAccountId : String) (senderKey : Text) : Text :=
  R.sha256Uuid ("declutrmail.sender.v1|".toList ++ mailboxAccountId.toList ++ '|' :: senderKey)

/-- `[...parseRecipients(meta.to), ...parseRecipients(meta.cc)]` -/
def recipientsOf (payload : GmailMessageMetadata) : List Text :=
  parseRecipients R.lowerCase payload.recipients ++ parseRecipients R.lowerCase payload.cc

/-! ## The initial sync -/

structure ParsedFacts where
  email : Text
  displayName : Text
  domain : Text
  internalDate : ℤ
  category : GmailCategory
  isOutbound : Bool

/-- The row that `toMessageRow` builds, from the normalised address. -/
def messageRow (mailboxAccountId : String) (payload : GmailMessageMetadata) (email : Text) :
    MailMessage :=
  let isOutbound := decide ("SENT" ∈ payload.labelIds)
  let channels := parseListUnsubscribe payload.listUnsubscribe payload.listUnsubscribePost
  { mailboxAccountId
    providerMessageId := payload.id
    providerThreadId := payload.threadId
    senderKey := deriveSenderKey R email
    subject := payload.subject.getD []
    snippet := slice 300 payload.snippet
    internalDate := payload.internalDate
    labelIds := payload.labelIds
    isUnread := decide ("UNREAD" ∈ payload.labelIds)
    isOutbound
    recipientEmails :=
      if isOutbound = true ∧ recipientsOf R payload ≠ [] then some (recipientsOf R payload)
      else none
    unsubscribeUrl := channels.httpsUrl
    unsubscribeMailtoUrl := channels.mailtoUrl
    unsubscribeOneClick := channels.oneClick
    sizeBytes := payload.sizeBytes }

/-- The facts that `toMessageRow` returns beside the row. -/
def parsedFacts (payload : GmailMessageMetadata) (parsed : ParsedSender) : ParsedFacts :=
  let email := normalizeEmail R.lowerCase parsed.email
  { email
    displayName := parsed.displayName
    domain := emailDomain R.lowerCase email
    internalDate := payload.internalDate
    category := (messageGmailCategory payload.labelIds).getD .unknown
    isOutbound := decide ("SENT" ∈ payload.labelIds) }

def toMessageRow (mailboxAccountId : String) (payload : GmailMessageMetadata) :
    Option (MailMessage × ParsedFacts) :=
  if isNonMail payload.labelIds then none
  else
    match parseFromHeader payload.sender with
    | none => none
    | some parsed =>
      some (messageRow R mailboxAccountId payload (normalizeEmail R.lowerCase parsed.email),
        parsedFacts R payload parsed)

def toIdentityRow (mailboxAccountId : String) (senderKey : Text) (facts : ParsedFacts) :
    SenderIdentity where
  id := deriveSenderId R mailboxAccountId senderKey
  mailboxAccountId
  senderKey
  displayName := facts.displayName
  email := facts.email
  domain := facts.domain
  gmailCategory := facts.category
  firstSeenAt := facts.internalDate
  lastSeenAt := facts.internalDate

/-- `flushBatch` on the batch of this message. -/
def initialStored (mailboxAccountId : String) (payload : GmailMessageMetadata) : Option Stored :=
  match toMessageRow R mailboxAccountId payload with
  | none => none
  | some (row, facts) =>
    (insertMessage row).map fun message =>
      ⟨message, if facts.isOutbound then none
        else some (toIdentityRow R mailboxAccountId row.senderKey facts)⟩

/-! ## The incremental sync -/

/-- The values that `handleMessageAdded` inserts into `mail_messages`. -/
def addedRow (mailboxAccountId : String) (payload : GmailMessageMetadata) (senderKey : Text) :
    MailMessage :=
  let isOutbound := decide ("SENT" ∈ payload.labelIds)
  let channels := parseListUnsubscribe payload.listUnsubscribe payload.listUnsubscribePost
  { mailboxAccountId
    providerMessageId := payload.id
    providerThreadId := payload.threadId
    senderKey
    subject := payload.subject.getD []
    snippet := payload.snippet
    internalDate := payload.internalDate
    labelIds := payload.labelIds
    isUnread := decide ("UNREAD" ∈ payload.labelIds)
    isOutbound
    recipientEmails := if isOutbound then some (recipientsOf R payload) else none
    unsubscribeUrl := channels.httpsUrl
    unsubscribeMailtoUrl := channels.mailtoUrl
    unsubscribeOneClick := channels.oneClick
    sizeBytes := payload.sizeBytes }

/-- The values that `handleMessageAdded` inserts into `senders`. -/
def addedSender (mailboxAccountId : String) (payload : GmailMessageMetadata) (senderKey : Text)
    (parsedFrom : ParsedSender) : SenderIdentity where
  id := deriveSenderId R mailboxAccountId senderKey
  mailboxAccountId
  senderKey
  displayName := parsedFrom.displayName
  email := parsedFrom.email
  domain := emailDomain R.lowerCase parsedFrom.email
  gmailCategory := (messageGmailCategory payload.labelIds).getD .unknown
  firstSeenAt := payload.internalDate
  lastSeenAt := payload.internalDate

/-- `handleMessageAdded` for a message that is neither stored yet nor gone from Gmail. -/
def handleMessageAdded (mailboxAccountId : String) (payload : GmailMessageMetadata) :
    Option Stored :=
  if isNonMail payload.labelIds then none
  else
    let parsedFrom := parseFromHeader payload.sender
    let senderKey := (parsedFrom.map fun parsed => deriveSenderKey R parsed.email).getD []
    (insertMessage (addedRow R mailboxAccountId payload senderKey)).map fun message =>
      ⟨message, if "SENT" ∈ payload.labelIds then none
        else parsedFrom.map (addedSender R mailboxAccountId payload senderKey)⟩

/-! ## Agreement -/

/-- The snippet has at most 300 units, not counting blanks beyond its first 300
characters. -/
def SnippetFits (snippet : Text) : Prop :=
  utf16Length (snippet.take 300) ≤ 300 ∧ ∀ c ∈ snippet.drop 300, c = ' '

/-- Neither path stores the message, or its `From` has an address, the snippet fits, and
outbound mail has recipients, inbound mail an address in its normal form. -/
def Agrees (payload : GmailMessageMetadata) : Prop :=
  isNonMail payload.labelIds = true ∨ urlsAccepted payload = false ∨
    match parseFromHeader payload.sender with
    | none => fitVarchar 300 payload.snippet = none
    | some parsed => SnippetFits payload.snippet ∧
        if "SENT" ∈ payload.labelIds then recipientsOf R payload ≠ []
        else normalizeEmail R.lowerCase parsed.email = parsed.email

/-- Both paths store the message or neither does, and what they store is the same. -/
def StoreAlike (initial incremental : Option Stored) : Prop :=
  (initial.isSome ↔ incremental.isSome) ∧
    ∀ first ∈ initial, ∀ second ∈ incremental, first = second

theorem storeAlike_iff {initial incremental : Option Stored} :
    StoreAlike initial incremental ↔ initial = incremental := by
  cases initial <;> cases incremental <;> simp [StoreAlike]

@[simp] theorem deriveSenderKey_normalizeEmail (email : Text) :
    deriveSenderKey R (normalizeEmail R.lowerCase email) = deriveSenderKey R email := by
  rw [deriveSenderKey, normalizeEmail_idem, deriveSenderKey]

/-- A row with recipients on outbound mail only and a snippet that fits is stored as it is. -/
theorem insertMessage_messageRow (mailboxAccountId : String) (payload : GmailMessageMetadata)
    (email : Text) :
    insertMessage (messageRow R mailboxAccountId payload email) =
      if urlsAccepted payload then some (messageRow R mailboxAccountId payload email)
      else none := by
  have recipients : recipientsStorable (messageRow R mailboxAccountId payload email) = true := by
    by_cases outbound : "SENT" ∈ payload.labelIds <;>
      simp [recipientsStorable, messageRow, outbound]
  have fits : fitVarchar 300 (messageRow R mailboxAccountId payload email).snippet =
      some (messageRow R mailboxAccountId payload email).snippet := fitVarchar_slice _ _
  rw [insertMessage, recipients, fits, Bool.and_true]
  rfl

theorem insertMessage_addedRow (mailboxAccountId : String) (payload : GmailMessageMetadata)
    (senderKey : Text) :
    insertMessage (addedRow R mailboxAccountId payload senderKey) =
      if urlsAccepted payload then
        (fitVarchar 300 payload.snippet).map
          (addedRow R mailboxAccountId payload senderKey).setSnippet
      else none := by
  have recipients : recipientsStorable (addedRow R mailboxAccountId payload senderKey) = true := by
    by_cases outbound : "SENT" ∈ payload.labelIds <;>
      simp [recipientsStorable, addedRow, outbound]
  rw [insertMessage, recipients, Bool.and_true]
  rfl

/-- The two rows differ in the snippet and in an empty list of recipients. -/
theorem messageRow_eq_iff {mailboxAccountId : String} {payload : GmailMessageMetadata}
    {email snippet : Text} :
    messageRow R mailboxAccountId payload (normalizeEmail R.lowerCase email) =
        (addedRow R mailboxAccountId payload (deriveSenderKey R email)).setSnippet snippet ↔
      slice 300 payload.snippet = snippet ∧
        ("SENT" ∈ payload.labelIds → recipientsOf R payload ≠ []) := by
  by_cases outbound : "SENT" ∈ payload.labelIds <;>
    simp [messageRow, addedRow, MailMessage.setSnippet, outbound]

/-- The two identities differ in the spelling of the address. -/
theorem addedSender_eq_iff {mailboxAccountId : String} {payload : GmailMessageMetadata}
    {parsed : ParsedSender} (trimmed : Trimmed parsed.email) :
    addedSender R mailboxAccountId payload (deriveSenderKey R parsed.email) parsed =
        toIdentityRow R mailboxAccountId (deriveSenderKey R parsed.email)
          (parsedFacts R payload parsed) ↔
      normalizeEmail R.lowerCase parsed.email = parsed.email := by
  have domain := emailDomain_normalizeEmail R.lowerCase trimmed
  simp [toIdentityRow, addedSender, parsedFacts, domain, @eq_comm _ parsed.email]

/-- The two paths agree on what comes from an address. -/
theorem stored_eq_iff (mailboxAccountId : String) (payload : GmailMessageMetadata)
    {parsed : ParsedSender} (trimmed : Trimmed parsed.email) :
    (∃ snippet, fitVarchar 300 payload.snippet = some snippet ∧
        (addedRow R mailboxAccountId payload (deriveSenderKey R parsed.email)).setSnippet snippet =
          messageRow R mailboxAccountId payload (normalizeEmail R.lowerCase parsed.email) ∧
        (if "SENT" ∈ payload.labelIds then none
          else some (addedSender R mailboxAccountId payload (deriveSenderKey R parsed.email)
            parsed)) =
          if (parsedFacts R payload parsed).isOutbound = true then none
          else some (toIdentityRow R mailboxAccountId (deriveSenderKey R parsed.email)
            (parsedFacts R payload parsed))) ↔
      fitVarchar 300 payload.snippet = some (slice 300 payload.snippet) ∧
        if "SENT" ∈ payload.labelIds then ¬ recipientsOf R payload = []
        else normalizeEmail R.lowerCase parsed.email = parsed.email := by
  have flag : (parsedFacts R payload parsed).isOutbound = decide ("SENT" ∈ payload.labelIds) := rfl
  constructor
  · rintro ⟨snippet, fits, row, sender⟩
    obtain ⟨rfl, recipients⟩ := (messageRow_eq_iff R).mp row.symm
    refine ⟨fits, ?_⟩
    split
    case isTrue outbound => exact recipients outbound
    case isFalse inbound =>
      simp only [flag, inbound, decide_false, Bool.false_eq_true, if_false,
        Option.some.injEq] at sender
      exact (addedSender_eq_iff R trimmed).mp sender
  · rintro ⟨fits, rest⟩
    refine ⟨_, fits, ((messageRow_eq_iff R).mpr ⟨rfl, fun outbound => ?_⟩).symm, ?_⟩
    · rwa [if_pos outbound] at rest
    · by_cases outbound : "SENT" ∈ payload.labelIds
      · simp [flag, outbound]
      · rw [if_neg outbound] at rest
        simp [flag, outbound, (addedSender_eq_iff R trimmed).mpr rest]

theorem storeAlike_iff_agrees (mailboxAccountId : String) (payload : GmailMessageMetadata) :
    StoreAlike (initialStored R mailboxAccountId payload)
        (handleMessageAdded R mailboxAccountId payload) ↔ Agrees R payload := by
  rw [storeAlike_iff, initialStored, toMessageRow, handleMessageAdded, Agrees]
  by_cases nonMail : isNonMail payload.labelIds = true
  · simp [nonMail]
  cases urls : urlsAccepted payload with
  | false =>
    cases parse : parseFromHeader payload.sender <;>
      simp [nonMail, insertMessage_messageRow, insertMessage_addedRow, urls]
  | true =>
    cases parse : parseFromHeader payload.sender with
    | none => simp [nonMail, insertMessage_addedRow, urls, @eq_comm _ none]
    | some parsed =>
      have key : (messageRow R mailboxAccountId payload
          (normalizeEmail R.lowerCase parsed.email)).senderKey = deriveSenderKey R parsed.email :=
        deriveSenderKey_normalizeEmail R parsed.email
      have agree :=
        stored_eq_iff R mailboxAccountId payload (trimmed_of_parseFromHeader parse)
      simpa [nonMail, insertMessage_messageRow, insertMessage_addedRow, urls, key, SnippetFits,
        ← fitVarchar_eq_slice_iff, @eq_comm _ (some _)] using agree

end

/-- Digests are not looked at here. -/
def sampleRuntime : Runtime where
  lowerCase := asciiLowerCase
  sha256Hex text := (text ++ List.replicate 64 '0').take 64
  length_sha256Hex text := by simp
  sha256Uuid := id

def sampleMessage (sender : String) : GmailMessageMetadata where
  id := "m"
  labelIds := ["INBOX"]
  threadId := "t"
  snippet := []
  internalDate := 0
  sender := some sender.toList
  subject := none
  recipients := none
  cc := none
  listUnsubscribe := none
  listUnsubscribePost := none
  sizeBytes := none

/-- A message without an address is stored by one path only, and an alias is kept by one
path only. -/
theorem not_storeAlike_sample :
    initialStored sampleRuntime "box" (sampleMessage "undisclosed") = none ∧
      (handleMessageAdded sampleRuntime "box" (sampleMessage "undisclosed")).isSome = true ∧
      ¬ StoreAlike (initialStored sampleRuntime "box" (sampleMessage "undisclosed"))
        (handleMessageAdded sampleRuntime "box" (sampleMessage "undisclosed")) ∧
      ((initialStored sampleRuntime "box" (sampleMessage "Ann <ann+news@shop.org>")).bind
        fun stored => stored.sender.map (String.ofList ·.email)) = some "ann@shop.org" ∧
      ((handleMessageAdded sampleRuntime "box" (sampleMessage "Ann <ann+news@shop.org>")).bind
        fun stored => stored.sender.map (String.ofList ·.email)) = some "ann+news@shop.org" := by
  rw [storeAlike_iff]
  decide +kernel

end DeclutrMail.Sync.Ingest
