import Mathlib.Data.Char
import Mathlib.Data.List.Lex
import DeclutrMail.Sync.CategoryRecount
import DeclutrMail.Triage.Scoring

/-!
# The sweep's mark on stale verdicts

The sender-index sweep recounts the Gmail tabs of a mailbox and expires the verdicts of the senders
whose tab has changed, as of `produced_at`: the mark by which it finds them again in every later
sweep. A score job reads the tab, and writes its verdict later.

The rows are those of one mailbox. Automatic protection is modelled by the senders whose verdicts
it expires, and of a score job the Screener step is left out.
-/

namespace DeclutrMail.Triage.Marks

open Interleaving
open Sync.Ingest (MailMessage Sender GmailCategory)

/-! ## Requests -/

inductive Request
  | begin
  | reconcileSenderCategories
  | markDecisionsStale (senderKeys : List Text)
  | expireUnbackedPrimaryKeeps
  | applyAutomaticProtection
  | sendersAwaitingRescore
  | commit
  | rollback
  | selectMayAct
  | onSendersRecategorized (senderKeys : List Text)
  | loadSignals (senderKey : Text)
  | explain (senderKey : Text) (job : ScoreJob)
  | upsertDecision (senderKey : Text) (d : Decision)

/-- `applyAutomaticProtection` hands back the senders whose verdicts it expires. -/
abbrev Request.Answer : Request → Type
  | .reconcileSenderCategories => List Text
  | .applyAutomaticProtection => List Text
  | .sendersAwaitingRescore => List Text
  | .selectMayAct => Bool
  | .loadSignals _ => Option SenderSignals
  | .explain .. => Option String
  | _ => Unit

abbrev Sig : Signature := ⟨Request, Request.Answer, ScoreError⟩

abbrev Prog (α : Type) := Program Sig α

abbrev await (q : Request) : Prog q.Answer := Program.perform (S := Sig) q

/-! ## The sweep of a mailbox -/

def markDecisionsStale (senderKeys : List Text) : Prog Unit :=
  .when (!senderKeys.isEmpty) (await (.markDecisionsStale senderKeys))

/-- The body of the `categories` hold. -/
def categories : Prog (List Text) := do
  let changed ← await .reconcileSenderCategories
  markDecisionsStale changed
  await .expireUnbackedPrimaryKeeps
  let released ← await .applyAutomaticProtection
  markDecisionsStale released
  await .sendersAwaitingRescore

/-- The transaction under the mailbox's lock. -/
def hold : Prog (List Text) := do
  await .begin
  let awaiting ← tryCatch categories fun e => do
    await .rollback
    throw e
  await .commit
  return awaiting

def maxRescoreSet : ℕ := 2000

/-- It never raises: the senders stay marked. -/
def requestRescore (senderKeys : List Text) : Prog Unit :=
  tryCatch (do
    let mayAct ← await .selectMayAct
    .when mayAct (await (.onSendersRecategorized senderKeys))) fun _ => return ()

def sweep : Prog (List Text) := do
  let awaiting ← hold
  .when (!awaiting.isEmpty) (requestRescore (awaiting.take maxRescoreSet))
  return awaiting

/-! ## The score of a sender -/

/-- Whether a verdict was written. -/
def scoreOne (senderKey : Text) (job : ScoreJob) : Prog Bool := do
  match ← await (.loadSignals senderKey) with
  | none => return false
  | some signals =>
    let prose ← await (.explain senderKey job)
    await (.upsertDecision senderKey (job.decision signals prose))
    return true

/-! ## The world -/

/-- The mark: expired as of `produced_at`. -/
def isMarked (d : Decision) : Bool := decide (d.expiresAt = d.producedAt)

def mark (d : Decision) : Decision := { d with expiresAt := d.producedAt }

/-- What a sweep's transaction has written: the tabs that it has changed, and the rows that it has
marked. `noted` remembers the changed senders whose rows it found marked before. -/
structure Tx where
  tabs : List (Text × GmailCategory)
  marked : List Text
  noted : List Text

def Tx.empty : Tx := ⟨[], [], []⟩

def Tx.changed (tx : Tx) (key : Text) : Bool := tx.tabs.any (·.1 = key)

/-- What is remembered of a score job: whose signals it has read, how often the tab of that sender
had changed by then, and the `produced_at` that it is about to write. -/
structure Attempt where
  senderKey : Text
  version : ℕ
  writing : Option ℤ

/-- `version` counts the committed changes of a sender's tab. A sender is `owed` a new verdict from
the commit of a sweep that has changed its tab and marked its row until a job that has read its
signals since writes one; `lost` says that an older job has cleared such a mark. -/
structure World where
  mailboxAccountId : String
  messages : List MailMessage
  senders : List Sender
  decisions : Text → Option Decision
  hold : Option (ℕ × Tx)
  version : Text → ℕ
  attempts : ℕ → Option Attempt
  owed : Text → Bool
  lost : Bool

namespace World

def initial (mailboxAccountId : String) (messages : List MailMessage) (senders : List Sender)
    (decisions : Text → Option Decision) : World where
  mailboxAccountId := mailboxAccountId
  messages := messages
  senders := senders
  decisions := decisions
  hold := none
  version _ := 0
  attempts _ := none
  owed _ := false
  lost := false

/-- The transaction that a thread has open. -/
def txOf (w : World) (t : ℕ) : Option Tx :=
  w.hold.bind fun held => if held.1 = t then some held.2 else none

def setTx (w : World) (t : ℕ) (tx : Tx) : World := { w with hold := some (t, tx) }

/-- The senders with the tabs that a transaction has changed. -/
def sendersIn (w : World) (tx : Tx) : List Sender :=
  w.senders.map fun s =>
    match tx.tabs.find? (·.1 = s.senderKey) with
    | some tab =>
      if s.mailboxAccountId = w.mailboxAccountId then Sync.Ingest.Recount.setCategory s tab.2 else s
    | none => s

/-- The verdicts with the marks that a transaction has set. -/
def decisionsIn (w : World) (tx : Tx) (key : Text) : Option Decision :=
  if key ∈ tx.marked then (w.decisions key).map mark else w.decisions key

def markedIn (w : World) (tx : Tx) (key : Text) : Bool := (w.decisionsIn tx key).any isMarked

/-- `expires_at > produced_at` -/
def freshIn (w : World) (tx : Tx) (key : Text) : Bool :=
  (w.decisionsIn tx key).any fun d => decide (d.producedAt < d.expiresAt)

/-- An `UPDATE` that marks the rows of some senders, where they are not expired. -/
def markKeys (w : World) (tx : Tx) (keys : List Text) : Tx :=
  { tx with marked := tx.marked ++ keys.filter (w.freshIn tx) }

/-! ### The statements of a sweep -/

def reconciled (w : World) (tx : Tx) : Sync.Ingest.Recount.Result :=
  Sync.Ingest.Recount.reconcileSenderCategories w.messages w.mailboxAccountId (w.sendersIn tx)

/-- The changed senders with their new tabs. -/
def newTabs (w : World) (tx : Tx) : List (Text × GmailCategory) :=
  ((w.reconciled tx).senders.filter fun s => decide (s.mailboxAccountId = w.mailboxAccountId ∧
    s.senderKey ∈ (w.reconciled tx).changed)).map fun s => (s.senderKey, s.gmailCategory)

def reconcile (w : World) (tx : Tx) : List Text × Tx :=
  ((w.reconciled tx).changed, { tx with tabs := w.newTabs tx ++ tx.tabs })

def markStale (w : World) (tx : Tx) (keys : List Text) : Tx :=
  { w.markKeys tx keys with
    noted := tx.noted ++ keys.filter fun key => tx.changed key && w.markedIn tx key }

/-- The sender offers an unsubscribe channel. -/
def hasChannel (w : World) (key : Text) : Bool :=
  w.messages.any fun m => decide (m.mailboxAccountId = w.mailboxAccountId ∧ m.senderKey = key) &&
    (m.unsubscribeUrl.isSome || m.unsubscribeMailtoUrl.isSome)

/-- The sender's row is a Primary Keep that the cascade's rule does not back. -/
def unbacked (w : World) (tx : Tx) (s : Sender) : Bool :=
  decide (s.mailboxAccountId = w.mailboxAccountId) &&
    ((w.decisionsIn tx s.senderKey).any fun d =>
      decide (d.result.verdict = .keep ∧ d.result.confidence = 95)) &&
    (decide (s.gmailCategory ≠ .primary) || w.hasChannel s.senderKey)

def unbackedKeys (w : World) (tx : Tx) : List Text :=
  ((w.sendersIn tx).filter (w.unbacked tx)).map (·.senderKey)

/-- Largest senders first. -/
def before (s s' : Sender) : Bool :=
  decide (s'.totalReceived < s.totalReceived ∨
    (s'.totalReceived = s.totalReceived ∧ s.senderKey ≤ s'.senderKey))

def awaiting (w : World) (tx : Tx) : List Text :=
  (((w.sendersIn tx).filter fun s => decide (s.mailboxAccountId = w.mailboxAccountId) &&
    w.markedIn tx s.senderKey).mergeSort before).map (·.senderKey)

/-- The transaction takes effect. -/
def commit (w : World) (tx : Tx) : World :=
  { w with
    senders := w.sendersIn tx
    decisions := w.decisionsIn tx
    hold := none
    version := fun key => if tx.changed key then w.version key + 1 else w.version key
    owed := fun key =>
      w.owed key || (tx.changed key && (decide (key ∈ tx.marked) || decide (key ∈ tx.noted))) }

/-- A transaction that is open changes the tab of a sender. -/
def changing (w : World) (key : Text) : Bool := w.hold.any fun held => held.2.changed key

/-- A transaction that is open has marked the row of a sender, and holds it. -/
def locked (w : World) (key : Text) : Bool := w.hold.any fun held => decide (key ∈ held.2.marked)

/-- The job has read the tab that the sender has. -/
def current (w : World) (attempt : Option Attempt) (key : Text) : Bool :=
  attempt.any fun a => decide (a.senderKey = key ∧ a.version = w.version key)

/-- `INSERT … ON CONFLICT DO UPDATE … WHERE produced_at < excluded.produced_at` -/
def upsert (w : World) (t : ℕ) (key : Text) (d : Decision) : World :=
  if (w.decisions key).all fun old => decide (old.producedAt < d.producedAt) then
    { w with
      decisions := Function.update w.decisions key (some d)
      attempts := Function.update w.attempts t none
      owed := Function.update w.owed key false
      lost := w.lost || (w.owed key && !w.current (w.attempts t) key) }
  else { w with attempts := Function.update w.attempts t none }

end World

/-! ## The system -/

/-- What the database and the other services find out besides. The signals are those that go with
the tab that is read. -/
structure Found where
  signals : GmailCategory → SenderSignals
  prose : Option String
  released : List Text
  mayAct : Bool

/-- A statement of a sweep needs its transaction. -/
def inTx (w : World) (t : ℕ) {α : Type} (f : Tx → α × Tx) : Option (α × World) :=
  (w.txOf t).map fun tx => ((f tx).1, w.setTx t (f tx).2)

/-- A request as it takes effect. -/
def effect (t : ℕ) (found : Found) (w : World) : (q : Request) → Option (q.Answer × World)
  | .begin =>
    -- The mailbox's lock is taken by one sweep at a time.
    if w.hold = none then some ((), w.setTx t .empty) else none
  | .reconcileSenderCategories => inTx w t w.reconcile
  | .markDecisionsStale keys => inTx w t fun tx => ((), w.markStale tx keys)
  | .expireUnbackedPrimaryKeeps =>
    inTx w t fun tx => ((), w.markKeys tx (w.unbackedKeys tx))
  | .applyAutomaticProtection => inTx w t fun tx => (found.released, tx)
  | .sendersAwaitingRescore => inTx w t fun tx => (w.awaiting tx, tx)
  | .commit => (w.txOf t).map fun tx => ((), w.commit tx)
  | .rollback => (w.txOf t).map fun _ => ((), { w with hold := none })
  | .selectMayAct => some (found.mayAct, w)
  | .onSendersRecategorized _ => some ((), w)
  | .loadSignals key =>
    let sender := w.senders.find? fun s =>
      s.mailboxAccountId = w.mailboxAccountId ∧ s.senderKey = key
    some (sender.map fun s => found.signals s.gmailCategory,
      { w with attempts := Function.update w.attempts t (some ⟨key, w.version key, none⟩) })
  | .explain key job =>
    let version := (w.attempts t).map (·.version)
    let attempt := version.map fun version => ⟨key, version, some job.producedAt⟩
    some (found.prose, { w with attempts := Function.update w.attempts t attempt })
  | .upsertDecision key d =>
    -- The row waits for the transaction that has marked it.
    if w.locked key then none else some ((), w.upsert t key d)

inductive Choice
  | go (found : Found)
  | lost (found : Found)
  | fail

/-- A request that fails. A transaction that cannot be committed is rolled back. -/
def missed (t : ℕ) (w : World) : Request → World
  | .commit | .rollback => if (w.txOf t).isSome then { w with hold := none } else w
  | _ => w

def answer (t : ℕ) (q : Request) (c : Choice) (w : World) :
    Option (Except ScoreError q.Answer × World) :=
  match c with
  | .go found => (effect t found w q).map fun r => (.ok r.1, r.2)
  | .lost found => (effect t found w q).map fun r => (.error .database, r.2)
  | .fail => some (.error .database, missed t w q)

inductive Task
  | sweep
  | score (senderKey : Text) (job : ScoreJob)

inductive Returned
  | swept (awaiting : List Text)
  | scored (written : Bool)

def code : Task → Prog Returned
  | .sweep => do
    let awaiting ← sweep
    return .swept awaiting
  | .score senderKey job => do
    let written ← scoreOne senderKey job
    return .scored written

/-- The thread has ended, and its transaction with it. -/
def World.leave (w : World) (t : ℕ) : World :=
  { w with
    hold := if (w.txOf t).isSome then none else w.hold
    attempts := Function.update w.attempts t none }

/-- Mail arrives, is labelled anew or goes; a sender appears. -/
inductive Event
  | mail (messages : List MailMessage)
  | newSender (s : Sender)

def disturb (w : World) : Event → Option World
  | .mail messages => some { w with messages := messages }
  | .newSender s =>
    if w.senders.any fun s' =>
        decide (s'.mailboxAccountId = s.mailboxAccountId ∧ s'.senderKey = s.senderKey) then none
    else some { w with senders := w.senders ++ [s] }

def system : System Sig where
  World := World
  Thread := ℕ
  Task := Task
  Outcome := Returned
  Choice := Choice
  Event := Event
  code := code
  accept t _ w := some (w.leave t)
  answer := answer
  settle t _ w := some (w.leave t)
  crash t w := some (w.leave t)
  disturb e w := disturb w e

end DeclutrMail.Triage.Marks
