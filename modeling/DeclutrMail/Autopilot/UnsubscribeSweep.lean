import DeclutrMail.Autopilot.Approvals
import DeclutrMail.Interleaving.Ownership
import DeclutrMail.Unsubscribe.Tables

/-!
# Sweeps that unsubscribe

`AutopilotActionWorker` on the approved matches of one sender, as far as a rule unsubscribes it.
A sweep decides each match under the action lock of the mailbox. It records the decision together
with an event of the outbox, and the consumer of that event writes the policy that the next
decision reads.
-/

namespace DeclutrMail.Autopilot.Sweep

open Interleaving
open Senders (SenderPolicyType)
open Unsubscribe (UnsubscribeMethod)
open Actions (JobStatus)

/-! ## Tables -/

structure RuleRow where
  presetKey : Option PresetKey
  actionKind : ActionKind
  enabled : Bool
  mode : RuleMode
  deriving DecidableEq

structure MatchRow where
  ruleId : RuleId
  modeAtMatch : MatchMode
  resolution : Resolution
  intentApplied : Bool
  deriving DecidableEq

structure Policy where
  policyType : Option SenderPolicyType
  isProtected : Bool
  deriving DecidableEq

/-- An `ACTIONS_UNSUBSCRIBE_INTENT_RECORDED` of a sweep. -/
structure Intent where
  method : Option UnsubscribeMethod
  delivered : Bool
  deriving DecidableEq

/-- What the transaction of a decision writes. -/
structure Draft where
  decision : Option MatchId
  intent : Option (Option UnsubscribeMethod)
  job : Option MatchId
  applied : Option MatchId
  deriving DecidableEq

def Draft.empty : Draft := ⟨none, none, none, none⟩

structure World where
  rules : InsertionMap RuleId RuleRow
  matchLog : InsertionMap MatchId MatchRow
  /-- The matches whose evidence has been rebuilt. -/
  stale : List MatchId
  /-- The row of the sender: its unsubscribe method. -/
  sender : Option (Option UnsubscribeMethod)
  policy : Option Policy
  /-- The executions by the matches they are keyed by. -/
  jobs : InsertionMap MatchId JobStatus
  /-- The matches of the rows of `activity_log` with action `unsubscribe` and source `autopilot`. -/
  decisions : List MatchId
  intents : List Intent
  /-- The executions that have been added to the queue. -/
  enqueued : List MatchId
  /-- The holder of the mailbox's action lock. -/
  lock : Option ℕ
  draft : ℕ → Draft
  /-- A match was read for execution while an intent was not projected. -/
  amiss : Bool

/-! ## What a sweep reads -/

structure EligibleMatch where
  matchId : MatchId
  ruleId : RuleId
  presetKey : Option PresetKey
  actionKind : ActionKind
  ruleEnabled : Bool
  ruleMode : RuleMode
  modeAtMatch : MatchMode
  hasSender : Bool
  unsubscribeMethod : Option UnsubscribeMethod
  deriving DecidableEq

structure FreshMatch extends EligibleMatch where
  inFlight : Bool
  evidenceCurrent : Bool
  isProtected : Bool
  alreadyUnsubscribed : Bool
  executedInWindow : ℤ
  deriving DecidableEq

/-- The columns of the mailbox and its workspace, as capabilities. -/
structure Mailbox where
  autopilot : Bool
  autopilotActive : Bool
  quiet : Bool
  deriving DecidableEq

/-- An unsubscribe is claimed without message ids. -/
def claimIsInFlight (claim : Option JobStatus) : Bool :=
  claim.any fun status => status ≠ .done && status ≠ .queued

namespace World

variable (w : World)

def evidenceIsCurrent (id : MatchId) : Bool := !w.stale.contains id

def isQueuedAction (id : MatchId) (row : MatchRow) : Bool :=
  row.resolution = .approved && !row.intentApplied && w.evidenceIsCurrent id

/-- `MATCH_COLUMNS` -/
def eligible (id : MatchId) (row : MatchRow) : Option EligibleMatch :=
  (w.rules.get row.ruleId).map fun rule =>
    ⟨id, row.ruleId, rule.presetKey, rule.actionKind, rule.enabled, rule.mode, row.modeAtMatch,
      w.sender.isSome, w.sender.getD none⟩

def eligibleMatches : List EligibleMatch :=
  w.matchLog.entries.filterMap fun (id, row) =>
    if w.isQueuedAction id row then w.eligible id row else none

/-- `reloadMatch` -/
def fresh (id : MatchId) (executedInWindow : ℤ) : Option FreshMatch :=
  match w.matchLog.get id with
  | none => none
  | some row =>
    if row.resolution = .approved && !row.intentApplied then
      (w.eligible id row).map fun eligible =>
        { eligible with
          inFlight := claimIsInFlight (w.jobs.get id)
          evidenceCurrent := w.evidenceIsCurrent id
          isProtected := w.policy.any (·.isProtected)
          alreadyUnsubscribed := w.policy.any (·.policyType = some .unsubscribe)
          executedInWindow }
    else none

end World

/-- The guards that a match passes on its way to an unsubscribe. -/
def FreshMatch.mayUnsubscribe (fresh : FreshMatch) : Bool :=
  fresh.actionKind = .unsubscribe && !fresh.alreadyUnsubscribed && fresh.presetKey.isSome &&
    (fresh.inFlight || (fresh.ruleEnabled && fresh.ruleMode ≠ .paused && !fresh.isProtected &&
      fresh.hasSender && fresh.evidenceCurrent))

/-! ## Statements -/

inductive SweepError
  | database
  | lockTimeout
  | queue
  | mailboxNotFound
  | noSenderId (id : MatchId)
  | claimInFlight (id : MatchId)
  deriving DecidableEq

inductive Statement
  | selectMailbox
  | loadEligibleMatches
  | loadInFlightFlags (ids : List MatchId)
  | lockMailbox
  | unlockMailbox
  | reloadMatch (id : MatchId)
  | dismiss (id : MatchId)
  | senderIndexRebuiltSince (id : MatchId)
  | loadClaim (id : MatchId)
  | retireClaim (id : MatchId)
  | flipMatchApplied (id : MatchId)
  | executeLabelAction (id : MatchId)
  | unsubSendsEnabled
  | lockSenderIndex
  | matchStillCurrent (id : MatchId)
  | insertDecision (id : MatchId)
  | insertOutcome (method : UnsubscribeMethod)
  | publishIntent (method : Option UnsubscribeMethod)
  | insertJob (id : MatchId)
  | selectJob (id : MatchId)
  | nameJob (id : MatchId)
  | applyMatch (id : MatchId)
  | commit
  | rollback
  | enqueueUnsubExecution (id : MatchId)
  | failQueued (id : MatchId)

@[reducible]
def Statement.Answer : Statement → Type
  | .selectMailbox => Option Mailbox
  | .loadEligibleMatches => List EligibleMatch
  | .loadInFlightFlags _ => List MatchId
  | .reloadMatch _ => Option FreshMatch
  | .loadClaim _ => Option JobStatus
  | .senderIndexRebuiltSince _ | .executeLabelAction _ | .unsubSendsEnabled | .matchStillCurrent _
  | .insertJob _ | .selectJob _ => Bool
  | .lockMailbox | .unlockMailbox | .dismiss _ | .retireClaim _ | .flipMatchApplied _
  | .lockSenderIndex | .insertDecision _ | .insertOutcome _ | .publishIntent _ | .nameJob _
  | .applyMatch _ | .commit | .rollback | .enqueueUnsubExecution _ | .failQueued _ => Unit

abbrev SweepSignature : Signature := ⟨Statement, Statement.Answer, SweepError⟩

abbrev SweepProgram (α : Type) := Program SweepSignature α

def run (q : Statement) : SweepProgram q.Answer := Program.perform (S := SweepSignature) q

def transaction {α : Type} (body : SweepProgram α) : SweepProgram α := do
  let a ← tryCatch body fun e => do
    run .rollback
    throw e
  run .commit
  return a

/-! ## One unsubscribe -/

/-- The execution of a one-click sender, keyed by its match. -/
def queueExecution (m : EligibleMatch) : SweepProgram (Option MatchId) := do
  .when (!m.hasSender) (throw (.noSenderId m.matchId))
  if ← run (.insertJob m.matchId) then
    run (.nameJob m.matchId)
    return some m.matchId
  else if ← run (.selectJob m.matchId) then
    run (.nameJob m.matchId)
    return some m.matchId
  else return none

def executionOf (m : EligibleMatch) : SweepProgram (Option MatchId) :=
  if m.unsubscribeMethod = some .oneClick then queueExecution m else return none

/-- The outcome of a sender that has no one-click channel. -/
def recordOutcome (m : EligibleMatch) : SweepProgram Unit :=
  match m.unsubscribeMethod with
  | some .mailto => run (.insertOutcome .mailto)
  | some .none => run (.insertOutcome .none)
  | some .oneClick | none => return ()

/-- The transaction of `executeUnsubscribeIntent`; `none` stands for a stale match. -/
def recordIntent (m : EligibleMatch) : SweepProgram (Option (Option MatchId)) := do
  run .lockSenderIndex
  if ← run (.matchStillCurrent m.matchId) then
    run (.insertDecision m.matchId)
    recordOutcome m
    run (.publishIntent m.unsubscribeMethod)
    let actionId ← executionOf m
    run (.applyMatch m.matchId)
    return some actionId
  else return none

def enqueueExecution (id : MatchId) : SweepProgram Unit :=
  tryCatch (run (.enqueueUnsubExecution id)) fun _ => run (.failQueued id)

/-- The answer is whether the match has spent the daily cap. -/
def executeUnsubscribeIntent (m : FreshMatch) : SweepProgram Bool := do
  let canSendUnsub ← run .unsubSendsEnabled
  if m.unsubscribeMethod = some .oneClick && !canSendUnsub && !m.inFlight then return false
  else
    match ← transaction (recordIntent m.toEligibleMatch) with
    | none => return false
    | some none => return true
    | some (some actionId) =>
      enqueueExecution actionId
      return true

/-! ## One match -/

def dailyActionCap : PresetKey → ℤ
  | .autoArchiveLowEngagement => 100
  | .autoScreenNewSenders => 50
  | .autoUnsubscribeNoisy | .newsletterGraveyard | .longDormantUnsubscribe => 25

def capOf (key : PresetKey) (kind : ActionKind) : ℤ :=
  if kind = .unsubscribe then min 25 (dailyActionCap key) else dailyActionCap key

/-- What is left of the daily cap of each rule; at first there is no bound. -/
abbrev Budget := RuleId → Option ℤ

structure SweepContext where
  gated : Bool
  mayActUnattended : Bool

/-- Two presets collect suggestions even in Active mode. -/
def needsReview (key : PresetKey) : Bool :=
  key = .autoScreenNewSenders || key = .autoArchiveLowEngagement

def abandonStaleClaim (id : MatchId) : SweepProgram Unit := do
  let claim ← run (.loadClaim id)
  .when (claim.any (· ≠ .queued)) (throw (.claimInFlight id))
  run (.retireClaim id)

def executeMatch (m : FreshMatch) : SweepProgram Bool :=
  match m.actionKind with
  | .archive | .later => run (.executeLabelAction m.matchId)
  | .unsubscribe => executeUnsubscribeIntent m
  | .delete => return false

/-- A failure of one match does not stop the sweep. -/
def spendBudget (budget : Budget) (m : FreshMatch) (key : PresetKey) : SweepProgram Budget :=
  let left := capOf key m.actionKind - m.executedInWindow
  let remaining := ((budget m.ruleId).map (min · left)).getD left
  let budget := Function.update budget m.ruleId (some remaining)
  if !m.inFlight && remaining ≤ 0 then return budget
  else
    tryCatch (do
      let spent ← executeMatch m
      return if spent then Function.update budget m.ruleId (some (remaining - 1)) else budget)
    fun _ => return budget

def missingSender (m : FreshMatch) : SweepProgram Unit := do
  if ← run (.senderIndexRebuiltSince m.matchId) then abandonStaleClaim m.matchId else return ()

/-- The guards of a match whose rule may run, in the order of `processMatch`. -/
def guardMatch (budget : Budget) (m : FreshMatch) (key : PresetKey) : SweepProgram Budget :=
  if !m.inFlight && needsReview key && m.modeAtMatch = .active then do
    run (.dismiss m.matchId)
    return budget
  else if !m.inFlight && m.isProtected then do
    run (.dismiss m.matchId)
    return budget
  else if m.isProtected && m.actionKind ≠ .unsubscribe then return budget
  else if !m.hasSender && !m.inFlight then do
    missingSender m
    return budget
  else if !m.inFlight && !m.evidenceCurrent then return budget
  else if m.actionKind = .unsubscribe && m.alreadyUnsubscribed then do
    run (.flipMatchApplied m.matchId)
    return budget
  else spendBudget budget m key

def processMatch (sweep : SweepContext) (budget : Budget) (snapshot : EligibleMatch) :
    SweepProgram Budget := do
  match ← run (.reloadMatch snapshot.matchId) with
  | none => return budget
  | some m =>
    if m.actionKind ≠ snapshot.actionKind then return budget
    else if !m.inFlight && (sweep.gated || (!sweep.mayActUnattended && m.modeAtMatch ≠ .observe)) then
      return budget
    else if !m.inFlight && (!m.ruleEnabled || m.ruleMode = .paused) then return budget
    else
      match m.presetKey with
      | none => return budget
      | some key => guardMatch budget m key

/-! ## The sweep -/

def locked {α : Type} (body : SweepProgram α) : SweepProgram α := do
  run .lockMailbox
  body.ensure (run .unlockMailbox)

/-- The matches that are skipped without the lock. -/
def skips (inFlight : List MatchId) (budget : Budget) (m : EligibleMatch) : Bool :=
  !inFlight.contains m.matchId && (!m.ruleEnabled || m.ruleMode = .paused || m.presetKey.isNone ||
    (budget m.ruleId).any (· ≤ 0))

def processMatches (sweep : SweepContext) (inFlight : List MatchId) :
    Budget → List EligibleMatch → SweepProgram Unit
  | _, [] => return ()
  | budget, m :: rest =>
    if skips inFlight budget m then processMatches sweep inFlight budget rest
    else do
      let budget ← locked (processMatch sweep budget m)
      processMatches sweep inFlight budget rest

def sweep : SweepProgram Unit := do
  match ← run .selectMailbox with
  | none => throw .mailboxNotFound
  | some mailbox =>
    let context : SweepContext := ⟨!mailbox.autopilot || mailbox.quiet, mailbox.autopilotActive⟩
    let loaded ← run .loadEligibleMatches
    let inFlight ← run (.loadInFlightFlags (loaded.map (·.matchId)))
    let entitled := loaded.filter fun m =>
      context.mayActUnattended || m.modeAtMatch = .observe || inFlight.contains m.matchId
    processMatches context inFlight (fun _ => none)
      (if context.gated then entitled.filter fun m => inFlight.contains m.matchId else entitled)

/-! ## The system -/

inductive Choice
  | ok
  | fails
  /-- The statement is executed, and its answer is lost. -/
  | lost
  | mailbox (row : Option Mailbox)
  | order (loaded : List EligibleMatch)
  | window (executed : ℤ)
  | flag (b : Bool)

namespace World

variable (w : World) (t : ℕ)

def write (d : Draft) : World := { w with draft := Function.update w.draft t d }

def rollback : World := w.write t .empty

/-- An update of a match that is not applied. -/
def updateMatch (id : MatchId) (f : MatchRow → MatchRow) : World :=
  match w.matchLog.get id with
  | some row => if row.intentApplied then w else { w with matchLog := w.matchLog.set id (f row) }
  | none => w

def applyMatch (id : MatchId) : World := w.updateMatch id fun row => { row with intentApplied := true }

def setJob (id : MatchId) (f : JobStatus → JobStatus) : World :=
  match w.jobs.get id with
  | some status => { w with jobs := w.jobs.set id (f status) }
  | none => w

/-- The match of the transaction is applied. -/
def applied : World :=
  match (w.draft t).applied with
  | some id => w.applyMatch id
  | none => w

def commit : World :=
  { (w.applied t).rollback t with
    jobs := match (w.draft t).job with
      | some id => w.jobs.set id .queued
      | none => w.jobs
    decisions := w.decisions ++ (w.draft t).decision.toList
    intents := w.intents ++ (w.draft t).intent.toList.map (⟨·, false⟩) }

def enqueue (id : MatchId) : World := { w with enqueued := w.enqueued ++ [id] }

/-- An intent has not been projected into the policy. -/
def awaited : Bool := w.intents.any (!·.delivered)

/-- A match is read. -/
def reload (fresh : Option FreshMatch) : World :=
  { w with amiss := w.amiss || (w.awaited && fresh.any (·.mayUnsubscribe)) }

def unlock : World := { w with lock := if w.lock = some t then none else w.lock }

end World

def answer (t : ℕ) (q : Statement) (c : Choice) (w : World) :
    Option (Except SweepError q.Answer × World) :=
  match q, c with
  | .selectMailbox, .mailbox row => some (.ok row, w)
  | .loadEligibleMatches, .order loaded =>
    if loaded.Perm w.eligibleMatches then some (.ok loaded, w) else none
  | .loadInFlightFlags ids, .ok =>
    some (.ok (ids.filter fun id => claimIsInFlight (w.jobs.get id)), w)
  | .lockMailbox, .ok => if w.lock = none then some (.ok (), { w with lock := some t }) else none
  | .lockMailbox, .fails => some (.error .lockTimeout, w)
  | .unlockMailbox, .ok => some (.ok (), w.unlock t)
  | .unlockMailbox, .fails => some (.error .database, w.unlock t)
  | .reloadMatch id, .window executed =>
    some (.ok (w.fresh id executed), w.reload (w.fresh id executed))
  | .dismiss id, .ok =>
    some (.ok (), w.updateMatch id fun row => { row with resolution := .dismissed })
  | .senderIndexRebuiltSince _, .flag b => some (.ok b, w)
  | .loadClaim id, .ok => some (.ok (w.jobs.get id), w)
  | .retireClaim id, .ok =>
    some (.ok (),
      (w.setJob id fun status => if status = .done then .done else .failed).applyMatch id)
  | .flipMatchApplied id, .ok => some (.ok (), w.applyMatch id)
  | .executeLabelAction _, .flag b => some (.ok b, w)
  | .unsubSendsEnabled, .flag b => some (.ok b, w)
  | .unsubSendsEnabled, .fails => none
  | .lockSenderIndex, .ok => some (.ok (), w)
  | .matchStillCurrent id, .ok => some (.ok ((w.matchLog.get id).any (w.isQueuedAction id)), w)
  | .insertDecision id, .ok => some (.ok (), w.write t { w.draft t with decision := some id })
  | .insertOutcome _, .ok => some (.ok (), w)
  | .publishIntent m, .ok => some (.ok (), w.write t { w.draft t with intent := some m })
  | .insertJob id, .ok =>
    if (w.jobs.get id).isSome then some (.ok false, w)
    else some (.ok true, w.write t { w.draft t with job := some id })
  | .selectJob id, .ok => some (.ok ((w.jobs.get id).isSome || (w.draft t).job = some id), w)
  | .nameJob _, .ok => some (.ok (), w)
  | .applyMatch id, .ok => some (.ok (), w.write t { w.draft t with applied := some id })
  | .commit, .ok => some (.ok (), w.commit t)
  | .commit, .lost => some (.error .database, w.commit t)
  | .commit, .fails => some (.error .database, w.rollback t)
  | .rollback, .ok => some (.ok (), w.rollback t)
  | .rollback, .fails => none
  | .enqueueUnsubExecution id, .ok => some (.ok (), w.enqueue id)
  | .enqueueUnsubExecution id, .lost => some (.error .queue, w.enqueue id)
  | .enqueueUnsubExecution _, .fails => some (.error .queue, w)
  | .failQueued id, .ok =>
    some (.ok (), w.setJob id fun status => if status = .queued then .failed else status)
  | _, .fails => some (.error .database, w)
  | _, _ => none

/-- What the rest of the system does to the tables; nobody takes a policy of `unsubscribe` away. -/
inductive Event
  | rules (rules : InsertionMap RuleId RuleRow)
  | suggestion (id : MatchId) (row : MatchRow)
  | rebuilt (stale : List MatchId)
  | sender (row : Option (Option UnsubscribeMethod))
  | protect (isProtected : Bool)
  /-- An intent is delivered, perhaps again. -/
  | deliver (i : ℕ)
  /-- An execution proceeds. -/
  | execution (id : MatchId) (status : JobStatus)
  /-- The outcome of an execution is delivered. -/
  | executed

def Policy.unsubscribe (policy : Option Policy) : Policy :=
  ⟨some .unsubscribe, policy.any (·.isProtected)⟩

def disturb (e : Event) (w : World) : Option World :=
  match e with
  | .rules rules => some { w with rules }
  | .suggestion id row =>
    if (w.matchLog.get id).any (·.intentApplied) then none
    else some { w with matchLog := w.matchLog.set id row }
  | .rebuilt stale => some { w with stale }
  | .sender row => some { w with sender := row }
  | .protect isProtected =>
    some { w with policy := some ⟨(w.policy.map (·.policyType)).getD (some .keep), isProtected⟩ }
  | .deliver i =>
    if i < w.intents.length then
      some { w with
        intents := w.intents.modify i fun intent => { intent with delivered := true }
        policy := some (Policy.unsubscribe w.policy) }
    else none
  | .execution id status => some (w.setJob id fun _ => status)
  | .executed =>
    if w.jobs.entries = [] then none
    else some { w with policy := some (Policy.unsubscribe w.policy) }

@[reducible]
def sweeping : System SweepSignature where
  World := World
  Thread := ℕ
  Task := Unit
  Outcome := Unit
  Choice := Choice
  Event := Event
  code _ := sweep
  accept _ _ w := some w
  answer := answer
  settle _ _ w := some w
  crash t w := some ((w.rollback t).unlock t)
  disturb := disturb

end DeclutrMail.Autopilot.Sweep
