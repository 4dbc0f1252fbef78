import DeclutrMail.Autopilot.Presets
import DeclutrMail.Collections.InsertionMap
import DeclutrMail.Interleaving.SharedLocks
import DeclutrMail.Interleaving.Triple

/-!
# Suggestions, statement by statement

The calls that insert, approve and dismiss the matches of a rule, and those that change or stop
the rule, for one mailbox. An `UPDATE` looks for its rows in what is committed when it begins; it
then locks them one by one, waits where it must, and checks each again as it then is.
-/

namespace DeclutrMail.Autopilot

open Interleaving

abbrev RuleId := ℕ

abbrev MatchId := ℕ

/-! ## Tables -/

inductive MatchMode
  | observe
  | active
  deriving DecidableEq

inductive Resolution
  | pending
  | approved
  | dismissed
  deriving DecidableEq

/-- A row of `rule_match_log`, with the criteria that the pass had evaluated. -/
structure Match where
  ruleId : RuleId
  senderKey : String
  matchedAt : ℤ
  modeAtMatch : MatchMode
  resolution : Resolution
  intentApplied : Bool
  evaluated : Criteria
  deriving DecidableEq

namespace Match

variable (row : Match)

/-- Nothing has come of the match, and something still may. -/
def outstanding : Bool := row.resolution ≠ .dismissed && !row.intentApplied

def observed : Bool := row.modeAtMatch = .observe && row.resolution = .pending

def approve : Match := { row with resolution := .approved }

def dismiss : Match := { row with resolution := .dismissed }

end Match

/-- The columns of `sender_policies` that are read here. -/
structure Policy where
  isProtected : Bool
  unsubscribed : Bool
  deriving DecidableEq

structure Store where
  rules : InsertionMap RuleId Rule
  matchLog : InsertionMap MatchId Match
  /-- When the row of a sender was created. -/
  senders : InsertionMap String ℤ
  policies : InsertionMap String Policy
  /-- The matches that have a claim in `action_jobs`. -/
  claims : List MatchId
  /-- The rules that have a batch waiting or running. -/
  batches : List RuleId

namespace Store

variable (s : Store) (id : MatchId) (row : Match)

def senderIndexedAtMatchTime : Bool := (s.senders.get row.senderKey).any (· ≤ row.matchedAt)

def senderIsProtected : Bool := (s.policies.get row.senderKey).any (·.isProtected)

/-- `ruleMatchIsPendingSuggestion` -/
def isPendingSuggestion : Bool := row.observed && s.senderIndexedAtMatchTime row

def unsubscribeAlreadyDone : Bool :=
  (s.rules.get row.ruleId).any (·.actionKind = .unsubscribe) &&
    (s.policies.get row.senderKey).any (·.unsubscribed)

/-- `ruleMatchIsOfferableSuggestion` -/
def isOfferable : Bool :=
  s.isPendingSuggestion row && !s.senderIsProtected row && !s.unsubscribeAlreadyDone row

/-- `ruleMatchRuleCanStart` -/
def ruleCanStart : Bool := (s.rules.get row.ruleId).any (·.canStart)

def evidenceIsCurrent : Bool :=
  !(s.senders.get row.senderKey).any (row.matchedAt < ·) || s.claims.contains id

/-- `ruleMatchIsQueuedAction` -/
def isQueuedAction : Bool :=
  row.resolution = .approved && !row.intentApplied && s.evidenceIsCurrent id row

/-- `senderIndexStamp` -/
def senderIndexStamp : Option ℤ := (s.senders.entries.map Prod.snd).min?

end Store

/-- A row as a transaction leaves it. -/
inductive Write
  | rule (id : RuleId) (row : Rule)
  | suggestion (id : MatchId) (row : Match)
  deriving DecidableEq

def Store.apply (s : Store) : Write → Store
  | .rule id row => { s with rules := s.rules.set id row }
  | .suggestion id row => { s with matchLog := s.matchLog.set id row }

inductive RowLock
  | rule (id : RuleId)
  | suggestion (id : MatchId)
  /-- A key of the index on pending suggestions. -/
  | pending (ruleId : RuleId) (senderKey : String)
  | senderIndex
  deriving DecidableEq

/-! ## Statements -/

structure ApiError where
  status : ℕ
  code : Option String
  message : String
  deriving DecidableEq

inductive Statement
  | now
  /-- The capabilities of the mailbox's tier, unattended action last. -/
  | selectTier
  | materializeSignals
  | countMatches (p : Store → MatchId → Match → Bool)
  /-- The check of `approveMatches` for suggestions of a rule that is stopped. -/
  | countBlocked (matchIds : List MatchId)
  | queuedSenderKeys (ruleId : RuleId) (senderKeys : List String)
  | scanMatches (p : Store → MatchId → Match → Bool)
  | updateMatch (id : MatchId) (p : Match → Bool) (f : Match → Match)
  | insertMatch (row : Match)
  | selectRules (p : Rule → Bool)
  | selectRule (id : RuleId) (p : Rule → Bool)
  | shareRule (id : RuleId)
  | updateRule (id : RuleId) (p : Rule → Bool) (f : Rule → Rule)
  | hasBatch (ruleId : RuleId)
  | lockSenderIndex
  | senderIndexStamp
  | commit
  | rollback
  | enqueueActionSweep

@[reducible]
def Statement.Answer : Statement → Type
  | .now => ℤ
  | .selectTier => Option (Bool × Bool)
  | .materializeSignals => List AutopilotSignalRow
  | .countMatches _ | .countBlocked _ => ℕ
  | .queuedSenderKeys .. => List String
  | .scanMatches _ => List MatchId
  | .updateMatch .. => Option Match
  | .insertMatch _ => Option MatchId
  | .selectRules _ => List (RuleId × Rule)
  | .selectRule .. | .shareRule _ | .updateRule .. => Option Rule
  | .hasBatch _ => Bool
  | .senderIndexStamp => Option ℤ
  | .lockSenderIndex | .commit | .rollback | .enqueueActionSweep => Unit

abbrev RuleSignature : Signature := ⟨Statement, Statement.Answer, ApiError⟩

abbrev RuleProgram (α : Type) := Program RuleSignature α

def run (q : Statement) : RuleProgram q.Answer := Program.perform (S := RuleSignature) q

/-- `db.transaction`, and any statement that writes outside of one. -/
def transaction {α : Type} (body : RuleProgram α) : RuleProgram α := do
  let a ← tryCatch body fun e => do
    run .rollback
    throw e
  run .commit
  return a

/-- The rest of an `UPDATE` of `rule_match_log`: its rows one by one. -/
def updateEach (p : Match → Bool) (f : Match → Match) : List MatchId → RuleProgram (List Match)
  | [] => return []
  | id :: rest => do
    let row ← run (.updateMatch id p f)
    let rows ← updateEach p f rest
    return row.toList ++ rows

/-- `UPDATE`: the rows that satisfy `p`, if they satisfy `again` when their turn comes. -/
def updateMatches (p : Store → MatchId → Match → Bool) (again : Match → Bool)
    (f : Match → Match) : RuleProgram (List Match) := do
  let ids ← run (.scanMatches p)
  updateEach again f ids

/-! ## Approvals -/

namespace ApiError

def queueUnavailable : ApiError :=
  ⟨503, some "QUEUE_UNAVAILABLE", "Autopilot action queue unavailable — REDIS_URL is not set."⟩

def previewDelete : ApiError := ⟨400, none, "Preview a fresh Delete batch before approving it."⟩

def ruleStopped : ApiError :=
  ⟨400, none, "Cannot approve suggestions for a paused or disabled rule."⟩

def refreshMatches : ApiError :=
  ⟨409, some "AUTOPILOT_RULE_CHANGED",
    "This rule changed. Refresh and review its current matches."⟩

end ApiError

structure ApproveResult where
  approvedCount : ℕ
  alreadyResolvedCount : ℕ
  skippedProtectedCount : ℕ
  executionEnqueued : Bool
  deriving DecidableEq

def enqueueIfApproved (approvedCount : ℕ) : RuleProgram Bool :=
  if 0 < approvedCount then do
    run .enqueueActionSweep
    return true
  else return false

def approveMatches (queue : Bool) (matchIds : List MatchId) : RuleProgram ApproveResult := do
  .when (!queue) (throw .queueUnavailable)
  let deletes ← run (.countMatches fun s id row =>
    matchIds.contains id && (s.rules.get row.ruleId).any (·.actionKind = .delete))
  .when (0 < deletes) (throw .previewDelete)
  let blocked ← run (.countBlocked matchIds)
  .when (0 < blocked) (throw .ruleStopped)
  let updated ← transaction (updateMatches
    (fun s id row => matchIds.contains id && s.isOfferable row) Match.observed Match.approve)
  let skippedProtectedCount ← run (.countMatches fun s id row =>
    matchIds.contains id && s.isPendingSuggestion row && s.senderIsProtected row)
  let terminal ← run (.countMatches fun _ id row =>
    matchIds.contains id && row.resolution ≠ .pending)
  let executionEnqueued ← enqueueIfApproved updated.length
  return ⟨updated.length, terminal - updated.length, skippedProtectedCount, executionEnqueued⟩

/-- What "Approve all" had shown. -/
inductive ApproveScope
  | matchIds (ids : List MatchId)
  | matchedBefore (cutoff : ℤ) (ruleVersion : Option ℕ)
  deriving DecidableEq

namespace ApproveScope

def covers (scope : Option ApproveScope) (id : MatchId) (row : Match) : Bool :=
  match scope with
  | none => true
  | some (.matchIds ids) => ids.contains id
  | some (.matchedBefore cutoff _) => row.matchedAt ≤ cutoff

/-- The rule is not the one of the preview, or the preview does not say. -/
def outdated (scope : Option ApproveScope) (rule : Rule) : Bool :=
  match scope with
  | some (.matchedBefore _ (some version)) => version ≠ rule.version
  | some (.matchedBefore _ none) => rule.conditions ≠ .empty
  | _ => false

end ApproveScope

/-- The transaction of `approveAllForRule`. -/
def approveRule (ruleId : RuleId) (scope : Option ApproveScope) :
    RuleProgram (Option (ℕ × ℕ)) := do
  match ← run (.shareRule ruleId) with
  | none => return none
  | some rule =>
    .when (rule.actionKind = .delete) (throw .previewDelete)
    .when (ApproveScope.outdated scope rule) (throw .refreshMatches)
    .when (!rule.canStart) (throw .ruleStopped)
    let updated ← updateMatches (fun s id row =>
      row.ruleId = ruleId && s.isOfferable row && ApproveScope.covers scope id row)
      (fun row => row.ruleId = ruleId && row.observed) Match.approve
    let skippedProtectedCount ← run (.countMatches fun s id row =>
      row.ruleId = ruleId && s.isPendingSuggestion row && s.senderIsProtected row &&
        ApproveScope.covers scope id row)
    return some (updated.length, skippedProtectedCount)

def approveAllForRule (queue : Bool) (ruleId : RuleId) (scope : Option ApproveScope) :
    RuleProgram (Option ApproveResult) := do
  .when (!queue) (throw .queueUnavailable)
  match ← transaction (approveRule ruleId scope) with
  | none => return none
  | some (approvedCount, skippedProtectedCount) =>
    let executionEnqueued ← enqueueIfApproved approvedCount
    return some ⟨approvedCount, 0, skippedProtectedCount, executionEnqueued⟩

/-! ## Changes of rules -/

namespace ApiError

def emptyPatch : ApiError := ⟨400, none, "PATCH body must update at least one field."⟩

def zodError : ApiError := ⟨400, none, "ZodError"⟩

def configurationApart : ApiError :=
  ⟨400, none, "Save rule configuration separately from lifecycle changes."⟩

def confidenceRange : ApiError :=
  ⟨400, none, "confidenceThreshold must be a finite number in [0, 1]."⟩

def deleteNeedsPreview : ApiError :=
  ⟨400, none, "Delete batches always require preview and approval."⟩

def newSendersNeedReview : ApiError :=
  ⟨400, none, "New-sender matches require review before moving mail to Later."⟩

def lowEngagementNeedsReview : ApiError :=
  ⟨400, none, "Low-engagement archive matches require review before moving mail."⟩

def reloadRule : ApiError :=
  ⟨409, some "AUTOPILOT_RULE_CHANGED", "This rule changed. Reload the page, then edit it again."⟩

def refreshRule : ApiError :=
  ⟨409, some "AUTOPILOT_RULE_CHANGED", "Refresh this rule and preview it before starting it."⟩

def refreshPreview : ApiError :=
  ⟨409, some "AUTOPILOT_RULE_CHANGED", "This rule changed. Refresh its preview."⟩

def useEditRule : ApiError := ⟨400, none, "Use Edit rule to change configured conditions."⟩

def deleteNeedsApproval : ApiError :=
  ⟨400, none, "Delete rules require approval and apply to this mailbox only."⟩

def keepFamily : ApiError :=
  ⟨400, none,
    "Keep this rule’s condition type and recommendation. Customize its values and action instead."⟩

def approvedWorkPending : ApiError :=
  ⟨409, some "AUTOPILOT_RULE_APPROVED_WORK_PENDING",
    "This rule has approved work waiting or running. Let that batch finish, then save your changes."⟩

def ruleNotFound : ApiError := ⟨404, none, "Rule not found."⟩

def deadlock : ApiError := ⟨500, some "40P01", "deadlock detected"⟩

def ruleSaveBusy : ApiError :=
  ⟨409, some "AUTOPILOT_RULE_SAVE_BUSY", "This rule is busy. Try saving again."⟩

end ApiError

/-- Active mode is not for every preset. -/
def assertMayBeActive (ruleId : RuleId) (patch : RulePatch) : RuleProgram Unit :=
  if patch.mode = some .active then do
    let target ← run (.selectRule ruleId Rule.isPreset)
    .when (target.any (·.actionKind = .delete)) (throw .deleteNeedsPreview)
    .when (target.any (·.presetKey = some .autoScreenNewSenders)) (throw .newSendersNeedReview)
    .when (target.any (·.presetKey = some .autoArchiveLowEngagement))
      (throw .lowEngagementNeedsReview)
  else return ()

/-- The rows of the rule that a change of its criteria must not leave behind. -/
def outstandingOf (ruleId : RuleId) (row : Match) : Bool := row.ruleId = ruleId && row.outstanding

def pendingOf (ruleId : RuleId) (row : Match) : Bool :=
  row.ruleId = ruleId && row.resolution = .pending && !row.intentApplied

/-- What a material change does to the matches of the rule. -/
def supersede (ruleId : RuleId) : RuleProgram Unit := do
  let frozen ← run (.hasBatch ruleId)
  .when frozen (throw .approvedWorkPending)
  let outstanding ← updateMatches (fun _ _ row => outstandingOf ruleId row)
    (outstandingOf ruleId) fun row => row
  .when (outstanding.any (·.resolution = .approved)) (throw .approvedWorkPending)
  let _ ← updateMatches (fun _ _ row => pendingOf ruleId row) (pendingOf ruleId) Match.dismiss
  return ()

/-- The suggestions of a rule that becomes Active. -/
def supersedeObserved (ruleId : RuleId) : RuleProgram Unit := do
  let _ ← updateMatches (fun _ _ row => pendingOf ruleId row && row.modeAtMatch = .observe)
    (fun row => pendingOf ruleId row && row.modeAtMatch = .observe) Match.dismiss
  return ()

/-- The checks of the row that the update has left. -/
def RulePatch.check (patch : RulePatch) (row : Rule) : RuleProgram Unit := do
  .when (patch.configuration.isNone && (patch.enabled = some true || patch.mode = some .active ||
    patch.mode = some .observe) && row.conditions ≠ .empty && patch.expectedVersion.isNone)
    (throw .refreshRule)
  .when (patch.confidenceThreshold.isSome && row.conditions ≠ .empty) (throw .useEditRule)
  .when (row.actionKind = .delete && (row.mode = .active || row.scope ≠ .account))
    (throw .deleteNeedsApproval)
  .when (patch.configuration.any fun configuration => row.presetKey.any fun key =>
    !configuration.conditions.sameFamily (defaultAutopilotConditions key)) (throw .keepFamily)

/-- The rule has just become one that a sweep has to see. -/
def RulePatch.startsWork (patch : RulePatch) (row : Rule) : Bool :=
  row.canStart && (patch.material || patch.enabled = some true || patch.mode.isSome)

/-- The transaction of `patchRule`. -/
def saveRule (ruleId : RuleId) (patch : RulePatch) : RuleProgram (Option Rule) := do
  match ← run (.updateRule ruleId
      (fun row => row.isPreset && patch.version.all (· = row.version)) patch.set) with
  | none =>
    let existing ← run (.selectRule ruleId Rule.isPreset)
    .when (patch.version.isSome && existing.isSome) (throw .reloadRule)
    return none
  | some row =>
    patch.check row
    .when patch.material (supersede ruleId)
    .when (patch.startsWork row && row.mode = .active) (supersedeObserved ruleId)
    return some row

def patchRule (ruleId : RuleId) (patch : RulePatch) : RuleProgram (Option Rule) := do
  .when patch.isEmpty (throw .emptyPatch)
  .when (patch.configuration.any (!·.conditions.parses)) (throw .zodError)
  .when (patch.configuration.isSome && patch.hasOther) (throw .configurationApart)
  .when (patch.confidenceThreshold.any (·.any fun c => c < 0 || 1 < c)) (throw .confidenceRange)
  assertMayBeActive ruleId patch
  tryCatch (transaction (saveRule ruleId patch)) fun e =>
    throw (if e = .deadlock then .ruleSaveBusy else e)

/-- The rest of an `UPDATE` of `automation_rules`. -/
def updateRules (p : Rule → Bool) (f : Rule → Rule) : List RuleId → RuleProgram ℕ
  | [] => return 0
  | ruleId :: rest => do
    let row ← run (.updateRule ruleId p f)
    let count ← updateRules p f rest
    return count + row.toList.length

def pause (row : Rule) : Rule := { row with mode := .paused, version := row.version + 1 }

def unpaused (row : Rule) : Bool := !row.retired && row.mode ≠ .paused

def pauseAll : RuleProgram ℕ :=
  transaction do
    let rows ← run (.selectRules unpaused)
    updateRules unpaused pause (rows.map Prod.fst)

/-- `isSenderRule` -/
def Rule.isSenderRule (row : Rule) : Bool :=
  !row.isPreset && row.scope = .account && (row.actionKind = .archive || row.actionKind = .delete) &&
    row.mode ≠ .active &&
      match row.conditions with
      | .senderList senderKeys _ => 0 < senderKeys.length && senderKeys.length ≤ 100
      | _ => false

def Rule.retire (row : Rule) : Rule :=
  { row with enabled := false, mode := .paused, retired := true, version := row.version + 1 }

def retire (ruleId : RuleId) (version : ℕ) : RuleProgram ℕ := do
  match ← run (.selectRule ruleId fun row => !row.isPreset && !row.retired) with
  | none => throw .ruleNotFound
  | some current =>
    .when (!current.isSenderRule) (throw .ruleNotFound)
    .when (current.version ≠ version) (throw .refreshPreview)
    match ← transaction (run (.updateRule ruleId
        (fun row => row.version = version && !row.retired) Rule.retire)) with
    | none => throw .refreshPreview
    | some row => return row.version

/-! ## The pass that inserts matches -/

/-- A match of the pass, before it has its id. -/
def Rule.newMatch (rule : Rule) (ruleId : RuleId) (now : ℤ) (senderKey : String) : Match where
  ruleId
  senderKey
  matchedAt := now
  modeAtMatch := if rule.actsUnattended then .active else .observe
  resolution := if rule.actsUnattended then .approved else .pending
  intentApplied := false
  evaluated := rule.toCriteria

def insertMatches : List Match → RuleProgram ℕ
  | [] => return 0
  | row :: rest => do
    let id ← run (.insertMatch row)
    let count ← insertMatches rest
    return count + id.toList.length

/-- The transaction of one rule; `none` means that the index of senders has been rebuilt. -/
def recordMatches (ruleId : RuleId) (rule : Rule) (stamp : Option ℤ) (rows : List Match) :
    RuleProgram (Option ℕ) := do
  run .lockSenderIndex
  let current ← run .senderIndexStamp
  if current ≠ stamp then return none else
    match ← run (.shareRule ruleId) with
    | none => return some 0
    | some current =>
      if current.version ≠ rule.version ∨ current.enabled = false ∨ current.mode ≠ rule.mode then
        return some 0
      else do
        let count ← insertMatches rows
        return some count

/-- Matches that are queued already are not written again. -/
def withoutQueued (ruleId : RuleId) (rule : Rule) (senderKeys : List String) :
    RuleProgram (List String) :=
  if rule.actsUnattended && !senderKeys.isEmpty then do
    let queued ← run (.queuedSenderKeys ruleId senderKeys)
    return senderKeys.filter fun senderKey => !queued.contains senderKey
  else return senderKeys

/-- One rule of the pass; the answer is whether the pass goes on. -/
def applyRule (now : ℤ) (stamp : Option ℤ) (eligible : List AutopilotSignalRow) (ruleId : RuleId)
    (rule : Rule) : RuleProgram Bool :=
  match rule.presetKey with
  | none => return true
  | some key =>
    if rule.actionKind = .delete then return true else
      tryCatch (do
        let senderKeys ← withoutQueued ruleId rule (rule.candidates key eligible)
        if senderKeys.isEmpty then return true else do
          let inserted ← transaction (recordMatches ruleId rule stamp
            (senderKeys.map (rule.newMatch ruleId now)))
          return inserted.isSome) fun _ => return true

def applyRules (now : ℤ) (stamp : Option ℤ) (eligible : List AutopilotSignalRow) :
    List (RuleId × Rule) → RuleProgram Unit
  | [] => return ()
  | (ruleId, rule) :: rest => do
    let goesOn ← applyRule now stamp eligible ruleId rule
    .when goesOn (applyRules now stamp eligible rest)

def enabledRule (mayActUnattended : Bool) (row : Rule) : Bool :=
  row.canStart && row.isPreset && (mayActUnattended || row.mode ≠ .active ||
    row.presetKey = some .autoScreenNewSenders || row.presetKey = some .autoArchiveLowEngagement)

def loadEnabledRules : RuleProgram (List (RuleId × Rule)) := do
  match ← run .selectTier with
  | some (true, mayActUnattended) => run (.selectRules (enabledRule mayActUnattended))
  | _ => return []

/-- `AutopilotApplyWorker.processJob` -/
def applyPass : RuleProgram Unit := do
  let now ← run .now
  let rules ← loadEnabledRules
  .when (!rules.isEmpty) (do
    let stamp ← run .senderIndexStamp
    let rows ← run .materializeSignals
    applyRules now stamp (rows.filter (!·.signals.isProtected)) rules)

end DeclutrMail.Autopilot
