import DeclutrMail.Autopilot.Approvals

/-!
# Calls on the rules of a mailbox, interleaved

Every statement runs at a time of its own and sees what is committed then. The world also
remembers which suggestions each commit has approved and whether their rules could start work.
-/

namespace DeclutrMail.Autopilot

open Interleaving

abbrev Database := Sharing ℕ Store Write RowLock

/-- What a statement of `t` sees. -/
abbrev Database.seen (d : Database) (t : ℕ) : Store := d.view Store.apply t

structure World where
  db : Database
  /-- The suggestions that calls of `approveMatches` have checked and not yet approved. -/
  checked : List (ℕ × List MatchId)
  /-- The suggestions that have been approved, and whether their rules could start work. -/
  flips : List (MatchId × Bool)
  /-- A commit has stopped the rule of a suggestion that was checked. -/
  overtaken : Bool

/-- The change from `s` to `s'` stops the rule of a pending match, or makes a match of a stopped
rule a pending suggestion. -/
def exposes (s s' : Store) (id : MatchId) : Bool :=
  (s'.matchLog.get id).any fun row => row.observed && !s'.ruleCanStart row &&
    (s.ruleCanStart row ||
      (s'.isPendingSuggestion row && !(s.matchLog.get id).any s.isPendingSuggestion))

namespace World

variable (w : World) (t : ℕ)

def seen : Store := w.db.seen t

/-- The suggestions that a commit of `t` approves. -/
def approves : List (MatchId × Bool) :=
  (w.db.draft t).filterMap fun
    | .suggestion id _ =>
      match w.db.store.matchLog.get id, (w.seen t).matchLog.get id with
      | some before, some row =>
        if before.resolution = .pending ∧ row.resolution = .approved then
          some (id, (w.seen t).ruleCanStart row)
        else none
      | _, _ => none
    | .rule .. => none

/-- The change to `s` exposes a suggestion that another call has checked. -/
def overtakes (s : Store) : Bool :=
  w.checked.any fun (x, ids) => x ≠ t && ids.any (exposes w.db.store s)

def forget : List (ℕ × List MatchId) := w.checked.filter (·.1 ≠ t)

def commit : World where
  db := w.db.finish Store.apply t
  checked := w.forget t
  flips := w.flips ++ w.approves t
  overtaken := w.overtaken || w.overtakes t (w.seen t)

def rollback : World := { w with db := w.db.abort t, checked := w.forget t }

end World

inductive Choice
  | ok
  | fails
  | time (now : ℤ)
  | tier (capabilities : Option (Bool × Bool))
  | signals (rows : List AutopilotSignalRow)
  | id (id : MatchId)

/-- The matches that satisfy `p`. -/
def Store.matching (s : Store) (p : Store → MatchId → Match → Bool) : List MatchId :=
  (s.matchLog.entries.filter fun (id, row) => p s id row).map Prod.fst

def Store.blocked (s : Store) (matchIds : List MatchId) : List MatchId :=
  s.matching fun s id row =>
    matchIds.contains id && s.isPendingSuggestion row && !s.ruleCanStart row

/-- A pending match of the rule and the sender is there. -/
def Store.conflicts (s : Store) (row : Match) : Bool :=
  row.resolution = .pending && s.matchLog.entries.any fun (_, other) =>
    other.resolution = .pending && other.ruleId = row.ruleId && other.senderKey = row.senderKey

section Answer

variable (w : World) (t : ℕ)

/-- Lock a match that satisfies `p`, and write it. -/
def updateMatch (id : MatchId) (p : Match → Bool) (f : Match → Match) :
    Option (Option Match × World) :=
  match (w.seen t).matchLog.get id with
  | none => some (none, w)
  | some row =>
    if p row then
      (w.db.lock t (.suggestion id)).map fun d =>
        (some (f row), { w with db := d.draw t (.suggestion id (f row)) })
    else some (none, w)

def updateRule (id : RuleId) (p : Rule → Bool) (f : Rule → Rule) : Option (Option Rule × World) :=
  match (w.seen t).rules.get id with
  | none => some (none, w)
  | some row =>
    if p row then
      (w.db.lock t (.rule id)).map fun d =>
        (some (f row), { w with db := d.draw t (.rule id (f row)) })
    else some (none, w)

def shareRule (id : RuleId) : Option (Option Rule × World) :=
  match (w.seen t).rules.get id with
  | none => some (none, w)
  | some row => (w.db.share t (.rule id)).map fun d => (some row, { w with db := d })

/-- Insert a match under a fresh id, once its pending key is free. -/
def insertMatch (row : Match) (id : MatchId) : Option (Option MatchId × World) :=
  if (w.seen t).conflicts row then some (none, w)
  else if ((w.seen t).matchLog.get id).isSome then none
  else do
    let d ← w.db.lock t (.pending row.ruleId row.senderKey)
    let d ← d.lock t (.suggestion id)
    return (some id, { w with db := d.draw t (.suggestion id row) })

def answer (t : ℕ) (q : Statement) (c : Choice) (w : World) :
    Option (Except ApiError q.Answer × World) :=
  match q, c with
  | .now, .time now => some (.ok now, w)
  | .selectTier, .tier capabilities => some (.ok capabilities, w)
  | .materializeSignals, .signals rows => some (.ok rows, w)
  | .countMatches p, .ok => some (.ok ((w.seen t).matching p).length, w)
  | .countBlocked matchIds, .ok =>
    let blocked := ((w.seen t).blocked matchIds).length
    some (.ok blocked, if blocked = 0 then { w with checked := (t, matchIds) :: w.checked } else w)
  | .queuedSenderKeys ruleId senderKeys, .ok =>
    some (.ok (((w.seen t).matchLog.entries.filter fun (id, row) => row.ruleId = ruleId &&
      (w.seen t).isQueuedAction id row && senderKeys.contains row.senderKey).map
        (·.2.senderKey)), w)
  | .scanMatches p, .ok => some (.ok ((w.seen t).matching p), w)
  | .updateMatch id p f, .ok => (updateMatch w t id p f).map fun (row, w) => (.ok row, w)
  | .insertMatch row, .id id => (insertMatch w t row id).map fun (id, w) => (.ok id, w)
  | .selectRules p, .ok => some (.ok ((w.seen t).rules.entries.filter fun (_, row) => p row), w)
  | .selectRule id p, .ok => some (.ok (((w.seen t).rules.get id).filter p), w)
  | .shareRule id, .ok => (shareRule w t id).map fun (row, w) => (.ok row, w)
  | .updateRule id p f, .ok => (updateRule w t id p f).map fun (row, w) => (.ok row, w)
  | .hasBatch ruleId, .ok => some (.ok ((w.seen t).batches.contains ruleId), w)
  | .lockSenderIndex, .ok =>
    (w.db.lock t .senderIndex).map fun d => (.ok (), { w with db := d })
  | .senderIndexStamp, .ok => some (.ok (w.seen t).senderIndexStamp, w)
  | .commit, .ok => some (.ok (), w.commit t)
  | .rollback, .ok => some (.ok (), w.rollback t)
  | .enqueueActionSweep, .ok => some (.ok (), w)
  | .commit, .fails => some (.error .deadlock, w.rollback t)
  | .rollback, .fails => none
  | _, .fails => some (.error .deadlock, w)
  | _, _ => none

end Answer

inductive Task
  | approveMatches (queue : Bool) (matchIds : List MatchId)
  | approveAllForRule (queue : Bool) (ruleId : RuleId) (scope : Option ApproveScope)
  | patchRule (ruleId : RuleId) (patch : RulePatch)
  | pauseAll
  | retire (ruleId : RuleId) (version : ℕ)
  | applyPass

def Task.code : Task → RuleProgram Unit
  | .approveMatches queue matchIds => do
    let _ ← Autopilot.approveMatches queue matchIds
  | .approveAllForRule queue ruleId scope => do
    let _ ← Autopilot.approveAllForRule queue ruleId scope
  | .patchRule ruleId patch => do
    let _ ← Autopilot.patchRule ruleId patch
  | .pauseAll => do
    let _ ← Autopilot.pauseAll
  | .retire ruleId version => do
    let _ ← Autopilot.retire ruleId version
  | .applyPass => Autopilot.applyPass

/-- What the rest of the system does to the tables. -/
inductive Event
  | senders (senders : InsertionMap String ℤ)
  | policies (policies : InsertionMap String Policy)
  | jobs (claims : List MatchId) (batches : List RuleId)
  | dismissed (id : MatchId)
  | applied (id : MatchId)

namespace World

variable (w : World)

/-- Put a store that another writer has committed. -/
def put (s : Store) : World where
  db := { w.db with store := s }
  checked := w.checked
  flips := w.flips
  overtaken := w.overtaken || w.checked.any fun (_, ids) => ids.any (exposes w.db.store s)

/-- Another writer changes a match that nobody has locked. -/
def rewrite (id : MatchId) (f : Match → Match) : Option World :=
  match w.db.store.matchLog.get id with
  | none => none
  | some row =>
    if w.db.holder (.suggestion id) = none then
      some (w.put { w.db.store with matchLog := w.db.store.matchLog.set id (f row) })
    else none

end World

def disturb (e : Event) (w : World) : Option World :=
  match e with
  | .senders senders => some (w.put { w.db.store with senders })
  | .policies policies => some (w.put { w.db.store with policies })
  | .jobs claims batches => some (w.put { w.db.store with claims, batches })
  | .dismissed id => w.rewrite id Match.dismiss
  | .applied id => w.rewrite id fun row => { row with intentApplied := true }

@[reducible]
def ruling : System RuleSignature where
  World := World
  Thread := ℕ
  Task := Task
  Outcome := Unit
  Choice := Choice
  Event := Event
  code := Task.code
  accept _ _ w := some w
  answer := answer
  settle _ _ w := some w
  crash t w := some (w.rollback t)
  disturb := disturb

end DeclutrMail.Autopilot
