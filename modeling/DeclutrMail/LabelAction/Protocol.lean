import DeclutrMail.LabelAction.System

/-!
# The label-action protocol

`Act` lists what a step of the system can do to the world, with the conditions under which
the code does it. `Background` is the part of it that needs no lock. The deliveries are shown
to keep to the protocol in `Refinement`; what follows from it alone is proved of `Act`.

A `Scope` says what a run leaves out: the messages that nobody else touches (`calm`), and
whether `onTerminalFailure` keeps off a row that is done (`spared`).
-/

namespace DeclutrMail.LabelAction

structure Scope where
  confirmed : Bool
  calm : MessageId → Prop
  spared : Prop

/-! ## The history of a job -/

/-- Gmail can have applied a request. -/
def MaybeApplied (log : List LogEntry) : Prop := ∃ first, LogEntry.sent first false ∈ log

def EverMarked (log : List LogEntry) : Prop := ∃ isProtected, LogEntry.marked isProtected ∈ log

/-- What has to hold of the entries before an entry. -/
def Justified (before : List LogEntry) : LogEntry → Prop
  | .sent true _ => before.head? = some (.marked false)
  | .sent false _ => before.head? = some (.reread false)
  | .stopped status errorCode =>
    status = .failed ∧ errorCode = some recoverySenderProtectedErrorCode ∨
      status = .done ∧ errorCode = some labelSenderProtectedErrorCode ∧ ¬MaybeApplied before
  | _ => True

@[simp] theorem not_maybeApplied_nil : ¬MaybeApplied [] := by simp [MaybeApplied]

@[simp] theorem maybeApplied_cons {entry : LogEntry} {log : List LogEntry} :
    MaybeApplied (entry :: log) ↔ (∃ first, entry = .sent first false) ∨ MaybeApplied log := by
  simp only [MaybeApplied, List.mem_cons, exists_or, eq_comm]

@[simp] theorem not_everMarked_nil : ¬EverMarked [] := by simp [EverMarked]

@[simp] theorem everMarked_cons {entry : LogEntry} {log : List LogEntry} :
    EverMarked (entry :: log) ↔ (∃ b, entry = .marked b) ∨ EverMarked log := by
  simp only [EverMarked, List.mem_cons, exists_or, eq_comm]

/-! ## Rows -/

/-- The columns of a forward row that nothing writes after its insert. A list of messages
keeps its messages. -/
structure SameJob (job job' : ActionJob) : Prop where
  verb : job'.verb = job.verb
  direction : job'.direction = job.direction
  selector : job'.selector = job.selector
  recoveryAttempt : job'.recoveryAttempt = job.recoveryAttempt
  reach : job'.reach = job.reach
  messages : job.selector = .messages → job'.resolvedMessageIds = job.resolvedMessageIds

theorem SameJob.refl (job : ActionJob) : SameJob job job := ⟨rfl, rfl, rfl, rfl, rfl, fun _ => rfl⟩

theorem SameJob.trans {job job' job'' : ActionJob} (h : SameJob job job') (g : SameJob job' job'') :
    SameJob job job'' :=
  ⟨g.verb.trans h.verb, g.direction.trans h.direction, g.selector.trans h.selector,
    g.recoveryAttempt.trans h.recoveryAttempt, g.reach.trans h.reach,
    fun listed => (g.messages (h.selector.trans listed)).trans (h.messages listed)⟩

theorem SameJob.symm {job job' : ActionJob} (h : SameJob job job') : SameJob job' job :=
  ⟨h.verb.symm, h.direction.symm, h.selector.symm, h.recoveryAttempt.symm, h.reach.symm,
    fun listed => (h.messages (h.selector.symm.trans listed)).symm⟩

theorem SameJob.protectionSubject {job job' : ActionJob} (h : SameJob job job') (c : Bool) :
    protectionSubject job' c = protectionSubject job c := by
  unfold LabelAction.protectionSubject
  rw [h.selector]
  cases hs : job.selector with
  | sender senderKey autopilot => rfl
  | messages => rw [h.messages hs]

theorem SameJob.customAutopilot {job job' : ActionJob} (h : SameJob job job') :
    customAutopilot job' = customAutopilot job := by
  rw [LabelAction.customAutopilot, h.selector, LabelAction.customAutopilot]

theorem SameJob.senderActionWhere {job job' : ActionJob} (h : SameJob job job')
    (row : MailMessage) : senderActionWhere job' row = senderActionWhere job row := by
  rw [LabelAction.senderActionWhere, h.selector, h.reach, LabelAction.senderActionWhere]

theorem ActionError.name_ne_enqueueFailed (e : ActionError) :
    e.name ≠ enqueueFailedErrorCode := by
  cases e <;> simp [ActionError.name, enqueueFailedErrorCode]

theorem ActionError.name_ne_labelSenderProtected (e : ActionError) :
    e.name ≠ labelSenderProtectedErrorCode := by
  cases e <;> simp [ActionError.name, labelSenderProtectedErrorCode]

theorem AutopilotBlock.code_ne_enqueueFailed (b : AutopilotBlock) :
    b.code ≠ enqueueFailedErrorCode := by
  cases b <;> decide

theorem AutopilotBlock.code_ne_labelSenderProtected (b : AutopilotBlock) :
    b.code ≠ labelSenderProtectedErrorCode := by
  cases b <;> decide

theorem neverReachedGmail_fail {job : ActionJob} {code : String} {n : ℕ}
    (h : code ≠ enqueueFailedErrorCode) : neverReachedGmail (job.fail code n) = false := by
  simp [neverReachedGmail, ActionJob.fail, h]

theorem isFinal_fail {job : ActionJob} {code : String} {n : ℕ} (forward : job.direction = .forward)
    (h : code ≠ enqueueFailedErrorCode) : isFinal (job.fail code n) = true := by
  simp [isFinal, failedForGood, ActionJob.fail, forward, h]

/-- A row that is not final and may have reached Gmail is executing. -/
theorem executing_of_open {job : ActionJob} (forward : job.direction = .forward)
    (notFinal : isFinal job = false) (reached : neverReachedGmail job = false) :
    job.status = .executing := by
  simp only [isFinal, failedForGood, neverReachedGmail, forward, Bool.or_eq_false_iff,
    Bool.and_eq_false_iff, decide_eq_false_iff_not] at notFinal reached
  cases hs : job.status with
  | executing => rfl
  | queued => exact absurd hs reached.1
  | done => exact absurd hs notFinal.1
  | failed => simp_all

/-! ## What others do -/

/-- What a forward row meets while a delivery works on it. -/
inductive ForwardDrift (spared : Prop) (job : ActionJob) : ActionJob → Prop
  | same : ForwardDrift spared job job
  | enqueueFailed : job.status = .queued →
      ForwardDrift spared job (job.fail enqueueFailedErrorCode job.affectedCount)
  | terminalFailure (e : ActionError) : (spared → job.status ≠ .done) →
      ForwardDrift spared job (job.fail e.name job.affectedCount)

/-- A reverse row keeps what its deliveries read. -/
structure SameRevert (job job' : ActionJob) : Prop where
  verb : job'.verb = job.verb
  direction : job'.direction = job.direction
  reach : job'.reach = job.reach
  undoToken : job'.undoToken = job.undoToken
  resolvedMessageIds : job'.resolvedMessageIds = job.resolvedMessageIds

theorem SameRevert.refl (job : ActionJob) : SameRevert job job := ⟨rfl, rfl, rfl, rfl, rfl⟩

inductive ReverseDrift (forward : ActionJob) : Option ActionJob → Option ActionJob → Prop
  | none : ReverseDrift forward none none
  | clicked (token : UndoToken) : forward.undoToken = some token →
      ReverseDrift forward none (some (revertJob forward token))
  | same {job job' : ActionJob} : SameRevert job job' →
      ReverseDrift forward (some job) (some job')

theorem ReverseDrift.refl (forward : ActionJob) (job : Option ActionJob) :
    ReverseDrift forward job job := by
  cases job with
  | none => exact .none
  | some job => exact .same (.refl job)

/-- What can happen without the lock. -/
structure Background (S : Scope) (w w' : World) : Prop where
  lock : w'.lock = w.lock
  log : w'.log = w.log
  undoJournal : w'.undoJournal = w.undoJournal
  activityLog : w'.activityLog = w.activityLog
  outbox : w'.outbox = w.outbox
  forward : ForwardDrift S.spared w.forward w'.forward
  reverse : ReverseDrift w.forward w.reverse w'.reverse
  gmail (m : MessageId) : S.calm m → w'.gmail m = w.gmail m
  mailMessages (m : MessageId) : S.calm m → w'.mailMessages m = w.mailMessages m

theorem Background.refl (S : Scope) (w : World) : Background S w w :=
  ⟨rfl, rfl, rfl, rfl, rfl, .same, .refl _ _, fun _ _ => rfl, fun _ _ => rfl⟩

/-! ## Steps -/

/-- The job has no outcome yet. -/
structure World.Running (w : World) : Prop where
  status : w.forward.status ≠ .done
  activityLog : w.activityLog = []

/-- A message may be acted on as mail of the sender. -/
def World.Eligible (w : World) (m : MessageId) : Prop :=
  (w.mailMessages m).any (senderActionWhere w.forward) = true

def forwardChange (u : UserLabels) (job : ActionJob) : LabelChange :=
  (labelChangeForVerb job.verb).forward.resolved u

/-- The groups of a reverse job, their labels resolved. -/
def revertGroups (u : UserLabels) (job : ActionJob) (payload : Option UndoPayload) :
    List ReverseGroup :=
  (reverseChangeGroups job.verb job.reach (labelChangeForVerb job.verb).reverse
    job.resolvedMessageIds payload).map fun group => ⟨group.ids, group.change.resolved u⟩

/-- Gmail holds what the change asks for. -/
def World.Landed (S : Scope) (w : World) (ids : List MessageId) (change : LabelChange) : Prop :=
  ∀ m ∈ ids, S.calm m → change.apply (w.gmail m) = w.gmail m

/-- When the durable ids may be written. -/
structure PersistOk (S : Scope) (w : World) (ids : List MessageId) : Prop where
  eligible : ∀ m ∈ ids, S.calm m → w.Eligible m
  scope : (customAutopilot w.forward = true ∧ w.forward.recoveryAttempt = 0 ∧
      (∀ m ∈ ids, m ∈ w.forward.resolvedMessageIds) ∧ ¬MaybeApplied w.log) ∨
    (customAutopilot w.forward = false ∧ w.forward.selector ≠ .messages ∧
      w.forward.resolvedMessageIds = [])

/-- The Inbox placement that a Delete stores: read from the mirror for a fresh root, else the
one stored before. -/
def PlacementOk (S : Scope) (w : World) (snapshot : DeleteUndo) : Prop :=
  (∃ inbox, snapshot = ⟨w.forward.resolvedMessageIds, some inbox⟩ ∧
    ∀ m ∈ w.forward.resolvedMessageIds, S.calm m → (m ∈ inbox ↔ w.hasInbox m = true)) ∨
  ((w.forward.recoveryAttempt > 0 ∨ EverMarked w.log) ∧
    ∃ stored, storedDeleteUndo w.forward.deleteUndo w.forward.resolvedMessageIds = .ok stored ∧
      snapshot = stored.getD ⟨w.forward.resolvedMessageIds, none⟩)

structure MarkOk (S : Scope) (w : World) (deleteUndo : Option DeleteUndo) : Prop where
  nonempty : w.forward.resolvedMessageIds ≠ []
  scope : customAutopilot w.forward = true → w.forward.recoveryAttempt = 0 →
    EverMarked w.log ∨ ∀ m ∈ w.forward.resolvedMessageIds, S.calm m → w.Eligible m
  placement : w.forward.verb = .delete → ∃ snapshot, deleteUndo = some snapshot ∧
    PlacementOk S w snapshot
  otherwise : w.forward.verb ≠ .delete → deleteUndo = none
  recheck : S.confirmed = false → w.jobIsProtected = false

structure SendOk (S : Scope) (w : World) (first refused : Bool) : Prop where
  reached : neverReachedGmail w.forward = false
  marked : EverMarked w.log
  justified : S.confirmed = false → Justified w.log (.sent first refused)

structure CommitOk (u : UserLabels) (S : Scope) (w : World) (payload : UndoPayload) : Prop where
  nonempty : w.forward.resolvedMessageIds ≠ []
  marked : EverMarked w.log
  landed : w.Landed S w.forward.resolvedMessageIds (forwardChange u w.forward)
  payload : ∃ inbox, payload = buildUndoPayload w.forward.verb w.forward.resolvedMessageIds inbox
      w.forward.reach ∧
    (w.forward.verb = .delete → ∃ stored,
      storedDeleteUndo w.forward.deleteUndo w.forward.resolvedMessageIds = .ok stored ∧
        inbox = stored.bind (·.inboxMessageIds))

inductive Act (u : UserLabels) (S : Scope) : World → World → Prop
  | background {w w' : World} : Background S w w' → Act u S w w'
  | setLock (w : World) (lock : Option Delivery) : Act u S w { w with lock := lock }
  | reread (w : World) : Act u S w (w.record (.reread w.jobIsProtected))
  | skip (w : World) : w.Running → w.forward.recoveryAttempt = 0 → ¬MaybeApplied w.log →
      Act u S w (w.stop w.forward.skipProtected)
  | stop (w : World) : w.Running →
      Act u S w (w.stop (w.forward.fail recoverySenderProtectedErrorCode 0))
  | failBlocked (w : World) (block : AutopilotBlock) : w.Running →
      Act u S w { w with forward := w.forward.fail block.code 0 }
  | persistIds (w : World) (ids : List MessageId) : w.Running → PersistOk S w ids →
      Act u S w (w.persistIds ids)
  | commitNothing (w : World) : w.Running → w.forward.resolvedMessageIds = [] →
      Act u S w w.commitNothing
  | markExecuting (w : World) (deleteUndo : Option DeleteUndo) : w.Running →
      MarkOk S w deleteUndo → Act u S w (w.markExecuting deleteUndo)
  | missed (w : World) (first refused : Bool) : w.Running → SendOk S w first refused →
      Act u S w (w.record (.sent first refused))
  | send (w : World) (first : Bool) (ids : List MessageId) : w.Running → SendOk S w first false →
      (∀ m ∈ ids, m ∈ w.forward.resolvedMessageIds) →
      Act u S w (w.send first ids (forwardChange u w.forward))
  | resetQueued (w : World) : ¬MaybeApplied w.log → Act u S w w.resetQueued
  | commitForward (w : World) (payload : UndoPayload) : w.Running → CommitOk u S w payload →
      Act u S w (w.commitForward w.forward.resolvedMessageIds payload (forwardChange u w.forward))
  | markReverse (w : World) :
      Act u S w (w.setReverse fun job => { job with status := .executing })
  | sendReverse (w : World) (ids : List MessageId) (job : ActionJob) (token : UndoToken)
      (group : ReverseGroup) : w.reverse = some job → job.undoToken = some token →
      group ∈ revertGroups u job (w.undoPayload token) → (∀ m ∈ ids, m ∈ group.ids) →
      Act u S w { w with gmail := batchModify ids group.change w.gmail }
  | commitReverse (w : World) (job : ActionJob) (token : UndoToken) (groups : List ReverseGroup) :
      w.reverse = some job → job.undoToken = some token →
      (job.resolvedMessageIds ≠ [] → groups = revertGroups u job (w.undoPayload token) ∧
        ∀ group ∈ groups, w.Landed S group.ids group.change) →
      Act u S w (w.commitReverse token job.resolvedMessageIds groups)

end DeclutrMail.LabelAction
