import DeclutrMail.Interleaving.Requests
import DeclutrMail.Interleaving.Turns
import DeclutrMail.LabelAction.Refinement

/-!
# What a job is charged

The capacity check stamps `quota_units` on the row that it admits. A job that is done keeps
what it changed of them, a job that failed none. `enqueueJob` takes the stamp off a row whose
add reported an error; the deliveries run such a row, and a completion only takes a minimum with
what it finds.
-/

namespace DeclutrMail.LabelAction

open Interleaving Discipline Program

variable {u : UserLabels} {confirmed : Bool} {units : ℕ} {root job job' : ActionJob}
  {t : Delivery} {w w' : World}

@[simp] theorem settledQuotaUnits_eq (units affected : ℕ) :
    settledQuotaUnits units affected = min units affected := by
  unfold settledQuotaUnits
  split_ifs <;> omega

/-! ## Rows -/

/-- No outcome has been written. -/
def ActionJob.Open (job : ActionJob) : Prop := job.status = .queued ∨ job.status = .executing

instance : DecidablePred ActionJob.Open := fun _ => inferInstanceAs (Decidable (_ ∨ _))

/-- `enqueueJob` has failed the row, and no delivery has taken it up. -/
def ActionJob.EnqueueFailed (job : ActionJob) : Prop :=
  job.status = .failed ∧ job.errorCode = some enqueueFailedErrorCode

instance : DecidablePred ActionJob.EnqueueFailed := fun _ => inferInstanceAs (Decidable (_ ∧ _))

/-- The row of a forward job that was stamped with `units`. -/
structure Charged (units : ℕ) (job : ActionJob) : Prop where
  direction : job.direction = .forward
  stamp : job.Open → job.quotaUnits = units
  done : job.status = .done → job.quotaUnits = min units job.affectedCount
  failed : job.status = .failed → job.quotaUnits = 0

/-- What a request before the outcome may do to the row. -/
structure Progress (job job' : ActionJob) : Prop where
  direction : job'.direction = job.direction
  quotaUnits : job'.quotaUnits = job.quotaUnits
  opened : job'.Open

theorem Charged.progress (h : Charged units job) (opened : job.Open) (p : Progress job job') :
    Charged units job' where
  direction := p.direction.trans h.direction
  stamp _ := p.quotaUnits.trans (h.stamp opened)
  done is := by
    rcases p.opened with queued | executing <;> simp_all
  failed is := by
    rcases p.opened with queued | executing <;> simp_all

theorem Charged.finish (h : Charged units job) (opened : job.Open) (n : ℕ)
    (token : Option UndoToken) : Charged units (job.finish n token) where
  direction := h.direction
  stamp is := by simp [ActionJob.Open, ActionJob.finish] at is
  done _ := by simp [ActionJob.finish, h.stamp opened]
  failed is := nomatch is

theorem Charged.fail (h : Charged units job) (code : String) (n : ℕ) :
    Charged units (job.fail code n) where
  direction := h.direction
  stamp is := by simp [ActionJob.Open, ActionJob.fail] at is
  done is := nomatch is
  failed _ := by simp [ActionJob.fail]

theorem Charged.skipProtected (h : Charged units job) : Charged units job.skipProtected where
  direction := h.direction
  stamp is := by simp [ActionJob.Open, ActionJob.skipProtected] at is
  done _ := by simp [ActionJob.skipProtected]
  failed is := nomatch is

/-- A row that a delivery works on, unless `enqueueJob` has failed it. -/
theorem open_of_not_final (forward : job.direction = .forward) (notFinal : isFinal job = false)
    (taken : ¬job.EnqueueFailed) : job.Open := by
  simp only [isFinal, failedForGood, Bool.or_eq_false_iff, decide_eq_false_iff_not] at notFinal
  cases status : job.status with
  | queued => exact .inl status
  | executing => exact .inr status
  | done => exact absurd status notFinal.1
  | failed =>
    have other : job.errorCode ≠ some enqueueFailedErrorCode := fun code => taken ⟨status, code⟩
    simp [status, forward, other] at notFinal

/-! ## Requests -/

/-- The requests before the outcome, the lock apart. -/
def Request.ordinary : Request → Bool
  | .acquireLock | .releaseLock | .recordProtected | .recordRecoveryProtected | .commitNothing
  | .commitForward .. | .failBlocked _ => false
  | _ => true

/-- Those that leave the forward row alone. -/
def Request.sparesRow : Request → Bool
  | .persistIds _ | .markExecuting .. | .resetQueued => false
  | q => q.ordinary

theorem effect_sparesRow {q : Request} {f : Findings} {a : q.Answer} (spares : q.sparesRow = true)
    (took : effect u t f w q = some (a, w')) : w'.lock = w.lock ∧ w'.forward = w.forward := by
  cases q with
  | resolveSenderActionIds =>
    obtain ⟨-, same⟩ := Option.ite_none_right_eq_some.mp took
    cases same
    exact ⟨rfl, rfl⟩
  | acquireLock | releaseLock | recordProtected | recordRecoveryProtected | commitNothing
  | commitForward | failBlocked | persistIds | markExecuting | resetQueued => cases spares
  | _ =>
    cases took
    exact ⟨rfl, rfl⟩

theorem Progress.refl (opened : job.Open) : Progress job job := ⟨rfl, rfl, opened⟩

theorem effect_ordinary {q : Request} {f : Findings} {a : q.Answer}
    (ordinary : q.ordinary = true) (opened : w.forward.Open)
    (took : effect u t f w q = some (a, w')) :
    w'.lock = w.lock ∧ Progress w.forward w'.forward := by
  by_cases spares : q.sparesRow = true
  · obtain ⟨lock, forward⟩ := effect_sparesRow spares took
    exact ⟨lock, by rw [forward]; exact .refl opened⟩
  · cases q with
    | persistIds ids =>
      cases took
      exact ⟨rfl, rfl, rfl, opened⟩
    | markExecuting subject gated deleteUndo =>
      simp only [effect] at took
      split_ifs at took
      · cases took
        exact ⟨rfl, .refl opened⟩
      · cases took
        exact ⟨rfl, rfl, rfl, .inr rfl⟩
    | resetQueued =>
      cases took
      unfold World.resetQueued
      split_ifs
      · exact ⟨rfl, rfl, rfl, .inl rfl⟩
      · exact ⟨rfl, .refl opened⟩
    | _ => exact absurd ordinary spares

@[simp] theorem missed_lock (e : ActionError) (w : World) (q : Request) :
    (missed e w q).lock = w.lock := by
  cases q <;> rfl

@[simp] theorem missed_reverse (e : ActionError) (w : World) (q : Request) :
    (missed e w q).reverse = w.reverse := by
  cases q <;> rfl

@[simp] theorem missed_forward (e : ActionError) (w : World) (q : Request) :
    (missed e w q).forward = w.forward := by
  cases q <;> rfl

/-- The reverse row is one of a reverse job. -/
def World.Reverses (w : World) : Prop := ∀ job, w.reverse = some job → job.direction = .reverse

theorem World.Reverses.map (h : w.Reverses) {f : ActionJob → ActionJob}
    (same : ∀ job, (f job).direction = job.direction) (reverse : w'.reverse = w.reverse.map f) :
    w'.Reverses := by
  intro job there
  rw [reverse] at there
  obtain ⟨before, was, rfl⟩ := Option.map_eq_some_iff.mp there
  exact (same before).trans (h before was)

theorem effect_reverses {q : Request} {f : Findings} {a : q.Answer} (h : w.Reverses)
    (took : effect u t f w q = some (a, w')) : w'.Reverses := by
  cases q with
  | acquireLock | releaseLock | resolveSenderActionIds =>
    obtain ⟨-, same⟩ := Option.ite_none_right_eq_some.mp took
    cases same
    exact h
  | markExecuting =>
    simp only [effect] at took
    split_ifs at took <;> cases took <;> exact h
  | resetQueued =>
    cases took
    unfold World.resetQueued
    split_ifs <;> exact h
  | markReverseExecuting =>
    cases took
    exact h.map (f := fun job => { job with status := .executing }) (fun _ => rfl) rfl
  | commitReverse token ids groups =>
    cases took
    exact h.map (f := fun job => job.finish ids.length job.undoToken) (fun _ => rfl) rfl
  | _ =>
    cases took
    exact h

/-! ## Steps -/

/-- The delivery that holds the lock has not found a row that `enqueueJob` has failed. -/
def World.Live (w : World) (t : Delivery) : Prop := w.lock = some t → ¬w.forward.EnqueueFailed

instance World.decidableLive (w : World) (t : Delivery) : Decidable (w.Live t) :=
  inferInstanceAs (Decidable (w.lock = some t → ¬w.forward.EnqueueFailed))

/-- No delivery goes on with a row that `enqueueJob` has failed, and no failure is written over
an open row while a delivery holds the lock. -/
def KeepsStamp (w : World) : Move (system u confirmed) → Prop
  | .reply t _ => w.Live t
  | .disturb .enqueueFailed => w.lock = none
  | .disturb (.terminalFailure .forward _) => w.lock = none ∨ ¬w.forward.Open
  | _ => True

instance : ∀ (w : (system u confirmed).World) (m : Move (system u confirmed)),
    Decidable (KeepsStamp w m) := fun (w : World) m => match m with
  | .reply t _ => w.decidableLive t
  | .disturb .enqueueFailed => inferInstanceAs (Decidable (w.lock = none))
  | .disturb (.terminalFailure .forward _) =>
    inferInstanceAs (Decidable (w.lock = none ∨ ¬w.forward.Open))
  | .start .. | .finish _ | .crash _ | .disturb (.protect ..) | .disturb (.relabel ..)
  | .disturb .undo | .disturb (.terminalFailure .reverse _) => inferInstanceAs (Decidable True)

/-- The system by such steps. -/
abbrev stamping (u : UserLabels) (confirmed : Bool) : System Sig :=
  (system u confirmed).restrict KeepsStamp

/-- What every step keeps of the two rows. -/
structure Stamped (units : ℕ) (w : World) : Prop where
  forward : Charged units w.forward
  reverse : w.Reverses

/-- What others do leaves alone the open row of a delivery at work. -/
def charging (u : UserLabels) (confirmed : Bool) (units : ℕ) :
    Discipline (stamping u confirmed) where
  owner := World.lock
  inv := Stamped units
  kept _ _ := True
  background w w' :=
    w'.lock = w.lock ∧ (w.lock ≠ none → w.forward.Open → w'.forward = w.forward)
  owner_background b := b.1
  kept_refl _ := trivial
  kept_trans _ _ := trivial

abbrev Charging (u : UserLabels) (confirmed : Bool) (units : ℕ) :=
  (charging u confirmed units).Local

abbrev Charges {α : Type} (u : UserLabels) (confirmed : Bool) (units : ℕ) (t : Delivery)
    (P : Charging u confirmed units) (p : Program Sig α) (B : α → Charging u confirmed units)
    (E : ActionError → Charging u confirmed units) : Prop :=
  (charging u confirmed units).Does t P p B E

def unread : Charging u confirmed units := .fact True

/-- The delivery has seen an open row. -/
def atWork : Charging u confirmed units where
  holds w := w.lock ≠ none ∧ w.forward.Open
  stable := by
    intro w w' ⟨held, opened⟩ ⟨lock, row⟩
    rw [lock, row held opened]
    exact ⟨held, opened⟩

/-- Only a gate ends a row from the catch block, and it fails before the outcome. -/
def atWorkIfBlocked (e : ActionError) : Charging u confirmed units where
  holds w := (∃ block, e = .customAutopilotBlocked block) → w.lock ≠ none ∧ w.forward.Open
  stable := fun _ _ h b blocked => atWork.stable (h blocked) b

section

variable {q : Request} {P : Charging u confirmed units} {B : q.Answer → Charging u confirmed units}
  {E : ActionError → Charging u confirmed units}

/-- One request of the delivery that holds the lock. -/
theorem charges
    (go : ∀ w : World, Stamped units w → w.lock ≠ none → ¬w.forward.EnqueueFailed → P w → ∀ f a w',
      effect u t f w q = some (a, w') →
      w'.lock = w.lock ∧ Charged units w'.forward ∧ B a w' ∧ ∀ e, e.external = true → E e w')
    (fail : ∀ w : World, P w → ∀ e, e.external = true → E e (missed e w q)) :
    Charges u confirmed units t P (await q) B E := by
  refine Discipline.own fun (w : World) inv mine known ch r w' answered => ?_
  obtain ⟨permitted, answered⟩ := System.restrict_answer answered
  have live : ¬w.forward.EnqueueFailed := permitted mine
  have locked : w.lock ≠ none := by
    rw [show w.lock = some t from mine]
    exact Option.some_ne_none t
  cases ch with
  | go f =>
    obtain ⟨⟨a, v⟩, took, same⟩ := Option.map_eq_some_iff.mp answered
    cases same
    obtain ⟨lock, row, held, -⟩ := go w inv locked live known f a _ took
    exact ⟨lock.trans mine, ⟨row, effect_reverses inv.reverse took⟩, trivial, held⟩
  | lost f e =>
    obtain ⟨loses, answered⟩ := Option.ite_none_right_eq_some.mp answered
    obtain ⟨⟨a, v⟩, took, same⟩ := Option.map_eq_some_iff.mp answered
    cases same
    obtain ⟨lock, row, -, lost⟩ := go w inv locked live known f a _ took
    exact ⟨lock.trans mine, ⟨row, effect_reverses inv.reverse took⟩, trivial, lost e (Request.external_of_mayLose loses)⟩
  | fail e =>
    obtain ⟨fails, same⟩ := Option.ite_none_right_eq_some.mp answered
    cases same
    refine ⟨(missed_lock e w q).trans mine, ?_, trivial,
      fail w known e (Request.external_of_mayFail fails)⟩
    constructor
    · rw [missed_forward]
      exact inv.forward
    · intro job there
      rw [missed_reverse] at there
      exact inv.reverse job there

end

theorem atWork_ordinary {q : Request} (ordinary : q.ordinary = true) :
    Charges u confirmed units t atWork (await q) (fun _ => atWork) fun _ => atWork := by
  refine charges (fun w inv _ _ ⟨held, opened⟩ f a w' took => ?_) fun w h e _ => ?_
  · obtain ⟨lock, progress⟩ := effect_ordinary ordinary opened took
    have after : (atWork : Charging u confirmed units) w' :=
      ⟨by rwa [lock], progress.opened⟩
    exact ⟨lock, inv.forward.progress opened progress, after, fun _ _ => after⟩
  · simpa only [atWork, missed_lock, missed_forward] using h

theorem unread_sparesRow {q : Request} (spares : q.sparesRow = true) :
    Charges u confirmed units t unread (await q) (fun _ => unread) fun _ => unread := by
  refine charges (fun w inv _ _ _ f a w' took => ?_) fun _ _ _ _ => trivial
  obtain ⟨lock, forward⟩ := effect_sparesRow spares took
  exact ⟨lock, by rw [forward]; exact inv.forward, trivial, fun _ _ => trivial⟩

/-- A part of a delivery that writes no outcome. -/
theorem works {α : Type} {p : Program Sig α} (h : p.Only fun q : Request => q.ordinary = true) :
    Charges u confirmed units t atWork p (fun _ => atWork) fun _ => atWork :=
  Does.only (fun _ => atWork_ordinary) h

/-! ## What writes no outcome -/

/-- The program writes no outcome. -/
abbrev Ordinary {α : Type} (p : Program Sig α) : Prop :=
  p.Only fun q : Request => q.ordinary = true

theorem ordinary_await {q : Request} (h : q.ordinary = true) : Ordinary (await q) :=
  only_perform.mpr h

theorem ordinary_attempt {α : Type} {p : Program Sig α} (h : Ordinary p) : Ordinary (attempt p) := by
  refine Only.tryCatch (Only.bind h fun a => ?_) fun e => ?_ <;> trivial

theorem ordinary_customStartPredicate : Ordinary customStartPredicate := by
  refine (ordinary_await rfl).bind fun gate => ?_
  cases gate <;> trivial

theorem ordinary_assertNotProtected (subject : ProtectionSubject) :
    Ordinary (assertNotProtected subject) :=
  (ordinary_await rfl).bind fun _ => .when trivial

theorem ordinary_storedOrThrow (ids : List MessageId) : Ordinary (storedOrThrow job ids) := by
  unfold storedOrThrow
  split <;> trivial

theorem ordinary_deleteUndoToStore (ids : List MessageId) :
    Ordinary (deleteUndoToStore job ids) := by
  unfold deleteUndoToStore prepareDeleteUndo
  split_ifs
  · refine Only.bind ((ordinary_storedOrThrow ids).bind fun _ => ?_) fun _ => ?_ <;> trivial
  · refine Only.bind ((ordinary_await rfl).bind fun _ => ?_) fun _ => ?_ <;> trivial
  · trivial

theorem ordinary_explainUnmarked (subject : Option ProtectionSubject) (gated : Bool) :
    Ordinary (explainUnmarked subject gated) := by
  have explained : Ordinary explainGate := ordinary_customStartPredicate.bind fun _ => trivial
  unfold explainUnmarked
  cases subject with
  | none => cases gated with
    | true => exact explained
    | false => trivial
  | some subject => cases gated with
    | true => exact (ordinary_assertNotProtected subject).bind fun _ => explained
    | false => trivial

theorem ordinary_markExecuting (ids : List MessageId) (subject : Option ProtectionSubject)
    (gated : Bool) : Ordinary (markExecuting job ids subject gated) := by
  refine (ordinary_deleteUndoToStore ids).bind fun _ => (ordinary_await rfl).bind fun _ => ?_
  exact (Only.when (ordinary_explainUnmarked subject gated)).bind fun _ => trivial

theorem ordinary_sendFirst (ids chunk : List MessageId) (change : LabelChange)
    (subject : Option ProtectionSubject) (startingCustom : Bool) :
    Ordinary (sendFirst job ids chunk change subject startingCustom) := by
  have scope : Ordinary (checkCustomScope ids) :=
    ordinary_customStartPredicate.bind fun _ => (ordinary_await rfl).bind fun _ => .when trivial
  have hook : Ordinary (beforeFirstRequest job ids subject startingCustom) :=
    (Only.when scope).bind fun _ => ordinary_markExecuting ids subject startingCustom
  exact (ordinary_await rfl).bind fun _ => hook.bind fun _ =>
    (ordinary_await rfl).bind fun _ => trivial

theorem ordinary_sendLater (chunk : List MessageId) (change : LabelChange)
    (subject : Option ProtectionSubject) : Ordinary (sendLater chunk change subject) := by
  have checked : Ordinary (recheck subject) := by
    cases subject with
    | none => trivial
    | some subject => exact ordinary_assertNotProtected subject
  exact (ordinary_await rfl).bind fun _ => checked.bind fun _ => ordinary_await rfl

theorem ordinary_sendRest (change : LabelChange) (subject : Option ProtectionSubject)
    (landed : ℕ) (chunks : List (List MessageId)) :
    Ordinary (sendRest change subject landed chunks) := by
  induction chunks generalizing landed with
  | nil => trivial
  | cons chunk chunks ih =>
    refine (ordinary_attempt (ordinary_sendLater chunk change subject)).bind fun sent => ?_
    cases sent with
    | error => trivial
    | ok => exact ih (landed + 1)

theorem ordinary_sendAll (ids : List MessageId) (change : LabelChange)
    (subject : Option ProtectionSubject) (startingCustom : Bool)
    (chunks : List (List MessageId)) :
    Ordinary (sendAll job ids change subject startingCustom chunks) := by
  cases chunks with
  | nil => trivial
  | cons chunk chunks =>
    refine (ordinary_attempt
      (ordinary_sendFirst ids chunk change subject startingCustom)).bind fun sent => ?_
    cases sent with
    | error => trivial
    | ok deleteUndo =>
      refine (ordinary_attempt (Only.when (ordinary_await rfl))).bind fun scheduled => ?_
      cases scheduled with
      | error => trivial
      | ok => exact (ordinary_sendRest change subject 1 chunks).bind fun _ => trivial

theorem ordinary_resolveLabelChange (change : LabelChange) :
    Ordinary (resolveLabelChange change) := by
  have one (label : Label) : Ordinary (resolveLabel label) := by
    unfold resolveLabel
    split_ifs
    · trivial
    · exact ordinary_await rfl
  have all (labels : List Label) : Ordinary (resolveAll labels) := by
    induction labels with
    | nil => trivial
    | cons label labels ih => exact (one label).bind fun _ => ih.bind fun _ => trivial
  exact (all _).bind fun _ => (all _).bind fun _ => trivial

theorem ordinary_executionSet (startingCustom : Bool) :
    Ordinary (executionSet job startingCustom) := by
  unfold executionSet
  split_ifs
  · exact (ordinary_await rfl).bind fun _ => (ordinary_await rfl).bind fun _ => trivial
  · exact (ordinary_await rfl).bind fun _ => (ordinary_await rfl).bind fun _ => trivial
  · trivial

/-! ## Outcomes -/

theorem atWorkIfBlocked_of_external {e : ActionError} (h : e.external = true) (w : World) :
    (atWorkIfBlocked e : Charging u confirmed units) w := by
  rintro ⟨block, rfl⟩
  simp [ActionError.external] at h

/-- The request that writes the outcome. -/
theorem outcome {q : Request}
    (go : ∀ w : World, Charged units w.forward → w.forward.Open → ∀ f a w',
      effect u t f w q = some (a, w') → w'.lock = w.lock ∧ Charged units w'.forward) :
    Charges u confirmed units t atWork (await q) (fun _ => unread) atWorkIfBlocked :=
  charges
    (fun w inv _ _ h f a w' took =>
      have ⟨lock, inv'⟩ := go w inv.forward h.2 f a w' took
      ⟨lock, inv', trivial, fun _ outside => atWorkIfBlocked_of_external outside w'⟩)
    fun w _ e outside => atWorkIfBlocked_of_external outside (missed e w q)

theorem still_atWork (e : ActionError) (w : (stamping u confirmed).World)
    (_ : (charging u confirmed units).inv w) (h : (atWork : Charging u confirmed units) w) :
    (atWorkIfBlocked e : Charging u confirmed units) w := fun _ => h

/-- A part before the outcome. -/
theorem Charges.before {α β : Type} {p : Program Sig α} {f : α → Program Sig β}
    {B : β → Charging u confirmed units} (first : Ordinary p)
    (rest : ∀ a, Charges u confirmed units t atWork (f a) B atWorkIfBlocked) :
    Charges u confirmed units t atWork (p >>= f) B atWorkIfBlocked :=
  Does.bind ((works first).fails still_atWork) rest

/-- A delivery that only answers. -/
theorem answers {α : Type} {P : Charging u confirmed units} (a : α) :
    Charges u confirmed units t P (.ret a) (fun _ => unread) atWorkIfBlocked :=
  Does.done fun _ _ _ => trivial

theorem charges_recordRecoveryProtected :
    Charges u confirmed units t atWork recordRecoveryProtected (fun _ => unread)
      atWorkIfBlocked := by
  refine Does.bind (outcome fun w inv _ f a w' took => ?_) fun _ => answers _
  cases took
  exact ⟨rfl, inv.fail _ _⟩

theorem charges_stopProtected (landed : ℕ) :
    Charges u confirmed units t atWork (stopProtected job landed) (fun _ => unread)
      atWorkIfBlocked := by
  unfold stopProtected recordProtected
  split_ifs
  · exact charges_recordRecoveryProtected
  · refine Does.bind (outcome fun w inv _ f a w' took => ?_) fun _ => answers _
    cases took
    exact ⟨rfl, inv.skipProtected⟩
  · exact charges_recordRecoveryProtected

theorem charges_sendFailed (landed : ℕ) (err : ActionError) :
    Charges u confirmed units t atWork (sendFailed job landed err) (fun _ => unread)
      atWorkIfBlocked := by
  unfold sendFailed
  split_ifs
  · exact charges_stopProtected landed
  · exact .before (.when (ordinary_await rfl)) fun _ => Does.failed (still_atWork err)

theorem charges_commitForward (deleteUndo : Option DeleteUndo) (ids : List MessageId)
    (change : LabelChange) :
    Charges u confirmed units t atWork (commitForward job deleteUndo ids change)
      (fun _ => unread) atWorkIfBlocked := by
  have placed (job : ActionJob) : Ordinary (inboxPlacement job ids) := by
    unfold inboxPlacement
    split_ifs
    · exact (ordinary_storedOrThrow ids).bind fun _ => trivial
    · trivial
  refine .before (ordinary_await rfl) fun _ => .before (placed _) fun inbox => ?_
  refine Does.bind (outcome fun w inv opened f a w' took => ?_) fun _ => answers _
  cases took
  exact ⟨rfl, inv.finish opened _ _⟩

theorem charges_applyForward (subject : Option ProtectionSubject) (startingCustom : Bool)
    (ids : List MessageId) :
    Charges u confirmed units t atWork (applyForward job subject startingCustom ids)
      (fun _ => unread) atWorkIfBlocked := by
  unfold applyForward
  split_ifs
  · refine Does.bind (outcome fun w inv opened f a w' took => ?_) fun _ => answers _
    cases took
    exact ⟨rfl, inv.finish opened _ _⟩
  · refine .before (ordinary_await rfl) fun _ =>
      .before (ordinary_resolveLabelChange _) fun resolved =>
      .before (ordinary_sendAll ids resolved subject startingCustom _) fun sent => ?_
    unfold finishForward
    split
    · exact charges_sendFailed _ _
    · exact charges_commitForward _ _ _

theorem charges_executeForward (protectedConfirmed : Bool) :
    Charges u confirmed units t atWork (executeForward job protectedConfirmed)
      (fun _ => unread) atWorkIfBlocked := by
  refine .before (.when trivial) fun _ => .before (.when trivial) fun _ =>
    .before (.when trivial) fun _ => ?_
  have asked (subject : Option ProtectionSubject) : Ordinary (subjectIsProtected subject) := by
    cases subject with
    | none => trivial
    | some subject => exact ordinary_await rfl
  refine .before (asked _) fun isProtected => ?_
  cases isProtected with
  | true => exact charges_stopProtected 0
  | false =>
    exact .before (.when ordinary_customStartPredicate) fun _ =>
      .before (ordinary_executionSet _) fun ids => charges_applyForward _ _ ids

theorem charges_forwardFailed (err : ActionError) :
    Charges u confirmed units t (atWorkIfBlocked err) (forwardFailed err) (fun _ => unread)
      fun _ => unread := by
  unfold forwardFailed
  split
  · rename_i block
    have failed : Charges u confirmed units t atWork (await (.failBlocked block))
        (fun _ => unread) atWorkIfBlocked := by
      refine outcome fun w inv opened f a w' took => ?_
      cases took
      exact ⟨rfl, inv.fail _ _⟩
    have blocked : Charges u confirmed units t (atWorkIfBlocked (.customAutopilotBlocked block))
        (await (.failBlocked block)) (fun _ => unread) atWorkIfBlocked :=
      failed.pre fun w _ h => h ⟨block, rfl⟩
    exact Does.bind (blocked.fails fun _ _ _ _ => trivial) fun _ => Does.done fun _ _ h => h
  · refine Does.bind (B := fun _ => unread)
      ((unread_sparesRow rfl).pre fun _ _ _ => trivial) fun _ => Does.done fun _ _ h => h
  · exact Does.failed fun _ _ _ => trivial

/-! ## Reverse deliveries -/

/-- The program leaves the forward row alone. -/
abbrev SparesRow {α : Type} (p : Program Sig α) : Prop := p.Only fun q : Request => q.sparesRow = true

theorem sparesRow_await {q : Request} (h : q.sparesRow = true) : SparesRow (await q) := only_perform.mpr h

theorem sparesRow_resolveLabelChange (change : LabelChange) : SparesRow (resolveLabelChange change) := by
  have one (label : Label) : SparesRow (resolveLabel label) := by
    unfold resolveLabel
    split_ifs
    · trivial
    · exact sparesRow_await rfl
  have all (labels : List Label) : SparesRow (resolveAll labels) := by
    induction labels with
    | nil => trivial
    | cons label labels ih => exact (one label).bind fun _ => ih.bind fun _ => trivial
  exact (all _).bind fun _ => (all _).bind fun _ => trivial

theorem sparesRow_sendReverse (ids : List MessageId) (groups : List ReverseGroup) :
    SparesRow (sendReverse ids groups) := by
  have resolved (groups : List ReverseGroup) : SparesRow (resolveGroups groups) := by
    induction groups with
    | nil => trivial
    | cons group groups ih =>
      exact (sparesRow_resolveLabelChange _).bind fun _ => ih.bind fun _ => trivial
  have chunks (change : LabelChange) (chunks : List (List MessageId)) :
      SparesRow (sendChunks change chunks) := by
    induction chunks with
    | nil => trivial
    | cons chunk chunks ih => exact (sparesRow_await rfl).bind fun _ => (sparesRow_await rfl).bind fun _ => ih
  have sent (groups : List ReverseGroup) : SparesRow (sendGroups groups) := by
    induction groups with
    | nil => trivial
    | cons group groups ih => exact (chunks _ _).bind fun _ => ih
  unfold sendReverse
  split_ifs
  · trivial
  · exact (sparesRow_await rfl).bind fun _ => (resolved groups).bind fun _ =>
      (sent _).bind fun _ => trivial

theorem sparesRow_executeReverse : SparesRow (executeReverse job) := by
  unfold executeReverse
  cases job.undoToken with
  | none => trivial
  | some token =>
    exact (sparesRow_await rfl).bind fun _ => (sparesRow_await rfl).bind fun _ =>
      (sparesRow_sendReverse _ _).bind fun _ => (sparesRow_await rfl).bind fun _ => trivial

/-! ## One delivery -/

/-- What a delivery knows of the row it has read. -/
def read (job : ActionJob) : Charging u confirmed units :=
  .or (.fact (isFinal job = true)) (.or (.fact (job.direction = .reverse)) atWork)

theorem charges_executeJob (job : ActionJob) (protectedConfirmed : Bool) :
    Charges u confirmed units t (read job) (executeJob job protectedConfirmed)
      (fun _ => unread) fun _ => unread := by
  unfold executeJob
  split_ifs with final
  · exact Does.done fun _ _ _ => trivial
  · cases direction : job.direction with
    | reverse =>
      exact (Does.only (fun _ => unread_sparesRow) sparesRow_executeReverse).pre fun _ _ _ => trivial
    | forward =>
      refine Does.tryCatch ((charges_executeForward protectedConfirmed).pre fun w _ h => ?_)
        charges_forwardFailed
      rcases h with done | reverse | opened
      · exact absurd done final
      · simp [direction] at reverse
      · exact opened

theorem charges_execute (direction : Direction) (protectedConfirmed : Bool) :
    Charges u confirmed units t unread (execute protectedConfirmed direction)
      (fun _ => unread) fun _ => unread := by
  refine Does.bind (B := fun found => found.elim unread read) ?_ fun found => ?_
  · refine charges (fun w inv locked live _ f a w' took => ?_) fun _ _ _ _ => trivial
    cases took
    refine ⟨rfl, inv.forward, ?_, fun _ _ => trivial⟩
    cases there : w.job direction with
    | none => trivial
    | some job =>
      cases direction with
      | reverse => exact .inr (.inl (inv.reverse job there))
      | forward =>
        obtain rfl : w.forward = job := Option.some.inj there
        cases final : isFinal w.forward with
        | true => exact .inl final
        | false =>
          exact .inr (.inr ⟨locked, open_of_not_final inv.forward.direction final live⟩)
  · cases found with
    | none => exact Does.failed fun _ _ _ => trivial
    | some job => exact charges_executeJob job protectedConfirmed

theorem charges_processJob (direction : Direction) (protectedConfirmed : Bool) :
    Triple (charging u confirmed units).Guarantee ((charging u confirmed units).outside t)
      (processJob protectedConfirmed direction)
      (fun _ => (charging u confirmed units).outside t)
      fun _ => (charging u confirmed units).outside t := by
  refine Triple.bind (B := fun _ => (charging u confirmed units).owned t unread) ?_ fun _ =>
    Triple.ensure (charges_execute direction protectedConfirmed) (fun _ => ?_) fun _ => ?_
  · refine take fun (w : World) inv free ch r w' answered => ?_
    obtain ⟨-, answered⟩ := System.restrict_answer answered
    cases ch with
    | go f =>
      obtain ⟨⟨a, v⟩, took, same⟩ := Option.map_eq_some_iff.mp answered
      cases same
      obtain ⟨idle, here⟩ := Option.ite_none_right_eq_some.mp took
      cases here
      exact ⟨⟨inv.forward, inv.reverse⟩, trivial, idle, rfl, trivial⟩
    | lost f e => simp [system, answer, Request.mayLose] at answered
    | fail e =>
      obtain ⟨-, same⟩ := Option.ite_none_right_eq_some.mp answered
      cases same
      exact ⟨inv, trivial, rfl, fun _ _ => rfl⟩
  all_goals
    refine leave fun (w : World) inv mine _ ch r w' answered => ?_
    obtain ⟨-, answered⟩ := System.restrict_answer answered
    cases ch with
    | go f =>
      obtain ⟨⟨a, v⟩, took, same⟩ := Option.map_eq_some_iff.mp answered
      cases same
      obtain ⟨-, here⟩ := Option.ite_none_right_eq_some.mp took
      cases here
      exact ⟨⟨inv.forward, inv.reverse⟩, trivial, rfl⟩
    | lost f e => simp [system, answer, Request.mayLose] at answered
    | fail e => simp [system, answer, Request.mayFail] at answered

/-! ## Runs -/

theorem World.Reverses.undo (h : w.Reverses) (token : UndoToken) : (w.undo token).Reverses := by
  unfold World.undo
  cases there : w.reverse with
  | none =>
    rintro job rfl'
    cases rfl'
    rfl
  | some job =>
    simp only
    split_ifs
    · exact h
    · rintro job' same
      cases same
      exact h job there

theorem undo_forward (w : World) (token : UndoToken) : (w.undo token).forward = w.forward := by
  unfold World.undo
  cases w.reverse with
  | none => rfl
  | some job =>
    simp only
    split_ifs <;> rfl

theorem undo_lock (w : World) (token : UndoToken) : (w.undo token).lock = w.lock := by
  unfold World.undo
  cases w.reverse with
  | none => rfl
  | some job =>
    simp only
    split_ifs <;> rfl

/-- What happens around the deliveries. -/
theorem charging_disturb {e : Event} (inv : Stamped units w)
    (permitted : KeepsStamp w (.disturb e : Move (system u confirmed)))
    (disturbed : disturb w e = some w') :
    Stamped units w' ∧ (charging u confirmed units).background w w' := by
  cases e with
  | protect | relabel =>
    cases disturbed
    exact ⟨⟨inv.forward, inv.reverse⟩, rfl, fun _ _ => rfl⟩
  | enqueueFailed =>
    obtain ⟨-, here⟩ := Option.ite_none_right_eq_some.mp disturbed
    cases here
    exact ⟨⟨inv.forward.fail _ _, inv.reverse⟩, rfl, fun held _ => absurd permitted held⟩
  | terminalFailure direction e =>
    obtain ⟨-, here⟩ := Option.ite_none_right_eq_some.mp disturbed
    cases here
    cases direction with
    | forward =>
      refine ⟨⟨inv.forward.fail _ _, inv.reverse⟩, rfl, fun held opened => ?_⟩
      rcases permitted with idle | final
      · exact absurd idle held
      · exact absurd opened final
    | reverse =>
      refine ⟨⟨inv.forward, inv.reverse.map (f := fun job => job.fail e.name job.affectedCount)
        (fun _ => rfl) rfl⟩, rfl, fun _ _ => rfl⟩
  | undo =>
    obtain ⟨token, -, rfl⟩ := Option.map_eq_some_iff.mp disturbed
    refine ⟨⟨?_, inv.reverse.undo token⟩, undo_lock w token, fun _ _ => undo_forward w token⟩
    rw [undo_forward]
    exact inv.forward

theorem charging_followed : Followed (charging u confirmed units) fun _ _ => True where
  accept := by
    intro t k w w' inv accepted
    obtain ⟨-, accepted⟩ := System.restrict_accept accepted
    obtain ⟨-, here⟩ := Option.ite_none_right_eq_some.mp accepted
    cases here
    exact ⟨inv, trivial, rfl, fun _ _ => rfl⟩
  code := by
    intro t k w _
    exact charges_processJob k confirmed
  settle := by
    intro t r w w' inv settled
    obtain ⟨-, settled⟩ := System.restrict_settle settled
    cases r <;> cases settled <;>
      exact ⟨⟨inv.forward, inv.reverse⟩, trivial, rfl, fun _ _ => rfl⟩
  crash := by
    intro (t : Delivery) (w : World) w' inv crashed
    obtain ⟨-, crashed⟩ := System.restrict_crash crashed
    cases crashed
    refine ⟨⟨inv.forward, inv.reverse⟩, trivial, ?_, fun mine => if_pos mine, fun other => ?_⟩
    · show (if w.lock = some t then none else w.lock) ≠ some t
      split_ifs with mine
      · simp
      · exact mine
    · exact ⟨if_neg other, fun _ _ => rfl⟩
  disturb := by
    intro e w w' inv _ disturbed
    obtain ⟨permitted, disturbed⟩ := System.restrict_disturb disturbed
    obtain ⟨inv', b⟩ := charging_disturb inv permitted disturbed
    exact ⟨inv', trivial, b⟩

theorem Stamped.enqueued (h : Enqueued root) (isProtected : SenderKey → Bool)
    (gmail : MessageId → Finset Label) (mail : MessageId → Option MailMessage) :
    Stamped root.quotaUnits (World.enqueued root isProtected gmail mail) where
  forward :=
    { direction := h.direction
      stamp _ := rfl
      done is := by simp [World.enqueued, h.status] at is
      failed is := by simp [World.enqueued, h.status] at is }
  reverse job there := by simp [World.enqueued] at there

variable {S : Scope}

/-- A failed row is charged nothing. -/
theorem failed_act (h : w.forward.status = .failed → w.forward.quotaUnits = 0)
    (step : Act u S w w') : w'.forward.status = .failed → w'.forward.quotaUnits = 0 := by
  cases step with
  | background b =>
    have drift := b.forward
    generalize w'.forward = row at drift ⊢
    cases drift with
    | same => exact h
    | enqueueFailed _ => simp [ActionJob.fail]
    | terminalFailure e _ => simp [ActionJob.fail]
  | stop _ => simp [World.stop, ActionJob.fail]
  | failBlocked block _ => simp [ActionJob.fail]
  | skip | commitNothing | commitForward | markExecuting =>
    intro failed
    cases failed
  | resetQueued _ =>
    unfold World.resetQueued
    split_ifs
    · intro failed
      cases failed
    · exact h
  | setLock | reread | persistIds | missed | send | markReverse | sendReverse | commitReverse =>
    exact h

/-- A stamp that is gone does not come back. -/
theorem unstamped_act (h : w.forward.quotaUnits = 0) (step : Act u S w w') :
    w'.forward.quotaUnits = 0 := by
  cases step with
  | background b =>
    have drift := b.forward
    generalize w'.forward = row at drift ⊢
    cases drift with
    | same => exact h
    | enqueueFailed _ => simp [ActionJob.fail]
    | terminalFailure e _ => simp [ActionJob.fail]
  | stop _ => simp [World.stop, ActionJob.fail]
  | failBlocked block _ => simp [ActionJob.fail]
  | skip _ _ => simp [World.stop, ActionJob.skipProtected]
  | commitNothing _ _ => simp [World.commitNothing, ActionJob.finish]
  | commitForward payload _ _ => simp [World.commitForward, ActionJob.finish, h]
  | resetQueued _ =>
    unfold World.resetQueued
    split_ifs <;> exact h
  | setLock | reread | persistIds | missed | send | markReverse | sendReverse | commitReverse
  | markExecuting => exact h

/-- Nothing is left out of a run. -/
theorem permits_all (w : World) (m : Move (system u confirmed)) :
    Permits ⟨confirmed, fun _ => False, False⟩ w m := by
  cases m with
  | disturb e =>
    cases e with
    | relabel => exact not_false
    | terminalFailure direction e =>
      cases direction with
      | forward => exact nofun
      | reverse => trivial
    | protect | enqueueFailed | undo => trivial
  | start | reply | finish | crash => trivial

/-- A failure is written over the row from outside its deliveries. -/
def Strikes (m : Move (system u confirmed)) : Prop :=
  m = .disturb .enqueueFailed ∨ ∃ e, m = .disturb (.terminalFailure .forward e)

theorem unstamped_of_strikes {c d : Config (system u confirmed)} {m : Move (system u confirmed)}
    (strikes : Strikes m) (taken : c.step m = some d) : d.world.forward.quotaUnits = 0 := by
  have row := Config.step_world taken
  rcases strikes with rfl | ⟨e, rfl⟩
  · obtain ⟨-, here⟩ := Option.ite_none_right_eq_some.mp row
    rw [← Option.some.inj here]
    simp [ActionJob.fail]
  · obtain ⟨-, here⟩ := Option.ite_none_right_eq_some.mp row
    rw [← Option.some.inj here]
    simp [World.terminalFailure, ActionJob.fail]

/-- In every run in which no delivery works on a row that was failed over its head, a job that is
done is charged what it changed of its stamp. In every run a failed job is charged nothing, and
so is a job that is done after a failure was written over its row. -/
theorem metered {isProtected : SenderKey → Bool} {gmail : MessageId → Finset Label}
    {mail : MessageId → Option MailMessage} (enqueued : Enqueued root) :
    (∀ c : Config (system u confirmed),
      RunWhere KeepsStamp (.idle (World.enqueued root isProtected gmail mail)) c →
        c.world.forward.status = .done →
          c.world.forward.quotaUnits = min root.quotaUnits c.world.forward.affectedCount) ∧
    (∀ c : Config (system u confirmed),
      Reaches (.idle (World.enqueued root isProtected gmail mail)) c →
        c.world.forward.status = .failed → c.world.forward.quotaUnits = 0) ∧
    ∀ (c d e : Config (system u confirmed)) (m : Move (system u confirmed)),
      Reaches (.idle (World.enqueued root isProtected gmail mail)) c → Strikes m →
        c.step m = some d → Reaches d e → e.world.forward.status = .done →
          e.world.forward.quotaUnits = 0 := by
  let S : Scope := ⟨confirmed, fun _ => False, False⟩
  have inv : Inv root (World.enqueued root isProtected gmail mail) := .enqueued enqueued ..
  refine ⟨fun c run done => ?_, fun c run => ?_, fun c d e m run strikes taken onward _ => ?_⟩
  · have ended : Stamped root.quotaUnits c.world :=
      charging_followed.inv (Stamped.enqueued enqueued ..) rfl run.restrict
    exact ended.forward.done done
  · have acts := (refines (S := S) enqueued (run.mono fun w m _ => permits_all w m)).2
    refine acts.induct inv (P := fun w => w.forward.status = .failed → w.forward.quotaUnits = 0)
      (fun failed => ?_) fun _ _ _ h step => failed_act h step
    simp [World.enqueued, enqueued.status] at failed
  · have every {c d : Config (system u confirmed)} (run : Reaches c d) :
        RunWhere (Permits S) c d := run.mono fun w m _ => permits_all w m
    have struck : Reaches (.idle (World.enqueued root isProtected gmail mail)) d :=
      .step run trivial taken
    have acts := refines_onward (S := S) enqueued (every struck) (every onward)
    exact acts.induct (refines (S := S) enqueued (every struck)).1
      (P := fun w => w.forward.quotaUnits = 0) (unstamped_of_strikes strikes taken)
      fun _ _ _ h step => unstamped_act h step

/-- Three messages were counted, one is found. -/
theorem metered_archive :
    ∃ c : Config (system ⟨fun _ => "Label_1", fun _ => by decide⟩ false),
      c.world.forward.status = .done ∧ c.world.forward.affectedCount = 1 ∧
        c.world.forward.quotaUnits = min 3 c.world.forward.affectedCount := by
  let u : UserLabels := ⟨fun _ => "Label_1", fun _ => by decide⟩
  let start : Config (system u false) := .idle (World.enqueued
    (senderJob .archive "a" .inboxOnly 3 none) (fun _ => false) (fun _ => {"INBOX"})
    fun _ => some ⟨"a", false, ["INBOX"]⟩)
  let go : Move (system u false) := .reply ⟨0, .forward⟩ (.go ⟨.pass, ["m"]⟩)
  have run : (start.runIf KeepsStamp (.start ⟨0, .forward⟩ .forward :: List.replicate 12 go)).any
      (fun c => decide (c.world.forward.status = .done ∧ c.world.forward.affectedCount = 1)) =
        true := by
    decide +kernel
  obtain ⟨c, reached, seen⟩ := (Option.any_eq_true _ _).mp run
  obtain ⟨done, one⟩ := of_decide_eq_true seen
  exact ⟨c, done, one, (metered ⟨rfl, rfl, rfl, rfl⟩).1 c (runWhere_of_runIf reached) done⟩

/-- The add lands and reports an error; the delivery runs the job, and the message that it
archives is charged to nobody. -/
theorem metered_after_failed_add :
    ∃ c : Config (system ⟨fun _ => "Label_1", fun _ => by decide⟩ false),
      Reaches (.idle (World.enqueued (senderJob .archive "a" .inboxOnly 1 none) (fun _ => false)
        (fun _ => {"INBOX"}) fun _ => some ⟨"a", false, ["INBOX"]⟩)) c ∧
      c.world.forward.status = .done ∧ c.world.forward.affectedCount = 1 ∧
      c.world.forward.quotaUnits ≠ min 1 c.world.forward.affectedCount := by
  let u : UserLabels := ⟨fun _ => "Label_1", fun _ => by decide⟩
  let start : Config (system u false) := .idle (World.enqueued
    (senderJob .archive "a" .inboxOnly 1 none) (fun _ => false) (fun _ => {"INBOX"})
    fun _ => some ⟨"a", false, ["INBOX"]⟩)
  let go : Move (system u false) := .reply ⟨0, .forward⟩ (.go ⟨.pass, ["m"]⟩)
  have run : (start.run (.disturb .enqueueFailed :: .start ⟨0, .forward⟩ .forward ::
      List.replicate 12 go)).any (fun c => decide (c.world.forward.status = .done ∧
        c.world.forward.affectedCount = 1 ∧
        c.world.forward.quotaUnits ≠ min 1 c.world.forward.affectedCount)) = true := by
    decide
  obtain ⟨c, reached, seen⟩ := exists_reaches run
  exact ⟨c, reached, of_decide_eq_true seen⟩

end DeclutrMail.LabelAction
