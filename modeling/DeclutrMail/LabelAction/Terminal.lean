import DeclutrMail.LabelAction.Protection

/-!
# The outcome of a job

A terminal transaction runs at most once. `onTerminalFailure` writes `failed` whatever the
row says, so a row that is done stays so only where that write does not strike it.
-/

namespace DeclutrMail.LabelAction

open Interleaving

variable {u : UserLabels} {S : Scope} {root : ActionJob} {w w' : World}

/-- A terminal transaction made the row done. -/
def World.Completed (w : World) : Prop :=
  w.forward.status = .done ∧ w.forward.errorCode ≠ some labelSenderProtectedErrorCode

instance (w : World) : Decidable w.Completed := inferInstanceAs (Decidable (_ ∧ _))

/-- What there is of a job: nothing, or one of each. A job that changed no message has
nothing to undo. -/
inductive Leaves (w : World) : Prop
  | nothing : w.activityLog = [] → w.outbox = [] → w.undoJournal = [] → Leaves w
  | unmoved : w.activityLog.length = 1 → w.outbox.length = 1 → w.undoJournal = [] →
      (w.Completed → w.forward.affectedCount = 0) → Leaves w
  | moved : w.activityLog.length = 1 → w.outbox.length = 1 → w.undoJournal.length = 1 →
      (w.Completed → 0 < w.forward.affectedCount) → Leaves w

/-- The tables and the row as others see them. -/
theorem Leaves.congr (h : Leaves w) (activityLog : w'.activityLog.length = w.activityLog.length)
    (outbox : w'.outbox = w.outbox) (undoJournal : w'.undoJournal.length = w.undoJournal.length)
    (completed : w'.Completed → w.activityLog ≠ [] →
      w.Completed ∧ w'.forward.affectedCount = w.forward.affectedCount) : Leaves w' := by
  cases h with
  | nothing a o j =>
    refine .nothing (List.length_eq_zero_iff.mp ?_) (outbox.trans o)
      (List.length_eq_zero_iff.mp ?_)
    · rw [activityLog, a, List.length_nil]
    · rw [undoJournal, j, List.length_nil]
  | unmoved a o j zero =>
    have some_ : w.activityLog ≠ [] := List.ne_nil_of_length_pos (by omega)
    refine .unmoved (activityLog.trans a) (by rw [outbox, o]) (List.length_eq_zero_iff.mp ?_)
      fun done => ?_
    · rw [undoJournal, j, List.length_nil]
    · obtain ⟨before, same⟩ := completed done some_
      rw [same]
      exact zero before
  | moved a o j pos =>
    have some_ : w.activityLog ≠ [] := List.ne_nil_of_length_pos (by omega)
    refine .moved (activityLog.trans a) (by rw [outbox, o]) (undoJournal.trans j) fun done => ?_
    obtain ⟨before, same⟩ := completed done some_
    rw [same]
    exact pos before

/-- A step while the job has no outcome writes no table but at its end. -/
theorem Leaves.running (h : Leaves w) (running : w.Running)
    (activityLog : w'.activityLog = w.activityLog) (outbox : w'.outbox = w.outbox)
    (undoJournal : w'.undoJournal = w.undoJournal) : Leaves w' :=
  h.congr (by rw [activityLog]) outbox (by rw [undoJournal])
    fun _ logged => absurd running.activityLog logged

theorem Leaves.empty (h : Leaves w) (running : w.Running) :
    w.outbox = [] ∧ w.undoJournal = [] := by
  cases h with
  | nothing a o j => exact ⟨o, j⟩
  | unmoved a o j _ => simp [running.activityLog] at a
  | moved a o j _ => simp [running.activityLog] at a

theorem Leaves.act (h : Leaves w) (step : Act u S w w') : Leaves w' := by
  cases step with
  | background b =>
    refine h.congr (by rw [b.activityLog]) b.outbox (by rw [b.undoJournal]) fun done _ => ?_
    have drift := b.forward
    unfold World.Completed at done ⊢
    generalize w'.forward = row at drift done ⊢
    cases drift with
    | same => exact ⟨done, rfl⟩
    | enqueueFailed _ => exact absurd done.1 nofun
    | terminalFailure e _ => exact absurd done.1 nofun
  | skip running _ _ => exact h.running running rfl rfl rfl
  | stop running => exact h.running running rfl rfl rfl
  | failBlocked block running => exact h.running running rfl rfl rfl
  | persistIds ids running _ => exact h.running running rfl rfl rfl
  | markExecuting _ running _ => exact h.running running rfl rfl rfl
  | missed _ _ running _ => exact h.running running rfl rfl rfl
  | send _ _ running _ _ => exact h.running running rfl rfl rfl
  | commitNothing running _ =>
    obtain ⟨outbox, undoJournal⟩ := h.empty running
    exact .unmoved (by simp [World.commitNothing, running.activityLog])
      (by simp [World.commitNothing, outbox]) undoJournal fun _ => rfl
  | commitForward payload running ok =>
    obtain ⟨outbox, undoJournal⟩ := h.empty running
    exact .moved (by simp [World.commitForward, running.activityLog])
      (by simp [World.commitForward, outbox]) (by simp [World.commitForward, undoJournal])
      fun _ => List.length_pos_of_ne_nil ok.nonempty
  | resetQueued _ =>
    unfold World.resetQueued
    split_ifs with executing
    · exact h.congr rfl rfl rfl fun done _ => absurd done.1 nofun
    · exact h
  | commitReverse job token groups _ _ _ =>
    exact h.congr (by simp [World.commitReverse]) rfl (by simp [World.commitReverse])
      fun done _ => ⟨done, rfl⟩
  | reread => exact h.congr rfl rfl rfl fun done _ => ⟨done, rfl⟩
  | setLock => exact h.congr rfl rfl rfl fun done _ => ⟨done, rfl⟩
  | markReverse => exact h.congr rfl rfl rfl fun done _ => ⟨done, rfl⟩
  | sendReverse => exact h.congr rfl rfl rfl fun done _ => ⟨done, rfl⟩

/-! ## Runs in which no late failure strikes a row that is done -/

/-- A step of a job that is done leaves its row as it was. -/
theorem done_act (spared : S.spared) (done : w.forward.status = .done) (step : Act u S w w') :
    w'.forward = w.forward := by
  cases step with
  | background b =>
    have drift := b.forward
    generalize w'.forward = row at drift ⊢
    cases drift with
    | same => rfl
    | enqueueFailed queued => simp [done] at queued
    | terminalFailure e other => exact absurd done (other spared)
  | skip running _ _ => exact absurd done running.status
  | stop running => exact absurd done running.status
  | failBlocked _ running => exact absurd done running.status
  | persistIds _ running _ => exact absurd done running.status
  | commitNothing running _ => exact absurd done running.status
  | markExecuting _ running _ => exact absurd done running.status
  | commitForward _ running _ => exact absurd done running.status
  | resetQueued _ =>
    unfold World.resetQueued
    rw [if_neg (by simp [done])]
  | setLock | reread | missed | send | markReverse | sendReverse | commitReverse => rfl

/-- What is done and what is logged belong together. -/
def Settled (w : World) : Prop := w.Completed ↔ w.activityLog ≠ []

theorem Settled.neither (open_ : ¬w.Completed) (quiet : w.activityLog = []) : Settled w :=
  ⟨fun done => absurd done open_, fun logged => absurd quiet logged⟩

theorem Settled.act (spared : S.spared) (h : Settled w) (clean : SkippedClean w)
    (step : Act u S w w') : Settled w' := by
  have unmarked (running : w.Running) := clean.unmarked running
  cases step with
  | background b =>
    by_cases done : w.forward.status = .done
    · have row := done_act spared done (.background (u := u) b)
      rw [Settled, World.Completed, row, b.activityLog]
      exact h
    · refine .neither (fun done' => ?_) ?_
      · rcases b.forward.status with same | failed
        · exact done (same.symm.trans done'.1)
        · exact absurd (failed.symm.trans done'.1) nofun
      · rw [b.activityLog]
        by_contra logged
        exact done (h.mpr logged).1
  | skip running _ _ => exact .neither (fun done => done.2 rfl) running.activityLog
  | stop running => exact .neither (fun done => nomatch done.1) running.activityLog
  | failBlocked _ running => exact .neither (fun done => nomatch done.1) running.activityLog
  | persistIds _ running _ =>
    exact .neither (fun done => running.status done.1) running.activityLog
  | markExecuting _ running _ => exact .neither (fun done => nomatch done.1) running.activityLog
  | commitNothing running _ =>
    exact ⟨fun _ => List.cons_ne_nil _ _, fun _ => ⟨rfl, unmarked running⟩⟩
  | commitForward _ running _ =>
    exact ⟨fun _ => List.cons_ne_nil _ _, fun _ => ⟨rfl, unmarked running⟩⟩
  | resetQueued _ =>
    unfold World.resetQueued
    split_ifs with executing
    · refine .neither (fun done => nomatch done.1) ?_
      by_contra logged
      have done := (h.mpr logged).1
      rw [executing] at done
      cases done
    · exact h
  | commitReverse =>
    refine h.trans (not_congr ?_)
    simp [World.commitReverse]
  | setLock | reread | missed | send | markReverse | sendReverse => exact h

/-- The failure of a delivery is not written over a row that is done. -/
def SparesDone {confirmed : Bool} (w : World) (m : Move (system u confirmed)) : Prop :=
  ∀ e, m = .disturb (.terminalFailure .forward e) → w.forward.status ≠ .done

theorem SparesDone.permits {confirmed : Bool} {m : Move (system u confirmed)}
    (h : SparesDone w m) : Permits ⟨confirmed, fun _ => False, True⟩ w m := by
  cases m with
  | disturb e =>
    cases e with
    | relabel => exact not_false
    | terminalFailure direction e =>
      cases direction with
      | forward => exact fun _ => h e rfl
      | reverse => trivial
    | protect => trivial
    | enqueueFailed => trivial
    | undo => trivial
  | start | reply | finish | crash => trivial

/-- The rows and the event of a job, as its own row tells. -/
structure Tally (w : World) : Prop where
  activityLog : w.activityLog.length = if w.Completed then 1 else 0
  outbox : w.outbox.length = if w.Completed then 1 else 0
  undoJournal : w.undoJournal.length =
    if w.Completed ∧ 0 < w.forward.affectedCount then 1 else 0

theorem Leaves.tally (h : Leaves w) (settled : Settled w) : Tally w := by
  cases h with
  | nothing a o j =>
    have open_ : ¬w.Completed := fun done => settled.mp done a
    constructor <;> simp [a, o, j, open_]
  | unmoved a o j zero =>
    have done : w.Completed := settled.mpr (List.ne_nil_of_length_pos (by omega))
    constructor <;> simp [a, o, j, done, zero done]
  | moved a o j pos =>
    have done : w.Completed := settled.mpr (List.ne_nil_of_length_pos (by omega))
    constructor <;> simp [a, o, j, done, pos done]

/-- In every run in which `onTerminalFailure` strikes no row that is done, the activity row
and the event are there exactly once a terminal transaction has made the row done, the undo
row exactly when that moved mail, none of them twice, and a row that is done stays as it is. -/
theorem done_is_final {confirmed : Bool} {isProtected : SenderKey → Bool}
    {gmail : MessageId → Finset Label} {mail : MessageId → Option MailMessage}
    {c : Config (system u confirmed)} (enqueued : Enqueued root)
    (run : RunWhere SparesDone (.idle (World.enqueued root isProtected gmail mail)) c) :
    Tally c.world ∧ ∀ d, RunWhere SparesDone c d → c.world.forward.status = .done →
      d.world.forward = c.world.forward := by
  let S : Scope := ⟨confirmed, fun _ => False, True⟩
  have permitted := run.mono fun w m spares => SparesDone.permits spares
  obtain ⟨inv, acts⟩ := refines (S := S) enqueued permitted
  have start : Inv root (World.enqueued root isProtected gmail mail) := .enqueued enqueued ..
  constructor
  · have left : Leaves c.world :=
      acts.induct start (.nothing rfl rfl rfl) fun _ _ _ h step => h.act step
    have settled : SkippedClean c.world ∧ Settled c.world := by
      refine acts.induct start (P := fun w => SkippedClean w ∧ Settled w) ⟨?_, ?_⟩ ?_
      · intro skipped
        rw [World.enqueued, enqueued.errorCode] at skipped
        cases skipped
      · refine .neither (fun done => ?_) rfl
        rw [World.Completed, World.enqueued, enqueued.status] at done
        cases done.1
      · intro v v' _ h step
        exact ⟨h.1.act step, h.2.act trivial h.1 step⟩
    exact left.tally settled.2
  · intro d onward done
    have acts := refines_onward (S := S) enqueued permitted
      (onward.mono fun w m spares => SparesDone.permits spares)
    have both : d.world.forward = c.world.forward ∧ d.world.forward.status = .done :=
      acts.induct inv (P := fun w => w.forward = c.world.forward ∧ w.forward.status = .done)
        ⟨rfl, done⟩ fun v v' _ h step => by
          have same := done_act trivial h.2 step
          exact ⟨same.trans h.1, by rw [same]; exact h.2⟩
    exact both.1

/-- An archive of one message is done. -/
theorem done_is_final_archive :
    ∃ c : Config (system ⟨fun _ => "Label_1", fun _ => by decide⟩ false),
      c.world.undoJournal.length = 1 ∧ Tally c.world ∧
      ∀ d, RunWhere SparesDone c d → c.world.forward.status = .done →
        d.world.forward = c.world.forward := by
  let u : UserLabels := ⟨fun _ => "Label_1", fun _ => by decide⟩
  let start : Config (system u false) := .idle (World.enqueued
    (senderJob .archive "a" .inboxOnly 1 none) (fun _ => false) (fun _ => {"INBOX"})
    fun _ => some ⟨"a", false, ["INBOX"]⟩)
  let go : Move (system u false) := .reply ⟨0, .forward⟩ (.go ⟨.pass, ["m"]⟩)
  have run : (start.run (.start ⟨0, .forward⟩ .forward :: List.replicate 12 go)).any
      (fun c => decide (c.world.undoJournal.length = 1)) = true := by
    decide
  obtain ⟨c, reached, one⟩ := exists_runWhere (A := SparesDone) run fun m mem w e same => by
    simp only [List.mem_cons, List.mem_replicate] at mem
    subst same
    rcases mem with started | ⟨-, replied⟩
    · cases started
    · change Move.disturb _ = Move.reply _ _ at replied
      cases replied
  exact ⟨c, of_decide_eq_true one, done_is_final ⟨rfl, rfl, rfl, rfl⟩ reached⟩

/-- The terminal transaction commits, its answer is lost, and the failure of that last
delivery is written over the row that is done. -/
theorem done_overwritten :
    ∃ c d : Config (system ⟨fun _ => "Label_1", fun _ => by decide⟩ false),
      Reaches (.idle (World.enqueued (senderJob .archive "a" .inboxOnly 1 none) (fun _ => false)
        (fun _ => {"INBOX"}) fun _ => some ⟨"a", false, ["INBOX"]⟩)) c ∧
      c.world.Completed ∧ c.world.forward.quotaUnits = 1 ∧
      Reaches c d ∧ d.world.forward.status = .failed ∧ d.world.forward.quotaUnits = 0 ∧
      d.world.activityLog.length = 1 ∧ d.world.undoJournal.length = 1 := by
  let u : UserLabels := ⟨fun _ => "Label_1", fun _ => by decide⟩
  let start : Config (system u false) := .idle (World.enqueued
    (senderJob .archive "a" .inboxOnly 1 none) (fun _ => false) (fun _ => {"INBOX"})
    fun _ => some ⟨"a", false, ["INBOX"]⟩)
  let t : Delivery := ⟨0, .forward⟩
  let go : Move (system u false) := .reply t (.go ⟨.pass, ["m"]⟩)
  let commit : Move (system u false) := .reply t (.lost ⟨.pass, ["m"]⟩ .database)
  let rest : List (Move (system u false)) :=
    [go, .finish t, .disturb (.terminalFailure .forward .database)]
  have run : (start.run (.start t .forward :: List.replicate 10 go ++ [commit])).any (fun c =>
      decide ((c.world.forward.status = .done ∧
        c.world.forward.errorCode ≠ some labelSenderProtectedErrorCode) ∧
        c.world.forward.quotaUnits = 1) && (c.run rest).any fun d => decide
        (d.world.forward.status = .failed ∧ d.world.forward.quotaUnits = 0 ∧
          d.world.activityLog.length = 1 ∧ d.world.undoJournal.length = 1)) = true := by
    decide
  obtain ⟨c, reached, seen⟩ := exists_reaches run
  obtain ⟨done, later⟩ := Bool.and_eq_true_iff.mp seen
  obtain ⟨d, onward, overwritten⟩ := exists_reaches later
  obtain ⟨completed, quota⟩ := of_decide_eq_true done
  exact ⟨c, d, reached, completed, quota, onward, of_decide_eq_true overwritten⟩

end DeclutrMail.LabelAction
