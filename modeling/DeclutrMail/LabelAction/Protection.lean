import DeclutrMail.LabelAction.Refinement

/-!
# Protected senders

What the history of a job without the user's consent looks like, and what a skip means.
-/

namespace DeclutrMail.LabelAction

open Interleaving

variable {u : UserLabels} {S : Scope} {root : ActionJob} {w w' : World}

/-- Every entry has before it what it needs. -/
def History : List LogEntry → Prop
  | [] => True
  | entry :: before => Justified before entry ∧ History before

theorem History.act (unconfirmed : S.confirmed = false) (h : History w.log)
    (step : Act u S w w') : History w'.log := by
  cases step with
  | background b =>
    rw [b.log]
    exact h
  | skip _ _ untouched => exact ⟨.inr ⟨rfl, rfl, untouched⟩, h⟩
  | stop _ => exact ⟨.inl ⟨rfl, rfl⟩, h⟩
  | reread => exact ⟨trivial, h⟩
  | markExecuting => exact ⟨trivial, h⟩
  | missed first refused _ ok => exact ⟨ok.justified unconfirmed, h⟩
  | send first ids _ ok _ => exact ⟨ok.justified unconfirmed, h⟩
  | resetQueued _ =>
    unfold World.resetQueued
    split_ifs <;> exact h
  | setLock => exact h
  | failBlocked => exact h
  | persistIds => exact h
  | commitNothing => exact h
  | commitForward => exact h
  | markReverse => exact h
  | sendReverse => exact h
  | commitReverse => exact h

/-- A row with the mark of a skip changed nothing, and Gmail has applied no request. -/
def SkippedClean (w : World) : Prop :=
  w.forward.errorCode = some labelSenderProtectedErrorCode →
    w.forward.status = .done ∧ w.forward.affectedCount = 0 ∧ ¬MaybeApplied w.log

/-- While a job has no outcome it has no mark either. -/
theorem SkippedClean.unmarked (h : SkippedClean w) (running : w.Running) :
    w.forward.errorCode ≠ some labelSenderProtectedErrorCode :=
  fun skipped => running.status (h skipped).1

theorem SkippedClean.background (h : SkippedClean w) (b : Background S w w') :
    SkippedClean w' := by
  intro skipped
  have drift := b.forward
  rw [b.log]
  generalize w'.forward = row at drift skipped ⊢
  cases drift with
  | same => exact h skipped
  | enqueueFailed _ => exact absurd (Option.some.inj skipped) (by decide)
  | terminalFailure e _ =>
    exact absurd (Option.some.inj skipped) e.name_ne_labelSenderProtected

theorem SkippedClean.act (h : SkippedClean w) (step : Act u S w w') : SkippedClean w' := by
  cases step with
  | background b => exact h.background b
  | skip _ _ untouched =>
    refine fun _ => ⟨rfl, rfl, ?_⟩
    simpa [World.stop] using untouched
  | stop _ => exact fun skipped => absurd (Option.some.inj skipped) (by decide)
  | failBlocked block _ =>
    exact fun skipped => absurd (Option.some.inj skipped) block.code_ne_labelSenderProtected
  | persistIds ids running _ => exact fun skipped => absurd skipped (h.unmarked running)
  | commitNothing running _ => exact fun skipped => absurd skipped (h.unmarked running)
  | markExecuting _ running _ => exact fun skipped => absurd skipped (h.unmarked running)
  | missed _ _ running _ => exact fun skipped => absurd skipped (h.unmarked running)
  | send _ _ running _ _ => exact fun skipped => absurd skipped (h.unmarked running)
  | commitForward _ running _ => exact fun skipped => absurd skipped (h.unmarked running)
  | resetQueued _ =>
    unfold World.resetQueued
    split_ifs with executing
    · intro skipped
      obtain ⟨done, -⟩ := h skipped
      rw [executing] at done
      cases done
    · exact h
  | reread =>
    intro skipped
    simpa [World.record] using h skipped
  | setLock => exact h
  | markReverse => exact h
  | sendReverse => exact h
  | commitReverse => exact h

/-- In every run of a forward job that the user did not confirm, each first request follows a
mark that found its sender unprotected, each later one a re-check that did, and each stop is a
failure or a skip of a job that Gmail cannot have applied. A row that reads as skipped was
never applied. -/
theorem never_acts_on_protected {isProtected : SenderKey → Bool}
    {gmail : MessageId → Finset Label} {mail : MessageId → Option MailMessage}
    {c : Config (system u false)} (enqueued : Enqueued root)
    (run : Reaches (.idle (World.enqueued root isProtected gmail mail)) c) :
    History c.world.log ∧ SkippedClean c.world := by
  have permitted : RunWhere (Permits ⟨false, fun _ => False, False⟩)
      (.idle (World.enqueued root isProtected gmail mail)) c := by
    refine run.mono fun w m _ => ?_
    cases m with
    | disturb e =>
      cases e with
      | relabel => exact not_false
      | terminalFailure direction _ => cases direction <;> simp [Permits, PermitsEvent]
      | protect => trivial
      | enqueueFailed => trivial
      | undo => trivial
    | start | reply | finish | crash => trivial
  have inv : Inv root (World.enqueued root isProtected gmail mail) := .enqueued enqueued ..
  have acts := (refines (S := ⟨false, fun _ => False, False⟩) enqueued permitted).2
  constructor
  · exact acts.induct inv (P := fun w => History w.log) trivial
      fun _ _ _ h step => h.act rfl step
  · refine acts.induct inv (P := SkippedClean) (fun skipped => ?_) fun _ _ _ h step => h.act step
    rw [World.enqueued, enqueued.errorCode] at skipped
    cases skipped

/-- The sender turns Protected after a request that Gmail may have applied. -/
theorem never_acts_on_protected_retry :
    ∃ c : Config (system ⟨fun _ => "Label_1", fun _ => by decide⟩ false),
      c.world.log = [.stopped .failed (some recoverySenderProtectedErrorCode), .reread true,
        .sent true false, .marked false, .reread false] ∧
      History c.world.log ∧ SkippedClean c.world := by
  let u : UserLabels := ⟨fun _ => "Label_1", fun _ => by decide⟩
  let start : Config (system u false) := .idle (World.enqueued
    (senderJob .archive "a" .inboxOnly 1 none) (fun _ => false) (fun _ => {"INBOX"})
    fun _ => some ⟨"a", false, ["INBOX"]⟩)
  let go (n : ℕ) : Move (system u false) := .reply ⟨n, .forward⟩ (.go ⟨.pass, ["m"]⟩)
  have run : (start.run ([.start ⟨0, .forward⟩ .forward] ++ List.replicate 8 (go 0) ++
      [.reply ⟨0, .forward⟩ (.fail .transient), go 0, .finish ⟨0, .forward⟩,
        .disturb (.protect "a" true), .start ⟨1, .forward⟩ .forward] ++
      List.replicate 5 (go 1))).any (fun c => decide (c.world.log =
        [.stopped .failed (some recoverySenderProtectedErrorCode), .reread true,
          .sent true false, .marked false, .reread false])) = true := by
    decide
  obtain ⟨c, reached, log⟩ := exists_reaches run
  exact ⟨c, of_decide_eq_true log,
    never_acts_on_protected ⟨rfl, rfl, rfl, rfl⟩ reached⟩

end DeclutrMail.LabelAction
