import DeclutrMail.LabelAction.Protocol

/-!
# What every step of the protocol keeps

`Inv` relates the row of a forward job to its history: a row that reads as untouched was
never applied, and a job with an outcome has a final row. `Inv.act` is the one case analysis
over the steps.
-/

namespace DeclutrMail.LabelAction

variable {u : UserLabels} {S : Scope} {root : ActionJob} {w w' : World}

/-- A forward row as it is enqueued. -/
structure Enqueued (root : ActionJob) : Prop where
  direction : root.direction = .forward
  status : root.status = .queued
  errorCode : root.errorCode = none
  undoToken : root.undoToken = none

/-- A reverse row is that of the forward job's token. -/
structure Reverts (forward job : ActionJob) : Prop where
  direction : job.direction = .reverse
  verb : job.verb = forward.verb
  reach : job.reach = forward.reach
  resolvedMessageIds : job.resolvedMessageIds = forward.resolvedMessageIds
  undoToken : job.undoToken = forward.undoToken
  issued : forward.undoToken ≠ none

theorem Reverts.drift {forward forward' job job' : ActionJob} (h : Reverts forward job)
    (verb : forward'.verb = forward.verb) (reach : forward'.reach = forward.reach)
    (ids : forward'.resolvedMessageIds = forward.resolvedMessageIds)
    (token : forward'.undoToken = forward.undoToken) (same : SameRevert job job') :
    Reverts forward' job' where
  direction := same.direction.trans h.direction
  verb := by rw [same.verb, h.verb, verb]
  reach := by rw [same.reach, h.reach, reach]
  resolvedMessageIds := by rw [same.resolvedMessageIds, h.resolvedMessageIds, ids]
  undoToken := by rw [same.undoToken, h.undoToken, token]
  issued := by rw [token]; exact h.issued

structure Inv (root : ActionJob) (w : World) : Prop where
  same : SameJob root w.forward
  forward : w.forward.direction = .forward
  untouched : MaybeApplied w.log → neverReachedGmail w.forward = false
  marked : w.forward.status = .executing → EverMarked w.log
  committed : w.activityLog ≠ [] → isFinal w.forward = true
  token : w.forward.undoToken ≠ none → w.activityLog ≠ []
  reverse : ∀ job, w.reverse = some job → Reverts w.forward job

theorem Inv.enqueued (h : Enqueued root) (isProtected : SenderKey → Bool)
    (gmail : MessageId → Finset Label) (mail : MessageId → Option MailMessage) :
    Inv root (World.enqueued root isProtected gmail mail) where
  same := .refl root
  forward := h.direction
  untouched := by simp [World.enqueued]
  marked := by simp [World.enqueued, h.status]
  committed := by simp [World.enqueued]
  token := by simp [World.enqueued, h.undoToken]
  reverse := by simp [World.enqueued]

/-- A job without an outcome has no reverse row. -/
theorem Inv.no_reverse (h : Inv root w) (running : w.Running) : w.reverse = none := by
  cases hr : w.reverse with
  | none => rfl
  | some job => exact absurd running.activityLog (h.token (h.reverse job hr).issued)

/-- Writing the forward row of a job without an outcome. -/
theorem Inv.write (h : Inv root w) (running : w.Running) (same : SameJob w.forward w'.forward)
    (untouched : MaybeApplied w'.log → neverReachedGmail w'.forward = false)
    (marked : w'.forward.status = .executing → EverMarked w'.log)
    (committed : w'.activityLog ≠ [] → isFinal w'.forward = true)
    (token : w'.forward.undoToken ≠ none → w'.activityLog ≠ [])
    (reverse : w'.reverse = w.reverse) : Inv root w' where
  same := h.same.trans same
  forward := same.direction.trans h.forward
  untouched := untouched
  marked := marked
  committed := committed
  token := token
  reverse := by
    intro job there
    rw [reverse, h.no_reverse running] at there
    cases there

/-- A step that leaves the two rows as they are. -/
theorem Inv.frame (h : Inv root w) (forward : w'.forward = w.forward)
    (reverse : w'.reverse = w.reverse) (activityLog : w'.activityLog = w.activityLog)
    (applied : MaybeApplied w'.log → MaybeApplied w.log ∨ neverReachedGmail w.forward = false)
    (marks : EverMarked w.log → EverMarked w'.log) : Inv root w' where
  same := by rw [forward]; exact h.same
  forward := by rw [forward]; exact h.forward
  untouched there := by rw [forward]; exact (applied there).elim h.untouched id
  marked there := marks (h.marked (by rwa [forward] at there))
  committed there := by rw [forward]; exact h.committed (by rwa [activityLog] at there)
  token there := by rw [activityLog]; exact h.token (by rwa [forward] at there)
  reverse job there := by rw [forward]; exact h.reverse job (by rwa [reverse] at there)

theorem neverReachedGmail_of_done {job : ActionJob} (h : job.status = .done) :
    neverReachedGmail job = false := by
  simp [neverReachedGmail, h]

theorem isFinal_of_done {job : ActionJob} (h : job.status = .done) : isFinal job = true := by
  simp [isFinal, h]

/-! ## What others do -/

theorem ForwardDrift.same_job {spared : Prop} {job job' : ActionJob}
    (h : ForwardDrift spared job job') : SameJob job job' := by
  cases h with
  | same => exact .refl job
  | enqueueFailed _ => exact ⟨rfl, rfl, rfl, rfl, rfl, fun _ => rfl⟩
  | terminalFailure e _ => exact ⟨rfl, rfl, rfl, rfl, rfl, fun _ => rfl⟩

theorem ForwardDrift.kept {spared : Prop} {job job' : ActionJob}
    (h : ForwardDrift spared job job') : job'.resolvedMessageIds = job.resolvedMessageIds ∧
      job'.deleteUndo = job.deleteUndo ∧ job'.undoToken = job.undoToken ∧
      job'.affectedCount = job.affectedCount := by
  cases h <;> exact ⟨rfl, rfl, rfl, rfl⟩

theorem ForwardDrift.reached {spared : Prop} {job job' : ActionJob}
    (h : ForwardDrift spared job job') (reached : neverReachedGmail job = false) :
    neverReachedGmail job' = false := by
  cases h with
  | same => exact reached
  | enqueueFailed queued => simp [neverReachedGmail, queued] at reached
  | terminalFailure e _ => exact neverReachedGmail_fail e.name_ne_enqueueFailed

theorem ForwardDrift.final {spared : Prop} {job job' : ActionJob}
    (h : ForwardDrift spared job job') (forward : job.direction = .forward)
    (final : isFinal job = true) : isFinal job' = true := by
  cases h with
  | same => exact final
  | enqueueFailed queued => simp [isFinal, failedForGood, queued] at final
  | terminalFailure e _ => exact isFinal_fail forward e.name_ne_enqueueFailed

theorem ForwardDrift.status {spared : Prop} {job job' : ActionJob}
    (h : ForwardDrift spared job job') : job'.status = job.status ∨ job'.status = .failed := by
  cases h with
  | same => exact .inl rfl
  | enqueueFailed _ => exact .inr rfl
  | terminalFailure e _ => exact .inr rfl

theorem Inv.background (h : Inv root w) (b : Background S w w') : Inv root w' where
  same := h.same.trans b.forward.same_job
  forward := b.forward.same_job.direction.trans h.forward
  untouched there := by
    rw [b.log] at there
    exact b.forward.reached (h.untouched there)
  marked executing := by
    rw [b.log]
    rcases b.forward.status with same | failed
    · exact h.marked (same.symm.trans executing)
    · rw [failed] at executing
      cases executing
  committed there := by
    rw [b.activityLog] at there
    exact b.forward.final h.forward (h.committed there)
  token there := by
    rw [b.activityLog]
    exact h.token (by rwa [b.forward.kept.2.2.1] at there)
  reverse job there := by
    have kept := b.forward.kept
    have still := b.forward.same_job
    have drift := b.reverse
    rw [there] at drift
    generalize was : w.reverse = before at drift
    cases drift with
    | clicked token issued =>
      exact ⟨rfl, still.verb.symm, still.reach.symm, kept.1.symm,
        (kept.2.2.1.trans issued).symm, by simp [kept.2.2.1, issued]⟩
    | same same =>
      exact (h.reverse _ was).drift still.verb still.reach kept.1 kept.2.2.1 same

/-! ## Every step -/

theorem Inv.act (h : Inv root w) (step : Act u S w w') : Inv root w' := by
  have token (running : w.Running) : w.forward.undoToken = none := by
    by_contra issued
    exact h.token issued running.activityLog
  cases step with
  | background b => exact h.background b
  | setLock lock => exact h.frame rfl rfl rfl .inl id
  | reread =>
    refine h.frame rfl rfl rfl (fun there => .inl ?_) (by simp [World.record])
    simpa [World.record] using there
  | skip running root untouched =>
    refine h.write running ⟨rfl, rfl, rfl, rfl, rfl, fun _ => rfl⟩
      (fun _ => neverReachedGmail_of_done rfl) (fun executing => by cases executing) (fun _ => isFinal_of_done rfl)
      (fun issued => absurd (token running) issued) rfl
  | stop running =>
    have code : recoverySenderProtectedErrorCode ≠ enqueueFailedErrorCode := by decide
    refine h.write running ⟨rfl, rfl, rfl, rfl, rfl, fun _ => rfl⟩
      (fun _ => neverReachedGmail_fail code) (fun executing => by cases executing) (fun _ => isFinal_fail h.forward code)
      (fun issued => absurd (token running) issued) rfl
  | failBlocked block running =>
    refine h.write running ⟨rfl, rfl, rfl, rfl, rfl, fun _ => rfl⟩
      (fun _ => neverReachedGmail_fail block.code_ne_enqueueFailed) (fun executing => by cases executing)
      (fun _ => isFinal_fail h.forward block.code_ne_enqueueFailed)
      (fun issued => absurd (token running) issued) rfl
  | persistIds ids running ok =>
    have listed : w.forward.selector ≠ .messages := by
      rcases ok.scope with ⟨custom, -⟩ | ⟨-, sender, -⟩
      · intro listed
        simp [customAutopilot, listed] at custom
      · exact sender
    exact h.write running ⟨rfl, rfl, rfl, rfl, rfl, fun at_ => absurd at_ listed⟩
      h.untouched h.marked h.committed h.token rfl
  | commitNothing running nothing =>
    exact h.write running ⟨rfl, rfl, rfl, rfl, rfl, fun _ => rfl⟩
      (fun _ => neverReachedGmail_of_done rfl) (fun executing => by cases executing) (fun _ => isFinal_of_done rfl)
      (fun _ => List.cons_ne_nil _ _) rfl
  | markExecuting deleteUndo running ok =>
    refine h.write running ⟨rfl, rfl, rfl, rfl, rfl, fun _ => rfl⟩
      (fun _ => by simp [World.markExecuting, neverReachedGmail]) (fun _ => ?_)
      (fun there => absurd running.activityLog there)
      (fun issued => absurd (token running) issued) rfl
    exact ⟨_, List.mem_cons_self ..⟩
  | missed first refused running ok =>
    exact h.frame rfl rfl rfl (fun _ => .inr ok.reached) (by simp [World.record])
  | send first ids running ok scope =>
    exact h.frame rfl rfl rfl (fun _ => .inr ok.reached) (by simp [World.send])
  | resetQueued untouched =>
    unfold World.resetQueued
    split_ifs with executing
    · have open_ : isFinal w.forward = false := by
        simp [isFinal, failedForGood, executing]
      exact ⟨h.same.trans ⟨rfl, rfl, rfl, rfl, rfl, fun _ => rfl⟩, h.forward,
        fun there => absurd there untouched, (fun executing => by cases executing),
        fun there => absurd (h.committed there) (by simp [open_]), h.token,
        fun job there => (h.reverse job there).drift rfl rfl rfl rfl (.refl job)⟩
    · exact h
  | commitForward payload running ok =>
    exact h.write running ⟨rfl, rfl, rfl, rfl, rfl, fun _ => rfl⟩
      (fun _ => neverReachedGmail_of_done rfl) (fun executing => by cases executing) (fun _ => isFinal_of_done rfl)
      (fun _ => List.cons_ne_nil _ _) rfl
  | markReverse =>
    refine ⟨h.same, h.forward, h.untouched, h.marked, h.committed, h.token, fun job there => ?_⟩
    obtain ⟨job', before, rfl⟩ := Option.map_eq_some_iff.mp there
    exact (h.reverse job' before).drift rfl rfl rfl rfl ⟨rfl, rfl, rfl, rfl, rfl⟩
  | sendReverse ids job token group _ _ _ _ => exact h.frame rfl rfl rfl .inl id
  | commitReverse job token groups there _ _ =>
    refine ⟨h.same, h.forward, h.untouched, h.marked, fun logged => h.committed fun empty => ?_,
      fun issued empty => h.token issued ?_, fun job there => ?_⟩
    · simp [World.commitReverse, empty] at logged
    · simpa [World.commitReverse] using empty
    · obtain ⟨job', before, rfl⟩ := Option.map_eq_some_iff.mp there
      exact (h.reverse job' before).drift rfl rfl rfl rfl ⟨rfl, rfl, rfl, rfl, rfl⟩

end DeclutrMail.LabelAction
