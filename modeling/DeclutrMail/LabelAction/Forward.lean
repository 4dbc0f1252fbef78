import DeclutrMail.LabelAction.Attempt

/-!
# How a forward delivery ends

The stops, the terminal transactions, and the whole of `executeForward`.
-/

namespace DeclutrMail.LabelAction

open Interleaving Discipline Batches

variable {u : UserLabels} {S : Scope} {root job : ActionJob} {t : Delivery} {w : World}
  {ids : List MessageId} {deleteUndo : Option DeleteUndo} {subject : Option ProtectionSubject}
  {startingCustom : Bool}

/-! ## Stops -/

theorem openIfBlocked_of_external {e : ActionError} (h : e.external = true) (w : World) :
    (openIfBlocked e : Local u S root) w := by
  rintro ⟨block, rfl⟩
  simp [ActionError.external] at h

/-- The request that ends a job. -/
theorem ends {q : Request} {P : Local u S root} (silent : ∀ e w, missed e w q = w)
    (go : ∀ w, Inv root w → P w → ∀ f a w', effect u t f w q = some (a, w') → Steps u S w w') :
    Does u S root t P (await q) (fun _ => anything) openIfBlocked :=
  writes silent
    (fun w inv known f a w' took =>
      ⟨go w inv known f a w' took, trivial, fun _ h => openIfBlocked_of_external h w'⟩)
    fun w _ _ _ h => openIfBlocked_of_external h w

theorem does_recordRecoveryProtected :
    Does u S root t underWay recordRecoveryProtected (fun _ => anything) openIfBlocked := by
  refine Does.bind (B := fun _ => anything) (ends (fun _ _ => rfl) ?_) fun _ =>
    Does.done fun _ _ h => h
  intro w _ running f a w' took
  obtain ⟨rfl, rfl⟩ := Prod.mk.inj (Option.some.inj took)
  exact ⟨rfl, .inr (.stop w running)⟩

theorem does_stopProtected (same : SameJob root job) (landed : ℕ) :
    Does u S root t (halted job (landed = 0)) (stopProtected job landed) (fun _ => anything)
      openIfBlocked := by
  have recovery : Does u S root t (halted job (landed = 0)) recordRecoveryProtected
      (fun _ => anything) openIfBlocked := by
    refine does_recordRecoveryProtected.pre fun w _ h => ?_
    obtain ⟨⟨_, _, attempt⟩, _⟩ := h
    exact attempt.running
  unfold stopProtected recordProtected
  split_ifs with untouched reviewed
  · exact recovery
  · refine Does.bind (B := fun _ => anything) (ends (fun _ _ => rfl) ?_) fun _ =>
      Does.done fun _ _ h => h
    intro w inv ⟨⟨_, _, attempt⟩, unsent⟩ f a w' took
    obtain ⟨rfl, rfl⟩ := Prod.mk.inj (Option.some.inj took)
    have isRoot : w.forward.recoveryAttempt = 0 := by
      rw [(inv.same_job same).recoveryAttempt]
      omega
    exact ⟨rfl, .inr (.skip w attempt.running isRoot (unsent untouched.1 untouched.2))⟩
  · exact recovery

theorem does_resetQueued {untouched : Prop} (never : neverReachedGmail job = true)
    (known : untouched) :
    Does u S root t (halted job untouched) (await .resetQueued) (fun _ => halted job untouched)
      openIfBlocked := by
  refine writes (fun _ _ => rfl) (fun w inv h f a w' took => ?_)
    fun w _ _ _ h => openIfBlocked_of_external h w
  obtain ⟨rfl, rfl⟩ := Prod.mk.inj (Option.some.inj took)
  have clean : ¬MaybeApplied w.log := h.unsent known never
  refine ⟨⟨?_, .inr (.resetQueued w clean)⟩, ?_, fun e h => openIfBlocked_of_external h _⟩
  · unfold World.resetQueued
    split_ifs <;> rfl
  · obtain ⟨⟨ids, deleteUndo, attempt⟩, unsent⟩ := h
    unfold World.resetQueued
    split_ifs with executing
    · exact ⟨⟨ids, deleteUndo, ⟨⟨nofun, attempt.running.activityLog⟩, attempt.ids,
        attempt.deleteUndo, attempt.marked⟩⟩, unsent⟩
    · exact ⟨⟨ids, deleteUndo, attempt⟩, unsent⟩

theorem does_sendFailed (same : SameJob root job) (landed : ℕ) (err : ActionError) :
    Does u S root t (halted job (landed = 0 ∧ sparesGmail err)) (sendFailed job landed err)
      (fun _ => anything) openIfBlocked := by
  unfold sendFailed
  split_ifs with stopped
  · exact (does_stopProtected same landed).pre fun w _ h => h.mono fun zero => ⟨zero, .inl stopped⟩
  · refine Does.bind (B := fun _ => halted job (landed = 0 ∧ sparesGmail err)) ?_ fun _ => ?_
    · refine Does.when (fun refused => ?_) fun _ w _ h => h
      simp only [Bool.and_eq_true, decide_eq_true_eq] at refused
      exact does_resetQueued refused.1.1 ⟨refused.1.2, .inr refused.2⟩
    · refine Does.failed fun w _ h _ => ?_
      obtain ⟨⟨_, _, attempt⟩, _⟩ := h
      exact attempt.running

/-! ## The terminal transactions -/

theorem does_undoExpiresAt (P : Local u S root) :
    Does u S root t P (await .undoExpiresAt) (fun _ => P) fun _ => P :=
  passes (fun _ _ => rfl) fun _ _ _ _ took => (Prod.mk.inj (Option.some.inj took)).2.symm

theorem does_inboxPlacement {P : Local u S root} :
    Does u S root t P (inboxPlacement job ids)
      (fun inbox => P.and (.fact (job.verb = .delete → ∃ stored,
        storedDeleteUndo job.deleteUndo ids = .ok stored ∧
          inbox = stored.bind (·.inboxMessageIds)))) fun _ => P := by
  unfold inboxPlacement
  split_ifs with delete
  · refine Does.bind does_storedOrThrow fun stored => ?_
    exact Does.done fun w _ h => ⟨h.1, fun _ => ⟨stored, h.2, rfl⟩⟩
  · exact Does.done fun w _ h => ⟨h, fun yes => absurd yes delete⟩

theorem does_commitForward (same : SameJob root job) (some_ : ids ≠ []) :
    Does u S root t ((sending job ids deleteUndo).and (landed ids (forwardChange u root)))
      (commitForward job deleteUndo ids (forwardChange u root)) (fun _ => anything)
      openIfBlocked := by
  have opened : ∀ (e : ActionError) w, Inv root w →
      ((sending job ids deleteUndo).and (landed ids (forwardChange u root)) : Local u S root) w →
        (openIfBlocked e : Local u S root) w := fun _ w _ h _ => h.1.1.running
  refine Does.bind (B := fun _ =>
    (sending job ids deleteUndo).and (landed ids (forwardChange u root))) ?_ fun _ => ?_
  · exact (does_undoExpiresAt _).fails opened
  · refine Does.bind (does_inboxPlacement.fails opened) fun inbox => ?_
    refine Does.bind (B := fun _ => anything) (ends (fun _ _ => rfl) ?_) fun _ =>
      Does.done fun _ _ h => h
    intro w inv ⟨⟨⟨attempt, reached⟩, landed⟩, stored⟩ f a w' took
    obtain ⟨rfl, rfl⟩ := Prod.mk.inj (Option.some.inj took)
    have row := inv.same_job same
    have change : forwardChange u w.forward = forwardChange u root := by
      rw [forwardChange, inv.same.verb, forwardChange]
    have ok : CommitOk u S w (buildUndoPayload job.verb ids inbox job.reach) := by
      refine ⟨by rwa [attempt.ids], reached.2, by rwa [attempt.ids, change], inbox, ?_, ?_⟩
      · rw [row.verb, attempt.ids, row.reach]
      · intro delete
        rw [attempt.deleteUndo, attempt.ids]
        exact stored (row.verb.symm.trans delete)
    have act := Act.commitForward (u := u) w _ attempt.running ok
    rw [attempt.ids, change] at act
    exact ⟨rfl, .inr act⟩

/-! ## The durable ids -/

/-- A delivery that has read its row. -/
def begun (job : ActionJob) : Local u S root :=
  (attempting job job.resolvedMessageIds job.deleteUndo).and (unsent job)

theorem loggable_begun : Loggable (begun job : Local u S root) := by
  intro w b ⟨h, unsent⟩
  refine ⟨h.record b, fun untouched => ?_⟩
  simpa [World.record] using unsent untouched

theorem does_persistIds
    (scope : ∀ w, Inv root w → (begun job : Local u S root) w →
      (customAutopilot w.forward = true ∧ w.forward.recoveryAttempt = 0 ∧
        (∀ m ∈ ids, m ∈ w.forward.resolvedMessageIds) ∧ ¬MaybeApplied w.log) ∨
      (customAutopilot w.forward = false ∧ w.forward.selector ≠ .messages ∧
        w.forward.resolvedMessageIds = [])) :
    Does u S root t ((begun job).and (eligible ids)) (await (.persistIds ids))
      (fun _ => started job ids job.deleteUndo) fun _ => underWay := by
  refine writes (fun _ _ => rfl) (fun w inv h f a w' took => ?_) fun w _ h _ _ => h.1.1.running
  obtain ⟨rfl, rfl⟩ := Prod.mk.inj (Option.some.inj took)
  obtain ⟨⟨attempt, unsent⟩, eligible⟩ := h
  have running : (w.persistIds ids).Running := ⟨attempt.running.status, attempt.running.activityLog⟩
  refine ⟨⟨rfl, .inr (.persistIds w ids attempt.running ⟨eligible, scope w inv ⟨attempt, unsent⟩⟩)⟩,
    ⟨⟨⟨running, rfl, attempt.deleteUndo, attempt.marked⟩, unsent⟩, fun _ _ => .inr eligible⟩,
    fun _ _ => running⟩

theorem does_executionSet (same : SameJob root job)
    (starting : startingCustom = (customAutopilot job && decide (job.recoveryAttempt = 0) &&
      neverReachedGmail job)) :
    Does u S root t (begun job) (executionSet job startingCustom)
      (fun ids => started job ids job.deleteUndo) fun _ => underWay := by
  have opened : ∀ w, Inv root w → (begun job : Local u S root) w →
      (underWay : Local u S root) w := fun w _ h => h.1.running
  unfold executionSet
  split_ifs with custom fresh
  · rw [starting] at custom
    simp only [Bool.and_eq_true, decide_eq_true_eq] at custom
    refine Does.bind (B := fun ids => ((begun job).and (eligible ids)).and
      (.fact (∀ m ∈ ids, m ∈ job.resolvedMessageIds))) ?_ fun ids => ?_
    · refine reads (fun _ _ => rfl) (fun w _ h f a w' took => ?_) fun w inv h _ _ => opened w inv h
      obtain ⟨rfl, rfl⟩ := Prod.mk.inj (Option.some.inj took)
      refine ⟨rfl, ⟨h, fun m mem _ => ?_⟩, fun m mem => ?_⟩
      · obtain ⟨-, found⟩ := List.mem_filter.mp mem
        simp only [Bool.and_eq_true, decide_eq_true_eq] at found
        obtain ⟨row, there, ok⟩ := (Option.any_eq_true _ _).mp found.1
        simp only [customWhere, Bool.and_eq_true] at ok
        exact (Option.any_eq_true _ _).mpr ⟨row, there, ok.1⟩
      · exact mem_distinct.mp (List.mem_filter.mp mem).1
    · refine Does.of_fact (fun w _ h => h.2) fun narrowed => ?_
      refine Does.bind ((does_persistIds fun w inv h => .inl ?_).pre fun w _ h => h.1) fun _ =>
        Does.done fun w _ h => h
      have row := inv.same_job same
      refine ⟨row.customAutopilot.trans custom.1.1, row.recoveryAttempt.trans custom.1.2, ?_,
        h.2 custom.2⟩
      rw [h.1.ids]
      exact narrowed
  · simp only [Bool.and_eq_true, Bool.not_eq_true', List.isEmpty_iff, decide_eq_true_eq] at fresh
    refine Does.bind (B := fun ids => (begun job).and (eligible ids)) ?_ fun ids => ?_
    · refine reads (fun _ _ => rfl) (fun w _ h f a w' took => ?_) fun w inv h _ _ => opened w inv h
      simp only [effect] at took
      split_ifs at took with found
      obtain ⟨rfl, rfl⟩ := Prod.mk.inj (Option.some.inj took)
      exact ⟨rfl, h, fun m mem _ => found.2 m mem⟩
    · refine Does.bind (does_persistIds fun w inv h => .inr ?_) fun _ => Does.done fun w _ h => h
      have row := inv.same_job same
      exact ⟨row.customAutopilot.trans fresh.1.1, fun listed => fresh.2 (row.selector.symm.trans listed),
        h.1.ids.trans fresh.1.2⟩
  · refine Does.done fun w _ h => ⟨h, fun isCustom isRoot => .inl (h.1.marked ?_)⟩
    rw [starting] at custom
    simpa [isCustom, isRoot] using custom

/-! ## The whole of `executeForward` -/

theorem does_finishForward (same : SameJob root job) (some_ : ids ≠ []) (sent : Sent) :
    Does u S root t (loopEnd job ids sent.deleteUndo ids sent.failure)
      (finishForward job ids (forwardChange u root) sent) (fun _ => anything) openIfBlocked := by
  unfold finishForward
  cases hf : sent.failure with
  | none => exact does_commitForward same some_
  | some failure => exact does_sendFailed same failure.1 failure.2

/-- A job that has messages to change has a sender to watch. -/
theorem watched (watches : Watches S root subject) (some_ : ids ≠ []) (inv : Inv root w)
    (held : w.forward.resolvedMessageIds = ids) (unconfirmed : S.confirmed = false) :
    subject ≠ none := by
  rw [watches.always unconfirmed]
  unfold protectionSubject
  cases hs : root.selector with
  | sender senderKey autopilot => simp
  | messages =>
    have same := inv.same.messages hs
    have pos : root.resolvedMessageIds.length > 0 := by
      rw [← same, held]
      exact List.length_pos_of_ne_nil some_
    simp [pos]

theorem does_applyForward (same : SameJob root job) (watches : Watches S root subject) :
    Does u S root t (started job ids job.deleteUndo) (applyForward job subject startingCustom ids)
      (fun _ => anything) openIfBlocked := by
  have opened : ∀ (e : ActionError) w, Inv root w →
      (started job ids job.deleteUndo : Local u S root) w →
        (openIfBlocked e : Local u S root) w := fun _ w _ h _ => h.1.1.running
  unfold applyForward
  split_ifs with nothing
  · refine Does.bind (B := fun _ => anything) (ends (fun _ _ => rfl) ?_) fun _ =>
      Does.done fun _ _ h => h
    intro w inv h f a w' took
    obtain ⟨rfl, rfl⟩ := Prod.mk.inj (Option.some.inj took)
    exact ⟨rfl, .inr (.commitNothing w h.1.1.running (h.1.1.ids.trans nothing))⟩
  · refine Does.bind (B := fun _ => started job ids job.deleteUndo) ?_ fun _ => ?_
    · exact (does_getClient _).fails opened
    refine Does.bind ((does_resolveLabelChange _ _).fails opened) fun resolved => ?_
    refine Does.of_fact (fun w _ h => h.2) fun change => ?_
    rw [same.verb] at change
    refine Does.of_fact (fun w inv h => watched watches nothing inv h.1.1.1.ids) fun watched => ?_
    have covers : (batches gmailBatchModifyMaxIds ids).flatten = ids :=
      flatten_batches (by decide) ids
    have chunksIn : ∀ chunk ∈ batches gmailBatchModifyMaxIds ids, ∀ m ∈ chunk, m ∈ ids := by
      intro chunk mem m inChunk
      rw [← covers]
      exact List.mem_flatten.mpr ⟨chunk, mem, inChunk⟩
    subst change
    refine Does.bind ((does_sendAll same watches watched nothing covers chunksIn).pre fun w _ h => h.1)
      fun sent => ?_
    rw [covers]
    exact does_finishForward same nothing sent

theorem does_startForward (same : SameJob root job) (watches : Watches S root subject)
    (starting : startingCustom = (customAutopilot job && decide (job.recoveryAttempt = 0) &&
      neverReachedGmail job)) :
    Does u S root t (begun job) (startForward job subject startingCustom) (fun _ => anything)
      openIfBlocked := by
  refine Does.bind (B := fun _ => begun job) ?_ fun _ => ?_
  · refine Does.when (fun _ => ?_) fun _ w _ h => h
    exact (does_customStartPredicate _).fails fun e w _ h _ => h.1.running
  · refine Does.bind ((does_executionSet same starting).fails fun e w _ running _ => running)
      fun ids => ?_
    exact does_applyForward same watches

theorem watches_protectionSubject (same : SameJob root job) (c : Bool)
    (confirmed : S.confirmed = false → c = false) :
    Watches S root (protectionSubject job c) := by
  rw [same.protectionSubject]
  constructor
  · intro s is
    cases c with
    | false => exact is
    | true => simp [protectionSubject] at is
  · intro unconfirmed
    rw [confirmed unconfirmed]

theorem does_executeForward (same : SameJob root job) :
    Does u S root t (begun job) (executeForward job S.confirmed) (fun _ => anything)
      openIfBlocked := by
  have opened : ∀ (e : ActionError) w, Inv root w → (begun job : Local u S root) w →
      (openIfBlocked e : Local u S root) w := fun _ w _ h _ => h.1.running
  have refuse (c : Bool) : Does u S root t (begun job) (.when c (throw ActionError.validation))
      (fun _ => begun job) openIfBlocked :=
    Does.when (fun _ => Does.failed (opened _)) fun _ w _ h => h
  have watches := watches_protectionSubject (S := S) same
    (if customAutopilot job && decide (job.recoveryAttempt = 0) then false else S.confirmed)
    (by intro unconfirmed; split_ifs; exacts [rfl, unconfirmed])
  refine Does.bind (refuse _) fun _ => Does.bind (refuse _) fun _ => Does.bind (refuse _) fun _ => ?_
  refine Does.bind (B := fun _ => begun job) ?_ fun isProtected => ?_
  · unfold subjectIsProtected
    split
    · exact Does.done fun w _ h => h
    · rename_i s is
      refine ((does_subjectIsProtected (watches.own s is) loggable_begun).fails opened).post ?_
      exact fun _ w _ h => h.1
  · cases isProtected with
    | true => exact (does_stopProtected same 0).pre fun w _ h => ⟨⟨_, _, h.1⟩, fun _ => h.2⟩
    | false => exact does_startForward same watches rfl

theorem does_forwardFailed (err : ActionError) :
    Does u S root t (openIfBlocked err) (forwardFailed err) (fun _ => anything)
      fun _ => anything := by
  unfold forwardFailed
  split
  · refine Does.bind (B := fun _ => anything)
      ((ends (fun _ _ => rfl) ?_).fails fun _ _ _ _ => trivial) fun _ => Does.done fun _ _ h => h
    intro w _ h f a w' took
    obtain ⟨rfl, rfl⟩ := Prod.mk.inj (Option.some.inj took)
    exact ⟨rfl, .inr (.failBlocked w _ (h ⟨_, rfl⟩))⟩
  · refine Does.bind (B := fun _ => anything) ?_ fun _ => Does.done fun _ _ h => h
    refine (ends (fun _ _ => rfl) fun w _ _ f a w' took => ?_).fails fun _ _ _ _ => trivial
    obtain ⟨rfl, rfl⟩ := Prod.mk.inj (Option.some.inj took)
    exact .refl w
  · exact Does.failed fun _ _ _ => trivial

end DeclutrMail.LabelAction
