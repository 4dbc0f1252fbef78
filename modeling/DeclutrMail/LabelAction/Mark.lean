import DeclutrMail.LabelAction.Interference

/-!
# The checks and the mark of a forward delivery

Until the first request a delivery has `started`; from the mark on it is `sending`; an attempt
that stops early is `halted`, and may still know that Gmail applied nothing.
-/

namespace DeclutrMail.LabelAction

open Interleaving Discipline Batches

variable {u : UserLabels} {S : Scope} {root job : ActionJob} {t : Delivery} {w : World}
  {ids chunk sofar : List MessageId} {change : LabelChange} {deleteUndo : Option DeleteUndo}
  {subject : Option ProtectionSubject} {startingCustom first : Bool}

/-! ## Phases -/

def started (job : ActionJob) (ids : List MessageId) (deleteUndo : Option DeleteUndo) :
    Local u S root := ((attempting job ids deleteUndo).and (unsent job)).and (inScope job ids)

def sending (job : ActionJob) (ids : List MessageId) (deleteUndo : Option DeleteUndo) :
    Local u S root := (attempting job ids deleteUndo).and reached

structure HaltedAt (job : ActionJob) (untouched : Prop) (w : World) : Prop where
  attempt : ∃ ids deleteUndo, AttemptAt job ids deleteUndo w
  unsent : untouched → neverReachedGmail job = true → ¬MaybeApplied w.log

def halted (job : ActionJob) (untouched : Prop) : Local u S root where
  holds := HaltedAt job untouched
  stable := by
    rintro w w' ⟨⟨ids, deleteUndo, h⟩, unsent⟩ b
    refine ⟨⟨ids, deleteUndo, h.background b⟩, ?_⟩
    rw [b.log]
    exact unsent

/-- The entry that must come before a request is there. -/
def cleared (first : Bool) : Local u S root where
  holds w := S.confirmed = false → Justified w.log (.sent first false)
  stable := by
    intro w w' h b
    rw [b.log]
    exact h

/-- The errors after which an attempt may still be untouched. -/
def sparesGmail (e : ActionError) : Prop :=
  e = .senderProtectedAtSend ∨ isRefusedBeforeApply e = true

theorem halted_of_started (untouched : Prop) (h : (started job ids deleteUndo : Local u S root) w) :
    (halted job untouched : Local u S root) w := ⟨⟨_, _, h.1.1⟩, fun _ => h.1.2⟩

theorem HaltedAt.mono {untouched untouched' : Prop} (h : HaltedAt job untouched w)
    (le : untouched' → untouched) : HaltedAt job untouched' w := ⟨h.attempt, fun g => h.unsent (le g)⟩

/-! ## Checks -/

/-- The re-check of a delivery is about the sender of the job, and is left out only with the
user's consent. -/
structure Watches (S : Scope) (root : ActionJob) (subject : Option ProtectionSubject) : Prop where
  own : ∀ s, subject = some s → protectionSubject root false = some s
  always : S.confirmed = false → subject = protectionSubject root false

theorem Inv.jobIsProtected (h : Inv root w) :
    w.jobIsProtected = (protectionSubject root false).any w.subjectIsProtected := by
  rw [World.jobIsProtected, h.same.protectionSubject]

/-- An assertion that a re-check in the log does not disturb. -/
def Loggable (P : Local u S root) : Prop := ∀ w b, P w → P (w.record (.reread b))

theorem AttemptAt.record (h : AttemptAt job ids deleteUndo w) (b : Bool) :
    AttemptAt job ids deleteUndo (w.record (.reread b)) :=
  ⟨⟨h.running.status, h.running.activityLog⟩, h.ids, h.deleteUndo,
    fun reached => everMarked_cons.mpr (.inr (h.marked reached))⟩

theorem loggable_started : Loggable (started job ids deleteUndo : Local u S root) := by
  intro w b ⟨⟨h, unsent⟩, scope⟩
  refine ⟨⟨h.record b, fun untouched => ?_⟩, fun custom isRoot => ?_⟩
  · simpa [World.record] using unsent untouched
  · exact (scope custom isRoot).imp_left fun marked => everMarked_cons.mpr (.inr marked)

theorem loggable_halted (untouched : Prop) :
    Loggable (halted job untouched : Local u S root) := by
  rintro w b ⟨⟨ids, deleteUndo, h⟩, unsent⟩
  refine ⟨⟨ids, deleteUndo, h.record b⟩, fun g never => ?_⟩
  simpa [World.record] using unsent g never

theorem loggable_sending_landed :
    Loggable ((sending job ids deleteUndo).and (landed sofar change) : Local u S root) := by
  intro w b ⟨⟨h, reached⟩, landed⟩
  exact ⟨⟨h.record b, reached.1, everMarked_cons.mpr (.inr reached.2)⟩, landed⟩

theorem does_subjectIsProtected {P : Local u S root} {s : ProtectionSubject}
    (own : protectionSubject root false = some s) (records : Loggable P) :
    Does u S root t P (await (.subjectIsProtected s))
      (fun isProtected => P.and (lastLogged (.reread isProtected))) fun _ => P := by
  refine writes (fun _ _ => rfl) (fun w inv known f a w' took => ?_) fun w _ known _ _ => known
  obtain ⟨rfl, rfl⟩ := Prod.mk.inj (Option.some.inj took)
  refine ⟨⟨rfl, .inr (.reread w)⟩, ⟨records w _ known, ?_⟩, fun e _ => records w _ known⟩
  simp [lastLogged, World.record, inv.jobIsProtected, own]

theorem does_assertNotProtected {P : Local u S root} {s : ProtectionSubject}
    (own : protectionSubject root false = some s) (records : Loggable P) :
    Does u S root t P (assertNotProtected s)
      (fun _ => P.and (lastLogged (.reread false))) fun _ => P := by
  refine Does.bind (does_subjectIsProtected own records) fun isProtected => ?_
  refine Does.when (fun _ => Does.failed fun w _ h => h.1) fun free w _ h => ?_
  rw [free] at h
  exact h

theorem does_customStartPredicate (P : Local u S root) :
    Does u S root t P customStartPredicate (fun _ => P) fun _ => P := by
  refine Does.bind (B := fun _ => P) (passes (fun _ _ => rfl) ?_) fun gate => ?_
  · intro w f a w' took
    exact (Prod.mk.inj (Option.some.inj took)).2.symm
  · cases gate with
    | pass => exact Does.done fun w _ h => h
    | blocked block => exact Does.failed fun w _ h => h
    | quiet => exact Does.failed fun w _ h => h
    | invalid => exact Does.failed fun w _ h => h

theorem does_getClient (P : Local u S root) :
    Does u S root t P (await .getClient) (fun _ => P) fun _ => P :=
  passes (fun _ _ => rfl) fun _ _ _ _ took => (Prod.mk.inj (Option.some.inj took)).2.symm

theorem does_acquireQuota (P : Local u S root) :
    Does u S root t P (await .acquireQuota) (fun _ => P) fun _ => P :=
  passes (fun _ _ => rfl) fun _ _ _ _ took => (Prod.mk.inj (Option.some.inj took)).2.symm

theorem does_resolveLabel (P : Local u S root) (label : Label) :
    Does u S root t P (resolveLabel label)
      (fun id => P.and (.fact (id = u.resolve label))) fun _ => P := by
  unfold resolveLabel
  split_ifs with known
  · exact Does.done fun w _ h => ⟨h, by simp [UserLabels.resolve, known]⟩
  · refine reads (fun _ _ => rfl) (fun w _ h f a w' took => ?_) fun w _ h _ _ => h
    obtain ⟨rfl, rfl⟩ := Prod.mk.inj (Option.some.inj took)
    have same : u.id label = u.resolve label := by simp [UserLabels.resolve, known]
    exact ⟨rfl, h, same⟩

theorem does_resolveAll (P : Local u S root) (labels : List Label) :
    Does u S root t P (resolveAll labels)
      (fun ids => P.and (.fact (ids = labels.map u.resolve))) fun _ => P := by
  induction labels with
  | nil => exact Does.done fun w _ h => ⟨h, rfl⟩
  | cons label labels ih =>
    refine Does.bind (does_resolveLabel P label) fun id => ?_
    refine Does.of_fact (fun w _ h => h.2) fun resolved => ?_
    refine Does.bind (ih.pre fun w _ h => h.1) fun ids => ?_
    refine Does.done fun w _ h => ⟨h.1, ?_⟩
    rw [Assertion.fact_holds, List.map_cons, resolved, h.2]

theorem does_resolveLabelChange (P : Local u S root) (change : LabelChange) :
    Does u S root t P (resolveLabelChange change)
      (fun resolved => P.and (.fact (resolved = change.resolved u))) fun _ => P := by
  refine Does.bind (does_resolveAll P _) fun add => ?_
  refine Does.of_fact (fun w _ h => h.2) fun added => ?_
  refine Does.bind ((does_resolveAll P _).pre fun w _ h => h.1) fun remove => ?_
  refine Does.done fun w _ h => ⟨h.1, ?_⟩
  rw [Assertion.fact_holds, LabelChange.resolved, added, h.2]

/-! ## The mark -/

/-- What a delivery read of its row still stands in the row. -/
theorem Inv.same_job (h : Inv root w) (same : SameJob root job) : SameJob job w.forward :=
  same.symm.trans h.same

theorem does_storedOrThrow {P : Local u S root} :
    Does u S root t P (storedOrThrow job ids)
      (fun stored => P.and (.fact (storedDeleteUndo job.deleteUndo ids = .ok stored)))
      fun _ => P := by
  unfold storedOrThrow
  cases read : storedDeleteUndo job.deleteUndo ids with
  | error _ => exact Does.failed fun w _ h => h
  | ok stored => exact Does.done fun w _ h => ⟨h, rfl⟩

theorem does_prepareDeleteUndo (same : SameJob root job) :
    Does u S root t (started job ids job.deleteUndo) (prepareDeleteUndo job ids)
      (fun snapshot => (started job ids job.deleteUndo).and (placement snapshot))
      fun _ => started job ids job.deleteUndo := by
  unfold prepareDeleteUndo
  split_ifs with stored
  · refine Does.bind does_storedOrThrow fun before => ?_
    refine Does.done fun w inv ⟨h, read⟩ => ⟨h, .inr ⟨?_, before, ?_, ?_⟩⟩
    · rw [(inv.same_job same).recoveryAttempt]
      simp only [Bool.or_eq_true, decide_eq_true_eq, Bool.not_eq_true'] at stored
      exact stored.imp_right h.1.1.marked
    · rw [h.1.1.ids, h.1.1.deleteUndo]
      exact read
    · rw [h.1.1.ids]
  · refine Does.bind
      (B := fun inbox => (started job ids job.deleteUndo).and (placement ⟨ids, some inbox⟩)) ?_
      fun inbox => Does.done fun w _ h => h
    refine reads (fun _ _ => rfl) (fun w _ h f a w' took => ?_) fun w _ h _ _ => h
    obtain ⟨rfl, rfl⟩ := Prod.mk.inj (Option.some.inj took)
    refine ⟨rfl, h, .inl ⟨ids.filter w.hasInbox, by rw [h.1.1.ids], fun m mem calm => ?_⟩⟩
    rw [h.1.1.ids] at mem
    simp [mem]

/-- The placement to be stored with the mark. -/
def placementFor (verb : ActionVerb) (deleteUndo : Option DeleteUndo) : Local u S root where
  holds w := (verb = .delete → ∃ snapshot, deleteUndo = some snapshot ∧ PlacementOk S w snapshot) ∧
    (verb ≠ .delete → deleteUndo = none)
  stable := by
    rintro w w' ⟨h, otherwise⟩ b
    refine ⟨fun delete => ?_, otherwise⟩
    obtain ⟨snapshot, same, ok⟩ := h delete
    exact ⟨snapshot, same, ok.background b⟩

theorem does_deleteUndoToStore (same : SameJob root job) :
    Does u S root t (started job ids job.deleteUndo) (deleteUndoToStore job ids)
      (fun toStore => (started job ids job.deleteUndo).and (placementFor root.verb toStore))
      fun _ => started job ids job.deleteUndo := by
  unfold deleteUndoToStore
  split_ifs with delete
  · refine Does.bind (does_prepareDeleteUndo same) fun snapshot => ?_
    refine Does.done fun w _ h => ⟨h.1, fun _ => ⟨snapshot, rfl, h.2⟩, fun other => ?_⟩
    exact absurd (same.verb.symm.trans delete) other
  · refine Does.done fun w _ h => ⟨h, fun yes => ?_, fun _ => rfl⟩
    exact absurd (same.verb.trans yes) delete

theorem does_explainUnmarked {P : Local u S root} (gated : Bool) (watches : Watches S root subject)
    (records : Loggable P) :
    Does u S root t P (explainUnmarked subject gated) (fun _ => .fact False) fun _ => P := by
  have gate : Does u S root t P explainGate (fun _ => .fact False) fun _ => P :=
    Does.bind (does_customStartPredicate P) fun _ => Does.failed fun w _ h => h
  unfold explainUnmarked
  cases subject with
  | none =>
    cases gated with
    | false => exact Does.failed fun w _ h => h
    | true => exact gate
  | some s =>
    cases gated with
    | false => exact Does.failed fun w _ h => h
    | true =>
      refine Does.bind (does_assertNotProtected (watches.own s rfl) records) fun _ => ?_
      exact gate.pre fun w _ h => h.1

/-- The statement of the mark. -/
theorem does_mark (same : SameJob root job) (watches : Watches S root subject)
    (some_ : ids ≠ []) (gated : Bool) (toStore : Option DeleteUndo) :
    Does u S root t
      ((started job ids job.deleteUndo).and (placementFor root.verb toStore))
      (await (.markExecuting subject gated toStore))
      (fun marked =>
        if marked then ((sending job ids (toStore.or job.deleteUndo)).and (unsent job)).and
          (cleared true)
        else started job ids job.deleteUndo)
      fun _ => halted job True := by
  refine writes (fun _ _ => rfl) (fun w inv h f a w' took => ?_)
    fun w _ h _ _ => halted_of_started True h.1
  obtain ⟨⟨⟨attempt, unsent⟩, scope⟩, placed⟩ := h
  have row := inv.same_job same
  simp only [effect] at took
  split_ifs at took with refused
  · obtain ⟨rfl, rfl⟩ := Prod.mk.inj (Option.some.inj took)
    exact ⟨.refl w, ⟨⟨attempt, unsent⟩, scope⟩, fun e _ => ⟨⟨_, _, attempt⟩, fun _ => unsent⟩⟩
  · obtain ⟨rfl, rfl⟩ := Prod.mk.inj (Option.some.inj took)
    have free : S.confirmed = false → w.jobIsProtected = false := by
      intro unconfirmed
      rw [inv.jobIsProtected, ← watches.always unconfirmed]
      exact Bool.eq_false_iff.mpr fun shown => refused (by simp [shown])
    have ok : MarkOk S w toStore := by
      constructor
      · rwa [attempt.ids]
      · intro custom isRoot
        rw [attempt.ids]
        refine (scope (row.customAutopilot.symm.trans custom)
          (row.recoveryAttempt.symm.trans isRoot)).imp_right fun eligible => eligible
      · intro delete
        exact placed.1 (inv.same.verb.symm.trans delete)
      · intro other
        exact placed.2 fun delete => other (inv.same.verb.trans delete)
      · exact free
    have untouched : neverReachedGmail job = true →
        ¬MaybeApplied (w.markExecuting toStore).log := by
      intro never
      simpa [World.markExecuting] using unsent never
    have after : AttemptAt job ids (toStore.or job.deleteUndo) (w.markExecuting toStore) :=
      ⟨⟨by simp [World.markExecuting], attempt.running.activityLog⟩, attempt.ids,
        by rw [← attempt.deleteUndo]; rfl, fun _ => ⟨_, List.mem_cons_self ..⟩⟩
    refine ⟨⟨rfl, .inr (.markExecuting w toStore attempt.running ok)⟩,
      ⟨⟨⟨after, ?_⟩, untouched⟩, fun unconfirmed => ?_⟩, fun e _ => ⟨⟨_, _, after⟩, fun _ => untouched⟩⟩
    · exact ⟨by simp [World.markExecuting, neverReachedGmail], _, List.mem_cons_self ..⟩
    · simp [Justified, World.markExecuting, free unconfirmed]

theorem does_markExecuting (same : SameJob root job) (watches : Watches S root subject)
    (some_ : ids ≠ []) (gated : Bool) :
    Does u S root t (started job ids job.deleteUndo) (markExecuting job ids subject gated)
      (fun deleteUndo =>
        ((sending job ids deleteUndo).and (unsent job)).and (cleared true))
      fun _ => halted job True := by
  refine Does.bind ((does_deleteUndoToStore same).fails fun _ w _ h => halted_of_started True h)
    fun toStore => Does.bind (does_mark same watches some_ gated toStore) fun marked => ?_
  cases marked with
  | false =>
    refine Does.bind (B := fun _ => .fact False) ?_ fun _ => ?_
    · exact (does_explainUnmarked gated watches loggable_started).fails
        fun _ w _ h => halted_of_started True h
    · exact Does.done fun w _ h => h.elim
  | true => exact Does.done fun w _ h => h

end DeclutrMail.LabelAction
