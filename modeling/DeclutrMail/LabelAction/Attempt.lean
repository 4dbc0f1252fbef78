import DeclutrMail.LabelAction.Mark

/-!
# A forward delivery keeps to the protocol

One specification for each part of `executeForward`, up to the terminal transaction.
-/

namespace DeclutrMail.LabelAction

open Interleaving Discipline Batches

variable {u : UserLabels} {S : Scope} {root job : ActionJob} {t : Delivery} {w : World}
  {ids chunk sofar : List MessageId} {change : LabelChange} {deleteUndo : Option DeleteUndo}
  {subject : Option ProtectionSubject} {startingCustom : Bool}

/-! ## Requests to Gmail -/

theorem justified_sent {log : List LogEntry} (h : Justified log (.sent first false))
    (refused : Bool) : Justified log (.sent first refused) := by
  cases first <;> exact h

/-- A request and what it may answer. `sofar` has landed before. -/
theorem does_send (first : Bool) (sofar : List MessageId) (chunkIn : ∀ m ∈ chunk, m ∈ ids) :
    Does u S root t
      (((sending job ids deleteUndo).and (cleared first)).and
        ((landed sofar (forwardChange u root)).and
          (.or (.fact (first = false)) (unsent job))))
      (await (.send first chunk (forwardChange u root)))
      (fun _ => (sending job ids deleteUndo).and (landed (sofar ++ chunk) (forwardChange u root)))
      fun e => halted job (first = true ∧ sparesGmail e) := by
  refine request (fun w inv h f a w' took => ?_) fun w inv h e fails => ?_
  · obtain ⟨⟨⟨attempt, reached, marked⟩, cleared⟩, before, -⟩ := h
    obtain ⟨rfl, rfl⟩ := Prod.mk.inj (Option.some.inj took)
    have change : forwardChange u w.forward = forwardChange u root := by
      rw [forwardChange, inv.same.verb, forwardChange]
    have ok : SendOk S w first false := ⟨reached, marked, cleared⟩
    have act := Act.send (u := u) w first chunk attempt.running ok
      (by rw [attempt.ids]; exact chunkIn)
    rw [change] at act
    have after : AttemptAt job ids deleteUndo (w.send first chunk (forwardChange u root)) :=
      ⟨⟨attempt.running.status, attempt.running.activityLog⟩, attempt.ids, attempt.deleteUndo,
        fun never => everMarked_cons.mpr (.inr (attempt.marked never))⟩
    refine ⟨⟨rfl, .inr act⟩,
      ⟨⟨after, reached, everMarked_cons.mpr (.inr marked)⟩, before.batchModify rfl⟩, ?_⟩
    rintro e loses
    refine ⟨⟨_, _, after⟩, fun ⟨_, spares⟩ => ?_⟩
    simp only [Request.mayLose, Bool.and_eq_true, Bool.not_eq_true'] at loses
    rcases spares with rfl | refused
    · simp [ActionError.external] at loses
    · simp [refused] at loses
  · obtain ⟨⟨⟨attempt, reached, marked⟩, cleared⟩, -, early⟩ := h
    have act := Act.missed (u := u) w first (isRefusedBeforeApply e) attempt.running
      ⟨reached, marked, fun unconfirmed => justified_sent (cleared unconfirmed) _⟩
    refine ⟨⟨rfl, .inr act⟩, ⟨ids, deleteUndo, ?_⟩, fun ⟨isFirst, spares⟩ never => ?_⟩
    · exact ⟨⟨attempt.running.status, attempt.running.activityLog⟩, attempt.ids,
        attempt.deleteUndo, fun g => everMarked_cons.mpr (.inr (attempt.marked g))⟩
    · have refused : isRefusedBeforeApply e = true := by
        rcases spares with rfl | refused
        · simp [Request.mayFail, ActionError.external] at fails
        · exact refused
      have untouched : ¬MaybeApplied w.log := by
        rcases early with later | unsent
        · exact absurd (isFirst.symm.trans later) (by decide)
        · exact unsent never
      simpa [missed, World.record, refused] using untouched

theorem does_checkCustomScope {P : Local u S root} :
    Does u S root t P (checkCustomScope ids) (fun _ => P) fun _ => P := by
  refine Does.bind (does_customStartPredicate P) fun _ => ?_
  refine Does.bind (B := fun _ => P) ?_ fun still => ?_
  · refine passes (fun _ _ => rfl) fun w f a w' took => ?_
    exact (Prod.mk.inj (Option.some.inj took)).2.symm
  · exact Does.when (fun _ => Does.failed fun w _ h => h) fun _ w _ h => h

theorem does_sendFirst (same : SameJob root job) (watches : Watches S root subject)
    (some_ : ids ≠ []) (chunkIn : ∀ m ∈ chunk, m ∈ ids) :
    Does u S root t (started job ids job.deleteUndo)
      (sendFirst job ids chunk (forwardChange u root) subject startingCustom)
      (fun deleteUndo => (sending job ids deleteUndo).and (landed chunk (forwardChange u root)))
      fun e => halted job (sparesGmail e) := by
  have early : ∀ e w, Inv root w → (started job ids job.deleteUndo : Local u S root) w →
      (halted job (sparesGmail e) : Local u S root) w := fun e w _ => halted_of_started _
  refine Does.bind ((does_acquireQuota _).fails early) fun _ => ?_
  refine Does.bind (B := fun deleteUndo =>
    ((sending job ids deleteUndo).and (unsent job)).and (cleared true)) ?_ fun deleteUndo => ?_
  · refine Does.bind (B := fun _ => started job ids job.deleteUndo) ?_ fun _ => ?_
    · exact Does.when (fun _ => does_checkCustomScope.fails early) fun _ w _ h => h
    · exact (does_markExecuting same watches some_ startingCustom).fails
        fun e w _ h => h.mono fun _ => trivial
  · refine Does.bind (B := fun _ =>
      (sending job ids deleteUndo).and (landed chunk (forwardChange u root))) ?_
      fun _ => Does.done fun w _ h => h
    refine (does_send true [] chunkIn).consequence
      (fun w _ h => ?_) (fun _ w _ h => h) fun e w _ h => h.mono fun spares => ⟨rfl, spares⟩
    exact ⟨⟨h.1.1, h.2⟩, fun m mem => absurd mem (List.not_mem_nil), .inr h.1.2⟩

theorem does_recheck (watches : Watches S root subject) (watched : S.confirmed = false →
    subject ≠ none) {P : Local u S root} (records : Loggable P) :
    Does u S root t P (recheck subject) (fun _ => P.and (cleared false)) fun _ => P := by
  cases subject with
  | none =>
    refine Does.done fun w _ h => ⟨h, fun unconfirmed => ?_⟩
    exact absurd rfl (watched unconfirmed)
  | some s =>
    refine (does_assertNotProtected (watches.own s rfl) records).post fun _ w _ h => ?_
    exact ⟨h.1, fun _ => h.2⟩

theorem does_sendLater (watches : Watches S root subject)
    (watched : S.confirmed = false → subject ≠ none) (chunkIn : ∀ m ∈ chunk, m ∈ ids) :
    Does u S root t ((sending job ids deleteUndo).and (landed sofar (forwardChange u root)))
      (sendLater chunk (forwardChange u root) subject)
      (fun _ => (sending job ids deleteUndo).and (landed (sofar ++ chunk) (forwardChange u root)))
      fun _ => halted job False := by
  have early : ∀ (e : ActionError) w, Inv root w →
      ((sending job ids deleteUndo).and (landed sofar (forwardChange u root)) :
        Local u S root) w → (halted job False : Local u S root) w :=
    fun _ w _ h => ⟨⟨_, _, h.1.1⟩, False.elim⟩
  refine Does.bind ((does_acquireQuota _).fails early) fun _ => ?_
  refine Does.bind ((does_recheck watches watched loggable_sending_landed).fails early) fun _ => ?_
  refine (does_send false sofar chunkIn).consequence
    (fun w _ h => ⟨⟨h.1.1, h.2⟩, h.1.2, .inl rfl⟩) (fun _ w _ h => h)
    fun e w _ h => h.mono False.elim

/-! ## The send loop -/

theorem does_attempt {α : Type} {P : Local u S root} {p : Program Sig α}
    {B : α → Local u S root} {E E' : ActionError → Local u S root}
    (h : Does u S root t P p B E) :
    Does u S root t P (attempt p)
      (fun r => match r with
        | .ok a => B a
        | .error e => E e) E' :=
  Does.tryCatch (Does.bind h fun _ => Does.done fun _ _ h => h)
    fun _ => Does.done fun _ _ h => h

/-- What the send loop leaves, by how it ended. -/
def loopEnd (job : ActionJob) (ids : List MessageId) (deleteUndo : Option DeleteUndo)
    (sent : List MessageId) : Option (ℕ × ActionError) → Local u S root
  | none => (sending job ids deleteUndo).and (landed sent (forwardChange u root))
  | some (landed, e) => halted job (landed = 0 ∧ sparesGmail e)

theorem does_sendRest (watches : Watches S root subject)
    (watched : S.confirmed = false → subject ≠ none) {E : ActionError → Local u S root}
    {chunks : List (List MessageId)} (chunksIn : ∀ chunk ∈ chunks, ∀ m ∈ chunk, m ∈ ids)
    {n : ℕ} (some_ : 0 < n) :
    Does u S root t ((sending job ids deleteUndo).and (landed sofar (forwardChange u root)))
      (sendRest (forwardChange u root) subject n chunks)
      (fun failure => loopEnd job ids deleteUndo (sofar ++ chunks.flatten) failure) E := by
  induction chunks generalizing n sofar with
  | nil => exact Does.done fun w _ h => by rwa [List.flatten_nil, List.append_nil]
  | cons chunk chunks ih =>
    refine Does.bind (does_attempt (does_sendLater watches watched
      (chunksIn chunk (List.mem_cons_self ..)))) fun r => ?_
    cases r with
    | error e =>
      refine Does.done fun w _ h => h.mono fun ⟨zero, _⟩ => ?_
      omega
    | ok _ =>
      rw [List.flatten_cons, ← List.append_assoc]
      exact ih (fun chunk mem => chunksIn chunk (List.mem_cons_of_mem _ mem)) (Nat.succ_pos n)

theorem does_scheduleLaterReturn (P : Local u S root) (c : Bool) :
    Does u S root t P (Program.when c (await .scheduleLaterReturn)) (fun _ => P) fun _ => P :=
  Does.when (fun _ => passes (fun _ _ => rfl) fun _ _ _ _ took =>
    (Prod.mk.inj (Option.some.inj took)).2.symm) fun _ _ _ h => h

theorem does_sendAll (same : SameJob root job) (watches : Watches S root subject)
    (watched : S.confirmed = false → subject ≠ none) {E : ActionError → Local u S root}
    {chunks : List (List MessageId)} (some_ : ids ≠ []) (covers : chunks.flatten = ids)
    (chunksIn : ∀ chunk ∈ chunks, ∀ m ∈ chunk, m ∈ ids) :
    Does u S root t (started job ids job.deleteUndo)
      (sendAll job ids (forwardChange u root) subject startingCustom chunks)
      (fun sent => loopEnd job ids sent.deleteUndo chunks.flatten sent.failure) E := by
  cases chunks with
  | nil => exact absurd covers.symm some_
  | cons chunk chunks =>
    refine Does.bind (does_attempt (does_sendFirst same watches some_
      (chunksIn chunk (List.mem_cons_self ..)))) fun r => ?_
    cases r with
    | error e => exact Does.done fun w _ h => h.mono fun ⟨_, spares⟩ => spares
    | ok deleteUndo =>
      refine Does.bind (does_attempt (does_scheduleLaterReturn _ _)) fun r => ?_
      cases r with
      | error e =>
        refine Does.done fun w _ h => ⟨⟨_, _, h.1.1⟩, fun ⟨zero, _⟩ => ?_⟩
        omega
      | ok _ =>
        have rest : ∀ chunk ∈ chunks, ∀ m ∈ chunk, m ∈ ids :=
          fun chunk mem => chunksIn chunk (List.mem_cons_of_mem _ mem)
        refine Does.bind (does_sendRest watches watched rest Nat.one_pos) fun failure => ?_
        exact Does.done fun w _ h => h

end DeclutrMail.LabelAction
