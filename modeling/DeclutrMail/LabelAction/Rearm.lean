import DeclutrMail.LabelAction.System

/-!
# An Undo is asked for again

`enqueueRevert` inserts the reverse row of a token, or reads the one that is there and, if it is
not done, arms it again with an update of its own. Between the read and the update a delivery of
the reverse job may end, and the update does not look at the status: a row that is done runs
again. It stays done where each update finds a row that is still open.
-/

namespace DeclutrMail.LabelAction

open Interleaving Discipline

/-! ## The calls -/

/-- `pending` counts the calls that have read an open row and not armed it yet, `requests` the
requests to Gmail of the reverse job. -/
structure RevertWorld where
  base : World
  pending : ℕ
  requests : ℕ

/-- Arming a row again. -/
def ActionJob.rearm (job : ActionJob) : ActionJob :=
  { job with status := .queued, errorCode := none, affectedCount := 0 }

def Request.isSendReverse : Request → Bool
  | .sendReverse .. => true
  | _ => false

namespace RevertWorld

variable (w : RevertWorld)

def initial (base : World) : RevertWorld := ⟨base, 0, 0⟩

/-- The reverse row is done. -/
def IsDone : Prop := ∃ job, w.base.reverse = some job ∧ job.status = .done

/-- `insertJob` of a call: the row is inserted, or read. -/
def insertJob (token : UndoToken) : RevertWorld :=
  match w.base.reverse with
  | none => { w with base := { w.base with reverse := some (revertJob w.base.forward token) } }
  | some job => if job.status = .done then w else { w with pending := w.pending + 1 }

/-- The update of a call that has read an open row. -/
def rearm : Option RevertWorld :=
  match w.pending with
  | 0 => none
  | pending + 1 => some { w with base := w.base.setReverse ActionJob.rearm, pending := pending }

/-- The add of a call has thrown: a row that is still queued fails. -/
def addFailed : RevertWorld :=
  { w with base := w.base.setReverse fun job =>
      if job.status = .queued then job.fail enqueueFailedErrorCode job.affectedCount else job }

end RevertWorld

/-- A call reads and a call writes; or the add of a call throws; or something else happens. -/
inductive RevertEvent
  | insertJob
  | rearm
  | addFailed
  | other (e : Event)

/-- The deliveries of a reverse job, and the calls of `enqueueRevert` for its token. -/
def rearming (u : UserLabels) : System Sig where
  World := RevertWorld
  Thread := Delivery
  Task := Unit
  Outcome := LabelActionResult
  Choice := Choice
  Event := RevertEvent
  code _ := processJob false .reverse
  accept _ _ w := some w
  answer t q c w := (LabelAction.answer u t q c w.base).map fun r =>
    (r.1, { w with
      base := r.2
      requests := if q.isSendReverse then w.requests + 1 else w.requests })
  settle _ r w :=
    match r with
    | .ok _ => some w
    | .error e => some { w with base := { w.base with hooks := (.reverse, e) :: w.base.hooks } }
  crash t w :=
    some { w with base := { w.base with lock := if w.base.lock = some t then none else w.base.lock } }
  disturb e w :=
    match e with
    | .insertJob => w.base.forward.undoToken.map w.insertJob
    | .rearm => w.rearm
    | .addFailed => some w.addFailed
    | .other .undo => none
    | .other e => (disturb w.base e).map fun base => { w with base }

/-- An open row is not done by the time that it is armed again, and the failure of a delivery is
not written over a row that is done. -/
def Guarded {u : UserLabels} (w : (rearming u).World) : Move (rearming u) → Prop
  | .disturb .rearm | .disturb (.other (.terminalFailure .reverse _)) => ¬RevertWorld.IsDone w
  | _ => True

instance RevertWorld.decidableIsDone (w : RevertWorld) : Decidable w.IsDone :=
  decidable_of_iff (w.base.reverse.any (fun job => decide (job.status = .done)) = true)
    (by simp [RevertWorld.IsDone, Option.any_eq_true])

instance {u : UserLabels} (w : (rearming u).World) (m : Move (rearming u)) :
    Decidable (Guarded w m) :=
  match m with
  | .disturb .rearm | .disturb (.other (.terminalFailure .reverse _)) =>
    @instDecidableNot _ (RevertWorld.decidableIsDone w)
  | .disturb .insertJob | .disturb .addFailed | .disturb (.other (.protect ..))
  | .disturb (.other (.relabel ..)) | .disturb (.other .enqueueFailed)
  | .disturb (.other (.terminalFailure .forward _)) | .disturb (.other .undo)
  | .start .. | .reply .. | .finish _ | .crash _ => inferInstanceAs (Decidable True)

/-! ## What a delivery knows -/

variable (u : UserLabels)

/-- Only the holder of the lock can end the job, and nothing is sent for a job that is done. -/
def rearmed : Discipline (rearming u) where
  owner w := w.base.lock
  inv w := ∀ job, w.base.reverse = some job → job.direction = .reverse
  kept w w' := w.IsDone → w'.base.reverse = w.base.reverse ∧ w'.requests = w.requests
  background w w' := w'.base.lock = w.base.lock ∧ (w'.IsDone → w.IsDone)
  owner_background b := b.1
  kept_refl _ _ := ⟨rfl, rfl⟩
  kept_trans {w w' w''} h g done := by
    obtain ⟨row, sent⟩ := h done
    obtain ⟨job, there, status⟩ := done
    obtain ⟨row', sent'⟩ := g ⟨job, row.trans there, status⟩
    exact ⟨row'.trans row, sent'.trans sent⟩

variable {u} {t : Delivery} {w w' : RevertWorld} {v v' : World}

def opened : (rearmed u).Local := ⟨fun w => ¬w.IsDone, fun _ _ still b done => still (b.2 done)⟩

abbrev unknown : (rearmed u).Local := .fact True

/-- The row is as it was, or executing. -/
structure Runs (v v' : World) : Prop where
  lock : v'.lock = v.lock
  reverse : v'.reverse = v.reverse ∨
    v'.reverse = v.reverse.map fun job => { job with status := .executing }

theorem Runs.inv (h : Runs v v') (inv : ∀ job, v.reverse = some job → job.direction = .reverse) :
    ∀ job, v'.reverse = some job → job.direction = .reverse := by
  intro job there
  rcases h.reverse with same | marked
  · exact inv job (same.symm.trans there)
  · obtain ⟨row, before, rfl⟩ := Option.map_eq_some_iff.mp (marked.symm.trans there)
    exact inv row before

theorem Runs.opened (h : Runs w.base v') (still : ¬w.IsDone) {requests : ℕ} :
    ¬RevertWorld.IsDone { w with base := v', requests } := by
  rintro ⟨job, there, done⟩
  rcases h.reverse with same | marked
  · exact still ⟨job, same.symm.trans there, done⟩
  · obtain ⟨row, before, rfl⟩ := Option.map_eq_some_iff.mp (marked.symm.trans there)
    cases done

theorem missed_runs (e : ActionError) (v : World) (q : Request) : Runs v (missed e v q) := by
  cases q <;> exact ⟨rfl, .inl rfl⟩

/-- The answers of the rearming system are those of the worker's. -/
theorem answer_cases {q : Request} {c : Choice} {r : Except ActionError q.Answer}
    (answered : (rearming u).answer t q c w = some (r, w')) :
    w'.pending = w.pending ∧ w'.requests = (if q.isSendReverse then w.requests + 1 else w.requests) ∧
      ((∃ f a, effect u t f w.base q = some (a, w'.base) ∧
          (r = .ok a ∨ ∃ e, q.mayLose e = true ∧ r = .error e)) ∨
        ∃ e, q.mayFail e = true ∧ w'.base = missed e w.base q ∧ r = .error e) := by
  obtain ⟨⟨r', base⟩, took, same⟩ := Option.map_eq_some_iff.mp answered
  obtain ⟨rfl, rfl⟩ := Prod.mk.inj same
  refine ⟨rfl, rfl, ?_⟩
  cases c with
  | go f =>
    obtain ⟨⟨a, v⟩, effect, same⟩ := Option.map_eq_some_iff.mp took
    obtain ⟨rfl, rfl⟩ := Prod.mk.inj same
    exact .inl ⟨f, a, effect, .inl rfl⟩
  | lost f e =>
    simp only [LabelAction.answer] at took
    split_ifs at took with loses
    obtain ⟨⟨a, v⟩, effect, same⟩ := Option.map_eq_some_iff.mp took
    obtain ⟨rfl, rfl⟩ := Prod.mk.inj same
    exact .inl ⟨f, a, effect, .inr ⟨e, loses, rfl⟩⟩
  | fail e =>
    simp only [LabelAction.answer] at took
    split_ifs at took with fails
    obtain ⟨rfl, rfl⟩ := Prod.mk.inj (Option.some.inj took)
    exact .inr ⟨e, fails, rfl, rfl⟩

/-- One request of a delivery whose row is open. -/
theorem asks {q : Request} (runs : ∀ t f v a v', effect u t f v q = some (a, v') → Runs v v') :
    (rearmed u).Does t opened (await q) (fun _ => opened) fun _ => opened := by
  refine Discipline.own fun w inv mine still c r w' answered => ?_
  obtain ⟨pending, requests, answer⟩ := answer_cases answered
  have step : Runs w.base w'.base := by
    rcases answer with ⟨f, a, took, -⟩ | ⟨e, -, same, -⟩
    · exact runs t f w.base a w'.base took
    · exact same ▸ missed_runs e w.base q
  have same : w' = { w with base := w'.base, requests := w'.requests } := by
    cases w'
    rw [← pending]
  have still' : ¬w'.IsDone := same ▸ step.opened still
  refine ⟨step.lock.trans mine, step.inv inv, fun done => (still done).elim, ?_⟩
  cases r <;> exact still'

/-- The last request of the job. -/
theorem ends_commitReverse (token : UndoToken) (ids : List MessageId) (groups : List ReverseGroup) :
    (rearmed u).Does t opened (await (.commitReverse token ids groups)) (fun _ => unknown)
      fun _ => unknown := by
  refine Discipline.own fun w inv mine still c r w' answered => ?_
  obtain ⟨-, -, answer⟩ := answer_cases answered
  have kept : w'.base.lock = w.base.lock ∧
      ∀ job, w'.base.reverse = some job → job.direction = .reverse := by
    rcases answer with ⟨f, a, took, -⟩ | ⟨e, -, same, -⟩
    · obtain ⟨-, same⟩ := Prod.mk.inj (Option.some.inj took)
      rw [← same]
      refine ⟨rfl, fun job there => ?_⟩
      obtain ⟨row, before, rfl⟩ := Option.map_eq_some_iff.mp there
      exact inv row before
    · rw [same]
      exact ⟨rfl, inv⟩
  refine ⟨kept.1.trans mine, kept.2, fun done => (still done).elim, ?_⟩
  cases r <;> trivial

/-! ## The code of a delivery -/

theorem runs_same {q : Request} (same : ∀ t f v a v', effect u t f v q = some (a, v') → v' = v) :
    ∀ t f v a v', effect u t f v q = some (a, v') → Runs v v' := by
  intro t f v a v' took
  obtain rfl := same t f v a v' took
  exact ⟨rfl, .inl rfl⟩

theorem asks_resolveLabel (label : Label) :
    (rearmed u).Does t opened (resolveLabel label) (fun _ => opened) fun _ => opened := by
  unfold resolveLabel
  split_ifs
  · exact Does.done fun _ _ h => h
  · exact asks (runs_same fun t f v a v' took => (Prod.mk.inj (Option.some.inj took)).2.symm)

theorem asks_resolveAll (labels : List Label) :
    (rearmed u).Does t opened (resolveAll labels) (fun _ => opened) fun _ => opened := by
  induction labels with
  | nil => exact Does.done fun _ _ h => h
  | cons label labels ih =>
    exact Does.bind (asks_resolveLabel label) fun _ => Does.bind ih fun _ =>
      Does.done fun _ _ h => h

theorem asks_resolveLabelChange (change : LabelChange) :
    (rearmed u).Does t opened (resolveLabelChange change) (fun _ => opened) fun _ => opened :=
  Does.bind (asks_resolveAll _) fun _ => Does.bind (asks_resolveAll _) fun _ =>
    Does.done fun _ _ h => h

theorem asks_resolveGroups (groups : List ReverseGroup) :
    (rearmed u).Does t opened (resolveGroups groups) (fun _ => opened) fun _ => opened := by
  induction groups with
  | nil => exact Does.done fun _ _ h => h
  | cons group groups ih =>
    exact Does.bind (asks_resolveLabelChange _) fun _ => Does.bind ih fun _ =>
      Does.done fun _ _ h => h

theorem asks_sendChunks (change : LabelChange) (chunks : List (List MessageId)) :
    (rearmed u).Does t opened (sendChunks change chunks) (fun _ => opened) fun _ => opened := by
  induction chunks with
  | nil => exact Does.done fun _ _ h => h
  | cons chunk chunks ih =>
    refine Does.bind (asks (runs_same fun t f v a v' took =>
      (Prod.mk.inj (Option.some.inj took)).2.symm)) fun _ => Does.bind (asks ?_) fun _ => ih
    intro t f v a v' took
    obtain ⟨-, rfl⟩ := Prod.mk.inj (Option.some.inj took)
    exact ⟨rfl, .inl rfl⟩

theorem asks_sendGroups (groups : List ReverseGroup) :
    (rearmed u).Does t opened (sendGroups groups) (fun _ => opened) fun _ => opened := by
  induction groups with
  | nil => exact Does.done fun _ _ h => h
  | cons group groups ih => exact Does.bind (asks_sendChunks _ _) fun _ => ih

theorem asks_sendReverse (ids : List MessageId) (groups : List ReverseGroup) :
    (rearmed u).Does t opened (sendReverse ids groups) (fun _ => opened) fun _ => opened := by
  unfold sendReverse
  split_ifs
  · exact Does.done fun _ _ h => h
  · exact Does.bind (asks (runs_same fun t f v a v' took =>
      (Prod.mk.inj (Option.some.inj took)).2.symm)) fun _ =>
      Does.bind (asks_resolveGroups groups) fun resolved =>
        Does.bind (asks_sendGroups resolved) fun _ => Does.done fun _ _ h => h

theorem ends_executeReverse (job : ActionJob) :
    (rearmed u).Does t opened (executeReverse job) (fun _ => unknown) fun _ => unknown := by
  unfold executeReverse
  cases job.undoToken with
  | none => exact Does.failed fun _ _ _ => trivial
  | some token =>
    refine Does.bind ((asks ?_).fails fun _ _ _ _ => trivial) fun _ => ?_
    · intro t f v a v' took
      obtain ⟨-, rfl⟩ := Prod.mk.inj (Option.some.inj took)
      exact ⟨rfl, .inr rfl⟩
    refine Does.bind ((asks (q := .selectUndoPayload token) (runs_same fun t f v a v' took =>
      (Prod.mk.inj (Option.some.inj took)).2.symm)).fails fun _ _ _ _ => trivial) fun payload => ?_
    refine Does.bind ((asks_sendReverse _ _).fails fun _ _ _ _ => trivial) fun resolved => ?_
    exact Does.bind (ends_commitReverse token _ resolved) fun _ => Does.done fun _ _ h => h

/-- What a delivery knows of the row it has read. -/
def readRow : Option ActionJob → (rearmed u).Local
  | none => unknown
  | some job => .or (.fact (job.status = .done))
      ((Assertion.fact (job.direction = .reverse)).and opened)

theorem ends_execute : (rearmed u).Does t unknown (execute false .reverse) (fun _ => unknown)
    fun _ => unknown := by
  refine Does.bind (B := readRow) ?_ fun found => ?_
  · refine Discipline.own fun w inv mine _ c r w' answered => ?_
    obtain ⟨pending, requests, answer⟩ := answer_cases answered
    have same : w'.base = w.base := by
      rcases answer with ⟨f, a, took, -⟩ | ⟨e, -, same, -⟩
      · exact (Prod.mk.inj (Option.some.inj took)).2.symm
      · exact same
    refine ⟨(congrArg World.lock same).trans mine, ?_, fun _ => ⟨by rw [same], requests⟩, ?_⟩
    · intro job there
      exact inv job (same ▸ there)
    · rcases answer with ⟨f, a, took, rfl | ⟨e, -, rfl⟩⟩ | ⟨e, -, -, rfl⟩
      · obtain ⟨rfl, -⟩ := Prod.mk.inj (Option.some.inj took)
        change readRow w.base.reverse w'
        cases there : w.base.reverse with
        | none => trivial
        | some job =>
          by_cases done : job.status = .done
          · exact .inl done
          · refine .inr ⟨inv job there, fun ⟨row, row_there, row_done⟩ => done ?_⟩
            rw [same, there] at row_there
            exact Option.some.inj row_there ▸ row_done
      · trivial
      · trivial
  · cases found with
    | none => exact Does.failed fun _ _ _ => trivial
    | some job =>
      simp only [executeJob]
      split_ifs with final
      · exact Does.done fun _ _ _ => trivial
      · have open_ : ∀ w, (readRow (some job) : (rearmed u).Local) w →
            job.direction = .reverse ∧ (opened : (rearmed u).Local) w := by
          intro w h
          refine h.resolve_left fun done => final ?_
          rw [Assertion.fact_holds] at done
          simp [isFinal, done]
        refine Does.of_fact (fun w _ h => (open_ w h).1) fun reverse => ?_
        rw [reverse]
        exact (ends_executeReverse job).pre fun w _ h => (open_ w h).2

theorem runs_rearming :
    Triple (rearmed u).Guarantee ((rearmed u).outside t) (processJob false .reverse)
      (fun _ => (rearmed u).outside t) fun _ => (rearmed u).outside t := by
  have acquires : Triple (rearmed u).Guarantee ((rearmed u).outside t) (await .acquireLock)
      (fun _ => (rearmed u).owned t unknown) fun _ => (rearmed u).outside t := by
    refine take fun w inv free c r w' answered => ?_
    obtain ⟨-, requests, answer⟩ := answer_cases answered
    rcases answer with ⟨f, a, took, reply⟩ | ⟨e, -, same, rfl⟩
    · simp only [effect] at took
      split_ifs at took with idle
      obtain ⟨-, locked⟩ := Prod.mk.inj (Option.some.inj took)
      have row : w'.base.reverse = w.base.reverse := locked ▸ rfl
      refine ⟨fun job there => inv job (row.symm.trans there), fun _ => ⟨row, requests⟩, ?_⟩
      rcases reply with rfl | ⟨e, loses, -⟩
      · exact ⟨idle, (congrArg World.lock locked).symm, trivial⟩
      · cases loses
    · have row : w'.base.reverse = w.base.reverse := congrArg World.reverse same
      refine ⟨fun job there => inv job (row.symm.trans there), fun _ => ⟨row, requests⟩,
        congrArg World.lock same, fun ⟨job, there, done⟩ => ⟨job, row.symm.trans there, done⟩⟩
  have releases : Triple (rearmed u).Guarantee ((rearmed u).owned t unknown) (await .releaseLock)
      (fun _ => (rearmed u).outside t) fun _ => (rearmed u).outside t := by
    refine leave fun w inv mine _ c r w' answered => ?_
    obtain ⟨-, requests, answer⟩ := answer_cases answered
    rcases answer with ⟨f, a, took, -⟩ | ⟨e, fails, -⟩
    · simp only [effect] at took
      split_ifs at took with held
      obtain ⟨-, unlocked⟩ := Prod.mk.inj (Option.some.inj took)
      have row : w'.base.reverse = w.base.reverse := unlocked ▸ rfl
      exact ⟨fun job there => inv job (row.symm.trans there), fun _ => ⟨row, requests⟩,
        (congrArg World.lock unlocked).symm⟩
    · cases fails
  exact acquires.bind fun _ => Triple.ensure ends_execute (fun _ => releases) fun _ => releases

/-! ## Every run -/

/-- What happens outside of the deliveries and the calls leaves the reverse row, but for the failure
of its last delivery. -/
theorem disturb_reverse {e : Event} (clicks : e ≠ .undo) (moved : disturb v e = some v') :
    v'.lock = v.lock ∧ (v'.reverse = v.reverse ∨ ∃ error, e = .terminalFailure .reverse error ∧
      v'.reverse = v.reverse.map fun job => job.fail error.name job.affectedCount) := by
  cases e with
  | protect | relabel =>
    obtain rfl := Option.some.inj moved
    exact ⟨rfl, .inl rfl⟩
  | enqueueFailed =>
    simp only [disturb] at moved
    split_ifs at moved
    obtain rfl := Option.some.inj moved
    exact ⟨rfl, .inl rfl⟩
  | terminalFailure direction error =>
    simp only [disturb] at moved
    split_ifs at moved
    obtain rfl := Option.some.inj moved
    cases direction with
    | forward => exact ⟨rfl, .inl rfl⟩
    | reverse => exact ⟨rfl, .inr ⟨error, rfl, rfl⟩⟩
  | undo => exact absurd rfl clicks

/-- A write of a row that is not done and does not make it so. -/
theorem background_of_map {f : ActionJob → ActionJob} (direction : ∀ job, (f job).direction = job.direction)
    (ends : ∀ job, (f job).status = .done → job.status = .done)
    (inv : ∀ job, w.base.reverse = some job → job.direction = .reverse)
    (kept : w.IsDone → w'.base.reverse = w.base.reverse) (lock : w'.base.lock = w.base.lock)
    (requests : w'.requests = w.requests) (written : w'.base.reverse = w.base.reverse.map f) :
    (rearmed u).inv w' ∧ (rearmed u).kept w w' ∧ (rearmed u).background w w' := by
  refine ⟨fun job there => ?_, fun done => ⟨kept done, requests⟩, lock, fun ⟨job, there, done⟩ => ?_⟩
  · obtain ⟨row, before, rfl⟩ := Option.map_eq_some_iff.mp (written.symm.trans there)
    exact (direction row).trans (inv row before)
  · obtain ⟨row, before, rfl⟩ := Option.map_eq_some_iff.mp (written.symm.trans there)
    exact ⟨row, before, ends row done⟩

theorem background_of_same (inv : ∀ job, w.base.reverse = some job → job.direction = .reverse)
    (lock : w'.base.lock = w.base.lock) (requests : w'.requests = w.requests)
    (same : w'.base.reverse = w.base.reverse) :
    (rearmed u).inv w' ∧ (rearmed u).kept w w' ∧ (rearmed u).background w w' :=
  background_of_map (f := id) (fun _ => rfl) (fun _ done => done) inv (fun _ => same) lock requests
    (by rw [same, Option.map_id]; rfl)

/-- What a call does. -/
theorem insertJob_background (token : UndoToken)
    (inv : ∀ job, w.base.reverse = some job → job.direction = .reverse) :
    (rearmed u).inv (w.insertJob token) ∧ (rearmed u).kept w (w.insertJob token) ∧
      (rearmed u).background w (w.insertJob token) := by
  unfold RevertWorld.insertJob
  cases there : w.base.reverse with
  | some job =>
    simp only
    split_ifs
    · exact background_of_same inv rfl rfl rfl
    · exact background_of_same inv rfl rfl rfl
  | none =>
    refine ⟨fun job new => ?_, fun ⟨job, before, _⟩ => ?_, rfl, fun ⟨job, new, done⟩ => ?_⟩
    · obtain rfl := Option.some.inj new
      rfl
    · cases there.symm.trans before
    · obtain rfl := Option.some.inj new
      cases done

theorem rearm_background (still : ¬w.IsDone) (moved : w.rearm = some w')
    (inv : ∀ job, w.base.reverse = some job → job.direction = .reverse) :
    (rearmed u).inv w' ∧ (rearmed u).kept w w' ∧ (rearmed u).background w w' := by
  unfold RevertWorld.rearm at moved
  split at moved
  · cases moved
  · obtain rfl := Option.some.inj moved
    exact background_of_map (f := ActionJob.rearm) (fun _ => rfl) (fun _ done => nomatch done) inv
      (fun done => (still done).elim) rfl rfl rfl

theorem addFailed_background (inv : ∀ job, w.base.reverse = some job → job.direction = .reverse) :
    (rearmed u).inv w.addFailed ∧ (rearmed u).kept w w.addFailed ∧
      (rearmed u).background w w.addFailed := by
  refine background_of_map (f := fun job => if job.status = .queued then
    job.fail enqueueFailedErrorCode job.affectedCount else job) (fun job => ?_) (fun job done => ?_)
    inv (fun ⟨job, there, done⟩ => ?_) rfl rfl rfl
  · split_ifs <;> rfl
  · split_ifs at done
    · cases done
    · exact done
  · simp [RevertWorld.addFailed, World.setReverse, there, done]

theorem rearmed_followed : Followed (rearmed u) Guarded where
  accept := by
    intro t k w w' inv accepted
    obtain rfl := Option.some.inj accepted
    exact background_of_same inv rfl rfl rfl
  code := fun _ => runs_rearming
  settle := by
    intro t r w w' inv settled
    cases r with
    | ok _ =>
      obtain rfl := Option.some.inj settled
      exact background_of_same inv rfl rfl rfl
    | error e =>
      obtain rfl := Option.some.inj settled
      exact background_of_same inv rfl rfl rfl
  crash := by
    intro (t : Delivery) (w : RevertWorld) w' inv crashed
    obtain rfl := Option.some.inj crashed
    refine ⟨inv, fun _ => ⟨rfl, rfl⟩, fun mine => ?_, fun mine => if_pos mine, fun other => ?_⟩
    · have mine : (if w.base.lock = some t then none else w.base.lock) = some t := mine
      split_ifs at mine with held
      exact held mine
    · exact ⟨if_neg other, fun done => done⟩
  disturb := by
    intro e w w' inv guarded moved
    cases e with
    | insertJob =>
      obtain ⟨token, -, rfl⟩ := Option.map_eq_some_iff.mp moved
      exact insertJob_background token inv
    | rearm => exact rearm_background guarded moved inv
    | addFailed =>
      obtain rfl := Option.some.inj moved
      exact addFailed_background inv
    | other e =>
      have clicks : e ≠ .undo := by
        rintro rfl
        cases moved
      have moved : (LabelAction.disturb w.base e).map (fun base => { w with base }) = some w' := by
        cases e <;> first | exact moved | exact absurd rfl clicks
      obtain ⟨base, happened, rfl⟩ := Option.map_eq_some_iff.mp moved
      obtain ⟨lock, same | ⟨error, rfl, failed⟩⟩ := disturb_reverse clicks happened
      · exact background_of_same inv lock rfl same
      · exact background_of_map (f := fun job => job.fail error.name job.affectedCount)
          (fun _ => rfl) (fun _ done => nomatch done) inv (fun done => (guarded done).elim) lock rfl
          failed

/-- In a run that meets the condition, a reverse row that is done stays as it is, and no request of
its job is sent to Gmail any more. -/
theorem finished_revert_stays {base : World} (free : base.lock = none) (unclicked : base.reverse = none)
    {c d : Config (rearming u)} (run : RunWhere Guarded (.idle (RevertWorld.initial base)) c)
    (onward : RunWhere Guarded c d) {job : ActionJob} (there : c.world.base.reverse = some job)
    (done : job.status = .done) :
    d.world.base.reverse = some job ∧ d.world.requests = c.world.requests := by
  have start : (rearmed u).inv (RevertWorld.initial base) := by
    intro job there
    cases unclicked.symm.trans there
  have kept := (rearmed_followed (u := u)).kept start free run onward
  obtain ⟨row, requests⟩ := kept ⟨job, there, done⟩
  exact ⟨row.trans there, requests⟩

/-! ## Two clicks -/

def sampleLabels : UserLabels := ⟨fun _ => "Label_1", fun _ => by decide⟩

/-- The archive of one message is done, and its Undo has not been asked for. -/
def archived : World :=
  let job := { senderJob .archive "a" .inboxOnly 1 none with resolvedMessageIds := ["m"] }
  { World.enqueued (job.finish 1 (some 0)) (fun _ => false) (fun _ => ∅)
      fun _ => some ⟨"a", false, []⟩ with
    undoJournal := [⟨0, buildUndoPayload .archive ["m"] none .inboxOnly, false⟩] }

/-- A delivery of the reverse job, up to its `n`th request. -/
def delivery (id n : ℕ) : List (Move (rearming sampleLabels)) :=
  .start ⟨id, .reverse⟩ () :: .replicate n (.reply ⟨id, .reverse⟩ (.go ⟨.pass, []⟩))

def click : Move (rearming sampleLabels) := .disturb .insertJob

/-- The job is done after one request. -/
def finishedOnce (w : RevertWorld) : Bool := decide (w.IsDone ∧ w.requests = 1)

theorem finishedOnce_iff {w : RevertWorld} : finishedOnce w = true ↔ w.IsDone ∧ w.requests = 1 :=
  decide_eq_true_iff

theorem finished_revert_stays_replayed :
    ∃ (c d : Config (rearming sampleLabels)) (job : ActionJob),
      RunWhere Guarded (.idle (RevertWorld.initial archived)) c ∧ RunWhere Guarded c d ∧
      c.world.base.reverse = some job ∧ job.status = .done ∧ c.world.requests = 1 ∧
      d.world.base.reverse = some job ∧ d.world.requests = c.world.requests := by
  let start : Config (rearming sampleLabels) := .idle (RevertWorld.initial archived)
  have run : (start.runIf Guarded (click :: delivery 0 9)).any (fun c =>
      finishedOnce c.world &&
      (c.runIf Guarded (click :: delivery 1 3)).isSome) = true := by
    decide
  obtain ⟨c, ran, seen⟩ := (Option.any_eq_true _ _).mp run
  obtain ⟨ended, onward⟩ := Bool.and_eq_true_iff.mp seen
  obtain ⟨⟨job, there, done⟩, one⟩ := finishedOnce_iff.mp ended
  obtain ⟨d, again⟩ := Option.isSome_iff_exists.mp onward
  have first := runWhere_of_runIf ran
  have second := runWhere_of_runIf again
  obtain ⟨same, requests⟩ := finished_revert_stays rfl rfl first second there done
  exact ⟨c, d, job, first, second, there, done, one, same, requests⟩

/-- The second click reads the row before the job is done and arms it afterwards: the job runs
again. -/
theorem finished_revert_rearmed :
    ∃ c d e : Config (rearming sampleLabels),
      Reaches (.idle (RevertWorld.initial archived)) c ∧ RevertWorld.IsDone c.world ∧
      c.world.requests = 1 ∧ Reaches c d ∧
      d.world.base.reverse.map (·.status) = some .queued ∧ Reaches d e ∧ e.world.requests = 2 := by
  let start : Config (rearming sampleLabels) := .idle (RevertWorld.initial archived)
  have run : (start.run (click :: click :: delivery 0 9)).any (fun c =>
      finishedOnce c.world &&
      (c.run [.disturb .rearm]).any fun d =>
        decide ((RevertWorld.base d.world).reverse.map (·.status) = some .queued) &&
        (d.run (delivery 1 7)).any fun e => decide (RevertWorld.requests e.world = 2)) = true := by
    decide
  obtain ⟨c, first, seen⟩ := exists_reaches run
  obtain ⟨ended, later⟩ := Bool.and_eq_true_iff.mp seen
  obtain ⟨done, one⟩ := finishedOnce_iff.mp ended
  obtain ⟨d, second, seen⟩ := exists_reaches later
  obtain ⟨armed, later⟩ := Bool.and_eq_true_iff.mp seen
  obtain ⟨e, third, again⟩ := exists_reaches later
  exact ⟨c, d, e, first, done, one, second, of_decide_eq_true armed, third, of_decide_eq_true again⟩

end DeclutrMail.LabelAction
