import DeclutrMail.Actions.BulkCleanup

/-!
# The cleanup quota over a run

What the jobs of a period hold stays within the limit as long as each writer's rows are
counted by a check in the writer's own transaction (`Meets`). A bulk breaks this when the
key of its first actionable sender exists and a later one of its keys does not: its rows are
then inserted without a check.
-/

namespace DeclutrMail.Actions

namespace Workspace

variable (ws : Workspace)

/-- The units that new rows hold. -/
def load (fresh : List Job) : ℕ :=
  if ws.meterV2 then (fresh.map (·.quotaUnits)).sum else (fresh.map (·.unit)).toFinset.card

/-- The jobs of each period hold at most the limit and what Undo has given back. -/
def WithinLimit (jobs : List Job) : Prop :=
  ∀ months, ws.recorded jobs months ≤ ws.meterLimitFor + ws.restored jobs months

theorem recorded_append_le (jobs fresh : List Job) (months : ℕ) :
    ws.recorded (jobs ++ fresh) months ≤ ws.recorded jobs months + ws.load fresh := by
  unfold recorded load
  split
  · simp only [List.filter_append, List.map_append, List.sum_append]
    have : ((fresh.filter fun job =>
        (cleanupPeriod ws.createdAt months).Contains job.createdAt).map (·.quotaUnits)).sum ≤
        (fresh.map (·.quotaUnits)).sum :=
      (List.filter_sublist.map _).sum_le_sum fun _ _ => Nat.zero_le _
    omega
  · simp only [List.filter_append, List.map_append, List.toFinset_append]
    refine (Finset.card_union_le _ _).trans (Nat.add_le_add_left (Finset.card_le_card ?_) _)
    intro unit mem
    simp only [List.mem_toFinset, List.mem_map, List.mem_filter] at mem ⊢
    obtain ⟨job, ⟨⟨mem, -⟩, -⟩, rfl⟩ := mem
    exact ⟨job, mem, rfl⟩

/-- New rows of another period do not add to this one. -/
theorem recorded_append_other {jobs fresh : List Job} {months : ℕ}
    (other : ∀ job ∈ fresh, ¬ (cleanupPeriod ws.createdAt months).Contains job.createdAt) :
    ws.recorded (jobs ++ fresh) months = ws.recorded jobs months := by
  have none : (fresh.filter fun job =>
      (cleanupPeriod ws.createdAt months).Contains job.createdAt) = [] := by
    simpa using other
  simp [recorded, List.filter_append, none]

theorem restored_le_append (jobs fresh : List Job) (months : ℕ) :
    ws.restored jobs months ≤ ws.restored (jobs ++ fresh) months := by
  unfold restored
  split
  · simp [List.filter_append]
  · exact le_rfl

/-- Undo gives back no more than a job holds. -/
theorem sum_net (jobs : List Job) :
    (jobs.map fun job => job.quotaUnits - job.restored).sum + (jobs.map (·.restored)).sum =
      (jobs.map (·.quotaUnits)).sum := by
  induction jobs with
  | nil => rfl
  | cons job jobs ih =>
    have : job.restored ≤ job.quotaUnits := Nat.min_le_right _ _
    simp only [List.map_cons, List.sum_cons]
    omega

/-- What a period holds is counted at its start, but for what Undo has given back. -/
theorem recorded_le_used (jobs : List Job) (months : ℕ) :
    ws.recorded jobs months ≤
      ws.cleanupUnitsUsed jobs (cleanupPeriod ws.createdAt months).periodStart +
        ws.restored jobs months := by
  have since : ∀ job : Job, (cleanupPeriod ws.createdAt months).Contains job.createdAt →
      (cleanupPeriod ws.createdAt months).periodStart ≤ job.createdAt := fun _ h => h.1
  simp only [recorded, cleanupUnitsUsed, restored, meteredEmailsUsed]
  split
  · have later : ((jobs.filter fun job =>
        (cleanupPeriod ws.createdAt months).Contains job.createdAt).map fun job =>
          job.quotaUnits - job.restored).sum ≤
        ((jobs.filter fun job =>
          (cleanupPeriod ws.createdAt months).periodStart ≤ job.createdAt).map fun job =>
          job.quotaUnits - job.restored).sum :=
      ((List.monotone_filter_right jobs fun job => by simpa using since job).map _).sum_le_sum
        fun _ _ => Nat.zero_le _
    have own := sum_net (jobs.filter fun job =>
      (cleanupPeriod ws.createdAt months).Contains job.createdAt)
    have all := sum_net (jobs.filter fun job =>
      (cleanupPeriod ws.createdAt months).periodStart ≤ job.createdAt)
    omega
  · rw [Nat.add_zero]
    refine Finset.card_le_card fun unit mem => ?_
    simp only [List.mem_toFinset, List.mem_map, List.mem_filter, Bool.and_eq_true,
      decide_eq_true_eq] at mem ⊢
    obtain ⟨job, ⟨⟨mem, contains⟩, counts⟩, rfl⟩ := mem
    exact ⟨job, ⟨mem, since job contains, counts⟩, rfl⟩

/-- Rows that one check has counted keep the limit. -/
theorem withinLimit_append {jobs fresh : List Job} {needed : ℕ} {started now : Instant}
    (within : ws.WithinLimit jobs) (capacity : ws.hasCapacity jobs needed now = true)
    (counted : ws.load fresh ≤ needed)
    (inPeriod : (cleanupPeriodFor ws.createdAt now).Contains started)
    (created : ∀ job ∈ fresh, job.createdAt = started) : ws.WithinLimit (jobs ++ fresh) := by
  intro months
  have grows := ws.restored_le_append jobs fresh months
  by_cases same : months = monthsSince ws.createdAt now
  · have used := ws.recorded_le_used jobs months
    have add := ws.recorded_append_le jobs fresh months
    have before := within months
    simp only [hasCapacity, Bool.or_eq_true, Bool.and_eq_true, decide_eq_true_eq] at capacity
    rw [cleanupPeriodFor, ← same] at capacity
    rcases capacity with ⟨-, nothing⟩ | room
    · omega
    · omega
  · rw [ws.recorded_append_other]
    · exact (within months).trans (Nat.add_le_add_left grows _)
    · intro job mem contains
      rw [created job mem] at contains
      exact same (cleanupPeriod_unique contains inPeriod)

end Workspace

/-! ## Updates -/

/-- An update that holds no more than before. -/
structure Job.Relaxes (old new : Job) : Prop where
  createdAt : new.createdAt = old.createdAt
  unit : new.unit = old.unit
  quotaUnits : new.quotaUnits ≤ old.quotaUnits
  restored : old.restored ≤ new.restored
  counts : new.countsAsCleanup = true → old.countsAsCleanup = true

theorem Job.Relaxes.refl (job : Job) : job.Relaxes job := ⟨rfl, rfl, le_rfl, le_rfl, fun h => h⟩

theorem Workspace.withinLimit_map {ws : Workspace} {jobs : List Job} {f : Job → Job}
    (within : ws.WithinLimit jobs) (relaxes : ∀ job ∈ jobs, job.Relaxes (f job)) :
    ws.WithinLimit (jobs.map f) := by
  intro months
  have created : ∀ job ∈ jobs,
      (cleanupPeriod ws.createdAt months).Contains (f job).createdAt ↔
        (cleanupPeriod ws.createdAt months).Contains job.createdAt := fun job mem => by
    rw [(relaxes job mem).createdAt]
  have inPeriod : (jobs.map f).filter (fun job =>
      (cleanupPeriod ws.createdAt months).Contains job.createdAt) =
      (jobs.filter fun job =>
        (cleanupPeriod ws.createdAt months).Contains job.createdAt).map f := by
    rw [List.filter_map]
    refine congrArg _ (List.filter_congr fun job mem => ?_)
    simpa using created job mem
  refine le_trans ?_ ((within months).trans (Nat.add_le_add_left ?_ _))
  · simp only [recorded, inPeriod, List.map_map]
    split
    · exact List.sum_le_sum fun job mem =>
        (relaxes job (List.mem_of_mem_filter mem)).quotaUnits
    · refine Finset.card_le_card fun unit mem => ?_
      simp only [List.mem_toFinset, List.mem_map, List.mem_filter] at mem ⊢
      obtain ⟨_, ⟨⟨job, mem, rfl⟩, counts⟩, rfl⟩ := mem
      have old := relaxes job mem.1
      exact ⟨job, ⟨mem, old.counts counts⟩, old.unit.symm⟩
  · simp only [restored, inPeriod, List.map_map]
    split
    · exact List.sum_le_sum fun job mem => (relaxes job (List.mem_of_mem_filter mem)).restored
    · exact le_rfl

theorem relaxes_execute {job : Job} (live : job.live = true) :
    job.Relaxes { job with status := .executing } where
  createdAt := rfl
  unit := rfl
  quotaUnits := le_rfl
  restored := le_rfl
  counts := by
    intro counts
    simp only [Job.live, Bool.or_eq_true, decide_eq_true_eq] at live
    rcases live with queued | executing <;> simp_all [Job.countsAsCleanup]

theorem relaxes_settled {job : Job} (live : job.live = true) (held : job.undone = none)
    (affected : ℕ) : job.Relaxes (job.settled affected) where
  createdAt := rfl
  unit := rfl
  quotaUnits := by
    simp only [Job.settled]
    split
    · exact Nat.zero_le _
    · exact Nat.min_le_left _ _
  restored := by simp [Job.restored, held]
  counts := by
    intro counts
    simp only [Job.live, Bool.or_eq_true, decide_eq_true_eq] at live
    rcases live with queued | executing <;> simp_all [Job.countsAsCleanup, Job.settled]

theorem relaxes_failedNow {job : Job} (held : job.undone = none) : job.Relaxes job.failedNow where
  createdAt := rfl
  unit := rfl
  quotaUnits := Nat.zero_le _
  restored := by simp [Job.restored, held]
  counts := by simp [Job.countsAsCleanup, Job.failedNow]

theorem relaxes_undone {job : Job} (held : job.undone = none) (affected : ℕ) :
    job.Relaxes { job with undone := some affected } where
  createdAt := rfl
  unit := rfl
  quotaUnits := le_rfl
  restored := by simp [Job.restored, held]
  counts := fun h => h

/-! ## The inserts of a bulk -/

theorem insertJob_cases (jobs : List Job) (input : Job) :
    (∃ row, insertJob jobs input = (jobs, true, row)) ∨
      insertJob jobs input =
        (jobs ++ [{ input with id := jobs.length }], false, { input with id := jobs.length }) := by
  unfold insertJob
  split
  case h_1 row _ => exact .inl ⟨row, rfl⟩
  case h_2 => exact .inr rfl

/-- One insert of the loop. -/
def Persisted.insert (p : Persisted) (input : Job) : Persisted :=
  let row := insertJob p.jobs input
  ⟨row.1, some (p.anchorId.getD row.2.2.id), if row.2.1 then p.fresh else p.fresh ++ [row.2.2]⟩

theorem persistSender_eq (plan : Plan) (ws : Workspace) (started : Instant) (p : Persisted)
    (sender : Sender) :
    plan.persistSender ws started p sender =
      let primary := p.insert (newJob plan.request.primary sender
        (plan.primaryCount sender.senderKey)
        (ws.meterUnits plan.request.primary (plan.primaryCount sender.senderKey))
        (plan.request.primaryKey sender.id) p.anchorId started)
      match plan.request.secondary with
      | none => primary
      | some verb => primary.insert (newJob verb sender (plan.secondaryCount sender.senderKey)
          (ws.meterUnits verb (plan.secondaryCount sender.senderKey))
          (plan.request.secondaryKey verb sender.id) primary.anchorId started) := by
  unfold Plan.persistSender Persisted.insert
  cases plan.request.secondary <;> rfl

/-- What the loop has done for some of the senders, whose jobs hold at most `units`. -/
structure Persisted.Spec (started : Instant) (jobs : List Job) (senders : List Sender)
    (units : ℕ) (p : Persisted) : Prop where
  jobs : p.jobs = jobs ++ p.fresh
  rows : ∀ job ∈ p.fresh, job.createdAt = started ∧ job.undone = none ∧
    some job.group = p.anchorId ∧ ∃ sender ∈ senders, job.senderId = some sender.id
  units : (p.fresh.map (·.quotaUnits)).sum ≤ units
  anchor : p.anchorId = none → p.fresh = []

theorem Persisted.Spec.insert {started : Instant} {jobs : List Job} {senders : List Sender}
    {units : ℕ} {p : Persisted} (spec : p.Spec started jobs senders units) (verb : Verb)
    {sender : Sender} (known : sender ∈ senders) (requestedCount quotaUnits : ℕ) (key : String) :
    (p.insert (newJob verb sender requestedCount quotaUnits key p.anchorId started)).Spec started
      jobs senders (units + quotaUnits) := by
  -- The anchor, once set, stays; before it there is no row.
  have older : ∀ id, ∀ job ∈ p.fresh, job.createdAt = started ∧ job.undone = none ∧
      some job.group = some (p.anchorId.getD id) ∧
      ∃ sender ∈ senders, job.senderId = some sender.id := by
    intro id job mem
    obtain ⟨created, held, group, own⟩ := spec.rows job mem
    refine ⟨created, held, ?_, own⟩
    rw [← group]
    rfl
  rcases insertJob_cases p.jobs
    (newJob verb sender requestedCount quotaUnits key p.anchorId started) with ⟨row, h⟩ | h
  · refine ⟨?_, ?_, ?_, ?_⟩ <;> simp only [Persisted.insert, h, if_true]
    · exact spec.jobs
    · exact older row.id
    · exact spec.units.trans (Nat.le_add_right _ _)
    · exact fun h => by contradiction
  · refine ⟨?_, ?_, ?_, ?_⟩ <;> simp only [Persisted.insert, h, Bool.false_eq_true, if_false]
    · rw [spec.jobs, List.append_assoc]
    · intro job mem
      rcases List.mem_append.mp mem with mem | mem
      · exact older _ job mem
      · rw [List.mem_singleton.mp mem]
        refine ⟨rfl, rfl, ?_, sender, known, rfl⟩
        cases p.anchorId <;> rfl
    · have := spec.units
      simp only [List.map_append, List.sum_append, newJob, List.map_cons, List.map_nil,
        List.sum_cons, List.sum_nil]
      omega
    · exact fun h => by contradiction

theorem Persisted.Spec.persistSender {plan : Plan} {ws : Workspace} {started : Instant}
    {jobs : List Job} {senders : List Sender} {units : ℕ} {p : Persisted}
    (spec : p.Spec started jobs senders units) {sender : Sender} (known : sender ∈ senders) :
    (plan.persistSender ws started p sender).Spec started jobs senders
      (units + plan.unitsOf ws sender) := by
  have primary := spec.insert plan.request.primary known (plan.primaryCount sender.senderKey)
    (ws.meterUnits plan.request.primary (plan.primaryCount sender.senderKey))
    (plan.request.primaryKey sender.id)
  rw [persistSender_eq, Plan.unitsOf]
  cases plan.request.secondary with
  | none => exact primary
  | some verb =>
    rw [← Nat.add_assoc]
    exact primary.insert verb known _ _ _

theorem Plan.persist_spec (plan : Plan) (ws : Workspace) (started : Instant) (jobs : List Job) :
    (plan.persist ws started jobs).Spec started jobs plan.actionable
      (plan.actionable.map (plan.unitsOf ws)).sum := by
  suffices all : ∀ senders ⊆ plan.actionable, ∀ units p,
      Persisted.Spec started jobs plan.actionable units p →
      (senders.foldl (plan.persistSender ws started) p).Spec started jobs plan.actionable
        (units + (senders.map (plan.unitsOf ws)).sum) by
    simpa [Plan.persist] using all plan.actionable (List.Subset.refl _) 0 ⟨jobs, none, []⟩
      ⟨(List.append_nil _).symm, by simp, by simp, fun _ => rfl⟩
  intro senders
  induction senders with
  | nil => exact fun _ units p spec => by simpa using spec
  | cons sender senders ih =>
    intro known units p spec
    obtain ⟨first, rest⟩ := List.cons_subset.mp known
    rw [List.map_cons, List.sum_cons, ← Nat.add_assoc]
    exact ih rest _ _ (spec.persistSender first)

/-- The rows that a bulk inserts hold at most the units it needs. -/
theorem Plan.load_persist_le (plan : Plan) (ws : Workspace) (started : Instant)
    (jobs : List Job) : ws.load (plan.persist ws started jobs).fresh ≤ plan.unitsNeeded ws := by
  have spec := plan.persist_spec ws started jobs
  unfold Workspace.load Plan.unitsNeeded
  split
  · exact spec.units
  · -- Every row is in the anchor's group, with its sender.
    have units : ((plan.persist ws started jobs).fresh.map (·.unit)).toFinset ⊆
        (plan.actionable.map fun sender =>
          ((plan.persist ws started jobs).anchorId.getD 0,
            (Sum.inl sender.id : String ⊕ ℕ))).toFinset := by
      intro unit mem
      simp only [List.mem_toFinset, List.mem_map] at mem ⊢
      obtain ⟨job, mem, rfl⟩ := mem
      obtain ⟨-, -, group, sender, known, own⟩ := spec.rows job mem
      exact ⟨sender, known, by simp [Job.unit, own, ← group]⟩
    calc _ ≤ _ := Finset.card_le_card units
      _ ≤ _ := List.toFinset_card_le _
      _ = _ := List.length_map _

theorem insertJob_of_key {jobs : List Job} {input : Job}
    (there : hasJobWithKey jobs input.idempotencyKey = true) :
    ∃ row, insertJob jobs input = (jobs, true, row) := by
  obtain ⟨job, mem, key⟩ := List.any_eq_true.mp there
  unfold insertJob
  split
  case h_1 row _ => exact ⟨row, rfl⟩
  case h_2 absent => exact absurd key (List.find?_eq_none.mp absent job mem)

theorem Persisted.insert_of_key {p : Persisted} {verb : Verb} {sender : Sender}
    {requestedCount quotaUnits : ℕ} {key : String} {compositeId : Option ℕ} {started : Instant}
    (there : hasJobWithKey p.jobs key = true) :
    (p.insert (newJob verb sender requestedCount quotaUnits key compositeId started)).jobs =
        p.jobs ∧
      (p.insert (newJob verb sender requestedCount quotaUnits key compositeId started)).fresh =
        p.fresh := by
  obtain ⟨row, h⟩ : ∃ row, insertJob p.jobs
      (newJob verb sender requestedCount quotaUnits key compositeId started) =
        (p.jobs, true, row) := insertJob_of_key there
  simp [Persisted.insert, h]

theorem persistSender_of_keys {plan : Plan} (ws : Workspace) (started : Instant) (p : Persisted)
    {sender : Sender}
    (keys : ∀ key ∈ plan.request.ownKeys sender, hasJobWithKey p.jobs key = true) :
    (plan.persistSender ws started p sender).jobs = p.jobs ∧
      (plan.persistSender ws started p sender).fresh = p.fresh := by
  rw [persistSender_eq]
  have there : hasJobWithKey p.jobs (plan.request.primaryKey sender.id) = true :=
    keys _ (by simp [BulkRequest.ownKeys])
  cases second : plan.request.secondary with
  | none => exact Persisted.insert_of_key there
  | some verb =>
    have there' : hasJobWithKey p.jobs (plan.request.secondaryKey verb sender.id) = true :=
      keys _ (by simp [BulkRequest.ownKeys, second])
    obtain ⟨jobs, fresh⟩ := Persisted.insert_of_key (p := p) there
    obtain ⟨jobs', fresh'⟩ := Persisted.insert_of_key (jobs.symm ▸ there')
    exact ⟨jobs'.trans jobs, fresh'.trans fresh⟩

/-- A bulk inserts nothing when all its keys are there. -/
theorem Plan.persist_of_keys {plan : Plan} {ws : Workspace} {started : Instant}
    {jobs : List Job} (keys : ∀ sender ∈ plan.actionable, ∀ key ∈ plan.request.ownKeys sender,
      hasJobWithKey jobs key = true) :
    (plan.persist ws started jobs).jobs = jobs ∧ (plan.persist ws started jobs).fresh = [] := by
  suffices all : ∀ senders ⊆ plan.actionable, ∀ p : Persisted, p.jobs = jobs → p.fresh = [] →
      (senders.foldl (plan.persistSender ws started) p).jobs = jobs ∧
        (senders.foldl (plan.persistSender ws started) p).fresh = [] from
    all plan.actionable (List.Subset.refl _) ⟨jobs, none, []⟩ rfl rfl
  intro senders
  induction senders with
  | nil => exact fun _ p same none => ⟨same, none⟩
  | cons sender senders ih =>
    intro known p same none
    obtain ⟨first, rest⟩ := List.cons_subset.mp known
    obtain ⟨same', none'⟩ := persistSender_of_keys ws started p
      fun key mem => same ▸ keys sender first key mem
    exact ih rest _ (same'.trans same) (none'.trans none)

/-! ## Runs -/

/-- The check of a writer reads the period in which its rows are created. -/
def InPeriod (ws : Workspace) (started now : Instant) : Prop :=
  (cleanupPeriodFor ws.createdAt now).Contains started

/-- When the key of the first actionable sender exists, so do all keys of the bulk. -/
def WholeReplay (jobs : List Job) (plan : Plan) : Prop :=
  hasJobWithKey jobs plan.anchorKey = true →
    ∀ sender ∈ plan.actionable, ∀ key ∈ plan.request.ownKeys sender, hasJobWithKey jobs key = true

/-- The condition on a move: a replay is one of the whole bulk, another writer counts its
own rows, and each check reads the period in which its rows are created. -/
def Meets (ws : Workspace) (state : State) : Move → Prop
  | .commit i started now => ∀ plan ∈ state.plans[i]?,
      WholeReplay state.jobs plan ∧ InPeriod ws started now
  | .enqueue jobs needed started now => ws.load (jobs.map (.enqueued started)) ≤ needed ∧
      ws.hasCapacity state.jobs needed now = true ∧ InPeriod ws started now
  | _ => True

/-- Every move of a run meets the condition. -/
def MeetsAll (ws : Workspace) : State → List Move → Prop
  | _, [] => True
  | state, move :: moves => Meets ws state move ∧ MeetsAll ws (step ws state move) moves

/-- Every row of a bulk was counted by the check of its transaction. -/
def Counted (committed : Committed) : Prop :=
  ∀ job ∈ committed.fresh, ∃ sender ∈ committed.counted, job.senderId = some sender.id

structure State.Inv (ws : Workspace) (state : State) : Prop where
  within : ws.WithinLimit state.jobs
  counted : ∀ committed ∈ state.commits, Counted committed
  held : ∀ job ∈ state.jobs, job.undone ≠ none → job.status = .done

namespace State

variable {ws : Workspace} {state : State}

theorem inv_initial : State.initial.Inv ws where
  within months := by simp [State.initial, Workspace.recorded]
  counted := by simp [State.initial]
  held := by simp [State.initial]

/-- An update of rows that relaxes each of them. -/
theorem Inv.update (inv : state.Inv ws) (id : ℕ) {p : Job → Bool} {f : Job → Job}
    (relaxes : ∀ job ∈ state.jobs, p job = true → job.Relaxes (f job) ∧
      ((f job).undone ≠ none → (f job).status = .done)) :
    State.Inv ws { state with jobs := updateWhere state.jobs id p f } where
  within := by
    refine Workspace.withinLimit_map inv.within fun job mem => ?_
    split
    case isTrue chosen => exact (relaxes job mem (by simp_all)).1
    case isFalse => exact .refl job
  counted := inv.counted
  held job listed := by
    obtain ⟨old, mem, rfl⟩ := List.mem_map.mp listed
    split
    case isTrue chosen => exact (relaxes old mem (by simp_all)).2
    case isFalse => exact inv.held old mem

theorem Inv.undone_eq_none (inv : state.Inv ws) {job : Job} (mem : job ∈ state.jobs)
    (live : job.live = true) : job.undone = none := by
  by_contra undone
  simp [Job.live, inv.held job mem undone] at live

theorem Inv.commit (inv : state.Inv ws) {plan : Plan} {started now : Instant}
    (whole : WholeReplay state.jobs plan) (inPeriod : InPeriod ws started now) :
    (commit ws state plan started now).Inv ws := by
  have spec := plan.persist_spec ws started state.jobs
  unfold Actions.commit
  dsimp only
  split
  case isFalse => exact inv
  case isTrue passes =>
    refine ⟨?_, ?_, ?_⟩
    · cases replayed : hasJobWithKey state.jobs plan.anchorKey with
      | true =>
        rw [(Plan.persist_of_keys (whole replayed)).1]
        exact inv.within
      | false =>
        rw [replayed, Bool.false_or] at passes
        rw [spec.jobs]
        exact ws.withinLimit_append inv.within passes (plan.load_persist_le ws started state.jobs)
          inPeriod fun job mem => (spec.rows job mem).1
    · intro committed mem
      rcases List.mem_append.mp mem with mem | mem
      · exact inv.counted committed mem
      · rw [List.mem_singleton.mp mem]
        intro job mem
        cases replayed : hasJobWithKey state.jobs plan.anchorKey with
        | true =>
          rw [(Plan.persist_of_keys (whole replayed)).2] at mem
          contradiction
        | false => exact (spec.rows job mem).2.2.2
    · intro job mem undone
      rw [spec.jobs] at mem
      rcases List.mem_append.mp mem with mem | mem
      · exact inv.held job mem undone
      · exact absurd (spec.rows job mem).2.1 undone

theorem Inv.step (inv : state.Inv ws) {move : Move} (meets : Meets ws state move) :
    (step ws state move).Inv ws := by
  cases move with
  | post request primaryCount secondaryCount =>
    simp only [Actions.step, post]
    split
    · exact inv
    · exact ⟨inv.within, inv.counted, inv.held⟩
  | commit i started now =>
    simp only [Actions.step]
    split
    case h_1 plan found => exact inv.commit (meets plan found).1 (meets plan found).2
    case h_2 => exact inv
  | enqueue jobs needed started now =>
    obtain ⟨counted, capacity, inPeriod⟩ := meets
    refine ⟨ws.withinLimit_append inv.within capacity counted inPeriod ?_, inv.counted, ?_⟩
    · intro job mem
      obtain ⟨_, -, rfl⟩ := List.mem_map.mp mem
      rfl
    · intro job mem undone
      rcases List.mem_append.mp mem with mem | mem
      · exact inv.held job mem undone
      · obtain ⟨_, -, rfl⟩ := List.mem_map.mp mem
        contradiction
  | execute id =>
    refine inv.update id fun job mem live => ⟨relaxes_execute live, fun undone => ?_⟩
    exact absurd (inv.undone_eq_none mem live) undone
  | settle id affected =>
    refine inv.update id fun job mem live => ⟨?_, fun _ => rfl⟩
    exact relaxes_settled live (inv.undone_eq_none mem live) affected
  | fail id =>
    refine inv.update id fun job mem live => ?_
    have held := inv.undone_eq_none mem live
    exact ⟨relaxes_failedNow held, fun undone => absurd held undone⟩
  | undo id affected =>
    refine inv.update id fun job mem done => ?_
    simp only [Bool.and_eq_true, decide_eq_true_eq, Option.isNone_iff_eq_none] at done
    exact ⟨relaxes_undone done.2 affected, fun _ => done.1⟩
  | protect => exact ⟨inv.within, inv.counted, inv.held⟩
  | rebuild => exact ⟨inv.within, inv.counted, inv.held⟩

theorem Inv.run {moves : List Move} (inv : state.Inv ws) (meets : MeetsAll ws state moves) :
    (run ws state moves).Inv ws := by
  induction moves generalizing state with
  | nil => exact inv
  | cons move moves ih => exact ih (inv.step meets.1) meets.2

end State

theorem Workspace.restored_of_no_undo {ws : Workspace} {jobs : List Job}
    (noUndo : ∀ job ∈ jobs, job.undone = none) (months : ℕ) : ws.restored jobs months = 0 := by
  unfold restored
  split
  · refine List.sum_eq_zero fun units listed => ?_
    obtain ⟨job, mem, rfl⟩ := List.mem_map.mp listed
    simp [Job.restored, noUndo job (List.mem_of_mem_filter mem)]
  · rfl

def sampleWorkspace : Workspace where
  createdAt := .of 0 1 0
  meterV2 := true
  cleanupActionsPerMonth := 5
  emailsPerMonth := 1000

def sampleBulk : BulkRequest := ⟨["a", "b"], .delete, none, "k"⟩

/-- The bulk is posted while the second sender is Protected. -/
def sampleMoves : List Move :=
  [.rebuild [⟨"a", "A"⟩, ⟨"b", "B"⟩], .protect ["B"],
    .post sampleBulk (fun _ => 600) (fun _ => 0), .commit 0 (.of 0 2 0) (.of 0 2 0)]

/-- And again when it is not. -/
def sampleReplay : List Move :=
  [.protect [], .post sampleBulk (fun _ => 600) (fun _ => 0),
    .commit 1 (.of 0 2 1) (.of 0 2 1)]

/-- In every run that meets the condition the jobs of a period hold at most the limit,
where Undo gives back what it restores, and every row of a bulk was counted. -/
theorem bulk_within_limit (ws : Workspace) (moves : List Move)
    (meets : MeetsAll ws .initial moves) :
    let final := run ws .initial moves
    (∀ months, ws.recorded final.jobs months ≤
        ws.meterLimitFor + ws.restored final.jobs months) ∧
      ((∀ job ∈ final.jobs, job.undone = none) →
        ∀ months, ws.recorded final.jobs months ≤ ws.meterLimitFor) ∧
      ∀ committed ∈ final.commits, Counted committed := by
  have inv := State.inv_initial.run meets
  refine ⟨inv.within, fun noUndo months => ?_, inv.counted⟩
  have within := inv.within months
  rwa [Workspace.restored_of_no_undo noUndo, Nat.add_zero] at within

theorem bulk_within_limit_sample :
    MeetsAll sampleWorkspace .initial sampleMoves ∧
      (run sampleWorkspace .initial sampleMoves).commits.length = 1 ∧
      ∀ months, sampleWorkspace.recorded (run sampleWorkspace .initial sampleMoves).jobs months ≤
        1000 := by
  have meets : MeetsAll sampleWorkspace .initial sampleMoves := by
    refine ⟨trivial, trivial, trivial, fun plan planned => ?_, trivial⟩
    obtain rfl : (⟨sampleBulk, [⟨"a", "A"⟩], by decide, fun _ => 600, fun _ => 0⟩ : Plan) =
        plan := Option.some.inj planned
    refine ⟨?_, by unfold InPeriod; decide⟩
    unfold WholeReplay
    decide
  exact ⟨meets, by decide, (bulk_within_limit sampleWorkspace sampleMoves meets).2.1 (by decide)⟩

/-- The second post inserts a row that no check counted, and the period holds 1200 of 1000
units. -/
theorem bulk_exceeds_limit_sample :
    let final := run sampleWorkspace .initial (sampleMoves ++ sampleReplay)
    sampleWorkspace.recorded final.jobs 0 = 1200 ∧ sampleWorkspace.meterLimitFor = 1000 ∧
      (∀ job ∈ final.jobs, job.undone = none) ∧
      ∃ committed ∈ final.commits, ¬ Counted committed := by
  refine ⟨by decide, by decide, by decide, ?_⟩
  unfold Counted
  decide

end DeclutrMail.Actions
