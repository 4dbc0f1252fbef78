import DeclutrMail.Billing.Entitlements
import Mathlib.Logic.Relation

/-!
# The billing reconciliation sweep

`runBillingReconciliationSweep` at statement granularity: the dunning flip commits by itself,
the tiers are recomputed in a second transaction. `SweepInv` says what each point of a run
still owes: a workspace is selected by the filter, or its tier was right at some earlier
instant. A run that completes leaves every tier right (`sweep_restores_tiers`), provided no
run stops while only its own list of flipped workspaces would have selected one.
-/

namespace DeclutrMail.Billing

/-- The `WHERE` of the dunning flip. -/
def Subscription.dunned (now : ℤ) (s : Subscription) : Bool :=
  s.status = .pastDue && s.entitlementEndsAt.any fun at_ => decide (at_ < now)

def Subscription.flip (now : ℤ) (s : Subscription) : Subscription :=
  if s.dunned now then
    { s with status := .canceled, cancelSource := some (s.cancelSource.getD .provider) }
  else s

/-- The dunning flip. -/
def Db.dunningFlip (db : Db) (now : ℤ) : Db :=
  { db with subscriptions := db.subscriptions.map (·.flip now) }

/-- `RETURNING workspace_id`. -/
def Db.flippedWorkspaceIds (db : Db) (now : ℤ) : List WorkspaceId :=
  (db.subscriptions.filter (·.dunned now)).map (·.workspaceId)

/-- A granting status, and a deadline in the past. -/
def Subscription.lapsed (now : ℤ) (s : Subscription) : Bool :=
  s.status.granting && s.entitlementEndsAt.any fun at_ => decide (at_ < now)

/-- `recomputeFilter`. -/
def recomputeFilter (db : Db) (flipped : List WorkspaceId) (now : ℤ) (w : WorkspaceId) : Bool :=
  (db.subscriptions.any fun s => s.workspaceId = w && s.lapsed now) || decide (w ∈ flipped) ||
    !(db.grantsOf w).isEmpty

/-- The rows that the sweep locks; their order only fixes that of the locks. -/
def lockedWorkspaces (db : Db) (flipped : List WorkspaceId) (now : ℤ) : List WorkspaceId :=
  (db.workspaces.map (·.id)).filter (recomputeFilter db flipped now)

/-- `UPDATE workspaces` of the locked rows. -/
def sweepWorkspaces (db : Db) (locked : List WorkspaceId) (now : ℤ) : List Workspace :=
  db.workspaces.map fun row =>
    if row.id ∈ locked then
      { row with tier := sweptTier db row.id now, foundingMember := sweptFounding db row.id now }
    else row

/-- The scheduled changes that have waited for more than seven days. -/
def staleScheduledChanges (db : Db) (now : ℤ) : List Subscription :=
  db.subscriptions.filter fun s => s.scheduled.any fun change =>
    decide (change.requestedAt < now - 7 * 24 * 60 * 60 * 1000)

structure BillingSweepResult where
  dunningFlipped : ℕ
  workspacesRecomputed : ℕ
  staleScheduledChanges : ℕ

/-- Where a run stands, with its local variables. `locked` and `updated` are inside the
transaction that began at `txNow`; `updated` holds its uncommitted rows. -/
inductive SweepPhase where
  | idle
  | flipped (ids : List WorkspaceId)
  | locked (ids : List WorkspaceId) (txNow : ℤ) (locked : List WorkspaceId)
  | updated (ids : List WorkspaceId) (txNow : ℤ) (recomputed : ℕ) (rows : List Workspace)
  | committed (ids : List WorkspaceId) (txNow : ℤ) (recomputed : ℕ)
  | done (txNow : ℤ) (result : BillingSweepResult)

/-- The workspaces that only the run itself knows it must recompute. -/
def SweepPhase.owed : SweepPhase → List WorkspaceId
  | .flipped ids | .locked ids _ _ | .updated ids _ _ _ => ids
  | .idle | .committed _ _ _ | .done _ _ => []

structure SweepState where
  now : ℤ
  db : Db
  phase : SweepPhase

/-- One statement of a sweep, the passing of time, or a run that stops. `stoppable` says where
a run may stop, `startable` when the recompute may begin. -/
inductive SweepStep (stoppable : Db → ℤ → List WorkspaceId → Prop) (startable : Db → ℤ → Prop) :
    SweepState → SweepState → Prop
  | wait {now now' : ℤ} {db : Db} {phase : SweepPhase} (le : now ≤ now') :
    SweepStep stoppable startable ⟨now, db, phase⟩ ⟨now', db, phase⟩
  | flip {now : ℤ} {db : Db} : SweepStep stoppable startable ⟨now, db, .idle⟩
      ⟨now, db.dunningFlip now, .flipped (db.flippedWorkspaceIds now)⟩
  | lock {now : ℤ} {db : Db} {ids : List WorkspaceId} (permitted : startable db now) :
    SweepStep stoppable startable ⟨now, db, .flipped ids⟩
      ⟨now, db, .locked ids now (lockedWorkspaces db ids now)⟩
  | update {now txNow : ℤ} {db : Db} {ids locked : List WorkspaceId} :
    SweepStep stoppable startable ⟨now, db, .locked ids txNow locked⟩
      ⟨now, db, .updated ids txNow (db.workspaces.filter fun row => row.id ∈ locked).length
        (sweepWorkspaces db locked txNow)⟩
  | commit {now txNow : ℤ} {db : Db} {ids : List WorkspaceId} {n : ℕ} {rows : List Workspace} :
    SweepStep stoppable startable ⟨now, db, .updated ids txNow n rows⟩
      ⟨now, { db with workspaces := rows }, .committed ids txNow n⟩
  | report {now txNow : ℤ} {db : Db} {ids : List WorkspaceId} {n : ℕ} :
    SweepStep stoppable startable ⟨now, db, .committed ids txNow n⟩
      ⟨now, db, .done txNow ⟨ids.length, n, (Billing.staleScheduledChanges db now).length⟩⟩
  | finish {now txNow : ℤ} {db : Db} {result : BillingSweepResult} :
    SweepStep stoppable startable ⟨now, db, .done txNow result⟩ ⟨now, db, .idle⟩
  | stop {now : ℤ} {db : Db} {phase : SweepPhase} (permitted : stoppable db now phase.owed) :
    SweepStep stoppable startable ⟨now, db, phase⟩ ⟨now, db, .idle⟩

/-- The stored tier and flag are those of an instant. -/
def CorrectAt (db : Db) (t : ℤ) (row : Workspace) : Prop :=
  row.tier = recomputedTier db row.id t t ∧ row.foundingMember = recomputedFounding db row.id t

/-- The row is selected by the filter, or was right at some earlier instant. -/
def Owed (db : Db) (now : ℤ) (flipped : List WorkspaceId) (row : Workspace) : Prop :=
  recomputeFilter db flipped now row.id = true ∨ ∃ t ≤ now, CorrectAt db t row

/-- What holds between the statements of a run. -/
def SweepInv (s : SweepState) : Prop :=
  (∀ row ∈ s.db.workspaces, Owed s.db s.now s.phase.owed row) ∧
  match s.phase with
  | .idle | .flipped _ => True
  | .locked _ txNow locked =>
    txNow ≤ s.now ∧ ∀ row ∈ s.db.workspaces, row.id ∈ locked ∨ CorrectAt s.db txNow row
  | .updated _ txNow _ rows => txNow ≤ s.now ∧ ∀ row ∈ rows, CorrectAt s.db txNow row
  | .committed _ txNow _ | .done txNow _ =>
    txNow ≤ s.now ∧ ∀ row ∈ s.db.workspaces, CorrectAt s.db txNow row

/-- The workspaces that the run flipped would be selected again, or owe nothing. -/
def Recoverable (db : Db) (now : ℤ) (owed : List WorkspaceId) : Prop :=
  ∀ row ∈ db.workspaces, row.id ∈ owed →
    recomputeFilter db [] now row.id = true ∨ CorrectAt db now row

/-- No deadline of a live subscription falls on the instant itself. -/
def NoDeadlineAt (db : Db) (now : ℤ) : Prop :=
  ∀ s ∈ db.subscriptions, s.status.granting = true → s.entitlementEndsAt ≠ some now

variable {db db' : Db} {w : WorkspaceId} {now now' t : ℤ} {row : Workspace}
  {flipped locked : List WorkspaceId}

/-! ## What the filter passes over -/

theorem recomputeFilter_iff : recomputeFilter db flipped now w = true ↔
    (∃ s ∈ db.subscriptions, s.workspaceId = w ∧ s.lapsed now = true) ∨ w ∈ flipped ∨
      db.grantsOf w ≠ [] := by
  simp [recomputeFilter, or_assoc]

theorem lapsed_later {s : Subscription} (h : s.lapsed now = true) (le : now ≤ now') :
    s.lapsed now' = true := by
  simp only [Subscription.lapsed, Bool.and_eq_true, Option.any_eq_true, decide_eq_true_eq] at h ⊢
  exact h.imp_right fun ⟨at_, ends, past⟩ => ⟨at_, ends, past.trans_le le⟩

theorem recomputeFilter_later (h : recomputeFilter db flipped now w = true) (le : now ≤ now') :
    recomputeFilter db flipped now' w = true := by
  rw [recomputeFilter_iff] at h ⊢
  exact h.imp_left fun ⟨s, mem, of, lapsed⟩ => ⟨s, mem, of, lapsed_later lapsed le⟩

/-- Between an earlier instant and now, a deadline that is not in the past has changed
nothing, unless it falls on now. -/
theorem grants_eq {s : Subscription} (le : t ≤ now) (standing : s.lapsed now = false)
    (apart : s.status.granting = true → s.entitlementEndsAt ≠ some now) :
    s.grants t = s.grants now := by
  unfold Subscription.grants
  cases status : s.status.granting with
  | false => rfl
  | true =>
    have apart := apart status
    simp only [Subscription.lapsed, status, Bool.true_and] at standing
    cases ends : s.entitlementEndsAt with
    | none => rfl
    | some at_ =>
      rw [ends] at standing apart
      have after : ¬ at_ < now := by simpa using standing
      have off : at_ ≠ now := fun same => apart (by rw [same])
      simp only [unexpired_some, Bool.true_and, decide_eq_decide]
      omega

theorem granting_eq (le : t ≤ now) (unselected : ¬ recomputeFilter db flipped now w = true)
    (apart : NoDeadlineAt db now) : db.granting w t = db.granting w now := by
  refine List.filter_congr fun s mem => ?_
  by_cases of : s.workspaceId = w
  · have standing : s.lapsed now = false := by
      refine Bool.eq_false_iff.mpr fun lapsed => unselected ?_
      exact recomputeFilter_iff.mpr (.inl ⟨s, mem, of, lapsed⟩)
    rw [grants_eq le standing (apart s mem)]
  · simp [of]

/-- A row that the filter passes over is right now if it was right before. -/
theorem CorrectAt.unselected (h : CorrectAt db t row) (le : t ≤ now)
    (passed : ¬ recomputeFilter db flipped now row.id = true) (apart : NoDeadlineAt db now) :
    CorrectAt db now row := by
  have paid := granting_eq le passed apart
  have none : db.grantsOf row.id = [] := by
    by_contra some
    exact passed (recomputeFilter_iff.mpr (.inr (.inr some)))
  unfold CorrectAt recomputedTier recomputedFounding liveGrantTierForWorkspace
    highestLiveGrantForWorkspace Db.liveGrants at h ⊢
  rw [none] at h ⊢
  rw [← paid]
  exact h

theorem Owed.later (h : Owed db now flipped row) (le : now ≤ now') : Owed db now' flipped row :=
  h.imp (fun selected => recomputeFilter_later selected le)
    fun ⟨t, before, right⟩ => ⟨t, before.trans le, right⟩

/-! ## The dunning flip -/

theorem flip_of_not_dunned {s : Subscription} (h : s.dunned now = false) : s.flip now = s := by
  simp [Subscription.flip, h]

theorem workspaceId_flip (s : Subscription) : (s.flip now).workspaceId = s.workspaceId := by
  unfold Subscription.flip
  split_ifs <;> rfl

/-- The rows of a workspace that was not flipped. -/
theorem map_flip_eq {s : Subscription} (mem : s ∈ db.subscriptions) (of : s.workspaceId = w)
    (spared : w ∉ db.flippedWorkspaceIds now) : s.flip now = s := by
  refine flip_of_not_dunned (Bool.eq_false_iff.mpr fun dunned => spared ?_)
  exact List.mem_map.mpr ⟨s, List.mem_filter.mpr ⟨mem, dunned⟩, of⟩

theorem granting_dunningFlip (spared : w ∉ db.flippedWorkspaceIds now) (t : ℤ) :
    (db.dunningFlip now).granting w t = db.granting w t := by
  have same : ∀ s ∈ db.subscriptions,
      ((s.flip now).workspaceId = w && (s.flip now).grants t) = (s.workspaceId = w && s.grants t) := by
    intro s mem
    by_cases of : s.workspaceId = w
    · rw [map_flip_eq mem of spared]
    · simp [workspaceId_flip, of]
  have kept : db.subscriptions.filter ((fun s => s.workspaceId = w && s.grants t) ∘ (·.flip now)) =
      db.subscriptions.filter fun s => s.workspaceId = w && s.grants t :=
    List.filter_congr fun s mem => same s mem
  unfold Db.granting Db.dunningFlip
  rw [List.filter_map, kept]
  refine (List.map_congr_left fun s mem => ?_).trans (List.map_id _)
  obtain ⟨mem, of⟩ := List.mem_filter.mp mem
  simp only [Bool.and_eq_true, decide_eq_true_eq] at of
  exact map_flip_eq mem of.1 spared

theorem CorrectAt.dunningFlip (h : CorrectAt db t row)
    (spared : row.id ∉ db.flippedWorkspaceIds now) : CorrectAt (db.dunningFlip now) t row := by
  unfold CorrectAt recomputedTier recomputedFounding at h ⊢
  rw [granting_dunningFlip spared]
  exact h

theorem Owed.dunningFlip (h : Owed db now [] row) :
    Owed (db.dunningFlip now) now (db.flippedWorkspaceIds now) row := by
  by_cases flipped : row.id ∈ db.flippedWorkspaceIds now
  · exact .inl (recomputeFilter_iff.mpr (.inr (.inl flipped)))
  · refine h.imp (fun selected => ?_) fun ⟨t, before, right⟩ =>
      ⟨t, before, right.dunningFlip flipped⟩
    rcases recomputeFilter_iff.mp selected with ⟨s, mem, of, lapsed⟩ | mem | granted
    · refine recomputeFilter_iff.mpr (.inl ⟨s, List.mem_map.mpr ⟨s, mem, ?_⟩, of, lapsed⟩)
      exact map_flip_eq mem of flipped
    · exact absurd mem List.not_mem_nil
    · exact recomputeFilter_iff.mpr (.inr (.inr granted))

/-! ## The recompute -/

theorem correctAt_sweepWorkspaces
    (others : ∀ row ∈ db.workspaces, row.id ∈ locked ∨ CorrectAt db t row) :
    ∀ row ∈ sweepWorkspaces db locked t, CorrectAt db t row := by
  intro row mem
  obtain ⟨before, there, rfl⟩ := List.mem_map.mp mem
  by_cases hit : before.id ∈ locked
  · rw [if_pos hit]
    exact ⟨sweptTier_eq_recomputedTier, rfl⟩
  · rw [if_neg hit]
    exact (others before there).resolve_left hit

theorem locked_or_correct (owed : ∀ row ∈ db.workspaces, Owed db now flipped row)
    (apart : NoDeadlineAt db now) :
    ∀ row ∈ db.workspaces, row.id ∈ lockedWorkspaces db flipped now ∨ CorrectAt db now row := by
  intro row mem
  by_cases selected : recomputeFilter db flipped now row.id = true
  · exact .inl (List.mem_filter.mpr ⟨List.mem_map_of_mem mem, selected⟩)
  · obtain ⟨t, before, right⟩ := (owed row mem).resolve_left selected
    exact .inr (right.unselected before selected apart)

theorem Owed.recoverable {owed : List WorkspaceId} (h : Owed db now owed row)
    (mem : row ∈ db.workspaces) (ok : Recoverable db now owed) : Owed db now [] row := by
  by_cases flipped : row.id ∈ owed
  · exact (ok row mem flipped).imp_right fun right => ⟨now, le_rfl, right⟩
  · refine h.imp_left fun selected => ?_
    rcases recomputeFilter_iff.mp selected with lapsed | mem | granted
    · exact recomputeFilter_iff.mpr (.inl lapsed)
    · exact absurd mem flipped
    · exact recomputeFilter_iff.mpr (.inr (.inr granted))

theorem SweepInv.step {s s' : SweepState} (h : SweepInv s)
    (step : SweepStep Recoverable NoDeadlineAt s s') : SweepInv s' := by
  obtain ⟨owed, local_⟩ := h
  cases step with
  | @wait now now' db phase le =>
    refine ⟨fun row mem => (owed row mem).later le, ?_⟩
    cases phase with
    | idle | flipped _ => trivial
    | locked | updated | committed | done => exact ⟨local_.1.trans le, local_.2⟩
  | flip => exact ⟨fun row mem => (owed row mem).dunningFlip, trivial⟩
  | lock permitted => exact ⟨owed, le_rfl, locked_or_correct owed permitted⟩
  | update => exact ⟨owed, local_.1, correctAt_sweepWorkspaces local_.2⟩
  | commit =>
    obtain ⟨before, right⟩ := local_
    exact ⟨fun row mem => .inr ⟨_, before, right row mem⟩, before, right⟩
  | report => exact ⟨owed, local_⟩
  | finish => exact ⟨owed, trivial⟩
  | stop permitted => exact ⟨fun row mem => (owed row mem).recoverable mem permitted, trivial⟩

/-- The tier of a workspace was right at some earlier instant; one with grants, which may have
lapsed in any way, may have any tier. -/
def OnlyLapsed (db : Db) (now : ℤ) (row : Workspace) : Prop :=
  db.grantsOf row.id ≠ [] ∨ ∃ t ≤ now, CorrectAt db t row

theorem SweepInv.start (h : ∀ row ∈ db.workspaces, OnlyLapsed db now row) :
    SweepInv ⟨now, db, .idle⟩ :=
  ⟨fun row mem => (h row mem).imp_left fun granted =>
    recomputeFilter_iff.mpr (.inr (.inr granted)), trivial⟩

/-- After a run that completes, every workspace has the tier and the Founding flag that its
rows give at the instant of the recompute, whatever earlier runs stopped. -/
theorem sweep_restores_tiers {txNow : ℤ} {result : BillingSweepResult}
    (start : ∀ row ∈ db.workspaces, OnlyLapsed db now row)
    (run : Relation.ReflTransGen (SweepStep Recoverable NoDeadlineAt) ⟨now, db, .idle⟩
      ⟨now', db', .done txNow result⟩) :
    txNow ≤ now' ∧ ∀ row ∈ db'.workspaces,
      IsGreatest (db'.entitled row.id txNow) row.tier ∧
      (row.foundingMember = true ↔ db'.founding row.id txNow) ∧
      row.tier = recomputedTier db' row.id txNow txNow ∧
      row.foundingMember = recomputedFounding db' row.id txNow := by
  have inv : SweepInv ⟨now', db', .done txNow result⟩ := by
    have first := SweepInv.start start
    generalize (⟨now, db, .idle⟩ : SweepState) = s at first run
    generalize (⟨now', db', .done txNow result⟩ : SweepState) = s' at run
    induction run with
    | refl => exact first
    | tail _ step ih => exact ih.step step
  obtain ⟨-, before, right⟩ := inv
  refine ⟨before, fun row mem => ?_⟩
  obtain ⟨tier, flag⟩ := right row mem
  refine ⟨?_, ?_, tier, flag⟩
  · rw [tier]
    exact isGreatest_recomputedTier
  · rw [flag, recomputedFounding_iff]

/-- A failed payment whose grace ended at instant 5. -/
def lapsedDb : Db where
  workspaces := [⟨"w", .plus, false⟩]
  users := [⟨"u", "owner@example.test", "w", 0⟩]
  subscriptions := [⟨"w", .paddle, "sub", .plus, .pastDue, "price", .annual, some 0, false, none,
    some 5, none, false, none⟩]
  grants := []

theorem onlyLapsed_lapsedDb : ∀ row ∈ lapsedDb.workspaces, OnlyLapsed lapsedDb 10 row := by
  intro row mem
  rw [List.mem_singleton.mp mem]
  exact .inr ⟨0, by decide, by decide, by decide⟩

/-- A run that stops after its recompute has committed, and a run that completes. -/
theorem sweep_restores_tiers_lapsed : ∃ db' : Db, db'.workspaces = [⟨"w", .free, false⟩] ∧
    ∀ row ∈ db'.workspaces, IsGreatest (db'.entitled row.id 10) row.tier := by
  let flipped := lapsedDb.dunningFlip 10
  let settled : Db := { flipped with workspaces := sweepWorkspaces flipped ["w"] 10 }
  let db' : Db := { settled.dunningFlip 10 with
    workspaces := sweepWorkspaces (settled.dunningFlip 10) [] 10 }
  have early : NoDeadlineAt flipped 10 := by
    unfold NoDeadlineAt
    decide
  have late : NoDeadlineAt (settled.dunningFlip 10) 10 := by
    unfold NoDeadlineAt
    decide
  have first : Relation.ReflTransGen (SweepStep Recoverable NoDeadlineAt) ⟨10, lapsedDb, .idle⟩
      ⟨10, settled, .idle⟩ :=
    ((((Relation.ReflTransGen.single .flip).tail (.lock early)).tail .update).tail .commit).tail
      (.stop fun _ _ mem => absurd mem List.not_mem_nil)
  have second : Relation.ReflTransGen (SweepStep Recoverable NoDeadlineAt) ⟨10, settled, .idle⟩
      ⟨10, db', .done 10 ⟨0, 0, 0⟩⟩ :=
    ((((Relation.ReflTransGen.single .flip).tail (.lock late)).tail .update).tail .commit).tail
      .report
  have right := sweep_restores_tiers onlyLapsed_lapsedDb (first.trans second)
  exact ⟨db', by decide, fun row mem => (right.2 row mem).1⟩

/-- The dunning flip commits, the run stops, and the next run completes: the workspace keeps
the tier that it no longer pays for. -/
theorem sweep_stopped_after_flip :
    (∀ row ∈ lapsedDb.workspaces, OnlyLapsed lapsedDb 10 row) ∧ ∃ db' txNow result,
      Relation.ReflTransGen (SweepStep (fun _ _ _ => True) fun _ _ => True) ⟨10, lapsedDb, .idle⟩
        ⟨10, db', .done txNow result⟩ ∧
      ∃ row ∈ db'.workspaces, ¬ IsGreatest (db'.entitled row.id txNow) row.tier := by
  refine ⟨onlyLapsed_lapsedDb, _, _, _, ((((((Relation.ReflTransGen.single .flip).tail
    (.stop trivial)).tail .flip).tail (.lock trivial)).tail .update).tail .commit).tail .report,
    _, List.mem_singleton.mpr rfl, ?_⟩
  intro greatest
  have free := greatest.unique isGreatest_recomputedTier
  revert free
  decide

end DeclutrMail.Billing
