import Mathlib.Tactic.SplitIfs
import DeclutrMail.Interleaving.Requests
import DeclutrMail.Deletion.AccountPurge

/-!
# When a deletion can be cancelled

A request that is pending has not been executed in part. The claim of a run keeps others out as
long as the run finishes before the takeover cutoff. A billing check that fails puts back a request
that is stranded, whatever the run that died has done.
-/

namespace DeclutrMail.Deletion

open Interleaving

variable {w w' : World} {t : ℕ}

/-! ## The invariant -/

structure Inv (w : World) : Prop where
  /-- Nothing has been done for a request that is not executing. -/
  untouched : w.amiss = false → ∀ row, w.request = some row → row.status ≠ .executing →
    w.begun = false ∧ w.purging = []
  /-- The row is that of the run which has claimed it. -/
  claimed : w.late = false → ∀ r ∈ w.purging, w.now ≤ r.2 + EXECUTING_TAKEOVER_AFTER_MS ∧
    ∀ row, w.request = some row → row.status = .executing ∧ row.executedAt = some r.2
  alone : w.late = false → w.purging.length ≤ 1

theorem DeletionRequest.claimable_of_executing {row : DeletionRequest} {startedAt reading : ℕ}
    (executing : row.status = .executing) (at_ : row.executedAt = some startedAt)
    (inTime : reading ≤ startedAt + EXECUTING_TAKEOVER_AFTER_MS) :
    row.claimable reading = false := by
  have fresh : ¬ startedAt + EXECUTING_TAKEOVER_AFTER_MS < reading := Nat.not_lt.mpr inTime
  rw [claimable, stranded, at_, executing, Option.any_some, decide_eq_false fresh]
  rfl

/-- A row that a run in time has claimed is nobody else's. -/
theorem Inv.not_claimable (inv : Inv w) (fine : w.late = false) {r : ℕ × ℕ}
    (mem : r ∈ w.purging) {row : DeletionRequest} (here : w.request = some row) {reading : ℕ}
    (read : reading ≤ w.now) : row.claimable reading = false := by
  obtain ⟨inTime, row_eq⟩ := inv.claimed fine r mem
  obtain ⟨executing, at_⟩ := row_eq row here
  exact row.claimable_of_executing executing at_ (Nat.le_trans read inTime)

/-- Of the runs that are in time, none has claimed a row that is claimable. -/
theorem Inv.purging_nil (inv : Inv w) (fine : w.late = false) {row : DeletionRequest}
    (here : w.request = some row) {reading : ℕ} (read : reading ≤ w.now)
    (claimable : row.claimable reading = true) : w.purging = [] := by
  refine List.eq_nil_iff_forall_not_mem.mpr fun r mem => ?_
  rw [inv.not_claimable fine mem here read] at claimable
  cases claimable

/-- A step that leaves the row, or removes it, on behalf of a run that has claimed it. -/
theorem Inv.execute (inv : Inv w) {s : ℕ} (mem : (t, s) ∈ w.purging)
    (request : w'.request = w.request ∨ w'.request = none) (purging : w'.purging = w.purging)
    (now : w'.now = w.now) (late : w'.late = w.late) (amiss : w'.amiss = w.amiss) : Inv w' := by
  have row_eq : ∀ row, w'.request = some row → w.request = some row := by
    intro row here
    rcases request with same | gone
    · exact same ▸ here
    · rw [gone] at here
      cases here
  refine ⟨fun fine row here other => ?_, fun fine r mem' => ?_, fun fine => ?_⟩
  · obtain ⟨-, none⟩ := inv.untouched (amiss ▸ fine) row (row_eq row here) other
    rw [none] at mem
    cases mem
  · obtain ⟨inTime, same⟩ := inv.claimed (late ▸ fine) r (purging ▸ mem')
    exact ⟨now ▸ inTime, fun row here => same row (row_eq row here)⟩
  · rw [purging]
    exact inv.alone (late ▸ fine)

/-- A step of no consequence. -/
theorem Inv.mild (inv : Inv w) (request : w'.request = w.request) (begun : w'.begun = w.begun)
    (purging : w'.purging = w.purging) (now : w'.now = w.now) (late : w'.late = w.late)
    (amiss : w'.amiss = w.amiss) : Inv w' := by
  refine ⟨?_, ?_, ?_⟩
  · rw [amiss, request, begun, purging]
    exact inv.untouched
  · rw [late, purging, now, request]
    exact inv.claimed
  · rw [late, purging]
    exact inv.alone

theorem Inv.watched (inv : w.amiss = false → ∀ row, w.request = some row →
      row.status ≠ .executing → w.begun = false ∧ w.purging = [])
    (claimed : w.late = false → ∀ r ∈ w.purging, ∀ row, w.request = some row →
      row.status = .executing ∧ row.executedAt = some r.2)
    (alone : w.late = false → w.purging.length ≤ 1) : Inv w.watched := by
  refine ⟨inv, fun fine r mem => ?_, fun fine => ?_⟩ <;>
    obtain ⟨fine, inTime⟩ := Bool.or_eq_false_iff.mp fine
  · refine ⟨?_, claimed fine r mem⟩
    change w.now ≤ _
    simpa using List.any_eq_false.mp inTime r mem
  · exact alone fine

/-! ## Steps -/

theorem Inv.putBack (inv : Inv w) {reading : ℕ} (read : reading ≤ w.now) :
    Inv (w.putBack reading) := by
  unfold World.putBack
  split
  · next row here =>
    split_ifs with claimable
    · refine ⟨fun fine row' _ _ => ?_, fun fine r mem => ?_, inv.alone⟩
      · obtain ⟨fine, calm⟩ := Bool.or_eq_false_iff.mp fine
        by_cases executing : row.status = .executing
        · have calm : w.begun = false ∧ w.purging = [] := by simpa [executing] using calm
          exact calm
        · exact inv.untouched fine row here executing
      · have none : w.purging = [] := inv.purging_nil fine here read claimable
        exact absurd mem (by simp [none])
    · exact inv
  · exact inv

theorem Inv.claim (inv : Inv w) {startedAt reading : ℕ} (read : reading ≤ w.now) :
    Inv (w.claim t startedAt reading).2 := by
  unfold World.claim
  split
  · next row here =>
    split_ifs with claimable
    · refine .watched (fun _ row' is other => ?_) (fun fine r mem row' is => ?_) fun fine => ?_
      · obtain rfl := Option.some.inj is
        exact absurd rfl other
      · obtain rfl := Option.some.inj is
        have none : w.purging = [] := inv.purging_nil fine here read claimable
        obtain rfl : r = (t, startedAt) := by simpa [none] using mem
        exact ⟨rfl, rfl⟩
      · have none : w.purging = [] := inv.purging_nil fine here read claimable
        simp [none]
    · exact inv
  · exact inv

theorem Inv.leave (inv : Inv w) : Inv (w.leave t) := by
  refine ⟨fun fine row here other => ?_, fun fine r mem => ?_, fun fine => ?_⟩
  · obtain ⟨begun, none⟩ := inv.untouched fine row here other
    exact ⟨begun, by simp [World.leave, none]⟩
  · exact inv.claimed fine r ((List.mem_filter.mp mem).1)
  · exact Nat.le_trans (List.length_filter_le ..) (inv.alone fine)

theorem disturb_cancel (happened : disturb .cancel w = some w') :
    ∃ row, w.request = some row ∧ row.status = .pending ∧
      { w with request := some { row with status := .cancelled, cancelledAt := some w.now } } =
        w' := by
  cases here : w.request with
  | none => simp [disturb, here] at happened
  | some row =>
    simp only [disturb, here] at happened
    obtain ⟨pending, happened⟩ := Option.ite_none_right_eq_some.mp happened
    exact ⟨row, rfl, pending, Option.some.inj happened⟩

theorem Inv.disturb {e : Event} (inv : Inv w) (happened : disturb e w = some w') : Inv w' := by
  cases e with
  | elapse ms =>
    obtain rfl := Option.some.inj happened
    exact .watched inv.untouched (fun fine r mem => (inv.claimed fine r mem).2) inv.alone
  | bill stopped =>
    obtain rfl := Option.some.inj happened
    exact inv.mild rfl rfl rfl rfl rfl rfl
  | cancel =>
    obtain ⟨row, here, pending, rfl⟩ := disturb_cancel happened
    have other : row.status ≠ .executing := by simp [pending]
    refine ⟨fun fine _ _ _ => inv.untouched fine row here other, fun fine r mem => ?_, inv.alone⟩
    exact absurd ((inv.claimed fine r mem).2 row here).1 other
  | store mailboxes messages briefRuns =>
    obtain ⟨-, happened⟩ := Option.ite_none_right_eq_some.mp happened
    obtain rfl := Option.some.inj happened
    exact inv.mild rfl rfl rfl rfl rfl rfl

/-! ## What a run relies on -/

/-- What a run may do. -/
structure Allowed (t : ℕ) (w w' : World) : Prop where
  inv : Inv w'
  now : w.now ≤ w'.now
  others : ∀ x ≠ t, ∀ s, (x, s) ∈ w.purging → (x, s) ∈ w'.purging

/-- What the others may do meanwhile. -/
structure Relied (t : ℕ) (w w' : World) : Prop where
  inv : Inv w'
  now : w.now ≤ w'.now
  mine : ∀ s, (t, s) ∈ w.purging → (t, s) ∈ w'.purging

def sound (t : ℕ) : Assertion (Relied t) := ⟨Inv, fun _ _ _ r => r.inv⟩

/-- The clock has been read. -/
def read (t reading : ℕ) : Assertion (Relied t) :=
  ⟨fun w => Inv w ∧ reading ≤ w.now, fun _ _ ⟨_, le⟩ r => ⟨r.inv, Nat.le_trans le r.now⟩⟩

/-- The run has claimed the request. -/
def claimant (t : ℕ) : Assertion (Relied t) :=
  ⟨fun w => Inv w ∧ ∃ s, (t, s) ∈ w.purging, fun _ _ ⟨_, s, mem⟩ r => ⟨r.inv, s, r.mine s mem⟩⟩

/-- The requests that do not set the status of the row. -/
def Request.plain : Request → Prop
  | .putBack _ | .claim .. => False
  | _ => True

/-- The requests that come before the claim. -/
def Request.quiet : Request → Prop
  | .dateNow | .findDueRequests _ | .assertStopped | .beginVerifiedStopped => True
  | _ => False

theorem effect_of_answer {q : Request} {c : Choice} {r : Except PurgeError q.Answer}
    (answered : answer t q c w = some (r, w')) :
    (∃ a, effect t q w = some (a, w') ∧ ∀ b, r = .ok b → b = a) ∨ w' = w ∧ ∃ e, r = .error e := by
  cases c with
  | ok =>
    obtain ⟨⟨a, _⟩, done, same⟩ := Option.map_eq_some_iff.mp answered
    obtain ⟨rfl, rfl⟩ := Prod.mk.inj same
    exact .inl ⟨a, done, fun b is => (Except.ok.inj is).symm⟩
  | failed =>
    obtain ⟨rfl, rfl⟩ := Prod.mk.inj (Option.some.inj answered)
    exact .inr ⟨rfl, _, rfl⟩
  | lost =>
    obtain ⟨⟨a, _⟩, done, same⟩ := Option.map_eq_some_iff.mp answered
    obtain ⟨rfl, rfl⟩ := Prod.mk.inj same
    exact .inl ⟨a, done, nofun⟩
  | invalidGrant =>
    cases q with
    | getClient | stopWatch | revokeGrant =>
      obtain ⟨rfl, rfl⟩ := Prod.mk.inj (Option.some.inj answered)
      exact .inr ⟨rfl, _, rfl⟩
    | _ => cases answered

theorem effect_plain {q : Request} (plain : q.plain) {a : q.Answer}
    (done : effect t q w = some (a, w')) : (w'.request = w.request ∨ w'.request = none) ∧
      w'.purging = w.purging ∧ w'.now = w.now ∧ w'.late = w.late ∧ w'.amiss = w.amiss := by
  cases q with
  | putBack | claim => exact plain.elim
  | assertStopped | beginVerifiedStopped =>
    obtain ⟨-, done⟩ := Option.ite_none_right_eq_some.mp done
    obtain ⟨-, rfl⟩ := Prod.mk.inj (Option.some.inj done)
    exact ⟨.inl rfl, rfl, rfl, rfl, rfl⟩
  | deleteUserOrWorkspace =>
    obtain ⟨-, done⟩ := Option.ite_none_right_eq_some.mp done
    obtain ⟨-, rfl⟩ := Prod.mk.inj (Option.some.inj done)
    exact ⟨.inr rfl, rfl, rfl, rfl, rfl⟩
  | deleteMessagesChunk =>
    simp only [effect, World.erase, Option.some.injEq, Prod.mk.injEq] at done
    obtain ⟨-, rfl⟩ := done
    exact ⟨.inl rfl, rfl, rfl, rfl, rfl⟩
  | _ =>
    obtain ⟨-, rfl⟩ := Prod.mk.inj (Option.some.inj done)
    exact ⟨.inl rfl, rfl, rfl, rfl, rfl⟩

theorem effect_quiet {q : Request} (quiet : q.quiet) {a : q.Answer}
    (done : effect t q w = some (a, w')) : w' = w := by
  cases q with
  | dateNow | findDueRequests =>
    exact (Prod.mk.inj (Option.some.inj done)).2.symm
  | assertStopped | beginVerifiedStopped =>
    obtain ⟨-, done⟩ := Option.ite_none_right_eq_some.mp done
    exact (Prod.mk.inj (Option.some.inj done)).2.symm
  | _ => exact quiet.elim

/-! ## Programs -/

variable (deps : PurgeDeps)

abbrev Does (t : ℕ) {α : Type} (A : Assertion (Relied t)) (p : Prog α)
    (B : α → Assertion (Relied t)) (E : Assertion (Relied t)) : Prop :=
  Triple (M := sweeping deps) Allowed A p B fun _ => E

variable {deps}

theorem does_plain {q : Request} (plain : q.plain) :
    Does deps t (claimant t) (run q) (fun _ => claimant t) (claimant t) := by
  refine Triple.perform fun w ⟨inv, s, mem⟩ c r w' answered => ?_
  have kept : Inv w' ∧ w'.now = w.now ∧ w'.purging = w.purging := by
    rcases effect_of_answer answered with ⟨a, done, -⟩ | ⟨rfl, -⟩
    · obtain ⟨request, purging, now, late, amiss⟩ := effect_plain plain done
      exact ⟨inv.execute mem request purging now late amiss, now, purging⟩
    · exact ⟨inv, rfl, rfl⟩
  obtain ⟨inv', now, purging⟩ := kept
  refine ⟨⟨inv', Nat.le_of_eq now.symm, fun _ _ _ => purging ▸ id⟩, ?_⟩
  cases r <;> exact ⟨inv', s, purging ▸ mem⟩

theorem does_quiet {q : Request} (quiet : q.quiet) {A : Assertion (Relied t)}
    (inv : ∀ w, A w → Inv w) : Does deps t A (run q) (fun _ => A) A := by
  refine Triple.perform fun w h c r w' answered => ?_
  have same : w' = w := by
    rcases effect_of_answer answered with ⟨a, done, -⟩ | ⟨rfl, -⟩
    · exact effect_quiet quiet done
    · rfl
  subst same
  refine ⟨⟨inv w' h, Nat.le_refl _, fun _ _ _ => id⟩, ?_⟩
  cases r <;> exact h

theorem does_dateNow : Does deps t (sound t) (run .dateNow) (read t) (sound t) := by
  refine Triple.perform fun w h c r w' answered => ?_
  rcases effect_of_answer answered with ⟨a, done, is⟩ | ⟨rfl, e, rfl⟩
  · obtain ⟨rfl, rfl⟩ := Prod.mk.inj (Option.some.inj done)
    refine ⟨⟨h, Nat.le_refl _, fun _ _ _ => id⟩, ?_⟩
    cases r with
    | ok reading => exact ⟨h, Nat.le_of_eq (is reading rfl)⟩
    | error e => exact h
  · exact ⟨⟨h, Nat.le_refl _, fun _ _ _ => id⟩, h⟩

theorem putBack_purging (reading : ℕ) :
    (w.putBack reading).purging = w.purging ∧ (w.putBack reading).now = w.now := by
  unfold World.putBack
  split
  · split_ifs <;> exact ⟨rfl, rfl⟩
  · exact ⟨rfl, rfl⟩

theorem claim_purging (startedAt reading : ℕ) :
    (∀ r ∈ w.purging, r ∈ (w.claim t startedAt reading).2.purging) ∧
      (w.claim t startedAt reading).2.now = w.now ∧
      ((w.claim t startedAt reading).1 = true →
        (t, startedAt) ∈ (w.claim t startedAt reading).2.purging) := by
  unfold World.claim
  split
  · split_ifs
    · exact ⟨fun r mem => List.mem_append_left _ mem, rfl, fun _ => by simp [World.watched]⟩
    · exact ⟨fun _ => id, rfl, nofun⟩
  · exact ⟨fun _ => id, rfl, nofun⟩

theorem does_putBack : Does deps t (sound t) putBack (fun _ => sound t) (sound t) := by
  refine Triple.bind does_dateNow fun reading =>
    Triple.perform fun w ⟨inv, le⟩ c r w' answered => ?_
  have kept : Inv w' ∧ w'.purging = w.purging ∧ w'.now = w.now := by
    rcases effect_of_answer answered with ⟨a, done, -⟩ | ⟨rfl, -⟩
    · obtain ⟨-, rfl⟩ := Prod.mk.inj (Option.some.inj done)
      exact ⟨inv.putBack le, putBack_purging reading⟩
    · exact ⟨inv, rfl, rfl⟩
  obtain ⟨inv', purging, now⟩ := kept
  refine ⟨⟨inv', Nat.le_of_eq now.symm, fun _ _ _ => purging ▸ id⟩, ?_⟩
  cases r <;> exact inv'

theorem does_claim (startedAt reading : ℕ) : Does deps t (read t reading)
    (run (.claim startedAt reading)) (fun claimed => if claimed then claimant t else sound t)
      (sound t) := by
  refine Triple.perform fun w ⟨inv, le⟩ c r w' answered => ?_
  rcases effect_of_answer answered with ⟨a, done, is⟩ | ⟨rfl, e, rfl⟩
  · obtain ⟨-, done⟩ := Option.ite_none_right_eq_some.mp done
    have claimed : (w.claim t startedAt reading).1 = a := congrArg Prod.fst (Option.some.inj done)
    obtain rfl : (w.claim t startedAt reading).2 = w' := congrArg Prod.snd (Option.some.inj done)
    have inv' : Inv (w.claim t startedAt reading).2 := inv.claim le
    obtain ⟨purging, now, mine⟩ := claim_purging (w := w) (t := t) startedAt reading
    refine ⟨⟨inv', Nat.le_of_eq now.symm, fun x _ s mem => purging _ mem⟩, ?_⟩
    cases r with
    | error e => exact inv'
    | ok b =>
      obtain rfl := is b rfl
      rw [claimed] at mine
      cases b with
      | false => exact inv'
      | true => exact ⟨inv', startedAt, mine rfl⟩
  · exact ⟨⟨inv, Nat.le_refl _, fun _ _ _ => id⟩, inv⟩

/-! ## The steps after the claim -/

theorem only_bestEffort {φ : Request → Prop} {p : Prog Unit} (h : p.Only φ) :
    (bestEffort p).Only φ := h.tryCatch fun _ => Program.only_ret ()

theorem only_forEach {φ : Request → Prop} {α : Type} {xs : List α} {body : α → Prog Unit}
    (h : ∀ x, (body x).Only φ) : (forEach xs body).Only φ := by
  induction xs with
  | nil => exact Program.only_ret ()
  | cons x xs ih => exact (h x).bind fun _ => ih

theorem only_run {q : Request} (plain : q.plain) : (run q).Only Request.plain :=
  Program.only_perform.mpr plain

theorem only_stopWatch (id : MailboxId) (watch : WatchCounts) :
    (stopWatch deps id watch).Only Request.plain := by
  unfold stopWatch
  split_ifs
  · exact ((only_run (by trivial)).bind fun _ => Program.only_ret _).tryCatch
      fun _ => Program.only_ret _
  · exact Program.only_ret _

theorem only_stopAndRevokeAllGrants (mailboxes : List Mailbox) (lifecycle : Lifecycle) :
    (stopAndRevokeAllGrants deps mailboxes lifecycle).Only Request.plain := by
  induction mailboxes generalizing lifecycle with
  | nil => exact Program.only_ret _
  | cons mailbox mailboxes ih =>
    obtain ⟨watch, grant⟩ := lifecycle
    unfold stopAndRevokeAllGrants
    split_ifs
    · refine Program.Only.bind ?_ fun client => ?_
      · refine ((only_run (by trivial)).bind fun _ => Program.only_ret _).tryCatch fun e => ?_
        cases e
        · exact Program.only_ret _
        · exact Program.only_raise _
      · split_ifs
        · refine (only_stopWatch _ _).bind fun watch => Program.Only.bind ?_ fun grant => ih _
          refine ((only_run (by trivial)).bind fun _ => Program.only_ret _).tryCatch fun e => ?_
          cases e
          · exact Program.only_ret _
          · exact Program.only_raise _
        · exact ih _
    · exact ih _

theorem only_clearBriefJobs (id : MailboxId) (passes : ℕ) (afterId : Option ℕ) :
    (clearBriefJobs id passes afterId).Only Request.plain := by
  induction passes generalizing afterId with
  | zero => exact Program.only_raise _
  | succ passes ih =>
    refine (only_run (by trivial)).bind fun batch =>
      (only_forEach fun _ => only_bestEffort (only_run (by trivial))).bind fun _ => ?_
    split_ifs
    · exact Program.only_ret ()
    · exact ih _

theorem only_deleteMailMessagesChunked (passes total : ℕ) :
    (deleteMailMessagesChunked passes total).Only Request.plain := by
  induction passes generalizing total with
  | zero => exact Program.only_raise _
  | succ passes ih =>
    refine (only_run (by trivial)).bind fun deleted => ?_
    split_ifs
    · exact Program.only_ret _
    · exact ih _

theorem only_recordAudit (payload : AuditPayload) : (recordAudit payload).Only Request.plain := by
  refine (only_run (by trivial)).bind fun existing => ?_
  split_ifs
  · exact Program.only_ret ()
  · exact only_run (by trivial)

/-- None of them sets the status. -/
theorem only_executePurge (passes : ℕ) (request : DueRequest) :
    (executePurge deps passes request).Only Request.plain := by
  refine (only_run (by trivial)).bind fun user => ?_
  cases user with
  | none => exact Program.only_ret _
  | some user =>
    refine (only_run (by trivial)).bind fun mailboxes => ?_
    refine (only_stopAndRevokeAllGrants mailboxes _).bind fun lifecycle => ?_
    refine (only_forEach fun mailbox => ?_).bind fun _ => ?_
    · refine (Program.Only.when (only_bestEffort (only_run (by trivial)))).bind fun _ => ?_
      refine (Program.Only.when ((only_bestEffort (only_run (by trivial))).bind
        fun _ => only_bestEffort (only_run (by trivial)))).bind fun _ => ?_
      exact Program.Only.when ((only_clearBriefJobs _ _ _).bind
        fun _ => only_bestEffort (only_run (by trivial)))
    refine (only_run (by trivial)).bind fun _ => ?_
    refine (Program.Only.when (only_run (by trivial))).bind fun _ => ?_
    refine (only_recordAudit _).bind fun _ => ?_
    refine (only_deleteMailMessagesChunked _ _).bind fun messagesDeleted => ?_
    refine (only_run (by trivial)).bind fun _ => (only_run (by trivial)).bind fun _ => ?_
    exact (only_run (by trivial)).bind fun workspaceDeleted => Program.only_ret _

theorem does_executePurge (passes : ℕ) (request : DueRequest) : Does deps t (claimant t)
    (executePurge deps passes request) (fun _ => claimant t) (claimant t) :=
  Triple.only (fun _ => does_plain) (only_executePurge passes request)

/-! ## A sweep -/

theorem does_purgeOne (passes : ℕ) (request : DueRequest) : Does deps t (sound t)
    (purgeOne deps passes request) (fun _ => sound t) (sound t) := by
  have checked : Does deps t (sound t) (tryCatch (run .assertStopped) fun e => do
      putBack
      throw e) (fun _ => sound t) (sound t) :=
    (does_quiet (by trivial) fun _ h => h).tryCatch fun e =>
      Triple.bind does_putBack fun _ => Triple.failed fun _ h => h
  refine Triple.bind checked fun _ => ?_
  refine Triple.bind (does_quiet (by trivial) fun _ h => h) fun startedAt => ?_
  refine Triple.bind does_dateNow fun reading => ?_
  refine Triple.bind (does_claim startedAt reading) fun claimed => ?_
  cases claimed with
  | false => exact Triple.done fun _ h => h
  | true =>
    exact Triple.consequence (does_executePurge passes request) (fun _ h => h) (fun _ _ h => h.1)
      fun _ _ h => h.1

theorem does_processJob (passes : ℕ) : Does deps t (sound t) (processJob deps passes)
    (fun _ => sound t) (sound t) := by
  refine Triple.bind (does_quiet (by trivial) fun _ h => h) fun reading => ?_
  refine Triple.bind (does_quiet (by trivial) fun _ h => h) fun due => ?_
  cases due with
  | none => exact Triple.done fun _ h => h
  | some request =>
    refine Triple.tryCatch (F := fun _ => sound t) ?_ fun _ => Triple.done fun _ h => h
    exact Triple.bind (does_purgeOne passes request) fun _ => Triple.done fun _ h => h

/-! ## Runs -/

theorem disturb_purging {e : Event} (happened : disturb e w = some w') :
    w'.purging = w.purging ∧ w.now ≤ w'.now := by
  cases e with
  | elapse ms =>
    obtain rfl := Option.some.inj happened
    exact ⟨rfl, Nat.le_add_right ..⟩
  | bill stopped =>
    obtain rfl := Option.some.inj happened
    exact ⟨rfl, Nat.le_refl _⟩
  | cancel =>
    obtain ⟨row, -, -, rfl⟩ := disturb_cancel happened
    exact ⟨rfl, Nat.le_refl _⟩
  | store mailboxes messages briefRuns =>
    obtain ⟨-, happened⟩ := Option.ite_none_right_eq_some.mp happened
    obtain rfl := Option.some.inj happened
    exact ⟨rfl, Nat.le_refl _⟩

theorem allowed_leave (inv : Inv w) : Allowed t w (w.leave t) :=
  ⟨inv.leave, Nat.le_refl _, fun x other s mem =>
    List.mem_filter.mpr ⟨mem, by simpa using other⟩⟩

theorem sweeping_verified : Verified (sweeping deps) (fun _ _ => True) Relied Allowed Inv
    (fun _ => Inv) fun _ _ => Inv where
  guarantee_rely ne _ allowed := ⟨allowed.inv, allowed.now, allowed.others _ ne.symm⟩
  guarantee_inv _ allowed := allowed.inv
  idle_stable _ _ _ _ relied := relied.inv
  start := by
    intro t passes w w' inv _ accepted
    obtain rfl := Option.some.inj accepted
    refine ⟨⟨inv, Nat.le_refl _, fun _ _ _ => id⟩, ?_⟩
    refine (does_processJob passes w inv).mono fun r v h => ?_
    cases r <;> exact h
  finish := by
    intro t r w w' inv _ settled
    obtain rfl := Option.some.inj settled
    exact ⟨allowed_leave inv, inv.leave⟩
  crash := by
    intro t w w' inv crashed
    obtain rfl := Option.some.inj crashed
    exact ⟨allowed_leave inv, inv.leave⟩
  disturb := by
    intro e w w' inv _ happened
    obtain ⟨purging, now⟩ := disturb_purging happened
    exact ⟨inv.disturb happened, fun t => ⟨inv.disturb happened, now, fun _ => purging ▸ id⟩⟩

/-- A request that the user has just made. -/
structure World.Fresh (w : World) : Prop where
  pending : w.request.all fun row => row.status = .pending
  begun : w.begun = false
  purging : w.purging = []

theorem World.Fresh.inv (fresh : w.Fresh) : Inv w :=
  ⟨fun _ _ _ _ => ⟨fresh.begun, fresh.purging⟩,
    fun _ r mem => absurd mem (by simp [fresh.purging]), fun _ => by simp [fresh.purging]⟩

/-- As long as no billing check that fails has put back a request that a run had begun to execute
or was executing, a request that is pending has not been executed in part. As long as every run
finishes within the takeover cutoff, one run executes at a time. -/
theorem purge_pending_untouched (w : World) (fresh : w.Fresh) (c : Config (sweeping deps))
    (reached : Reaches (Config.idle w) c) :
    (c.world.amiss = false → ∀ row, c.world.request = some row → row.status = .pending →
      c.world.begun = false) ∧ (c.world.late = false → c.world.purging.length ≤ 1) := by
  have inv : Inv c.world := (sweeping_verified.sound fresh.inv (fun _ => fresh.inv) reached).inv
  refine ⟨fun fine row here pending => ?_, inv.alone⟩
  have other : row.status ≠ .executing := by simp [pending]
  exact (inv.untouched fine row here other).1

/-! ## A put back -/

def bare : PurgeDeps := ⟨none, false, false, false, false⟩

/-- A request that is due, with one mailbox. -/
def due : World where
  now := 0
  billingStopped := true
  request := some ⟨.waivedImmediate, 0, 0, .pending, none, none⟩
  user := some ⟨"user@mail.example", 1⟩
  otherMember := false
  mailboxes := [⟨0, some .empty, some .empty⟩]
  messages := 0
  briefRuns := []
  audit := none
  revoked := []
  receipt := none
  erased := false
  purging := []
  late := false
  amiss := false

/-- A sweep that crashes after `n` requests, and one after the cutoff whose billing check fails. -/
def strandedAfter (n : ℕ) : List (Move (sweeping bare)) :=
  .start (0 : ℕ) (1 : ℕ) :: List.replicate n (.reply (0 : ℕ) Choice.ok) ++
    [.crash (0 : ℕ), .disturb (.elapse (EXECUTING_TAKEOVER_AFTER_MS + 1)),
      .start (1 : ℕ) (1 : ℕ), .reply (1 : ℕ) Choice.ok, .reply (1 : ℕ) Choice.ok,
      .reply (1 : ℕ) Choice.failed, .reply (1 : ℕ) Choice.ok, .reply (1 : ℕ) Choice.ok]

/-- The first sweep crashes after its claim, so the request is put back untouched. -/
theorem purge_pending_untouched_claimed : ∃ c : Config (sweeping bare), Reaches (.idle due) c ∧
    (∃ row, (World.request c.world) = some row ∧ row.status = .pending) ∧
      World.begun c.world = false ∧ (World.purging c.world).length ≤ 1 := by
  have run : (Config.run (.idle due) (strandedAfter 6)).any (fun c =>
      (World.request c.world).any (·.status = .pending) &&
        decide (World.amiss c.world = false ∧ World.late c.world = false)) = true := by
    decide +kernel
  obtain ⟨c, reached, seen⟩ := exists_reaches run
  obtain ⟨pending, fine⟩ := Bool.and_eq_true_iff.mp seen
  obtain ⟨row, here, pending⟩ := (Option.any_eq_true _ _).mp pending
  obtain ⟨calm, inTime⟩ := of_decide_eq_true fine
  have untouched := purge_pending_untouched due ⟨by decide, by decide, rfl⟩ c reached
  exact ⟨c, reached, ⟨row, here, of_decide_eq_true pending⟩,
    untouched.1 calm row here (of_decide_eq_true pending), untouched.2 inTime⟩

/-- The first sweep crashes after it has revoked the grant, and the request can be cancelled
again. -/
theorem purge_pending_revoked : ∃ c : Config (sweeping bare), Reaches (.idle due) c ∧
    (∃ row, (World.request c.world) = some row ∧ row.status = .pending) ∧
      World.revoked c.world = [0] ∧ World.late c.world = false := by
  have run : (Config.run (.idle due) (strandedAfter 10)).any (fun c =>
      (World.request c.world).any (·.status = .pending) &&
        decide (World.revoked c.world = [0] ∧ World.late c.world = false)) = true := by
    decide +kernel
  obtain ⟨c, reached, seen⟩ := exists_reaches run
  obtain ⟨pending, revoked⟩ := Bool.and_eq_true_iff.mp seen
  obtain ⟨row, here, pending⟩ := (Option.any_eq_true _ _).mp pending
  exact ⟨c, reached, ⟨row, here, of_decide_eq_true pending⟩, of_decide_eq_true revoked⟩

end DeclutrMail.Deletion
