import DeclutrMail.EmailSend.Queue
import DeclutrMail.Interleaving.Solo
import DeclutrMail.Interleaving.Turns
import Mathlib.Tactic.SplitIfs

/-!
# What the deduplication of email sends keeps

A call that has found a job to be replaceable removes whatever is stored when its `remove` takes
effect. Another call may have replaced the job before, and a run may have sent the new one.
-/

namespace DeclutrMail.EmailSend

open Interleaving

variable {deps : Deps} {w w' : World} {t : ℕ} {n : ℕ}

/-! ## Steps -/

/-- A call that is about to remove meets the job it has read, or one that has not ended as sent
or failed. -/
def World.Unreplaced (w : World) (t : ℕ) : Prop :=
  (w.calls t).removing = true → ∀ job ∈ w.job,
    (w.calls t).read = some job.number ∨ (job.sent = false ∧ job.failed = false)

/-- A run that is about to deliver still holds the job. -/
def World.Holds (w : World) (t : ℕ) : Prop :=
  (w.calls t).delivering = true → w.held t = true

instance : Decidable (w.Unreplaced t) := by
  unfold World.Unreplaced
  infer_instance

instance : Decidable (w.Holds t) := by
  unfold World.Holds
  infer_instance

/-- No call removes an ended job that it has not read, and no stalled run delivers. -/
def Careful (w : World) : Move (system deps) → Prop
  | .reply t _ => w.Unreplaced t ∧ w.Holds t
  | _ => True

instance : ∀ (w : (system deps).World) (m : Move (system deps)), Decidable (Careful w m) :=
  fun (w : World) m => match m with
  | .reply (t : ℕ) _ => inferInstanceAs (Decidable (w.Unreplaced t ∧ w.Holds t))
  | .start .. | .finish _ | .crash _ | .disturb _ => inferInstanceAs (Decidable True)

/-- The system by such steps -/
abbrev careful (deps : Deps) : System Sig := (system deps).restrict Careful

/-! ## Jobs -/

/-- The job will not run, and did not send. -/
def Job.spent (job : Job) : Bool :=
  match job.state with
  | .completed returnvalue => !didSend (some returnvalue)
  | .orphaned _ => true
  | _ => false

theorem Job.not_sent_of_spent {job : Job} (spent : job.spent = true) : job.sent = false := by
  obtain ⟨number, data, state, attempts, delivery⟩ := job
  cases state <;> simp_all [Job.spent, Job.sent]

theorem Job.not_failed_of_spent {job : Job} (spent : job.spent = true) : job.failed = false := by
  obtain ⟨number, data, state, attempts, delivery⟩ := job
  cases state <;> simp_all [Job.spent, Job.failed]

theorem Job.spent_of_returnvalue {job : Job} (unsent : didSend job.returnvalue = false) :
    job.spent = true := by
  obtain ⟨number, data, state, attempts, delivery⟩ := job
  cases state with
  | completed returnvalue => simpa [Job.spent, Job.returnvalue] using unsent
  | orphaned returnvalue => rfl
  | waiting | active | failed => cases unsent

theorem Job.spent_of_unknown {job : Job} (unknown : job.jobState = .unknown) :
    job.spent = true := by
  obtain ⟨number, data, state, attempts, delivery⟩ := job
  cases state with
  | orphaned returnvalue => rfl
  | waiting | active | completed | failed => cases unknown

/-- The job has not ended. -/
def Job.live (job : Job) : Bool :=
  match job.state with
  | .waiting | .active _ => true
  | _ => false

theorem Job.ended_of_live {job : Job} (live : job.live = true) :
    job.sent = false ∧ job.failed = false ∧ job.spent = false := by
  obtain ⟨number, data, state, attempts, delivery⟩ := job
  cases state <;> simp_all [Job.live, Job.sent, Job.failed, Job.spent]

theorem Job.live_of_locked {job : Job} (locked : job.locked = true) : job.live = true := by
  obtain ⟨number, data, state, attempts, delivery⟩ := job
  cases state <;> simp_all [Job.live, Job.locked]

theorem World.live_of_held (held : w.held t = true) : ∃ job, w.job = some job ∧ job.live = true := by
  obtain ⟨token, -, held⟩ := (Option.any_eq_true _ _).mp held
  obtain ⟨job, here, held⟩ := (Option.any_eq_true _ _).mp held
  refine ⟨job, here, ?_⟩
  rw [Job.live, of_decide_eq_true held]

/-! ## What every step keeps -/

structure World.Inv (w : World) : Prop where
  numbered {job : Job} : w.job = some job → job.number < w.issued
  sent : w.sent = true → ∃ job, w.job = some job ∧ job.sent = true
  failed : w.failed = true → ∃ job, w.job = some job ∧ job.failed = true
  resent : w.resent = false
  readded : w.readded = false

/-- The job is another one, or the same one and spent if it was. -/
structure World.Next (w w' : World) : Prop where
  issued : w.issued ≤ w'.issued
  job {job' : Job} : w'.job = some job' → w.issued ≤ job'.number ∨
    ∃ job, w.job = some job ∧ job.number = job'.number ∧ (job.spent = true → job'.spent = true)

structure Guarantee (t : ℕ) (w w' : World) : Prop where
  inv : w'.Inv
  calls {t' : ℕ} : t' ≠ t → w'.calls t' = w.calls t'
  next : w.Next w'

structure Rely (t : ℕ) (w w' : World) : Prop where
  inv : w'.Inv
  call : w'.calls t = w.calls t
  next : w.Next w'

/-- The job with this number is spent, if it is stored at all. -/
def World.Spent (w : World) (n : ℕ) : Prop :=
  n < w.issued ∧ ∀ job, w.job = some job → job.number = n → job.spent = true

theorem World.Next.spent (next : w.Next w') (spent : w.Spent n) : w'.Spent n := by
  refine ⟨Nat.lt_of_lt_of_le spent.1 next.issued, fun job' here same => ?_⟩
  rcases next.job here with new | ⟨job, there, number, kept⟩
  · have := spent.1
    omega
  · exact kept (spent.2 job there (number.trans same))

theorem World.Next.same (issued : w'.issued = w.issued) (job : w'.job = w.job) : w.Next w' where
  issued := Nat.le_of_eq issued.symm
  job here := .inr ⟨_, job ▸ here, rfl, fun spent => spent⟩

theorem World.Next.gone (issued : w'.issued = w.issued) (gone : w'.job = none) : w.Next w' where
  issued := Nat.le_of_eq issued.symm
  job here := by simp [gone] at here

/-- The job is changed, and was not spent or is so still. -/
theorem World.Next.changed {f : Job → Job} (issued : w'.issued = w.issued)
    (job : w'.job = w.job.map f) (number : ∀ job, (f job).number = job.number)
    (kept : ∀ job, w.job = some job → job.spent = true → (f job).spent = true) : w.Next w' where
  issued := Nat.le_of_eq issued.symm
  job here := by
    obtain ⟨old, there, rfl⟩ := Option.map_eq_some_iff.mp (job ▸ here)
    exact .inr ⟨old, there, (number old).symm, kept old there⟩

theorem Guarantee.rely {t' : ℕ} (h : Guarantee t w w') (ne : t ≠ t') : Rely t' w w' :=
  ⟨h.inv, h.calls (Ne.symm ne), h.next⟩

theorem calls_setCall (w : World) (t : ℕ) (call : Call) {t' : ℕ} (ne : t' ≠ t) :
    (w.setCall t call).calls t' = w.calls t' := Function.update_of_ne ne ..

@[simp] theorem setCall_calls (w : World) (t : ℕ) (call : Call) :
    (w.setCall t call).calls t = call := Function.update_self ..

/-- Only what is remembered of the thread's own task changes. -/
theorem Guarantee.call (inv : w.Inv) (call : Call) : Guarantee t w (w.setCall t call) where
  inv := ⟨inv.numbered, inv.sent, inv.failed, inv.resent, inv.readded⟩
  calls ne := calls_setCall w t call ne
  next := .same rfl rfl

theorem Guarantee.refl (inv : w.Inv) : Guarantee t w w := ⟨inv, fun _ => rfl, .same rfl rfl⟩

theorem World.Inv.not_sent (inv : w.Inv) (h : ∀ job, w.job = some job → job.sent = false) :
    w.sent = false := by
  refine Bool.eq_false_iff.mpr fun sent => ?_
  obtain ⟨job, here, sent⟩ := inv.sent sent
  exact Bool.noConfusion ((h job here).symm.trans sent)

theorem World.Inv.not_failed (inv : w.Inv) (h : ∀ job, w.job = some job → job.failed = false) :
    w.failed = false := by
  refine Bool.eq_false_iff.mpr fun failed => ?_
  obtain ⟨job, here, failed⟩ := inv.failed failed
  exact Bool.noConfusion ((h job here).symm.trans failed)

theorem Guarantee.add (inv : w.Inv) (data : EmailSendJobData) : Guarantee t w (w.add data) := by
  cases stored : w.job with
  | some job =>
    have same : w.add data = w := by simp [World.add, stored]
    rw [same]
    exact .refl inv
  | none =>
    have sent : w.sent = false := inv.not_sent (by simp [stored])
    have failed : w.failed = false := inv.not_failed (by simp [stored])
    have added : w.add data = { w with
        job := some ⟨w.issued, data, .waiting, 0, false⟩
        issued := w.issued + 1
        readded := w.readded || w.failed } := by simp [World.add, stored]
    rw [added]
    refine ⟨⟨fun here => ?_, ?_, ?_, inv.resent, ?_⟩, fun _ => rfl, ⟨Nat.le_succ _, fun here => ?_⟩⟩
    · obtain rfl := Option.some.inj here
      exact Nat.lt_succ_self _
    · simp [sent]
    · simp [failed]
    · simp [inv.readded, failed]
    · obtain rfl := Option.some.inj here
      exact .inl (Nat.le_refl _)

/-- A job that has not ended is changed. -/
theorem Guarantee.live (inv : w.Inv) {f : Job → Job} {sent failed : Bool}
    (live : ∀ job, w.job = some job → job.live = true)
    (number : ∀ job, (f job).number = job.number)
    (nowSent : sent = true → ∃ job, w.job = some job ∧ (f job).sent = true)
    (nowFailed : failed = true → ∃ job, w.job = some job ∧ (f job).failed = true) :
    Guarantee t w { w with job := w.job.map f, sent := sent, failed := failed } where
  inv := by
    refine ⟨fun here => ?_, fun yes => ?_, fun yes => ?_, inv.resent, inv.readded⟩
    · obtain ⟨job, there, rfl⟩ := Option.map_eq_some_iff.mp here
      rw [number]
      exact inv.numbered there
    · obtain ⟨job, there, sent⟩ := nowSent yes
      exact ⟨f job, by rw [there]; rfl, sent⟩
    · obtain ⟨job, there, failed⟩ := nowFailed yes
      exact ⟨f job, by rw [there]; rfl, failed⟩
  calls _ := rfl
  next := .changed rfl rfl number fun job here spent =>
    Bool.noConfusion ((Job.ended_of_live (live job here)).2.2.symm.trans spent)

section Live

variable (inv : w.Inv) {job : Job} (stored : w.job = some job) (live : job.live = true)

include inv stored live

theorem World.Inv.open_of_live : w.sent = false ∧ w.failed = false := by
  have ended := Job.ended_of_live live
  constructor
  · refine inv.not_sent fun other here => ?_
    obtain rfl : job = other := Option.some.inj (stored.symm.trans here)
    exact ended.1
  · refine inv.not_failed fun other here => ?_
    obtain rfl : job = other := Option.some.inj (stored.symm.trans here)
    exact ended.2.1

omit inv in
theorem all_live : ∀ other, w.job = some other → other.live = true := fun other here => by
  obtain rfl : job = other := Option.some.inj (stored.symm.trans here)
  exact live

theorem Guarantee.complete (outcome : Outcome) : Guarantee t w (w.complete outcome) := by
  obtain ⟨unsent, unfailed⟩ := inv.open_of_live stored live
  refine .live inv (all_live stored live) (fun _ => rfl) (fun sent => ⟨job, stored, ?_⟩)
    fun failed => Bool.noConfusion (unfailed.symm.trans failed)
  have sent : outcome = .sent := by simpa [unsent] using sent
  rw [sent]
  exact didSend_recorded .sent

theorem Guarantee.fail : Guarantee t w w.fail := by
  obtain ⟨unsent, -⟩ := inv.open_of_live stored live
  exact .live inv (all_live stored live) (fun _ => rfl)
    (fun sent => Bool.noConfusion (unsent.symm.trans sent)) fun _ => ⟨job, stored, rfl⟩

theorem Guarantee.release (attempts : ℕ) : Guarantee t w (w.release attempts) := by
  obtain ⟨unsent, unfailed⟩ := inv.open_of_live stored live
  exact .live inv (all_live stored live) (fun _ => rfl)
    (fun sent => Bool.noConfusion (unsent.symm.trans sent))
    fun failed => Bool.noConfusion (unfailed.symm.trans failed)

theorem Guarantee.raised (e : Error) : Guarantee t w (w.raised e) := by
  unfold World.raised
  split_ifs
  · exact .release inv stored live 0
  · exact .fail inv stored live
  · exact .release inv stored live 1

end Live

theorem Guarantee.take (inv : w.Inv) {payload : EmailSendJobData}
    (taken : w.take t payload = some w') : Guarantee t w w' := by
  unfold World.take at taken
  split at taken
  · rename_i job stored
    obtain ⟨⟨waiting, -⟩, here⟩ := Option.ite_none_right_eq_some.mp taken
    have live : job.live = true := by rw [Job.live, waiting]
    obtain ⟨unsent, unfailed⟩ := inv.open_of_live stored live
    obtain rfl := Option.some.inj here
    refine ⟨⟨fun here => ?_, fun sent => ?_, fun failed => ?_, inv.resent, inv.readded⟩,
      fun ne => calls_setCall w t _ ne, ⟨Nat.le_refl _, fun here => ?_⟩⟩
    · obtain rfl := Option.some.inj here
      have before := inv.numbered stored
      exact before
    · exact Bool.noConfusion (unsent.symm.trans sent)
    · exact Bool.noConfusion (unfailed.symm.trans failed)
    · obtain rfl := Option.some.inj here
      exact .inr ⟨job, stored, rfl, fun spent =>
        Bool.noConfusion ((Job.ended_of_live live).2.2.symm.trans spent)⟩
  · cases taken

/-- The stored job has not ended as sent or failed, and is removed. -/
theorem Guarantee.remove (inv : w.Inv) (call : Call)
    (ended : ∀ job, w.job = some job → job.sent = false ∧ job.failed = false) :
    Guarantee t w { w.setCall t call with job := none } where
  inv := by
    have sent := inv.not_sent fun job here => (ended job here).1
    have failed := inv.not_failed fun job here => (ended job here).2
    exact ⟨nofun, fun yes => Bool.noConfusion (sent.symm.trans yes),
      fun yes => Bool.noConfusion (failed.symm.trans yes), inv.resent, inv.readded⟩
  calls ne := calls_setCall w t call ne
  next := .gone rfl rfl

/-- A run delivers that holds the job. -/
theorem Guarantee.delivered (inv : w.Inv) (held : w.held t = true) (evidence : Bool) :
    Guarantee t w (w.delivered t evidence) := by
  obtain ⟨job, stored, live⟩ := World.live_of_held held
  obtain ⟨unsent, unfailed⟩ := inv.open_of_live stored live
  refine ⟨⟨fun here => ?_, fun sent => ?_, fun failed => ?_, ?_, inv.readded⟩,
    fun ne => calls_setCall w t _ ne, .changed rfl rfl (fun _ => rfl) fun _ _ spent => spent⟩
  · obtain ⟨old, there, rfl⟩ := Option.map_eq_some_iff.mp here
    have before := inv.numbered there
    exact before
  · exact Bool.noConfusion (unsent.symm.trans sent)
  · exact Bool.noConfusion (unfailed.symm.trans failed)
  · simp [World.delivered, inv.resent, unsent]

theorem Guarantee.evict (inv : w.Inv) (orphans : Bool) : Guarantee t w (w.evict orphans) := by
  cases orphans with
  | true =>
    refine ⟨⟨fun here => ?_, nofun, nofun, inv.resent, inv.readded⟩, fun _ => rfl,
      .changed rfl rfl (fun _ => rfl) fun _ _ _ => rfl⟩
    obtain ⟨old, there, rfl⟩ := Option.map_eq_some_iff.mp here
    have before := inv.numbered there
    exact before
  | false =>
    exact ⟨⟨nofun, nofun, nofun, inv.resent, inv.readded⟩, fun _ => rfl, .gone rfl rfl⟩

/-! ## Requests -/

/-- Neither removes nor delivers. -/
def Request.mild : Request → Bool
  | .remove | .deliver .. => false
  | _ => true

theorem Guarantee.effect {q : Request} {r : Except Error q.Answer} (inv : w.Inv)
    (mild : q.mild = true) (took : EmailSend.effect t w q = some (r, w')) : Guarantee t w w' := by
  cases q with
  | getJob | hexists =>
    cases took
    exact .call inv _
  | getState =>
    cases took
    exact .refl inv
  | add data =>
    cases took
    exact .add inv data
  | remove | deliver => cases mild
  | _ => cases took

theorem Guarantee.finding {q : Request} {evidence : Bool} (inv : w.Inv) (mild : q.mild = true)
    (found : EmailSend.finding t w evidence q = some w') : Guarantee t w w' := by
  cases q with
  | assertDeliveryAdmission =>
    cases found
    exact .call inv _
  | remove | deliver => cases mild
  | getJob | getState | hexists | add => cases found
  | _ =>
    cases found
    exact .refl inv

theorem Guarantee.answer {q : Request} {ch : Choice} {r : Except Error q.Answer} (inv : w.Inv)
    (mild : q.mild = true) (answered : EmailSend.answer t q ch w = some (r, w')) :
    Guarantee t w w' := by
  cases ch with
  | go => exact .effect inv mild answered
  | lost =>
    obtain ⟨⟨r', v⟩, took, same⟩ := Option.map_eq_some_iff.mp answered
    obtain ⟨-, rfl⟩ := Prod.mk.inj same
    exact .effect inv mild took
  | fail e =>
    obtain ⟨-, rfl⟩ := Prod.mk.inj (Option.some.inj answered)
    cases q with
    | deliver => cases mild
    | _ => exact .refl inv
  | found answers evidence =>
    obtain ⟨v, found, same⟩ := Option.map_eq_some_iff.mp answered
    obtain ⟨-, rfl⟩ := Prod.mk.inj same
    exact .finding inv mild found

/-! ## What a task knows -/

def kept (t : ℕ) : Assertion (Rely t) where
  holds := World.Inv
  stable := fun _ _ _ r => r.inv

/-- The call has read a job, which is spent if this return value says that nothing was sent. -/
def handed (t : ℕ) (returnvalue : Option Returnvalue) : Assertion (Rely t) where
  holds w := w.Inv ∧ ∃ n, (w.calls t).read = some n ∧ n < w.issued ∧
    (didSend returnvalue = false → w.Spent n)
  stable := fun _ _ ⟨_, n, read, before, spent⟩ r =>
    ⟨r.inv, n, by rw [r.call]; exact read, Nat.lt_of_lt_of_le before r.next.issued,
      fun unsent => r.next.spent (spent unsent)⟩

/-- The job that the call has read is spent; the call may be about to remove it. -/
def spentRead (t : ℕ) (removing : Bool) : Assertion (Rely t) where
  holds w := w.Inv ∧ (removing = true → (w.calls t).removing = true) ∧
    ∃ n, (w.calls t).read = some n ∧ w.Spent n
  stable := fun _ _ ⟨_, removing, n, read, spent⟩ r =>
    ⟨r.inv, by rw [r.call]; exact removing, n, by rw [r.call]; exact read, r.next.spent spent⟩

/-- The run is about to deliver. -/
def admitted (t : ℕ) : Assertion (Rely t) where
  holds w := w.Inv ∧ (w.calls t).delivering = true
  stable := fun _ _ h r => ⟨r.inv, by rw [r.call]; exact h.2⟩

abbrev Does (deps : Deps) {α : Type} (t : ℕ) (A : Assertion (Rely t)) (p : Prog α)
    (B : α → Assertion (Rely t)) : Prop :=
  Triple (M := careful deps) Guarantee A p B fun _ => kept t

theorem asks {A : Assertion (Rely t)} {q : Request} {B : q.Answer → Assertion (Rely t)}
    (step : ∀ w ch r w', A w → w.Unreplaced t ∧ w.Holds t → answer t q ch w = some (r, w') →
      Guarantee t w w' ∧ ∀ a, r = .ok a → B a w') : Does deps t A (await q) B := by
  refine Triple.perform fun w assumed ch r w' answered => ?_
  obtain ⟨permitted, answered⟩ := System.restrict_answer answered
  obtain ⟨allowed, owed⟩ := step w ch r w' assumed permitted answered
  refine ⟨allowed, ?_⟩
  cases r with
  | ok a => exact owed a rfl
  | error e => exact allowed.inv

/-- Requests that neither remove nor deliver need nothing. -/
theorem does_mild {q : Request} (mild : q.mild = true) :
    Does deps t (kept t) (await q) fun _ => kept t :=
  asks fun _ _ _ _ inv _ answered =>
    have allowed := Guarantee.answer inv mild answered
    ⟨allowed, fun _ _ => allowed.inv⟩

/-! ## `enqueueEmailSend` -/

theorem does_getJob : Does deps t (kept t) (await .getJob) fun existing =>
    match existing with
    | some returnvalue => handed t returnvalue
    | none => kept t := by
  refine asks fun w ch r w' inv _ answered => ?_
  have allowed := Guarantee.answer inv rfl answered
  refine ⟨allowed, fun existing found => ?_⟩
  cases ch with
  | go =>
    obtain ⟨same, rfl⟩ := Prod.mk.inj (Option.some.inj answered)
    obtain rfl := Except.ok.inj (same.trans found)
    have inv' := allowed.inv
    cases stored : w.job with
    | none =>
      rw [stored] at inv'
      exact inv'
    | some job =>
      rw [stored] at inv'
      have before := inv.numbered stored
      refine ⟨inv', job.number, by simp, before, fun unsent => ⟨before, ?_⟩⟩
      intro other here _
      obtain rfl : job = other := Option.some.inj (stored.symm.trans here)
      exact Job.spent_of_returnvalue unsent
  | lost | fail | found =>
    rw [found] at answered
    cases answered

theorem does_addJob (data : EmailSendJobData) :
    Does deps t (kept t) (addJob data) fun _ => kept t :=
  Triple.bind (does_mild rfl) fun _ => Triple.done fun _ h => h

/-- The state that makes the job replaceable is seen after the job is read. -/
theorem does_getState (returnvalue : Option Returnvalue) :
    Does deps t (handed t returnvalue) (await .getState) fun state =>
      if reapable state returnvalue then spentRead t false else kept t := by
  refine asks fun w ch r w' ⟨inv, n, read, before, unsent⟩ _ answered => ?_
  have allowed := Guarantee.answer inv rfl answered
  refine ⟨allowed, fun state found => ?_⟩
  cases ch with
  | go =>
    obtain ⟨same, rfl⟩ := Prod.mk.inj (Option.some.inj answered)
    obtain rfl := Except.ok.inj (same.trans found)
    split_ifs with replaceable
    · refine ⟨inv, nofun, n, read, ?_⟩
      rcases Bool.or_eq_true_iff.mp replaceable with unknown | completed
      · refine ⟨before, fun job here _ => Job.spent_of_unknown ?_⟩
        have unknown := of_decide_eq_true unknown
        rwa [World.jobState, here] at unknown
      · obtain ⟨-, skipped⟩ := Bool.and_eq_true_iff.mp completed
        exact unsent (by simpa using skipped)
    · exact inv
  | lost | fail | found =>
    rw [found] at answered
    cases answered

theorem does_hexists : Does deps t (spentRead t false) (await .hexists) fun evidence =>
    if evidence then kept t else spentRead t true := by
  refine asks fun w ch r w' ⟨inv, _, n, read, spent⟩ _ answered => ?_
  have allowed := Guarantee.answer inv rfl answered
  refine ⟨allowed, fun evidence found => ?_⟩
  cases ch with
  | go =>
    obtain ⟨same, rfl⟩ := Prod.mk.inj (Option.some.inj answered)
    obtain rfl := Except.ok.inj (same.trans found)
    split_ifs with there
    · exact allowed.inv
    · exact ⟨allowed.inv, fun _ => by simpa using there, n, by simpa using read, spent⟩
  | lost | fail | found =>
    rw [found] at answered
    cases answered

/-- What is removed is the spent job that was read, or has not ended. -/
theorem does_remove : Does deps t (spentRead t true) (await .remove) fun _ => kept t := by
  refine asks fun w ch r w' ⟨inv, removing, n, read, spent⟩ permitted answered => ?_
  have ended (job : Job) (here : w.job = some job) : job.sent = false ∧ job.failed = false := by
    rcases permitted.1 (removing rfl) job here with same | ended
    · have spent := spent.2 job here (Option.some.inj (same.symm.trans read))
      exact ⟨Job.not_sent_of_spent spent, Job.not_failed_of_spent spent⟩
    · exact ended
  have took {r : Except Error Unit} {v : World} (took : effect t w .remove = some (r, v)) :
      Guarantee t w v := by
    simp only [effect] at took
    split_ifs at took <;> cases took
    · exact .refl inv
    · exact .remove inv _ ended
  have allowed : Guarantee t w w' := by
    cases ch with
    | go => exact took answered
    | lost =>
      obtain ⟨⟨r', v⟩, gone, same⟩ := Option.map_eq_some_iff.mp answered
      obtain ⟨-, rfl⟩ := Prod.mk.inj same
      exact took gone
    | fail e =>
      cases answered
      exact .refl inv
    | found answers evidence => cases answered
  exact ⟨allowed, fun _ _ => allowed.inv⟩

theorem does_replace (data : EmailSendJobData) (returnvalue : Option Returnvalue) :
    Does deps t (handed t returnvalue) (replace data returnvalue) fun _ => kept t := by
  refine Triple.bind (does_getState returnvalue) fun state => ?_
  split_ifs with replaceable
  · refine Triple.bind does_hexists fun evidence => ?_
    cases evidence with
    | true => exact Triple.done fun _ h => h
    | false =>
      have gone : Does deps t (spentRead t true) removed fun _ => kept t :=
        Triple.tryCatch (Triple.bind does_remove fun _ => Triple.done fun _ h => h)
          fun _ => Triple.done fun _ h => h
      refine Triple.bind gone fun gone => ?_
      cases gone with
      | true => exact does_addJob data
      | false => exact Triple.done fun _ h => h
  · exact Triple.done fun _ h => h

theorem does_enqueueEmailSend (data : EmailSendJobData) :
    Does deps t (kept t) (enqueueEmailSend deps data) fun _ => kept t := by
  unfold enqueueEmailSend
  split_ifs
  · exact Triple.failed fun _ h => h
  · exact Triple.done fun _ h => h
  · refine Triple.bind does_getJob fun existing => ?_
    cases existing with
    | none => exact does_addJob data
    | some returnvalue => exact does_replace data returnvalue

/-! ## `EmailSendWorker` -/

theorem does_admission : Does deps t (kept t) (await .assertDeliveryAdmission)
    fun _ => admitted t := by
  refine asks fun w ch r w' inv _ answered => ?_
  have allowed := Guarantee.answer inv rfl answered
  refine ⟨allowed, fun _ found => ⟨allowed.inv, ?_⟩⟩
  cases ch with
  | found answers evidence =>
    obtain ⟨-, rfl⟩ := Prod.mk.inj (Option.some.inj answered)
    simp
  | go | lost => cases answered
  | fail e =>
    rw [found] at answered
    cases answered

theorem does_deliver (recipient subject text : String) :
    Does deps t (admitted t) (await (.deliver recipient subject text)) fun _ => kept t := by
  refine asks fun w ch r w' ⟨inv, delivering⟩ permitted answered => ?_
  have held := permitted.2 delivering
  have allowed : Guarantee t w w' := by
    cases ch with
    | go | lost => cases answered
    | fail e =>
      cases answered
      exact .delivered inv held _
    | found answers evidence =>
      cases answered
      exact .delivered inv held _
  exact ⟨allowed, fun _ _ => allowed.inv⟩

theorem does_parkWithoutFailing (payload : EmailSendJobData) :
    Does deps t (kept t) (parkWithoutFailing payload) fun _ => kept t :=
  Triple.tryCatch (does_mild rfl) fun _ => Triple.done fun _ h => h

theorem does_send (payload : EmailSendJobData) (recipient : String) :
    Does deps t (kept t) (send payload recipient) fun _ => kept t := by
  refine Triple.bind does_admission fun _ =>
    Triple.bind (does_deliver recipient _ _) fun delivered => ?_
  match delivered with
  | .ok =>
    have marked : Does deps t (kept t) (tryCatch (await .markDelivered) fun _ => throw .transient)
        fun _ => kept t :=
      Triple.tryCatch (does_mild rfl) fun _ => Triple.failed fun _ h => h
    exact Triple.bind (Triple.when (fun _ => marked) fun _ _ h => h) fun _ =>
      Triple.done fun _ h => h
  | .failed .suppressed => exact Triple.done fun _ h => h
  | .failed .disabled | .failed .permanent =>
    exact Triple.bind (does_parkWithoutFailing payload) fun _ => Triple.done fun _ h => h
  | .failed .transient => exact Triple.failed fun _ h => h

theorem does_resolveNotice (payload : EmailSendJobData) :
    Does deps t (kept t) (resolveNotice deps payload) fun _ => kept t := by
  unfold resolveNotice
  split
  · split
    · exact Triple.failed fun _ h => h
    · exact Triple.bind (does_mild rfl) fun _ => Triple.done fun _ h => h
  · split_ifs
    · exact Triple.bind (does_mild rfl) fun _ => Triple.done fun _ h => h
    · exact Triple.failed fun _ h => h
  · exact Triple.done fun _ h => h

theorem does_resolveRecipient (payload : EmailSendJobData) :
    Does deps t (kept t) (resolveRecipient payload) fun _ => kept t := by
  unfold resolveRecipient
  split
  · exact Triple.done fun _ h => h
  · refine Triple.bind (does_mild rfl) fun user => ?_
    cases user with
    | none => exact Triple.done fun _ h => h
    | some user =>
      dsimp only
      split
      · exact Triple.done fun _ h => h
      · split
        · exact Triple.done fun _ h => h
        · exact Triple.bind (does_mild rfl) fun _ => Triple.done fun _ h => h

theorem does_reconnectStands (payload : EmailSendJobData) :
    Does deps t (kept t) (reconnectStands payload) fun _ => kept t := by
  unfold reconnectStands
  split
  · refine Triple.bind (does_mild rfl) fun active => ?_
    split_ifs
    · refine Triple.bind (does_mild rfl) fun errorAt => ?_
      split_ifs
      · exact does_mild rfl
      · exact Triple.done fun _ h => h
    · exact Triple.done fun _ h => h
  · exact Triple.done fun _ h => h
  · exact Triple.done fun _ h => h

theorem does_processJob (queued : EmailSendJobData) :
    Does deps t (kept t) (processJob deps queued) fun _ => kept t := by
  refine Triple.bind (does_resolveNotice queued) fun resolved => ?_
  cases resolved with
  | none => exact Triple.done fun _ h => h
  | some payload =>
    dsimp only
    split_ifs
    · exact Triple.bind (does_parkWithoutFailing payload) fun _ => Triple.done fun _ h => h
    · refine Triple.bind (does_resolveRecipient payload) fun recipient => ?_
      cases recipient with
      | error outcome => exact Triple.done fun _ h => h
      | ok recipient =>
        refine Triple.bind (does_reconnectStands payload) fun stands => ?_
        cases stands with
        | true => exact does_send payload recipient
        | false => exact Triple.done fun _ h => h
    · exact Triple.failed fun _ h => h

theorem does_code (task : Task) : Does deps t (kept t) (code deps task) fun _ => kept t := by
  cases task with
  | enqueue data => exact Triple.bind (does_enqueueEmailSend data) fun _ => Triple.done fun _ h => h
  | process payload =>
    refine Triple.bind (Triple.tryCatch (does_processJob payload) fun e => ?_) fun _ =>
      Triple.done fun _ h => h
    split_ifs
    · exact Triple.failed fun _ h => h
    · exact Triple.bind (does_mild rfl) fun _ => Triple.failed fun _ h => h

/-! ## Runs -/

theorem Guarantee.settle (inv : w.Inv) (r : Except Error Returned) :
    Guarantee t w ((settle t r w).leave t) := by
  have settled : Guarantee t w (EmailSend.settle t r w) := by
    unfold EmailSend.settle
    split_ifs with held
    · obtain ⟨job, stored, live⟩ := World.live_of_held held
      match r with
      | .ok (.processed outcome) => exact .complete inv stored live outcome
      | .ok (.enqueued _) => exact .refl inv
      | .error e => exact .raised inv stored live e
    · exact .refl inv
  refine ⟨(Guarantee.call settled.inv .new).inv, fun ne => ?_, settled.next.issued, fun here => ?_⟩
  · exact (calls_setCall _ t _ ne).trans (settled.calls ne)
  · exact settled.next.job here

theorem careful_disturb {e : Event} (inv : w.Inv) (disturbed : disturb w e = some w') :
    Guarantee t w w' := by
  cases e with
  | stall fails =>
    obtain ⟨locked, here⟩ := Option.ite_none_right_eq_some.mp disturbed
    obtain ⟨job, stored, locked⟩ := (Option.any_eq_true _ _).mp locked
    have live := Job.live_of_locked locked
    obtain rfl := Option.some.inj here
    split_ifs
    · exact .fail inv stored live
    · exact .release inv stored live 0
  | evict orphans =>
    obtain rfl := Option.some.inj disturbed
    exact .evict inv orphans

theorem verified : Verified (careful deps) (fun _ _ => True) Rely Guarantee World.Inv
    (fun _ _ => True) (fun _ _ => World.Inv) where
  guarantee_rely ne _ allowed := allowed.rely ne
  guarantee_inv _ allowed := allowed.inv
  idle_stable _ _ _ _ _ := trivial
  start := by
    intro t task w w' inv _ accepted
    obtain ⟨-, accepted⟩ := System.restrict_accept accepted
    have allowed : Guarantee t w w' := by
      cases task with
      | enqueue data =>
        obtain ⟨-, here⟩ := Option.ite_none_right_eq_some.mp accepted
        obtain rfl := Option.some.inj here
        exact .call inv _
      | process payload => exact .take inv accepted
    refine ⟨allowed, (does_code task w' allowed.inv).mono fun r v h => ?_⟩
    cases r <;> exact h
  finish := by
    intro t r w w' inv _ settled
    obtain ⟨-, settled⟩ := System.restrict_settle settled
    obtain rfl := Option.some.inj settled
    exact ⟨.settle inv r, trivial⟩
  crash := by
    intro t w w' inv crashed
    obtain ⟨-, crashed⟩ := System.restrict_crash crashed
    obtain rfl := Option.some.inj crashed
    exact ⟨.call inv _, trivial⟩
  disturb := by
    intro e w w' inv _ disturbed
    obtain ⟨-, disturbed⟩ := System.restrict_disturb disturbed
    have allowed (t : ℕ) : Guarantee t w w' := careful_disturb inv disturbed
    exact ⟨(allowed 0).inv, fun (t : ℕ) => (allowed (t + 1)).rely (Nat.succ_ne_self t)⟩

theorem initial_inv (key : String) (job : Option Job) : (World.initial key job).Inv where
  numbered here := by
    obtain rfl : job = some _ := here
    exact Nat.lt_succ_self _
  sent sent := by
    obtain ⟨job, here, sent⟩ := (Option.any_eq_true _ _).mp sent
    exact ⟨job, here, sent⟩
  failed failed := by
    obtain ⟨job, here, failed⟩ := (Option.any_eq_true _ _).mp failed
    exact ⟨job, here, failed⟩
  resent := rfl
  readded := rfl

/-! ## The next call -/

/-- The next request of a task of the queue succeeds. -/
def goes (t : ℕ) : Move (system deps) := .reply t .go

def enqueues (t : ℕ) (data : EmailSendJobData) : Move (system deps) := .start t (.enqueue data)

/-- What the task of a thread has returned. -/
def returnedOf (c : Config (system deps)) (t : ℕ) : Option Returned :=
  match c.running t with
  | some (.ret returned) => some returned
  | _ => none

theorem returnedOf_of_ret {c : Config (system deps)} {returned : Returned}
    (ended : c.running t = some (.ret returned)) : returnedOf c t = some returned := by
  unfold returnedOf
  rw [ended]

/-- The kind is sent at all, over this queue. -/
def Deps.admits (deps : Deps) (data : EmailSendJobData) : Prop :=
  (data.kind = .briefReady → deps.queueName = briefEmailSendQueue) ∧
    (data.kind ∈ commercialKinds → deps.hasPostalAddress = true)

theorem enqueueEmailSend_of_admits {data : EmailSendJobData} (admits : deps.admits data) :
    enqueueEmailSend deps data = schedule data := by
  unfold enqueueEmailSend
  rw [if_neg fun brief => brief.2 (admits.1 brief.1),
    if_neg fun commercial => Bool.noConfusion (commercial.2.symm.trans (admits.2 commercial.1))]

/-- The call alone, where nothing went out and that is known. -/
theorem alone_enqueue {data : EmailSendJobData} {job : Job} (admits : deps.admits data)
    (stored : w.job = some job) (unsent : job.unsent = true) :
    ∃ v : World, (code deps (.enqueue data)).alone (system deps) t (List.replicate 5 .go) w =
      some (.ok (.enqueued .added), v) ∧
      ∃ added, v.job = some added ∧ added.state = .waiting ∧ added.data = data := by
  obtain ⟨number, jobData, state, attempts, delivery⟩ := job
  cases state with
  | completed returnvalue =>
    obtain ⟨skipped, clean⟩ : didSend (some returnvalue) = false ∧ delivery = false := by
      simpa [Job.unsent] using unsent
    subst clean
    simp [code, enqueueEmailSend_of_admits admits, schedule, replace, reapable, removed, addJob, await,
      Program.perform, Program.alone, system, answer, effect, stored, skipped, World.jobState,
      World.setCall, World.add, Job.jobState, Job.returnvalue, Job.locked, tryCatch,
      MonadExcept.tryCatch, Program.tryCatch]
  | waiting | active | failed | orphaned => cases unsent

theorem next_accepted {c : Config (system deps)} {data : EmailSendJobData} {job : Job}
    (idle : c.running t = none) (admits : deps.admits data)
    (key : data.idempotencyKey = World.key c.world) (stored : World.job c.world = some job)
    (unsent : job.unsent = true) :
    ∃ d, c.run (enqueues t data :: List.replicate 5 (goes t)) = some d ∧
      returnedOf d t = some (.enqueued .added) ∧
      ∃ added, World.job d.world = some added ∧ added.state = .waiting ∧ added.data = data := by
  let w : World := World.leave c.world t
  obtain ⟨v, alone, added⟩ := alone_enqueue (t := t) (w := w) admits stored unsent
  have started : c.step (enqueues t data) = some (c.put t w (some (code deps (.enqueue data)))) := by
    have accepted : (system deps).accept t (.enqueue data) c.world = some w := if_pos key
    simp only [enqueues, Config.step, idle]
    rw [accepted]
    rfl
  refine ⟨c.put t v (some (.ret (.enqueued .added))), ?_, ?_, added⟩
  · rw [Config.run, started]
    exact Config.run_alone alone
  · exact returnedOf_of_ret (Function.update_self ..)

/-- In every run by careful steps, nothing is delivered for a key that BullMQ retains as sent, no
job is added for one that it retains as failed, and a job that is known not to have been sent is
replaced by the next call that runs alone. -/
theorem send_once {key : String} {job : Option Job} {c : Config (system deps)}
    (run : RunWhere Careful (.idle (World.initial key job)) c) :
    World.resent c.world = false ∧ World.readded c.world = false ∧
    ∀ t data job, c.running t = none → deps.admits data →
      data.idempotencyKey = World.key c.world → World.job c.world = some job → job.unsent = true →
      ∃ d, c.run (enqueues t data :: List.replicate 5 (goes t)) = some d ∧
        returnedOf d t = some (.enqueued .added) ∧
        ∃ added, World.job d.world = some added ∧ added.state = .waiting ∧ added.data = data := by
  have inv : World.Inv c.world :=
    (verified.sound (initial_inv key job) (fun _ => trivial) run.restrict).inv
  exact ⟨inv.resent, inv.readded, fun _ _ _ idle admits same stored unsent =>
    next_accepted idle admits same stored unsent⟩

/-! ## Two calls and a worker -/

namespace Sample

def deployment : Deps := ⟨"email-send", [], true, true⟩

def data : EmailSendJobData :=
  ⟨.syncComplete, "user", "subject", "text", "key", none, false, none, none, none, none⟩

/-- The other services answer for a user who wants these emails, or does not. -/
def answers (wanted : Bool) : (q : Request) → q.Answer
  | .getJob => none
  | .getState => .unknown
  | .hexists => false
  | .resolveBriefNotice .. => none
  | .resolveBillingNotice _ => none
  | .selectUser _ => some ⟨"user@example.com", ⟨wanted, wanted, wanted, wanted⟩, wanted⟩
  | .hasUserActivitySince .. => false
  | .selectActiveMailbox .. => false
  | .selectLastIncrementalErrorAt _ => none
  | .isAwaitingReconnect _ => false
  | .deliver .. => .ok
  | .classifyDeliveryFailure => true
  | .remove | .add _ | .park _ | .assertDeliveryAdmission | .markDelivered => ()

def processes (t : ℕ) : Move (system deployment) := .start t (.process data)

def finds (t : ℕ) (wanted : Bool) : Move (system deployment) := .reply t (.found (answers wanted) false)

def refuses (t : ℕ) : Move (system deployment) := .reply t (.fail .validation)

def ends (t : ℕ) : Move (system deployment) := .finish t

def start : Config (system deployment) := .idle (World.initial "key" none)

/-- A job is added and skipped, as the user does not want it. -/
def skipped : List (Move (system deployment)) :=
  [enqueues 0 data, goes 0, goes 0, ends 0, processes 1, finds 1 false, ends 1]

/-- The first call finds the skipped job and is about to remove it; the second one replaces it. -/
def overtaken : List (Move (system deployment)) :=
  [enqueues 0 data, goes 0, goes 0, goes 0, enqueues 2 data] ++ List.replicate 5 (goes 2) ++ [ends 2]

/-- The job is sent. -/
def sent : List (Move (system deployment)) :=
  [processes 1, finds 1 true, finds 1 true, finds 1 true, ends 1]

/-- The job fails. -/
def failed : List (Move (system deployment)) := [processes 1, refuses 1, finds 1 true, ends 1]

/-- The first call goes on. -/
def late : List (Move (system deployment)) := [goes 0, goes 0, ends 0]

end Sample

/-- A job that was skipped is sent after the next call. -/
theorem send_once_resumed : ∃ c : Config (system Sample.deployment),
    RunWhere Careful Sample.start c ∧ World.sent c.world = true ∧
    World.resent c.world = false := by
  have run : (Sample.start.runIf Careful
      (Sample.skipped ++ [enqueues 0 Sample.data] ++ List.replicate 5 (goes 0) ++ [Sample.ends 0] ++
        Sample.sent)).any (fun c => World.sent c.world) = true := by
    decide +kernel
  obtain ⟨c, reached, sent⟩ := (Option.any_eq_true _ _).mp run
  have permitted := runWhere_of_runIf reached
  exact ⟨c, permitted, sent, (send_once permitted).1⟩

/-- The first call removes the job that the second one has added, after it was sent, and it is
sent again; or after it has failed, and it is added again. -/
theorem send_again : (∃ c : Config (system Sample.deployment), Reaches Sample.start c ∧
      World.sent c.world = true ∧ World.resent c.world = true) ∧
    ∃ c : Config (system Sample.deployment), Reaches Sample.start c ∧
      World.failed c.world = true ∧ World.readded c.world = true := by
  have resent : (Sample.start.run (Sample.skipped ++ Sample.overtaken ++ Sample.sent ++ Sample.late ++
      Sample.sent)).any (fun c => World.sent c.world && World.resent c.world) = true := by
    decide +kernel
  have readded : (Sample.start.run (Sample.skipped ++ Sample.overtaken ++ Sample.failed ++
      Sample.late)).any (fun c => World.failed c.world && World.readded c.world) = true := by
    decide +kernel
  obtain ⟨c, reached, seen⟩ := exists_reaches resent
  obtain ⟨d, reached', seen'⟩ := exists_reaches readded
  exact ⟨⟨c, reached, Bool.and_eq_true_iff.mp seen⟩, d, reached', Bool.and_eq_true_iff.mp seen'⟩

end DeclutrMail.EmailSend
