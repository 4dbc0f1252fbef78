import DeclutrMail.Unsubscribe.StatusHistory

/-!
# The status is that of the newest attempt

What an attempt ends in is in the policy, or in an event that is still to be delivered; the policy
is in flight only while an execution is open. Of the events only those of the attempt that ended
last may be delivered: the consumer writes whatever it is given.
-/

namespace DeclutrMail.Unsubscribe.StatusHistory

open Actions
open Execution (UnsubOutcome OutcomeRecord JobStatus.terminal)

variable {w w' : World} {status : UnsubStatus} {i : ℕ} {row : ActionRow}

/-! ## The invariant -/

namespace World

def inFlight (w : World) : Bool := w.policy.any Execution.inFlight

/-- The status is in the policy, on its way there, or awaited. -/
def Shows (w : World) (status : UnsubStatus) : Prop :=
  w.policy = some (some status) ∨
    (∃ event ∈ w.executed, event.delivered = false ∧ event.outcome.unsubStatus = status) ∨
    (w.inFlight = true ∧ ∃ row ∈ w.rows, JobStatus.terminal row.status = false)

/-- The status of the newest attempt is final and shown. -/
def NewestShown (w : World) : Prop := ∀ status, w.newest = some status →
  Execution.inFlight (some status) = false ∧ w.Shows status

end World

/-- Every execution is one of a sender. -/
def World.OfSenders (w : World) : Prop := ∀ row ∈ w.rows, row.selector.senderKey.isSome = true

structure Inv (w : World) : Prop where
  senders : w.OfSenders
  shown : w.NewestShown

theorem Inv.start (unattempted : w.Unattempted) : Inv w := by
  constructor
  · simp [World.OfSenders, unattempted.rows]
  · simp [World.NewestShown, unattempted.newest]

theorem final_unsubStatus (outcome : UnsubOutcome) :
    Execution.inFlight (some outcome.unsubStatus) = false := by
  cases outcome <;> rfl

/-- An event that has just been published. -/
theorem shows_published {outcome : UnsubOutcome} (mem : ⟨outcome, false⟩ ∈ w.executed) :
    w.Shows outcome.unsubStatus := .inr (.inl ⟨_, mem, rfl, rfl⟩)

theorem World.Shows.grow (shows : w.Shows status) (policy : w'.policy = w.policy)
    (rows : ∀ row ∈ w.rows, JobStatus.terminal row.status = false →
      ∃ row' ∈ w'.rows, JobStatus.terminal row'.status = false)
    (executed : ∀ event ∈ w.executed, event ∈ w'.executed) : w'.Shows status := by
  rcases shows with there | ⟨event, mem, waiting⟩ | ⟨inFlight, row, mem, opened⟩
  · exact .inl (policy.trans there)
  · exact .inr (.inl ⟨event, executed event mem, waiting⟩)
  · refine .inr (.inr ⟨?_, rows row mem opened⟩)
    rwa [World.inFlight, policy]

/-- A policy that is not in flight shows what it showed, whatever becomes of the rows. -/
theorem World.Shows.rest (shows : w.Shows status) (resting : w.inFlight = false)
    (policy : w'.policy = w.policy) (executed : w'.executed = w.executed) : w'.Shows status := by
  rcases shows with there | ⟨event, mem, waiting⟩ | ⟨inFlight, -⟩
  · exact .inl (policy.trans there)
  · exact .inr (.inl ⟨event, executed ▸ mem, waiting⟩)
  · rw [resting] at inFlight
    cases inFlight

/-! ## Intents -/

section Announce

variable {method : Option UnsubscribeMethod}

theorem mem_rows_announce {row' : ActionRow} : row' ∈ (w.announce method row).rows ↔
    row' ∈ w.rows ∨ method = some .oneClick ∧ row' = row := by
  unfold World.announce
  by_cases oneClick : method = some .oneClick <;> simp [oneClick]

theorem ofSenders_announce (senders : w.OfSenders) (new : World.isNew row = true) :
    (w.announce method row).OfSenders := by
  intro row' mem
  rcases mem_rows_announce.mp mem with old | ⟨-, rfl⟩
  · exact senders row' old
  · exact (Bool.and_eq_true_iff.mp new).2

theorem Inv.announce (inv : Inv w) (new : World.isNew row = true) :
    Inv (w.announce method row) := by
  refine ⟨ofSenders_announce inv.senders new, fun status newest => ?_⟩
  obtain ⟨final, shows⟩ := inv.shown status newest
  refine ⟨final, shows.grow rfl (fun row mem opened => ⟨row, ?_, opened⟩) fun _ => id⟩
  exact mem_rows_announce.mpr (.inl mem)

/-- A one-click attempt is requested. -/
theorem upsert_same (w : World) (status : Option UnsubStatus) :
    (w.upsert status fun _ => status).policy = some status := by
  unfold World.upsert
  cases w.policy <;> rfl

theorem Inv.request (inv : Inv w) (new : World.isNew row = true) :
    Inv ((w.upsert (some .requested) fun _ => some .requested).announce (some .oneClick) row) := by
  refine ⟨ofSenders_announce inv.senders new, fun status newest => ?_⟩
  have queued : row.status = .queued := by simpa using (Bool.and_eq_true_iff.mp new).1
  refine ⟨(inv.shown status newest).1, .inr (.inr ⟨?_, row, ?_, ?_⟩)⟩
  · exact congrArg (Option.any Execution.inFlight) (upsert_same ..)
  · exact mem_rows_announce.mpr (.inr ⟨rfl, rfl⟩)
  · rw [queued]
    rfl

/-- An attempt ends where the policy shows it. -/
theorem shown_rest (policy : w.policy = some (some status))
    (final : Execution.inFlight (some status) = false) : w.rest.NewestShown := by
  intro status' newest
  have same : w.policy.join = some status' := newest
  rw [policy] at same
  obtain rfl := Option.some.inj same
  exact ⟨final, .inl policy⟩

/-- The attempt is recorded, and ends there. -/
theorem Inv.rest {inserted : Option UnsubStatus} {updated : Option UnsubStatus → Option UnsubStatus}
    (senders : w.OfSenders) (new : World.isNew row = true)
    (policy : (w.upsert inserted updated).policy = some (some status))
    (final : Execution.inFlight (some status) = false) :
    Inv ((w.upsert inserted updated).announce method row).rest :=
  ⟨ofSenders_announce (w := w.upsert inserted updated) senders new, shown_rest policy final⟩

theorem Inv.recordUnsubscribeIntent (inv : Inv w) (method : UnsubscribeMethod)
    (new : World.isNew row = true) : Inv (w.recordUnsubscribeIntent method row) := by
  have shows (status : UnsubStatus) :
      (w.upsert (some status) fun _ => some status).policy = some (some status) := by
    unfold World.upsert
    cases w.policy <;> rfl
  cases method with
  | oneClick => exact inv.request new
  | mailto => exact .rest inv.senders new (shows .actionRequired) rfl
  | none => exact .rest inv.senders new (shows .unavailable) rfl

theorem final_escalated (before : Option UnsubStatus) :
    Execution.inFlight (some (Batch.escalated before)) = false := by
  unfold Batch.escalated
  split <;> rfl

theorem Inv.enqueueBulkUnsubscribe (inv : Inv w) (manual : Bool) (new : World.isNew row = true) :
    Inv (w.enqueueBulkUnsubscribe manual row) := by
  unfold World.enqueueBulkUnsubscribe
  cases manual with
  | false => exact inv.request new
  | true =>
    cases policy : w.policy with
    | none => exact .rest inv.senders new (by rw [World.upsert, policy]) rfl
    | some before =>
      exact .rest inv.senders new (by rw [World.upsert, policy]) (final_escalated before)

end Announce

/-! ## Executions -/

section Put

variable {v : Execution.World} {row' : ActionRow}

theorem ofSenders_set (senders : w.OfSenders) (found : w.rows[i]? = some row)
    (same : w'.rows = w.rows.set i row') (selector : row'.selector = row.selector) :
    w'.OfSenders := by
  intro other mem
  rw [same] at mem
  rcases List.mem_or_eq_of_mem_set mem with old | rfl
  · exact senders other old
  · rw [selector]
    exact senders row (List.mem_of_getElem? found)

/-- An open row stays, or the row that is set is open. -/
theorem open_set (found : w.rows[i]? = some row) (opened : JobStatus.terminal row'.status = false) :
    ∃ other ∈ w.rows.set i row', JobStatus.terminal other.status = false := by
  obtain ⟨within, -⟩ := List.getElem?_eq_some_iff.mp found
  exact ⟨row', List.mem_set within row', opened⟩

theorem Inv.markExecuting (inv : Inv w) (found : w.rows[i]? = some row) :
    Inv (w.execution i row .markExecuting) := by
  refine ⟨ofSenders_set inv.senders found rfl rfl, fun status newest => ?_⟩
  obtain ⟨final, shows⟩ := inv.shown status newest
  refine ⟨final, shows.grow rfl (fun _ _ _ => open_set found rfl) fun event mem => ?_⟩
  exact List.mem_append_left _ mem

theorem Inv.recordOutcome (inv : Inv w) (found : w.rows[i]? = some row) (record : OutcomeRecord) :
    Inv (w.execution i row (.recordOutcome record)) := by
  refine ⟨ofSenders_set inv.senders found rfl rfl, fun status newest => ?_⟩
  obtain rfl := Option.some.inj newest
  refine ⟨final_unsubStatus _, shows_published ?_⟩
  exact List.mem_append_right _ (List.mem_singleton_self _)

/-- The update of the policy that every failure makes which has no outcome of its own. -/
def failed (policy : Option (Option UnsubStatus)) : Option (Option UnsubStatus) :=
  policy.map fun status => if Execution.inFlight status then some .failed else status

theorem shown_failed (inv : Inv w) (policy : w'.policy = failed w.policy)
    (newest : w'.newest = w.failNewest.newest) (executed : w'.executed = w.executed) :
    w'.NewestShown := by
  intro status here
  rw [newest] at here
  unfold World.failNewest at here
  cases flying : w.policy.any Execution.inFlight with
  | true =>
    simp only [flying, if_true] at here
    obtain rfl := Option.some.inj here
    obtain ⟨before, there, inFlight⟩ := (Option.any_eq_true _ _).mp flying
    refine ⟨rfl, .inl ?_⟩
    rw [policy, failed, there, Option.map_some, if_pos inFlight]
  | false =>
    simp only [flying, Bool.false_eq_true, if_false] at here
    obtain ⟨final, shows⟩ := inv.shown status here
    refine ⟨final, shows.rest flying (policy.trans ?_) executed⟩
    unfold failed
    cases before : w.policy with
    | none => rfl
    | some before' =>
      rw [before, Option.any_some] at flying
      rw [Option.map_some, if_neg (by simp [flying])]

theorem Inv.refuse (inv : Inv w) (found : w.rows[i]? = some row) (errorCode : String) :
    Inv (w.execution i row (.refuse errorCode)) := by
  refine ⟨ofSenders_set inv.senders found rfl rfl, shown_failed inv rfl rfl ?_⟩
  exact List.append_nil _

theorem Inv.recordTerminalFailure (inv : Inv w) (found : w.rows[i]? = some row)
    (errorName : String) : Inv (w.execution i row (.recordTerminalFailure errorName)) := by
  have ofSender := inv.senders row (List.mem_of_getElem? found)
  unfold World.execution
  dsimp only
  rw [ofSender]
  refine ⟨ofSenders_set inv.senders found rfl ?_, shown_failed inv rfl rfl (List.append_nil _)⟩
  dsimp only
  split_ifs <;> rfl

theorem Inv.enqueueFailed (inv : Inv w) (found : w.rows[i]? = some row) :
    Inv (w.enqueueFailed i row) := by
  unfold World.enqueueFailed
  split_ifs
  · exact ⟨ofSenders_set inv.senders found rfl rfl, shown_failed inv rfl rfl rfl⟩
  · exact inv

theorem Inv.autopilotEnqueueFailed (inv : Inv w) (found : w.rows[i]? = some row) :
    Inv (w.autopilotEnqueueFailed i row) := by
  unfold World.autopilotEnqueueFailed
  split_ifs
  · refine ⟨ofSenders_set inv.senders found rfl rfl, fun status newest => ?_⟩
    obtain rfl := Option.some.inj newest
    refine ⟨rfl, shows_published ?_⟩
    exact List.mem_append_right _ (List.mem_singleton_self _)
  · exact inv

end Put

/-! ## Consumers -/

section Consumers

/-- The consumer of an intent leaves a status that is final. -/
theorem projected_final {method : UnsubscribeMethod}
    (final : Execution.inFlight (some status) = false) :
    World.projected method (some status) = some status := by
  unfold World.projected
  split_ifs with oneClick waiting
  · rcases waiting with none | pending
    · cases none
    · obtain rfl := Option.some.inj pending
      cases final
  all_goals grind

theorem projected_null {method : UnsubscribeMethod} (other : method ≠ .oneClick) :
    World.projected method none = some (initialUnsubscribeLifecycleStatus method) := by
  simp [World.projected, other]

theorem inFlight_projected {method : UnsubscribeMethod} {before : Option UnsubStatus}
    (flying : Execution.inFlight before = true) :
    Execution.inFlight (World.projected method before) = true := by
  unfold World.projected
  split_ifs
  · rfl
  · exact flying
  · simp_all [Execution.inFlight]
  · exact flying

theorem final_initial {method : UnsubscribeMethod} (other : method ≠ .oneClick) :
    Execution.inFlight (some (initialUnsubscribeLifecycleStatus method)) = false := by
  cases method with
  | oneClick => exact absurd rfl other
  | mailto | none => rfl

/-- An upsert that leaves what is final and what is in flight. -/
theorem shown_upsert (inv : Inv w) {inserted : Option UnsubStatus}
    {updated : Option UnsubStatus → Option UnsubStatus}
    (leaves : ∀ status, Execution.inFlight (some status) = false →
      updated (some status) = some status)
    (flies : ∀ before, Execution.inFlight before = true → Execution.inFlight (updated before) = true) :
    (w.upsert inserted updated).NewestShown := by
  intro status newest
  obtain ⟨final, shows⟩ := inv.shown status newest
  refine ⟨final, ?_⟩
  rcases shows with there | waiting | ⟨flying, opened⟩
  · refine .inl ?_
    rw [World.upsert, there]
    exact congrArg some (leaves status final)
  · exact .inr (.inl waiting)
  · refine .inr (.inr ⟨?_, opened⟩)
    obtain ⟨before, there, inFlight⟩ := (Option.any_eq_true _ _).mp flying
    rw [World.inFlight, World.upsert, there]
    exact flies before inFlight

theorem Inv.projectIntent (inv : Inv w) (method : Option UnsubscribeMethod) :
    (w.projectIntent method).NewestShown := by
  unfold World.projectIntent
  cases method with
  | none => exact shown_upsert inv (fun _ _ => rfl) fun _ => id
  | some method =>
    dsimp only
    split_ifs with initial
    · refine shown_rest ?_ (final_initial initial.1)
      rw [World.upsert]
      cases policy : w.policy with
      | none => rfl
      | some before =>
        have null : before = none := by simpa [policy] using initial.2
        subst null
        exact congrArg some (projected_null initial.1)
    · exact shown_upsert inv (fun _ => projected_final) fun _ => inFlight_projected

theorem rows_projectIntent (method : Option UnsubscribeMethod) :
    (w.projectIntent method).rows = w.rows := by
  unfold World.projectIntent
  cases method with
  | none => rfl
  | some method =>
    dsimp only
    split_ifs <;> rfl

theorem Inv.deliverIntent (inv : Inv w) (event : IntentEvent) : Inv (w.deliverIntent i event) := by
  constructor
  · show ∀ row ∈ (w.projectIntent event.method).rows, _
    rw [rows_projectIntent]
    exact inv.senders
  · exact inv.projectIntent event.method

theorem Inv.deliverExecuted (inv : Inv w) {event : ExecutedEvent}
    (current : w.newest = some event.outcome.unsubStatus) : Inv (w.deliverExecuted i event) := by
  refine ⟨inv.senders, fun status newest => ?_⟩
  obtain rfl := Option.some.inj (current.symm.trans newest)
  refine ⟨final_unsubStatus _, .inl ?_⟩
  exact upsert_same ..

end Consumers

/-! ## The executions are those of the worker -/

/-- What execution `i` sees of the tables. -/
structure Seen (w : World) (i : ℕ) (v : Execution.World) : Prop where
  row : w.rows[i]? = v.row
  policy : w.policy = v.policy

/-- The outcomes that a delivery publishes. -/
def published (v v' : Execution.World) : List UnsubOutcome :=
  (v'.outbox.drop v.outbox.length).map (·.outcome)

theorem published_same {v v' : Execution.World} (outbox : v'.outbox = v.outbox) :
    published v v' = [] := by
  simp [published, outbox]

/-- A write of the worker is the step that makes it. -/
theorem seen_put {v x u : Execution.World} {after : ActionRow} (found : w.rows[i]? = some row)
    (there : u.row = some after) (row' : x.row = u.row) (policy : x.policy = u.policy)
    (outbox : published v x = u.outbox.map (·.outcome)) :
    Seen (w.put i u) i x ∧
      (w.put i u).executed.map (·.outcome) = w.executed.map (·.outcome) ++ published v x := by
  obtain ⟨within, -⟩ := List.getElem?_eq_some_iff.mp found
  refine ⟨⟨?_, policy.symm⟩, ?_⟩
  · rw [row', there, World.put, there]
    exact List.getElem?_set_self within
  · simp [outbox, World.put]

theorem write_eq {v u v' : Execution.World} {c : Execution.Choice}
    {r : Except Execution.ExecutionError Unit} (answered : Execution.write v u c = some (r, v')) :
    v' = v ∨ v' = u := by
  cases c with
  | done | lost =>
    cases answered
    exact .inr rfl
  | fails =>
    cases answered
    exact .inl rfl
  | _ => cases answered

theorem markExecuting_eq {t : ℕ} {recheck : Bool} {key : String} {v v' : Execution.World}
    {c : Execution.Choice} {r : Except Execution.ExecutionError Bool}
    (answered : Execution.answer t (.markExecuting recheck key) c v = some (r, v')) :
    v' = v ∨ v' = v.markExecuting := by
  unfold Execution.answer at answered
  dsimp only at answered
  split at answered <;> try split_ifs at answered
  all_goals first
    | (cases answered; done)
    | (cases answered; exact .inl rfl)
    | (cases answered; exact .inr rfl)

/-- Whatever a delivery of an execution writes is a step of the history. The terminal failure is
told the selector of the row. -/
theorem step_of_answer {t : ℕ} {q : Execution.Statement} {c : Execution.Choice}
    {r : Except Execution.ExecutionError q.Answer} {v v' : Execution.World}
    (found : w.rows[i]? = some row) (seen : Seen w i v)
    (ofRow : ∀ errorName ofSender, q = .recordTerminalFailure errorName ofSender →
      ofSender = row.selector.senderKey.isSome)
    (answered : Execution.answer t q c v = some (r, v')) :
    (Seen w i v' ∧ published v v' = []) ∨ ∃ write, Seen (w.execution i row write) i v' ∧
      (w.execution i row write).executed.map (·.outcome) =
        w.executed.map (·.outcome) ++ published v v' := by
  have here : v.row = some row := seen.row.symm.trans found
  have same (kept : v'.row = v.row ∧ v'.policy = v.policy ∧ v'.outbox = v.outbox) :
      Seen w i v' ∧ published v v' = [] := by
    obtain ⟨row', policy, outbox⟩ := kept
    exact ⟨⟨seen.row.trans row'.symm, seen.policy.trans policy.symm⟩, published_same outbox⟩
  have policy := seen.policy
  obtain ⟨_, _, activity, outbox, posts, live⟩ := v
  dsimp only at here policy
  subst here policy
  cases q with
  | markExecuting recheck key =>
    rcases markExecuting_eq answered with rfl | rfl
    · exact .inl (same ⟨rfl, rfl, rfl⟩)
    · exact .inr ⟨.markExecuting, seen_put found rfl rfl rfl (published_same rfl)⟩
  | recordOutcome actionId key record =>
    rcases write_eq answered with rfl | rfl
    · exact .inl (same ⟨rfl, rfl, rfl⟩)
    · have put := seen_put (v := ⟨some row, w.policy, activity, outbox, posts, live⟩)
        (x := Execution.World.recordOutcome ⟨some row, w.policy, activity, outbox, posts, live⟩
          actionId record)
        (u := (w.view row).recordOutcome row.id record) found rfl rfl rfl
        (by simp [published, Execution.World.recordOutcome, Execution.World.setPolicy,
          Execution.World.setRow, World.view])
      exact .inr ⟨.recordOutcome record, ⟨put.1.row, put.1.policy⟩, put.2⟩
  | recordSendDisabled actionId key =>
    rcases write_eq answered with rfl | rfl
    · exact .inl (same ⟨rfl, rfl, rfl⟩)
    · exact .inr ⟨.refuse _, seen_put found rfl rfl rfl (published_same rfl)⟩
  | recordSenderProtected actionId key =>
    rcases write_eq answered with rfl | rfl
    · exact .inl (same ⟨rfl, rfl, rfl⟩)
    · exact .inr ⟨.refuse _, seen_put found rfl rfl rfl (published_same rfl)⟩
  | recordTerminalFailure errorName ofSender =>
    rcases write_eq answered with rfl | rfl
    · exact .inl (same ⟨rfl, rfl, rfl⟩)
    · obtain rfl := ofRow errorName ofSender rfl
      refine .inr ⟨.recordTerminalFailure errorName, ?_⟩
      unfold World.execution Execution.World.recordTerminalFailure
      cases row.selector.senderKey.isSome <;>
        exact seen_put found rfl rfl rfl (published_same rfl)
  | _ =>
    refine .inl (same ?_)
    unfold Execution.answer at answered
    cases c <;> cases answered <;> exact ⟨rfl, rfl, rfl⟩

/-! ## Histories -/

theorem Inv.step {s : Step} (inv : Inv w) (permitted : current w s = true)
    (taken : w.step s = some w') : Inv w' := by
  cases s with
  | recordUnsubscribeIntent method execution =>
    obtain ⟨new, here⟩ := Option.ite_none_right_eq_some.mp taken
    cases here
    exact inv.recordUnsubscribeIntent method new
  | enqueueBulkUnsubscribe manual execution =>
    obtain ⟨new, here⟩ := Option.ite_none_right_eq_some.mp taken
    cases here
    exact inv.enqueueBulkUnsubscribe manual new
  | executeUnsubscribeIntent method execution =>
    obtain ⟨new, here⟩ := Option.ite_none_right_eq_some.mp taken
    cases here
    exact inv.announce new
  | execution i write =>
    obtain ⟨row, found, rfl⟩ := Option.map_eq_some_iff.mp taken
    cases write with
    | markExecuting => exact inv.markExecuting found
    | recordOutcome record => exact inv.recordOutcome found record
    | refuse errorCode => exact inv.refuse found errorCode
    | recordTerminalFailure errorName => exact inv.recordTerminalFailure found errorName
  | enqueueFailed i =>
    obtain ⟨row, found, rfl⟩ := Option.map_eq_some_iff.mp taken
    exact inv.enqueueFailed found
  | autopilotEnqueueFailed i =>
    obtain ⟨row, found, rfl⟩ := Option.map_eq_some_iff.mp taken
    exact inv.autopilotEnqueueFailed found
  | handleUnsubscribeIntentRecorded i =>
    obtain ⟨event, found, rfl⟩ := Option.map_eq_some_iff.mp taken
    exact inv.deliverIntent event
  | handleUnsubscribeExecuted i =>
    obtain ⟨event, found, rfl⟩ := Option.map_eq_some_iff.mp taken
    refine inv.deliverExecuted ?_
    simpa [current, found] using permitted

theorem Inv.after {steps : List Step} (inv : Inv w) (run : w.after current steps = some w') :
    Inv w' := by
  induction steps generalizing w with
  | nil =>
    obtain rfl := Option.some.inj run
    exact inv
  | cons s rest ih =>
    obtain ⟨permitted, run⟩ := Option.ite_none_right_eq_some.mp run
    obtain ⟨v, taken, run⟩ := Option.bind_eq_some_iff.mp run
    exact ih (inv.step permitted taken) run

theorem World.settled_iff : w.settled = true ↔
    (∀ row ∈ w.rows, JobStatus.terminal row.status = true) ∧
      (∀ event ∈ w.intents, event.delivered = true) ∧
        ∀ event ∈ w.executed, event.delivered = true := by
  simp [World.settled, and_assoc]

theorem exists_after {A : World → Step → Bool} {p : World → Bool} (w : World) (steps : List Step)
    (h : (w.after A steps).any p = true) : ∃ w', w.after A steps = some w' ∧ p w' = true :=
  (Option.any_eq_true _ _).mp h

/-- No policy, and no attempt. -/
def unattempted : World := ⟨none, [], [], [], none⟩

theorem unattempted_start : unattempted.Unattempted := ⟨rfl, rfl, rfl⟩

/-- A one-click intent, whose execution is keyed by `key`. -/
def requests (key : String) : Step :=
  .recordUnsubscribeIntent .oneClick (executionRow 0 ⟨"s1", "k1", some .oneClick, none⟩ key none)

def rejected : OutcomeRecord := ⟨.failed, some 404, some "UNSUB_TARGET_REJECTED"⟩

def accepted : OutcomeRecord := ⟨.endpointAccepted, some 200, none⟩

/-- The first outcome is delivered before the second execution ends, and the second twice. -/
def inTime : List Step :=
  [requests "a", .execution 0 (.recordOutcome rejected), .handleUnsubscribeExecuted 0,
    requests "b", .execution 1 (.recordOutcome accepted), .handleUnsubscribeExecuted 1,
    .handleUnsubscribeIntentRecorded 0, .handleUnsubscribeIntentRecorded 1,
    .handleUnsubscribeExecuted 1]

/-- The first outcome is delivered after the second. -/
def tooLate : List Step :=
  [requests "a", .execution 0 (.recordOutcome rejected), requests "b",
    .execution 1 (.recordOutcome accepted), .handleUnsubscribeIntentRecorded 0,
    .handleUnsubscribeIntentRecorded 1, .handleUnsubscribeExecuted 1, .handleUnsubscribeExecuted 0]

end DeclutrMail.Unsubscribe.StatusHistory
