import DeclutrMail.Outbox.Claim

/-!
# A whole tick

After the transaction a tick reports the failures it committed and escalates the calls
that never settled. It enters and leaves with nothing queued.
-/

namespace DeclutrMail.Outbox

open Interleaving

variable {s : Settings} {faults : Bool} {boot : Table} {queue : List EventId} {t : TickId}

/-! ## Reports and escalation -/

theorem does_captureFailed {id : EventId} {topic : String} {E : TickError → Local s faults boot} :
    Does t (Local.resting s faults boot (id :: queue)) (await (.capture (.eventFailed topic id)))
      (fun _ => Local.resting s faults boot queue) E := by
  refine own_perform fun w h _ ch r w' answered => ?_
  cases ch <;> simp only [answer, reduceCtorEq] at answered
  obtain ⟨rfl, rfl⟩ := by simpa using answered
  exact ⟨.of_rows rfl rfl, Resting.captureFailed h⟩

theorem does_logTickError (err : TickError) {E : TickError → Local s faults boot} :
    Does t (Local.resting s faults boot queue) (logTickError err)
      (fun _ => Local.resting s faults boot queue) E := by
  refine own_perform fun w h _ ch r w' answered => ?_
  cases ch <;> simp only [answer, reduceCtorEq] at answered
  obtain ⟨rfl, rfl⟩ := by simpa using answered
  exact ⟨.of_rows rfl rfl, Resting.captureTickFailed h⟩

theorem does_reportConsumerFailures {E : TickError → Local s faults boot}
    (failures : List ConsumerFailure) :
    Does t (Local.resting s faults boot (failedIds failures)) (reportConsumerFailures failures)
      (fun _ => Local.resting s faults boot []) E := by
  induction failures with
  | nil => exact Does.done fun _ h => h
  | cons f fs ih =>
    refine Triple.bind (B := fun _ => owned t (Local.resting s faults boot (failedIds fs)))
      (Triple.when (fun failed => ?_) fun kept => owned_mono fun w h => ?_) fun _ => ih
    · have first : failedIds (f :: fs) = f.event.id :: failedIds fs := by simp [failedIds, failed]
      rw [first]
      exact does_captureFailed
    · simpa [failedIds, kept] using h

theorem does_orphan_stuck {E : TickError → Local s faults boot} (k : Key) :
    Does t (Local.resting s faults boot []) (await (.orphan k))
      (fun found => match found with
        | none => Local.resting s faults boot []
        | some o => (Local.resting s faults boot []).also (stuck o.eventId)) E := by
  refine own_perform fun w h _ ch r w' answered => ?_
  cases ch <;> simp only [answer, reduceCtorEq] at answered
  obtain ⟨rfl, rfl⟩ := by simpa using answered
  refine ⟨.of_rows rfl rfl, ?_⟩
  cases found : w.orphanedEvents.get k with
  | none => exact h
  | some o => exact ⟨h, (h.orphaned found).2⟩

theorem does_failStuck {id : EventId} {lastError : String} :
    Does t ((Local.resting s faults boot []).also (stuck id)) (await (.failStuck id lastError))
      (fun bumped => Local.resting s faults boot (if bumped then [id] else []))
      (fun _ => Local.resting s faults boot []) := by
  refine own_perform fun w ⟨h, unthrown⟩ progress ch r w' answered => ?_
  cases ch <;> simp only [answer, reduceCtorEq] at answered
  case fail info =>
    split_ifs at answered with broken
    obtain ⟨rfl, rfl⟩ := by simpa using answered
    exact ⟨.of_rows rfl rfl, h⟩
  case go =>
    cases there : (w.rows id).filter (·.status = .pending) with
    | none =>
      rw [there] at answered
      obtain ⟨rfl, rfl⟩ := by simpa using answered
      exact ⟨.of_rows rfl rfl, h⟩
    | some row =>
      rw [there] at answered
      obtain ⟨rfl, rfl⟩ := by simpa using answered
      obtain ⟨found, pending⟩ := Option.filter_eq_some_iff.mp there
      have pending : row.status = .pending := of_decide_eq_true pending
      refine ⟨⟨rfl, .update fun r hr => ?_, .inl rfl⟩,
        Resting.failStuck h progress unthrown found pending⟩
      obtain rfl : row = r := Option.some.inj (found.symm.trans hr)
      exact ⟨rfl, le_rfl, .inl pending⟩

theorem does_markEscalated {E : TickError → Local s faults boot} (k : Key) (o : Orphan) :
    Does t (Local.resting s faults boot queue) (await (.markEscalated k o))
      (fun _ => Local.resting s faults boot queue) E := by
  refine own_perform fun w h _ ch r w' answered => ?_
  cases ch <;> simp only [answer, reduceCtorEq] at answered
  split_ifs at answered with current
  · obtain ⟨rfl, rfl⟩ := by simpa using answered
    exact ⟨.of_rows rfl rfl, Resting.markEscalated h current⟩
  · obtain ⟨rfl, rfl⟩ := by simpa using answered
    exact ⟨.of_rows rfl rfl, h⟩

theorem does_escalate (startedAt : ℤ) (k : Key) :
    Does t (Local.resting s faults boot []) (escalate s startedAt k)
      (fun _ => Local.resting s faults boot []) (fun _ => Local.resting s faults boot []) := by
  refine Triple.bind (does_orphan_stuck k) fun found => ?_
  cases found with
  | none => exact Does.done fun _ h => h
  | some o =>
    refine Triple.when (fun _ => ?_) fun _ => owned_mono fun w h => h.1
    refine Triple.bind does_failStuck fun bumped => Triple.bind (does_markEscalated k o) fun _ =>
      Triple.bind (does_deleteStreak quiet_resting _) fun _ => ?_
    refine Triple.when (fun yes => ?_) fun no => owned_mono fun w h => ?_
    · rw [if_pos yes]
      exact does_captureFailed
    · rwa [if_neg (by simp [no])] at h

theorem does_escalateAll (startedAt : ℤ) (ks : List Key) :
    Does t (Local.resting s faults boot []) (escalateAll s startedAt ks)
      (fun _ => Local.resting s faults boot []) (fun _ => Local.resting s faults boot []) := by
  induction ks with
  | nil => exact Does.done fun _ h => h
  | cons k ks ih => exact Triple.bind (does_escalate startedAt k) fun _ => ih

theorem does_escalateStuckOrphans :
    Does t (Local.resting s faults boot []) (escalateStuckOrphans s)
      (fun _ => Local.resting s faults boot []) (fun _ => Local.resting s faults boot []) :=
  Triple.bind does_now fun startedAt => Triple.bind does_orphanKeys fun ks =>
    does_escalateAll startedAt ks

/-! ## The tick -/

theorem does_assertAdmission :
    Does t (Local.resting s faults boot queue) (await .assertAdmission)
      (fun _ => Local.resting s faults boot queue) (fun _ => Local.resting s faults boot queue) := by
  refine own_perform fun w h _ ch r w' answered => ?_
  cases ch <;> simp only [answer, reduceCtorEq] at answered
  all_goals
    obtain ⟨rfl, rfl⟩ := by simpa using answered
    exact ⟨.of_rows rfl rfl, h⟩

theorem does_runOneTick {E : TickError → Local s faults boot} :
    Does t (Local.resting s faults boot []) (runOneTick s)
      (fun _ => Local.resting s faults boot []) E := by
  refine Triple.bind (Triple.tryCatch ?_ fun err => does_logTickError err) fun _ =>
    Triple.tryCatch does_escalateStuckOrphans fun err => does_logTickError err
  exact Triple.bind does_assertAdmission fun _ => Triple.bind does_claimAndDispatch fun failures =>
    does_reportConsumerFailures failures

/-- The last step of a tick hands what it knows back to the idle dispatcher. -/
theorem does_leaveTick {E : TickError → Assertion (Rely s faults boot t)} :
    Triple (M := dispatcher s faults) (Guarantee s faults boot)
      (owned t (Local.resting s faults boot [])) (await .leaveTick)
      (fun _ => outside s faults boot t) E := by
  refine Triple.perform fun w ⟨inv, busy, h⟩ ch r w' answered => ?_
  cases ch <;> simp only [answer, reduceCtorEq] at answered
  obtain ⟨rfl, rfl⟩ := by simpa using answered
  have inv' : Inv s faults boot { w with inFlight := none } :=
    ⟨inv.single, inv.progress, inv.reported, inv.justified, inv.flipped,
      fun _ => Resting.congr h rfl rfl rfl rfl rfl⟩
  exact ⟨⟨inv', .refl _, .inl rfl, fun _ => .inr rfl, fun free => absurd busy free⟩, inv',
    fun taken => by cases taken⟩

/-- A step that only moves the counter of waiting wake-ups. -/
theorem Inv.flags {w : World} (h : Inv s faults boot w) (n : ℕ) :
    Inv s faults boot { w with pendingTickCalls := n } :=
  ⟨h.single, h.progress, h.reported, h.justified, h.flipped,
    fun free => Resting.congr (h.idle free) rfl rfl rfl rfl rfl⟩

theorem guarantee_flags {w : World} (h : Inv s faults boot w) (n : ℕ) :
    Guarantee s faults boot t w { w with pendingTickCalls := n } :=
  ⟨h.flags n, .refl _, .inl rfl, .inl, fun _ => .inl ⟨n, rfl⟩⟩

theorem does_enterTick {E : TickError → Assertion (Rely s faults boot t)} :
    Triple (M := dispatcher s faults) (Guarantee s faults boot) (outside s faults boot t)
      (await .enterTick)
      (fun entry => match entry with
        | .entered => owned t (Local.resting s faults boot [])
        | _ => outside s faults boot t) E := by
  refine Triple.perform fun w ⟨inv, free⟩ ch r w' answered => ?_
  cases ch <;> simp only [answer, reduceCtorEq] at answered
  have idle := guarantee_flags (t := t) inv w.pendingTickCalls
  by_cases stopping : w.shuttingDown = true
  · rw [if_pos stopping] at answered
    obtain ⟨rfl, rfl⟩ := by simpa using answered
    exact ⟨idle, inv, free⟩
  rw [if_neg stopping] at answered
  cases busy : w.inFlight with
  | some t' =>
    simp only [busy] at answered
    split_ifs at answered with full
    · obtain ⟨rfl, rfl⟩ := by simpa using answered
      exact ⟨idle, inv, free⟩
    · obtain ⟨rfl, rfl⟩ := by simpa using answered
      have moved := guarantee_flags (t := t) inv (w.pendingTickCalls + 1)
      rw [busy] at moved
      exact ⟨moved, moved.inv, by rw [← busy]; exact free⟩
  | none =>
    simp only [busy] at answered
    obtain ⟨rfl, rfl⟩ := by simpa using answered
    have resting : Resting s faults boot [] { w with inFlight := some t } :=
      Resting.congr (inv.idle busy) rfl rfl rfl rfl rfl
    have inv' : Inv s faults boot { w with inFlight := some t } :=
      resting.inv inv.progress (fun _ => rfl)
    exact ⟨⟨inv', .refl _, .inl rfl, fun mine => absurd mine free, fun _ => .inr ⟨busy, rfl⟩⟩,
      inv', rfl, resting⟩

theorem does_tick :
    Triple (M := dispatcher s faults) (Guarantee s faults boot) (outside s faults boot t) (tick s)
      (fun _ => outside s faults boot t) (fun _ => outside s faults boot t) := by
  refine Triple.bind does_enterTick fun entry => ?_
  cases entry with
  | refused => exact Triple.done fun _ h => h
  | entered =>
    exact Triple.ensure (does_runOneTick (E := fun _ => Local.resting s faults boot []))
      (fun _ => does_leaveTick) fun _ => does_leaveTick
  | coalesced t' =>
    refine Triple.bind (B := fun _ => outside s faults boot t)
      (Triple.perform fun w ⟨inv, free⟩ ch r w' answered => ?_) fun _ =>
      Triple.perform fun w ⟨inv, free⟩ ch r w' answered => ?_
    · cases ch <;> simp only [answer, reduceCtorEq] at answered
      split_ifs at answered with busy
      obtain ⟨rfl, rfl⟩ := by simpa using answered
      exact ⟨guarantee_flags inv w.pendingTickCalls, inv, free⟩
    · cases ch <;> simp only [answer, reduceCtorEq] at answered
      obtain ⟨rfl, rfl⟩ := by simpa using answered
      exact ⟨guarantee_flags inv _, inv.flags _, free⟩

end DeclutrMail.Outbox
