import DeclutrMail.Outbox.Effects

/-!
# The claim transaction keeps what it knows

One specification for each function of the tick, from the inside out. Inside the
transaction the state is `opened`, before and after it is `resting`. A failure of a row
is queued from the statement that writes it until it is reported.
-/

namespace DeclutrMail.Outbox

open Interleaving

variable {s : Settings} {faults : Bool} {boot : Table} {queue : List EventId}
  {late : Option (EventId × Outcome)} {todo rest : List DispatchedEvent}
  {t : TickId} {e : DispatchedEvent} {i : CallId}

/-! ## Requests that no assertion speaks of -/

/-- `P` does not speak of the timeout streaks. -/
def Quiet (P : Local s faults boot) : Prop := ∀ w id since, P w → P (World.setStreak w id since)

theorem quiet_opened {cur : Option CallId} :
    Quiet (Local.opened s faults boot cur queue late todo) :=
  fun _ _ _ h => Open.congr h h.opened rfl rfl rfl rfl rfl

theorem quiet_resting : Quiet (Local.resting s faults boot queue) :=
  fun _ _ _ h => Resting.congr h rfl rfl rfl rfl rfl

theorem setStreak_frame (w : World) (id : EventId) (since : Option ℤ) :
    Frame w (w.setStreak id since) := .of_rows rfl rfl

section Quiet

variable {P : Local s faults boot} {E : TickError → Local s faults boot}

theorem does_now : Does t P (await .now) (fun _ => P) E := by
  refine own_perform fun w hw _ ch r w' answered => ?_
  cases ch with
  | go =>
    obtain ⟨rfl, rfl⟩ := by simpa [answer_now] using answered
    exact ⟨.of_rows rfl rfl, hw⟩
  | _ => simp [answer] at answered

theorem does_orphanKeys : Does t P (await .orphanKeys) (fun _ => P) E := by
  refine own_perform fun w hw _ ch r w' answered => ?_
  cases ch <;> simp [answer] at answered
  obtain ⟨rfl, rfl⟩ := answered
  exact ⟨.of_rows rfl rfl, hw⟩

theorem does_streak (id : EventId) : Does t P (await (.streak id)) (fun _ => P) E := by
  refine own_perform fun w hw _ ch r w' answered => ?_
  cases ch <;> simp [answer] at answered
  obtain ⟨rfl, rfl⟩ := answered
  exact ⟨.of_rows rfl rfl, hw⟩

theorem does_setStreak (quiet : Quiet P) (id : EventId) (since : ℤ) :
    Does t P (await (.setStreak id since)) (fun _ => P) E := by
  refine own_perform fun w hw _ ch r w' answered => ?_
  cases ch <;> simp [answer] at answered
  obtain ⟨rfl, rfl⟩ := answered
  exact ⟨setStreak_frame .., quiet w id _ hw⟩

theorem does_deleteStreak (quiet : Quiet P) (id : EventId) :
    Does t P (await (.deleteStreak id)) (fun _ => P) E := by
  refine own_perform fun w hw _ ch r w' answered => ?_
  cases ch <;> simp [answer] at answered
  obtain ⟨rfl, rfl⟩ := answered
  exact ⟨setStreak_frame .., quiet w id _ hw⟩

theorem does_streakStartedAt (quiet : Quiet P) (id : EventId) :
    Does t P (streakStartedAt id) (fun _ => P) E := by
  refine Triple.bind (does_streak id) fun since => ?_
  cases since with
  | some t => exact .done fun _ h => h
  | none =>
    exact Triple.bind does_now fun t => Triple.bind (does_setStreak quiet id t) fun _ =>
      .done fun _ h => h

theorem does_timeoutStreakExceededCeiling (quiet : Quiet P) (id : EventId) (isTimeout : Bool) :
    Does t P (timeoutStreakExceededCeiling s id isTimeout)
      (fun exceeded => P.also (.fact (exceeded = true → isTimeout = true))) E := by
  cases isTimeout with
  | true =>
    exact Triple.bind (does_streakStartedAt quiet id) fun _ => Triple.bind does_now fun _ =>
      Does.done fun _ h => ⟨h, fun _ => rfl⟩
  | false =>
    exact Triple.bind (does_deleteStreak quiet id) fun _ => Does.done fun _ h => ⟨h, nofun⟩

end Quiet

/-! ## One call -/

/-- Nothing has been written since the savepoint. -/
def saved : Assertion Background where
  holds := fun w => ∃ x, w.tx = some x ∧ x.saved = x.written
  stable := fun _ _ ⟨x, hx, same⟩ b => ⟨x, b.tx.trans hx, same⟩

/-- A call for key `k` may be started. -/
def unorphaned (k : Key) : Assertion Background where
  holds := fun w => w.orphanedEvents.get k = none
  stable := by
    intro w w' h b
    cases b with
    | clock | flags | publish => exact h
    | settle i c st hi unsettled =>
      refine Option.eq_none_iff_forall_ne_some.mpr fun o ho => ?_
      rw [(get_settle.mp ho).1] at h
      cases h

/-- A call for event `id` resolved before its deadline. -/
def resolvedInTime (id : EventId) : Assertion Background where
  holds := fun w => ∃ c ∈ w.calls, c.event.id = id ∧ c.seen = some .resolved
  stable := by
    rintro w w' ⟨c, hc, event, seen⟩ b
    cases b with
    | clock | flags | publish => exact ⟨c, hc, event, seen⟩
    | settle i d st hi unsettled =>
      obtain ⟨c', hc', event', seen'⟩ := mem_settle hi hc
      exact ⟨c', hc', by rw [event', event], by rw [seen', seen]⟩

/-- The error that outcome `o` of a call is thrown as. -/
def ThrownAs (err : TickError) (o : Outcome) : Prop :=
  (isOutboxTimeoutError err = true ↔ o = .timedOut) ∧ o ≠ .resolved

variable (s faults boot) in
/-- Inside the savepoint of `dispatchRow`. -/
def underway (cur : Option CallId) (queue : List EventId) (late : Option (EventId × Outcome))
    (todo : List DispatchedEvent) : Local s faults boot :=
  (Local.opened s faults boot cur queue late todo).also saved

theorem does_consumer {E : TickError → Local s faults boot} :
    Does t ((underway s faults boot none queue none (e :: rest)).also
        (unorphaned (orphanGuardKey e)))
      (await (.consumer e))
      (fun i => (underway s faults boot (some i) queue none (e :: rest)).also (awaiting e i)) E := by
  refine own_perform fun w ⟨⟨h, savepoint⟩, free⟩ _ ch r w' answered => ?_
  cases ch <;> simp [answer] at answered
  obtain ⟨rfl, rfl⟩ := answered
  exact ⟨.of_rows rfl rfl, ⟨Open.start h free, savepoint⟩, w.calls, none, rfl, rfl⟩

/-- The race of call `i` ends with an outcome, as a value or as an error. -/
theorem does_race (message : String) :
    Does t ((underway s faults boot (some i) queue none (e :: rest)).also (awaiting e i))
      (await (.race i message))
      (fun _ => (underway s faults boot none queue (some (e.id, .resolved)) (e :: rest)).also
        (resolvedInTime e.id))
      (fun err => .ex fun o => ((underway s faults boot
          (if isOutboxTimeoutError err then some i else none) queue (some (e.id, o))
            (e :: rest)).also ((calledFor e i).and (lastHeard e.id o))).also
          (.fact (ThrownAs err o))) := by
  refine own_perform fun w ⟨⟨h, savepoint⟩, awaited⟩ _ ch r w' answered => ?_
  have called := fun o => calledFor_see (o := o) awaited
  have heard := fun o => lastHeard_see (o := o) awaited
  cases hs : (w.calls[i]?).bind (·.settled) with
  | none =>
    cases ch <;> simp [answer, hs] at answered
    obtain ⟨rfl, rfl⟩ := answered
    exact ⟨.of_rows rfl rfl, .timedOut, ⟨⟨Open.see h awaited (.inl rfl), savepoint⟩,
      called _, heard _⟩, by simp [isOutboxTimeoutError], fun threw => by cases threw⟩
  | some st =>
    have past : ((w.calls[i]?).bind (·.settled)).isSome = true := by simp [hs]
    cases st with
    | resolved =>
      cases ch <;> simp [answer, hs] at answered
      obtain ⟨rfl, rfl⟩ := answered
      refine ⟨.of_rows rfl rfl, ⟨Open.see h awaited (.inr ⟨rfl, past⟩), savepoint⟩, ?_⟩
      have last := heard .resolved
      obtain ⟨c, hc, there⟩ := List.mem_filterMap.mp (List.mem_of_getLast? last)
      split_ifs at there with event
      exact ⟨c, hc, event, there⟩
    | rejected err =>
      cases ch <;> simp [answer, hs] at answered
      obtain ⟨rfl, rfl⟩ := answered
      exact ⟨.of_rows rfl rfl, .threw, ⟨⟨Open.see h awaited (.inr ⟨rfl, past⟩), savepoint⟩,
        called _, heard _⟩, by simp [isOutboxTimeoutError], fun timedOut => by cases timedOut⟩

theorem does_trackOrphan {o : Outcome} (unthrown : o ≠ .threw)
    {E : TickError → Local s faults boot} :
    Does t ((underway s faults boot (some i) queue (some (e.id, o)) (e :: rest)).also
        ((calledFor e i).and (lastHeard e.id o)))
      (await (.trackOrphan e i))
      (fun _ => underway s faults boot none queue (some (e.id, o)) (e :: rest)) E := by
  refine own_perform fun w ⟨⟨h, savepoint⟩, called, heard⟩ _ ch r w' answered => ?_
  cases ch <;> simp only [answer, reduceCtorEq] at answered
  split_ifs at answered with past
  · obtain ⟨rfl, rfl⟩ := by simpa using answered
    exact ⟨.of_rows rfl rfl, Open.unwatched h past, savepoint⟩
  · obtain ⟨rfl, rfl⟩ := by simpa using answered
    exact ⟨.of_rows rfl rfl, Open.trackOrphan h called heard unthrown, savepoint⟩

theorem does_runConsumerWithOrphanGuard :
    Does t ((underway s faults boot none queue none (e :: rest)).also
        (unorphaned (orphanGuardKey e)))
      (runConsumerWithOrphanGuard s e)
      (fun _ => (underway s faults boot none queue (some (e.id, .resolved)) (e :: rest)).also
        (resolvedInTime e.id))
      (fun err => .ex fun o => (underway s faults boot none queue (some (e.id, o))
        (e :: rest)).also (.fact (ThrownAs err o))) := by
  refine Triple.bind does_consumer fun i => ?_
  refine Triple.tryCatch (does_race _) fun err => Does.of_ex fun o => Does.of_fact fun thrown => ?_
  refine Triple.bind (Triple.when (fun timeout => ?_) fun other => ?_) fun _ =>
    Does.failed fun w h => ⟨o, h, thrown⟩
  · have timedOut : o = .timedOut := thrown.1.mp timeout
    rw [if_pos timeout]
    exact does_trackOrphan (by rw [timedOut]; nofun)
  · rw [if_neg (by simp [other])]
    exact owned_mono fun w h => h.1

/-! ## One row -/

/-- What is known of an error that reaches the catch block: the outcome it stands for,
unless a statement failed. -/
def Told (faults : Bool) (id : EventId) (err : TickError) (late : Option (EventId × Outcome)) :
    Prop :=
  faults = false → ∃ o, late = some (id, o) ∧ ThrownAs err o

variable (s faults boot) in
/-- The state in which the catch block runs. -/
def caught (queue : List EventId) (e : DispatchedEvent) (rest : List DispatchedEvent)
    (err : TickError) : Local s faults boot :=
  .ex fun late => (Local.opened s faults boot none queue late (e :: rest)).also
    (.fact (Told faults e.id err late))

theorem told_of_fault {id : EventId} {err : TickError} (h : faults = true) :
    Told faults id err late := fun reliable => by simp [h] at reliable

theorem does_savepoint :
    Does t ((Local.opened s faults boot none queue none (e :: rest)).also
        (unorphaned (orphanGuardKey e)))
      (await .savepoint)
      (fun _ => (underway s faults boot none queue none (e :: rest)).also
        (unorphaned (orphanGuardKey e)))
      (caught s faults boot queue e rest) := by
  refine own_perform fun w ⟨h, free⟩ _ ch r w' answered => ?_
  obtain ⟨x, hx⟩ := Option.isSome_iff_exists.mp h.opened
  cases ch <;> simp only [answer, reduceCtorEq] at answered
  case go =>
    obtain ⟨rfl, rfl⟩ := by simpa using answered
    refine ⟨.of_rows rfl rfl, ⟨Open.congr h (by simp [World.mapTx, hx]) rfl
      (view_mapTx hx rfl) rfl rfl rfl, ?_⟩, free⟩
    exact ⟨{ x with saved := x.written }, by simp [World.mapTx, hx], rfl⟩
  case fail err =>
    split_ifs at answered with broken
    obtain ⟨rfl, rfl⟩ := by simpa using answered
    exact ⟨.of_rows rfl rfl, none, h, told_of_fault broken⟩

theorem does_rollbackTo {err : TickError} :
    Does t (.ex fun late => (underway s faults boot none queue late (e :: rest)).also
        (.fact (Told faults e.id err late)))
      (await .rollbackTo)
      (fun _ => caught s faults boot queue e rest err)
      (caught s faults boot queue e rest) := by
  refine Does.of_ex fun late => own_perform fun w ⟨⟨h, x, hx, same⟩, told⟩ _ ch r w' answered => ?_
  cases ch <;> simp only [answer, reduceCtorEq] at answered
  case go =>
    obtain ⟨rfl, rfl⟩ := by simpa using answered
    exact ⟨.of_rows rfl rfl, late, Open.congr h (by simp [World.mapTx, hx]) rfl
      (view_mapTx hx same) rfl rfl rfl, told⟩
  case fail err =>
    split_ifs at answered with broken
    obtain ⟨rfl, rfl⟩ := by simpa using answered
    exact ⟨.of_rows rfl rfl, late, h, told_of_fault broken⟩

theorem does_markDispatched :
    Does t ((underway s faults boot none queue (some (e.id, .resolved)) (e :: rest)).also
        (resolvedInTime e.id))
      (await (.markDispatched e.id))
      (fun _ => Local.opened s faults boot none queue none rest)
      (fun err => .ex fun late => (underway s faults boot none queue late (e :: rest)).also
        (.fact (Told faults e.id err late))) := by
  refine own_perform fun w ⟨⟨h, savepoint⟩, resolved⟩ progress ch r w' answered => ?_
  obtain ⟨row, there, pending, -⟩ := h.claimed.pending (List.mem_cons_self ..)
  cases ch <;> simp only [answer, there, reduceCtorEq] at answered
  case go =>
    obtain ⟨rfl, rfl⟩ := by simpa using answered
    let row' : OutboxEvent := { row with status := .dispatched, dispatchedAt := some w.clock }
    have written : Open s faults boot none
        (queue ++ if row'.status = .failed then [e.id] else []) none rest (w.write e.id row') :=
      h.write progress there pending ⟨rfl, le_rfl, .inl pending⟩ (fun _ => resolved)
        fun _ _ => trivial
    rw [if_neg (by simp [row']), List.append_nil] at written
    exact ⟨.of_rows rfl rfl, written⟩
  case fail err =>
    split_ifs at answered with broken
    obtain ⟨rfl, rfl⟩ := by simpa using answered
    exact ⟨.of_rows rfl rfl, _, ⟨h, savepoint⟩, told_of_fault broken⟩

theorem does_deliver :
    Does t ((Local.opened s faults boot none queue none (e :: rest)).also
        (unorphaned (orphanGuardKey e)))
      (deliver s e)
      (fun _ => Local.opened s faults boot none queue none rest)
      (caught s faults boot queue e rest) := by
  have called := @does_runConsumerWithOrphanGuard s faults boot queue rest t e
  have body := Triple.bind (called.fails (E := fun err => .ex fun late =>
      (underway s faults boot none queue late (e :: rest)).also (.fact (Told faults e.id err late)))
    fun err w ⟨o, h, thrown⟩ => ⟨some (e.id, o), h, fun _ => ⟨o, rfl, thrown⟩⟩)
    fun _ => does_markDispatched
  refine Triple.bind (Triple.bind does_savepoint fun _ => Triple.tryCatch body fun err => ?_)
    fun _ => does_deleteStreak quiet_opened e.id
  exact Triple.bind does_rollbackTo fun _ => Does.failed fun _ h => h

/-- The events whose rows were failed, among the failures a tick collected. -/
def failedIds (failures : List ConsumerFailure) : List EventId :=
  (failures.filter (·.failed)).map (·.event.id)

theorem failedIds_nil : failedIds [] = [] := rfl

variable (s faults boot) in
/-- The state in which the transaction is rolled back: a statement has failed. -/
def aborting : Local s faults boot :=
  .ex fun p : List EventId × Option (EventId × Outcome) × List DispatchedEvent =>
    (Local.opened s faults boot none p.1 p.2.1 p.2.2).also (.fact (faults = true))

/-- A failed attempt, added to what the row had recorded. -/
theorem Recorded.attempt {maxAttempts : ℕ} {h : List Outcome} {o : Outcome}
    {row row' : OutboxEvent} (recorded : Recorded maxAttempts h row) (shouldFail : Bool)
    (pending : row.status = .pending) (attempts : row'.attempts = row.attempts + 1)
    (status : row'.status = if shouldFail then .failed else .pending) (unresolved : o ≠ .resolved)
    (budget : o = .threw → (shouldFail = true ↔ maxAttempts ≤ row.attempts + 1)) :
    Recorded maxAttempts (h ++ [o]) row' := by
  unfold Recorded at recorded
  rw [pending] at recorded
  obtain ⟨length, clean, spared⟩ := recorded
  cases shouldFail with
  | true =>
    unfold Recorded
    simp only [status, ↓reduceIte]
    intro p split
    obtain ⟨rfl, last⟩ := List.append_inj' split rfl
    obtain rfl : o = .threw := by simpa using last
    exact ⟨by rw [← length]; exact (budget rfl).mp rfl, clean, spared⟩
  | false =>
    unfold Recorded
    simp only [status, Bool.false_eq_true, ↓reduceIte]
    refine ⟨by rw [attempts, length]; simp, by simp [clean, Ne.symm unresolved], ?_⟩
    intro p q split
    rcases List.eq_nil_or_concat q with rfl | ⟨q', o', rfl⟩
    · obtain ⟨rfl, last⟩ := List.append_inj' split rfl
      obtain rfl : o = .threw := by simpa using last
      have within : ¬ maxAttempts ≤ row.attempts + 1 := fun past => by
        simpa using (budget rfl).mpr past
      omega
    · rw [List.concat_eq_append, ← List.cons_append, ← List.append_assoc] at split
      exact spared p q' (List.append_inj' split rfl).1

theorem guarded_of_pending {row : OutboxEvent} {n : ℕ} (pending : row.status = .pending)
    (attempts : row.attempts = n) : guarded (some row) n = some row := by
  simp [guarded, pending, attempts]

theorem does_bumpAttempts {err : TickError} {lastError : String} {shouldFail : Bool}
    (told : Told faults e.id err late)
    (budget : isOutboxTimeoutError err = false →
      (shouldFail = true ↔ s.maxAttempts ≤ e.attempts + 1)) :
    Does t (Local.opened s faults boot none queue late (e :: rest))
      (await (.bumpAttempts e (e.attempts + 1) lastError shouldFail))
      (fun bumped => Local.opened s faults boot none
        (queue ++ if bumped && shouldFail then [e.id] else []) none rest)
      (fun _ => aborting s faults boot) := by
  refine own_perform fun w h progress ch r w' answered => ?_
  obtain ⟨row, there, pending, attempts, -⟩ := h.claimed.pending (List.mem_cons_self ..)
  cases ch <;>
    simp only [answer, there, guarded_of_pending pending attempts, reduceCtorEq] at answered
  case fail info =>
    split_ifs at answered with broken
    obtain ⟨rfl, rfl⟩ := by simpa using answered
    exact ⟨.of_rows rfl rfl, ⟨_, late, _⟩, h, broken⟩
  case go =>
    obtain ⟨rfl, rfl⟩ := by simpa using answered
    let row' : OutboxEvent := { row with
      attempts := e.attempts + 1
      lastError := some lastError
      status := if shouldFail then .failed else row.status }
    have evolves : Evolves row row' := ⟨rfl, by simp [row', attempts], .inl pending⟩
    have written : Open s faults boot none
        (queue ++ if row'.status = .failed then [e.id] else []) none rest (w.write e.id row') := by
      refine h.write progress there pending evolves ?_ fun reliable fresh => ?_
      · intro dispatched
        cases shouldFail <;> simp [row', pending] at dispatched
      · obtain ⟨o, rfl, thrown, unresolved⟩ := told reliable
        have booked := h.ledger.booked reliable e.id fresh
        rw [there] at booked
        obtain ⟨p, hp, recorded⟩ := booked
        rw [hp, show lateFor (some (e.id, o)) e.id = [o] by simp [lateFor]]
        refine recorded.attempt shouldFail pending (by simp [row', attempts])
          (by cases shouldFail <;> simp [row', pending]) unresolved fun threw => ?_
        rw [attempts]
        refine budget (Bool.eq_false_iff.mpr fun timeout => ?_)
        rw [thrown.mp timeout] at threw
        cases threw
    refine ⟨.of_rows rfl rfl, ?_⟩
    have same : (row'.status = .failed) = (shouldFail = true) := by
      cases shouldFail <;> simp [row', pending]
    simp only [same] at written
    exact written

theorem does_recordFailure (err : TickError) :
    Does t (caught s faults boot queue e rest err) (recordFailure s e err)
      (fun failures => Local.opened s faults boot none (queue ++ failedIds failures) none rest)
      (fun _ => aborting s faults boot) := by
  refine Does.of_ex fun late => Does.of_fact fun told => ?_
  refine Triple.bind (does_timeoutStreakExceededCeiling quiet_opened e.id _) fun exceeded => ?_
  refine Does.of_fact fun timeout => ?_
  refine Triple.bind (Triple.when (fun _ => does_deleteStreak quiet_opened e.id)
    fun _ _ h => h) fun _ => ?_
  refine Triple.bind (does_bumpAttempts told fun other => ?_) fun bumped => Does.done fun w h => ?_
  · have streak : exceeded = false := by
      cases exceeded with
      | false => rfl
      | true =>
        rw [timeout rfl] at other
        cases other
    simp [streak, other]
  · cases bumped with
    | false => simpa [failedIds] using h
    | true => cases hf : exceeded || _ <;> simpa [failedIds, hf] using h

theorem does_orphan {P : Local s faults boot} {E : TickError → Local s faults boot} (k : Key) :
    Does t P (await (.orphan k))
      (fun found => match found with
        | none => P.also (unorphaned k)
        | some _ => P) E := by
  refine own_perform fun w h _ ch r w' answered => ?_
  cases ch <;> simp only [answer, reduceCtorEq] at answered
  obtain ⟨rfl, rfl⟩ := by simpa using answered
  refine ⟨.of_rows rfl rfl, ?_⟩
  cases found : w.orphanedEvents.get k with
  | none => exact ⟨h, found⟩
  | some o => exact h

theorem does_dispatchRow :
    Does t (Local.opened s faults boot none queue none (e :: rest)) (dispatchRow s e)
      (fun failures => Local.opened s faults boot none (queue ++ failedIds failures) none rest)
      (fun _ => aborting s faults boot) := by
  refine Triple.bind (does_orphan (orphanGuardKey e)) fun found => ?_
  cases found with
  | some o =>
    refine Does.done fun w h => ?_
    rw [failedIds_nil, List.append_nil]
    exact Open.skip h
  | none =>
    refine Triple.tryCatch (Triple.bind does_deliver fun _ => Does.done fun w h => ?_)
      does_recordFailure
    simpa [failedIds] using h

theorem failedIds_append (fs gs : List ConsumerFailure) :
    failedIds (fs ++ gs) = failedIds fs ++ failedIds gs := by
  simp [failedIds]

theorem does_dispatchRows (events : List DispatchedEvent) :
    Does t (Local.opened s faults boot none queue none events) (dispatchRows s events)
      (fun failures => Local.opened s faults boot none (queue ++ failedIds failures) none [])
      (fun _ => aborting s faults boot) := by
  induction events generalizing queue with
  | nil => exact Does.done fun w h => by simpa [failedIds] using h
  | cons e rest ih =>
    refine Triple.bind does_dispatchRow fun failures => Triple.bind ih fun more =>
      Does.done fun w h => ?_
    rw [failedIds_append, ← List.append_assoc]
    exact h

/-! ## The claim transaction -/

theorem does_beginTx :
    Does t (Local.resting s faults boot []) (await .beginTx)
      (fun _ => Local.opened s faults boot none [] none [])
      (fun _ => Local.resting s faults boot []) := by
  refine own_perform fun w h _ ch r w' answered => ?_
  cases ch <;> simp only [answer, reduceCtorEq] at answered
  case go =>
    rw [h.closed] at answered
    obtain ⟨rfl, rfl⟩ := by simpa using answered
    exact ⟨.of_rows rfl rfl, Resting.begin h⟩
  case fail info =>
    split_ifs at answered with broken
    obtain ⟨rfl, rfl⟩ := by simpa using answered
    exact ⟨.of_rows rfl rfl, h⟩

theorem does_claim (excluded : List Key) :
    Does t (Local.opened s faults boot none queue none []) (await (.claim excluded))
      (fun events => Local.opened s faults boot none queue none events)
      (fun _ => aborting s faults boot) := by
  refine own_perform fun w h _ ch r w' answered => ?_
  cases ch <;> simp only [answer, reduceCtorEq] at answered
  case pick ids =>
    split_ifs at answered with result
    obtain ⟨rfl, rfl⟩ := by simpa using answered
    exact ⟨.of_rows rfl rfl, Open.claim h result.event⟩
  case fail info =>
    split_ifs at answered with broken
    obtain ⟨rfl, rfl⟩ := by simpa using answered
    exact ⟨.of_rows rfl rfl, ⟨_, none, _⟩, h, broken⟩

theorem does_rollback :
    Does t (aborting s faults boot) (await .rollback)
      (fun _ => Local.resting s faults boot []) (fun _ => Local.resting s faults boot []) := by
  refine Does.of_ex fun p => Does.of_fact fun broken => ?_
  subst broken
  refine own_perform fun w h _ ch r w' answered => ?_
  cases ch <;> simp only [answer, reduceCtorEq] at answered
  obtain ⟨rfl, rfl⟩ := by simpa using answered
  exact ⟨.of_rows rfl rfl, Open.rollback h⟩

theorem does_commit :
    Does t (Local.opened s faults boot none queue none []) (await .commit)
      (fun _ => Local.resting s faults boot queue) (fun _ => Local.resting s faults boot []) := by
  refine own_perform fun w h _ ch r w' answered => ?_
  cases ch <;> simp only [answer, reduceCtorEq] at answered
  case go =>
    obtain ⟨rfl, rfl⟩ := by simpa using answered
    exact ⟨⟨rfl, h.progress, .inl rfl⟩, Open.commit h⟩
  case fail info =>
    split_ifs at answered with broken
    subst broken
    obtain ⟨rfl, rfl⟩ := by simpa using answered
    exact ⟨.of_rows rfl rfl, Open.rollback h⟩

theorem does_claimAndDispatch :
    Does t (Local.resting s faults boot []) (claimAndDispatch s)
      (fun failures => Local.resting s faults boot (failedIds failures))
      (fun _ => Local.resting s faults boot []) := by
  refine Triple.bind does_beginTx fun _ => ?_
  refine Triple.bind (Triple.tryCatch (F := fun _ => owned t (aborting s faults boot)) ?_
    fun err => Triple.bind does_rollback fun _ => Does.failed fun _ h => h) fun failures =>
      Triple.bind does_commit fun _ => Does.done fun _ h => h
  exact Triple.bind does_orphanKeys fun excluded => Triple.bind (does_claim excluded) fun events =>
    does_dispatchRows events

end DeclutrMail.Outbox
