import Mathlib.Algebra.Order.Group.Nat
import DeclutrMail.Outbox.Dispatcher

/-!
# What holds of a dispatcher between two of its steps

Four facts are kept, each about its own part of the world.

* `Tracked`: a call that has not settled is the one being awaited, or the one recorded
  for its key in the orphan guard.
* `Accounted`: a row that this process failed has been reported once, or is queued for it.
* `Justified`: a row that this process dispatched had a call that resolved in time.
* `Booked`: a row agrees with the outcomes of its calls. This one is about a database
  whose statements do not fail; a rolled back transaction forgets outcomes.

Each is stated of a table, so that it can be said of the committed rows and of the rows
as the open transaction sees them.
-/

namespace DeclutrMail.Outbox

open Interleaving

def Call.key (c : Call) : Key := orphanGuardKey c.event

/-- What the dispatcher was told about the calls for one event, in order. -/
def history (calls : List Call) (id : EventId) : List Outcome :=
  calls.filterMap fun c => if c.event.id = id then c.seen else none

/-! ## Calls and the orphan guard -/

structure Tracked (cur : Option CallId) (calls : List Call)
    (orphans : InsertionMap Key Orphan) : Prop where
  held {i : CallId} {c : Call} : calls[i]? = some c → c.settled = none →
    cur = some i ∨ ∃ o, orphans.get c.key = some o ∧ o.call = i
  clear {i : CallId} {c : Call} : cur = some i → calls[i]? = some c → orphans.get c.key = none

/-- At most one unsettled call for each key. -/
def Single (calls : List Call) : Prop :=
  ∀ ⦃i j : CallId⦄ ⦃c d : Call⦄, calls[i]? = some c → calls[j]? = some d →
    c.settled = none → d.settled = none → c.key = d.key → i = j

theorem Tracked.single {cur : Option CallId} {calls : List Call}
    {orphans : InsertionMap Key Orphan} (h : Tracked cur calls orphans) : Single calls := by
  intro i j c d hi hj ci dj same
  rcases h.held hi ci with hc | ⟨o, ho, rfl⟩
  · rcases h.held hj dj with hd | ⟨o', ho', -⟩
    · exact Option.some.inj (hc.symm.trans hd)
    · rw [← same, h.clear hc hi] at ho'
      cases ho'
  · rcases h.held hj dj with hd | ⟨o', ho', rfl⟩
    · rw [same, h.clear hd hj] at ho
      cases ho
    · rw [same, ho'] at ho
      cases ho
      rfl

/-- An entry of the guard belongs to a row of its key that no consumer threw on last. -/
def Orphaned (rows : Table) (calls : List Call) (orphans : InsertionMap Key Orphan) : Prop :=
  ∀ ⦃k : Key⦄ ⦃o : Orphan⦄, orphans.get k = some o →
    (∃ row, rows o.eventId = some row ∧ row.key = k) ∧
      (history calls o.eventId).getLast? ≠ some .threw

/-! ## Rows -/

/-- What may become of a row: once it is not pending it stays as it is. -/
structure Evolves (r r' : OutboxEvent) : Prop where
  key : r'.key = r.key
  attempts : r.attempts ≤ r'.attempts
  absorbing : r.status = .pending ∨ r' = r

theorem Evolves.refl (r : OutboxEvent) : Evolves r r := ⟨rfl, le_rfl, .inr rfl⟩

theorem Evolves.trans {a b c : OutboxEvent} (h : Evolves a b) (g : Evolves b c) :
    Evolves a c := by
  refine ⟨g.key.trans h.key, h.attempts.trans g.attempts, ?_⟩
  rcases h.absorbing with pending | rfl
  · exact .inl pending
  · exact g.absorbing

def Progress (old new : Table) : Prop :=
  ∀ ⦃id : EventId⦄ ⦃r : OutboxEvent⦄, old id = some r → ∃ r', new id = some r' ∧ Evolves r r'

theorem Progress.refl (rows : Table) : Progress rows rows := fun _ r h => ⟨r, h, .refl r⟩

theorem Progress.trans {a b c : Table} (h : Progress a b) (g : Progress b c) : Progress a c := by
  intro id r hr
  obtain ⟨r', hr', first⟩ := h hr
  obtain ⟨r'', hr'', second⟩ := g hr'
  exact ⟨r'', hr'', first.trans second⟩

theorem Progress.update {rows : Table} {id : EventId} {row : OutboxEvent}
    (h : ∀ r, rows id = some r → Evolves r row) :
    Progress rows (Function.update rows id (some row)) := by
  intro id' r hr
  by_cases same : id' = id
  · subst same
    exact ⟨row, by simp, h r hr⟩
  · exact ⟨r, by simpa [same] using hr, .refl r⟩

def isFailed (row : Option OutboxEvent) : Bool := row.any (·.status = .failed)

/-- Failed by this process, which found the table `boot`. -/
def NewlyFailed (boot rows : Table) (id : EventId) : Prop :=
  isFailed (rows id) = true ∧ isFailed (boot id) = false

instance (boot rows : Table) (id : EventId) : Decidable (NewlyFailed boot rows id) :=
  inferInstanceAs (Decidable (_ ∧ _))

def Report.isEventFailed (id : EventId) : Report → Bool
  | .eventFailed _ id' => id' = id
  | _ => false

/-- How often `outbox.dispatch.event_failed` was reported for an event. -/
def failedReports (reports : List Report) (id : EventId) : ℕ :=
  reports.countP (Report.isEventFailed id)

/-- Reports made and queued add up to one for each newly failed row. -/
def Accounted (boot : Table) (queue : List EventId) (rows : Table) (reports : List Report) : Prop :=
  ∀ id, queue.count id + failedReports reports id = if NewlyFailed boot rows id then 1 else 0

def Justified (boot rows : Table) (calls : List Call) : Prop :=
  ∀ ⦃id : EventId⦄ ⦃row : OutboxEvent⦄, rows id = some row → row.status = .dispatched →
    (∃ r, boot id = some r ∧ r.status = .dispatched) ∨
      ∃ c ∈ calls, c.event.id = id ∧ c.seen = some .resolved

/-- Every throw of the history left the row pending. -/
def Spared (maxAttempts : ℕ) (h : List Outcome) : Prop :=
  ∀ p q, h = p ++ .threw :: q → p.length + 1 < maxAttempts

/-- The history of a row that its last outcome, a throw, has failed. -/
structure Exhausted (maxAttempts : ℕ) (p : List Outcome) : Prop where
  reached : maxAttempts ≤ p.length + 1
  unresolved : .resolved ∉ p
  spared : Spared maxAttempts p

/-- A row agrees with the outcomes of its calls. -/
def Recorded (maxAttempts : ℕ) (h : List Outcome) (row : OutboxEvent) : Prop :=
  match row.status with
  | .pending => row.attempts = h.length ∧ .resolved ∉ h ∧ Spared maxAttempts h
  | .failed => ∀ p, h = p ++ [.threw] → Exhausted maxAttempts p
  | .dispatched => True

/-- An event whose whole history is in this process. -/
def Fresh (boot : Table) (id : EventId) : Prop :=
  ∀ r, boot id = some r → r.status = .pending ∧ r.attempts = 0

/-- The outcome, if any, that is not in its row yet. -/
def lateFor (late : Option (EventId × Outcome)) (id : EventId) : List Outcome :=
  match late with
  | some (id', o) => if id' = id then [o] else []
  | none => []

def Booked (maxAttempts : ℕ) (boot : Table) (late : Option (EventId × Outcome)) (rows : Table)
    (calls : List Call) : Prop :=
  ∀ id, Fresh boot id →
    match rows id with
    | none => history calls id = []
    | some row => ∃ h, history calls id = h ++ lateFor late id ∧ Recorded maxAttempts h row

/-! ## The world -/

/-- The part of the invariant that is about one table. -/
structure Ledger (s : Settings) (faults : Bool) (boot : Table) (queue : List EventId)
    (late : Option (EventId × Outcome)) (rows : Table) (calls : List Call)
    (reports : List Report) : Prop where
  accounted : Accounted boot queue rows reports
  justified : Justified boot rows calls
  booked : faults = false → Booked s.maxAttempts boot late rows calls

/-- No transaction is open and no call is awaited. -/
structure Resting (s : Settings) (faults : Bool) (boot : Table) (queue : List EventId)
    (w : World) : Prop where
  closed : w.tx = none
  tracked : Tracked none w.calls w.orphanedEvents
  orphaned : Orphaned w.rows w.calls w.orphanedEvents
  ledger : Ledger s faults boot queue none w.rows w.calls w.reports

/-- Rows that the open transaction has claimed and not yet written. -/
structure Claimed (events : List DispatchedEvent) (rows : Table) : Prop where
  nodup : (events.map (·.id)).Nodup
  pending {e : DispatchedEvent} : e ∈ events → ∃ row, rows e.id = some row ∧
    row.status = .pending ∧ row.attempts = e.attempts ∧ row.key = orphanGuardKey e

/-- A transaction is open. `todo` is still to be dispatched, its head perhaps under way
with call `cur`, and `late` is the outcome of the head that is not in its row yet. -/
structure Open (s : Settings) (faults : Bool) (boot : Table) (cur : Option CallId)
    (queue : List EventId) (late : Option (EventId × Outcome)) (todo : List DispatchedEvent)
    (w : World) : Prop where
  opened : w.tx.isSome = true
  tracked : Tracked cur w.calls w.orphanedEvents
  orphaned : Orphaned w.rows w.calls w.orphanedEvents
  accounted : Accounted boot [] w.rows w.reports
  justified : Justified boot w.rows w.calls
  progress : Progress w.rows w.view
  invented {id : EventId} : w.rows id = none → w.view id = none
  ledger : Ledger s faults boot queue late w.view w.calls w.reports
  claimed : Claimed todo w.view
  lateHead {id : EventId} {o : Outcome} : late = some (id, o) →
    ∃ e, todo.head? = some e ∧ e.id = id

/-- What holds in every reachable world. -/
structure Inv (s : Settings) (faults : Bool) (boot : Table) (w : World) : Prop where
  single : Single w.calls
  progress : Progress boot w.rows
  reported (id : EventId) :
    failedReports w.reports id ≤ if NewlyFailed boot w.rows id then 1 else 0
  justified : Justified boot w.rows w.calls
  flipped {id : EventId} {row : OutboxEvent} : faults = false → Fresh boot id →
    w.rows id = some row → row.status = .failed →
      Recorded s.maxAttempts (history w.calls id) row
  idle : w.inFlight = none → Resting s faults boot [] w

variable {s : Settings} {faults : Bool} {boot : Table} {cur : Option CallId}
  {queue : List EventId} {late : Option (EventId × Outcome)} {todo : List DispatchedEvent}
  {w : World} {t : TickId}

theorem Accounted.le {rows : Table} {reports : List Report}
    (h : Accounted boot queue rows reports) (id : EventId) :
    failedReports reports id ≤ if NewlyFailed boot rows id then 1 else 0 := by
  rw [← h id]
  exact Nat.le_add_left _ _

theorem lateFor_none (id : EventId) : lateFor none id = [] := rfl

theorem Resting.inv (h : Resting s faults boot queue w) (progress : Progress boot w.rows)
    (busy : w.inFlight = none → queue = []) : Inv s faults boot w where
  single := h.tracked.single
  progress := progress
  reported := h.ledger.accounted.le
  justified := h.ledger.justified
  flipped := by
    intro id row reliable fresh there failed
    have booked := h.ledger.booked reliable id fresh
    rw [there] at booked
    obtain ⟨p, hp, recorded⟩ := booked
    rw [lateFor_none, List.append_nil] at hp
    exact hp ▸ recorded
  idle := fun free => busy free ▸ h

theorem Open.inv (h : Open s faults boot cur queue late todo w)
    (progress : Progress boot w.rows) (owner : w.inFlight = some t) : Inv s faults boot w where
  single := h.tracked.single
  progress := progress
  reported := h.accounted.le
  justified := h.justified
  flipped := by
    intro id row reliable fresh there failed
    obtain ⟨row', seen, evolves⟩ := h.progress there
    obtain rfl : row' = row := by
      rcases evolves.absorbing with pending | same
      · rw [failed] at pending
        cases pending
      · exact same
    have booked := h.ledger.booked reliable id fresh
    rw [seen] at booked
    obtain ⟨p, hp, recorded⟩ := booked
    have settled : lateFor late id = [] := by
      rcases late with _ | ⟨id', o⟩
      · rfl
      · by_cases same : id' = id
        · subst same
          obtain ⟨e, he, rfl⟩ := h.lateHead rfl
          obtain ⟨r, hr, pending, -⟩ := h.claimed.pending (List.mem_of_mem_head? he)
          rw [seen] at hr
          cases hr
          rw [failed] at pending
          cases pending
        · simp [lateFor, same]
    rw [settled, List.append_nil] at hp
    exact hp ▸ recorded
  idle := by simp [owner]

end DeclutrMail.Outbox
