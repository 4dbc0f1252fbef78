import DeclutrMail.Outbox.Invariant

/-!
# What a tick has to bear with, and what it owes

While a tick is in flight the rest of the system can only do what `Background` lists:
events are published, calls settle, clocks and counters move. Everything a tick knows
between two of its steps is a `Local` assertion, kept by all of these.
-/

namespace DeclutrMail.Outbox

open Interleaving

variable {s : Settings} {faults : Bool} {boot : Table} {cur : Option CallId}
  {queue : List EventId} {late : Option (EventId × Outcome)} {todo : List DispatchedEvent}
  {w w' : World} {t : TickId}

inductive Background : World → World → Prop where
  | clock (w : World) (now : ℤ) : Background w { w with clock := now }
  | flags (w : World) (pending : ℕ) (stopping : Bool) :
      Background w { w with pendingTickCalls := pending, shuttingDown := stopping }
  | publish (w : World) (id : EventId) (topic aggregateId : String) (createdAt : ℤ) :
      w.rows id = none → Background w (w.setRow id (published topic aggregateId createdAt))
  | settle (w : World) (i : CallId) (c : Call) (st : Settlement) :
      w.calls[i]? = some c → c.settled = none → Background w (w.settle i c st)

theorem Background.inFlight (h : Background w w') : w'.inFlight = w.inFlight := by
  cases h <;> rfl

theorem Background.tx (h : Background w w') : w'.tx = w.tx := by
  cases h <;> rfl

/-! ## A call settles -/

theorem history_settle {calls : List Call} {i : CallId} {c : Call} (hi : calls[i]? = some c)
    (st : Settlement) (id : EventId) :
    history (calls.set i { c with settled := some st }) id = history calls id := by
  induction calls generalizing i with
  | nil => simp at hi
  | cons d calls ih =>
    cases i with
    | zero =>
      obtain rfl : d = c := by simpa using hi
      rfl
    | succ i =>
      have rest := ih (i := i) (by simpa using hi)
      simp only [history, List.set_cons_succ, List.filterMap_cons] at rest ⊢
      rw [rest]

theorem mem_settle {calls : List Call} {i : CallId} {c : Call} (hi : calls[i]? = some c)
    {st : Settlement} {d : Call} (hd : d ∈ calls) :
    ∃ d' ∈ calls.set i { c with settled := some st }, d'.event = d.event ∧ d'.seen = d.seen := by
  obtain ⟨j, hj⟩ := List.mem_iff_getElem?.mp hd
  by_cases same : i = j
  · subst same
    obtain rfl : c = d := Option.some.inj (hi.symm.trans hj)
    have bound : i < calls.length := (List.getElem?_eq_some_iff.mp hi).1
    exact ⟨_, List.mem_iff_getElem?.mpr ⟨i, List.getElem?_set_self bound⟩, rfl, rfl⟩
  · exact ⟨d, List.mem_iff_getElem?.mpr ⟨j, by rwa [List.getElem?_set_ne same]⟩, rfl, rfl⟩

/-- The entry of a settled call leaves the guard, and no other does. -/
theorem get_settle {i : CallId} {c : Call} {st : Settlement} {k : Key} {o : Orphan} :
    (w.settle i c st).orphanedEvents.get k = some o ↔
      w.orphanedEvents.get k = some o ∧ ¬ (k = c.key ∧ o.call = i) := by
  simp only [World.settle, Call.key]
  split_ifs with mine
  · obtain ⟨o', ho', called⟩ := (Option.any_eq_true _ _).mp mine
    rw [InsertionMap.get_delete]
    split_ifs with same
    · subst same
      refine ⟨(nomatch ·), fun ⟨ho, other⟩ => absurd ⟨rfl, ?_⟩ other⟩
      obtain rfl : o' = o := Option.some.inj (ho'.symm.trans ho)
      exact of_decide_eq_true called
    · simp [Ne.symm same]
  · constructor
    · intro there
      refine ⟨there, ?_⟩
      rintro ⟨rfl, called⟩
      exact mine (by simp [there, called])
    · exact fun h => h.1

theorem Tracked.settle {i : CallId} {c : Call} {st : Settlement}
    (h : Tracked cur w.calls w.orphanedEvents) (hi : w.calls[i]? = some c) :
    Tracked cur (w.settle i c st).calls (w.settle i c st).orphanedEvents := by
  constructor
  · intro j d hj unsettled
    by_cases same : i = j
    · subst same
      have bound : i < w.calls.length := (List.getElem?_eq_some_iff.mp hi).1
      simp only [World.settle, List.getElem?_set_self bound, Option.some.injEq] at hj
      subst hj
      cases unsettled
    · simp only [World.settle, List.getElem?_set_ne same] at hj
      refine (h.held hj unsettled).imp_right fun ⟨o, ho, called⟩ => ⟨o, ?_, called⟩
      exact get_settle.mpr ⟨ho, fun ⟨_, mine⟩ => same (mine.symm.trans called)⟩
  · intro j d awaited hj
    have old : ∃ d', w.calls[j]? = some d' ∧ d'.key = d.key := by
      by_cases same : i = j
      · subst same
        have bound : i < w.calls.length := (List.getElem?_eq_some_iff.mp hi).1
        simp only [World.settle, List.getElem?_set_self bound, Option.some.injEq] at hj
        exact ⟨c, hi, by rw [← hj]; rfl⟩
      · simp only [World.settle, List.getElem?_set_ne same] at hj
        exact ⟨d, hj, rfl⟩
    obtain ⟨d', hd', key⟩ := old
    refine Option.eq_none_iff_forall_ne_some.mpr fun o ho => ?_
    have before := (get_settle.mp ho).1
    rw [← key, h.clear awaited hd'] at before
    cases before

theorem Orphaned.settle {i : CallId} {c : Call} {st : Settlement}
    (h : Orphaned w.rows w.calls w.orphanedEvents) (hi : w.calls[i]? = some c) :
    Orphaned (w.settle i c st).rows (w.settle i c st).calls
      (w.settle i c st).orphanedEvents := by
  intro k o ho
  obtain ⟨row, unthrown⟩ := h (get_settle.mp ho).1
  refine ⟨row, ?_⟩
  simp only [World.settle, history_settle hi]
  exact unthrown

theorem failedReports_settle (i : CallId) (c : Call) (st : Settlement) (id : EventId) :
    failedReports (w.settle i c st).reports id = failedReports w.reports id := by
  unfold failedReports World.settle
  rw [List.countP_append]
  split <;> simp [Report.isEventFailed]

theorem Justified.settle {rows : Table} {i : CallId} {c : Call} {st : Settlement}
    (h : Justified boot rows w.calls) (hi : w.calls[i]? = some c) :
    Justified boot rows (w.settle i c st).calls := by
  intro id row there dispatched
  refine (h there dispatched).imp_right fun ⟨d, hd, event, seen⟩ => ?_
  obtain ⟨d', hd', event', seen'⟩ := mem_settle hi hd
  exact ⟨d', hd', by rw [event', event], by rw [seen', seen]⟩

theorem Accounted.settle {rows : Table} {i : CallId} {c : Call} {st : Settlement}
    (h : Accounted boot queue rows w.reports) :
    Accounted boot queue rows (w.settle i c st).reports := by
  intro id
  rw [failedReports_settle]
  exact h id

theorem Booked.settle {rows : Table} {i : CallId} {c : Call} {st : Settlement}
    (h : Booked s.maxAttempts boot late rows w.calls) (hi : w.calls[i]? = some c) :
    Booked s.maxAttempts boot late rows (w.settle i c st).calls := by
  intro id fresh
  have before := h id fresh
  simp only [World.settle, history_settle hi]
  exact before

theorem Ledger.settle {rows : Table} {i : CallId} {c : Call} {st : Settlement}
    (h : Ledger s faults boot queue late rows w.calls w.reports) (hi : w.calls[i]? = some c) :
    Ledger s faults boot queue late rows (w.settle i c st).calls (w.settle i c st).reports :=
  ⟨h.accounted.settle, h.justified.settle hi, fun reliable => (h.booked reliable).settle hi⟩

/-! ## A row is published -/

theorem isFailed_publish {rows : Table} {id : EventId} {row : OutboxEvent}
    (absent : rows id = none) (pending : row.status = .pending) (id' : EventId) :
    isFailed (Function.update rows id (some row) id') = isFailed (rows id') := by
  by_cases same : id' = id
  · subst same
    simp [isFailed, absent, pending]
  · simp [same]

theorem Accounted.publish {rows : Table} {reports : List Report} {id : EventId}
    {row : OutboxEvent} (h : Accounted boot queue rows reports) (absent : rows id = none)
    (pending : row.status = .pending) :
    Accounted boot queue (Function.update rows id (some row)) reports := by
  intro id'
  rw [h id']
  have same : NewlyFailed boot (Function.update rows id (some row)) id' ↔
      NewlyFailed boot rows id' := by
    simp only [NewlyFailed, isFailed_publish absent pending]
  exact if_congr same.symm rfl rfl

theorem Justified.publish {rows : Table} {calls : List Call} {id : EventId} {row : OutboxEvent}
    (h : Justified boot rows calls) (pending : row.status = .pending) :
    Justified boot (Function.update rows id (some row)) calls := by
  intro id' r there dispatched
  by_cases same : id' = id
  · subst same
    obtain rfl : row = r := by simpa using there
    rw [pending] at dispatched
    cases dispatched
  · exact h (by simpa [same] using there) dispatched

theorem Orphaned.publish {rows : Table} {calls : List Call} {orphans : InsertionMap Key Orphan}
    {id : EventId} {row : OutboxEvent} (h : Orphaned rows calls orphans)
    (absent : rows id = none) : Orphaned (Function.update rows id (some row)) calls orphans := by
  intro k o ho
  obtain ⟨⟨r, hr, key⟩, unthrown⟩ := h ho
  have other : o.eventId ≠ id := by
    rintro rfl
    rw [absent] at hr
    cases hr
  exact ⟨⟨r, by simpa [other] using hr, key⟩, unthrown⟩

theorem Booked.publish {maxAttempts : ℕ} {rows : Table} {calls : List Call} {id : EventId}
    {topic aggregateId : String} {createdAt : ℤ} (h : Booked maxAttempts boot late rows calls)
    (absent : rows id = none) (onTime : lateFor late id = []) :
    Booked maxAttempts boot late
      (Function.update rows id (some (published topic aggregateId createdAt))) calls := by
  intro id' fresh
  have before := h id' fresh
  by_cases same : id' = id
  · subst same
    rw [absent] at before
    simp only [Function.update_self]
    refine ⟨[], by simp [before, onTime], rfl, by simp, fun p q split => ?_⟩
    simp at split
  · simpa [same] using before

theorem Ledger.publish {rows : Table} {calls : List Call} {reports : List Report} {id : EventId}
    {topic aggregateId : String} {createdAt : ℤ}
    (h : Ledger s faults boot queue late rows calls reports) (absent : rows id = none)
    (onTime : lateFor late id = []) :
    Ledger s faults boot queue late
      (Function.update rows id (some (published topic aggregateId createdAt))) calls reports :=
  ⟨h.accounted.publish absent rfl, h.justified.publish rfl,
    fun reliable => (h.booked reliable).publish absent onTime⟩

theorem Claimed.publish {rows : Table} {id : EventId} {row : OutboxEvent}
    (h : Claimed todo rows) (absent : rows id = none) :
    Claimed todo (Function.update rows id (some row)) := by
  refine ⟨h.nodup, fun he => ?_⟩
  obtain ⟨r, hr, rest⟩ := h.pending he
  refine ⟨r, ?_, rest⟩
  rw [Function.update_of_ne ?_, hr]
  intro same
  rw [same, absent] at hr
  cases hr

theorem Progress.publish {rows : Table} {id : EventId} {row : OutboxEvent}
    (absent : rows id = none) : Progress rows (Function.update rows id (some row)) :=
  .update fun r hr => by simp [absent] at hr

theorem view_of_tx {x : Tx} (h : w.tx = some x) (id : EventId) :
    w.view id = (x.written id).or (w.rows id) := by
  simp [World.view, h]

theorem view_of_closed (h : w.tx = none) : w.view = w.rows := by
  funext id
  simp [World.view, h]

/-- A published row is seen inside the open transaction, which has not written it. -/
theorem view_setRow {id : EventId} (row : OutboxEvent) (absent : w.view id = none) :
    (w.setRow id row).view = Function.update w.view id (some row) := by
  funext id'
  rcases h : w.tx with _ | x
  · rw [view_of_closed h, view_of_closed (by simpa [World.setRow] using h)]
    rfl
  · rw [view_of_tx (x := x) (by simpa [World.setRow] using h)]
    by_cases same : id' = id
    · subst same
      rw [view_of_tx h] at absent
      simp [World.setRow, (Option.or_eq_none_iff.mp absent).1]
    · simp [World.setRow, same, view_of_tx h]

theorem Open.lateFor_absent (h : Open s faults boot cur queue late todo w) {id : EventId}
    (absent : w.view id = none) : lateFor late id = [] := by
  rcases late with _ | ⟨id', o⟩
  · rfl
  · by_cases same : id' = id
    · subst same
      obtain ⟨e, he, rfl⟩ := h.lateHead rfl
      obtain ⟨r, hr, -⟩ := h.claimed.pending (List.mem_of_mem_head? he)
      rw [absent] at hr
      cases hr
    · simp [lateFor, same]

/-! ## Assertions of a tick -/

theorem Resting.background (h : Resting s faults boot queue w) (b : Background w w') :
    Resting s faults boot queue w' := by
  cases b with
  | clock | flags => exact { h with }
  | publish id topic aggregateId createdAt absent =>
    exact ⟨h.closed, h.tracked, h.orphaned.publish absent,
      h.ledger.publish absent (lateFor_none id)⟩
  | settle i c st hi unsettled =>
    exact ⟨h.closed, h.tracked.settle hi, h.orphaned.settle hi, h.ledger.settle hi⟩

theorem Open.background (h : Open s faults boot cur queue late todo w) (b : Background w w') :
    Open s faults boot cur queue late todo w' := by
  cases b with
  | clock | flags => exact { h with }
  | publish id topic aggregateId createdAt absent =>
    have unseen := h.invented absent
    have view := view_setRow (published topic aggregateId createdAt) unseen
    refine ⟨h.opened, h.tracked, h.orphaned.publish absent, h.accounted.publish absent rfl,
      h.justified.publish rfl, ?_, ?_, ?_, ?_, h.lateHead⟩
    · rw [view]
      intro id' r there
      by_cases same : id' = id
      · subst same
        exact ⟨r, by simpa [World.setRow] using there, .refl r⟩
      · simpa [same] using h.progress (by simpa [World.setRow, same] using there)
    · rw [view]
      intro id' there
      by_cases same : id' = id
      · subst same
        simp [World.setRow] at there
      · simpa [same] using h.invented (by simpa [World.setRow, same] using there)
    · rw [view]
      exact h.ledger.publish unseen (h.lateFor_absent unseen)
    · rw [view]
      exact h.claimed.publish unseen
  | settle i c st hi unsettled =>
    exact ⟨h.opened, h.tracked.settle hi, h.orphaned.settle hi, h.accounted.settle,
      h.justified.settle hi, h.progress, h.invented, h.ledger.settle hi, h.claimed, h.lateHead⟩

/-- What a tick in flight knows: the rest of the system keeps it, and it is enough for the
invariant. -/
structure Local (s : Settings) (faults : Bool) (boot : Table) extends Assertion Background where
  inv {w : World} {t : TickId} : holds w → w.inFlight = some t → Progress boot w.rows →
    Inv s faults boot w

namespace Local

instance : CoeFun (Local s faults boot) (fun _ => World → Prop) := ⟨fun P => P.holds⟩

variable (s faults boot) in
def resting (queue : List EventId) : Local s faults boot where
  holds := Resting s faults boot queue
  stable := fun _ _ h b => h.background b
  inv := fun h busy progress => h.inv progress (by simp [busy])

variable (s faults boot) in
def opened (cur : Option CallId) (queue : List EventId) (late : Option (EventId × Outcome))
    (todo : List DispatchedEvent) : Local s faults boot where
  holds := Open s faults boot cur queue late todo
  stable := fun _ _ h b => h.background b
  inv := fun h busy progress => h.inv progress busy

def also (P : Local s faults boot) (A : Assertion Background) : Local s faults boot where
  toAssertion := P.toAssertion.and A
  inv := fun h => P.inv h.1

def ex {ι : Type} (P : ι → Local s faults boot) : Local s faults boot where
  toAssertion := .ex fun i => (P i).toAssertion
  inv := fun ⟨i, h⟩ => (P i).inv h

end Local

/-- What an invocation of `tick` may do while another one is in flight, or none. -/
def Aside (t : TickId) (w w' : World) : Prop :=
  (∃ n, w' = { w with pendingTickCalls := n }) ∨
    (w.inFlight = none ∧ w' = { w with inFlight := some t })

structure Guarantee (s : Settings) (faults : Bool) (boot : Table) (t : TickId) (w w' : World) :
    Prop where
  inv : Inv s faults boot w'
  progress : Progress w.rows w'.rows
  reporting : w'.reports = w.reports ∨ w'.rows = w.rows
  mine : w.inFlight = some t → w'.inFlight = some t ∨ w'.inFlight = none
  others : w.inFlight ≠ some t → Aside t w w'

structure Rely (s : Settings) (faults : Bool) (boot : Table) (t : TickId) (w w' : World) :
    Prop where
  inv : Inv s faults boot w'
  mine : w.inFlight = some t → Background w w'
  others : w.inFlight ≠ some t → w'.inFlight ≠ some t

theorem Guarantee.rely {t' : TickId} (h : Guarantee s faults boot t w w') (ne : t ≠ t') :
    Rely s faults boot t' w w' := by
  have aside : w.inFlight = some t' → Aside t w w' := fun busy =>
    h.others (by rw [busy]; exact fun same => ne (Option.some.inj same).symm)
  refine ⟨h.inv, fun busy => ?_, fun free => ?_⟩
  · rcases aside busy with ⟨n, rfl⟩ | ⟨idle, -⟩
    · exact .flags w n w.shuttingDown
    · rw [busy] at idle
      cases idle
  · by_cases mine : w.inFlight = some t
    · rcases h.mine mine with kept | left
      · rw [kept]
        exact fun same => ne (Option.some.inj same)
      · simp [left]
    · rcases h.others mine with ⟨n, rfl⟩ | ⟨-, rfl⟩
      · exact free
      · exact fun same => ne (Option.some.inj same)

/-- What tick `t` knows while it is in flight. -/
def owned (t : TickId) (P : Local s faults boot) : Assertion (Rely s faults boot t) where
  holds := fun w => Inv s faults boot w ∧ w.inFlight = some t ∧ P w
  stable := fun _ _ ⟨_, busy, h⟩ r =>
    ⟨r.inv, (r.mine busy).inFlight.trans busy, P.stable h (r.mine busy)⟩

/-- What an invocation of `tick` knows while it is not in flight. -/
def outside (s : Settings) (faults : Bool) (boot : Table) (t : TickId) :
    Assertion (Rely s faults boot t) where
  holds := fun w => Inv s faults boot w ∧ w.inFlight ≠ some t
  stable := fun _ _ ⟨_, free⟩ r => ⟨r.inv, r.others free⟩

/-- The frame of a request: whose turn it is stays, rows progress, and no report is made
in the step that changes a row. -/
structure Frame (w w' : World) : Prop where
  inFlight : w'.inFlight = w.inFlight
  progress : Progress w.rows w'.rows
  reporting : w'.reports = w.reports ∨ w'.rows = w.rows

theorem Frame.of_rows (inFlight : w'.inFlight = w.inFlight) (rows : w'.rows = w.rows) :
    Frame w w' := ⟨inFlight, rows ▸ .refl _, .inr rows⟩

/-- A part of the tick in flight. -/
abbrev Does (t : TickId) {α : Type} (P : Local s faults boot) (p : Program Sig α)
    (B : α → Local s faults boot) (E : TickError → Local s faults boot) : Prop :=
  Triple (M := dispatcher s faults) (Guarantee s faults boot) (owned t P) p
    (fun a => owned t (B a)) (fun e => owned t (E e))

theorem owned_mono {P P' : Local s faults boot} (h : ∀ w, P w → P' w) (w : World)
    (hw : owned t P w) : owned t P' w := ⟨hw.1, hw.2.1, h w hw.2.2⟩

theorem Does.of_ex {α ι : Type} {P : ι → Local s faults boot} {p : Program Sig α}
    {B : α → Local s faults boot} {E : TickError → Local s faults boot}
    (h : ∀ i, Does t (P i) p B E) : Does t (.ex P) p B E :=
  fun w ⟨inv, busy, i, hw⟩ => h i w ⟨inv, busy, hw⟩

/-- A fact among the assumptions may be used. -/
theorem Does.of_fact {α : Type} {P : Local s faults boot} {φ : Prop} {p : Program Sig α}
    {B : α → Local s faults boot} {E : TickError → Local s faults boot}
    (h : φ → Does t P p B E) : Does t (P.also (.fact φ)) p B E :=
  fun w ⟨inv, busy, hw, fact⟩ => h fact w ⟨inv, busy, hw⟩

theorem Does.pre {α : Type} {P P' : Local s faults boot} {p : Program Sig α}
    {B : α → Local s faults boot} {E : TickError → Local s faults boot} (h : Does t P' p B E)
    (le : ∀ w, P w → P' w) : Does t P p B E := Triple.pre h (owned_mono le)

theorem Does.fails {α : Type} {P : Local s faults boot} {p : Program Sig α}
    {B : α → Local s faults boot} {E E' : TickError → Local s faults boot} (h : Does t P p B E')
    (le : ∀ e w, E' e w → E e w) : Does t P p B E :=
  Triple.consequence h (fun _ h => h) (fun _ _ h => h) fun e => owned_mono (le e)

theorem Does.done {α : Type} {P : Local s faults boot} {a : α} {B : α → Local s faults boot}
    {E : TickError → Local s faults boot} (le : ∀ w, P w → B a w) :
    Does t P (.ret a) B E := Triple.done (owned_mono le)

theorem Does.failed {α : Type} {P : Local s faults boot} {e : TickError}
    {B : α → Local s faults boot} {E : TickError → Local s faults boot}
    (le : ∀ w, P w → E e w) : Does t P (.raise e) B E := Triple.failed (owned_mono le)

/-- One request of the tick in flight. -/
theorem own_perform {q : Request} {P : Local s faults boot} {B : q.Answer → Local s faults boot}
    {E : TickError → Local s faults boot}
    (h : ∀ w, P w → Progress boot w.rows → ∀ ch r w',
      answer s faults t q ch w = some (r, w') → Frame w w' ∧
        match r with
        | .ok a => B a w'
        | .error e => E e w') :
    Does t P (await q) B E := by
  refine Triple.perform fun w ⟨inv, busy, hw⟩ ch r w' answered => ?_
  obtain ⟨frame, owed⟩ := h w hw inv.progress ch r w' answered
  have busy' : w'.inFlight = some t := frame.inFlight.trans busy
  have progress : Progress boot w'.rows := inv.progress.trans frame.progress
  have inv' : Inv s faults boot w' := by
    cases r with
    | ok a => exact (B a).inv owed busy' progress
    | error e => exact (E e).inv owed busy' progress
  refine ⟨⟨inv', frame.progress, frame.reporting, fun _ => .inl busy', fun free => absurd busy free⟩,
    ?_⟩
  cases r with
  | ok a => exact ⟨inv', busy', owed⟩
  | error e => exact ⟨inv', busy', owed⟩

end DeclutrMail.Outbox
