import DeclutrMail.Outbox.Interference

/-!
# The effect of a tick's requests on what it knows

One lemma for each request that changes a part of the world the assertions speak of. The
others are covered by `Open.congr` and `Resting.congr`.
-/

namespace DeclutrMail.Outbox

open Interleaving

variable {s : Settings} {faults : Bool} {boot : Table} {cur : Option CallId}
  {queue : List EventId} {late : Option (EventId × Outcome)} {todo rest : List DispatchedEvent}
  {w w' : World} {t : TickId} {e : DispatchedEvent} {i : CallId}

theorem Open.congr (h : Open s faults boot cur queue late todo w) (opened : w'.tx.isSome = true)
    (rows : w'.rows = w.rows) (view : w'.view = w.view) (calls : w'.calls = w.calls)
    (orphans : w'.orphanedEvents = w.orphanedEvents) (reports : w'.reports = w.reports) :
    Open s faults boot cur queue late todo w' where
  opened := opened
  tracked := by rw [calls, orphans]; exact h.tracked
  orphaned := by rw [rows, calls, orphans]; exact h.orphaned
  accounted := by rw [rows, reports]; exact h.accounted
  justified := by rw [rows, calls]; exact h.justified
  progress := by rw [rows, view]; exact h.progress
  invented := by rw [rows, view]; exact h.invented
  ledger := by rw [view, calls, reports]; exact h.ledger
  claimed := by rw [view]; exact h.claimed
  lateHead := h.lateHead

theorem of_getElem?_concat {α : Type} {l : List α} {a b : α} {j : ℕ}
    (h : (l ++ [a])[j]? = some b) : l[j]? = some b ∨ j = l.length ∧ b = a := by
  rcases Nat.lt_or_ge j l.length with old | new
  · rw [List.getElem?_append_left old] at h
    exact .inl h
  · have bound := (List.getElem?_eq_some_iff.mp h).1
    simp only [List.length_append, List.length_cons, List.length_nil] at bound
    obtain rfl : j = l.length := by omega
    rw [List.getElem?_concat_length] at h
    exact .inr ⟨rfl, (Option.some.inj h).symm⟩

/-! ## Starting a call -/

theorem history_start (calls : List Call) (e : DispatchedEvent) (id : EventId) :
    history (calls ++ [⟨e, none, none⟩]) id = history calls id := by
  simp [history]

theorem Tracked.start {calls : List Call} {orphans : InsertionMap Key Orphan}
    (h : Tracked none calls orphans) (free : orphans.get (orphanGuardKey e) = none) :
    Tracked (some calls.length) (calls ++ [⟨e, none, none⟩]) orphans := by
  constructor
  · intro j d hj unsettled
    rcases of_getElem?_concat hj with old | ⟨rfl, -⟩
    · exact .inr ((h.held old unsettled).resolve_left (by simp))
    · exact .inl rfl
  · intro j d same hj
    obtain rfl : calls.length = j := Option.some.inj same
    rw [List.getElem?_concat_length] at hj
    cases hj
    exact free

theorem Justified.append {rows : Table} {calls more : List Call} (h : Justified boot rows calls) :
    Justified boot rows (calls ++ more) := by
  intro id row there dispatched
  exact (h there dispatched).imp_right fun ⟨c, hc, rest⟩ =>
    ⟨c, List.mem_append_left _ hc, rest⟩

theorem Booked.start {maxAttempts : ℕ} {rows : Table} {calls : List Call}
    (h : Booked maxAttempts boot late rows calls) :
    Booked maxAttempts boot late rows (calls ++ [⟨e, none, none⟩]) := by
  intro id fresh
  rw [history_start]
  exact h id fresh

theorem Ledger.start {rows : Table} {calls : List Call} {reports : List Report}
    (h : Ledger s faults boot queue late rows calls reports) :
    Ledger s faults boot queue late rows (calls ++ [⟨e, none, none⟩]) reports :=
  ⟨h.accounted, h.justified.append, fun reliable => (h.booked reliable).start⟩

theorem Open.start (h : Open s faults boot none queue late todo w)
    (free : w.orphanedEvents.get (orphanGuardKey e) = none) :
    Open s faults boot (some w.calls.length) queue late todo
      { w with calls := w.calls ++ [⟨e, none, none⟩] } := by
  refine { h with
    tracked := h.tracked.start free
    orphaned := fun k o ho => ?_
    justified := h.justified.append
    ledger := h.ledger.start }
  rw [history_start]
  exact h.orphaned ho

/-! ## Hearing of a call -/

/-- Call `i` is the last one, was made for `e`, and the dispatcher still waits for it. -/
def awaiting (e : DispatchedEvent) (i : CallId) : Assertion Background where
  holds := fun w => ∃ prev st, w.calls = prev ++ [⟨e, st, none⟩] ∧ prev.length = i
  stable := by
    rintro w w' ⟨prev, st, calls, rfl⟩ b
    cases b with
    | clock | flags | publish => exact ⟨prev, st, calls, rfl⟩
    | settle j c st' hj unsettled =>
      rw [calls] at hj
      rcases of_getElem?_concat hj with old | ⟨rfl, rfl⟩
      · refine ⟨prev.set j { c with settled := some st' }, st, ?_, by simp⟩
        simp only [World.settle, calls]
        exact List.set_append_left j _ (List.getElem?_eq_some_iff.mp old).1
      · refine ⟨prev, some st', ?_, rfl⟩
        simp only [World.settle, calls]
        simp

theorem history_see (prev : List Call) (e : DispatchedEvent) (st : Option Settlement)
    (o : Outcome) (id : EventId) :
    history (prev ++ [⟨e, st, some o⟩]) id =
      history (prev ++ [⟨e, st, none⟩]) id ++ lateFor (some (e.id, o)) id := by
  by_cases same : e.id = id <;> simp [history, lateFor, same]

theorem Tracked.see {prev : List Call} {st : Option Settlement} {o : Outcome}
    {orphans : InsertionMap Key Orphan} (h : Tracked cur (prev ++ [⟨e, st, none⟩]) orphans) :
    Tracked cur (prev ++ [⟨e, st, some o⟩]) orphans := by
  have same : ∀ {j : CallId} {d : Call}, (prev ++ [⟨e, st, some o⟩])[j]? = some d →
      ∃ d', (prev ++ [⟨e, st, none⟩])[j]? = some d' ∧ d'.event = d.event ∧
        d'.settled = d.settled := by
    intro j d hj
    rcases of_getElem?_concat hj with old | ⟨rfl, rfl⟩
    · have bound := (List.getElem?_eq_some_iff.mp old).1
      exact ⟨d, by rw [List.getElem?_append_left bound]; exact old, rfl, rfl⟩
    · exact ⟨⟨e, st, none⟩, List.getElem?_concat_length, rfl, rfl⟩
  constructor
  · intro j d hj unsettled
    obtain ⟨d', hj', event, settled⟩ := same hj
    have := h.held hj' (settled.trans unsettled)
    rwa [Call.key, event] at this
  · intro j d awaited hj
    obtain ⟨d', hj', event, -⟩ := same hj
    have := h.clear awaited hj'
    rwa [Call.key, event] at this

/-- A settled call needs no watching. -/
theorem Tracked.dismiss {calls : List Call} {orphans : InsertionMap Key Orphan}
    (h : Tracked (some i) calls orphans)
    (settled : ∀ c, calls[i]? = some c → c.settled ≠ none) : Tracked none calls orphans := by
  constructor
  · intro j d hj unsettled
    refine .inr ((h.held hj unsettled).resolve_left fun same => ?_)
    obtain rfl : i = j := Option.some.inj same
    exact settled d hj unsettled
  · intro j d same
    cases same

theorem Justified.see {rows : Table} {prev : List Call} {st : Option Settlement} {o : Outcome}
    (h : Justified boot rows (prev ++ [⟨e, st, none⟩])) :
    Justified boot rows (prev ++ [⟨e, st, some o⟩]) := by
  intro id row there dispatched
  refine (h there dispatched).imp_right fun ⟨c, hc, event, seen⟩ => ?_
  rcases List.mem_append.mp hc with old | new
  · exact ⟨c, List.mem_append_left _ old, event, seen⟩
  · obtain rfl := List.mem_singleton.mp new
    cases seen

theorem Booked.see {maxAttempts : ℕ} {rows : Table} {prev : List Call} {st : Option Settlement}
    {o : Outcome} {row : OutboxEvent}
    (h : Booked maxAttempts boot none rows (prev ++ [⟨e, st, none⟩]))
    (there : rows e.id = some row) :
    Booked maxAttempts boot (some (e.id, o)) rows (prev ++ [⟨e, st, some o⟩]) := by
  intro id fresh
  have before := h id fresh
  rw [history_see]
  cases hr : rows id with
  | none =>
    rw [hr] at before
    have other : e.id ≠ id := by
      rintro rfl
      rw [there] at hr
      cases hr
    simpa [lateFor, other] using before
  | some r =>
    rw [hr] at before
    obtain ⟨p, hp, recorded⟩ := before
    rw [lateFor_none, List.append_nil] at hp
    exact ⟨p, by rw [hp], recorded⟩

theorem Ledger.see {rows : Table} {prev : List Call} {st : Option Settlement} {o : Outcome}
    {reports : List Report} {row : OutboxEvent}
    (h : Ledger s faults boot queue none rows (prev ++ [⟨e, st, none⟩]) reports)
    (there : rows e.id = some row) :
    Ledger s faults boot queue (some (e.id, o)) rows (prev ++ [⟨e, st, some o⟩]) reports :=
  ⟨h.accounted, h.justified.see, fun reliable => (h.booked reliable).see there⟩

/-- The row of the awaited event is not that of an orphan, whose key is taken. -/
theorem Open.other_orphan (h : Open s faults boot (some i) queue late (e :: rest) w)
    (awaited : awaiting e i w) {k : Key} {o : Orphan} (ho : w.orphanedEvents.get k = some o) :
    e.id ≠ o.eventId := by
  intro same
  obtain ⟨⟨row, hr, rfl⟩, -⟩ := h.orphaned ho
  obtain ⟨row', seen, evolves⟩ := h.progress hr
  obtain ⟨row'', seen', -, -, key⟩ := h.claimed.pending (List.mem_cons_self ..)
  rw [same, seen] at seen'
  cases seen'
  obtain ⟨prev, st, calls, rfl⟩ := awaited
  have free := h.tracked.clear (c := ⟨e, st, none⟩) rfl (by rw [calls]; simp)
  rw [Call.key, ← key, evolves.key, ho] at free
  cases free

/-- The dispatcher is told how a call went, and watches it no longer if it has settled. -/
theorem Open.see {o : Outcome} {cur' : Option CallId}
    (h : Open s faults boot (some i) queue none (e :: rest) w) (awaited : awaiting e i w)
    (watch : cur' = some i ∨ cur' = none ∧ ((w.calls[i]?).bind (·.settled)).isSome = true) :
    Open s faults boot cur' queue (some (e.id, o)) (e :: rest) (w.see i o) := by
  obtain ⟨row, there, -⟩ := h.claimed.pending (List.mem_cons_self ..)
  have others {k : Key} {o : Orphan} := h.other_orphan (k := k) (o := o) awaited
  obtain ⟨prev, st, calls, rfl⟩ := awaited
  have seen : (w.see prev.length o).calls = prev ++ [⟨e, st, some o⟩] := by
    rw [World.see, calls, List.modify_eq_set_getElem?]
    simp
  have tracked : Tracked (some prev.length) (w.see prev.length o).calls w.orphanedEvents := by
    rw [seen]
    exact Tracked.see (calls ▸ h.tracked)
  refine { h with
    tracked := ?_
    orphaned := fun k o' ho => ?_
    justified := seen ▸ (calls ▸ h.justified).see
    ledger := ?_
    lateHead := fun same => ?_ }
  · rcases watch with rfl | ⟨rfl, settled⟩
    · exact tracked
    · refine tracked.dismiss fun c hc => ?_
      rw [seen, List.getElem?_concat_length] at hc
      cases hc
      rw [calls, List.getElem?_concat_length] at settled
      exact Option.isSome_iff_ne_none.mp settled
  · obtain ⟨row', unthrown⟩ := h.orphaned ho
    refine ⟨row', ?_⟩
    rw [seen, history_see, ← calls]
    simpa [lateFor, others ho] using unthrown
  · rw [seen]
    exact (calls ▸ h.ledger).see there
  · cases same
    exact ⟨e, rfl, rfl⟩

/-! ## The orphan guard -/

/-- The last the dispatcher was told about event `id`. -/
def lastHeard (id : EventId) (o : Outcome) : Assertion Background where
  holds := fun w => (history w.calls id).getLast? = some o
  stable := by
    intro w w' h b
    cases b with
    | clock | flags | publish => exact h
    | settle i c st hi unsettled =>
      simp only [World.settle, history_settle hi]
      exact h

theorem lastHeard_see {o : Outcome} (awaited : awaiting e i w) :
    lastHeard e.id o (w.see i o) := by
  obtain ⟨prev, st, calls, rfl⟩ := awaited
  have seen : (w.see prev.length o).calls = prev ++ [⟨e, st, some o⟩] := by
    rw [World.see, calls, List.modify_eq_set_getElem?]
    simp
  show (history (w.see prev.length o).calls e.id).getLast? = some o
  rw [seen, history_see]
  simp [lateFor]

/-- Call `i` was made for `e`. -/
def calledFor (e : DispatchedEvent) (i : CallId) : Assertion Background where
  holds := fun w => ∃ c, w.calls[i]? = some c ∧ c.event = e
  stable := by
    rintro w w' ⟨c, hc, rfl⟩ b
    cases b with
    | clock | flags | publish => exact ⟨c, hc, rfl⟩
    | settle j d st hj unsettled =>
      by_cases same : j = i
      · subst same
        obtain rfl : d = c := Option.some.inj (hj.symm.trans hc)
        have bound := (List.getElem?_eq_some_iff.mp hj).1
        exact ⟨{ d with settled := some st },
          by simp only [World.settle, List.getElem?_set_self bound], rfl⟩
      · exact ⟨c, by simp only [World.settle, List.getElem?_set_ne same]; exact hc, rfl⟩

theorem calledFor_see {o : Outcome} (awaited : awaiting e i w) :
    calledFor e i (w.see i o) := by
  obtain ⟨prev, st, calls, rfl⟩ := awaited
  exact ⟨⟨e, st, some o⟩, by rw [World.see, calls, List.modify_eq_set_getElem?]; simp, rfl⟩

theorem Tracked.track {calls : List Call} {orphans : InsertionMap Key Orphan} {o : Orphan}
    {c : Call} (h : Tracked (some i) calls orphans) (hi : calls[i]? = some c) (called : o.call = i) :
    Tracked none calls (orphans.set c.key o) := by
  constructor
  · intro j d hj unsettled
    refine .inr ?_
    rcases h.held hj unsettled with same | ⟨o', ho', rfl⟩
    · obtain rfl : i = j := Option.some.inj same
      obtain rfl : c = d := Option.some.inj (hi.symm.trans hj)
      exact ⟨o, by simp, called⟩
    · refine ⟨o', ?_, rfl⟩
      have other : c.key ≠ d.key := fun same => by
        rw [← same, h.clear rfl hi] at ho'
        cases ho'
      simpa [other] using ho'
  · intro j d same
    cases same

/-- The abandoned call takes the place of the awaited one. -/
theorem Open.trackOrphan {o : Outcome} {since : ℤ}
    (h : Open s faults boot (some i) queue late (e :: rest) w) (called : calledFor e i w)
    (heard : lastHeard e.id o w) (unthrown : o ≠ .threw) :
    Open s faults boot none queue late (e :: rest) (w.setOrphan (orphanGuardKey e)
      ⟨e.topic, e.aggregateId, e.id, since, false, i⟩) := by
  obtain ⟨c, hc, rfl⟩ := called
  refine { h with
    tracked := h.tracked.track hc rfl
    orphaned := fun k o' ho' => ?_ }
  simp only [World.setOrphan, InsertionMap.get_set] at ho'
  split_ifs at ho' with same
  · cases ho'
    obtain ⟨row, there, -, -, key⟩ := h.claimed.pending (List.mem_cons_self ..)
    refine ⟨?_, ?_⟩
    · cases hr : w.rows c.event.id with
      | none =>
        rw [h.invented hr] at there
        cases there
      | some r =>
        obtain ⟨r', there', evolves⟩ := h.progress hr
        rw [there] at there'
        cases there'
        exact ⟨r, hr, by rw [← same, ← key, evolves.key]⟩
    · intro threw
      exact unthrown (Option.some.inj (Eq.trans (Eq.symm heard) threw))
  · exact h.orphaned ho'

theorem Open.unwatched (h : Open s faults boot (some i) queue late todo w)
    (settled : ((w.calls[i]?).bind (·.settled)).isSome = true) :
    Open s faults boot none queue late todo w := by
  refine { h with tracked := h.tracked.dismiss fun c hc => ?_ }
  rw [hc] at settled
  exact Option.isSome_iff_ne_none.mp settled

/-! ## Statements of the transaction -/

theorem view_mapTx {f : Tx → Tx} {x : Tx} (hx : w.tx = some x)
    (same : (f x).written = x.written) : (w.mapTx f).view = w.view := by
  funext id
  rw [view_of_tx (x := f x) (by simp [World.mapTx, hx]), view_of_tx hx, same]
  rfl

theorem view_write (id : EventId) (row : OutboxEvent) (opened : w.tx.isSome = true) :
    (w.write id row).view = Function.update w.view id (some row) := by
  obtain ⟨x, hx⟩ := Option.isSome_iff_exists.mp opened
  funext id'
  rw [view_of_tx (x := { x with written := Function.update x.written id (some row) })
    (by simp [World.write, World.mapTx, hx])]
  by_cases same : id' = id
  · subst same
    simp
  · simp [World.write, World.mapTx, same, view_of_tx hx]

theorem Claimed.tail {rows : Table} (h : Claimed (e :: rest) rows) : Claimed rest rows :=
  ⟨(List.nodup_cons.mp h.nodup).2, fun he => h.pending (List.mem_cons_of_mem _ he)⟩

theorem Claimed.update {rows : Table} {row : OutboxEvent} (h : Claimed (e :: rest) rows) :
    Claimed rest (Function.update rows e.id (some row)) := by
  refine ⟨h.tail.nodup, fun {e'} he => ?_⟩
  have other : e'.id ≠ e.id := fun same =>
    (List.nodup_cons.mp h.nodup).1 (List.mem_map.mpr ⟨e', he, same⟩)
  simpa [other] using h.tail.pending he

/-- A row that is pending was not failed when the process found it. -/
theorem Progress.not_failed {rows : Table} {id : EventId} {row : OutboxEvent}
    (h : Progress boot rows) (there : rows id = some row) (pending : row.status = .pending) :
    isFailed (boot id) = false := by
  cases hr : boot id with
  | none => rfl
  | some r =>
    obtain ⟨r', there', evolves⟩ := h hr
    rw [there] at there'
    cases there'
    rcases evolves.absorbing with before | rfl
    · simp [isFailed, before]
    · simp [isFailed, pending]

/-- A pending row is written: if that fails it, its event is queued. -/
theorem Accounted.update {rows : Table} {reports : List Report} {id : EventId}
    {row row' : OutboxEvent} (h : Accounted boot queue rows reports) (there : rows id = some row)
    (pending : row.status = .pending) (found : isFailed (boot id) = false) :
    Accounted boot (queue ++ if row'.status = .failed then [id] else [])
      (Function.update rows id (some row')) reports := by
  intro id'
  have before := h id'
  by_cases same : id' = id
  · subst same
    have idle : ¬ NewlyFailed boot rows id' := by simp [NewlyFailed, isFailed, there, pending]
    rw [if_neg idle] at before
    by_cases failed : row'.status = .failed
    · have flipped : NewlyFailed boot (Function.update rows id' (some row')) id' :=
        ⟨by simp [isFailed, failed], found⟩
      simp only [if_pos failed, if_pos flipped, List.count_append, List.count_singleton_self]
      omega
    · have kept : ¬ NewlyFailed boot (Function.update rows id' (some row')) id' := by
        simp [NewlyFailed, isFailed, failed]
      simpa only [if_neg failed, if_neg kept, List.append_nil] using before
  · have queued : (queue ++ if row'.status = .failed then [id] else []).count id' =
        queue.count id' := by
      split_ifs <;> simp [List.count_append, Ne.symm same]
    rw [queued, before]
    exact if_congr (by simp [NewlyFailed, same]) rfl rfl

theorem Open.write {row row' : OutboxEvent}
    (h : Open s faults boot none queue late (e :: rest) w) (progress : Progress boot w.rows)
    (there : w.view e.id = some row) (pending : row.status = .pending)
    (evolves : Evolves row row')
    (justified : row'.status = .dispatched →
      ∃ c ∈ w.calls, c.event.id = e.id ∧ c.seen = some .resolved)
    (recorded : faults = false → Fresh boot e.id →
      Recorded s.maxAttempts (history w.calls e.id) row') :
    Open s faults boot none (queue ++ if row'.status = .failed then [e.id] else []) none rest
      (w.write e.id row') := by
  have view := view_write e.id row' h.opened
  refine { h with
    opened := by simpa [World.write, World.mapTx] using h.opened
    progress := ?_
    invented := fun {id} absent => ?_
    ledger := ?_
    claimed := view ▸ h.claimed.update
    lateHead := nofun }
  · rw [view]
    refine h.progress.trans (.update fun r hr => ?_)
    rw [there] at hr
    cases hr
    exact evolves
  · have unseen := h.invented absent
    have other : id ≠ e.id := by
      rintro rfl
      rw [there] at unseen
      cases unseen
    rw [view, Function.update_of_ne other, unseen]
  · rw [view]
    refine ⟨h.ledger.accounted.update there pending
      ((progress.trans h.progress).not_failed there pending), ?_, ?_⟩
    · intro id r hr dispatched
      by_cases same : id = e.id
      · subst same
        obtain rfl : row' = r := by simpa using hr
        exact .inr (justified dispatched)
      · exact h.ledger.justified (by simpa [same] using hr) dispatched
    · intro reliable id fresh
      have before := h.ledger.booked reliable id fresh
      by_cases same : id = e.id
      · subst same
        simp only [Function.update_self]
        exact ⟨_, by simp [World.write, World.mapTx, lateFor_none], recorded reliable fresh⟩
      · rw [Function.update_of_ne same]
        have onTime : lateFor late id = lateFor none id := by
          rcases late with _ | ⟨id', o⟩
          · rfl
          · obtain ⟨e', he', rfl⟩ := h.lateHead rfl
            obtain rfl : e = e' := Option.some.inj he'
            simp [lateFor, Ne.symm same]
        rw [onTime] at before
        exact before

/-! ## The ends of the transaction -/

theorem Resting.congr (h : Resting s faults boot queue w) (tx : w'.tx = w.tx)
    (rows : w'.rows = w.rows) (calls : w'.calls = w.calls)
    (orphans : w'.orphanedEvents = w.orphanedEvents) (reports : w'.reports = w.reports) :
    Resting s faults boot queue w' where
  closed := tx.trans h.closed
  tracked := by rw [calls, orphans]; exact h.tracked
  orphaned := by rw [rows, calls, orphans]; exact h.orphaned
  ledger := by rw [rows, calls, reports]; exact h.ledger

theorem Resting.begin (h : Resting s faults boot [] w) :
    Open s faults boot none [] none [] { w with tx := some ⟨fun _ => none, fun _ => none⟩ } := by
  have view : { w with tx := some ⟨fun _ => none, fun _ => none⟩ : World }.view = w.rows := by
    funext id
    simp [World.view]
  refine ⟨rfl, h.tracked, h.orphaned, h.ledger.accounted, h.ledger.justified, ?_, ?_, ?_, ?_,
    by simp⟩
  · rw [view]
    exact .refl _
  · rw [view]
    exact fun absent => absent
  · rw [view]
    exact h.ledger
  · exact ⟨List.nodup_nil, by simp⟩

theorem Open.commit (h : Open s faults boot none queue none todo w) :
    Resting s faults boot queue { w with rows := w.view, tx := none } := by
  refine ⟨rfl, h.tracked, fun k o ho => ?_, h.ledger⟩
  obtain ⟨⟨row, hr, key⟩, unthrown⟩ := h.orphaned ho
  obtain ⟨row', seen, evolves⟩ := h.progress hr
  exact ⟨⟨row', seen, evolves.key.trans key⟩, unthrown⟩

/-- A transaction that fails leaves no trace. -/
theorem Open.rollback (h : Open s true boot none queue late todo w) :
    Resting s true boot [] { w with tx := none } :=
  ⟨rfl, h.tracked, h.orphaned, h.accounted, h.justified, nofun⟩

theorem ClaimResult.event {limit : ℕ} {rows : Table} {excluded : List Key} {ids : List EventId}
    (h : ClaimResult limit rows excluded ids) :
    Claimed (ids.filterMap fun id => (rows id).map (toEvent id)) rows := by
  have claimed : ∀ e ∈ ids.filterMap fun id => (rows id).map (toEvent id),
      e.id ∈ ids ∧ ∃ row, rows e.id = some row ∧ toEvent e.id row = e := by
    intro e he
    obtain ⟨id, hid, found⟩ := List.mem_filterMap.mp he
    obtain ⟨row, there, rfl⟩ := Option.map_eq_some_iff.mp found
    exact ⟨hid, row, there, rfl⟩
  constructor
  · have names : List.Sublist
        ((ids.filterMap fun id => (rows id).map (toEvent id)).map (·.id)) ids := by
      clear claimed h
      induction ids with
      | nil => simp
      | cons id ids ih =>
        cases found : rows id with
        | none => simpa [found] using ih.cons id
        | some row => simpa [found, toEvent] using ih.cons_cons id
    exact h.nodup.sublist names
  · intro e he
    obtain ⟨hid, row, there, same⟩ := claimed e he
    obtain ⟨row', there', pending, -⟩ := h.claimable e.id hid
    obtain rfl : row = row' := Option.some.inj (there.symm.trans there')
    refine ⟨row, there, pending, ?_, ?_⟩
    · rw [← same]
      rfl
    · rw [← same]
      rfl

theorem Open.claim {events : List DispatchedEvent} (h : Open s faults boot none queue none todo w)
    (claimed : Claimed events w.view) : Open s faults boot none queue none events w :=
  { h with
    claimed := claimed
    lateHead := nofun }

/-- A row is left as it was claimed. -/
theorem Open.skip (h : Open s faults boot none queue none (e :: rest) w) :
    Open s faults boot none queue none rest w := h.claim h.claimed.tail

/-! ## Outside the transaction -/

/-- What was read of an orphan's event. -/
def stuck (id : EventId) : Assertion Background where
  holds := fun w => (history w.calls id).getLast? ≠ some .threw
  stable := by
    intro w w' h b
    cases b with
    | clock | flags | publish => exact h
    | settle i c st hi unsettled =>
      simp only [World.settle, history_settle hi]
      exact h

/-- A pending row is failed because the call for it never settled. -/
theorem Resting.failStuck {id : EventId} {row : OutboxEvent} {lastError : Option String}
    (h : Resting s faults boot [] w) (progress : Progress boot w.rows) (unthrown : stuck id w)
    (there : w.rows id = some row) (pending : row.status = .pending) :
    Resting s faults boot [id]
      (w.setRow id { row with status := .failed, lastError := lastError }) := by
  have evolves : Progress w.rows
      (w.setRow id { row with status := .failed, lastError := lastError }).rows := by
    refine .update fun r hr => ?_
    obtain rfl : row = r := Option.some.inj (there.symm.trans hr)
    exact ⟨rfl, le_rfl, .inl pending⟩
  refine ⟨h.closed, h.tracked, fun k o ho => ?_, ?_, ?_, ?_⟩
  · obtain ⟨⟨r, hr, key⟩, heard⟩ := h.orphaned ho
    obtain ⟨r', there', evolved⟩ := evolves hr
    exact ⟨⟨r', there', evolved.key.trans key⟩, heard⟩
  · let row' : OutboxEvent := { row with status := .failed, lastError := lastError }
    have queued : Accounted boot ([] ++ if row'.status = .failed then [id] else [])
        (Function.update w.rows id (some row')) w.reports :=
      h.ledger.accounted.update there pending (progress.not_failed there pending)
    rwa [if_pos rfl, List.nil_append] at queued
  · intro id' r hr dispatched
    by_cases same : id' = id
    · subst same
      obtain rfl : { row with status := .failed, lastError := lastError } = r := by
        simpa [World.setRow] using hr
      cases dispatched
    · exact h.ledger.justified (by simpa [World.setRow, same] using hr) dispatched
  · intro reliable id' fresh
    have before := h.ledger.booked reliable id' fresh
    by_cases same : id' = id
    · subst same
      simp only [World.setRow, Function.update_self]
      refine ⟨_, by rw [lateFor_none, List.append_nil], fun p split => ?_⟩
      exact absurd (by rw [split]; simp) unthrown
    · simp only [World.setRow]
      rw [Function.update_of_ne same]
      exact before

/-- An entry of the guard is marked, and guards its key as before. -/
theorem Resting.markEscalated {k : Key} {o : Orphan} (h : Resting s faults boot queue w)
    (ho : w.orphanedEvents.get k = some o) :
    Resting s faults boot queue (w.setOrphan k { o with escalated := true }) := by
  refine { h with tracked := ⟨fun hj unsettled => ?_, nofun⟩, orphaned := fun k' o' ho' => ?_ }
  · obtain ⟨o', ho', called⟩ := (h.tracked.held hj unsettled).resolve_left nofun
    refine .inr ?_
    simp only [World.setOrphan, InsertionMap.get_set]
    split_ifs with same
    · subst same
      obtain rfl : o = o' := Option.some.inj (ho.symm.trans ho')
      exact ⟨_, rfl, called⟩
    · exact ⟨o', ho', called⟩
  · simp only [World.setOrphan, InsertionMap.get_set] at ho'
    split_ifs at ho' with same
    · subst same
      cases ho'
      exact h.orphaned (o := o) ho
    · exact h.orphaned ho'

theorem failedReports_append (reports : List Report) (r : Report) (id : EventId) :
    failedReports (reports ++ [r]) id =
      failedReports reports id + if Report.isEventFailed id r then 1 else 0 := by
  simp [failedReports, List.countP_append, List.countP_singleton]

/-- The report of a queued failure. -/
theorem Resting.captureFailed {id : EventId} {topic : String}
    (h : Resting s faults boot (id :: queue) w) :
    Resting s faults boot queue
      { w with reports := w.reports ++ [.eventFailed topic id] } := by
  refine ⟨h.closed, h.tracked, h.orphaned, fun id' => ?_, h.ledger.justified, h.ledger.booked⟩
  rw [failedReports_append, ← h.ledger.accounted id', List.count_cons]
  by_cases same : id = id'
  · simp only [same, beq_self_eq_true, ↓reduceIte, Report.isEventFailed, decide_true]
    omega
  · simp only [Report.isEventFailed, same, beq_iff_eq, ↓reduceIte, decide_false,
      Bool.false_eq_true]
    omega

theorem Resting.captureTickFailed (h : Resting s faults boot queue w) :
    Resting s faults boot queue { w with reports := w.reports ++ [.tickFailed] } := by
  refine ⟨h.closed, h.tracked, h.orphaned, fun id' => ?_, h.ledger.justified, h.ledger.booked⟩
  rw [failedReports_append, ← h.ledger.accounted id']
  rfl

end DeclutrMail.Outbox
