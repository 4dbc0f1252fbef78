import DeclutrMail.Billing.Verdicts

/-!
# Snapshots in any order

The `subscription` events of one subscription, delivered in any order, more than once, and
resumed after crashes. The row shows the latest event that was processed (`Settled`), and no
granting event is applied after a denying one of its own time.
-/

namespace DeclutrMail.Billing

open Interleaving

/-- The events are snapshots of one subscription, and an id belongs to one event. -/
structure SnapshotsOf (sid : String) (events : List BillingEvent) : Prop where
  body : ∀ e ∈ events, ∃ sub, e.body = .subscription sub none ∧ sub.providerSubscriptionId = sid
  id : ∀ e ∈ events, ∀ e' ∈ events, e.providerEventId = e'.providerEventId → e = e'

/-- The ledger knows nothing of the subscription or of the events. -/
def World.Unrecorded (w : World) (key : SubscriptionKey) (events : List BillingEvent) : Prop :=
  ∀ k row, w.events.get k = some row → k.1 = key.1 → row.providerSubscriptionId ≠ some key.2 ∧
    ∀ e ∈ events, k.2 ≠ e.providerEventId ∧ row.originalEventId ≠ some e.providerEventId

def BillingEvent.ms (D : Deployment) (e : BillingEvent) : Option ℤ := toMillis D.dateParse e.occurredAt

section Ledger

variable {D : Deployment} {key : SubscriptionKey} {events : List BillingEvent} {w w' : World}
  {e : BillingEvent}

theorem SnapshotsOf.plain (h : SnapshotsOf key.2 events) :
    ∀ e ∈ events, e.body.aboutRefund = false := by
  intro e mem
  obtain ⟨sub, body, -⟩ := h.body e mem
  rw [body]
  rfl

/-- Every row of the provider is about something else, or is that of one of the events. -/
def World.RowsOf (w : World) (key : SubscriptionKey) (events : List BillingEvent) : Prop :=
  ∀ k row, w.events.get k = some row → k.1 = key.1 →
    (row.providerSubscriptionId ≠ some key.2 ∧
      ∀ e ∈ events, k.2 ≠ e.providerEventId ∧ row.originalEventId ≠ some e.providerEventId) ∨
    ∃ e ∈ events, k.2 = e.providerEventId ∧ (e.row row.arrivalSeq).Stays row

/-- The row of an event carries the event. -/
theorem World.RowsOf.row (rows : w.RowsOf key events) (h : SnapshotsOf key.2 events)
    (mem : e ∈ events) {row : EventRow}
    (there : w.events.get (key.1, e.providerEventId) = some row) :
    (e.row row.arrivalSeq).Stays row := by
  rcases rows _ row there rfl with ⟨-, foreign⟩ | ⟨e', mem', same, stays⟩
  · exact absurd rfl (foreign e mem).1
  · rwa [h.id e mem e' mem' same]

theorem payload_of_stays {seq : ℕ} {row : EventRow} (h : (e.row seq).Stays row) :
    row.kind = e.body.kind ∧ row.occurredAt = e.occurredAt ∧ row.status = e.body.status ∧
      row.providerSubscriptionId = e.body.providerSubscriptionId ∧ row.originalEventId = none := by
  rcases h with rfl | rfl <;> exact ⟨rfl, rfl, rfl, rfl, rfl⟩

theorem World.RowsOf.unclassified (rows : w.RowsOf key events) (mem : e ∈ events) :
    w.classified (key.1, e.providerEventId) = false := by
  refine List.any_eq_false.mpr fun c there => ?_
  by_contra hit
  simp only [Bool.and_eq_true, decide_eq_true_eq] at hit
  obtain ⟨⟨provider, -⟩, original⟩ := hit
  rcases rows c.1 c.2 (InsertionMap.mem_entries_iff.mp there) provider with
    ⟨-, foreign⟩ | ⟨e', -, -, stays⟩
  · exact (foreign e mem).2 original
  · rw [(payload_of_stays stays).2.2.2.2] at original
    cases original

theorem mem_peers {k : EventKey} {sid : String} {peer : Peer} : peer ∈ w.peers k sid ↔
    ∃ k' row, w.events.get k' = some row ∧ k'.1 = k.1 ∧ row.processed = true ∧ k' ≠ k ∧
      row.providerSubscriptionId = some sid ∧ row.kind.writesState = true ∧
      w.classified k' = false ∧ peer = ⟨row.arrivalSeq, row.occurredAt, row.status⟩ := by
  unfold World.peers
  simp only [List.mem_map, List.mem_filter, Bool.and_eq_true, decide_eq_true_eq,
    Bool.not_eq_true', Prod.exists, InsertionMap.mem_entries_iff]
  constructor
  · rintro ⟨p, id, row, ⟨there, ⟨⟨⟨⟨⟨provider, processed⟩, other⟩, sid⟩, writes⟩, clear⟩⟩, rfl⟩
    exact ⟨p, id, row, there, provider, processed, other, sid, writes, clear, rfl⟩
  · rintro ⟨p, id, row, there, provider, processed, other, sid, writes, clear, rfl⟩
    exact ⟨p, id, row, ⟨there, ⟨⟨⟨⟨⟨provider, processed⟩, other⟩, sid⟩, writes⟩, clear⟩⟩, rfl⟩

/-- A processed event is a peer of every other event. -/
theorem World.RowsOf.peer (rows : w.RowsOf key events) (h : SnapshotsOf key.2 events)
    {e' : BillingEvent} (mem' : e' ∈ events) (processed : w.Processed key.1 e')
    (other : e'.providerEventId ≠ e.providerEventId) :
    ∃ seq, ⟨seq, e'.occurredAt, e'.body.status⟩ ∈ w.peers (key.1, e.providerEventId) key.2 := by
  obtain ⟨row, there, processed⟩ := processed
  obtain ⟨kind, occurredAt, status, sid, -⟩ := payload_of_stays (rows.row h mem' there)
  obtain ⟨sub, body, same⟩ := h.body e' mem'
  refine ⟨row.arrivalSeq, mem_peers.mpr ⟨_, row, there, rfl, processed, ?_, ?_, ?_,
    rows.unclassified mem', by rw [occurredAt, status]⟩⟩
  · exact fun same => other (Prod.mk.inj same).2
  · rw [sid, body, ← same]
    rfl
  · rw [kind, body]
    rfl

/-- Every peer is a processed event. -/
theorem World.RowsOf.of_peer (rows : w.RowsOf key events) {peer : Peer}
    (mem : peer ∈ w.peers (key.1, e.providerEventId) key.2) :
    ∃ e' ∈ events, w.Processed key.1 e' ∧ e'.providerEventId ≠ e.providerEventId ∧
      peer.occurredAt = e'.occurredAt ∧ peer.status = e'.body.status := by
  obtain ⟨k, row, there, provider, processed, other, sid, -, -, rfl⟩ := mem_peers.mp mem
  obtain ⟨p, id⟩ := k
  dsimp only at provider
  subst provider
  rcases rows _ row there rfl with ⟨foreign, -⟩ | ⟨e', mem', same, stays⟩
  · exact absurd sid foreign
  · dsimp only at same
    subst same
    obtain ⟨-, occurredAt, status, -⟩ := payload_of_stays stays
    refine ⟨e', mem', ⟨row, there, processed⟩, fun same => other ?_, occurredAt, status⟩
    rw [same]

theorem stamp_processed (h : SnapshotsOf key.2 events) (mem : e ∈ events) {e' : BillingEvent}
    (mem' : e' ∈ events) (recorded : w.Recorded (key.1, e.providerEventId)) :
    (w.stamp (key.1, e.providerEventId)).Processed key.1 e' ↔ w.Processed key.1 e' ∨ e' = e := by
  rw [processed_stamp recorded]
  refine or_congr_right ⟨fun same => ?_, fun same => by rw [same]⟩
  exact h.id e' mem' e mem (Prod.mk.inj same).2.symm

end Ledger

/-! ## The commits of such a history -/

/-- A snapshot is taken, refused or found to conflict, as the transaction decides. -/
structure World.Snapshot (D : Deployment) (w w' : World) (key : SubscriptionKey) (e : BillingEvent)
    (sub : NormalizedSubscription) (entry : CatalogEntry) : Prop where
  body : e.body = .subscription sub none
  sid : sub.providerSubscriptionId = key.2
  priced : D.resolveByPriceId key.1 sub.providerPriceId = some entry
  recorded : w.Recorded (key.1, e.providerEventId)
  did : ∃ evidence workspaceId outcome, w.applySubscription D (key.1, e.providerEventId) sub none
    evidence workspaceId entry = .ok (outcome, w')

section Commits

variable {D : Deployment} {key : SubscriptionKey} {events : List BillingEvent} {w w' : World}

/-- A commit leaves the ledger and the rows alone, records an event, or handles a snapshot. -/
theorem commit_cases (h : SnapshotsOf key.2 events)
    (step : Commit D (delivers key.1 events) w w') :
    (w'.events = w.events ∧ w'.db = w.db ∧ w'.applied = w.applied) ∨
      (∃ e ∈ events, w' = (w.insertEvent (key.1, e.providerEventId) e.row).2) ∨
      ∃ e ∈ events, ∃ sub entry, w.Snapshot D w' key e sub entry := by
  have own : ∀ {provider e}, Handled (delivers key.1 events) provider e → provider = key.1 ∧
      e ∈ events ∧ ∃ sub, e.body = .subscription sub none ∧ sub.providerSubscriptionId = key.2 := by
    intro provider e handled
    obtain ⟨same, mem⟩ := handled_delivers h.plain handled
    exact ⟨same, mem, h.body e mem⟩
  have other : ∀ {provider e}, Handled (delivers key.1 events) provider e →
      ∃ sub, e.body = .subscription sub none := fun handled =>
    (own handled).2.2.imp fun _ is => is.1
  cases step with
  | rest | wait => exact .inl ⟨rfl, rfl, rfl⟩
  | customer => exact .inl ⟨by simp, by simp, by simp⟩
  | insert handled =>
    obtain ⟨rfl, mem, -⟩ := own handled
    exact .inr (.inl ⟨_, mem, rfl⟩)
  | mark handled _ body =>
    obtain ⟨sub, is⟩ := other handled
    rcases body with body | ⟨_, body, -⟩ <;> rw [is] at body <;> cases body
  | classify handled _ reviewed =>
    obtain ⟨sub, is⟩ := other handled
    simp [BillingEvent.reviewed, EventBody.aboutRefund, is] at reviewed
  | schedule handled _ body | settle handled _ body | revoke handled _ body | grant handled body
  | project _ handled _ body | revokePass handled _ body =>
    obtain ⟨sub, is⟩ := other handled
    rw [is] at body
    cases body
  | snapshot handled recorded body priced did =>
    obtain ⟨rfl, mem, sub, is, sid⟩ := own handled
    obtain ⟨rfl, rfl⟩ := EventBody.subscription.inj (body.symm.trans is)
    exact .inr (.inr ⟨_, mem, _, _, is, sid, priced, recorded, _, _, _, did⟩)

end Commits

/-! ## The latest event wins -/

/-- Distinct times, of which those of cancellations are the last. -/
structure Timed (D : Deployment) (events : List BillingEvent) (at_ : BillingEvent → ℤ) : Prop where
  ms : ∀ e ∈ events, e.ms D = some (at_ e)
  distinct : ∀ e ∈ events, ∀ e' ∈ events, at_ e = at_ e' → e = e'
  terminal : ∀ e ∈ events, ∀ e' ∈ events, e.body.status = some .canceled → at_ e < at_ e' →
    e'.body.status = some .canceled

/-- The row has the status, tier, price and cycle of the event. -/
def Shows (D : Deployment) (provider : BillingProviderId) (e : BillingEvent) (s : Subscription) :
    Prop :=
  ∃ sub entry, e.body = .subscription sub none ∧
    D.resolveByPriceId provider sub.providerPriceId = some entry ∧ s.status = sub.status ∧
    s.tier = entry.tierId ∧ s.providerPriceId = sub.providerPriceId ∧ s.billingCycle = entry.cycle

/-- The row shows the latest event that was processed. -/
structure Settled (D : Deployment) (key : SubscriptionKey) (events : List BillingEvent)
    (at_ : BillingEvent → ℤ) (w : World) : Prop where
  rows : w.RowsOf key events
  plain : ∀ s, w.db.subscription key = some s → s.scheduled = none ∧ s.localVerdict = false
  latest : ((∀ e ∈ events, ¬ w.Processed key.1 e) ∧
      ∀ s, w.db.subscription key = some s → s.status ≠ .canceled) ∨
    ∃ m ∈ events, w.Processed key.1 m ∧ (∀ e ∈ events, w.Processed key.1 e → at_ e ≤ at_ m) ∧
      ∃ s, w.db.subscription key = some s ∧ Shows D key.1 m s

section Latest

variable {D : Deployment} {key : SubscriptionKey} {events : List BillingEvent} {w w' : World}
  {e : BillingEvent} {at_ : BillingEvent → ℤ}

/-- A snapshot is refused as stale if a later event was processed. -/
theorem newer_iff (h : SnapshotsOf key.2 events) (timed : Timed D events at_)
    (rows : w.RowsOf key events) (mem : e ∈ events) (seq : ℕ) (status : SubscriptionStatus) :
    (w.peers (key.1, e.providerEventId) key.2).any
        (isNewer D.dateParse (some (at_ e)) seq status) = true ↔
      ∃ e' ∈ events, w.Processed key.1 e' ∧ at_ e < at_ e' := by
  rw [List.any_eq_true]
  constructor
  · rintro ⟨peer, there, newer⟩
    obtain ⟨e', mem', processed, other, occurredAt, -⟩ := rows.of_peer there
    have apart : at_ e' ≠ at_ e := fun same => other (by rw [timed.distinct e' mem' e mem same])
    have theirs : toMillis D.dateParse peer.occurredAt = some (at_ e') := by
      rw [occurredAt]
      exact timed.ms e' mem'
    rw [isNewer_of_later theirs apart, decide_eq_true_eq] at newer
    exact ⟨e', mem', processed, newer⟩
  · rintro ⟨e', mem', processed, later⟩
    have other : e'.providerEventId ≠ e.providerEventId := by
      intro same
      rw [h.id e' mem' e mem same] at later
      exact lt_irrefl _ later
    obtain ⟨seq', there⟩ := rows.peer h mem' processed other
    refine ⟨_, there, ?_⟩
    have theirs : toMillis D.dateParse e'.occurredAt = some (at_ e') := timed.ms e' mem'
    rw [isNewer_of_later theirs later.ne', decide_eq_true_eq]
    exact later

/-- A snapshot of a row without a scheduled change. -/
theorem shows_nextSubscription {sub : NormalizedSubscription} {entry : CatalogEntry}
    (workspaceId : WorkspaceId) (selfMs : Option ℤ) (now : ℤ) (founding : Bool)
    {current : Option Subscription} (body : e.body = .subscription sub none)
    (priced : D.resolveByPriceId key.1 sub.providerPriceId = some entry)
    (plain : ∀ s, current = some s → s.scheduled = none) :
    Shows D key.1 e (nextSubscription key.1 workspaceId entry sub selfMs now founding current) ∧
      (nextSubscription key.1 workspaceId entry sub selfMs now founding current).scheduled = none := by
  have plan : effectivePlan entry sub selfMs current =
      ⟨entry.tierId, entry.cycle, sub.providerPriceId, none⟩ := by
    unfold effectivePlan
    split
    · rfl
    next s => rw [plain s rfl]
  refine ⟨⟨sub, entry, body, priced, rfl, ?_, ?_, ?_⟩, ?_⟩ <;> simp [nextSubscription, plan]

theorem World.RowsOf.congr (rows : w.RowsOf key events) (same : w'.events = w.events) :
    w'.RowsOf key events := by
  unfold World.RowsOf
  rw [same]
  exact rows

theorem World.RowsOf.insert (rows : w.RowsOf key events) (mem : e ∈ events) :
    (w.insertEvent (key.1, e.providerEventId) e.row).2.RowsOf key events := by
  intro k row there provider
  rw [World.get_insertEvent] at there
  split_ifs at there with same
  · subst same
    cases found : w.events.get (key.1, e.providerEventId) with
    | none =>
      rw [found] at there
      obtain rfl := Option.some.inj there
      exact .inr ⟨e, mem, rfl, .inl rfl⟩
    | some old =>
      rw [found] at there
      obtain rfl := Option.some.inj there
      exact rows _ _ found rfl
  · exact rows k row there provider

theorem World.RowsOf.stamp (rows : w.RowsOf key events) (k : EventKey) :
    (w.stamp k).RowsOf key events := by
  intro x row there provider
  rw [World.get_stamp] at there
  split_ifs at there with same
  · obtain ⟨old, found, rfl⟩ := Option.map_eq_some_iff.mp there
    subst same
    exact (rows _ old found provider).imp id fun ⟨e, mem, same, stays⟩ =>
      ⟨e, mem, same, stays.processed⟩
  · exact rows x row there provider

/-- What the row shows depends on what was processed, and on the row. -/
theorem Settled.congr (settled : Settled D key events at_ w) (rows : w'.RowsOf key events)
    (processed : ∀ e ∈ events, w'.Processed key.1 e ↔ w.Processed key.1 e)
    (row : w'.db.subscription key = w.db.subscription key) : Settled D key events at_ w' := by
  refine ⟨rows, by rw [row]; exact settled.plain, ?_⟩
  rw [row]
  refine settled.latest.imp (fun ⟨untouched, start⟩ => ⟨fun e mem => ?_, start⟩)
    fun ⟨m, mem, done, last, shows⟩ => ⟨m, mem, (processed m mem).mpr done, fun e mem' => ?_, shows⟩
  · rw [processed e mem]
    exact untouched e mem
  · rw [processed e mem']
    exact last e mem'

/-- An event that is not the latest is stamped. -/
theorem Settled.stamp (h : SnapshotsOf key.2 events) (settled : Settled D key events at_ w)
    (mem : e ∈ events) (recorded : w.Recorded (key.1, e.providerEventId))
    (later : ∃ m ∈ events, w.Processed key.1 m ∧ at_ e < at_ m) :
    Settled D key events at_ (w.stamp (key.1, e.providerEventId)) := by
  refine ⟨settled.rows.stamp _, by rw [World.db_stamp]; exact settled.plain, .inr ?_⟩
  rw [World.db_stamp]
  obtain ⟨m', mem', done', later⟩ := later
  rcases settled.latest with ⟨untouched, -⟩ | ⟨m, memm, done, last, shows⟩
  · exact absurd done' (untouched m' mem')
  · refine ⟨m, memm, (stamp_processed h mem memm recorded).mpr (.inl done), ?_, shows⟩
    intro x memx donex
    rcases (stamp_processed h mem memx recorded).mp donex with donex | rfl
    · exact last x memx donex
    · exact later.le.trans (last m' mem' done')

/-- A snapshot that is written is that of the latest event. -/
theorem Settled.write (h : SnapshotsOf key.2 events) (settled : Settled D key events at_ w)
    (mem : e ∈ events) (recorded : w.Recorded (key.1, e.providerEventId))
    (first : ∀ m ∈ events, w.Processed key.1 m → at_ m ≤ at_ e)
    (ledger : w'.events = (w.stamp (key.1, e.providerEventId)).events) {s : Subscription}
    (row : w'.db.subscription key = some s) (shows : Shows D key.1 e s)
    (plain : s.scheduled = none ∧ s.localVerdict = false) : Settled D key events at_ w' := by
  have processed : ∀ x ∈ events, w'.Processed key.1 x ↔ w.Processed key.1 x ∨ x = e := by
    intro x memx
    rw [← stamp_processed h mem memx recorded]
    exact processed_congr ledger
  refine ⟨(settled.rows.stamp _).congr ledger, ?_, .inr ⟨e, mem, ?_, ?_, s, row, shows⟩⟩
  · rw [row]
    rintro _ ⟨⟩
    exact plain
  · exact (processed e mem).mpr (.inr rfl)
  · intro x memx done
    rcases (processed x memx).mp done with done | rfl
    · exact first x memx done
    · exact le_rfl

/-- The time that the transaction finds in the ledger. -/
theorem ms_of_recorded (h : SnapshotsOf key.2 events) (rows : w.RowsOf key events)
    (mem : e ∈ events) (recorded : w.Recorded (key.1, e.providerEventId)) :
    toMillis D.dateParse ((w.events.get (key.1, e.providerEventId)).bind (·.occurredAt)) = e.ms D := by
  obtain ⟨row, there⟩ := recorded
  rw [there, Option.bind_some, (payload_of_stays (rows.row h mem there)).2.1]
  rfl

/-- A snapshot below the floor is not the latest. -/
theorem Settled.floored (timed : Timed D events at_) (settled : Settled D key events at_ w)
    (mem : e ∈ events) {sub : NormalizedSubscription} (body : e.body = .subscription sub none)
    (floored : belowFloor (w.db.subscription key) sub = true) :
    ∃ m ∈ events, w.Processed key.1 m ∧ at_ e < at_ m := by
  obtain ⟨past, live⟩ := Bool.and_eq_true_iff.mp floored
  obtain ⟨s, found, canceled⟩ := (Option.any_eq_true _ _).mp past
  replace canceled : s.status = .canceled := by simpa using canceled
  rcases settled.latest with ⟨-, start⟩ | ⟨m, memm, done, -, s', there, shows⟩
  · exact absurd canceled (start s found)
  · obtain rfl := Option.some.inj (there.symm.trans found)
    obtain ⟨subm, entry, bodym, -, status, -⟩ := shows
    have ends : m.body.status = some .canceled := by
      rw [bodym, ← canceled, status]
      rfl
    have goes : e.body.status ≠ some .canceled := by
      rw [body]
      intro same
      rw [Option.some.inj same] at live
      cases live
    refine ⟨m, memm, done, ?_⟩
    by_contra late
    rcases (not_lt.mp late).lt_or_eq with after | same
    · exact goes (timed.terminal m memm e mem ends after)
    · rw [timed.distinct m memm e mem same] at ends
      exact goes ends

/-- A snapshot is refused if it is not the latest, and shows if it is. -/
theorem Settled.snapshot (h : SnapshotsOf key.2 events) (timed : Timed D events at_)
    (settled : Settled D key events at_ w) (mem : e ∈ events) {sub : NormalizedSubscription}
    {entry : CatalogEntry} (step : w.Snapshot D w' key e sub entry) :
    Settled D key events at_ w' := by
  obtain ⟨body, sid, priced, recorded, evidence, workspaceId, outcome, did⟩ := step
  have done := World.applySubscription_cases did
  simp only [ms_of_recorded h settled.rows mem recorded, timed.ms e mem, sid] at done
  rcases done with ⟨-, rfl, refused⟩ | ⟨newest, -, written⟩
  · refine settled.stamp h mem recorded ?_
    rcases refused with stale | floored
    · exact (newer_iff h timed settled.rows mem _ _).mp stale
    · exact settled.floored timed mem body floored
  · have first : ∀ m ∈ events, w.Processed key.1 m → at_ m ≤ at_ e := by
      intro m memm processed
      by_contra late
      rw [(newer_iff h timed settled.rows mem _ _).mpr ⟨m, memm, processed, not_le.mp late⟩] at newest
      cases newest
    rcases World.writeSnapshot_cases written with ⟨-, rfl⟩ | ⟨rfl, ledger⟩
    · exact settled
    · obtain ⟨founding, affects⟩ := affects_writeSnapshot written
      have row := affects.subscription key
      rw [sid, if_pos rfl] at row
      obtain ⟨shows, plain⟩ := shows_nextSubscription workspaceId (some (at_ e)) w.now founding body priced
        fun s found => (settled.plain s found).1
      refine settled.write h mem recorded first ledger row shows ⟨plain, ?_⟩
      refine localVerdict_nextSubscription ?_
      cases found : w.db.subscription key with
      | none => rfl
      | some s => exact (settled.plain s found).2

/-- What the row shows is kept by every commit. -/
theorem Settled.commit (h : SnapshotsOf key.2 events) (timed : Timed D events at_)
    (settled : Settled D key events at_ w) (step : Commit D (delivers key.1 events) w w') :
    Settled D key events at_ w' := by
  rcases commit_cases h step with ⟨ledger, db, -⟩ | ⟨e, mem, rfl⟩ | ⟨e, mem, sub, entry, step⟩
  · exact settled.congr (settled.rows.congr ledger) (fun _ _ => processed_congr ledger) (by rw [db])
  · exact settled.congr (settled.rows.insert mem) (fun _ _ => processed_insertEvent) (by simp)
  · exact settled.snapshot h timed mem step

end Latest

/-! ## Events of the same time -/

/-- The second event does not grant if the first is one of its time that does not. -/
def Respects (D : Deployment) (provider : BillingProviderId) (events : List BillingEvent)
    (a b : Applied) : Prop :=
  ∀ e ∈ events, ∀ e' ∈ events, a.event = (provider, e.providerEventId) →
    b.event = (provider, e'.providerEventId) → e.ms D = e'.ms D → ∀ status status',
      e.body.status = some status → e'.body.status = some status' → status.granting = false →
        status'.granting = false

/-- The entries of the log are those of processed events, in an order that respects denials. -/
structure Logged (D : Deployment) (key : SubscriptionKey) (events : List BillingEvent)
    (start w : World) : Prop where
  rows : w.RowsOf key events
  processed : ∀ a ∈ w.appliedSince start, ∀ e ∈ events, a.event = (key.1, e.providerEventId) →
    w.Processed key.1 e
  respects : (w.appliedSince start).Pairwise (Respects D key.1 events)

section Log

variable {D : Deployment} {key : SubscriptionKey} {events : List BillingEvent}
  {start w w' : World} {e : BillingEvent}

theorem Logged.congr (logged : Logged D key events start w) (rows : w'.RowsOf key events)
    (processed : ∀ e ∈ events, w.Processed key.1 e → w'.Processed key.1 e)
    (applied : w'.applied = w.applied) : Logged D key events start w' := by
  refine ⟨rows, ?_, ?_⟩ <;> rw [appliedSince_congr applied]
  · exact fun a mem e meme same => processed e meme (logged.processed a mem e meme same)
  · exact logged.respects

/-- A granting event is refused once an event of its time that does not grant was processed. -/
theorem refused_of_denied (h : SnapshotsOf key.2 events) (rows : w.RowsOf key events)
    (mem : e ∈ events) {e' : BillingEvent} (mem' : e' ∈ events) (processed : w.Processed key.1 e')
    (tie : e'.ms D = e.ms D) {seq : ℕ} {status status' : SubscriptionStatus}
    (is : e.body.status = some status) (is' : e'.body.status = some status')
    (denies : status'.granting = false) (grants : status.granting = true) :
    (w.peers (key.1, e.providerEventId) key.2).any
      (isNewer D.dateParse (e.ms D) seq status) = true := by
  have other : e'.providerEventId ≠ e.providerEventId := by
    intro same
    rw [h.id e' mem' e mem same, is] at is'
    rw [Option.some.inj is', denies] at grants
    cases grants
  obtain ⟨seq', there⟩ := rows.peer h mem' processed other
  exact List.any_eq_true.mpr ⟨_, there, isNewer_of_tie tie grants is' denies⟩

theorem Logged.snapshot {E : Task → Bool} (h : SnapshotsOf key.2 events)
    (run : Relation.ReflTransGen (Commit D E) start w)
    (logged : Logged D key events start w) (mem : e ∈ events) {sub : NormalizedSubscription}
    {entry : CatalogEntry} (step : w.Snapshot D w' key e sub entry) :
    Logged D key events start w' := by
  obtain ⟨body, sid, priced, recorded, evidence, workspaceId, outcome, did⟩ := step
  have stamped : ∀ x ∈ events, w.Processed key.1 x →
      (w.stamp (key.1, e.providerEventId)).Processed key.1 x := fun x memx done =>
    (stamp_processed h mem memx recorded).mpr (.inl done)
  have done := World.applySubscription_cases did
  simp only [ms_of_recorded h logged.rows mem recorded, sid] at done
  rcases done with ⟨-, rfl, -⟩ | ⟨newest, -, written⟩
  · exact logged.congr (logged.rows.stamp _) stamped (by simp)
  · rcases World.writeSnapshot_cases written with ⟨-, rfl⟩ | ⟨rfl, ledger⟩
    · exact logged
    · obtain ⟨founding, affects⟩ := affects_writeSnapshot written
      have kept : ∀ x ∈ events, w.Processed key.1 x ∨ x = e → w'.Processed key.1 x := by
        intro x memx done
        rw [processed_congr ledger]
        exact (stamp_processed h mem memx recorded).mpr done
      refine ⟨(logged.rows.stamp _).congr ledger, ?_, ?_⟩ <;>
        rw [appliedSince_affects run affects]
      · intro a mema x memx same
        rcases List.mem_append.mp mema with mema | mema
        · exact kept x memx (.inl (logged.processed a mema x memx same))
        · obtain rfl := List.mem_singleton.mp mema
          exact kept x memx (.inr (h.id x memx e mem (Prod.mk.inj same).2.symm))
      · refine List.pairwise_append.mpr ⟨logged.respects, List.pairwise_singleton .., ?_⟩
        intro a mema b memb x memx y memy isx isy tie s s' iss iss' denies
        obtain rfl := List.mem_singleton.mp memb
        obtain rfl : e = y := h.id e mem y memy (Prod.mk.inj isy).2
        have status : sub.status = s' := by
          rw [body] at iss'
          exact Option.some.inj iss'
        by_contra grants
        rw [refused_of_denied h logged.rows memy memx (logged.processed a mema x memx isx) tie
          (by rw [iss', status]) iss denies (by simpa [status] using grants)] at newest
        cases newest

theorem Logged.commit (h : SnapshotsOf key.2 events)
    (run : Relation.ReflTransGen (Commit D (delivers key.1 events)) start w)
    (logged : Logged D key events start w) (step : Commit D (delivers key.1 events) w w') :
    Logged D key events start w' := by
  rcases commit_cases h step with ⟨ledger, -, applied⟩ | ⟨e, mem, rfl⟩ | ⟨e, mem, sub, entry, step⟩
  · exact logged.congr (logged.rows.congr ledger) (fun _ _ => (processed_congr ledger).mpr) applied
  · exact logged.congr (logged.rows.insert mem) (fun _ _ => processed_insertEvent.mpr) (by simp)
  · exact logged.snapshot h run mem step

end Log

/-! ## Every run -/

section Runs

variable {D : Deployment} {key : SubscriptionKey} {events : List BillingEvent} {w w' : World}

theorem World.Unrecorded.rows (h : w.Unrecorded key events) : w.RowsOf key events :=
  fun k row there provider => .inl (h k row there provider)

theorem settled_of_commits {at_ : BillingEvent → ℤ} (h : SnapshotsOf key.2 events)
    (timed : Timed D events at_) (start : Settled D key events at_ w)
    (run : Relation.ReflTransGen (Commit D (delivers key.1 events)) w w') :
    Settled D key events at_ w' := by
  induction run with
  | refl => exact start
  | tail _ step ih => exact ih.commit h timed step

theorem logged_of_commits (h : SnapshotsOf key.2 events) (start : Logged D key events w w)
    (run : Relation.ReflTransGen (Commit D (delivers key.1 events)) w w') :
    Logged D key events w w' := by
  induction run with
  | refl => exact start
  | tail run step ih => exact ih.commit h run step

/-- Once all events are processed the row shows the one of the greatest time, in whatever order
they came; and no granting event is applied after a denying one of its own time. -/
theorem snapshots_order_independent (h : SnapshotsOf key.2 events) (start : w.Unrecorded key events)
    (fresh : ∀ s, w.db.subscription key = some s →
      s.status ≠ .canceled ∧ s.scheduled = none ∧ s.localVerdict = false)
    {c : Config (billing D (delivers key.1 events))} (run : Reaches (Config.idle w) c) :
    (∀ at_, Timed D events at_ → (∀ e ∈ events, c.world.Processed key.1 e) →
      ∀ m ∈ events, (∀ e ∈ events, at_ e ≤ at_ m) →
        ∃ s, c.world.db.subscription key = some s ∧ Shows D key.1 m s) ∧
    (c.world.appliedSince w).Pairwise (Respects D key.1 events) := by
  have commits := commits_of_runWhere .refl run
  constructor
  · intro at_ timed done m mem last
    have untouched : ∀ e ∈ events, ¬ w.Processed key.1 e := fun e mem ⟨row, there, _⟩ =>
      ((start _ row there rfl).2 e mem).1 rfl
    have settled := settled_of_commits h timed ⟨start.rows, fun s found => (fresh s found).2,
      .inl ⟨untouched, fun s found => (fresh s found).1⟩⟩ commits
    rcases settled.latest with ⟨untouched, -⟩ | ⟨x, memx, -, lastx, s, found, shows⟩
    · exact absurd (done m mem) (untouched m mem)
    · have same := timed.distinct x memx m mem (le_antisymm (last x memx) (lastx m mem (done m mem)))
      exact ⟨s, found, same ▸ shows⟩
  · have none : w.appliedSince w = [] := List.drop_eq_nil_of_le le_rfl
    have logged : Logged D key events w w :=
      ⟨start.rows, by simp [none], by rw [none]; exact .nil⟩
    exact (logged_of_commits h logged commits).respects

end Runs

/-- The provider reports a status at the time of `time`. -/
def statusEvent (id time : String) (status : SubscriptionStatus) : BillingEvent :=
  ⟨id, "subscription.updated", some time, .subscription
    ⟨"sub", none, "pri", status, some 20, false, none, some "w", none, none⟩ none⟩

/-- The pause comes before what it follows, and comes again. -/
theorem snapshots_order_independent_paused :
    ∃ c : Config (billing oneprice (delivers .paddle
      [statusEvent "a" "t" .active, statusEvent "b" "tt" .paused])),
      ∃ s, c.world.db.subscription (.paddle, "sub") = some s ∧ s.status = .paused := by
  let events := [statusEvent "a" "t" .active, statusEvent "b" "tt" .paused]
  let key : SubscriptionKey := (.paddle, "sub")
  let start : Config (billing oneprice (delivers key.1 events)) := .idle paidWorld
  have run : (start.run (delivery 0 (statusEvent "b" "tt" .paused) 6 ++
      delivery 0 (statusEvent "a" "t" .active) 6 ++
      delivery 0 (statusEvent "b" "tt" .paused) 2)).any (fun c => decide (∀ e ∈ events,
        (c.world.events.get (.paddle, e.providerEventId)).any (·.processed) = true)) = true := by
    decide
  obtain ⟨c, reached, done⟩ := exists_reaches run
  have timed : Timed oneprice events fun e => (e.ms oneprice).getD 0 :=
    ⟨by decide, by decide, by decide⟩
  have snapshots : SnapshotsOf key.2 events := ⟨by simp [events, statusEvent, key], by decide⟩
  have all : ∀ e ∈ events, c.world.Processed .paddle e := fun e mem =>
    (Option.any_eq_true _ _).mp (of_decide_eq_true done e mem)
  obtain ⟨s, found, sub, entry, body, -, status, -⟩ := (snapshots_order_independent
    snapshots (fun _ _ there => by cases there)
    (by decide) reached).1 _ timed all (statusEvent "b" "tt" .paused) (by decide) (by decide)
  cases body
  exact ⟨c, s, found, status⟩

end DeclutrMail.Billing
