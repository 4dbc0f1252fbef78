import DeclutrMail.Sync.Replaying

/-!
# The mirror converges

A run that finishes has brought the mirror to the records of its listing, and the cursor with it. If
Gmail has not changed since the first page, no record is left after the cursor, so the mirror agrees
with Gmail wherever the worker mirrors at all. The cursor never goes back.
-/

namespace DeclutrMail.Sync.Mirroring

open Batches Interleaving Replication

variable {w w' : World} {t : ℕ} {id : MessageId}

/-! ### The event loop -/

section EventLoop

variable {c h : HistoryId}

/-! ### The event loop -/

/-- An added message that is not stored: the mirror has it already, or Gmail has it no more, or it
is excluded. -/
theorem Applies.skip {labelIds : List Label} {todo : List GmailHistoryRecord}
    (a : Applies c h (.added id labelIds :: todo) (fun _ => .added id labelIds :: todo) w)
    (known : w.mirror id = none →
      w.excluded id ∨ Replication.LagsAt id (w.pending h) none (w.contents id)) :
    Applies c h todo (fun _ => todo) w := by
  have first : Applies c h ([.added id labelIds] ++ todo) (fun _ => .added id labelIds :: todo) w := a
  refine first.leave fun x => ?_
  rcases a.lags x with lags | excluded
  · by_cases out : x = id ∧ w.mirror id = none ∧ w.excluded id
    · obtain ⟨rfl, absent, excluded⟩ := out
      exact .inr ⟨absent, excluded⟩
    · refine .inl (lags.drop_created fun same missing => ?_)
      subst same
      have absent : w.mirror x = none := by simpa [World.copy] using missing
      rcases known absent with excluded | gone
      · exact absurd ⟨rfl, absent, excluded⟩ out
      · exact gone.mono (List.subset_append_right _ _)
  · exact .inr excluded

/-- An added message that is stored as it was fetched. -/
theorem Applies.store {labelIds : List Label} {todo : List GmailHistoryRecord}
    {md : GmailMessageMetadata}
    (a : Applies c h (.added id labelIds :: todo) (fun _ => .added id labelIds :: todo) w)
    (held : w.lock = some t) (fetched : Fetched t h id (some md) w) :
    Moves t w (w.upsert md) ∧ Applies c h todo (fun _ => todo) (w.upsert md) := by
  obtain ⟨-, names, right⟩ := fetched
  obtain rfl := (names md rfl).1
  have fresh : Replication.LagsAt md.id (w.pending h) (some md.labelIds.toFinset)
      (w.contents md.id) := by
    rcases right with ⟨impossible, -⟩ | lags
    · simp at impossible
    · exact lags
  suffices written : Moves t w (w.upsert md) ∧ Applies c h (.added md.id labelIds :: todo)
      (fun _ => .added md.id labelIds :: todo) (w.upsert md) by
    refine ⟨written.1, written.2.skip fun absent => ?_⟩
    simp [World.upsert, World.setMirror] at absent
  refine a.write held (fun _ => List.Subset.refl _) fun x => ?_
  by_cases same : x = md.id
  · subst same
    refine .inl ?_
    have copy : (w.setMirror (Function.update w.mirror md.id
        (some ⟨md.labelIds, decide ("UNREAD" ∈ md.labelIds)⟩))).copy md.id =
          some md.labelIds.toFinset := by simp [World.copy, World.setMirror]
    rw [copy]
    exact fresh.mono (List.subset_append_right _ _)
  · have kept : (w.setMirror (Function.update w.mirror md.id
        (some ⟨md.labelIds, decide ("UNREAD" ∈ md.labelIds)⟩))).mirror x = w.mirror x := by
      simp [World.setMirror, same]
    have lags := a.lags x
    rw [World.LagsAt, World.copy, kept]
    exact lags

theorem holding_store {labelIds : List Label} {todo : List GmailHistoryRecord}
    (v : Option GmailMessageMetadata) :
    Holding ((Left t c h (.added id labelIds :: todo)).and (Fetched t h id v).held) (store v)
      fun _ => Left t c h todo := by
  cases v with
  | none =>
    refine .done fun w _ ⟨a, fetched⟩ => a.skip fun _ => ?_
    exact fetched.2.2.imp And.right fun lags => lags
  | some md =>
    unfold store
    dsimp only
    split_ifs with nonMail
    · exact .done fun w _ ⟨a, fetched⟩ => a.skip fun _ => .inl ((fetched.2.1 md rfl).2 nonMail)
    · exact .ask ⟨by simp, by simp⟩ (fun _ _ => ⟨rfl, rfl⟩) fun w _ held ⟨a, fetched⟩ _ =>
        a.store held fetched


variable {metadata : Metadata} {labelIds : List Label} {events : List GmailHistoryRecord}

/-- What a run knows while these records are left. -/
abbrev Onward (t : ℕ) (c h : HistoryId) (metadata : Metadata) (todo : List GmailHistoryRecord) :
    Held t := (Left t c h todo).and (AllFetched t h metadata).held

theorem holding_metadataOf {F : Held t} (id : MessageId) (refused : List MessageId) :
    Holding (F.and (AllFetched t h metadata).held) (metadataOf metadata id refused)
      fun r => (F.and (AllFetched t h metadata).held).and (Fetched t h id r.1).held := by
  unfold metadataOf
  cases there : metadata.get id with
  | some v => exact .done fun w _ hw => ⟨hw, hw.2.2 id v there⟩
  | none =>
    exact holding_getMessageMetadata (F := F.and (AllFetched t h metadata).held)
      (fun w hw => hw.2.1) id refused

/-- The listing is part of Gmail's history. -/
theorem Applies.mem_history {all : List GmailHistoryRecord}
    {todo : MessageId → List GmailHistoryRecord} (a : Applies c h all todo w)
    {record : GmailHistoryRecord} (mem : record ∈ all) : record ∈ w.history.map Prod.snd := by
  obtain ⟨done, split⟩ := a.split
  have after : record ∈ w.after c := by
    rw [split]
    exact List.mem_append_left _ (List.mem_append_right _ mem)
  obtain ⟨entry, kept, rfl⟩ := List.mem_map.mp after
  exact List.mem_map_of_mem (List.mem_filter.mp kept).1

theorem holding_handleAdded (loop : Loop) :
    Holding (Onward t c h metadata (.added id labelIds :: events))
      (handleAdded metadata loop id labelIds)
      fun loop' => (Assertion.fact (loop'.labelRun = loop.labelRun ∧
        loop'.deleteRun = loop.deleteRun)).and (Onward t c h metadata events) := by
  unfold handleAdded
  split_ifs with nonMail
  · refine .done fun w _ ⟨a, fetched⟩ => ⟨⟨rfl, rfl⟩, a.skip fun _ => .inl (.inr ?_), fetched⟩
    exact ⟨labelIds, a.mem_history List.mem_cons_self, nonMail⟩
  · refine Holding.bind (holding_metadataOf id loop.refused) fun r => ?_
    refine Holding.bind (B := fun _ => Onward t c h metadata events) ?_ fun _ => ?_
    · exact (holding_store r.1).frame.pre fun w _ ⟨⟨a, fetched⟩, one⟩ => ⟨⟨a, one⟩, fetched⟩
    · exact .done fun w _ hw => ⟨⟨rfl, rfl⟩, hw⟩

/-- The records that the runs have collected. -/
def Loop.left (loop : Loop) : List GmailHistoryRecord :=
  loop.labelRun.map .labels ++ loop.deleteRun.map .deleted

theorem holding_flushLabelRun (loop : Loop) :
    Holding (Onward t c h metadata (loop.left ++ events)) (flushLabelRun loop)
      fun loop' => (Assertion.fact (loop' = { loop with labelRun := [] })).and
        (Onward t c h metadata (loop'.left ++ events)) := by
  refine Holding.bind (B := fun _ => Onward t c h metadata
    (loop.deleteRun.map .deleted ++ events)) ?_ fun _ => .done fun w _ hw => ⟨rfl, hw⟩
  have applied : Holding
      (Left t c h (loop.labelRun.map .labels ++ (loop.deleteRun.map .deleted ++ events)))
      (applyLabelRun loop.labelRun) fun _ => Left t c h (loop.deleteRun.map .deleted ++ events) :=
    holding_applyLabelRun loop.labelRun
  rw [← List.append_assoc] at applied
  exact applied.frame

/-- At most one of the two runs has been collected. -/
theorem holding_flushDeleteRun {loop : Loop} (one : loop.labelRun = [] ∨ loop.deleteRun = []) :
    Holding (Onward t c h metadata (loop.left ++ events)) (flushDeleteRun loop)
      fun loop' => (Assertion.fact (loop' = { loop with deleteRun := [] })).and
        (Onward t c h metadata (loop'.left ++ events)) := by
  refine Holding.bind (B := fun _ => Onward t c h metadata
    (loop.labelRun.map .labels ++ events)) ?_ fun _ => .done fun w _ hw => ⟨rfl, ?_⟩
  · rcases one with none | none
    · have applied : Holding (Left t c h (loop.deleteRun.map .deleted ++ events))
          (applyDeleteRun loop.deleteRun) fun _ => Left t c h events :=
        holding_applyDeleteRun loop.deleteRun
      simpa [Loop.left, none] using applied.frame
    · have still : applyDeleteRun loop.deleteRun = .ret () := by rw [none]; rfl
      rw [still]
      exact .done fun w _ hw => by simpa [Loop.left, none] using hw
  · simpa [Loop.left] using hw

/-- Where the event loop stands between two turns. -/
def Between (t : ℕ) (c h : HistoryId) (metadata : Metadata) (loop : Loop)
    (events : List GmailHistoryRecord) : Held t :=
  (Assertion.fact (loop.labelRun = [] ∨ loop.deleteRun = [])).and
    (Onward t c h metadata (loop.left ++ events))

theorem holding_turn (loop : Loop) (ev : GmailHistoryRecord) :
    Holding (Between t c h metadata loop (ev :: events)) (turn metadata loop ev)
      fun loop' => Between t c h metadata loop' events := by
  refine .of_fact fun one => ?_
  cases ev with
  | added id labelIds =>
    refine Holding.bind (holding_flushLabelRun loop) fun loop' => .of_fact ?_
    rintro rfl
    refine Holding.bind (holding_flushDeleteRun (.inl rfl)) fun loop' => .of_fact ?_
    rintro rfl
    refine (holding_handleAdded _).consequence (fun w hw => hw) (fun loop' w hw => ?_)
      fun _ _ hw => hw
    obtain ⟨inv, held, ⟨labels, deletes⟩, onward⟩ := hw
    exact ⟨inv, held, .inl labels, by simpa [Loop.left, labels, deletes] using onward⟩
  | deleted id =>
    refine Holding.bind (holding_flushLabelRun loop) fun loop' => .of_fact ?_
    rintro rfl
    exact .done fun w _ hw => ⟨.inl rfl, by simpa [Loop.left] using hw⟩
  | labels record =>
    refine Holding.bind (holding_flushDeleteRun one) fun loop' => .of_fact ?_
    rintro rfl
    exact .done fun w _ hw => ⟨.inr rfl, by simpa [Loop.left] using hw⟩

theorem holding_turns (loop : Loop) (events : List GmailHistoryRecord) :
    Holding (Between t c h metadata loop events) (turns metadata loop events)
      fun loop' => Between t c h metadata loop' [] := by
  induction events generalizing loop with
  | nil => exact .done fun w _ hw => hw
  | cons ev events ih => exact Holding.bind (holding_turn loop ev) fun loop' => ih loop'

theorem holding_eventLoop (refused : List MessageId) (events : List GmailHistoryRecord) :
    Holding (Onward t c h metadata events) (eventLoop metadata refused events)
      fun _ => Left t c h [] := by
  refine Holding.bind ((holding_turns (.start refused) events).pre fun w _ hw => ⟨.inl rfl, hw⟩)
    fun loop => .of_fact fun one => ?_
  refine Holding.bind (holding_flushLabelRun loop) fun loop' => .of_fact ?_
  rintro rfl
  refine (holding_flushDeleteRun (.inl rfl)).consequence (fun w hw => hw) (fun loop' w hw => ?_)
    fun _ _ hw => hw
  obtain ⟨inv, held, rfl, left, -⟩ := hw
  exact ⟨inv, held, left⟩

end EventLoop

/-! ### The section under the lock -/

section Guarded

variable {c h : HistoryId}

theorem World.cursor_advance (w : World) (h : HistoryId) :
    (w.advance h).cursor = w.cursor ∧ h ≤ w.cursor ∨ (w.advance h).cursor = h ∧ w.cursor ≤ h := by
  unfold World.cursor World.advance
  cases stored : w.lastHistoryId with
  | none => exact .inr ⟨rfl, Nat.zero_le h⟩
  | some c =>
    by_cases behind : c < h
    · exact .inr ⟨by simp [behind], behind.le⟩
    · exact .inl ⟨by simp [behind], not_lt.mp behind⟩

theorem atMost_advance (w : World) (h : HistoryId) : AtMost t h (w.advance h) := by
  rcases w.cursor_advance h with ⟨kept, le⟩ | ⟨moved, -⟩
  · exact le.trans kept.ge
  · exact moved.ge

/-- The cursor moves past records that have all been applied. -/
theorem moves_advance (held : w.lock = some t) (a : Applies c h [] (fun _ => []) w) :
    Moves t w (w.advance h) where
  inv inv := by
    rcases w.cursor_advance h with ⟨kept, -⟩ | ⟨moved, le⟩
    · refine ⟨inv.ordered, inv.bounded, inv.history, ?_, ?_, ?_, inv.paged⟩
      · rw [kept]
        exact inv.lags
      · rw [kept]
        exact inv.queued
      · rw [kept]
        exact inv.reached
    · refine ⟨inv.ordered, inv.bounded, inv.history, ?_, ?_, ?_, inv.paged⟩
      · rw [moved]
        exact a.lags
      · rw [moved]
        exact fun cursor queued => (inv.queued cursor queued).trans le
      · rw [moved]
        exact a.known
  history := rfl
  messages := rfl
  historyId := rfl
  passed := List.Subset.refl _
  cursor c stored := by
    by_cases behind : c < h
    · exact ⟨h, by simp [World.advance, Option.mem_def.mp stored, behind], behind.le⟩
    · exact ⟨c, by simp [World.advance, Option.mem_def.mp stored, behind], Nat.le_refl c⟩
  page _ _ := rfl
  mine := .inl
  others other := absurd held other

/-- What a run that ends knows. -/
def Done (t : ℕ) : Outcome → Fact t
  | .skipped => ⟨fun w => w.firstPage t = none, fun _ _ h r => r.page.trans h⟩
  | .cursorTooOld _ => .fact False
  | .finished advancedToHistoryId =>
    (AtMost t advancedToHistoryId).and (Caught t advancedToHistoryId)

theorem holding_conclude (listing : Listing) :
    Holding ((Left t c listing.lastPageHistoryId []).and
        (Caught t listing.lastPageHistoryId).held)
      (conclude listing) fun outcome => (Done t outcome).held := by
  have noted : ∀ {F : Held t}, Holding F (ask .statement) fun _ => F :=
    Holding.look ⟨by simp, by simp⟩ fun _ _ => rfl
  refine Holding.bind (Triple.when (fun _ => noted) fun _ w hw => hw) fun _ => ?_
  refine Holding.bind (B := fun _ => (Done t (.finished listing.lastPageHistoryId)).held) ?_
    fun _ => ?_
  · refine .ask ⟨by simp, by simp⟩ (fun _ _ => ⟨rfl, rfl⟩) fun w inv held ⟨a, caught⟩ _ => ?_
    have moves := moves_advance held a
    exact ⟨moves, atMost_advance w _, (Caught t _).stable caught (moves.weak rfl)⟩
  · refine Holding.bind noted fun _ => Holding.bind noted fun _ => Holding.bind noted fun _ => ?_
    exact .done fun w _ hw => hw

theorem holding_applyPass (listing : Listing) (p : Prefetch) (refusedBefore : List MessageId) :
    Holding ((AllFetched t listing.lastPageHistoryId p.metadata).held.and
        ((Left t c listing.lastPageHistoryId listing.events).and
          (Caught t listing.lastPageHistoryId).held))
      (applyPass listing p refusedBefore) fun outcome => (Done t outcome).held := by
  refine Holding.bind (holding_refreshIfChanged listing.events p.historyId p.metadata)
    fun metadata => ?_
  refine Holding.bind ((holding_eventLoop p.refused listing.events).frame.pre
    fun w _ ⟨fetched, left, caught⟩ => ⟨⟨left, fetched⟩, caught⟩) fun loop => ?_
  dsimp only
  split_ifs
  · exact .failed
  · exact holding_conclude listing

/-- What the section gives back. -/
def Settled (t : ℕ) : Guarded → Fact t
  | .finished outcome => Done t outcome
  | .retry cursor => AtMost t cursor

/-- The cursor has not moved since the listing, so the listing is what is left. -/
theorem Applies.of_listed {events : List GmailHistoryRecord} (inv : w.Inv)
    (listed : ListedFrom t c h events w) (unmoved : w.cursor ≤ c) :
    Applies c h events (fun _ => events) w := by
  obtain ⟨start, le, known, split⟩ := listed
  have cursor : w.cursor = c := Nat.le_antisymm unmoved start
  refine ⟨cursor, le, known, ⟨[], by simpa using split⟩, fun _ => List.Subset.refl _, fun id => ?_⟩
  have lags := inv.lags id
  rwa [cursor, World.pending, split, List.map_append] at lags

/-- What a run knows when it asks for the lock. -/
def Ready (t : ℕ) (listing : Listing) (snapshotCursor : HistoryId) (metadata : Metadata) : Fact t :=
  (AllFetched t listing.lastPageHistoryId metadata).and (Paged t snapshotCursor (some listing))

theorem holding_guardedSection (listing : Listing) (snapshotCursor : HistoryId) (p : Prefetch)
    (refusedBefore : List MessageId) :
    Holding (Ready t listing snapshotCursor p.metadata).held
      (guardedSection listing snapshotCursor p refusedBefore) fun r => (Settled t r).held := by
  let stored (answer : Option HistoryId) : Held t :=
    ⟨fun w => w.lastHistoryId = answer, fun _ _ h r => r.stored.trans h⟩
  refine Holding.bind (B := fun answer => (stored answer).and
    (Ready t listing snapshotCursor p.metadata).held) ?_ fun currentCursor => ?_
  · exact .ask ⟨by simp, by simp⟩ (fun _ _ => ⟨rfl, rfl⟩)
      fun w _ _ hw _ => ⟨.same t w, rfl, hw⟩
  · split_ifs with moved
    · refine .done fun w _ ⟨read, _⟩ => ?_
      have cursor : w.cursor = currentCursor.getD 0 := congrArg (Option.getD · 0) read
      exact cursor.ge
    · refine Holding.bind (B := fun outcome => (Done t outcome).held) ?_ fun outcome =>
        .done fun w _ hw => hw
      refine (holding_applyPass (c := snapshotCursor) listing p refusedBefore).pre
        fun w inv ⟨read, fetched, listed, caught⟩ => ⟨fetched, .of_listed inv listed ?_, caught⟩
      have cursor : w.cursor = currentCursor.getD 0 := congrArg (Option.getD · 0) read
      rw [cursor]
      cases currentCursor with
      | none => exact Nat.zero_le _
      | some current => simpa using moved

end Guarded

/-! ### The job -/

section Jobs

theorem moves_acquire (free : w.lock = none) : Moves t w (w.setLock (some t)) where
  inv inv := ⟨inv.ordered, inv.bounded, inv.history, inv.lags, inv.queued, inv.reached, inv.paged⟩
  history := rfl
  messages := rfl
  historyId := rfl
  passed := List.Subset.refl _
  cursor c stored := ⟨c, stored, Nat.le_refl c⟩
  page _ _ := rfl
  mine held := by simp [free] at held
  others _ := ⟨rfl, rfl, .inr ⟨free, rfl⟩⟩

theorem moves_release (held : w.lock = some t) : Moves t w (w.setLock none) where
  inv inv := ⟨inv.ordered, inv.bounded, inv.history, inv.lags, inv.queued, inv.reached, inv.paged⟩
  history := rfl
  messages := rfl
  historyId := rfl
  passed := List.Subset.refl _
  cursor c stored := ⟨c, stored, Nat.le_refl c⟩
  page _ _ := rfl
  mine _ := .inr rfl
  others other := absurd held other

theorem answer_acquire {c : Choice} {r} (answered : answer t .acquire c w = some (r, w')) :
    (w.lock = none ∧ r = .ok () ∧ w' = w.setLock (some t)) ∨ ∃ e, r = .error e ∧ w' = w := by
  cases c with
  | go f =>
    by_cases idle : w.lock = none
    · have taken := Prod.mk.inj (Option.some.inj ((if_pos idle).symm.trans answered))
      exact .inl ⟨idle, taken.1.symm, taken.2.symm⟩
    · exact absurd ((if_neg idle).symm.trans answered) (by simp)
  | lost | fail =>
    have failed := Prod.mk.inj (Option.some.inj answered)
    exact .inr ⟨_, failed.1.symm, failed.2.symm⟩

/-- Whatever becomes of the statement, the lock is free afterwards. -/
theorem answer_release {c : Choice} {r} (answered : answer t .release c w = some (r, w')) :
    w' = w.setLock none := by
  cases c <;> exact (Prod.mk.inj (Option.some.inj answered)).2.symm

theorem triple_acquire (F : Fact t) :
    @Triple MirrorSignature mirroring Rely t Unit Moves (outside t F) (ask .acquire)
      (fun _ => holding t F.held) fun _ => outside t (nothing t) := by
  refine Interleaving.Triple.perform fun w ⟨inv, free, hw⟩ c r w' answered => ?_
  rcases answer_acquire answered with ⟨idle, rfl, taken⟩ | ⟨e, rfl, same⟩
  · rw [taken]
    have moves := moves_acquire (t := t) idle
    exact ⟨moves, moves.inv inv, rfl, F.stable hw (moves.weak rfl)⟩
  · rw [same]
    exact ⟨.same t w, inv, free, trivial⟩

theorem triple_release (F : Fact t) :
    @Triple MirrorSignature mirroring Rely t Unit Moves (holding t F.held) (ask .release)
      (fun _ => outside t F) fun _ => outside t (nothing t) := by
  refine Interleaving.Triple.perform fun w ⟨inv, held, hw⟩ c r w' answered => ?_
  have moves := moves_release held
  rw [answer_release answered]
  refine ⟨moves, ?_⟩
  cases r with
  | ok a => exact ⟨moves.inv inv, by simp [World.setLock], F.stable hw (moves.weak rfl)⟩
  | error e => exact ⟨moves.inv inv, by simp [World.setLock], trivial⟩

theorem outside_locked {α : Type} {F : Fact t} {body : MirrorProgram α} {B : α → Fact t}
    (h : Holding F.held body fun a => (B a).held) : Outside F (locked body) B := by
  refine Triple.bind (triple_acquire F) fun _ => ?_
  exact Triple.ensure (Triple.weaken (fun steps => steps.moves) h) (fun a => triple_release (B a))
    fun _ => triple_release (nothing t)

theorem outside_restarts (fuel left : ℕ) (listing : Listing) (snapshotCursor : HistoryId)
    (refused : List MessageId) :
    Outside (Paged t snapshotCursor (some listing))
      (restarts fuel left listing snapshotCursor refused) (Done t) := by
  induction left generalizing listing snapshotCursor refused with
  | zero => exact .failed
  | succ left ih =>
    refine Outside.bind (B := fun _ => Paged t snapshotCursor (some listing)) ?_ fun _ => ?_
    · exact Triple.when (fun _ => Outside.look ⟨by simp, by simp⟩ fun _ _ => rfl) fun _ w hw => hw
    · have known : ∀ w, Paged t snapshotCursor (some listing) w →
          listing.lastPageHistoryId ≤ w.historyId := fun w hw => hw.1.2.2.1
      refine Outside.bind (outside_prefetch known listing.events refused) fun p => ?_
      refine Outside.bind (outside_locked
        (holding_guardedSection listing snapshotCursor p refused)) fun r => ?_
      cases r with
      | finished outcome => exact .done fun w _ hw => hw
      | retry cursor =>
        refine Outside.bind (outside_pageHistoryFrom fuel cursor) fun refetched => ?_
        cases refetched with
        | none => exact .done fun w _ impossible => impossible.elim
        | some refetched => exact ih refetched cursor p.refused

/-- A job that begins. -/
def Fresh (t : ℕ) (startHistoryId : HistoryId) : Fact t :=
  (AtMost t startHistoryId).and ⟨fun w => w.firstPage t = none, fun _ _ h r => r.page.trans h⟩

theorem startCursor_le {startHistoryId : HistoryId} (start : startHistoryId ≤ w.cursor) :
    startCursor startHistoryId w.lastHistoryId ≤ w.cursor := by
  unfold startCursor
  split_ifs
  · exact Nat.le_refl _
  · exact start

theorem outside_processJob (fuel : ℕ) (startHistoryId : HistoryId) :
    Outside (Fresh t startHistoryId) (processJob fuel startHistoryId) (Done t) := by
  refine Outside.bind (.look ⟨by simp, by simp⟩ fun _ _ => rfl) fun admitted => ?_
  cases admitted with
  | false => exact .done fun w _ hw => hw.2
  | true =>
    refine Outside.bind (B := fun stored => AtMost t (startCursor startHistoryId stored)) ?_
      fun storedCursor => ?_
    · exact .ask ⟨by simp, by simp⟩ (fun w _ => .same t w) (fun _ _ => rfl)
        fun w _ hw _ => startCursor_le hw.1
    · refine Outside.bind (outside_pageHistoryFrom fuel _) fun firstPass => ?_
      cases firstPass with
      | none => exact .done fun w _ impossible => impossible.elim
      | some firstPass => exact outside_restarts fuel maxPasses firstPass _ []

end Jobs

/-! ## The system -/

/-- Gmail moves on; the worker's own state stays. -/
theorem rely_of_drifts (drifts : Drifts w w') (inv : w.Inv → w'.Inv) (passed : w'.passedOver = w.passedOver)
    (mirror : w'.mirror = w.mirror) (stored : w'.lastHistoryId = w.lastHistoryId)
    (page : w'.firstPage = w.firstPage) (lock : w'.lock = w.lock) : Rely t w w' := by
  have weak : Weak t w w' := by
    refine ⟨drifts, passed ▸ List.Subset.refl _, fun c there => ⟨c, ?_, Nat.le_refl c⟩, by rw [page]⟩
    rwa [stored]
  exact ⟨weak, inv, fun mine => ⟨lock ▸ mine, weak, mirror, stored⟩, fun free => lock ▸ free⟩

theorem World.Inv.change (inv : w.Inv) {historyId : HistoryId} {record : GmailHistoryRecord}
    (later : w.historyId < historyId) (can : possible w record = true)
    (history : w'.history = w.history ++ [(historyId, record)])
    (messages : w'.messages = Mirroring.change w.messages record) (known : w'.historyId = historyId)
    (passed : w'.passedOver = w.passedOver) (mirror : w'.mirror = w.mirror)
    (stored : w'.lastHistoryId = w.lastHistoryId) (queue : w'.queue = w.queue)
    (page : w'.firstPage = w.firstPage) : w'.Inv := by
  have drifts : Drifts w w' := .change record can (known ▸ later) (known ▸ history) messages
  have cursor : w'.cursor = w.cursor := congrArg (Option.getD · 0) stored
  have log : w'.log = w.log ++ [recordOf record] := by simp [World.log, history]
  have contents : w'.contents = (recordOf record).apply w.contents := by
    rw [← contents_change, ← messages]
    rfl
  refine ⟨?_, ?_, ?_, fun id => ?_, ?_, ?_, fun t s first => ?_⟩
  · rw [history]
    refine List.pairwise_append.mpr ⟨inv.ordered, List.pairwise_singleton _ _, ?_⟩
    intro entry mem last there
    rw [List.mem_singleton.mp there]
    exact (inv.bounded entry mem).trans_lt later
  · intro entry mem
    rw [history] at mem
    rcases List.mem_append.mp mem with old | new
    · exact (inv.bounded entry old).trans drifts.historyId
    · rw [List.mem_singleton.mp new, known]
  · rw [log, contents]
    exact inv.history.snoc (possible_recordOf can)
  · rw [cursor]
    refine (inv.lags id).imp (fun lags => ?_) fun lost =>
      ⟨mirror ▸ lost.1, excluded_mono drifts (passed ▸ List.Subset.refl _) lost.2⟩
    have copy : w'.copy id = w.copy id := by simp only [World.copy, mirror]
    rw [copy]
    exact drifts.lagsAt inv.reached [] (List.nil_subset _) lags
  · rw [queue, cursor]
    exact inv.queued
  · rw [cursor]
    exact inv.reached.trans drifts.historyId
  · rw [page] at first
    exact (inv.paged t s first).trans drifts.length

theorem disturb_inv (inv : w.Inv) {e : Event} (disturbed : disturb w e = some w') :
    w'.Inv ∧ ∀ t, Rely t w w' := by
  cases e with
  | change historyId record =>
    obtain ⟨⟨later, can⟩, moved⟩ := Option.ite_none_right_eq_some.mp disturbed
    obtain rfl := Option.some.inj moved
    have kept : w.Inv → ({ w with
        history := w.history ++ [(historyId, record)]
        historyId
        messages := change w.messages record } : World).Inv := fun inv =>
      inv.change later can rfl rfl rfl rfl rfl rfl rfl rfl
    exact ⟨kept inv, fun t => rely_of_drifts (.change record can later rfl rfl) kept rfl rfl rfl rfl
      rfl⟩
  | touch historyId =>
    obtain ⟨later, moved⟩ := Option.ite_none_right_eq_some.mp disturbed
    obtain rfl := Option.some.inj moved
    have kept : w.Inv → ({ w with historyId } : World).Inv := fun inv =>
      ⟨inv.ordered, fun entry mem => (inv.bounded entry mem).trans later, inv.history, inv.lags,
        inv.queued, inv.reached.trans later, inv.paged⟩
    exact ⟨kept inv, fun t => rely_of_drifts (.same rfl rfl later) kept rfl rfl rfl rfl rfl⟩
  | enqueue =>
    obtain rfl := Option.some.inj disturbed
    have kept : w.Inv → ({ w with queue := w.queue ++ w.lastHistoryId.toList } : World).Inv := by
      intro inv
      refine ⟨inv.ordered, inv.bounded, inv.history, inv.lags, fun c mem => ?_, inv.reached,
        inv.paged⟩
      rcases List.mem_append.mp mem with old | new
      · exact inv.queued c old
      · have stored : w.lastHistoryId = some c := by simpa using new
        simp [World.cursor, stored]
    exact ⟨kept inv, fun t => rely_of_drifts (.same rfl rfl (Nat.le_refl _)) kept rfl rfl rfl rfl
      rfl⟩

/-- What a run that has ended knows. -/
def Ended (t : ℕ) : Except JobError Outcome → World → Prop
  | .ok outcome, w => outside t (Done t outcome) w
  | .error _, w => outside t (nothing t) w

theorem moves_accept (t : ℕ) (w : World) :
    Moves t w { w with firstPage := Function.update w.firstPage t none } where
  inv inv := by
    refine ⟨inv.ordered, inv.bounded, inv.history, inv.lags, inv.queued, inv.reached, ?_⟩
    intro t' s first
    by_cases same : t' = t
    · simp [same] at first
    · exact inv.paged t' s (by simpa [same] using first)
  history := rfl
  messages := rfl
  historyId := rfl
  passed := List.Subset.refl _
  cursor c stored := ⟨c, stored, Nat.le_refl c⟩
  page t' ne := by simp [ne]
  mine := .inl
  others _ := ⟨rfl, rfl, .inl rfl⟩

/-- The session of a run that stops is closed. -/
theorem moves_crash (t : ℕ) (w : World) :
    Moves t w (if w.lock = some t then w.setLock none else w) ∧
      (if w.lock = some t then w.setLock none else w).lock ≠ some t := by
  split_ifs with held
  · exact ⟨moves_release held, by simp [World.setLock]⟩
  · exact ⟨.same t w, held⟩

theorem verified :
    Verified mirroring (fun _ _ => True) Rely Moves World.Inv (fun t w => w.lock ≠ some t) Ended where
  guarantee_rely ne _ moves := moves.rely ne
  guarantee_inv inv moves := moves.inv inv
  idle_stable _ _ _ free rely := rely.free free
  start {t k w w'} inv free accepted := by
    obtain ⟨queued, started⟩ := Option.ite_none_right_eq_some.mp accepted
    obtain rfl := Option.some.inj started
    have moves := moves_accept t w
    have fresh : Fresh t k.startHistoryId { w with firstPage := Function.update w.firstPage t none } :=
      ⟨inv.queued _ queued, Function.update_self ..⟩
    refine ⟨moves, (outside_processJob k.fuel k.startHistoryId _ ⟨moves.inv inv, free, fresh⟩).mono ?_⟩
    intro r v hv
    cases r <;> exact hv
  finish {t r w w'} inv ended settled := by
    obtain rfl := Option.some.inj settled
    refine ⟨.same t w, ?_⟩
    cases r <;> exact ended.2.1
  crash {t w w'} inv crashed := by
    obtain rfl := Option.some.inj crashed
    exact moves_crash t w
  disturb inv _ disturbed := disturb_inv inv disturbed

/-! ## Convergence -/

/-- The mirror is as Gmail is, where the worker mirrors at all. -/
def InSync (w : World) : Prop := ∀ id, ¬ w.excluded id → w.copy id = w.contents id

/-- Where a mailbox starts: the mirror has every message as Gmail has it, or passes it over, and the
records are those from here on. -/
structure Start (w : World) : Prop where
  mirrored : ∀ id, w.copy id = w.contents id ∨ w.mirror id = none ∧ id ∈ w.passedOver
  history : w.history = []
  reached : w.cursor ≤ w.historyId
  queue : w.queue = []
  lock : w.lock = none
  page : w.firstPage = fun _ => none

theorem Start.inv (start : Start w) : w.Inv := by
  have log : w.log = [] := by simp [World.log, start.history]
  refine ⟨by simp [start.history], by simp [start.history], log ▸ History.start _, fun id => ?_,
    by simp [start.queue], start.reached, by simp [start.page]⟩
  rcases start.mirrored id with same | ⟨absent, passed⟩
  · refine .inl ?_
    rw [same]
    exact .refl id _ _
  · exact .inr ⟨absent, .inl passed⟩

theorem inSync_of_drained (inv : w.Inv) (drained : w.after w.cursor = []) : InSync w := by
  intro id mirrored
  rcases inv.lags id with lags | ⟨-, excluded⟩
  · rw [World.pending, drained] at lags
    exact lags.eq_of_nil
  · exact absurd excluded mirrored

/-- A run that has ended and has seen all of Gmail's changes. -/
theorem Done.drained {outcome : Outcome} (done : Done t outcome w)
    (unchanged : w.firstPage t = some w.history.length) : w.after w.cursor = [] := by
  cases outcome with
  | skipped => simp [Option.some_ne_none, show w.firstPage t = none from done] at unchanged
  | cursorTooOld expired => exact done.elim
  | finished h =>
    obtain ⟨atMost, s, first, -, caught⟩ := done
    obtain rfl : s = w.history.length := Option.some.inj (first.symm.trans unchanged)
    rcases caught with ⟨-, nothing⟩ | changed
    · refine List.map_eq_nil_iff.mpr (List.filter_eq_nil_iff.mpr fun entry mem => ?_)
      have silent := List.filter_eq_nil_iff.mp (List.map_eq_nil_iff.mp nothing) entry mem
      have before : entry.1 ≤ h := by simpa using silent
      simpa using before.trans atMost
    · exact absurd changed (lt_irrefl _)

/-- No step takes the cursor back. -/
theorem cursor_step {c d : Config mirroring} {m : Move mirroring}
    (sound : c.Sound Rely Moves World.Inv (fun t w => w.lock ≠ some t) Ended)
    (taken : c.step m = some d) :
    ∀ h ∈ c.world.lastHistoryId, ∃ h' ∈ d.world.lastHistoryId, h ≤ h' := by
  obtain ⟨t, moves⟩ | ⟨e, -, disturbed⟩ := (verified.step_sound sound trivial taken).2
  · exact moves.cursor
  · exact ((disturb_inv sound.inv disturbed).2 0).cursor

theorem cursor_run {c d : Config mirroring}
    (sound : c.Sound Rely Moves World.Inv (fun t w => w.lock ≠ some t) Ended) (run : Reaches c d) :
    d.Sound Rely Moves World.Inv (fun t w => w.lock ≠ some t) Ended ∧
      ∀ h ∈ c.world.lastHistoryId, ∃ h' ∈ d.world.lastHistoryId, h ≤ h' := by
  induction run with
  | refl => exact ⟨sound, fun h stored => ⟨h, stored, Nat.le_refl h⟩⟩
  | step _ permitted taken ih =>
    obtain ⟨before, grown⟩ := ih
    refine ⟨(verified.step_sound before permitted taken).1, fun h stored => ?_⟩
    obtain ⟨h', there, le⟩ := grown h stored
    obtain ⟨last, now, later⟩ := cursor_step before taken h' there
    exact ⟨last, now, Nat.le_trans le later⟩

def sampleWorld : World where
  history := []
  historyId := 5
  messages := Function.update (fun _ => none) "old" (some ["INBOX"])
  mirror := Function.update (fun _ => none) "old" (some ⟨["INBOX"], false⟩)
  lastHistoryId := some 5
  lock := none
  queue := []
  passedOver := []
  firstPage := fun _ => none

theorem sampleWorld_start : Start sampleWorld where
  mirrored id := by
    refine .inl ?_
    by_cases old : id = "old" <;> simp [World.copy, World.contents, sampleWorld, old]
  history := rfl
  reached := Nat.le_refl 5
  queue := rfl
  lock := rfl
  page := rfl

/-- A message arrives and an older one is archived; a run whose answers all arrive. -/
def sampleMoves : List (Move mirroring) :=
  [.disturb .enqueue, .disturb (.change 7 (.added "new" ["INBOX", "UNREAD"])),
    .disturb (.change 8 (.labels ⟨.labelsRemoved, "old", ["INBOX"]⟩)), .start (0 : ℕ) ⟨5, 1⟩] ++
    List.replicate 15 (.reply (0 : ℕ) (.go ⟨none, false, true⟩))

/-- Run `t` has completed, and Gmail has not changed since its first page. -/
def settled (t : ℕ) (c : Config mirroring) : Bool :=
  match c.running t with
  | some (.ret _) => decide (c.world.firstPage t = some c.world.history.length)
  | _ => false

end DeclutrMail.Sync.Mirroring
