import DeclutrMail.Sync.Mirroring

/-!
# Replaying records over the mirror

Every difference between the mirror and Gmail is announced by a record after the stored cursor
(`World.Inv.lags`): a run that stops in the middle has only discharged some of these records, and one
that starts again replays them over what is there. When no record is left the two agree.

What a run reads before it has the lock is kept in terms of the history too: the metadata of a
message is as Gmail has it, up to the records after the listing (`Fetched`).
-/

namespace DeclutrMail.Sync.Mirroring

open Batches Interleaving Replication

/-! ## The history -/

theorem split_at {β : Type} {l : List (HistoryId × β)} (ordered : l.Pairwise (·.1 < ·.1))
    (h : HistoryId) :
    l = l.filter (fun e => decide (e.1 ≤ h)) ++ l.filter fun e => decide (h < e.1) := by
  induction ordered with
  | nil => rfl
  | @cons e l later _ ih =>
    by_cases past : h < e.1
    · have before : ¬ e.1 ≤ h := not_le.mpr past
      have nothing : l.filter (fun e => decide (e.1 ≤ h)) = [] :=
        List.filter_eq_nil_iff.mpr fun x mem => by simpa using past.trans (later x mem)
      rw [nothing, List.nil_append] at ih
      rw [List.filter_cons, List.filter_cons, if_neg (by simpa using past),
        if_pos (decide_eq_true past), nothing, ← ih]
      rfl
    · rw [List.filter_cons, List.filter_cons, if_pos (decide_eq_true (not_lt.mp past)),
        if_neg (by simpa using past), List.cons_append, ← ih]

theorem filter_split {β : Type} {l : List (HistoryId × β)} (ordered : l.Pairwise (·.1 < ·.1))
    {c h : HistoryId} (le : c ≤ h) :
    l.filter (fun e => decide (c < e.1)) =
      l.filter (fun e => decide (c < e.1 ∧ e.1 ≤ h)) ++ l.filter fun e => decide (h < e.1) := by
  conv_lhs => rw [split_at ordered h, List.filter_append, List.filter_filter, List.filter_filter]
  congr 1
  · exact List.filter_congr fun e _ => by simp
  · refine List.filter_congr fun e _ => ?_
    by_cases past : h < e.1
    · simp [past, le.trans_lt past]
    · simp [past]

namespace World

variable (w : World)

def log : List (Record MessageId Label) := w.history.map fun entry => recordOf entry.2

def contents : Contents MessageId Label := fun id => (w.messages id).map List.toFinset

def copy : Contents MessageId Label := fun id => (w.mirror id).map fun row => row.labelIds.toFinset

/-- What a copy that has seen the history up to here misses. -/
def pending (cursor : HistoryId) : List (Record MessageId Label) := (w.after cursor).map recordOf

theorem pending_subset (cursor : HistoryId) : w.pending cursor ⊆ w.log := by
  intro r mem
  obtain ⟨record, found, rfl⟩ := List.mem_map.mp mem
  obtain ⟨entry, kept, rfl⟩ := List.mem_map.mp found
  exact List.mem_map_of_mem (List.mem_filter.mp kept).1

/-- The mirror has the message as Gmail has it, up to the pending records, or it is excluded. -/
def LagsAt (id : MessageId) (pending : List (Record MessageId Label)) : Prop :=
  Replication.LagsAt id pending (w.copy id) (w.contents id) ∨ w.mirror id = none ∧ w.excluded id

structure Inv : Prop where
  ordered : w.history.Pairwise (·.1 < ·.1)
  bounded : ∀ entry ∈ w.history, entry.1 ≤ w.historyId
  history : History w.log w.contents
  lags : ∀ id, w.LagsAt id (w.pending w.cursor)
  queued : ∀ cursor ∈ w.queue, cursor ≤ w.cursor
  reached : w.cursor ≤ w.historyId
  paged : ∀ t s, w.firstPage t = some s → s ≤ w.history.length

end World

variable {w w' : World} {t : ℕ} {id : MessageId}

theorem World.Inv.after_split (inv : w.Inv) {c h : HistoryId} (le : c ≤ h) :
    w.after c = w.between c h ++ w.after h := by
  rw [World.after, filter_split inv.ordered le, List.map_append]
  rfl

/-- The log ends with the pending records. -/
theorem World.Inv.log_split (inv : w.Inv) (c : HistoryId) : ∃ before, w.log = before ++ w.pending c := by
  refine ⟨(w.history.filter fun e => decide (e.1 ≤ c)).map fun e => recordOf e.2, ?_⟩
  conv_lhs => rw [World.log, split_at inv.ordered c, List.map_append]
  simp [World.pending, World.after]

theorem World.Inv.after_reached (inv : w.Inv) : w.after w.historyId = [] := by
  rw [World.after, List.map_eq_nil_iff, List.filter_eq_nil_iff]
  intro entry mem
  simpa using inv.bounded entry mem

theorem contents_change (w : World) (record : GmailHistoryRecord) :
    (fun id => (change w.messages record id).map List.toFinset) =
      (recordOf record).apply w.contents := by
  funext id
  cases record with
  | added id' labelIds =>
    by_cases same : id = id' <;> simp [change, recordOf, Record.apply, World.contents, same]
  | deleted id' =>
    by_cases same : id = id' <;> simp [change, recordOf, Record.apply, World.contents, same]
  | labels r =>
    by_cases same : id = r.messageId
    · subst same
      cases there : w.messages r.messageId with
      | none => simp [change, recordOf, Record.apply, World.contents, there]
      | some labels =>
        have sets : (relabelled r labels).toFinset = r.edit.apply labels.toFinset := by
          ext label
          cases kind : r.kind <;>
            simp [relabelled, kind, LabelHistoryRecord.edit, SetEdit.apply]; tauto
        simpa [change, recordOf, Record.apply, World.contents, there] using sets
    · simp [change, recordOf, Record.apply, World.contents, same]

theorem possible_recordOf {record : GmailHistoryRecord} (can : possible w record = true) :
    (recordOf record).Possible w.log w.contents := by
  cases record with
  | added id labelIds =>
    simp only [possible, Bool.and_eq_true, Option.isNone_iff_eq_none, List.all_eq_true,
      decide_eq_true_eq] at can
    refine ⟨by simp [World.contents, can.1], fun r mem => ?_⟩
    obtain ⟨entry, found, rfl⟩ := List.mem_map.mp mem
    exact can.2 entry found
  | deleted id => simpa [possible, recordOf, Record.Possible, World.contents] using can
  | labels r => simpa [possible, recordOf, Record.Possible, World.contents] using can

/-! ## What the others do -/

/-- Gmail is as it was, or has made one change. -/
inductive Drifts (w w' : World) : Prop where
  | same (history : w'.history = w.history) (messages : w'.messages = w.messages)
      (later : w.historyId ≤ w'.historyId)
  | change (record : GmailHistoryRecord) (can : possible w record = true)
      (later : w.historyId < w'.historyId)
      (history : w'.history = w.history ++ [(w'.historyId, record)])
      (messages : w'.messages = change w.messages record)

namespace Drifts

theorem historyId (h : Drifts w w') : w.historyId ≤ w'.historyId := by
  cases h with
  | same _ _ later => exact later
  | change _ _ later => exact later.le

theorem length (h : Drifts w w') : w.history.length ≤ w'.history.length := by
  cases h with
  | same history => rw [history]
  | change record _ _ history => simp [history]

/-- The records after a known history id. -/
theorem after (h : Drifts w w') {c : HistoryId} (known : c ≤ w.historyId) :
    (w'.after c = w.after c ∧ w'.messages = w.messages) ∨
      ∃ record, possible w record = true ∧ w'.messages = Mirroring.change w.messages record ∧
        w'.after c = w.after c ++ [record] ∧ w.history.length < w'.history.length := by
  cases h with
  | same history messages => exact .inl ⟨by rw [World.after, history]; rfl, messages⟩
  | change record can later history messages =>
    have past : c < w'.historyId := known.trans_lt later
    exact .inr ⟨record, can, messages, by simp [World.after, history, past], by simp [history]⟩

theorem mem (h : Drifts w w') {record : GmailHistoryRecord}
    (mem : record ∈ w.history.map Prod.snd) : record ∈ w'.history.map Prod.snd := by
  cases h with
  | same history => rwa [history]
  | change _ _ _ history =>
    rw [history, List.map_append]
    exact List.mem_append_left _ mem

/-- A copy lags by the new record too. -/
theorem lagsAt (h : Drifts w w') {c : HistoryId} (known : c ≤ w.historyId)
    (todo : List (Record MessageId Label)) (sub : todo ⊆ w.log) {a : Option (Finset Label)}
    (lags : Replication.LagsAt id (todo ++ w.pending c) a (w.contents id)) :
    Replication.LagsAt id (todo ++ w'.pending c) a (w'.contents id) := by
  rcases h.after known with ⟨after, messages⟩ | ⟨record, can, messages, after, -⟩
  · rw [World.pending, after, World.contents, messages]
    exact lags
  · have contents : w'.contents = (recordOf record).apply w.contents := by
      rw [← contents_change, ← messages]
      rfl
    rw [World.pending, after, List.map_append, ← List.append_assoc, contents]
    exact lags.grow (List.append_subset.mpr ⟨sub, w.pending_subset c⟩) (possible_recordOf can)

end Drifts

/-- What a run can count on at any time. -/
structure Weak (t : ℕ) (w w' : World) : Prop where
  gmail : Drifts w w'
  passed : w.passedOver ⊆ w'.passedOver
  cursor : ∀ c ∈ w.lastHistoryId, ∃ c' ∈ w'.lastHistoryId, c ≤ c'
  page : w'.firstPage t = w.firstPage t

/-- What it can count on while it holds the lock. -/
structure Background (t : ℕ) (w w' : World) : Prop extends Weak t w w' where
  mirror : w'.mirror = w.mirror
  stored : w'.lastHistoryId = w.lastHistoryId

structure Rely (t : ℕ) (w w' : World) : Prop extends Weak t w w' where
  inv : w.Inv → w'.Inv
  mine : w.lock = some t → w'.lock = some t ∧ Background t w w'
  free : w.lock ≠ some t → w'.lock ≠ some t

/-- What a step of a run does. -/
structure Moves (t : ℕ) (w w' : World) : Prop where
  inv : w.Inv → w'.Inv
  history : w'.history = w.history
  messages : w'.messages = w.messages
  historyId : w'.historyId = w.historyId
  passed : w.passedOver ⊆ w'.passedOver
  cursor : ∀ c ∈ w.lastHistoryId, ∃ c' ∈ w'.lastHistoryId, c ≤ c'
  page : ∀ t', t' ≠ t → w'.firstPage t' = w.firstPage t'
  mine : w.lock = some t → w'.lock = some t ∨ w'.lock = none
  others : w.lock ≠ some t → w'.mirror = w.mirror ∧ w'.lastHistoryId = w.lastHistoryId ∧
    (w'.lock = w.lock ∨ w.lock = none ∧ w'.lock = some t)

theorem Moves.gmail (h : Moves t w w') : Drifts w w' := .same h.history h.messages h.historyId.ge

theorem Moves.rely {t' : ℕ} (h : Moves t w w') (ne : t ≠ t') : Rely t' w w' := by
  have weak : Weak t' w w' := ⟨h.gmail, h.passed, h.cursor, h.page t' ne.symm⟩
  refine ⟨weak, h.inv, fun mine => ?_, fun free => ?_⟩
  · have other : w.lock ≠ some t := by simp [mine, ne.symm]
    obtain ⟨mirror, stored, lock | ⟨idle, -⟩⟩ := h.others other
    · exact ⟨lock ▸ mine, weak, mirror, stored⟩
    · simp [mine] at idle
  · by_cases held : w.lock = some t
    · rcases h.mine held with kept | left <;> simp [*]
    · obtain ⟨-, -, lock | ⟨-, taken⟩⟩ := h.others held
      · rwa [lock]
      · simp [taken, ne]

/-! ## What a run knows -/

/-- A predicate that the others keep, whoever has the lock. -/
abbrev Fact (t : ℕ) := Assertion (Weak t)

/-- A predicate that the others keep while run `t` has the lock. -/
abbrev Held (t : ℕ) := Assertion (Background t)

def Fact.held (F : Fact t) : Held t := ⟨F, fun _ _ h b => F.stable h b.toWeak⟩

def outside (t : ℕ) (F : Fact t) : Assertion (Rely t) where
  holds w := w.Inv ∧ w.lock ≠ some t ∧ F w
  stable _ _ h r := ⟨r.inv h.1, r.free h.2.1, F.stable h.2.2 r.toWeak⟩

def holding (t : ℕ) (F : Held t) : Assertion (Rely t) where
  holds w := w.Inv ∧ w.lock = some t ∧ F w
  stable _ _ h r := ⟨r.inv h.1, (r.mine h.2.1).1, F.stable h.2.2 (r.mine h.2.1).2⟩

theorem World.cursor_mono (later : ∀ c ∈ w.lastHistoryId, ∃ c' ∈ w'.lastHistoryId, c ≤ c') :
    w.cursor ≤ w'.cursor := by
  unfold World.cursor
  cases stored : w.lastHistoryId with
  | none => exact Nat.zero_le _
  | some c =>
    obtain ⟨c', there, le⟩ := later c stored
    simpa [Option.mem_def.mp there] using le

theorem excluded_mono (drifts : Drifts w w') (passed : w.passedOver ⊆ w'.passedOver)
    (h : w.excluded id) : w'.excluded id :=
  h.imp (passed ·) fun ⟨labelIds, mem, nonMail⟩ => ⟨labelIds, drifts.mem mem, nonMail⟩

/-- The run may start its listing here. -/
def AtMost (t : ℕ) (c : HistoryId) : Fact t where
  holds w := c ≤ w.cursor
  stable _ _ h r := h.trans (World.cursor_mono r.cursor)

/-- These are the records after one history id, up to another. -/
def Listed (t : ℕ) (c h : HistoryId) (events : List GmailHistoryRecord) : Fact t where
  holds w := c ≤ h ∧ h ≤ w.historyId ∧ w.after c = events ++ w.after h
  stable := by
    rintro w w' ⟨le, known, split⟩ r
    refine ⟨le, known.trans r.gmail.historyId, ?_⟩
    cases r.gmail with
    | same history => rw [World.after, World.after, history]; exact split
    | change record can later history =>
      have past := known.trans_lt later
      have newer := le.trans_lt past
      have more : ∀ {x}, x < w'.historyId → w'.after x = w.after x ++ [record] := fun past => by
        simp [World.after, history, past]
      rw [more newer, more past, split, List.append_assoc]

/-- The listing went to the end, or Gmail has changed since the first page. -/
def Caught (t : ℕ) (h : HistoryId) : Fact t where
  holds w := ∃ s, w.firstPage t = some s ∧ s ≤ w.history.length ∧
    (h ≤ w.historyId ∧ w.after h = [] ∨ s < w.history.length)
  stable := by
    rintro w w' ⟨s, first, le, caught⟩ r
    refine ⟨s, r.page.trans first, le.trans r.gmail.length, ?_⟩
    rcases caught with ⟨known, done⟩ | changed
    · rcases r.gmail.after known with ⟨after, -⟩ | ⟨_, -, -, -, longer⟩
      · exact .inl ⟨known.trans r.gmail.historyId, after.trans done⟩
      · exact .inr (le.trans_lt longer)
    · exact .inr (changed.trans_le r.gmail.length)

/-- The metadata of a message as Gmail has it, up to the records after the listing. -/
def Fetched (t : ℕ) (h : HistoryId) (id : MessageId) (v : Option GmailMessageMetadata) : Fact t where
  holds w := h ≤ w.historyId ∧
    (∀ found ∈ v, found.id = id ∧ (isNonMail found.labelIds = true → w.excluded id)) ∧
    (v = none ∧ w.excluded id ∨
      Replication.LagsAt id (w.pending h) (v.map (·.labelIds.toFinset)) (w.contents id))
  stable := by
    rintro w w' ⟨known, names, right⟩ r
    have grows : w.excluded id → w'.excluded id := excluded_mono r.gmail r.passed
    refine ⟨known.trans r.gmail.historyId, fun md there => (names md there).imp_right (grows ∘ ·),
      right.imp (And.imp_right grows) fun lags => ?_⟩
    exact r.gmail.lagsAt known [] (List.nil_subset _) lags

/-- What has been fetched so far. -/
def AllFetched (t : ℕ) (h : HistoryId) (metadata : Metadata) : Fact t where
  holds w := h ≤ w.historyId ∧ ∀ id v, metadata.get id = some v → Fetched t h id v w
  stable _ _ h r := ⟨h.1.trans r.gmail.historyId,
    fun id v found => (Fetched t _ id v).stable (h.2 id v found) r⟩

/-- The listing is the records `done` and `all`. Each difference of a message is announced by the
records that are left of it for this message, or by a later one. -/
structure Applies (c h : HistoryId) (all : List GmailHistoryRecord)
    (todo : MessageId → List GmailHistoryRecord) (w : World) : Prop where
  cursor : w.cursor = c
  le : c ≤ h
  known : h ≤ w.historyId
  split : ∃ done, w.after c = done ++ all ++ w.after h
  left : ∀ id, todo id ⊆ all
  lags : ∀ id, w.LagsAt id ((todo id).map recordOf ++ w.pending h)

/-- What is left is pending. -/
theorem Applies.pending {c h : HistoryId} {all : List GmailHistoryRecord}
    {todo : MessageId → List GmailHistoryRecord} (a : Applies c h all todo w)
    {some : List GmailHistoryRecord} (left : some ⊆ all) :
    some.map recordOf ++ w.pending h ⊆ w.pending c := by
  obtain ⟨done, split⟩ := a.split
  intro r mem
  rw [World.pending, split, List.map_append, List.map_append]
  rcases List.mem_append.mp mem with here | later
  · exact List.mem_append_left _ (List.mem_append_right _ (List.map_subset _ left here))
  · exact List.mem_append_right _ later

def Applying (t : ℕ) (c h : HistoryId) (all : List GmailHistoryRecord)
    (todo : MessageId → List GmailHistoryRecord) : Held t where
  holds := Applies c h all todo
  stable := by
    intro w w' a r
    obtain ⟨done, split⟩ := a.split
    obtain ⟨-, known, split⟩ :=
      (Listed t c h (done ++ all)).stable ⟨a.le, a.known, split⟩ r.toWeak
    refine ⟨by rw [World.cursor, r.stored]; exact a.cursor, a.le, known, ⟨done, split⟩, a.left,
      fun id => ?_⟩
    have sub : (todo id).map recordOf ⊆ w.log := fun r mem =>
      w.pending_subset c (a.pending (a.left id) (List.mem_append_left _ mem))
    have copy : w'.copy = w.copy := by
      funext x
      simp only [World.copy, r.mirror]
    refine (a.lags id).imp (fun lags => ?_) fun ⟨absent, excluded⟩ =>
      ⟨by rw [r.mirror]; exact absent, excluded_mono r.gmail r.passed excluded⟩
    rw [copy]
    exact r.gmail.lagsAt a.known _ sub lags

/-! ## Steps -/

theorem Moves.same (t : ℕ) (w : World) : Moves t w w :=
  ⟨id, rfl, rfl, rfl, List.Subset.refl _, fun c stored => ⟨c, stored, Nat.le_refl c⟩,
    fun _ _ => rfl, .inl, fun _ => ⟨rfl, rfl, .inl rfl⟩⟩

/-- A step that leaves the mirror, the cursor and the lock. -/
structure Quiet (t : ℕ) (w w' : World) : Prop where
  moves : Moves t w w'
  background : Background t w w'
  still : w'.lock = w.lock ∧ w'.firstPage = w.firstPage

theorem Moves.weak (h : Moves t w w') (page : w'.firstPage t = w.firstPage t) : Weak t w w' :=
  ⟨h.gmail, h.passed, h.cursor, page⟩

theorem Quiet.same (t : ℕ) (w : World) : Quiet t w w :=
  ⟨.same t w, ⟨(Moves.same t w).weak rfl, rfl, rfl⟩, rfl, rfl⟩

theorem quiet_passOver (t : ℕ) (w : World) (id : MessageId) : Quiet t w (w.passOver id) := by
  have grown : w.passedOver ⊆ (w.passOver id).passedOver := fun x mem => mem_put.mpr (.inl mem)
  have moves : Moves t w (w.passOver id) :=
    ⟨fun inv => ⟨inv.ordered, inv.bounded, inv.history,
      fun x => (inv.lags x).imp_right fun ⟨absent, excluded⟩ => ⟨absent, excluded.imp_left (grown ·)⟩,
      inv.queued, inv.reached, inv.paged⟩,
      rfl, rfl, rfl, grown, fun c stored => ⟨c, stored, Nat.le_refl c⟩, fun _ _ => rfl, .inl,
      fun _ => ⟨rfl, rfl, .inl rfl⟩⟩
  exact ⟨moves, ⟨moves.weak rfl, rfl, rfl⟩, rfl, rfl⟩

theorem quiet_noteRendering (t : ℕ) (w : World) (id : MessageId) (labels : Option (List Label))
    (refused : Bool) : Quiet t w (w.noteRendering id labels refused) := by
  unfold World.noteRendering
  split_ifs
  · exact quiet_passOver t w id
  · exact .same t w

theorem moves_note (t : ℕ) (w : World) : Moves t w (w.note t) where
  inv inv := by
    refine ⟨inv.ordered, inv.bounded, inv.history, inv.lags, inv.queued, inv.reached, ?_⟩
    intro t' s first
    by_cases same : t' = t
    · subst same
      obtain rfl : (w.firstPage t').getD w.history.length = s := by
        simpa [World.note] using first
      cases before : w.firstPage t' with
      | none => exact Nat.le_refl _
      | some s => exact inv.paged t' s before
    · exact inv.paged t' s (by simpa [World.note, same] using first)
  history := rfl
  messages := rfl
  historyId := rfl
  passed := List.Subset.refl _
  cursor c stored := ⟨c, stored, Nat.le_refl c⟩
  page t' ne := by simp [World.note, ne]
  mine := .inl
  others _ := ⟨rfl, rfl, .inl rfl⟩

/-- The run that has the lock writes the mirror. -/
theorem moves_setMirror (held : w.lock = some t) {mirror : Mirror}
    (lags : w.Inv → ∀ id, (w.setMirror mirror).LagsAt id (w.pending w.cursor)) :
    Moves t w (w.setMirror mirror) where
  inv inv := ⟨inv.ordered, inv.bounded, inv.history, lags inv, inv.queued, inv.reached, inv.paged⟩
  history := rfl
  messages := rfl
  historyId := rfl
  passed := List.Subset.refl _
  cursor c stored := ⟨c, stored, Nat.le_refl c⟩
  page _ _ := rfl
  mine := .inl
  others other := absurd held other

/-! ## Programs -/

abbrev nothing (t : ℕ) : Fact t := .fact True

/-- Part of a run without the lock. -/
def Outside {α : Type} (F : Fact t) (p : MirrorProgram α) (B : α → Fact t) : Prop :=
  @Triple MirrorSignature mirroring Rely t α Moves (outside t F) p (fun a => outside t (B a))
    fun _ => outside t (nothing t)

/-- A step that reads no page. -/
structure Steps (t : ℕ) (w w' : World) : Prop where
  moves : Moves t w w'
  page : w'.firstPage t = w.firstPage t

/-- Part of a run under the lock. -/
def Holding {α : Type} (F : Held t) (p : MirrorProgram α) (B : α → Held t) : Prop :=
  @Triple MirrorSignature mirroring Rely t α Steps (holding t F) p (fun a => holding t (B a))
    fun _ => holding t (nothing t).held

theorem Outside.bind {α β : Type} {F : Fact t} {p : MirrorProgram α} {f : α → MirrorProgram β}
    {B : α → Fact t} {C : β → Fact t} (first : Outside F p B) (rest : ∀ a, Outside (B a) (f a) C) :
    Outside F (p >>= f) C := Triple.bind first rest

theorem Outside.done {α : Type} {F : Fact t} {a : α} {B : α → Fact t}
    (le : ∀ w, w.Inv → F w → B a w) : Outside F (.ret a) B :=
  Triple.done fun w h => ⟨h.1, h.2.1, le w h.1 h.2.2⟩

theorem Outside.failed {α : Type} {F : Fact t} {e : JobError} {B : α → Fact t} :
    Outside F (.raise e : MirrorProgram α) B :=
  Triple.failed fun _ h => ⟨h.1, h.2.1, trivial⟩

theorem Outside.pre {α : Type} {F G : Fact t} {p : MirrorProgram α} {B : α → Fact t}
    (h : Outside G p B) (le : ∀ w, w.Inv → F w → G w) : Outside F p B :=
  Triple.pre h fun w h => ⟨h.1, h.2.1, le w h.1 h.2.2⟩

theorem Holding.bind {α β : Type} {F : Held t} {p : MirrorProgram α} {f : α → MirrorProgram β}
    {B : α → Held t} {C : β → Held t} (first : Holding F p B) (rest : ∀ a, Holding (B a) (f a) C) :
    Holding F (p >>= f) C := Triple.bind first rest

theorem Holding.done {α : Type} {F : Held t} {a : α} {B : α → Held t}
    (le : ∀ w, w.Inv → F w → B a w) : Holding F (.ret a) B :=
  Triple.done fun w h => ⟨h.1, h.2.1, le w h.1 h.2.2⟩

theorem Holding.failed {α : Type} {F : Held t} {e : JobError} {B : α → Held t} :
    Holding F (.raise e : MirrorProgram α) B :=
  Triple.failed fun _ h => ⟨h.1, h.2.1, trivial⟩

theorem Holding.pre {α : Type} {F G : Held t} {p : MirrorProgram α} {B : α → Held t}
    (h : Holding G p B) (le : ∀ w, w.Inv → F w → G w) : Holding F p B :=
  Triple.pre h fun w h => ⟨h.1, h.2.1, le w h.1 h.2.2⟩

/-- A request other than those about the lock goes through, is lost or fails. -/
theorem answer_cases {q : Request} (plain : q ≠ .acquire ∧ q ≠ .release) {c : Choice} {r}
    (answered : answer t q c w = some (r, w')) :
    (∃ f, r = .ok (effect t f w q).1 ∧ w' = (effect t f w q).2) ∨
      ∃ e, r = .error e ∧ (w' = w ∨ ∃ f, w' = (effect t f w q).2) := by
  cases q <;> cases c <;> simp_all [answer] <;> grind

theorem Triple.of_steps {G : ℕ → World → World → Prop} (same : ∀ w, G t w w) {q : Request}
    (plain : q ≠ .acquire ∧ q ≠ .release) {A E : Assertion (Rely t)}
    {B : q.Answer → Assertion (Rely t)} (moves : ∀ w, A w → ∀ f, G t w (effect t f w q).2)
    (gain : ∀ w, A w → ∀ f, B (effect t f w q).1 (effect t f w q).2)
    (lost : ∀ w, A w → E w ∧ ∀ f, E (effect t f w q).2) :
    @Triple MirrorSignature mirroring Rely t q.Answer G A (ask q) B fun _ => E := by
  refine Interleaving.Triple.perform fun w hw c r w' answered => ?_
  rcases answer_cases plain answered with ⟨f, rfl, after⟩ | ⟨e, rfl, after | ⟨f, after⟩⟩
  · rw [after]
    exact ⟨moves w hw f, gain w hw f⟩
  · rw [after]
    exact ⟨same w, (lost w hw).1⟩
  · rw [after]
    exact ⟨moves w hw f, (lost w hw).2 f⟩

theorem Outside.ask {q : Request} (plain : q ≠ .acquire ∧ q ≠ .release) {F : Fact t}
    {B : q.Answer → Fact t} (moves : ∀ w f, Moves t w (effect t f w q).2)
    (lock : ∀ w f, (effect t f w q).2.lock = w.lock)
    (gain : ∀ w, w.Inv → F w → ∀ f, B (effect t f w q).1 (effect t f w q).2) :
    Outside F (ask q) B := by
  refine Triple.of_steps (.same t) plain (fun w _ f => moves w f) (fun w ⟨inv, free, hw⟩ f => ?_)
    fun w ⟨inv, free, _⟩ => ⟨⟨inv, free, trivial⟩, fun f => ?_⟩
  · exact ⟨(moves w f).inv inv, by rwa [lock], gain w inv hw f⟩
  · exact ⟨(moves w f).inv inv, by rwa [lock], trivial⟩

theorem Holding.ask {q : Request} (plain : q ≠ .acquire ∧ q ≠ .release) {F : Held t}
    {B : q.Answer → Held t}
    (still : ∀ w f, (effect t f w q).2.lock = w.lock ∧
      (effect t f w q).2.firstPage = w.firstPage)
    (step : ∀ w, w.Inv → w.lock = some t → F w → ∀ f,
      Moves t w (effect t f w q).2 ∧ B (effect t f w q).1 (effect t f w q).2) :
    Holding F (Mirroring.ask q) B := by
  have page : ∀ w f, (effect t f w q).2.firstPage t = w.firstPage t := fun w f => by
    rw [(still w f).2]
  refine Triple.of_steps (fun w => ⟨.same t w, rfl⟩) plain
    (fun w ⟨inv, held, hw⟩ f => ⟨(step w inv held hw f).1, page w f⟩)
    (fun w ⟨inv, held, hw⟩ f => ?_) fun w ⟨inv, held, hw⟩ => ⟨⟨inv, held, trivial⟩, fun f => ?_⟩
  · obtain ⟨moves, gained⟩ := step w inv held hw f
    exact ⟨moves.inv inv, by rwa [(still w f).1], gained⟩
  · exact ⟨(step w inv held hw f).1.inv inv, by rwa [(still w f).1], trivial⟩

/-- What does not depend on the lock is kept on the way. -/
theorem Holding.frame {α : Type} {F : Held t} {p : MirrorProgram α} {B : α → Held t} {G : Fact t}
    (h : Holding F p B) : Holding (F.and G.held) p fun a => (B a).and G.held := by
  have framed := Triple.frame (F := ⟨G, fun _ _ h r => G.stable h r.toWeak⟩) h
    fun steps hw => G.stable hw (steps.moves.weak steps.page)
  exact framed.consequence (fun w ⟨inv, held, hw, more⟩ => ⟨⟨inv, held, hw⟩, more⟩)
    (fun a w ⟨⟨inv, held, hw⟩, more⟩ => ⟨inv, held, hw, more⟩) fun _ w hw => hw.1

/-- What is known before may be used. -/
theorem Holding.of_fact {α : Type} {φ : Prop} {F : Held t} {p : MirrorProgram α} {B : α → Held t}
    (h : φ → Holding F p B) : Holding ((Assertion.fact φ).and F) p B :=
  fun w ⟨inv, held, holds, hw⟩ => h holds w ⟨inv, held, hw⟩

/-- A request that writes nothing here. -/
theorem Outside.look {q : Request} (plain : q ≠ .acquire ∧ q ≠ .release) {F : Fact t}
    (same : ∀ f w, (effect t f w q).2 = w) : Outside F (Mirroring.ask q) fun _ => F :=
  .ask plain (fun w f => by rw [same f w]; exact .same t w) (fun w f => by rw [same])
    fun w _ hw f => by rwa [same]

theorem Holding.look {q : Request} (plain : q ≠ .acquire ∧ q ≠ .release) {F : Held t}
    (same : ∀ f w, (effect t f w q).2 = w) : Holding F (Mirroring.ask q) fun _ => F :=
  .ask plain (fun w f => by rw [same]; exact ⟨rfl, rfl⟩) fun w _ _ hw f => by
    rw [same]
    exact ⟨.same t w, hw⟩

/-! ### Paging -/

section Paging

variable {c h p : HistoryId} {collected : List GmailHistoryRecord}

/-- A listing from a cursor that the job may start at. -/
def ListedFrom (t : ℕ) (c h : HistoryId) (events : List GmailHistoryRecord) : Fact t :=
  (AtMost t c).and (Listed t c h events)

def Paged (t : ℕ) (c : HistoryId) : Option Listing → Fact t
  | none => .fact False
  | some listing => (ListedFrom t c listing.lastPageHistoryId listing.events).and
      (Caught t listing.lastPageHistoryId)

def OnPage (t : ℕ) (c : HistoryId) (collected : List GmailHistoryRecord) :
    Option HistoryPage → Fact t
  | none => .fact False
  | some page =>
    match page.nextPageToken with
    | some next => ListedFrom t c next (collected ++ page.records)
    | none => Paged t c (some ⟨collected ++ page.records, page.historyId⟩)

theorem listedFrom_more (inv : w.Inv) (listed : ListedFrom t c p collected w) (le : p ≤ h)
    (known : h ≤ w.historyId) : ListedFrom t c h (collected ++ w.between p h) w := by
  obtain ⟨start, before, -, split⟩ := listed
  refine ⟨start, before.trans le, known, ?_⟩
  rw [split, inv.after_split le, List.append_assoc]

theorem caught_note (inv : w.Inv) (done : w.after h = []) (known : h ≤ w.historyId) :
    Caught t h (w.note t) := by
  refine ⟨(w.firstPage t).getD w.history.length, by simp [World.note], ?_, .inl ⟨known, done⟩⟩
  cases before : w.firstPage t with
  | none => exact Nat.le_refl _
  | some s => exact inv.paged t s before

theorem onPage_page (inv : w.Inv) (listed : ListedFrom t c p collected w)
    (cut : Option HistoryId) : OnPage t c collected (some (w.page cut p)) (w.note t) := by
  have reached : p ≤ w.historyId := listed.2.2.1
  unfold World.page
  split
  next last chosen =>
    obtain ⟨-, within⟩ := Option.filter_eq_some_iff.mp chosen
    obtain ⟨le, known⟩ := of_decide_eq_true within
    have more : ListedFrom t c last (collected ++ w.between p last) w :=
      listedFrom_more inv listed le known
    exact more
  next =>
    have all : w.after p = w.between p w.historyId := by
      rw [inv.after_split reached, inv.after_reached, List.append_nil]
    have more := listedFrom_more inv listed reached (Nat.le_refl _)
    rw [← all] at more
    exact ⟨more, caught_note inv inv.after_reached (Nat.le_refl _)⟩

theorem outside_pages (c : HistoryId) (fuel : ℕ) (collected : List GmailHistoryRecord)
    (token : Option PageToken) :
    Outside (ListedFrom t c (token.getD c) collected) (pages c fuel collected token)
      (Paged t c) := by
  induction fuel generalizing collected token with
  | zero => exact .failed
  | succ fuel ih =>
    refine Outside.bind (B := OnPage t c collected) ?_ fun page => ?_
    · exact .ask ⟨by simp, by simp⟩ (fun w f => moves_note t w) (fun w f => rfl)
        fun w inv listed f => onPage_page inv listed f.cut
    · cases page with
      | none => exact .done fun w _ impossible => impossible.elim
      | some page =>
        cases next : page.nextPageToken with
        | none =>
          simp only [OnPage, next]
          exact .done fun w _ h => h
        | some token =>
          simp only [OnPage, next]
          exact ih (collected ++ page.records) (some token)

theorem outside_pageHistoryFrom (fuel : ℕ) (c : HistoryId) :
    Outside (AtMost t c) (pageHistoryFrom fuel c) (Paged t c) :=
  (outside_pages c fuel [] none).pre fun _ inv start =>
    ⟨start, Nat.le_refl c, Nat.le_trans start inv.reached, rfl⟩

end Paging

/-! ### Metadata -/

section Prefetching

variable {h : HistoryId} {metadata : Metadata}

/-- What a rendering is to the worker. -/
def found : Rendering → Option GmailMessageMetadata
  | .rendered metadata => some metadata
  | .gone | .refused => none

theorem excluded_passOver (w : World) (id : MessageId) : (w.passOver id).excluded id :=
  .inl (mem_put.mpr (.inr rfl))

/-- A message whose rendering comes from Gmail's current one, and is noted. -/
theorem fetched_noted (known : h ≤ w.historyId) (refused : Bool) {v : Option GmailMessageMetadata}
    (names : ∀ md ∈ v, md.id = id)
    (now : v.map (·.labelIds) = if refused then none else w.messages id) :
    Fetched t h id v (w.noteRendering id (w.messages id) refused) := by
  have unrefused : refused = false → ∀ w' : World, w'.messages = w.messages →
      Replication.LagsAt id (w'.pending h) (v.map (·.labelIds.toFinset)) (w'.contents id) := by
    rintro rfl w' same
    have labels : v.map (·.labelIds.toFinset) = (w.messages id).map List.toFinset := by
      simpa [Function.comp_def] using congrArg (Option.map List.toFinset) now
    rw [labels, World.contents, same]
    exact .refl id _ _
  unfold World.noteRendering
  split_ifs with passed
  · refine ⟨known, fun md there => ⟨names md there, fun _ => excluded_passOver w id⟩, ?_⟩
    cases refused with
    | true =>
      have nothing : v = none := by simpa using now
      exact .inl ⟨nothing, excluded_passOver w id⟩
    | false => exact .inr (unrefused rfl _ rfl)
  · have kept : refused = false := by
      cases refused <;> simp_all
    refine ⟨known, fun md there => ⟨names md there, fun nonMail => ?_⟩, .inr (unrefused kept _ rfl)⟩
    rw [Option.mem_def.mp there, kept] at now
    have held : w.messages id = some md.labelIds := by simpa using now.symm
    simp [held, nonMail] at passed

theorem fetched_render (known : h ≤ w.historyId) (refused : Bool) :
    Fetched t h id (found (w.render id refused))
      (w.noteRendering id (w.messages id) refused) := by
  refine fetched_noted known refused ?_ ?_
  · intro md there
    unfold World.render at there
    cases refused <;> cases held : w.messages id <;> simp_all [found]
    exact there ▸ rfl
  · unfold World.render
    cases refused <;> cases held : w.messages id <;> simp [found]

theorem AllFetched.set {v : Option GmailMessageMetadata} (all : AllFetched t h metadata w)
    (one : Fetched t h id v w) : AllFetched t h (metadata.set id v) w := by
  refine ⟨all.1, fun id' v' there => ?_⟩
  rw [InsertionMap.get_set] at there
  split_ifs at there with same
  · obtain rfl := Option.some.inj there
    exact same ▸ one
  · exact all.2 id' v' there

theorem outside_getMessageMetadata {F : Fact t} (known : ∀ w, F w → h ≤ w.historyId)
    (id : MessageId) (refused : List MessageId) :
    Outside F (getMessageMetadata id refused) fun r => F.and (Fetched t h id r.1) := by
  refine Outside.bind (B := fun r => F.and (Fetched t h id (found r))) ?_ fun r => ?_
  · refine .ask ⟨by simp, by simp⟩ (fun w f => (quiet_noteRendering t w id _ _).moves)
      (fun w f => (quiet_noteRendering t w id _ _).still.1) fun w _ hw f => ?_
    exact ⟨F.stable hw (quiet_noteRendering t w id _ _).background.toWeak,
      fetched_render (known w hw) f.refused⟩
  · cases r <;> exact .done fun w _ hw => hw

theorem holding_getMessageMetadata {F : Held t} (known : ∀ w, F w → h ≤ w.historyId)
    (id : MessageId) (refused : List MessageId) :
    Holding F (getMessageMetadata id refused) fun r => F.and (Fetched t h id r.1).held := by
  refine Holding.bind (B := fun r => F.and (Fetched t h id (found r)).held) ?_ fun r => ?_
  · refine .ask ⟨by simp, by simp⟩ (fun w f => (quiet_noteRendering t w id _ _).still)
      fun w _ _ hw f => ⟨(quiet_noteRendering t w id _ _).moves, ?_⟩
    exact ⟨F.stable hw (quiet_noteRendering t w id _ _).background,
      fetched_render (t := t) (known w hw) f.refused⟩
  · cases r <;> exact .done fun w _ hw => hw

theorem outside_fetchAll {F : Fact t} (ids : List MessageId) (metadata : Metadata)
    (refused : List MessageId) :
    Outside ((AllFetched t h metadata).and F) (fetchAll ids metadata refused)
      fun r => (AllFetched t h r.1).and F := by
  induction ids generalizing metadata refused with
  | nil => exact .done fun w _ hw => hw
  | cons id ids ih =>
    refine Outside.bind (outside_getMessageMetadata (F := (AllFetched t h metadata).and F)
      (fun w hw => hw.1.1) id refused) fun r => ?_
    exact (ih (metadata.set id r.1) r.2).pre fun w _ hw => ⟨AllFetched.set hw.1.1 hw.2, hw.1.2⟩

theorem allFetched_empty (known : h ≤ w.historyId) : AllFetched t h .empty w :=
  ⟨known, fun id v there => by simp at there⟩

theorem outside_prefetch {F : Fact t} (known : ∀ w, F w → h ≤ w.historyId)
    (events : List GmailHistoryRecord) (refused : List MessageId) :
    Outside F (prefetch events refused) fun p => (AllFetched t h p.metadata).and F := by
  unfold prefetch
  split_ifs
  · exact .done fun w _ hw => ⟨allFetched_empty (known w hw), hw⟩
  · refine Outside.bind (.look ⟨by simp, by simp⟩ fun _ _ => rfl) fun _ => ?_
    refine Outside.bind ((outside_fetchAll (F := F) (prefetched events) .empty refused).pre
      fun w _ hw => ⟨allFetched_empty (h := h) (known w hw), hw⟩) fun r => ?_
    exact .done fun w _ hw => hw

theorem holding_refreshLabels {F : Held t} (ids : List MessageId) (metadata : Metadata) :
    Holding ((AllFetched t h metadata).held.and F) (refreshLabels ids metadata)
      fun r => (AllFetched t h r).held.and F := by
  induction ids generalizing metadata with
  | nil => exact .done fun w _ hw => hw
  | cons id ids ih =>
    unfold refreshLabels
    cases there : (metadata.get id).getD none with
    | none => exact ih metadata
    | some md =>
      have held : metadata.get id = some (some md) := by
        cases found : metadata.get id with
        | none => simp [found] at there
        | some v => simpa [found] using there
      refine Holding.bind (B := fun labels => (AllFetched t h (metadata.set id
        (labels.map fun labelIds => { md with labelIds }))).held.and F) ?_ fun labels => ?_
      · refine .ask ⟨by simp, by simp⟩ (fun w f => (quiet_noteRendering t w id _ _).still)
          fun w _ _ hw f => ⟨(quiet_noteRendering t w id _ _).moves, ?_⟩
        have quiet := (quiet_noteRendering t w id (w.messages id) false).background
        have named : md.id = id := ((hw.1.2 id _ held).2.1 md rfl).1
        refine ⟨AllFetched.set ((AllFetched t h metadata).stable hw.1 quiet.toWeak)
          (fetched_noted hw.1.1 false ?_ ?_), F.stable hw.2 quiet⟩
        · rintro md' there
          obtain ⟨labelIds, -, rfl⟩ := Option.map_eq_some_iff.mp there
          exact named
        · cases now : w.messages id <;> simp [effect, now]
      · exact ih _

theorem holding_refreshIfChanged {F : Held t} (events : List GmailHistoryRecord)
    (before : Option HistoryId) (metadata : Metadata) :
    Holding ((AllFetched t h metadata).held.and F) (refreshIfChanged events before metadata)
      fun r => (AllFetched t h r).held.and F := by
  cases before with
  | none => exact .done fun w _ hw => hw
  | some before =>
    refine Holding.bind (.look ⟨by simp, by simp⟩ fun _ _ => rfl) fun historyId => ?_
    split_ifs
    · exact .done fun w _ hw => hw
    · exact holding_refreshLabels _ _

end Prefetching

/-! ### Runs of records -/

section Applying

variable {c h : HistoryId} {all rest : List GmailHistoryRecord}
  {todo next : MessageId → List GmailHistoryRecord}

theorem World.LagsAt.mono {some more : List (Record MessageId Label)} (lags : w.LagsAt id some)
    (sub : some ⊆ more) : w.LagsAt id more := lags.imp_left (·.mono sub)

/-- A write to the mirror that discharges records. -/
theorem Applies.write (a : Applies c h all todo w) (held : w.lock = some t) {mirror : Mirror}
    (left : ∀ id, next id ⊆ all)
    (lags : ∀ id, (w.setMirror mirror).LagsAt id ((next id).map recordOf ++ w.pending h)) :
    Moves t w (w.setMirror mirror) ∧ Applies c h all next (w.setMirror mirror) := by
  refine ⟨moves_setMirror held fun _ id => ?_, a.cursor, a.le, a.known, a.split, left, lags⟩
  rw [a.cursor]
  exact (lags id).mono (a.pending (left id))

/-- The listing belongs to Gmail's history. -/
theorem Applies.history (a : Applies c h all todo w) (inv : w.Inv) :
    ∃ before, History (before ++ all.map recordOf ++ w.pending h) w.contents := by
  obtain ⟨before, log⟩ := inv.log_split c
  obtain ⟨done, split⟩ := a.split
  refine ⟨before ++ done.map recordOf, ?_⟩
  have whole := inv.history
  rw [log, World.pending, split, List.map_append, List.map_append] at whole
  simpa [World.pending] using whole

/-- The records of a run for the library. -/
def runOf (run : List LabelHistoryRecord) : List (MessageId × SetEdit Label) :=
  run.map fun r => (r.messageId, r.edit)

theorem records_runOf (run : List LabelHistoryRecord) :
    records (runOf run) = (run.map GmailHistoryRecord.labels).map recordOf := by
  simp [records, runOf, recordOf]

theorem editsAt_runOf (id : MessageId) (run : List LabelHistoryRecord) :
    editsAt id (runOf run) = edits id run := by
  simp [editsAt, runOf, edits, List.filter_map, Function.comp_def]

/-- The edits of a run on one message have been written. -/
theorem Applies.drop_run {run : List LabelHistoryRecord}
    (a : Applies c h (run.map GmailHistoryRecord.labels ++ rest) todo w) (inv : w.Inv)
    {copy : Option (Finset Label)}
    (lags : Replication.LagsAt id
      ((run.map GmailHistoryRecord.labels ++ rest).map recordOf ++ w.pending h) copy
      (w.contents id)) :
    Replication.LagsAt id (rest.map recordOf ++ w.pending h)
      (copy.map fun s => (edits id run).foldl SetEdit.apply s) (w.contents id) := by
  obtain ⟨before, history⟩ := a.history inv
  rw [List.map_append, ← records_runOf] at history lags
  rw [← editsAt_runOf]
  have whole : History (before ++ records (runOf run) ++ (rest.map recordOf ++ w.pending h))
      w.contents := by simpa [List.append_assoc] using history
  have pending : Replication.LagsAt id (records (runOf run) ++ (rest.map recordOf ++ w.pending h))
      copy (w.contents id) := by simpa [List.append_assoc] using lags
  exact pending.drop_edits whole

/-- What is left for a message when the records of these ones have been written. -/
def leftFor (written : List MessageId) (all rest : List GmailHistoryRecord) (id : MessageId) :
    List GmailHistoryRecord :=
  if id ∈ written then rest else all

theorem leftFor_subset {written : List MessageId} (sub : rest ⊆ all) (id : MessageId) :
    leftFor written all rest id ⊆ all := by
  unfold leftFor
  split_ifs
  · exact sub
  · exact List.Subset.refl _

/-- For every message at most all records are left. -/
theorem Applies.all_left (a : Applies c h all todo w) (id : MessageId) :
    w.LagsAt id (all.map recordOf ++ w.pending h) :=
  (a.lags id).mono (List.append_subset.mpr
    ⟨fun _ mem => List.mem_append_left _ (List.map_subset _ (a.left id) mem),
      List.subset_append_right _ _⟩)

/-- An update of a part of a run writes the edits of the messages in it. -/
theorem copy_updateBatch {run : List LabelHistoryRecord} {batch : List (MessageId × LabelChange)}
    (part : batch ⊆ (netChanges run).entries) (mirror : Mirror) (id : MessageId) :
    ((updateBatch mirror batch id).map fun row => row.labelIds.toFinset) =
      if id ∈ batch.map Prod.fst then
        ((mirror id).map fun row => row.labelIds.toFinset).map fun s =>
          (edits id run).foldl SetEdit.apply s
      else (mirror id).map fun row => row.labelIds.toFinset := by
  cases there : mirror id with
  | none => simp [updateBatch, there]
  | some row =>
    cases found : InsertionMap.find id batch with
    | none =>
      have apart := InsertionMap.find_eq_none.mp found
      rw [if_neg apart]
      simp [updateBatch, there, found]
    | some chg =>
      have mem := InsertionMap.mem_of_find found
      have net : chg.net = NetChange.netOf (edits id run) := by
        rw [← net_netChanges, InsertionMap.mem_entries_iff.mp (part mem)]
        rfl
      have labels : (row.relabel chg).labelIds.toFinset =
          (edits id run).foldl SetEdit.apply row.labelIds.toFinset := by
        have view := congrArg Prod.fst (view_relabel row chg)
        rw [net, NetChange.apply_netOf] at view
        exact view
      rw [if_pos (List.mem_map_of_mem mem)]
      simp [updateBatch, there, found, labels]

theorem holding_updateBatches (run : List LabelHistoryRecord) (rest : List GmailHistoryRecord)
    (bs : List (List (MessageId × LabelChange))) (written : List MessageId)
    (part : ∀ batch ∈ bs, batch ⊆ (netChanges run).entries) :
    Holding
      (Applying t c h (run.map .labels ++ rest) (leftFor written (run.map .labels ++ rest) rest))
      (updateBatches bs)
      fun _ => Applying t c h (run.map .labels ++ rest)
        (leftFor (written ++ bs.flatten.map Prod.fst) (run.map .labels ++ rest) rest) := by
  have sub : rest ⊆ run.map .labels ++ rest := List.subset_append_right _ _
  induction bs generalizing written with
  | nil =>
    simp only [List.flatten_nil, List.map_nil, List.append_nil]
    exact .done fun w _ hw => hw
  | cons batch bs ih =>
    have here := part batch List.mem_cons_self
    have step : ∀ w, w.Inv → w.lock = some t →
        Applies c h (run.map .labels ++ rest) (leftFor written (run.map .labels ++ rest) rest) w →
        Moves t w (w.setMirror (updateBatch w.mirror batch)) ∧
          Applies c h (run.map .labels ++ rest)
            (leftFor (written ++ batch.map Prod.fst) (run.map .labels ++ rest) rest)
            (w.setMirror (updateBatch w.mirror batch)) := by
      intro w inv held a
      refine a.write held (leftFor_subset sub) fun id => ?_
      have copy := copy_updateBatch here w.mirror id
      by_cases named : id ∈ batch.map Prod.fst
      · rw [if_pos named] at copy
        rw [leftFor, if_pos (List.mem_append_right _ named)]
        refine (a.all_left id).imp (fun lags => ?_) fun ⟨absent, excluded⟩ =>
          ⟨by simp [World.setMirror, updateBatch, absent], excluded⟩
        have dropped := a.drop_run inv lags
        change Replication.LagsAt id _ ((updateBatch w.mirror batch id).map _) _
        rwa [copy]
      · rw [if_neg named] at copy
        have same : leftFor (written ++ batch.map Prod.fst) (run.map .labels ++ rest) rest id =
            leftFor written (run.map .labels ++ rest) rest id := by
          simp [leftFor, named]
        rw [same]
        refine (a.lags id).imp (fun lags => ?_) fun ⟨absent, excluded⟩ =>
          ⟨by simp [World.setMirror, updateBatch, absent], excluded⟩
        change Replication.LagsAt id _ ((updateBatch w.mirror batch id).map _) _
        rwa [copy]
    refine Holding.bind (B := fun _ => Applying t c h (run.map .labels ++ rest)
      (leftFor (written ++ batch.map Prod.fst) (run.map .labels ++ rest) rest)) ?_ fun _ => ?_
    · exact .ask ⟨by simp, by simp⟩ (fun _ _ => ⟨rfl, rfl⟩) fun w inv held a _ => step w inv held a
    · have later := ih (written ++ batch.map Prod.fst) fun b mem => part b (List.mem_cons_of_mem _ mem)
      simpa [List.append_assoc] using later

/-- The same records are left for every message. -/
abbrev Left (t : ℕ) (c h : HistoryId) (todo : List GmailHistoryRecord) : Held t :=
  Applying t c h todo fun _ => todo

theorem leftFor_nil (all rest : List GmailHistoryRecord) :
    leftFor [] all rest = fun _ => all := by
  funext id
  simp [leftFor]

/-- A whole run has been written. -/
theorem Applies.leave {run : List GmailHistoryRecord} (a : Applies c h (run ++ rest) todo w)
    (lags : ∀ id, w.LagsAt id (rest.map recordOf ++ w.pending h)) :
    Applies c h rest (fun _ => rest) w := by
  obtain ⟨done, split⟩ := a.split
  exact ⟨a.cursor, a.le, a.known, ⟨done ++ run, by simpa [List.append_assoc] using split⟩,
    fun _ => List.Subset.refl _, lags⟩

/-- A message that is not in the net changes of a run keeps its labels. -/
theorem edits_of_absent {run : List LabelHistoryRecord}
    (absent : id ∉ (netChanges run).entries.map Prod.fst) (s : Finset Label) :
    (edits id run).foldl SetEdit.apply s = s := by
  have unset : (netChanges run).get id = none := InsertionMap.find_eq_none.mpr absent
  have net := net_netChanges id run
  rw [unset] at net
  have same : LabelChange.none.net = NetChange.none := rfl
  rw [← NetChange.apply_netOf, ← net, Option.getD_none, same, NetChange.apply_none]

theorem holding_applyLabelRun (run : List LabelHistoryRecord) :
    Holding (Left t c h (run.map .labels ++ rest)) (applyLabelRun run)
      fun _ => Left t c h rest := by
  have flat : (batches applyBatchSize (netChanges run).entries).flatten =
      (netChanges run).entries := flatten_batches (by decide) _
  have writes := holding_updateBatches (t := t) (c := c) (h := h) run rest
    (batches applyBatchSize (netChanges run).entries) [] fun batch mem e there =>
      flat ▸ List.mem_flatten_of_mem mem there
  rw [flat, List.nil_append, leftFor_nil] at writes
  refine Triple.consequence writes (fun w hw => hw) (fun _ w ⟨inv, held, a⟩ => ?_) fun _ _ hw => hw
  refine ⟨inv, held, a.leave fun id => ?_⟩
  by_cases named : id ∈ (netChanges run).entries.map Prod.fst
  · have lags := a.lags id
    rwa [leftFor, if_pos named] at lags
  · refine (a.all_left id).imp_left fun lags => ?_
    have dropped := a.drop_run inv lags
    have kept : ((w.copy id).map fun s => (edits id run).foldl SetEdit.apply s) = w.copy id := by
      simp [edits_of_absent named]
    rwa [kept] at dropped

/-- What a tombstone names is gone from Gmail. -/
theorem Applies.gone (a : Applies c h all todo w) (inv : w.Inv)
    (mem : GmailHistoryRecord.deleted id ∈ all) : w.contents id = none := by
  obtain ⟨before, history⟩ := a.history inv
  refine history.gone id (List.mem_append_left _ (List.mem_append_right _ ?_))
  exact List.mem_map.mpr ⟨_, mem, rfl⟩

theorem holding_deleteBatches (ids : List MessageId) (rest : List GmailHistoryRecord)
    (bs : List (List MessageId)) (written : List MessageId) (part : ∀ batch ∈ bs, batch ⊆ ids) :
    Holding
      (Applying t c h (ids.map .deleted ++ rest) (leftFor written (ids.map .deleted ++ rest) rest))
      (deleteBatches bs)
      fun _ => Applying t c h (ids.map .deleted ++ rest)
        (leftFor (written ++ bs.flatten) (ids.map .deleted ++ rest) rest) := by
  have sub : rest ⊆ ids.map .deleted ++ rest := List.subset_append_right _ _
  induction bs generalizing written with
  | nil =>
    simp only [List.flatten_nil, List.append_nil]
    exact .done fun w _ hw => hw
  | cons batch bs ih =>
    have here := part batch List.mem_cons_self
    have step : ∀ w, w.Inv → w.lock = some t →
        Applies c h (ids.map .deleted ++ rest) (leftFor written (ids.map .deleted ++ rest) rest) w →
        Moves t w (w.setMirror (deleteBatch w.mirror batch)) ∧
          Applies c h (ids.map .deleted ++ rest)
            (leftFor (written ++ batch) (ids.map .deleted ++ rest) rest)
            (w.setMirror (deleteBatch w.mirror batch)) := by
      intro w inv held a
      refine a.write held (leftFor_subset sub) fun id => ?_
      by_cases named : id ∈ batch
      · have gone : w.contents id = none :=
          a.gone inv (List.mem_append_left _ (List.mem_map_of_mem (here named)))
        have removed : (w.setMirror (deleteBatch w.mirror batch)).copy id = none := by
          simp [World.copy, World.setMirror, deleteBatch, named]
        refine .inl ?_
        change Replication.LagsAt id _ ((w.setMirror (deleteBatch w.mirror batch)).copy id)
          (w.contents id)
        rw [removed, gone]
        exact .refl id _ _
      · have same : leftFor (written ++ batch) (ids.map .deleted ++ rest) rest id =
            leftFor written (ids.map .deleted ++ rest) rest id := by
          simp [leftFor, named]
        have kept : (w.setMirror (deleteBatch w.mirror batch)).mirror id = w.mirror id := by
          simp [World.setMirror, deleteBatch, named]
        have lags := a.lags id
        rw [same, World.LagsAt, World.copy, kept]
        exact lags
    refine Holding.bind (B := fun _ => Applying t c h (ids.map .deleted ++ rest)
      (leftFor (written ++ batch) (ids.map .deleted ++ rest) rest)) ?_ fun _ => ?_
    · exact .ask ⟨by simp, by simp⟩ (fun _ _ => ⟨rfl, rfl⟩) fun w inv held a _ => step w inv held a
    · have later := ih (written ++ batch) fun b mem => part b (List.mem_cons_of_mem _ mem)
      simpa [List.append_assoc] using later

theorem holding_applyDeleteRun (ids : List MessageId) :
    Holding (Left t c h (ids.map .deleted ++ rest)) (applyDeleteRun ids)
      fun _ => Left t c h rest := by
  have flat : (batches applyBatchSize (distinct ids)).flatten = distinct ids :=
    flatten_batches (by decide) _
  have writes := holding_deleteBatches (t := t) (c := c) (h := h) ids rest
    (batches applyBatchSize (distinct ids)) [] fun batch mem id there =>
      mem_distinct.mp (flat ▸ List.mem_flatten_of_mem mem there)
  rw [flat, List.nil_append, leftFor_nil] at writes
  refine Triple.consequence writes (fun w hw => hw) (fun _ w ⟨inv, held, a⟩ => ?_) fun _ _ hw => hw
  refine ⟨inv, held, a.leave fun id => ?_⟩
  by_cases named : id ∈ distinct ids
  · have lags := a.lags id
    rwa [leftFor, if_pos named] at lags
  · refine (a.all_left id).imp_left fun lags => ?_
    obtain ⟨before, history⟩ := a.history inv
    have tombstones : (ids.map GmailHistoryRecord.deleted).map recordOf =
        ids.map Record.removed := by simp [recordOf]
    rw [List.map_append, tombstones, List.append_assoc] at lags
    have dropped := Replication.LagsAt.drop_removals history (fun k mem => by
      refine List.mem_append_left _ (List.mem_append_right _ ?_)
      rw [List.map_append, tombstones]
      exact List.mem_append_left _ (List.mem_map_of_mem mem)) lags
    rwa [if_neg (fun mem => named (mem_distinct.mpr mem))] at dropped

end Applying

end DeclutrMail.Sync.Mirroring
