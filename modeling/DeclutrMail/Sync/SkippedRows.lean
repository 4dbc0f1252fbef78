import DeclutrMail.Sync.Rescan

/-!
# What a rescan leaves stale

A completed attempt stores anew what it fetches (`Merged`), deletes what is not listed, and keeps
the rest; the new cursor is Gmail's current history id (`AtSnapshot`), so the incremental run after
it has nothing to apply. The mirror is repaired exactly when the rows that the attempt keeps were
right before (`repaired_iff`).
-/

namespace DeclutrMail.Sync.Ingest.Rescan

open Batches Initial

/-- What every step of a fold keeps, a fold that goes through keeps. -/
theorem foldlM_keeps {α β : Type} {f : β → α → Option β} {P : β → Prop} {steps : List α}
    (keeps : ∀ step ∈ steps, ∀ b next, f b step = some next → P b → P next) {b after : β}
    (run : steps.foldlM f b = some after) (start : P b) : P after := by
  induction steps generalizing b with
  | nil =>
    obtain rfl := Option.some.inj run
    exact start
  | cons step steps ih =>
    rw [List.foldlM_cons] at run
    obtain ⟨next, first, rest⟩ := Option.bind_eq_some_iff.mp run
    exact ih (fun s mem => keeps s (List.mem_cons_of_mem _ mem)) rest
      (keeps step List.mem_cons_self b next first start)

/-! ## Stored messages -/

/-- A stored row with the message, the labels and the read state of another one. -/
structure Same (message stored : MailMessage) : Prop where
  id : stored.providerMessageId = message.providerMessageId
  labelIds : stored.labelIds = message.labelIds
  isUnread : stored.isUnread = message.isUnread

/-- The batch has been stored: its messages are shown as they are in the batch, all others as they
were. -/
structure Merged (batch rows after : List MailMessage) : Prop where
  shown : ∀ row ∈ after,
    row ∈ rows ∧ row.providerMessageId ∉ batch.map (·.providerMessageId) ∨
      ∃ message ∈ batch, Same message row
  kept : ∀ row ∈ rows, row.providerMessageId ∉ batch.map (·.providerMessageId) → row ∈ after

theorem Merged.nil (rows : List MailMessage) : Merged [] rows rows :=
  ⟨fun _ mem => .inl ⟨mem, List.not_mem_nil⟩, fun _ mem _ => mem⟩

theorem Merged.append {first second rows between after : List MailMessage}
    (one : Merged first rows between) (two : Merged second between after) :
    Merged (first ++ second) rows after where
  shown row mem := by
    rcases two.shown row mem with ⟨there, apart⟩ | ⟨message, fresh, same⟩
    · rcases one.shown row there with ⟨old, elsewhere⟩ | ⟨message, fresh, same⟩
      · exact .inl ⟨old, by simp only [List.map_append, List.mem_append]; tauto⟩
      · exact .inr ⟨message, List.mem_append_left _ fresh, same⟩
    · exact .inr ⟨message, List.mem_append_right _ fresh, same⟩
  kept row mem apart := by
    rw [List.map_append, List.mem_append, not_or] at apart
    exact two.kept row (one.kept row mem apart.1) apart.2

theorem merged_upsert (rows : List MailMessage) {message stored : MailMessage}
    (as : Same message stored) : Merged [message] rows (upsert rows stored) := by
  unfold upsert
  split_ifs with there
  · refine ⟨fun row mem => ?_, fun row mem apart => ?_⟩
    · obtain ⟨old, before, rfl⟩ := List.mem_map.mp mem
      split_ifs with same
      · exact .inr ⟨message, List.mem_singleton_self _, ⟨as.id, as.labelIds, as.isUnread⟩⟩
      · exact .inl ⟨before, by simpa [as.id] using same⟩
    · have other : row.providerMessageId ≠ stored.providerMessageId := by
        simpa [as.id] using apart
      exact List.mem_map.mpr ⟨row, mem, if_neg other⟩
  · refine ⟨fun row mem => ?_, fun row mem _ => List.mem_append_left _ mem⟩
    rcases List.mem_append.mp mem with old | new
    · have other : row.providerMessageId ≠ message.providerMessageId := fun same =>
        there (as.id ▸ same ▸ List.mem_map_of_mem old)
      exact .inl ⟨old, by simpa using other⟩
    · rw [List.mem_singleton] at new
      exact .inr ⟨message, List.mem_singleton_self _, new ▸ as⟩

/-- The table stores the labels that it is given. -/
theorem same_of_insertMessage {message stored : MailMessage}
    (accepted : insertMessage message = some stored) : Same message stored := by
  unfold insertMessage at accepted
  split_ifs at accepted with storable
  obtain ⟨snippet, -, rfl⟩ := Option.map_eq_some_iff.mp accepted
  exact ⟨rfl, rfl, rfl⟩

theorem merged_foldl_upsert {batch inserted : List MailMessage} (rows : List MailMessage)
    (accepted : batch.mapM insertMessage = some inserted) :
    Merged batch rows (inserted.foldl upsert rows) := by
  induction batch generalizing inserted rows with
  | nil =>
    rw [List.mapM_nil] at accepted
    obtain rfl : [] = inserted := Option.some.inj accepted
    exact .nil rows
  | cons message batch ih =>
    rw [List.mapM_cons] at accepted
    obtain ⟨stored, first, accepted⟩ := Option.bind_eq_some_iff.mp accepted
    obtain ⟨rest, others, accepted⟩ := Option.bind_eq_some_iff.mp accepted
    obtain rfl : stored :: rest = inserted := Option.some.inj accepted
    exact (merged_upsert rows (same_of_insertMessage first)).append (ih _ others)

/-! ## The writes of a scan -/

theorem runAll_append (box : Mailbox) (writes rest : List Write) :
    runAll box (writes ++ rest) = (runAll box writes).bind fun box => runAll box rest := by
  simp [runAll, List.foldlM_append]

theorem runAll_cons (box : Mailbox) (write : Write) (rest : List Write) :
    runAll box (write :: rest) = (write.run box).bind fun box => runAll box rest := by
  simp [runAll, List.foldlM_cons]

/-- Writes that store a batch and change no other message. -/
def Stores (batch : List MailMessage) (writes : List Write) : Prop :=
  ∀ box after, runAll box writes = some after → Merged batch box.messages after.messages

theorem Stores.nil : Stores [] [] := fun box after run => by
  obtain rfl : box = after := Option.some.inj run
  exact .nil _

theorem Stores.append {first second : List MailMessage} {writes rest : List Write}
    (one : Stores first writes) (two : Stores second rest) :
    Stores (first ++ second) (writes ++ rest) := fun box after run => by
  rw [runAll_append] at run
  obtain ⟨between, begun, ended⟩ := Option.bind_eq_some_iff.mp run
  exact (one _ _ begun).append (two _ _ ended)

theorem stores_setRow (f : SyncState → SyncState) : Stores [] [.setRow f] :=
  fun box after run => by
    obtain rfl : box.setRow (f box.row) = after := Option.some.inj run
    exact .nil _

theorem stores_flush (pending : List MailMessage) : Stores pending (flush pending) := by
  unfold flush
  split_ifs with empty
  · exact empty ▸ .nil
  · intro box after run
    obtain ⟨flushed, stored, run⟩ := Option.bind_eq_some_iff.mp run
    obtain rfl : flushed = after := Option.some.inj run
    obtain ⟨inserted, accepted, rfl⟩ := Option.map_eq_some_iff.mp stored
    exact merged_foldl_upsert _ accepted

section
variable (R : Runtime) (mailboxAccountId : String) (gmail : Gmail) (a : Attempt) (box : Mailbox)

/-- Every chunk is stored, in whatever batches. -/
theorem stores_processChunks (chunks : List (List GmailMessageMetadata)) (processed : ℕ)
    (pending : List MailMessage) :
    Stores (pending ++ chunks.flatten.filterMap (fetchedRow R mailboxAccountId a))
      (processChunks R mailboxAccountId gmail a box chunks processed pending) := by
  induction chunks generalizing processed pending with
  | nil =>
    simpa [processChunks] using stores_flush pending
  | cons chunk chunks ih =>
    have progress : Stores [] (if chunk.length = upsertBatch then
        [onProgress gmail a box (processed + chunk.length)] else []) := by
      split_ifs
      · exact stores_setRow _
      · exact .nil
    rw [processChunks, List.flatten_cons, List.filterMap_append, ← List.append_assoc]
    generalize pending ++ chunk.filterMap (fetchedRow R mailboxAccountId a) = gathered
    by_cases full : upsertBatch ≤ gathered.length
    · simpa [full] using ((stores_flush gathered).append progress).append
        (ih (processed + chunk.length) [])
    · simpa [full] using progress.append (ih (processed + chunk.length) gathered)

theorem mem_runAll_deletes {slices : List (List MessageId)} {after : Mailbox}
    (run : runAll box (slices.map Write.deleteMessages) = some after) {row : MailMessage} :
    row ∈ after.messages ↔ row ∈ box.messages ∧ row.providerMessageId ∉ slices.flatten := by
  induction slices generalizing box with
  | nil =>
    obtain rfl : box = after := Option.some.inj run
    simp
  | cons ids slices ih =>
    rw [List.map_cons, runAll_cons] at run
    rw [ih (box.deleteMessages ids) run, List.flatten_cons, List.mem_append, not_or]
    simp [Mailbox.deleteMessages, Mailbox.keep, and_assoc]

/-! ## The messages of a completed attempt -/

variable {R mailboxAccountId gmail a box}

/-- Two stored rows of one message are one row. -/
theorem Mailbox.eq_of_id {row other : MailMessage} (mem : row ∈ box.messages)
    (there : other ∈ box.messages) (same : row.providerMessageId = other.providerMessageId) :
    row = other := List.inj_on_of_nodup_map box.nodup mem there same

theorem mem_toDelete {row : MailMessage} (mem : row ∈ box.messages) :
    row.providerMessageId ∈ toDelete gmail a box ↔
      row.providerMessageId ∉ gmail.listed.map (·.id) := by
  have scanned : row.providerMessageId ∈ (a.scan box.messages).map (·.providerMessageId) :=
    List.mem_map_of_mem ((a.perm _).mem_iff.mpr mem)
  rw [toDelete, List.mem_filter, decide_eq_true_eq]
  exact and_iff_right scanned

theorem mem_skipSet {row : MailMessage} (mem : row ∈ box.messages) :
    row.providerMessageId ∈ skipSet gmail a box ↔
      row.providerMessageId ∈ gmail.listed.map (·.id) ∧
        (row.isOutbound = true ∨ row.senderKey ∈ box.withIdentity) := by
  unfold skipSet
  constructor
  · intro skipped
    obtain ⟨other, found, same⟩ := List.mem_map.mp skipped
    obtain ⟨there, holds⟩ := List.mem_filter.mp found
    obtain rfl := Mailbox.eq_of_id ((a.perm _).mem_iff.mp there) mem same
    simpa using holds
  · intro holds
    refine List.mem_map_of_mem (List.mem_filter.mpr ⟨(a.perm _).mem_iff.mpr mem, ?_⟩)
    simpa using holds

/-- What is fetched shows Gmail's labels, and is mail. -/
theorem shows_of_fetchedRow {payload : GmailMessageMetadata} {message : MailMessage}
    (fetched : fetchedRow R mailboxAccountId a payload = some message) :
    message.providerMessageId = payload.id ∧ message.labelIds = payload.labelIds ∧
      message.isUnread = decide ("UNREAD" ∈ payload.labelIds) ∧
      isNonMail payload.labelIds = false := by
  unfold fetchedRow toMessageRow at fetched
  split_ifs at fetched with refused nonMail
  · cases fetched
  · cases parse : parseFromHeader payload.sender with
    | none => simp [parse] at fetched
    | some parsed =>
      simp only [parse, Option.map_some, Option.some.injEq] at fetched
      subst fetched
      exact ⟨rfl, rfl, rfl, by simpa using nonMail⟩

/-- The rows that the scan stores. -/
def fetchedRows (R : Runtime) (mailboxAccountId : String) (gmail : Gmail) (a : Attempt)
    (box : Mailbox) : List MailMessage :=
  (toFetch gmail a box).filterMap (fetchedRow R mailboxAccountId a)

theorem mem_fetchedRows {message : MailMessage} :
    message ∈ fetchedRows R mailboxAccountId gmail a box ↔
      ∃ payload ∈ gmail.listed, payload.id ∉ skipSet gmail a box ∧
        fetchedRow R mailboxAccountId a payload = some message := by
  simp [fetchedRows, toFetch, and_assoc]

/-- A listed message whose row is stored is fetched unless the scan skips it or gets no row. -/
theorem fetched_iff {row : MailMessage} (mem : row ∈ box.messages)
    {payload : GmailMessageMetadata} (listed : payload ∈ gmail.listed)
    (same : payload.id = row.providerMessageId) :
    row.providerMessageId ∈
        (fetchedRows R mailboxAccountId gmail a box).map (·.providerMessageId) ↔
      ¬ (row.isOutbound = true ∨ row.senderKey ∈ box.withIdentity ∨
        fetchedRow R mailboxAccountId a payload = none) := by
  have here : row.providerMessageId ∈ gmail.listed.map (·.id) :=
    List.mem_map.mpr ⟨payload, listed, same⟩
  have skipped : row.isOutbound = true ∨ row.senderKey ∈ box.withIdentity ↔
      row.providerMessageId ∈ skipSet gmail a box := by
    rw [mem_skipSet mem]
    exact (and_iff_right here).symm
  rw [← or_assoc, not_or, skipped]
  constructor
  · intro fetched
    obtain ⟨message, stored, at_⟩ := List.mem_map.mp fetched
    obtain ⟨other, found, free, rendered⟩ := mem_fetchedRows.mp stored
    have id := (shows_of_fetchedRow rendered).1
    have unique : (gmail.listed.map (·.id)).Nodup :=
      gmail.nodup.sublist (List.filter_sublist.map _)
    obtain rfl := List.inj_on_of_nodup_map unique found listed (by rw [← id, at_, same])
    exact ⟨same ▸ free, by simp [rendered]⟩
  · rintro ⟨free, some⟩
    obtain ⟨message, rendered⟩ := Option.ne_none_iff_exists'.mp some
    refine List.mem_map.mpr
      ⟨message, mem_fetchedRows.mpr ⟨payload, listed, same ▸ free, rendered⟩, ?_⟩
    rw [(shows_of_fetchedRow rendered).1, same]

/-- After the scan the stored messages are listed ones, as they were or as fetched. -/
structure Scanned (R : Runtime) (mailboxAccountId : String) (gmail : Gmail) (a : Attempt)
    (box after : Mailbox) : Prop where
  shown : ∀ row ∈ after.messages,
    (row ∈ box.messages ∧ row.providerMessageId ∈ gmail.listed.map (·.id) ∧
      row.providerMessageId ∉
        (fetchedRows R mailboxAccountId gmail a box).map (·.providerMessageId)) ∨
      ∃ message ∈ fetchedRows R mailboxAccountId gmail a box, Same message row
  kept : ∀ row ∈ box.messages, row.providerMessageId ∈ gmail.listed.map (·.id) →
    row.providerMessageId ∉
      (fetchedRows R mailboxAccountId gmail a box).map (·.providerMessageId) → row ∈ after.messages

theorem scanned_of_run {claimed after : Mailbox} (fresh : claimed.messages = box.messages)
    (run : runAll claimed (fetchAndStoreMetadata R mailboxAccountId gmail a box) = some after) :
    Scanned R mailboxAccountId gmail a box after := by
  rw [fetchAndStoreMetadata, runAll_append] at run
  obtain ⟨left, deleted, run⟩ := Option.bind_eq_some_iff.mp run
  have merged : Merged (fetchedRows R mailboxAccountId gmail a box) left.messages
      after.messages := by
    have counted : Stores [] [onProgress gmail a box (skipSet gmail a box).length] :=
      stores_setRow _
    have stores := counted.append (stores_processChunks R mailboxAccountId gmail a box
      (batches upsertBatch (toFetch gmail a box)) (skipSet gmail a box).length [])
    rw [flatten_batches (by decide), List.nil_append, List.nil_append] at stores
    exact stores left after run
  have remains : ∀ {row : MailMessage}, row ∈ left.messages ↔
      row ∈ box.messages ∧ row.providerMessageId ∈ gmail.listed.map (·.id) := by
    intro row
    rw [mem_runAll_deletes claimed deleted, flatten_batches (by decide), fresh]
    refine and_congr_right fun mem => ?_
    rw [mem_toDelete mem, not_not]
  refine ⟨fun row mem => ?_, fun row mem listed apart =>
    merged.kept row (remains.mpr ⟨mem, listed⟩) apart⟩
  rcases merged.shown row mem with ⟨old, apart⟩ | fresh
  · exact .inl ⟨(remains.mp old).1, (remains.mp old).2, apart⟩
  · exact .inr fresh

/-- The last stages change the messages only by the purge. -/
theorem mem_finish {after : Mailbox} {start : Mailbox}
    (run : runAll box (finishWrites gmail a start) = some after) {row : MailMessage} :
    row ∈ after.messages ↔
      row ∈ box.messages ∧ ¬ (row.providerMessageId ∈ a.purged ∧ isNonMail row.labelIds = true) := by
  obtain rfl := Option.some.inj run
  simp only [Mailbox.setRow, Mailbox.rebuild, Mailbox.purge, Mailbox.keep, List.mem_filter,
    Bool.not_eq_true', Bool.and_eq_false_iff, decide_eq_false_iff_not, not_and_or,
    Bool.not_eq_true]

/-- The attempt keeps the rows that it says, and shows all other messages as Gmail does. -/
theorem completed_messages {after : Mailbox}
    (done : completed R mailboxAccountId gmail a box = some after) :
    (∀ row ∈ after.messages,
      (row ∈ box.messages ∧ ∃ payload, Keeps R mailboxAccountId gmail a box row payload) ∨
        ∃ payload ∈ gmail.messages, payload.id = row.providerMessageId ∧
          Shows row.labelIds row.isUnread payload) ∧
      ∀ row ∈ box.messages, ∀ payload, Keeps R mailboxAccountId gmail a box row payload →
        row ∈ after.messages := by
  unfold completed at done
  split_ifs at done with passed
  rw [attemptWrites, if_pos passed, runAll_append, runAll_append] at done
  obtain ⟨left, begun, finished⟩ := Option.bind_eq_some_iff.mp done
  obtain ⟨first, claimed, scan⟩ := Option.bind_eq_some_iff.mp begun
  have fresh : first.messages = box.messages := by
    rw [beginWrites, runAll_cons] at claimed
    obtain ⟨next, claim, captured⟩ := Option.bind_eq_some_iff.mp claimed
    simp only [Write.run] at claim
    split_ifs at claim
    obtain rfl := Option.some.inj claim
    obtain rfl := Option.some.inj captured
    rfl
  have scanned := scanned_of_run fresh scan
  have remains : ∀ {row}, row ∈ after.messages ↔ _ := fun {row} => mem_finish finished
  refine ⟨fun row mem => ?_, fun row mem payload keeps => ?_⟩
  · obtain ⟨there, free⟩ := remains.mp mem
    rcases scanned.shown row there with ⟨old, listed, apart⟩ | ⟨message, fetched, same⟩
    · obtain ⟨payload, mem, same⟩ := List.mem_map.mp listed
      rw [fetched_iff old mem same, not_not] at apart
      exact .inl ⟨old, payload, mem, same, apart, free⟩
    · obtain ⟨payload, listed, -, rendered⟩ := mem_fetchedRows.mp fetched
      obtain ⟨id, labels, unread, -⟩ := shows_of_fetchedRow rendered
      refine .inr ⟨payload, (List.mem_filter.mp listed).1, by rw [same.id, id], fun label => ?_, ?_⟩
      · rw [same.labelIds, labels]
      · rw [same.isUnread, unread]
  · obtain ⟨listed, same, kept, free⟩ := keeps
    refine remains.mpr ⟨scanned.kept row mem (List.mem_map.mpr ⟨payload, listed, same⟩) ?_, free⟩
    rwa [fetched_iff mem listed same, not_not]

/-! ## The cursor -/

/-- Cleared, or at Gmail's current history id. -/
def AtSnapshot (gmail : Gmail) (row : SyncState) : Prop :=
  row.lastHistoryId = none ∨ row.lastHistoryId = some gmail.historyId

/-- A write that keeps the cursor so. -/
def Quiet (gmail : Gmail) (write : Write) : Prop :=
  ∀ box after, write.run box = some after → AtSnapshot gmail box.row → AtSnapshot gmail after.row

theorem atSnapshot_runAll {writes : List Write} (quiet : ∀ write ∈ writes, Quiet gmail write)
    {after : Mailbox} (run : runAll box writes = some after) (start : AtSnapshot gmail box.row) :
    AtSnapshot gmail after.row :=
  foldlM_keeps (P := fun box => AtSnapshot gmail box.row)
    (fun write mem box next => quiet write mem box next) run start

theorem quiet_setRow {f : SyncState → SyncState}
    (keeps : ∀ row, AtSnapshot gmail row → AtSnapshot gmail (f row)) :
    Quiet gmail (.setRow f) := fun box after run start => by
  obtain rfl := Option.some.inj run
  exact keeps _ start

theorem quiet_of_row {write : Write}
    (same : ∀ box after, write.run box = some after →
      after.row.lastHistoryId = box.row.lastHistoryId) :
    Quiet gmail write := fun box after run start => by
  rw [AtSnapshot, same box after run]
  exact start

theorem snapshot_eq (start : AtSnapshot gmail box.row) : snapshot gmail box = gmail.historyId := by
  rcases start with cleared | at_ <;> simp [snapshot, *]

theorem atSnapshot_or {row : SyncState} (start : AtSnapshot gmail row) :
    row.lastHistoryId.or (some gmail.historyId) = some gmail.historyId := by
  rcases start with cleared | at_ <;> simp [*]

theorem lastHistoryId_markReady {row : SyncState} (start : AtSnapshot gmail row) (now : ℤ) :
    (row.markReady gmail.historyId now).lastHistoryId = some gmail.historyId := by
  rcases start with cleared | at_ <;> simp [SyncState.markReady, SyncState.greatest, *]

theorem quiet_onProgress (start : AtSnapshot gmail box.row) (processed : ℕ) :
    Quiet gmail (onProgress gmail a box processed) := by
  refine quiet_setRow fun row at_ => ?_
  split_ifs
  · exact .inr (by rw [snapshot_eq start]; exact atSnapshot_or at_)
  · exact at_

theorem quiet_flush (pending : List MailMessage) : ∀ write ∈ flush pending, Quiet gmail write := by
  unfold flush
  split_ifs
  · simp
  · intro write mem
    rw [List.mem_singleton.mp mem]
    refine quiet_of_row fun box after run => ?_
    obtain ⟨batch, -, rfl⟩ := Option.map_eq_some_iff.mp run
    rfl

theorem quiet_processChunks (start : AtSnapshot gmail box.row)
    (chunks : List (List GmailMessageMetadata)) (processed : ℕ) (pending : List MailMessage) :
    ∀ write ∈ processChunks R mailboxAccountId gmail a box chunks processed pending,
      Quiet gmail write := by
  induction chunks generalizing processed pending with
  | nil => exact quiet_flush pending
  | cons chunk chunks ih =>
    intro write mem
    rw [processChunks, List.mem_append, List.mem_append] at mem
    rcases mem with (mem | mem) | mem
    · split_ifs at mem
      · exact quiet_flush _ write mem
      · cases mem
    · split_ifs at mem
      · exact List.mem_singleton.mp mem ▸ quiet_onProgress start _
      · cases mem
    · exact ih _ _ write mem

theorem quiet_attemptWrites (start : AtSnapshot gmail box.row) :
    ∀ write ∈ attemptWrites R mailboxAccountId gmail a box, Quiet gmail write := by
  have advances : ∀ stage pct, Quiet gmail (.setRow fun row => row.advance a.k stage pct a.now) :=
    fun stage pct => quiet_of_row fun box after run => by
      obtain rfl := Option.some.inj run
      rfl
  intro write mem
  rw [attemptWrites, List.mem_append, List.mem_append] at mem
  rcases mem with (mem | mem) | mem
  · rw [beginWrites, List.mem_pair] at mem
    rcases mem with rfl | rfl
    · refine quiet_of_row fun box after run => ?_
      simp only [Write.run] at run
      split_ifs at run
      obtain rfl := Option.some.inj run
      rfl
    · exact quiet_setRow fun row at_ => .inr (atSnapshot_or at_)
  · rw [fetchAndStoreMetadata, List.mem_append, List.mem_cons] at mem
    rcases mem with mem | rfl | mem
    · obtain ⟨ids, -, rfl⟩ := List.mem_map.mp mem
      refine quiet_of_row fun box after run => ?_
      obtain rfl := Option.some.inj run
      rfl
    · exact quiet_onProgress start _
    · exact quiet_processChunks start _ _ _ write mem
  · split_ifs at mem
    · simp only [finishWrites, List.mem_cons, List.not_mem_nil, or_false] at mem
      rcases mem with rfl | rfl | rfl | rfl | rfl | rfl
      · exact advances _ _
      · refine quiet_of_row fun box after run => ?_
        obtain rfl := Option.some.inj run
        rfl
      · refine quiet_of_row fun box after run => ?_
        obtain rfl := Option.some.inj run
        rfl
      · exact advances _ _
      · exact advances _ _
      · refine quiet_setRow fun row at_ => ?_
        rw [snapshot_eq start]
        exact .inr (lastHistoryId_markReady at_ _)
    · cases mem

theorem atSnapshot_markQueued {row : SyncState} (start : AtSnapshot gmail row)
    (freshCredentials : Bool) (now : ℤ) :
    AtSnapshot gmail (row.markQueued freshCredentials now) := by
  have next : (row.markQueued freshCredentials now).lastHistoryId =
      if row.readinessStatus = .ready then none else row.lastHistoryId := by
    by_cases ready : row.readinessStatus = .ready <;>
      cases freshCredentials <;>
        simp [SyncState.markQueued, SyncState.freshGrant, SyncState.requeued, ready]
  rw [AtSnapshot, next]
  split_ifs
  · exact .inl rfl
  · exact start

theorem lastHistoryId_clearing {clearing : Clearing} {row cleared : SyncState}
    (run : clearing.run row = some cleared) : cleared.lastHistoryId = none := by
  cases clearing with
  | recoverExpired expiredCursor now =>
    simp only [Clearing.run] at run
    split_ifs at run
    obtain rfl := Option.some.inj run
    rfl
  | markQueued freshCredentials now =>
    simp only [Clearing.run] at run
    split_ifs at run with ready
    obtain rfl := Option.some.inj run
    cases freshCredentials <;> simp [SyncState.markQueued, SyncState.freshGrant, ready]

/-- A completed attempt leaves the cursor at Gmail's current history id. -/
theorem completed_cursor {after : Mailbox} (start : AtSnapshot gmail box.row)
    (done : completed R mailboxAccountId gmail a box = some after) :
    after.row.lastHistoryId = some gmail.historyId := by
  have quiet : ∀ write ∈ attemptWrites R mailboxAccountId gmail a box, Quiet gmail write :=
    quiet_attemptWrites start
  unfold completed at done
  split_ifs at done with passed
  rw [attemptWrites, if_pos passed] at done quiet
  rw [runAll_append] at done
  obtain ⟨left, begun, finished⟩ := Option.bind_eq_some_iff.mp done
  have arrived : AtSnapshot gmail left.row :=
    atSnapshot_runAll (fun write mem => quiet write (List.mem_append_left _ mem)) begun start
  obtain rfl := Option.some.inj finished
  rw [snapshot_eq start]
  exact lastHistoryId_markReady arrived _

theorem atSnapshot_requeue {requeue : Requeue} {row next : SyncState}
    (run : requeue.run row = some next) (start : AtSnapshot gmail row) : AtSnapshot gmail next := by
  cases requeue with
  | failed e status providerDelay now =>
    obtain rfl := Option.some.inj run
    exact start
  | markQueued freshCredentials now =>
    obtain rfl := Option.some.inj run
    exact atSnapshot_markQueued start freshCredentials now
  | retried now =>
    simp only [Requeue.run] at run
    split_ifs at run
    obtain rfl := Option.some.inj run
    exact start
  | recovered now =>
    simp only [Requeue.run] at run
    split_ifs at run
    obtain rfl := Option.some.inj run
    exact start

theorem atSnapshot_interruption {i : Interruption} {after : Mailbox}
    (run : i.run R mailboxAccountId gmail box = some after) (start : AtSnapshot gmail box.row) :
    AtSnapshot gmail after.row := by
  obtain ⟨stopped, begun, run⟩ := Option.bind_eq_some_iff.mp run
  obtain ⟨row, requeued, run⟩ := Option.bind_eq_some_iff.mp run
  obtain rfl := Option.some.inj run
  have halted : AtSnapshot gmail stopped.row :=
    atSnapshot_runAll
      (fun write mem => quiet_attemptWrites start write (List.mem_of_mem_take mem)) begun start
  exact foldlM_keeps (P := AtSnapshot gmail)
    (fun requeue _ row next => atSnapshot_requeue) requeued halted

theorem recovering_cursor {clearing : Clearing} {interruptions : List Interruption}
    {before : Mailbox}
    (run : recovering R mailboxAccountId gmail clearing interruptions box = some before) :
    AtSnapshot gmail before.row := by
  obtain ⟨row, cleared, run⟩ := Option.bind_eq_some_iff.mp run
  exact foldlM_keeps (P := fun box => AtSnapshot gmail box.row)
    (fun i _ box next => atSnapshot_interruption) run (.inl (lastHistoryId_clearing cleared))

/-- With the cursor at Gmail's history id, the incremental run has nothing to apply. -/
theorem catchUp_eq (cursor : box.row.lastHistoryId = some gmail.historyId)
    (startHistoryId : HistoryId) : catchUp gmail startHistoryId box = box.mirror := by
  have nothing : ∀ start, gmail.historyId ≤ start → gmail.recordsAfter start = [] := by
    intro start past
    rw [Gmail.recordsAfter, List.map_eq_nil_iff, List.filter_eq_nil_iff]
    intro entry mem
    have recorded := gmail.recorded entry mem
    simpa using recorded.trans past
  rw [catchUp, cursor]
  dsimp only
  rw [nothing _ (by split_ifs with behind; exacts [le_rfl, not_lt.mp behind])]
  rfl

/-! ## The repaired mirror -/

theorem mirror_eq_some {id : MessageId} {shown : Sync.MailMessage} :
    box.mirror id = some shown ↔
      ∃ row ∈ box.messages, row.providerMessageId = id ∧ ⟨row.labelIds, row.isUnread⟩ = shown := by
  unfold Mailbox.mirror
  constructor
  · intro found
    obtain ⟨row, first, rfl⟩ := Option.map_eq_some_iff.mp found
    exact ⟨row, List.mem_of_find?_eq_some first, by simpa using List.find?_some first, rfl⟩
  · rintro ⟨row, mem, rfl, rfl⟩
    cases first : box.messages.find? fun other =>
        decide (other.providerMessageId = row.providerMessageId) with
    | none => simpa using List.find?_eq_none.mp first row mem
    | some other =>
      have same : other.providerMessageId = row.providerMessageId := by
        simpa using List.find?_some first
      rw [Mailbox.eq_of_id (List.mem_of_find?_eq_some first) mem same]
      rfl

/-- **A rescan repairs the mirror exactly when every row that its completed attempt keeps was right
before**: after the cursor of a ready mailbox has been cleared, any number of interrupted attempts,
a completed one and an incremental run, with Gmail unchanged meanwhile. -/
theorem repaired_iff (R : Runtime) (mailboxAccountId : String) (gmail : Gmail)
    (clearing : Clearing) (interruptions : List Interruption) (a : Attempt)
    (startHistoryId : HistoryId) {box before after : Mailbox}
    (run : recovering R mailboxAccountId gmail clearing interruptions box = some before)
    (done : completed R mailboxAccountId gmail a before = some after) :
    Repaired gmail (catchUp gmail startHistoryId after) ↔
      ∀ row ∈ before.messages, ∀ payload, Keeps R mailboxAccountId gmail a before row payload →
        Shows row.labelIds row.isUnread payload := by
  rw [catchUp_eq (completed_cursor (recovering_cursor run) done)]
  obtain ⟨shown, kept⟩ := completed_messages done
  constructor
  · intro repaired row mem payload keeps
    obtain ⟨other, there, same, shows⟩ :=
      repaired _ _ (mirror_eq_some.mpr ⟨row, kept row mem payload keeps, rfl, rfl⟩)
    obtain ⟨listed, id, -⟩ := keeps
    obtain rfl := List.inj_on_of_nodup_map gmail.nodup there (List.mem_filter.mp listed).1
      (same.trans id.symm)
    exact shows
  · intro right id row found
    obtain ⟨stored, mem, rfl, rfl⟩ := mirror_eq_some.mp found
    rcases shown stored mem with ⟨old, payload, keeps⟩ | ⟨payload, there, same, shows⟩
    · exact ⟨payload, (List.mem_filter.mp keeps.1).1, keeps.2.1, right stored old payload keeps⟩
    · exact ⟨payload, there, same, shows⟩

end

/-! ## A message read while the cursor was lost -/

def sampleGmail : Gmail where
  messages := [sampleMessage "Ann <ann@shop.org>"]
  historyId := 9
  history := [(8, .labels ⟨.labelsRemoved, "m", ["UNREAD"]⟩)]
  nodup := by decide
  recorded := by decide

/-- The message as it was stored before. -/
def unreadRow : MailMessage :=
  { messageRow sampleRuntime "box" (sampleMessage "Ann <ann@shop.org>") "ann@shop.org".toList with
    labelIds := ["INBOX", "UNREAD"]
    isUnread := true }

/-- A ready mailbox, with the identities of these senders. -/
def readyBox (withIdentity : List Text) : Mailbox where
  messages := [unreadRow]
  withIdentity
  row := { SyncState.fresh 0 with readinessStatus := .ready, lastHistoryId := some 5 }
  nodup := by decide

def sampleAttempt : Attempt where
  k := 1
  now := 0
  scan := id
  perm := List.Perm.refl
  refuses _ := false
  purged := []

/-- Without the identity of its sender the message is fetched again. -/
theorem repaired_iff_fetched : ∃ before after,
    recovering sampleRuntime "box" sampleGmail (.markQueued false 0)
      [⟨sampleAttempt, 3, [.failed .transient .failed 0 0, .retried 900000]⟩] (readyBox []) =
        some before ∧
    completed sampleRuntime "box" sampleGmail sampleAttempt before = some after ∧
    (Repaired sampleGmail (catchUp sampleGmail 5 after) ↔
      ∀ row ∈ before.messages, ∀ payload,
        Keeps sampleRuntime "box" sampleGmail sampleAttempt before row payload →
          Shows row.labelIds row.isUnread payload) := by
  have goes : ((recovering sampleRuntime "box" sampleGmail (.markQueued false 0)
      [⟨sampleAttempt, 3, [.failed .transient .failed 0 0, .retried 900000]⟩]
      (readyBox [])).bind (completed sampleRuntime "box" sampleGmail sampleAttempt)).isSome := by
    decide +kernel
  obtain ⟨after, both⟩ := Option.isSome_iff_exists.mp goes
  obtain ⟨before, run, done⟩ := Option.bind_eq_some_iff.mp both
  exact ⟨before, after, run, done, repaired_iff _ _ _ _ _ _ 5 run done⟩

/-- A message that Gmail shows as read stays unread: its sender is known, so the rescan skips it. -/
theorem unread_kept : ∃ before after,
    recovering sampleRuntime "box" sampleGmail (.recoverExpired 5 0) []
      (readyBox [unreadRow.senderKey]) = some before ∧
    completed sampleRuntime "box" sampleGmail sampleAttempt before = some after ∧
    after.row.readinessStatus = .ready ∧ ¬ Repaired sampleGmail (catchUp sampleGmail 5 after) := by
  have goes : ((recovering sampleRuntime "box" sampleGmail (.recoverExpired 5 0) []
      (readyBox [unreadRow.senderKey])).bind
        (completed sampleRuntime "box" sampleGmail sampleAttempt)).map
          (fun after => (after.row.readinessStatus, catchUp sampleGmail 5 after "m")) =
      some (.ready, some ⟨["INBOX", "UNREAD"], true⟩) := by
    decide +kernel
  obtain ⟨after, both, shown⟩ := Option.map_eq_some_iff.mp goes
  obtain ⟨before, run, done⟩ := Option.bind_eq_some_iff.mp both
  obtain ⟨ready, stale⟩ := Prod.mk.inj shown
  refine ⟨before, after, run, done, ready, fun repaired => ?_⟩
  obtain ⟨payload, mem, -, labels, -⟩ := repaired "m" _ stale
  obtain rfl := List.mem_singleton.mp mem
  have gone := (labels "UNREAD").mp (by decide)
  exact absurd gone (by decide)

end DeclutrMail.Sync.Ingest.Rescan
