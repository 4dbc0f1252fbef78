import DeclutrMail.Unsubscribe.Bulk

/-!
# Replays of a bulk unsubscribe

A post that commits leaves a job under the key of each one-click sender, so a replay finds all of
them and writes nothing for these senders. What a replay does write is a mailto sender, whose
policy, activity row and event nothing marks as recorded, and a job whose enqueue has failed
stays failed. The rows after the last success are those of one success exactly when neither
happens.
-/

namespace DeclutrMail.Unsubscribe

open Actions Senders Batches

variable {request : BulkRequest} {env later : Env} {db db' : Tables} {now : ℤ} {sender : Sender}
  {key : String} {row : ActionRow} {batch batch' : Batch}

/-! ## What the split depends on -/

/-- Nothing that decides what a sender offers has changed. -/
structure SameSenders (db db' : Tables) : Prop where
  senders : db'.senders = db.senders
  isProtected : ∀ key, db'.isProtected key = db.isProtected key

theorem SameSenders.refl : SameSenders db db := ⟨rfl, fun _ => rfl⟩

theorem SameSenders.trans {db'' : Tables} (h : SameSenders db db') (h' : SameSenders db' db'') :
    SameSenders db db'' :=
  ⟨h'.senders.trans h.senders, fun key => (h'.isProtected key).trans (h.isProtected key)⟩

theorem SameSenders.classify (same : SameSenders db db') (id : String) :
    db'.classify id = db.classify id := by
  unfold Tables.classify
  rw [same.senders]
  cases db.senders.find? (·.id = id) with
  | none => rfl
  | some sender => simp only [same.isProtected]

theorem SameSenders.sendable (same : SameSenders db db') : db'.sendable request = db.sendable request := by
  simp only [Tables.sendable, same.classify]

theorem SameSenders.manual (same : SameSenders db db') : db'.manual request = db.manual request := by
  simp only [Tables.manual, same.classify, same.senders]

theorem sameSenders_recordPolicy (key : SenderKey) (now : ℤ) (status : UnsubStatus)
    (escalate : Option UnsubStatus → UnsubStatus) :
    SameSenders db (db.recordPolicy key now status escalate) := by
  refine ⟨rfl, fun other => ?_⟩
  unfold Tables.isProtected Tables.recordPolicy
  by_cases here : other = key
  · subst here
    simp only [Function.update_self]
    cases db.policies other <;> rfl
  · simp only [Function.update_of_ne here]

theorem sameSenders_failExecution (key : SenderKey) (now : ℤ) (mailboxAccountId : MailboxId)
    (actionId : ActionId) : SameSenders db (db.failExecution key now mailboxAccountId actionId) := by
  unfold Tables.failExecution
  split_ifs
  · refine ⟨rfl, fun other => ?_⟩
    unfold Tables.isProtected Tables.recordActivity Tables.markFailed
    by_cases here : other = key
    · subst here
      simp only [Function.update_self]
      cases db.policies other with
      | none => rfl
      | some policy =>
        simp only [Option.map_some, Option.any_some]
        split_ifs <;> rfl
    · simp only [Function.update_of_ne here]
  · exact .refl

/-! ## Counting the log -/

def Tables.count (db : Tables) (action : ActivityAction) : ℕ :=
  db.activity.countP (·.action = action)

theorem count_recordDecision (key : SenderKey) (now : ℤ) (action action' : ActivityAction)
    (actionJobId : Option ActionId) (method : UnsubscribeMethod) :
    (db.recordDecision key now action actionJobId method).count action' =
      db.count action' + if action = action' then 1 else 0 := by
  simp [Tables.count, Tables.recordDecision, Tables.recordActivity, List.countP_append,
    List.countP_singleton]

@[simp] theorem count_recordPolicy (key : SenderKey) (now : ℤ) (status : UnsubStatus)
    (escalate : Option UnsubStatus → UnsubStatus) (action : ActivityAction) :
    (db.recordPolicy key now status escalate).count action = db.count action := rfl

theorem count_failExecution (key : SenderKey) (now : ℤ) (mailboxAccountId : MailboxId)
    (actionId : ActionId) (action : ActivityAction) :
    (db.failExecution key now mailboxAccountId actionId).count action =
      db.count action + if db.jobs.rows.any (Tables.stillQueued mailboxAccountId actionId) = true ∧
        action = .unsubscribeFailed then 1 else 0 := by
  unfold Tables.failExecution
  by_cases queued : db.jobs.rows.any (Tables.stillQueued mailboxAccountId actionId) = true
  · simp [Tables.count, Tables.recordActivity, Tables.markFailed, List.countP_append,
      List.countP_singleton, queued, eq_comm]
  · simp [queued]

/-! ## The loop over one-click senders -/

/-- What the loop has done for some senders. -/
structure Persisted (request : BulkRequest) (senders : List Sender) (b b' : Batch) : Prop where
  same : SameSenders b.db b'.db
  count : ∀ action ≠ .unsubscribe, b'.db.count action = b.db.count action
  kept : ∀ key row, b.db.jobs.get key = some row → b'.db.jobs.get key = some row
  added : ∀ key row, b'.db.jobs.get key = some row →
    b.db.jobs.get key = some row ∨ ∃ sender ∈ senders, key = request.rowKey sender.id
  known : ∀ sender ∈ senders, ∃ row, b'.db.jobs.get (request.rowKey sender.id) = some row ∧
    row.mailboxAccountId = request.mailboxAccountId
  fresh : ∀ job ∈ b'.fresh, job ∈ b.fresh ∨
    (∃ sender ∈ senders, job.idempotencyKey = request.rowKey sender.id) ∧
      b.db.jobs.get job.idempotencyKey = none ∧
      ∃ row, b'.db.jobs.get job.idempotencyKey = some row ∧
        Tables.stillQueued request.mailboxAccountId job.actionId row = true
  freshKept : ∀ job ∈ b.fresh, job ∈ b'.fresh
  made : ∀ sender ∈ senders, b.db.jobs.get (request.rowKey sender.id) = none →
    ∃ job ∈ b'.fresh, job.idempotencyKey = request.rowKey sender.id
  unchanged : (∀ sender ∈ senders, b.db.jobs.get (request.rowKey sender.id) ≠ none) →
    b'.db = b.db ∧ b'.fresh = b.fresh

theorem Persisted.nil (b : Batch) : Persisted request [] b b where
  same := .refl
  count := fun _ _ => rfl
  kept := fun _ _ there => there
  added := fun _ _ there => .inl there
  known := by simp
  fresh := fun _ mem => .inl mem
  freshKept := fun _ mem => mem
  made := by simp
  unchanged := fun _ => ⟨rfl, rfl⟩

theorem Persisted.cons {senders : List Sender} {b mid b' : Batch}
    (first : Persisted request [sender] b mid) (rest : Persisted request senders mid b') :
    Persisted request (sender :: senders) b b' where
  same := first.same.trans rest.same
  count := fun action other => (rest.count action other).trans (first.count action other)
  kept := fun key row there => rest.kept key row (first.kept key row there)
  added := fun key row there => by
    rcases rest.added key row there with there | ⟨other, mem, is⟩
    · exact (first.added key row there).imp id fun ⟨other, mem, is⟩ =>
        ⟨other, List.mem_cons.mpr (.inl (List.mem_singleton.mp mem)), is⟩
    · exact .inr ⟨other, List.mem_cons_of_mem _ mem, is⟩
  known := fun other mem => by
    rcases List.mem_cons.mp mem with rfl | mem
    · obtain ⟨row, there, own⟩ := first.known other List.mem_cons_self
      exact ⟨row, rest.kept _ _ there, own⟩
    · exact rest.known other mem
  fresh := fun job mem => by
    rcases rest.fresh job mem with mem | ⟨⟨other, mem, is⟩, absent, new⟩
    · refine (first.fresh job mem).imp id ?_
      rintro ⟨⟨other, mem, is⟩, absent, row, there, queued⟩
      exact ⟨⟨other, List.mem_cons.mpr (.inl (List.mem_singleton.mp mem)), is⟩, absent, row,
        rest.kept _ _ there, queued⟩
    · refine .inr ⟨⟨other, List.mem_cons_of_mem _ mem, is⟩, ?_, new⟩
      cases before : b.db.jobs.get job.idempotencyKey with
      | none => rfl
      | some row => cases (first.kept _ _ before).symm.trans absent
  freshKept := fun job mem => rest.freshKept job (first.freshKept job mem)
  made := fun other mem absent => by
    rcases List.mem_cons.mp mem with rfl | mem
    · obtain ⟨job, there, is⟩ := first.made other List.mem_cons_self absent
      exact ⟨job, rest.freshKept job there, is⟩
    · cases now : mid.db.jobs.get (request.rowKey other.id) with
      | none => exact rest.made other mem now
      | some row =>
        rcases first.added _ row now with before | ⟨one, here, is⟩
        · cases before.symm.trans absent
        · obtain ⟨job, there, of⟩ := first.made one here (is ▸ absent)
          exact ⟨job, rest.freshKept job there, of.trans is.symm⟩
  unchanged := fun all => by
    obtain ⟨db, fresh⟩ := first.unchanged fun other mem =>
      all other (List.mem_cons.mpr (.inl (List.mem_singleton.mp mem)))
    obtain ⟨db', fresh'⟩ := rest.unchanged fun other mem => by
      rw [db]
      exact all other (List.mem_cons_of_mem _ mem)
    exact ⟨db'.trans db, fresh'.trans fresh⟩

theorem sameSenders_recordIntent (jobs : JobTable) (now : ℤ) (sender : Sender)
    (actionId : ActionId) :
    SameSenders db (Batch.recordIntent now { db with jobs } sender actionId) := by
  have policy := @sameSenders_recordPolicy { db with jobs } sender.senderKey now .requested
    fun _ => .requested
  exact ⟨policy.senders, policy.isProtected⟩

theorem count_recordIntent {jobs : JobTable} (now : ℤ) (sender : Sender) (actionId : ActionId)
    {action : ActivityAction} (other : action ≠ .unsubscribe) :
    (Batch.recordIntent now { db with jobs } sender actionId).count action = db.count action := by
  refine (count_recordDecision ..).trans ?_
  rw [if_neg (Ne.symm other), add_zero, count_recordPolicy]
  rfl

theorem persisted_persist {b b' : Batch} (went : Batch.persist request now b sender = .ok b') :
    Persisted request [sender] b b' := by
  unfold Batch.persist at went
  simp only at went
  split at went
  · cases went
  next jobs row inserted =>
    obtain rfl := Except.ok.inj went
    obtain ⟨-, -, found, own⟩ | ⟨absurd, -⟩ := JobTable.insert_eq_ok inserted
    · refine ⟨.refl, fun _ _ => rfl, fun _ _ there => there, fun _ _ there => .inl there, ?_,
        fun _ mem => .inl mem, fun _ mem => mem, ?_, fun _ => ⟨rfl, rfl⟩⟩
      · intro other mem
        obtain rfl := List.mem_singleton.mp mem
        exact ⟨row, found, own⟩
      · intro other mem absent
        obtain rfl := List.mem_singleton.mp mem
        cases absent.symm.trans found
    · cases absurd
  next jobs row inserted =>
    obtain rfl := Except.ok.inj went
    obtain ⟨absurd, -⟩ | ⟨-, absent, rfl, rfl⟩ := JobTable.insert_eq_ok inserted
    · cases absurd
    · have get (key : String) := @JobTable.get_add _ key _ absent
      refine ⟨sameSenders_recordIntent .., fun action other => count_recordIntent _ _ _ other,
        ?_, ?_, ?_, ?_, ?_, ?_, ?_⟩
      · intro key row there
        refine (get key).trans ?_
        rw [if_neg, there]
        rintro rfl
        cases there.symm.trans absent
      · intro key row there
        have there := (get key).symm.trans there
        split_ifs at there with here
        · exact .inr ⟨sender, List.mem_singleton_self _, here⟩
        · exact .inl there
      · intro other mem
        obtain rfl := List.mem_singleton.mp mem
        exact ⟨_, (get _).trans (if_pos rfl), rfl⟩
      · intro job mem
        refine (List.mem_append.mp mem).imp id fun mem => ?_
        obtain rfl := List.mem_singleton.mp mem
        refine ⟨⟨sender, List.mem_singleton_self _, rfl⟩, absent, _, (get _).trans (if_pos rfl), ?_⟩
        simp [Tables.stillQueued, executionRow]
      · exact fun job mem => List.mem_append_left _ mem
      · intro other mem _
        obtain rfl := List.mem_singleton.mp mem
        exact ⟨_, List.mem_append_right _ (List.mem_singleton_self _), rfl⟩
      · intro all
        exact (all sender (List.mem_singleton_self _) absent).elim

theorem persisted_foldlM {senders : List Sender} {b b' : Batch}
    (went : senders.foldlM (Batch.persist request now) b = .ok b') :
    Persisted request senders b b' := by
  induction senders generalizing b with
  | nil =>
    obtain rfl := Except.ok.inj went
    exact .nil b
  | cons sender senders ih =>
    rw [List.foldlM_cons] at went
    cases first : Batch.persist request now b sender with
    | error e =>
      rw [first] at went
      cases went
    | ok mid =>
      rw [first] at went
      exact (persisted_persist first).cons (ih went)

/-- The keys that are taken are taken by this mailbox. -/
def Own (request : BulkRequest) (db : Tables) (senders : List Sender) : Prop :=
  ∀ sender ∈ senders, ∀ row, db.jobs.get (request.rowKey sender.id) = some row →
    row.mailboxAccountId = request.mailboxAccountId

theorem exists_persist {b : Batch} (own : Own request b.db [sender]) :
    ∃ b', Batch.persist request now b sender = .ok b' := by
  unfold Batch.persist
  simp only
  split
  next e refused =>
    unfold JobTable.insert at refused
    split at refused
    · cases refused
    next row found =>
      split_ifs at refused with other
      exact (other (own sender (List.mem_singleton_self _) row found)).elim
  · exact ⟨_, rfl⟩
  · exact ⟨_, rfl⟩

theorem foldlM_ok_iff {senders : List Sender} {b : Batch} :
    (∃ b', senders.foldlM (Batch.persist request now) b = .ok b') ↔ Own request b.db senders := by
  constructor
  · rintro ⟨b', went⟩ sender mem row there
    have done := persisted_foldlM went
    obtain ⟨row', there', own⟩ := done.known sender mem
    obtain rfl := Option.some.inj ((done.kept _ _ there).symm.trans there')
    exact own
  · intro own
    induction senders generalizing b with
    | nil => exact ⟨b, rfl⟩
    | cons sender senders ih =>
      obtain ⟨mid, first⟩ : ∃ mid, Batch.persist request now b sender = .ok mid :=
        exists_persist fun other mem =>
          own other (List.mem_cons.mpr (.inl (List.mem_singleton.mp mem)))
      have done := persisted_persist first
      obtain ⟨b', rest⟩ := ih (b := mid) fun other mem row there => by
        rcases done.added _ row there with there | ⟨one, here, is⟩
        · exact own other (List.mem_cons_of_mem _ mem) row there
        · obtain ⟨row', there', own'⟩ := done.known one here
          obtain rfl := Option.some.inj ((is ▸ there).symm.trans there')
          exact own'
      refine ⟨b', ?_⟩
      rw [List.foldlM_cons, first]
      exact rest

/-! ## The transaction -/

theorem sameSenders_recordManual (now : ℤ) (sender : Sender) :
    SameSenders db (Batch.recordManual now db sender) := by
  have policy := @sameSenders_recordPolicy db sender.senderKey now .actionRequired
    Batch.escalated
  exact ⟨policy.senders, policy.isProtected⟩

theorem count_recordManual (now : ℤ) (sender : Sender) (action : ActivityAction) :
    (Batch.recordManual now db sender).count action =
      db.count action + if .unsubscribeActionRequired = action then 1 else 0 := by
  unfold Batch.recordManual
  rw [count_recordDecision, count_recordPolicy]

theorem foldl_recordManual (now : ℤ) (senders : List Sender) (db : Tables) :
    SameSenders db (senders.foldl (Batch.recordManual now) db) ∧
      (senders.foldl (Batch.recordManual now) db).jobs = db.jobs ∧
      ∀ action, (senders.foldl (Batch.recordManual now) db).count action =
        db.count action + if .unsubscribeActionRequired = action then senders.length else 0 := by
  induction senders generalizing db with
  | nil => exact ⟨.refl, rfl, by simp⟩
  | cons sender senders ih =>
    obtain ⟨same, jobs, count⟩ := ih (Batch.recordManual now db sender)
    refine ⟨(sameSenders_recordManual now sender).trans same, jobs, fun action => ?_⟩
    rw [List.foldl_cons, count, count_recordManual, List.length_cons]
    split_ifs <;> omega

/-- What a transaction has done: the jobs of the one-click senders are there. -/
structure After (request : BulkRequest) (db : Tables) (db' : Tables) : Prop where
  same : SameSenders db db'
  kept : ∀ key row, db.jobs.get key = some row → db'.jobs.get key = some row
  added : ∀ key row, db'.jobs.get key = some row → db.jobs.get key = some row ∨
    ∃ sender ∈ db.sendable request, key = request.rowKey sender.id
  known : ∀ sender ∈ (db.split request).actionable, ∃ row,
    db'.jobs.get (request.rowKey sender.id) = some row ∧
      row.mailboxAccountId = request.mailboxAccountId

theorem transaction_ok (went : Batch.transaction request now db = .ok batch) :
    ∃ b, Persisted request (db.split request).actionable ⟨db, none, []⟩ b ∧ batch.fresh = b.fresh ∧
      batch.db = (db.manual request).foldl (Batch.recordManual now) b.db := by
  unfold Batch.transaction at went
  split at went
  · cases went
  next b loop =>
    obtain rfl := Except.ok.inj went
    exact ⟨b, persisted_foldlM loop, rfl, rfl⟩

theorem after_transaction (went : Batch.transaction request now db = .ok batch) :
    After request db batch.db := by
  obtain ⟨b, done, -, is⟩ := transaction_ok went
  obtain ⟨same, jobs, -⟩ := foldl_recordManual now (db.manual request) b.db
  rw [is]
  refine ⟨done.same.trans same, ?_, ?_, ?_⟩
  · rw [jobs]
    exact done.kept
  · rw [jobs]
    intro key row there
    refine (done.added key row there).imp id ?_
    rintro ⟨sender, mem, is⟩
    exact ⟨sender, List.mem_of_mem_filter mem, is⟩
  · rw [jobs]
    exact done.known

theorem mem_busyKeys {senderKey : SenderKey} :
    senderKey ∈ db.busyKeys request ↔ ∃ key row, db.jobs.get key = some row ∧
      row.mailboxAccountId = request.mailboxAccountId ∧ row.direction = .forward ∧
      row.status.live = true ∧ (∀ sender ∈ db.sendable request, key ≠ request.rowKey sender.id) ∧
      ∃ senderId, row.selector = .sender senderId senderKey := by
  simp only [Tables.busyKeys, Tables.liveForwardJobSenderKeys, List.mem_filterMap, List.mem_map,
    not_exists, not_and]
  constructor
  · rintro ⟨row, mem, is⟩
    split_ifs at is with live
    refine ⟨row.idempotencyKey, row, JobTable.get_eq_some.mpr ⟨mem, rfl⟩, live.1, live.2.1,
      live.2.2.1, fun sender there => (Ne.symm (live.2.2.2 sender there)), ?_⟩
    cases selector : row.selector with
    | sender senderId key =>
      rw [selector] at is
      obtain rfl := Option.some.inj is
      exact ⟨senderId, rfl⟩
    | messages =>
      rw [selector] at is
      cases is
  · rintro ⟨key, row, there, own, forward, live, other, senderId, selector⟩
    obtain ⟨mem, rfl⟩ := JobTable.get_eq_some.mp there
    refine ⟨row, mem, ?_⟩
    rw [if_pos ⟨own, forward, live, fun sender mem => Ne.symm (other sender mem)⟩, selector]

/-- A replay finds the senders that the first post has found. -/
theorem After.actionable (after : After request db db') :
    (db'.split request).actionable = (db.split request).actionable := by
  have busy : ∀ key, key ∈ db'.busyKeys request ↔ key ∈ db.busyKeys request := by
    intro senderKey
    rw [mem_busyKeys, mem_busyKeys, after.same.sendable]
    refine exists_congr fun key => exists_congr fun row => ?_
    constructor
    · rintro ⟨there, own, forward, live, other, selector⟩
      rcases after.added key row there with there | ⟨sender, mem, is⟩
      · exact ⟨there, own, forward, live, other, selector⟩
      · exact (other sender mem is).elim
    · rintro ⟨there, rest⟩
      exact ⟨after.kept key row there, rest⟩
  simp only [Tables.split, after.same.sendable, busy]

/-! ## The post -/

/-- The checks of a post that do not look at the tables, and its commit. -/
structure Env.Passes (env : Env) : Prop where
  tierAllows : env.tierAllows = .ok ()
  queue : env.queue = true
  sendsEnabled : env.sendsEnabled = true
  commits : env.commits = true

/-- The post gets as far as its commit. -/
structure Admits (env : Env) (request : BulkRequest) (db : Tables) : Prop where
  passes : env.Passes
  /-- Some sender is actionable, and unless this is a replay there is capacity. -/
  capacity : ∃ anchor rest, (db.split request).actionable = anchor :: rest ∧
    (db.jobs.get (request.rowKey anchor.id) = none → env.capacity = .ok ())
  own : Own request db (db.split request).actionable

theorem commit_eq_ok {transaction : Except ServiceError Batch} {commits : Bool} :
    (do
      let batch ← transaction
      if commits then return batch
      throw aborted) = .ok batch ↔ commits = true ∧ transaction = .ok batch := by
  cases transaction with
  | error e => simp [bind, Except.bind]
  | ok batch =>
    cases commits <;>
      simp [bind, Except.bind, pure, Except.pure, throw, throwThe, MonadExceptOf.throw]

/-- The checks in their order, and the commit. -/
theorem admission_eq_ok :
    admission env db request = .ok batch ↔ env.Passes ∧
      (∃ anchor rest, (db.split request).actionable = anchor :: rest ∧
        (db.jobs.get (request.rowKey anchor.id) = none → env.capacity = .ok ())) ∧
      Batch.transaction request env.now db = .ok batch := by
  have passes : env.Passes ↔ env.tierAllows = .ok () ∧ env.queue = true ∧
      env.sendsEnabled = true ∧ env.commits = true :=
    ⟨fun h => ⟨h.tierAllows, h.queue, h.sendsEnabled, h.commits⟩,
      fun ⟨tier, queue, sends, commits⟩ => ⟨tier, queue, sends, commits⟩⟩
  rw [passes]
  unfold admission
  cases tier : env.tierAllows with
  | error e => simp [bind, Except.bind]
  | ok _ =>
  cases queue : env.queue with
  | false => simp [bind, Except.bind, throw, throwThe, MonadExceptOf.throw]
  | true =>
  cases actionable : (db.split request).actionable with
  | nil => simp [bind, Except.bind, throw, throwThe, MonadExceptOf.throw]
  | cons anchor rest =>
  cases sends : env.sendsEnabled with
  | false => simp [bind, Except.bind, throw, throwThe, MonadExceptOf.throw]
  | true =>
    have gone : (do
          let batch ← Batch.transaction request env.now db
          if env.commits then return batch
          throw aborted) = .ok batch ↔
        env.commits = true ∧ Batch.transaction request env.now db = .ok batch := commit_eq_ok
    cases known : db.jobs.get (request.rowKey anchor.id) with
    | some row =>
      refine Iff.trans ?_ (gone.trans ?_)
      · simp [known, bind, Except.bind]
      · simp [known]
    | none =>
      cases capacity : env.capacity with
      | error e => simp [known, bind, Except.bind]
      | ok _ =>
        refine Iff.trans ?_ (gone.trans ?_)
        · simp [known, bind, Except.bind]
        · simp

/-- A post that is admitted has gone through its transaction. -/
theorem transaction_of_admission (admitted : admission env db request = .ok batch) :
    Batch.transaction request env.now db = .ok batch :=
  (admission_eq_ok.mp admitted).2.2

theorem exists_transaction :
    (∃ batch, Batch.transaction request now db = .ok batch) ↔
      Own request db (db.split request).actionable := by
  rw [← @foldlM_ok_iff request now _ ⟨db, none, []⟩]
  unfold Batch.transaction
  constructor
  · rintro ⟨batch, went⟩
    split at went
    · cases went
    next b loop => exact ⟨b, loop⟩
  · rintro ⟨b, loop⟩
    rw [loop]
    exact ⟨_, rfl⟩

theorem admits_iff : (∃ batch, admission env db request = .ok batch) ↔ Admits env request db := by
  simp only [admission_eq_ok, exists_and_left, exists_transaction]
  exact ⟨fun ⟨passes, capacity, own⟩ => ⟨passes, capacity, own⟩,
    fun admits => ⟨admits.passes, admits.capacity, admits.own⟩⟩

/-- After a commit, a post gets to its own if it passes the other checks. -/
theorem After.admits (after : After request db db') (some : (db.split request).actionable ≠ []) :
    Admits later request db' ↔ later.Passes := by
  refine ⟨Admits.passes, fun passes => ⟨passes, ?_, ?_⟩⟩
  · obtain ⟨anchor, rest, is⟩ := List.exists_cons_of_ne_nil some
    refine ⟨anchor, rest, after.actionable.trans is, fun absent => ?_⟩
    obtain ⟨row, there, -⟩ := after.known anchor (is ▸ List.mem_cons_self)
    cases there.symm.trans absent
  · rw [after.actionable]
    intro sender mem row there
    obtain ⟨row', there', own⟩ := after.known sender mem
    obtain rfl := Option.some.inj (there.symm.trans there')
    exact own

/-- Where no mailto sender is recorded, the commit of a replay writes nothing. -/
theorem After.replay (after : After request db db') (nobody : db.manual request = [])
    (admitted : admission later db' request = .ok batch) : batch.db = db' ∧ batch.fresh = [] := by
  have went := transaction_of_admission admitted
  obtain ⟨b, done, fresh, is⟩ := transaction_ok went
  obtain ⟨same, none⟩ := done.unchanged fun sender mem => by
    obtain ⟨row, there, -⟩ := after.known sender (after.actionable ▸ mem)
    simp [there]
  rw [after.same.manual, nobody] at is
  exact ⟨is.trans same, fresh.trans none⟩

theorem enqueueAll_nil (env : Env) (db : Tables) : enqueueAll env request [] db = db := rfl

theorem enqueueAll_of_not_thrown {fresh : List FreshJob}
    (through : ∀ job ∈ fresh, ∀ reason, env.answer job.idempotencyKey ≠ .thrown reason)
    (db : Tables) : enqueueAll env request fresh db = db := by
  induction fresh with
  | nil => rfl
  | cons job fresh ih =>
    have rest := ih fun other mem => through other (List.mem_cons_of_mem _ mem)
    have first := through job List.mem_cons_self
    unfold enqueueAll at rest ⊢
    rw [List.foldl_cons]
    cases answer : env.answer job.idempotencyKey with
    | thrown reason => exact (first reason answer).elim
    | accepted | unattempted => exact rest

theorem sameSenders_enqueueAll (env : Env) (fresh : List FreshJob) (db : Tables) :
    SameSenders db (enqueueAll env request fresh db) := by
  induction fresh generalizing db with
  | nil => exact .refl
  | cons job fresh ih =>
    unfold enqueueAll
    rw [List.foldl_cons]
    cases env.answer job.idempotencyKey with
    | thrown reason => exact (sameSenders_failExecution ..).trans (ih _)
    | accepted | unattempted => exact ih db

theorem count_enqueueAll (env : Env) (fresh : List FreshJob) (db : Tables) {action : ActivityAction}
    (other : action ≠ .unsubscribeFailed) :
    (enqueueAll env request fresh db).count action = db.count action := by
  induction fresh generalizing db with
  | nil => rfl
  | cons job fresh ih =>
    unfold enqueueAll at ih ⊢
    rw [List.foldl_cons, ih]
    cases env.answer job.idempotencyKey with
    | thrown reason => simp [count_failExecution, other]
    | accepted | unattempted => rfl

theorem le_count_enqueueAll (env : Env) (fresh : List FreshJob) (db : Tables)
    (action : ActivityAction) :
    db.count action ≤ (enqueueAll env request fresh db).count action := by
  induction fresh generalizing db with
  | nil => exact le_rfl
  | cons job fresh ih =>
    unfold enqueueAll at ih ⊢
    rw [List.foldl_cons]
    cases env.answer job.idempotencyKey with
    | thrown reason => exact (Nat.le_add_right ..).trans ((count_failExecution ..).symm.le.trans (ih _))
    | accepted | unattempted => exact ih db

/-- A job that is still queued and whose enqueue throws is logged as failed. -/
theorem count_of_thrown {fresh : List FreshJob} {job : FreshJob} {reason : String}
    (queued : ∀ job ∈ fresh, ∃ row, db.jobs.get job.idempotencyKey = some row ∧
      Tables.stillQueued request.mailboxAccountId job.actionId row = true)
    (mem : job ∈ fresh) (thrown : env.answer job.idempotencyKey = .thrown reason) :
    db.count .unsubscribeFailed < (enqueueAll env request fresh db).count .unsubscribeFailed := by
  induction fresh with
  | nil => cases mem
  | cons first fresh ih =>
    unfold enqueueAll at ih ⊢
    rw [List.foldl_cons]
    cases answer : env.answer first.idempotencyKey with
    | thrown reason =>
      refine Nat.lt_of_lt_of_le ?_ (le_count_enqueueAll env fresh _ .unsubscribeFailed)
      obtain ⟨row, there, still⟩ := queued first List.mem_cons_self
      simp only [count_failExecution]
      rw [if_pos ⟨List.any_eq_true.mpr ⟨row, (JobTable.get_eq_some.mp there).1, still⟩, trivial⟩]
      exact Nat.lt_succ_self _
    | accepted | unattempted =>
      refine ih (fun other there => queued other (List.mem_cons_of_mem _ there)) ?_
      rcases List.mem_cons.mp mem with rfl | mem
      · cases answer.symm.trans thrown
      · exact mem

/-! ## Sequences of posts -/

/-- The tables after a post. -/
def post (env : Env) (request : BulkRequest) (db : Tables) : Tables :=
  (enqueueBulkUnsubscribe env request db).2

def posts (request : BulkRequest) (db : Tables) (envs : List Env) : Tables :=
  envs.foldl (fun db env => post env request db) db

theorem post_of_not_admits (refused : ¬Admits env request db) : post env request db = db := by
  unfold post enqueueBulkUnsubscribe
  cases admission' : admission env db request with
  | error e => rfl
  | ok batch => exact (refused (admits_iff.mp ⟨batch, admission'⟩)).elim

theorem post_of_admission (admitted : admission env db request = .ok batch) :
    post env request db = enqueueAll env request batch.fresh batch.db := by
  simp [post, enqueueBulkUnsubscribe, admitted]

/-- What a commit adds to the log. -/
theorem count_of_admission (admitted : admission env db request = .ok batch) :
    batch.db.count .unsubscribeActionRequired =
        db.count .unsubscribeActionRequired + (db.manual request).length ∧
      batch.db.count .unsubscribeFailed = db.count .unsubscribeFailed := by
  have went := transaction_of_admission admitted
  obtain ⟨b, done, -, is⟩ := transaction_ok went
  obtain ⟨-, -, count⟩ := foldl_recordManual env.now (db.manual request) b.db
  rw [is, count, count, done.count _ (by decide), done.count _ (by decide)]
  exact ⟨rfl, rfl⟩

theorem sameSenders_post (env : Env) (db : Tables) : SameSenders db (post env request db) := by
  by_cases admits : Admits env request db
  · obtain ⟨batch, admitted⟩ := admits_iff.mpr admits
    rw [post_of_admission admitted]
    exact (after_transaction (transaction_of_admission admitted)).same.trans
      (sameSenders_enqueueAll ..)
  · rw [post_of_not_admits admits]
    exact .refl

theorem count_post (env : Env) (db : Tables) :
    db.count .unsubscribeActionRequired ≤ (post env request db).count .unsubscribeActionRequired ∧
      db.count .unsubscribeFailed ≤ (post env request db).count .unsubscribeFailed := by
  by_cases admits : Admits env request db
  · obtain ⟨batch, admitted⟩ := admits_iff.mpr admits
    obtain ⟨required, failed⟩ := count_of_admission admitted
    have more := @le_count_enqueueAll request env batch.fresh batch.db
    rw [post_of_admission admitted]
    exact ⟨(required ▸ Nat.le_add_right ..).trans (more _), (failed.symm.le).trans (more _)⟩
  · rw [post_of_not_admits admits]
    exact ⟨le_rfl, le_rfl⟩

theorem count_posts (envs : List Env) (db : Tables) :
    db.count .unsubscribeActionRequired ≤ (posts request db envs).count .unsubscribeActionRequired ∧
      db.count .unsubscribeFailed ≤ (posts request db envs).count .unsubscribeFailed := by
  induction envs generalizing db with
  | nil => exact ⟨le_rfl, le_rfl⟩
  | cons env envs ih =>
    obtain ⟨required, failed⟩ := @count_post request env db
    exact ⟨required.trans (ih _).1, failed.trans (ih _).2⟩

/-- The posts that came to their commit were undisturbed: the first handed each of its new jobs
to the queue or did not get to it, and it was the last one, unless no mailto sender is
recorded. -/
def Undisturbed (request : BulkRequest) (db : Tables) : List Env → Prop
  | [] => True
  | env :: rest =>
    (Admits env request db →
      (∀ sender ∈ (db.split request).actionable,
        db.jobs.get (request.rowKey sender.id) = none →
          ∀ reason, env.answer (request.rowKey sender.id) ≠ .thrown reason) ∧
      (db.manual request = [] ∨ ∀ later ∈ rest, ¬later.Passes)) ∧
    (¬Admits env request db → Undisturbed request db rest)

/-- The new jobs of a commit are those of the senders without one. -/
theorem through_iff (admitted : admission env db request = .ok batch) :
    (∀ job ∈ batch.fresh, ∀ reason, env.answer job.idempotencyKey ≠ .thrown reason) ↔
      ∀ sender ∈ (db.split request).actionable,
        db.jobs.get (request.rowKey sender.id) = none →
          ∀ reason, env.answer (request.rowKey sender.id) ≠ .thrown reason := by
  have went := transaction_of_admission admitted
  obtain ⟨b, done, fresh, -⟩ := transaction_ok went
  rw [fresh]
  constructor
  · intro through sender mem absent
    obtain ⟨job, there, is⟩ := done.made sender mem absent
    exact is ▸ through job there
  · intro through job mem
    rcases done.fresh job mem with absurd | ⟨⟨sender, there, is⟩, absent, -⟩
    · cases absurd
    · exact is ▸ through sender there (is ▸ absent)

theorem queued_of_admission (admitted : admission env db request = .ok batch) :
    ∀ job ∈ batch.fresh, ∃ row, batch.db.jobs.get job.idempotencyKey = some row ∧
      Tables.stillQueued request.mailboxAccountId job.actionId row = true := by
  have went := transaction_of_admission admitted
  obtain ⟨b, done, fresh, is⟩ := transaction_ok went
  obtain ⟨-, jobs, -⟩ := foldl_recordManual env.now (db.manual request) b.db
  rw [fresh, is, jobs]
  intro job mem
  rcases done.fresh job mem with absurd | ⟨-, -, new⟩
  · cases absurd
  · exact new

/-- Replays after a commit change nothing where no mailto sender is recorded or none of them
gets to its commit. -/
theorem After.posts (after : After request db db') {envs : List Env}
    (quiet : db.manual request = [] ∨ ∀ later ∈ envs, ¬later.Passes) :
    posts request db' envs = db' := by
  induction envs with
  | nil => rfl
  | cons later envs ih =>
    have rest := ih (quiet.imp id fun none other mem => none other (List.mem_cons_of_mem _ mem))
    have unchanged : post later request db' = db' := by
      by_cases admits : Admits later request db'
      · obtain ⟨batch, admitted⟩ := admits_iff.mpr admits
        have nobody := quiet.resolve_right fun none => none later List.mem_cons_self admits.passes
        obtain ⟨same, fresh⟩ := after.replay nobody admitted
        rw [post_of_admission admitted, fresh, same, enqueueAll_nil]
      · exact post_of_not_admits admits
    unfold Unsubscribe.posts at rest ⊢
    rw [List.foldl_cons, unchanged]
    exact rest

/-- If mailto senders are recorded and the log has no more of them at the end, no replay has
got to its commit. -/
theorem After.not_passes (after : After request db db') (some : (db.split request).actionable ≠ [])
    (somebody : db.manual request ≠ []) {envs : List Env}
    (same : (Unsubscribe.posts request db' envs).count .unsubscribeActionRequired =
      db'.count .unsubscribeActionRequired) : ∀ later ∈ envs, ¬later.Passes := by
  induction envs with
  | nil => simp
  | cons later envs ih =>
    have refused : ¬Admits later request db' := by
      intro admits
      obtain ⟨batch, admitted⟩ := admits_iff.mpr admits
      have more : db'.count .unsubscribeActionRequired <
          (post later request db').count .unsubscribeActionRequired := by
        rw [post_of_admission admitted, count_enqueueAll _ _ _ (by decide),
          (count_of_admission admitted).1, after.same.manual]
        exact Nat.lt_add_of_pos_right (List.length_pos_of_ne_nil somebody)
      have := (@count_posts request envs (post later request db')).1
      unfold Unsubscribe.posts at same this
      rw [List.foldl_cons] at same
      omega
    intro other mem
    rcases List.mem_cons.mp mem with rfl | mem
    · exact fun passes => refused ((after.admits some).mpr passes)
    · refine ih ?_ other mem
      unfold Unsubscribe.posts at same ⊢
      rwa [List.foldl_cons, post_of_not_admits refused] at same

/-! ## One success -/

/-- The same post, each of its jobs taken by the queue. -/
def Env.accepted (env : Env) : Env := { env with answer := fun _ => .accepted }

theorem admission_accepted (env : Env) (db : Tables) :
    admission env.accepted db request = admission env db request := rfl

/-- A post that the queue follows succeeds if it gets to its commit. -/
theorem accepted_of_admission (admitted : admission env db request = .ok batch) :
    ∃ result, enqueueBulkUnsubscribe env.accepted request db = (some (.ok result), batch.db) := by
  have through : enqueueAll env.accepted request batch.fresh batch.db = batch.db :=
    enqueueAll_of_not_thrown (by simp [Env.accepted]) _
  have attempted : (batch.fresh.any fun job =>
      env.accepted.answer job.idempotencyKey = .unattempted) = false := by
    simp [Env.accepted]
  refine ⟨⟨batch.anchor.map (·.id), (batch.anchor.map (·.status)).getD .queued,
    (db.split request).actionable.length, (db.split request).actionable.length,
    (db.split request).skipped⟩, ?_⟩
  rw [enqueueBulkUnsubscribe, admission_accepted, admitted]
  simp only [through, replyTo, attempted, Bool.false_eq_true, if_false]
  split
  next reason found =>
    obtain ⟨job, -, thrown⟩ := List.exists_of_findSome?_eq_some found
    cases thrown
  next => rfl

/-- A post that succeeds has come to its commit, and the queue has taken its new jobs. -/
theorem admission_of_succeeded {result : BulkResult}
    (succeeded : (enqueueBulkUnsubscribe env request db).1 = some (.ok result)) :
    ∃ batch, admission env db request = .ok batch ∧
      ∀ job ∈ batch.fresh, ∀ reason, env.answer job.idempotencyKey ≠ .thrown reason := by
  unfold enqueueBulkUnsubscribe at succeeded
  cases admitted : admission env db request with
  | error e =>
    rw [admitted] at succeeded
    cases succeeded
  | ok batch =>
    rw [admitted] at succeeded
    simp only [replyTo] at succeeded
    refine ⟨batch, rfl, ?_⟩
    split_ifs at succeeded with unattempted
    split at succeeded
    · cases succeeded
    next taken =>
      intro job mem reason thrown
      have := List.findSome?_eq_none_iff.mp taken job mem
      rw [thrown] at this
      cases this

/-- What one successful post leaves. -/
theorem eq_of_accepted {db'' : Tables} {result : BulkResult}
    (succeeded : enqueueBulkUnsubscribe env.accepted request db = (some (.ok result), db'')) :
    ∃ batch, admission env db request = .ok batch ∧ db'' = batch.db := by
  obtain ⟨batch, admitted, -⟩ := admission_of_succeeded (congrArg Prod.fst succeeded)
  rw [admission_accepted] at admitted
  obtain ⟨result', one⟩ := accepted_of_admission admitted
  exact ⟨batch, admitted, (congrArg Prod.snd (one.symm.trans succeeded)).symm⟩

/-- Some post of the sequence, sent on its own and followed by the queue, succeeds and leaves
these rows. -/
def OneSuccess (request : BulkRequest) (db : Tables) (envs : List Env) (db' : Tables) : Prop :=
  ∃ env ∈ envs, ∃ result,
    enqueueBulkUnsubscribe env.accepted request db = (some (.ok result), db')

theorem posts_of_not_admits {envs : List Env} (refused : ∀ env ∈ envs, ¬Admits env request db) :
    posts request db envs = db := by
  induction envs with
  | nil => rfl
  | cons env envs ih =>
    have rest := ih fun other mem => refused other (List.mem_cons_of_mem _ mem)
    unfold posts at rest ⊢
    rwa [List.foldl_cons, post_of_not_admits (refused env List.mem_cons_self)]

theorem Undisturbed.oneSuccess {envs : List Env} (undisturbed : Undisturbed request db envs)
    (reached : ∃ env ∈ envs, Admits env request db) :
    OneSuccess request db envs (posts request db envs) := by
  induction envs with
  | nil =>
    obtain ⟨env, mem, -⟩ := reached
    cases mem
  | cons env envs ih =>
    by_cases admits : Admits env request db
    · obtain ⟨batch, admitted⟩ := admits_iff.mpr admits
      obtain ⟨through, quiet⟩ := undisturbed.1 admits
      have first : post env request db = batch.db := by
        rw [post_of_admission admitted]
        exact enqueueAll_of_not_thrown ((through_iff admitted).mpr through) _
      have after := after_transaction (transaction_of_admission admitted)
      obtain ⟨result, one⟩ := accepted_of_admission admitted
      refine ⟨env, List.mem_cons_self, result, ?_⟩
      unfold posts
      rw [List.foldl_cons, first, one]
      exact congrArg _ (after.posts quiet).symm
    · have again : ∃ env ∈ envs, Admits env request db := by
        obtain ⟨other, mem, admits'⟩ := reached
        rcases List.mem_cons.mp mem with rfl | mem
        · exact (admits admits').elim
        · exact ⟨other, mem, admits'⟩
      obtain ⟨other, mem, result, one⟩ := ih (undisturbed.2 admits) again
      refine ⟨other, List.mem_cons_of_mem _ mem, result, ?_⟩
      unfold posts at one ⊢
      rwa [List.foldl_cons, post_of_not_admits admits]

/-- The log tells whether the posts were undisturbed. -/
theorem undisturbed_of_count {envs : List Env}
    (required : (posts request db envs).count .unsubscribeActionRequired =
      db.count .unsubscribeActionRequired + (db.manual request).length)
    (failed : (posts request db envs).count .unsubscribeFailed = db.count .unsubscribeFailed) :
    Undisturbed request db envs := by
  induction envs with
  | nil => trivial
  | cons env envs ih =>
    refine ⟨fun admits => ?_, fun refused => ?_⟩
    · obtain ⟨batch, admitted⟩ := admits_iff.mpr admits
      have first := post_of_admission admitted
      obtain ⟨committed, spared⟩ := count_of_admission admitted
      have later := (@count_posts request envs (post env request db)).2
      have through : ∀ job ∈ batch.fresh, ∀ reason,
          env.answer job.idempotencyKey ≠ .thrown reason := by
        intro job mem reason thrown
        have more := count_of_thrown (queued_of_admission admitted) mem thrown
        unfold posts at failed later
        rw [List.foldl_cons] at failed
        rw [first] at failed later
        omega
      refine ⟨(through_iff admitted).mp through, ?_⟩
      rw [enqueueAll_of_not_thrown through] at first
      have after := after_transaction (transaction_of_admission admitted)
      obtain ⟨anchor, others, some, -⟩ := admits.capacity
      refine or_iff_not_imp_left.mpr fun somebody => after.not_passes ?_ somebody ?_
      · rw [some]
        exact List.cons_ne_nil _ _
      · unfold posts at required ⊢
        rw [List.foldl_cons, first] at required
        omega
    · refine ih ?_ ?_
      all_goals
        unfold posts at required failed ⊢
        rw [List.foldl_cons, post_of_not_admits refused] at required failed
        assumption

/-- After posts of one key of which the last succeeds, the rows are those of one successful post
exactly when the posts were undisturbed. -/
theorem bulk_replay_iff (request : BulkRequest) (db : Tables) (envs : List Env) (last : Env)
    (result : BulkResult)
    (succeeded : (enqueueBulkUnsubscribe last request (posts request db envs)).1 =
      some (.ok result)) :
    OneSuccess request db (envs ++ [last]) (post last request (posts request db envs)) ↔
      Undisturbed request db (envs ++ [last]) := by
  have all : post last request (posts request db envs) = posts request db (envs ++ [last]) := by
    unfold posts
    rw [List.foldl_append]
    rfl
  rw [all]
  constructor
  · rintro ⟨env, -, result, one⟩
    obtain ⟨batch, admitted, is⟩ := eq_of_accepted one
    obtain ⟨required, failed⟩ := count_of_admission admitted
    exact undisturbed_of_count (is ▸ required) (is ▸ failed)
  · intro undisturbed
    refine undisturbed.oneSuccess ?_
    by_contra nobody
    push Not at nobody
    obtain ⟨batch, admitted, -⟩ := admission_of_succeeded succeeded
    rw [posts_of_not_admits fun env mem => nobody env (List.mem_append_left _ mem)] at admitted
    exact nobody last (List.mem_append_right _ (List.mem_singleton_self _))
      (admits_iff.mp ⟨batch, admitted⟩)

/-! ## Two selections -/

/-- A post that passes every check and is followed by the queue. -/
def smooth (now : ℤ) : Env where
  now
  tierAllows := .ok ()
  queue := true
  sendsEnabled := true
  capacity := .ok ()
  commits := true
  answer := fun _ => .accepted

def shop : Sender := ⟨"shop", "shop.example", some .oneClick, some "https://shop.example/u"⟩

def club : Sender := ⟨"club", "club.example", some .mailto, some "mailto:leave@club.example"⟩

def mailbox (senders : List Sender) : Tables := ⟨senders, ⟨[], .nil, .nil⟩, fun _ => none, [], []⟩

def selection (senders : List Sender) : BulkRequest := ⟨7, senders.map (·.id), "key"⟩

/-- What both posts of a selection with one one-click sender answer. -/
def accepted : BulkResult := ⟨some 1, .queued, 1, 1, []⟩

theorem bulk_replay_iff_shop :
    OneSuccess (selection [shop]) (mailbox [shop]) [smooth 0, smooth 1]
      (post (smooth 1) (selection [shop])
        (posts (selection [shop]) (mailbox [shop]) [smooth 0])) := by
  refine (bulk_replay_iff (selection [shop]) (mailbox [shop]) [smooth 0] (smooth 1) accepted
    (by decide +kernel)).mpr ?_
  have nobody : (mailbox [shop]).manual (selection [shop]) = [] := by decide +kernel
  exact ⟨fun _ => ⟨fun _ _ _ _ thrown => (nomatch thrown), .inl nobody⟩, fun _ =>
    ⟨fun _ => ⟨fun _ _ _ _ thrown => (nomatch thrown), .inl nobody⟩, fun _ => trivial⟩⟩

/-- The replay succeeds, and records the mailto sender a second time. -/
theorem manual_recorded_twice :
    let request := selection [shop, club]
    let once := posts request (mailbox [shop, club]) [smooth 0]
    let twice := post (smooth 1) request once
    (enqueueBulkUnsubscribe (smooth 1) request once).1 =
        some (.ok { accepted with skipped := [("club", .mailto club.unsubscribeUrl)] }) ∧
      (once.activity.length, twice.activity.length) = (2, 3) ∧
      (once.outbox.length, twice.outbox.length) = (2, 3) ∧
      ¬OneSuccess request (mailbox [shop, club]) [smooth 0, smooth 1] twice := by
  refine ⟨by decide +kernel, by decide +kernel, by decide +kernel, ?_⟩
  rintro ⟨env, mem, result, one⟩
  have lengths : (post env.accepted (selection [shop, club]) (mailbox [shop, club])).activity.length =
      (post (smooth 1) (selection [shop, club])
        (posts (selection [shop, club]) (mailbox [shop, club]) [smooth 0])).activity.length :=
    congrArg (fun reply => reply.2.activity.length) one
  clear one
  rcases List.mem_pair.mp mem with rfl | rfl
  · exact absurd lengths (by decide +kernel)
  · exact absurd lengths (by decide +kernel)

end DeclutrMail.Unsubscribe
