import Mathlib.Logic.Function.Basic
import Mathlib.Tactic.Common

/-!
# A queue that coalesces

The incremental-sync jobs of one mailbox as BullMQ keeps them under `keepLastIfActive`: the
deduplication key names the job that absorbs further adds. One that runs is followed by one
more job when it settles; a lost job leaves its key behind.

Time is the number of adds, starts and follow-ups so far.
-/

namespace DeclutrMail.Sync.Push

/-- The id of a job. Its readable part is left out: a UUID makes it unique. -/
abbrev JobId := ℕ

structure IncrementalSyncJobData where
  startHistoryId : ℕ
  endHistoryId : ℕ
  deriving DecidableEq

inductive JobState
  | waiting
  | delayed
  | active
  | completed
  | failed
  deriving DecidableEq

structure Job where
  data : IncrementalSyncJobData
  state : JobState
  processedOn : Option ℕ
  /-- What the job absorbed while it ran -/
  next : Option IncrementalSyncJobData
  storedAt : ℕ

def JobState.settled (state : JobState) : Prop := state = .completed ∨ state = .failed

/-- The job will start, or another one when it settles. -/
def Job.pending (job : Job) : Prop :=
  job.state = .waiting ∨ job.state = .delayed ∨ job.state = .active ∧ job.next.isSome

instance : DecidablePred Job.pending := fun _ => inferInstanceAs (Decidable (_ ∨ _ ∨ _))

/-- The ids from `issued` on are new. -/
structure Queue where
  jobs : JobId → Option Job
  key : Option JobId
  issued : JobId
  now : ℕ
  lastStart : ℕ

namespace Queue

def empty : Queue := ⟨fun _ => none, none, 0, 0, 0⟩

/-! ## Operations -/

def setJob (q : Queue) (id : JobId) (job : Option Job) : Queue :=
  { q with jobs := Function.update q.jobs id job }

/-- A new job. -/
def store (q : Queue) (data : IncrementalSyncJobData) : Queue :=
  { q.setJob q.issued (some ⟨data, .waiting, none, none, q.now + 1⟩) with
    issued := q.issued + 1
    now := q.now + 1 }

/-- The job that the key names takes an add over. -/
def absorb (q : Queue) (holder : JobId) (data : IncrementalSyncJobData) : Queue :=
  match q.jobs holder with
  | some job =>
    if job.state = .active then q.setJob holder (some { job with next := some data }) else q
  | none => q

/-- `queue.add`: the id that was asked for, and that of the job handed back. -/
def add (q : Queue) (data : IncrementalSyncJobData) : (JobId × JobId) × Queue :=
  match q.key with
  | none => ((q.issued, q.issued), { q.store data with key := some q.issued })
  | some holder =>
    ((q.issued, holder),
      { q.absorb holder data with issued := q.issued + 1, now := q.now + 1 })

/-- `removeDeduplicationKey`: only if it still names the job. -/
def removeKey (q : Queue) (holder : JobId) : Bool × Queue :=
  if q.key = some holder then (true, { q with key := none }) else (false, q)

/-- A worker takes the job. -/
def start (q : Queue) (id : JobId) (clock : ℕ) : Option Queue :=
  match q.jobs id with
  | some job =>
    if job.state = .waiting ∨ job.state = .delayed then
      some { q.setJob id (some { job with state := .active, processedOn := some clock }) with
        now := q.now + 1
        lastStart := q.now + 1 }
    else none
  | none => none

/-- An attempt failed, or its worker went away. -/
def retry (q : Queue) (id : JobId) : Option Queue :=
  match q.jobs id with
  | some job =>
    if job.state = .active then some (q.setJob id (some { job with state := .delayed })) else none
  | none => none

/-- The key after a job has settled: it moves on to the follow-up, or is cleared. A key that
names another job may stay. -/
def settledKey (q : Queue) (id : JobId) (followUp : Option JobId) (moves : Bool) : Option JobId :=
  if q.key = some id then followUp else if moves then followUp.or q.key else q.key

/-- A job completes, or fails for good; what it absorbed is queued. -/
def settle (q : Queue) (id : JobId) (completes moves : Bool) : Option Queue :=
  match q.jobs id with
  | some job =>
    if job.state = .active then
      let ended := q.setJob id
        (some { job with state := if completes then .completed else .failed, next := none })
      match job.next with
      | none => some { ended with key := q.settledKey id none moves }
      | some data =>
        some { ended.store data with key := q.settledKey id (some q.issued) moves }
    else none
  | none => none

/-- A job is gone, and the key may still name it. -/
def lose (q : Queue) (id : JobId) : Queue := q.setJob id none

/-! ## What is there of a call -/

/-- Some job starts, or has started, after `since`. -/
def covers (q : Queue) (since : ℕ) : Prop :=
  since < q.lastStart ∨ ∃ id < q.issued, ∃ job ∈ q.jobs id, job.pending

/-- Some job was stored at `since` or later, and waits or has started. -/
def renewed (q : Queue) (since : ℕ) : Prop :=
  since < q.lastStart ∨
    ∃ id < q.issued, ∃ job ∈ q.jobs id, job.state = .waiting ∧ since ≤ job.storedAt

instance (q : Queue) (since : ℕ) : Decidable (q.covers since) := by
  unfold covers
  infer_instance

instance (q : Queue) (since : ℕ) : Decidable (q.renewed since) := by
  unfold renewed
  infer_instance

/-- The ids in use have been issued, and the key names no settled job. -/
structure Sound (q : Queue) : Prop where
  issued {id : JobId} {job : Job} : q.jobs id = some job → id < q.issued
  key {holder : JobId} : q.key = some holder → holder < q.issued
  unsettled {holder : JobId} {job : Job} : q.key = some holder → q.jobs holder = some job →
    ¬job.state.settled
  lastStart : q.lastStart ≤ q.now

/-- A call whose first add was absorbed by `holder`. -/
structure Met (q : Queue) (since : ℕ) (holder : JobId) : Prop where
  issued : holder < q.issued
  awaits : q.renewed since ∨ q.jobs holder = none ∨ ∃ job, q.jobs holder = some job ∧ job.pending
  key : q.key = some holder ∨ q.key = none ∨ q.renewed since

/-- The key has been taken off. -/
def Cleared (q : Queue) (since : ℕ) : Prop := q.key = none ∨ q.renewed since

/-- What a step keeps of a call whose first add was at `since`. -/
structure Next (since : ℕ) (q q' : Queue) : Prop where
  now : q.now ≤ q'.now
  renewed : q.renewed since → q'.renewed since
  met {holder : JobId} : q.Met since holder → q'.Met since holder
  cleared : q.Cleared since → q'.Cleared since

theorem sound_empty : empty.Sound := ⟨nofun, nofun, nofun, Nat.le_refl 0⟩

variable {q q' : Queue} {since : ℕ} {id holder : JobId} {job : Job}
  {data : IncrementalSyncJobData}

theorem covers_of_renewed (h : q.renewed since) : q.covers since := by
  rcases h with started | ⟨id, below, job, here, waiting, -⟩
  · exact .inl started
  · exact .inr ⟨id, below, job, here, .inl waiting⟩

/-- The holder of a call is still there. -/
theorem Met.covers (h : q.Met since holder) (here : q.jobs holder ≠ none) : q.covers since := by
  rcases h.awaits with renewed | lost | ⟨job, stored, pending⟩
  · exact covers_of_renewed renewed
  · exact absurd lost here
  · exact .inr ⟨holder, h.issued, job, stored, pending⟩

/-- The key no longer names the holder of a call. -/
theorem Met.covers_of_ne (h : q.Met since holder) (moved : q.key ≠ some holder)
    (kept : q.jobs holder = none → q.key = none → q.renewed since) : q.covers since := by
  by_cases here : q.jobs holder = none
  · rcases h.key with same | cleared | renewed
    · exact absurd same moved
    · exact covers_of_renewed (kept here cleared)
    · exact covers_of_renewed renewed
  · exact h.covers here

/-! ## Steps -/

theorem Next.refl (since : ℕ) (q : Queue) : Next since q q :=
  ⟨Nat.le_refl _, fun h => h, fun h => h, fun h => h⟩

/-- An add that creates a job is told from one that is absorbed. -/
theorem add_ids (h : q.Sound) (data : IncrementalSyncJobData) :
    (q.key = none ∧ (q.add data).1 = (q.issued, q.issued)) ∨
      ∃ holder, q.key = some holder ∧ holder ≠ q.issued ∧ (q.add data).1 = (q.issued, holder) := by
  unfold add
  cases key : q.key with
  | none => exact .inl ⟨rfl, rfl⟩
  | some holder => exact .inr ⟨holder, rfl, Nat.ne_of_lt (h.key key), rfl⟩

/-- A step that stores or starts a job. -/
theorem Next.of_renewed (now : q.now ≤ q'.now) (renewed : q'.renewed since)
    (issued : q.issued ≤ q'.issued) : Next since q q' :=
  ⟨now, fun _ => renewed, fun h => ⟨Nat.lt_of_lt_of_le h.issued issued, .inl renewed,
    .inr (.inr renewed)⟩, fun _ => .inr renewed⟩

/-- A step that keeps the jobs that count. -/
theorem Next.of_jobs (now : q.now ≤ q'.now) (issued : q.issued ≤ q'.issued) (lastStart : q'.lastStart = q.lastStart)
    (waiting : ∀ id job, q.jobs id = some job → job.state = .waiting → since ≤ job.storedAt →
      q'.jobs id = some job)
    (lost : ∀ id, q.jobs id = none → q'.jobs id = none)
    (pending : ∀ id job, q.jobs id = some job → job.pending →
      q'.jobs id = none ∨ ∃ job', q'.jobs id = some job' ∧ job'.pending)
    (key : q'.key = q.key ∨ q'.key = none) : Next since q q' := by
  have renewed (h : q.renewed since) : q'.renewed since := by
    rcases h with started | ⟨id, below, job, here, idle, after⟩
    · exact .inl (by rwa [lastStart])
    · exact .inr ⟨id, Nat.lt_of_lt_of_le below issued, job, waiting id job here idle after, idle,
        after⟩
  refine ⟨now, renewed, fun {holder} h => ⟨Nat.lt_of_lt_of_le h.issued issued, ?_, ?_⟩, fun h => ?_⟩
  · rcases h.awaits with new | gone | ⟨job, here, counts⟩
    · exact .inl (renewed new)
    · exact .inr (.inl (lost holder gone))
    · exact .inr (pending holder job here counts)
  · rcases key with same | none
    · rw [same]
      exact h.key.imp_right fun h => h.imp_right renewed
    · exact .inr (.inl none)
  · rcases key with same | none
    · exact h.imp same.trans renewed
    · exact .inl none

@[simp] theorem setJob_jobs (q : Queue) (id x : JobId) (job : Option Job) :
    (q.setJob id job).jobs x = if x = id then job else q.jobs x :=
  Function.update_apply ..

theorem store_jobs (q : Queue) (data : IncrementalSyncJobData) (x : JobId) :
    (q.store data).jobs x =
      if x = q.issued then some ⟨data, .waiting, none, none, q.now + 1⟩ else q.jobs x :=
  Function.update_apply ..

/-- A job that is stored now. -/
theorem renewed_store (now : since ≤ q.now) (jobs : q'.jobs = (q.store data).jobs)
    (issued : q'.issued = q.issued + 1) : q'.renewed since := by
  refine .inr ⟨q.issued, by rw [issued]; exact Nat.lt_succ_self _, ⟨data, .waiting, none, none, q.now + 1⟩, ?_, rfl, ?_⟩
  · rw [jobs, store_jobs, if_pos rfl]
    rfl
  · exact Nat.le_succ_of_le now

theorem absorb_jobs (q : Queue) (holder x : JobId) (data : IncrementalSyncJobData) :
    (q.absorb holder data).jobs x = q.jobs x ∨ x = holder ∧ ∃ job, q.jobs x = some job ∧
      job.state = .active ∧ (q.absorb holder data).jobs x = some { job with next := some data } := by
  unfold absorb
  cases here : q.jobs holder with
  | none => exact .inl rfl
  | some job =>
    simp only
    split_ifs with active
    · by_cases same : x = holder
      · subst same
        exact .inr ⟨rfl, job, here, active, by rw [setJob_jobs, if_pos rfl]⟩
      · exact .inl (by rw [setJob_jobs, if_neg same])
    · exact .inl rfl

theorem absorb_issued (q : Queue) (holder : JobId) (data : IncrementalSyncJobData) :
    (q.absorb holder data).issued = q.issued ∧ (q.absorb holder data).key = q.key ∧
      (q.absorb holder data).lastStart = q.lastStart := by
  unfold absorb
  cases q.jobs holder with
  | none => exact ⟨rfl, rfl, rfl⟩
  | some job =>
    simp only
    split_ifs <;> exact ⟨rfl, rfl, rfl⟩

theorem next_add (now : since ≤ q.now) (data : IncrementalSyncJobData) :
    Next since q (q.add data).2 := by
  unfold add
  cases key : q.key with
  | none => exact .of_renewed (Nat.le_succ _) (renewed_store now rfl rfl) (Nat.le_succ _)
  | some holder =>
    obtain ⟨issued, same, lastStart⟩ := absorb_issued q holder data
    refine .of_jobs (Nat.le_succ _) (Nat.le_succ _) lastStart (fun id job here idle _ => ?_) (fun id gone => ?_)
      (fun id job here counts => .inr ?_) (.inl same)
    · rcases absorb_jobs q holder id data with kept | ⟨-, job', here', active, -⟩
      · exact kept.trans here
      · obtain rfl := Option.some.inj (here.symm.trans here')
        rw [idle] at active
        cases active
    · rcases absorb_jobs q holder id data with kept | ⟨-, job', here', -⟩
      · exact kept.trans gone
      · rw [gone] at here'
        cases here'
    · rcases absorb_jobs q holder id data with kept | ⟨-, job', here', active, written⟩
      · exact ⟨job, kept.trans here, counts⟩
      · exact ⟨_, written, .inr (.inr ⟨active, rfl⟩)⟩

theorem now_add (q : Queue) (data : IncrementalSyncJobData) : (q.add data).2.now = q.now + 1 := by
  unfold add
  cases q.key <;> rfl

/-- A job that an add creates will start. -/
theorem covers_add (key : q.key = none) (data : IncrementalSyncJobData) :
    (q.add data).2.covers since := by
  refine .inr ⟨q.issued, ?_, ⟨data, .waiting, none, none, q.now + 1⟩, ?_, .inl rfl⟩
  · simp only [add, key]
    exact Nat.lt_succ_self _
  · simp only [add, key]
    rw [store_jobs, if_pos rfl]
    rfl

/-- A call whose first add is absorbed. -/
theorem met_add (h : q.Sound) (key : q.key = some holder) (data : IncrementalSyncJobData) :
    (q.add data).2.Met since holder := by
  have jobs : (q.add data).2.jobs = (q.absorb holder data).jobs := by
    simp only [add, key]
  have same : (q.add data).2.key = some holder := by
    simp only [add, key]
    exact (absorb_issued q holder data).2.1.trans key
  refine ⟨?_, .inr ?_, .inl same⟩
  · simp only [add, key]
    exact Nat.lt_succ_of_lt (h.key key)
  · rw [jobs]
    cases here : q.jobs holder with
    | none =>
      refine .inl ?_
      rw [absorb, here]
      exact here
    | some job =>
      have live := h.unsettled key here
      refine .inr ?_
      simp only [absorb, here]
      split_ifs with active
      · exact ⟨{ job with next := some data }, by rw [setJob_jobs, if_pos rfl],
          .inr (.inr ⟨active, rfl⟩)⟩
      · refine ⟨job, here, ?_⟩
        cases state : job.state with
        | waiting => exact .inl state
        | delayed => exact .inr (.inl state)
        | active => exact absurd state active
        | completed => exact absurd (.inl state) live
        | failed => exact absurd (.inr state) live

theorem next_removeKey (since : ℕ) (holder : JobId) : Next since q (q.removeKey holder).2 := by
  unfold removeKey
  split_ifs with here
  · exact .of_jobs (Nat.le_refl _) (Nat.le_refl _) rfl (fun _ _ here _ _ => here) (fun _ gone => gone)
      (fun id job here counts => .inr ⟨job, here, counts⟩) (.inr rfl)
  · exact .refl since q

theorem next_start {clock : ℕ} (now : since ≤ q.now) (started : q.start id clock = some q') :
    Next since q q' := by
  unfold start at started
  cases here : q.jobs id with
  | none => simp [here] at started
  | some job =>
    simp only [here] at started
    split_ifs at started
    obtain rfl := Option.some.inj started
    exact .of_renewed (Nat.le_succ _) (.inl (Nat.lt_succ_of_le now)) (Nat.le_refl _)

theorem next_retry (since : ℕ) (retried : q.retry id = some q') : Next since q q' := by
  unfold retry at retried
  cases here : q.jobs id with
  | none => simp [here] at retried
  | some job =>
    simp only [here] at retried
    split_ifs at retried with active
    obtain rfl := Option.some.inj retried
    refine .of_jobs (Nat.le_refl _) (Nat.le_refl _) rfl (fun x job' here' idle _ => ?_) (fun x gone => ?_)
      (fun x job' here' counts => .inr ?_) (.inl rfl)
    · rw [setJob_jobs, if_neg fun same => ?_, here']
      subst same
      obtain rfl := Option.some.inj (here.symm.trans here')
      rw [idle] at active
      cases active
    · rw [setJob_jobs, if_neg fun same => ?_, gone]
      subst same
      rw [here] at gone
      cases gone
    · by_cases same : x = id
      · exact ⟨_, by rw [setJob_jobs, if_pos same], .inr (.inl rfl)⟩
      · exact ⟨job', by rw [setJob_jobs, if_neg same, here'], counts⟩

theorem settledKey_none (q : Queue) (id : JobId) (moves : Bool) :
    q.settledKey id none moves = q.key ∨ q.settledKey id none moves = none := by
  unfold settledKey
  split_ifs
  · exact .inr rfl
  · exact .inl rfl
  · exact .inl rfl

theorem settledKey_some (q : Queue) (id followUp : JobId) (moves : Bool) :
    q.settledKey id (some followUp) moves = some followUp ∨
      q.settledKey id (some followUp) moves = q.key ∧ q.key ≠ some id := by
  unfold settledKey
  split_ifs with mine
  · exact .inl rfl
  · exact .inl rfl
  · exact .inr ⟨rfl, mine⟩

theorem next_settle {completes moves : Bool} (now : since ≤ q.now)
    (settled : q.settle id completes moves = some q') : Next since q q' := by
  unfold settle at settled
  cases here : q.jobs id with
  | none => simp [here] at settled
  | some job =>
    simp only [here] at settled
    obtain ⟨active, ended⟩ := Option.ite_none_right_eq_some.mp settled
    cases next : job.next with
    | some data =>
      simp only [next, Option.some.injEq] at ended
      subst ended
      exact .of_renewed (Nat.le_succ _) (renewed_store (q := q.setJob id _) now rfl rfl) (Nat.le_succ _)
    | none =>
      simp only [next, Option.some.injEq] at ended
      subst ended
      have quiet : ¬job.pending := by simp [Job.pending, active, next]
      refine .of_jobs (Nat.le_refl _) (Nat.le_refl _) rfl (fun x job' here' idle _ => ?_) (fun x gone => ?_)
        (fun x job' here' counts => .inr ?_) ?_
      · rw [setJob_jobs, if_neg fun same => ?_, here']
        subst same
        obtain rfl := Option.some.inj (here.symm.trans here')
        rw [idle] at active
        cases active
      · rw [setJob_jobs, if_neg fun same => ?_, gone]
        subst same
        rw [here] at gone
        cases gone
      · refine ⟨job', ?_, counts⟩
        rw [setJob_jobs, if_neg fun same => ?_, here']
        subst same
        obtain rfl := Option.some.inj (here.symm.trans here')
        exact quiet counts
      · exact settledKey_none q id moves

/-- A job that a call counts on is not lost before it starts. -/
theorem next_lose (spared : ∀ job, q.jobs id = some job → job.state = .waiting →
    job.storedAt < since) : Next since q (q.lose id) := by
  refine .of_jobs (Nat.le_refl _) (Nat.le_refl _) rfl (fun x job here idle after => ?_) (fun x gone => ?_)
    (fun x job here counts => ?_) (.inl rfl)
  · rw [lose, setJob_jobs, if_neg fun same => ?_, here]
    subst same
    have before := spared job here idle
    omega
  · rw [lose, setJob_jobs]
    split_ifs
    · rfl
    · exact gone
  · rw [lose, setJob_jobs]
    split_ifs
    · exact .inl rfl
    · exact .inr ⟨job, here, counts⟩

/-! ## Soundness -/

theorem Sound.congr (h : q.Sound) (jobs : q'.jobs = q.jobs) (issued : q.issued ≤ q'.issued)
    (key : q'.key = q.key ∨ q'.key = none) (lastStart : q'.lastStart ≤ q'.now) : q'.Sound where
  issued here := Nat.lt_of_lt_of_le (h.issued (jobs ▸ here)) issued
  key here := by
    rcases key with same | none
    · exact Nat.lt_of_lt_of_le (h.key (same ▸ here)) issued
    · simp [none] at here
  unsettled here stored := by
    rcases key with same | none
    · exact h.unsettled (same ▸ here) (jobs ▸ stored)
    · simp [none] at here
  lastStart := lastStart

theorem Sound.setJob (h : q.Sound) {job' : Option Job} (below : id < q.issued)
    (unsettled : ∀ job, job' = some job → q.key = some id → ¬job.state.settled) :
    (q.setJob id job').Sound where
  issued {x job} here := by
    rw [setJob_jobs] at here
    split_ifs at here with same
    · rw [same]
      exact below
    · exact h.issued here
  key := h.key
  unsettled {x job} here stored := by
    rw [setJob_jobs] at stored
    split_ifs at stored with same
    · exact unsettled job stored (same ▸ here)
    · exact h.unsettled here stored
  lastStart := h.lastStart

theorem Sound.store (h : q.Sound) (data : IncrementalSyncJobData) : (q.store data).Sound where
  issued {x job} here := by
    rw [store_jobs] at here
    split_ifs at here with same
    · rw [same]
      exact Nat.lt_succ_self _
    · exact Nat.lt_succ_of_lt (h.issued here)
  key here := Nat.lt_succ_of_lt (h.key here)
  unsettled {x job} here stored := by
    rw [store_jobs, if_neg (Nat.ne_of_lt (h.key here))] at stored
    exact h.unsettled here stored
  lastStart := Nat.le_succ_of_le h.lastStart

theorem Sound.setKey (h : q.Sound) (here : q.jobs id = some job) (live : ¬job.state.settled) :
    ({ q with key := some id } : Queue).Sound where
  issued := h.issued
  key same := Option.some.inj same ▸ h.issued here
  unsettled same stored := by
    obtain rfl := Option.some.inj same
    obtain rfl := Option.some.inj (here.symm.trans stored)
    exact live
  lastStart := h.lastStart

theorem not_settled_waiting : ¬JobState.settled .waiting := by simp [JobState.settled]

theorem sound_add (h : q.Sound) (data : IncrementalSyncJobData) : (q.add data).2.Sound := by
  unfold add
  cases key : q.key with
  | none =>
    exact (h.store data).setKey (by rw [store_jobs, if_pos rfl]) not_settled_waiting
  | some holder =>
    have absorbed : (q.absorb holder data).Sound := by
      unfold absorb
      cases here : q.jobs holder with
      | none => exact h
      | some job =>
        simp only
        split_ifs with active
        · have live := h.unsettled key here
          refine h.setJob (h.key key) fun job' same _ => ?_
          obtain rfl := Option.some.inj same
          exact live
        · exact h
    obtain ⟨issued, -, lastStart⟩ := absorb_issued q holder data
    refine absorbed.congr rfl (by rw [issued]; exact Nat.le_succ _) (.inl rfl) ?_
    rw [lastStart]
    exact Nat.le_succ_of_le h.lastStart

theorem sound_removeKey (h : q.Sound) (holder : JobId) : (q.removeKey holder).2.Sound := by
  unfold removeKey
  split_ifs
  · exact h.congr rfl (Nat.le_refl _) (.inr rfl) h.lastStart
  · exact h

theorem sound_start {clock : ℕ} (h : q.Sound) (started : q.start id clock = some q') :
    q'.Sound := by
  unfold start at started
  cases here : q.jobs id with
  | none => simp [here] at started
  | some job =>
    simp only [here] at started
    obtain ⟨-, taken⟩ := Option.ite_none_right_eq_some.mp started
    obtain rfl := Option.some.inj taken
    have set : (q.setJob id (some { job with state := .active, processedOn := some clock })).Sound := by
      refine h.setJob (h.issued here) fun job' same _ => ?_
      obtain rfl := Option.some.inj same
      simp [JobState.settled]
    exact set.congr rfl (Nat.le_refl _) (.inl rfl) (Nat.le_refl _)

theorem sound_retry (h : q.Sound) (retried : q.retry id = some q') : q'.Sound := by
  unfold retry at retried
  cases here : q.jobs id with
  | none => simp [here] at retried
  | some job =>
    simp only [here] at retried
    obtain ⟨-, again⟩ := Option.ite_none_right_eq_some.mp retried
    obtain rfl := Option.some.inj again
    refine h.setJob (h.issued here) fun job' same _ => ?_
    obtain rfl := Option.some.inj same
    simp [JobState.settled]

/-- A settled job is written where the key has left it. -/
theorem Sound.ended (h : q.Sound) (here : q.jobs id = some job) (job' : Job) :
    ({ q.setJob id (some job') with key := if q.key = some id then none else q.key } : Queue).Sound := by
  have without : ({ q with key := if q.key = some id then none else q.key } : Queue).Sound := by
    refine h.congr rfl (Nat.le_refl _) ?_ h.lastStart
    split_ifs
    · exact .inr rfl
    · exact .inl rfl
  refine without.setJob (h.issued here) fun job'' _ key => ?_
  simp only at key
  split_ifs at key with same
  exact absurd key same

theorem sound_settle {completes moves : Bool} (h : q.Sound)
    (settled : q.settle id completes moves = some q') : q'.Sound := by
  unfold settle at settled
  cases here : q.jobs id with
  | none => simp [here] at settled
  | some job =>
    simp only [here] at settled
    obtain ⟨-, ended⟩ := Option.ite_none_right_eq_some.mp settled
    have done := h.ended here
      { job with state := if completes then .completed else .failed, next := none }
    cases next : job.next with
    | none =>
      simp only [next, Option.some.injEq] at ended
      subst ended
      refine done.congr rfl (Nat.le_refl _) (.inl ?_) h.lastStart
      show q.settledKey id none moves = if q.key = some id then none else q.key
      unfold settledKey
      split_ifs <;> rfl
    | some data =>
      simp only [next, Option.some.injEq] at ended
      subst ended
      have stored := done.store data
      have followed := @Sound.setKey _ q.issued _ stored (by rw [store_jobs]; exact if_pos rfl)
        not_settled_waiting
      rcases settledKey_some q id q.issued moves with moved | ⟨same, other⟩
      · exact followed.congr rfl (Nat.le_refl _) (.inl moved) followed.lastStart
      · exact stored.congr rfl (Nat.le_refl _) (.inl (same.trans (if_neg other).symm))
          stored.lastStart

theorem sound_lose (h : q.Sound) (id : JobId) : (q.lose id).Sound := by
  by_cases below : id < q.issued
  · exact h.setJob below fun _ none => nomatch none
  · have gone : q.jobs id = none := by
      by_contra here
      obtain ⟨job, there⟩ := Option.ne_none_iff_exists'.mp here
      exact below (h.issued there)
    exact h.congr (by rw [lose, setJob, ← gone, Function.update_eq_self]) (Nat.le_refl _) (.inl rfl)
      h.lastStart

end Queue

end DeclutrMail.Sync.Push
