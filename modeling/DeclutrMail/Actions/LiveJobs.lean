import DeclutrMail.Actions.Enqueue

/-!
# Live jobs of one sender

What a thread knows after its look for live jobs is that the rivals of its rows are all in `since`
(`Ready`). A commit that finds none there leaves the live jobs of a sender one request's, and so
does every other move unless it is amiss.
-/

namespace DeclutrMail.Actions.Enqueue

open Interleaving

/-- The live jobs of a sender are one request's. -/
def OneRequest (s : Store) : Prop :=
  ∀ a ∈ s.jobs, ∀ b ∈ s.jobs, a.status.live = true → b.status.live = true →
    a.selector.senderKey = b.selector.senderKey →
      ∀ p q, a.request = some p → b.request = some q → p = q

variable {m : MailboxId} {w w' : World} {t x : ℕ} {task : Task} {job row : RequestJob}

theorem rivals_iff : rivals job row = true ↔ row.status.live = true ∧ row.request ≠ none ∧
    row.request ≠ job.request ∧ row.selector.senderKey = job.selector.senderKey := by
  simp [rivals, Option.isSome_iff_ne_none, and_assoc]

/-- What a request inserts. -/
structure Own (m : MailboxId) (w : World) (t : ℕ) (job : RequestJob) : Prop where
  request : job.request = some t
  mailbox : job.mailboxAccountId = m
  direction : job.direction = .forward
  key : job.idempotencyKey ∈ w.mine t

/-- The rows of requests are theirs, and the storage keys of different requests differ. -/
structure Sound (m : MailboxId) (w : World) : Prop where
  keys : jobKeys.Reserved w.db
  apart : ∀ t x, t ≠ x → ∀ k ∈ w.mine t, k ∉ w.mine x
  owned : ∀ job ∈ w.db.store.jobs, ∀ t, job.request = some t → Own m w t job
  claimed : ∀ job ∈ w.db.store.jobs, ∀ t, job.idempotencyKey ∈ w.mine t → job.request = some t
  drafts : ∀ t, ∀ job ∈ w.db.draft t, Own m w t job
  one : OneRequest w.db.store

/-- What others leave of a thread's world. -/
structure Kept (t : ℕ) (w w' : World) : Prop where
  draft : w'.db.draft t = w.db.draft t
  mine : w.mine t ⊆ w'.mine t
  since : w.since t ⊆ w'.since t
  own : ∀ job' ∈ w'.db.store.jobs, job'.request = some t →
    ∃ job ∈ w.db.store.jobs, job.request = some t
  live : ∀ job' ∈ w'.db.store.jobs, job'.request ≠ none → job'.status.live = true →
    job'.id ∈ w'.since t ∨ ∃ job ∈ w.db.store.jobs, job.id = job'.id ∧ job.request = job'.request ∧
      job.selector = job'.selector ∧ job.status.live = true

structure Rely (m : MailboxId) (t : ℕ) (w w' : World) : Prop where
  amiss : w.amiss = true → w'.amiss = true
  sound : w.amiss = false → w'.amiss = false → Sound m w → Sound m w' ∧ Kept t w w'

structure Guarantee (m : MailboxId) (t : ℕ) (w w' : World) : Prop where
  amiss : w.amiss = true → w'.amiss = true
  sound : w.amiss = false → w'.amiss = false → Sound m w → Sound m w' ∧ ∀ x ≠ t, Kept x w w'

theorem Guarantee.rely (h : Guarantee m t w w') (ne : t ≠ x) : Rely m x w w' :=
  ⟨h.amiss, fun fine fine' sound => ⟨(h.sound fine fine' sound).1,
    (h.sound fine fine' sound).2 x ne.symm⟩⟩

theorem Kept.refl : Kept t w w :=
  ⟨rfl, List.Subset.refl _, List.Subset.refl _, fun job mem own => ⟨job, mem, own⟩,
    fun job mem _ live => .inr ⟨job, mem, rfl, rfl, rfl, live⟩⟩

theorem Guarantee.refl : Guarantee m t w w :=
  ⟨id, fun _ _ sound => ⟨sound, fun _ _ => .refl⟩⟩

/-! ## The moves around a commit -/

/-- What a draft or a lock changes. -/
theorem Guarantee.drafts {d : Transactions ℕ Store RequestJob RowLock} {jobs : List RequestJob}
    (keys : w.amiss = false → Sound m w → jobKeys.Reserved d) (store : d.store = w.db.store)
    (frames : w.db.Frames t d) (draft : d.draft t = w.db.draft t ++ jobs)
    (own : w.amiss = false → Sound m w → ∀ job ∈ jobs, Own m w t job) :
    Guarantee m t w { w with db := d } := by
  refine ⟨id, fun fine _ sound => ⟨⟨keys fine sound, sound.apart, ?_, ?_, fun x job mem => ?_, ?_⟩,
    fun x other => ⟨frames.draft x other, ?_, ?_, ?_, ?_⟩⟩⟩
  · rw [store]
    exact fun job mem x request => { sound.owned job mem x request with }
  · rw [store]
    exact sound.claimed
  · by_cases same : x = t
    · subst same
      rcases List.mem_append.mp (draft ▸ mem) with old | new
      · exact { sound.drafts x job old with }
      · exact { own fine sound job new with }
    · exact { sound.drafts x job (frames.draft x same ▸ mem) with }
  · rw [store]
    exact sound.one
  · exact List.Subset.refl _
  · exact List.Subset.refl _
  · exact store.symm ▸ Kept.refl.own
  · exact store.symm ▸ Kept.refl.live

theorem Guarantee.rollback : Guarantee m t w (w.rollback t) := by
  refine ⟨id, fun _ _ sound => ⟨⟨sound.keys.rollback, sound.apart,
    fun job mem x request => { sound.owned job mem x request with }, sound.claimed,
    fun x job mem => ?_, sound.one⟩, fun x other => ⟨?_, List.Subset.refl _, List.Subset.refl _,
      Kept.refl.own, Kept.refl.live⟩⟩⟩
  · by_cases same : x = t
    · subst same
      have nothing : (w.rollback x).db.draft x = [] := Transactions.draft_rollback
      rw [nothing] at mem
      cases mem
    · have kept : (w.rollback t).db.draft x = w.db.draft x :=
        Transactions.Frames.rollback.draft x same
      exact { sound.drafts x job (kept ▸ mem) with }
  · exact Transactions.Frames.rollback.draft x other

/-- What a thread knows that has looked for the live jobs of the senders `S` and found none. -/
structure Ready (task : Task) (S : List String) (t : ℕ) (w : World) : Prop where
  claimed : task.storageKeys ⊆ w.mine t
  unwritten : ∀ job ∈ w.db.store.jobs, job.request ≠ some t
  drafted : ∀ job ∈ w.db.draft t, ∃ key ∈ S, job.selector.senderKey = some key
  seen : ∀ job ∈ w.db.store.jobs, job.request ≠ none → job.status.live = true →
    ∀ key ∈ S, job.selector.senderKey = some key → job.id ∈ w.since t

variable {S : List String}

theorem Ready.kept (h : Ready task S t w) (kept : Kept t w w') : Ready task S t w' := by
  refine ⟨fun key mem => kept.mine (h.claimed mem), fun job mem own => ?_, kept.draft.symm ▸ h.drafted,
    fun job' mem request live key known same => ?_⟩
  · obtain ⟨old, mem, own⟩ := kept.own job mem own
    exact h.unwritten old mem own
  · rcases kept.live job' mem request live with new | ⟨job, old, id, from', selector, live⟩
    · exact new
    · rw [← id]
      exact kept.since (h.seen job old (from' ▸ request) live key known (selector ▸ same))

theorem jobs_foldl {s : Store} {jobs : List RequestJob} :
    (jobs.foldl Store.apply s).jobs = s.jobs ++ jobs := by
  induction jobs generalizing s with
  | nil => simp
  | cons job jobs ih => simp [ih, Store.apply]

/-- A commit that is not overtaken. -/
theorem Guarantee.commit (ready : w.amiss = false → Ready task S t w) :
    Guarantee m t w (w.commit t) := by
  have jobs : (w.commit t).db.store.jobs = w.db.store.jobs ++ w.db.draft t := jobs_foldl
  refine ⟨fun amiss => by simp [World.commit, amiss], fun fine fine' sound => ?_⟩
  have alone : w.overtaken t = false := by
    simpa [World.commit, fine] using fine'
  have ready := ready fine
  have apart : ∀ job ∈ w.db.draft t, ∀ row ∈ w.db.store.jobs, rivals job row = false := by
    intro job drafted row there
    by_contra rival
    obtain ⟨live, request, -, same⟩ := rivals_iff.mp (by simpa using rival)
    obtain ⟨key, known, sender⟩ := ready.drafted job drafted
    have since := ready.seen row there request live key known (same.trans sender)
    have past : w.overtaken t = true := List.any_eq_true.mpr ⟨job, drafted,
      List.any_eq_true.mpr ⟨row, there, by simpa [since] using rival⟩⟩
    rw [alone] at past
    cases past
  have kept : ∀ x ≠ t, (w.commit t).db.draft x = w.db.draft x :=
    fun x other => Transactions.Frames.commit.draft x other
  refine ⟨⟨sound.keys.commit, sound.apart, fun job mem x request => ?_, fun job mem x key => ?_,
    fun x job mem => ?_, fun a memA b memB liveA liveB same p q fromA fromB => ?_⟩,
    fun x other => ⟨kept x other, List.Subset.refl _, List.subset_append_left _ _,
      fun job mem own => ?_, fun job mem request live => ?_⟩⟩
  · rcases List.mem_append.mp (jobs ▸ mem) with old | new
    · exact { sound.owned job old x request with }
    · have own := sound.drafts t job new
      obtain rfl : t = x := Option.some.inj (own.request.symm.trans request)
      exact { own with }
  · rcases List.mem_append.mp (jobs ▸ mem) with old | new
    · exact sound.claimed job old x key
    · have own := sound.drafts t job new
      by_contra other
      have ne : t ≠ x := by
        rintro rfl
        exact other own.request
      exact sound.apart t x ne _ own.key key
  · by_cases same : x = t
    · subst same
      have nothing : (w.commit x).db.draft x = [] := Transactions.draft_commit
      rw [nothing] at mem
      cases mem
    · exact { sound.drafts x job (kept x same ▸ mem) with }
  · -- a row of the draft has no rival among the rows that are there
    have new : ∀ job ∈ w.db.draft t, ∀ row ∈ w.db.store.jobs, row.status.live = true →
        row.selector.senderKey = job.selector.senderKey → ∀ p, row.request = some p → p = t := by
      intro job drafted row there live same p request
      by_contra other
      have rival : rivals job row = true := rivals_iff.mpr ⟨live, by simp [request], by
        rw [request, (sound.drafts t job drafted).request]
        simpa using other, same⟩
      rw [apart job drafted row there] at rival
      cases rival
    rcases List.mem_append.mp (jobs ▸ memA) with oldA | newA <;>
      rcases List.mem_append.mp (jobs ▸ memB) with oldB | newB
    · exact sound.one a oldA b oldB liveA liveB same p q fromA fromB
    · have mine := Option.some.inj ((sound.drafts t b newB).request.symm.trans fromB)
      exact (new b newB a oldA liveA same p fromA).trans mine
    · have mine := Option.some.inj ((sound.drafts t a newA).request.symm.trans fromA)
      exact mine.symm.trans (new a newA b oldB liveB same.symm q fromB).symm
    · exact Option.some.inj (fromA.symm.trans ((sound.drafts t a newA).request.trans
        ((sound.drafts t b newB).request.symm.trans fromB)))
  · rcases List.mem_append.mp (jobs ▸ mem) with old | new
    · exact ⟨job, old, own⟩
    · have mine := (sound.drafts t job new).request
      exact absurd (Option.some.inj (own.symm.trans mine)) other
  · rcases List.mem_append.mp (jobs ▸ mem) with old | new
    · exact .inr ⟨job, old, rfl, rfl, rfl, live⟩
    · exact .inl (List.mem_append_right _ (List.mem_map_of_mem new))

/-! ## Progress of jobs -/

/-- Only the status and the error of a row change. -/
def Restated (change : ActionRow → ActionRow) : Prop :=
  ∀ row, (change row).id = row.id ∧ (change row).idempotencyKey = row.idempotencyKey ∧
    (change row).mailboxAccountId = row.mailboxAccountId ∧ (change row).direction = row.direction ∧
      (change row).selector = row.selector

variable {chosen : RequestJob → Bool} {change : ActionRow → ActionRow}

/-- A row that is changed, or not. -/
def changed (chosen : RequestJob → Bool) (change : ActionRow → ActionRow) (job : RequestJob) :
    RequestJob := if chosen job then { job with toActionRow := change job.toActionRow } else job

/-- A job that comes back to life. -/
def Revived (chosen : RequestJob → Bool) (change : ActionRow → ActionRow) (job : RequestJob) :
    Prop := chosen job = true ∧ (change job.toActionRow).status.live = true ∧ job.status.live = false

theorem changed_same (restated : Restated change) (job : RequestJob) :
    (changed chosen change job).id = job.id ∧
      (changed chosen change job).idempotencyKey = job.idempotencyKey ∧
      (changed chosen change job).mailboxAccountId = job.mailboxAccountId ∧
      (changed chosen change job).direction = job.direction ∧
      (changed chosen change job).selector = job.selector ∧
      (changed chosen change job).request = job.request := by
  obtain ⟨id, key, mailbox, direction, selector⟩ := restated job.toActionRow
  unfold changed
  split_ifs
  · exact ⟨id, key, mailbox, direction, selector, rfl⟩
  · exact ⟨rfl, rfl, rfl, rfl, rfl, rfl⟩

theorem live_changed (live : (changed chosen change job).status.live = true) :
    job.status.live = true ∨ Revived chosen change job := by
  by_cases before : job.status.live = true
  · exact .inl before
  · unfold changed at live
    split_ifs at live with here
    · exact .inr ⟨here, live, by simpa using before⟩
    · exact absurd live before

/-- Jobs progress; one at most comes back to life, and has no rival. -/
theorem Sound.progress (sound : Sound m w) (w' : World) (chosen : RequestJob → Bool)
    (change : ActionRow → ActionRow) (restated : Restated change)
    (store : w'.db = { w.db with store := w.db.store.updateJobs chosen change })
    (tasks : w'.tasks = w.tasks) (since : ∀ x, w.since x ⊆ w'.since x)
    (one : ∀ a b, Revived chosen change a → Revived chosen change b → a.id = b.id)
    (revived : ∀ job ∈ w.db.store.jobs, Revived chosen change job → ∀ x, job.id ∈ w'.since x)
    (lonely : ∀ job ∈ w.db.store.jobs, Revived chosen change job → job.request ≠ none →
      ∀ row ∈ w.db.store.jobs, rivals job row = false) :
    Sound m w' ∧ ∀ x, Kept x w w' := by
  have jobs : w'.db.store.jobs = w.db.store.jobs.map (changed chosen change) := by
    rw [store]
    rfl
  have rows : ∀ job' ∈ w'.db.store.jobs, ∃ job ∈ w.db.store.jobs, changed chosen change job = job' :=
    fun job' mem => List.mem_map.mp (jobs ▸ mem)
  have mine : ∀ x, w'.mine x = w.mine x := fun x => by rw [World.mine, World.mine, tasks]
  have draft : w'.db.draft = w.db.draft := by rw [store]
  have listed : jobKeys.listed (w.db.store.updateJobs chosen change) = jobKeys.listed w.db.store :=
    locks_update fun job => by
      obtain ⟨id, key, -⟩ := restated job.toActionRow
      rw [ActionRow.locks, ActionRow.locks, id, key]
  have lift : ∀ {x job}, Own m w x job → Own m w' x job := fun own =>
    ⟨own.request, own.mailbox, own.direction, (mine _).symm ▸ own.key⟩
  refine ⟨⟨?_, fun t x => by rw [mine, mine]; exact sound.apart t x, fun job' mem x request => ?_,
    fun job' mem x key => ?_, fun x job mem => lift (sound.drafts x job (draft ▸ mem)),
    fun a' memA b' memB liveA liveB same p q fromA fromB => ?_⟩,
    fun x => ⟨congrFun draft x, mine x ▸ List.Subset.refl _, since x, fun job' mem own => ?_,
      fun job' mem request live => ?_⟩⟩
  · rw [store]
    refine sound.keys.restore ?_ fun k x held there => ?_
    · rw [listed]
      exact sound.keys.nodup
    · rwa [listed] at there
  · obtain ⟨job, old, rfl⟩ := rows job' mem
    obtain ⟨-, key, mailbox, direction, -, from'⟩ := @changed_same chosen change restated job
    have own := sound.owned job old x (from' ▸ request)
    exact ⟨request, mailbox.trans own.mailbox, direction.trans own.direction,
      (mine x).symm ▸ key.symm ▸ own.key⟩
  · obtain ⟨job, old, rfl⟩ := rows job' mem
    obtain ⟨-, key', -, -, -, from'⟩ := @changed_same chosen change restated job
    exact from'.trans (sound.claimed job old x (key' ▸ mine x ▸ key))
  · obtain ⟨a, oldA, rfl⟩ := rows a' memA
    obtain ⟨b, oldB, rfl⟩ := rows b' memB
    obtain ⟨-, -, -, -, selectorA, requestA⟩ := @changed_same chosen change restated a
    obtain ⟨-, -, -, -, selectorB, requestB⟩ := @changed_same chosen change restated b
    rw [requestA] at fromA
    rw [requestB] at fromB
    rw [selectorA, selectorB] at same
    -- a row that comes back to life has no rival
    have alone : ∀ c ∈ w.db.store.jobs, ∀ d ∈ w.db.store.jobs, Revived chosen change c →
        d.status.live = true → d.selector.senderKey = c.selector.senderKey →
          c.request ≠ none → d.request ≠ none → d.request = c.request := by
      intro c memC d memD back live same someC someD
      by_contra other
      have rival := rivals_iff.mpr ⟨live, someD, other, same⟩
      rw [lonely c memC back someC d memD] at rival
      cases rival
    rcases live_changed liveA with liveA | backA <;> rcases live_changed liveB with liveB | backB
    · exact sound.one a oldA b oldB liveA liveB same p q fromA fromB
    · have := alone b oldB a oldA backB liveA same (by simp [fromB]) (by simp [fromA])
      exact Option.some.inj (fromA.symm.trans (this.trans fromB))
    · have := alone a oldA b oldB backA liveB same.symm (by simp [fromA]) (by simp [fromB])
      exact Option.some.inj (fromA.symm.trans (this.symm.trans fromB))
    · obtain rfl := eq_of_locks sound.keys.nodup oldA oldB (.inl (one a b backA backB))
      exact Option.some.inj (fromA.symm.trans fromB)
  · obtain ⟨job, old, rfl⟩ := rows job' mem
    exact ⟨job, old, (changed_same restated job).2.2.2.2.2.symm.trans own⟩
  · obtain ⟨job, old, rfl⟩ := rows job' mem
    obtain ⟨id, -, -, -, selector, from'⟩ := @changed_same chosen change restated job
    rcases live_changed live with live | back
    · exact .inr ⟨job, old, id.symm, from'.symm, selector.symm, live⟩
    · exact .inl (id.symm ▸ revived job old back x)

theorem restated_restated (status : JobStatus) (errorCode : Option String) :
    Restated (restated status errorCode) := fun _ => ⟨rfl, rfl, rfl, rfl, rfl⟩

theorem guarantee_failJob {actionId : ActionId} {mailboxAccountId : MailboxId}
    (done : failJob w actionId mailboxAccountId = some w') :
    Guarantee m t w w' ∧ w'.db.draft = w.db.draft := by
  unfold failJob at done
  split_ifs at done
  have same := Option.some.inj done
  have ended : ∀ job, ¬Revived (waits actionId mailboxAccountId)
      (restated .failed (some enqueueFailedErrorCode)) job := by
    intro job back
    have live := back.2.1
    cases live
  refine ⟨⟨fun amiss => same ▸ amiss, fun _ _ sound => ?_⟩, same ▸ rfl⟩
  have moved := sound.progress w' _ _ (restated_restated .failed (some enqueueFailedErrorCode))
    (same ▸ rfl) (same ▸ rfl) (fun _ => same ▸ List.Subset.refl _)
    (fun a _ back => (ended a back).elim) (fun a _ back => (ended a back).elim)
    fun a _ back => (ended a back).elim
  exact ⟨moved.1, fun x _ => moved.2 x⟩

/-- The tables without the jobs. -/
theorem Sound.tables {s : Store} (sound : Sound m w) (jobs : s.jobs = w.db.store.jobs) :
    Sound m (w.put s) ∧ ∀ x, Kept x w (w.put s) := by
  have listed : jobKeys.listed s = jobKeys.listed w.db.store := congrArg (List.flatMap _) jobs
  refine ⟨⟨sound.keys.restore ?_ fun k x _ there => ?_, sound.apart, ?_, ?_,
    fun x job mem => { sound.drafts x job mem with }, ?_⟩, fun x => ⟨rfl, List.Subset.refl _,
      List.Subset.refl _, ?_, ?_⟩⟩
  · exact listed ▸ sound.keys.nodup
  · exact listed ▸ there
  · exact fun job mem x request => { sound.owned job (jobs ▸ mem) x request with }
  · exact fun job mem => sound.claimed job (jobs ▸ mem)
  · exact fun a memA b memB => sound.one a (jobs ▸ memA) b (jobs ▸ memB)
  · exact fun job mem => Kept.refl.own job (jobs ▸ mem)
  · intro job mem request live
    exact .inr ⟨job, jobs ▸ mem, rfl, rfl, rfl, live⟩

/-- A job of another writer, under a key that is no request's. -/
theorem Sound.inserted {row : ActionRow} {amiss : Bool} (sound : Sound m w)
    (free : ∀ k ∈ row.locks, w.db.holder k = none ∧ k ∉ jobKeys.listed w.db.store)
    (foreign : ∀ x, row.idempotencyKey ∉ w.mine x) :
    Sound m { w.put (w.db.store.apply ⟨row, none⟩) with amiss } ∧
      ∀ x, Kept x w { w.put (w.db.store.apply ⟨row, none⟩) with amiss } := by
  have cases : ∀ job ∈ w.db.store.jobs ++ [(⟨row, none⟩ : RequestJob)], job ∈ w.db.store.jobs ∨
      job.request = none ∧ job.idempotencyKey = row.idempotencyKey := by
    intro job mem
    refine (List.mem_append.mp mem).imp id fun new => ?_
    obtain rfl := List.mem_singleton.mp new
    exact ⟨rfl, rfl⟩
  have theirs : ∀ job ∈ w.db.store.jobs ++ [(⟨row, none⟩ : RequestJob)], ∀ p,
      job.request = some p → job ∈ w.db.store.jobs := by
    intro job mem p request
    refine (cases job mem).resolve_right fun other => ?_
    rw [other.1] at request
    cases request
  refine ⟨⟨sound.keys.restore ?_ fun k x held there => ?_, sound.apart, fun job mem x request => ?_,
    fun job mem x key => ?_, fun x job mem => { sound.drafts x job mem with },
    fun a memA b memB liveA liveB same p q fromA fromB => ?_⟩, fun x => ⟨rfl, List.Subset.refl _,
      List.Subset.refl _, fun job mem own => ?_, fun job mem request live => ?_⟩⟩
  · rw [jobKeys.listed_apply, List.nodup_append']
    exact ⟨sound.keys.nodup, row.nodup_locks, fun k old new => (free k new).2 old⟩
  · rw [jobKeys.listed_apply] at there
    refine (List.mem_append.mp there).resolve_right fun new => ?_
    rw [(free k new).1] at held
    cases held
  · exact { sound.owned job (theirs job mem x request) x request with }
  · rcases cases job mem with old | ⟨-, same⟩
    · exact sound.claimed job old x key
    · exact absurd (same ▸ key) (foreign x)
  · exact sound.one a (theirs a memA p fromA) b (theirs b memB q fromB) liveA liveB same p q fromA
      fromB
  · exact ⟨job, theirs job mem x own, own⟩
  · obtain ⟨p, from'⟩ := Option.ne_none_iff_exists'.mp request
    exact .inr ⟨job, theirs job mem p from', rfl, rfl, rfl, live⟩

theorem mem_mine {key : String} : key ∈ w.mine t ↔ ∃ task, (t, task) ∈ w.tasks ∧
    key ∈ task.storageKeys := by
  simp only [World.mine, List.mem_flatMap, List.mem_filter, decide_eq_true_eq, Prod.exists]
  constructor
  · rintro ⟨x, task, ⟨mem, rfl⟩, key⟩
    exact ⟨task, mem, key⟩
  · rintro ⟨task, mem, key⟩
    exact ⟨t, task, ⟨mem, rfl⟩, key⟩

theorem disturb_rely {e : Event} (disturbed : disturb w e = some w') : ∀ x, Rely m x w w' := by
  cases e with
  | senders senders =>
    obtain rfl := Option.some.inj disturbed
    have moved (sound : Sound m w) := sound.tables (s := { w.db.store with senders }) rfl
    exact fun x => ⟨id, fun _ _ sound => ⟨(moved sound).1, (moved sound).2 x⟩⟩
  | protectedKeys protectedKeys =>
    obtain rfl := Option.some.inj disturbed
    have moved (sound : Sound m w) := sound.tables (s := { w.db.store with protectedKeys }) rfl
    exact fun x => ⟨id, fun _ _ sound => ⟨(moved sound).1, (moved sound).2 x⟩⟩
  | inserted row =>
    simp only [disturb] at disturbed
    split_ifs at disturbed with free
    obtain rfl := Option.some.inj disturbed
    refine fun x => ⟨fun amiss => by simp [amiss], fun fine fine' sound => ?_⟩
    have foreign : ∀ x, row.idempotencyKey ∉ w.mine x := by
      intro x mem
      obtain ⟨task, there, key⟩ := mem_mine.mp mem
      have collides : (w.tasks.any fun task =>
          task.2.storageKeys.contains row.idempotencyKey) = true :=
        List.any_eq_true.mpr ⟨_, there, List.contains_iff_mem.mpr key⟩
      rw [fine, collides] at fine'
      cases fine'
    exact ⟨(sound.inserted free foreign).1, (sound.inserted free foreign).2 x⟩
  | progressed jobId status errorCode =>
    simp only [disturb] at disturbed
    split_ifs at disturbed
    have same := Option.some.inj disturbed
    have flag : w'.amiss = (w.amiss || (status.live && w.db.store.jobs.any fun job =>
      progresses jobId job && w.revivesRival job)) := same ▸ rfl
    have since : ∀ x, w'.since x = w.since x ++
      (w.db.store.jobs.filter fun job => job.id = jobId ∧ !job.status.live).map (·.id) :=
        fun x => same ▸ rfl
    refine fun x => ⟨fun amiss => by simp [flag, amiss], fun fine fine' sound => ?_⟩
    have chosen : ∀ job, Revived (progresses jobId) (restated status errorCode) job →
        job.id = jobId ∧ status.live = true := fun job ⟨here, live, _⟩ => by
      simp only [progresses, Bool.and_eq_true, decide_eq_true_eq] at here
      exact ⟨here.1, live⟩
    have moved := sound.progress w' _ _ (restated_restated status errorCode) (same ▸ rfl)
      (same ▸ rfl) (fun x => since x ▸ List.subset_append_left _ _)
      (fun a b backA backB => (chosen a backA).1.trans (chosen b backB).1.symm)
      (fun job mem back x => ?_) fun job mem back request row there => ?_
    · exact ⟨moved.1, moved.2 x⟩
    · rw [since]
      refine List.mem_append_right _ (List.mem_map_of_mem (List.mem_filter.mpr ⟨mem, ?_⟩))
      simp [(chosen job back).1, back.2.2]
    · by_contra rival
      have rival : rivals job row = true := by simpa using rival
      have revives : w.revivesRival job = true := by
        simp only [World.revivesRival, Bool.and_eq_true, List.any_eq_true]
        exact ⟨⟨by simp [back.2.2], Option.isSome_iff_ne_none.mpr request⟩, row, there, rival⟩
      have any : (w.db.store.jobs.any fun job =>
          progresses jobId job && w.revivesRival job) = true :=
        List.any_eq_true.mpr ⟨job, mem, by rw [back.1, revives]; rfl⟩
      rw [flag, fine, (chosen job back).2, any] at fine'
      cases fine'

end DeclutrMail.Actions.Enqueue
