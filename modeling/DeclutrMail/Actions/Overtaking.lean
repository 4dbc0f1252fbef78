import DeclutrMail.Actions.LiveJobs

/-!
# Overtaken requests

The live jobs of a sender are one request's as long as no request is overtaken between its look for
live jobs and its commit. Neither request nor row is locked where the workspace has no quota, so two
requests that both look before either commits are both accepted.
-/

namespace DeclutrMail.Actions.Enqueue

open Interleaving

variable {m : MailboxId} {w w' : World} {t x : ℕ} {task : Task} {job row : RequestJob}
  {S : List String}

/-! ## Statements -/

/-- As long as nothing has gone amiss. -/
def Knows (m : MailboxId) (P : World → Prop) (w : World) : Prop := w.amiss = false → Sound m w ∧ P w

variable {P Q : World → Prop}

theorem Knows.weaken (h : Knows m P w) (le : P w → Q w) : Knows m Q w :=
  fun fine => ⟨(h fine).1, le (h fine).2⟩

/-- What a thread knows after a move of its own. -/
theorem Guarantee.knows (moved : Guarantee m t w w') (h : Knows m P w) (le : P w → Q w') :
    Knows m Q w' := by
  intro fine'
  have fine : w.amiss = false := by
    by_contra amiss
    rw [moved.amiss (by simpa using amiss)] at fine'
    cases fine'
  exact ⟨(moved.sound fine fine' (h fine).1).1, le (h fine).2⟩

def Closed (t : ℕ) (w : World) : Prop := w.db.draft t = []

/-- The look for live jobs is over, and nothing is drafted. -/
def Looked (task : Task) (S : List String) (t : ℕ) (w : World) : Prop :=
  Ready task S t w ∧ Closed t w

theorem Looked.kept (h : Looked task S t w) (kept : Kept t w w') : Looked task S t w' :=
  ⟨h.1.kept kept, kept.draft.trans h.2⟩

/-- A fact about a thread's world. -/
abbrev knows (m : MailboxId) (t : ℕ) (P : World → Prop)
    (kept : ∀ {w w'}, P w → Kept t w w' → P w') : Assertion (Rely m t) where
  holds := Knows m P
  stable := by
    intro w w' h relied fine'
    have fine : w.amiss = false := by
      by_contra amiss
      rw [relied.amiss (by simpa using amiss)] at fine'
      cases fine'
    obtain ⟨sound, holds⟩ := h fine
    obtain ⟨sound', kept'⟩ := relied.sound fine fine' sound
    exact ⟨sound', kept holds kept'⟩

abbrev before (m : MailboxId) (task : Task) (S : List String) (t : ℕ) : Assertion (Rely m t) :=
  knows m t (Looked task S t) Looked.kept

abbrev during (m : MailboxId) (task : Task) (S : List String) (t : ℕ) : Assertion (Rely m t) :=
  knows m t (Ready task S t) Ready.kept

abbrev ended (m : MailboxId) (t : ℕ) : Assertion (Rely m t) :=
  knows m t (Closed t) fun h kept => kept.draft.trans h

/-- A transaction that only its rollback is left of. -/
abbrev abandoned (m : MailboxId) (t : ℕ) : Assertion (Rely m t) :=
  knows m t (fun _ => True) fun _ _ => trivial

abbrev Does (m : MailboxId) {α : Type} (t : ℕ) (A : Assertion (Rely m t)) (p : EnqueueProgram α)
    (B : α → Assertion (Rely m t)) (E : Assertion (Rely m t)) : Prop :=
  @Triple EnqueueSignature (enqueues m) (Rely m) t α (Guarantee m) A p B fun _ => E

namespace Does

variable {α β : Type} {A A' E E' : Assertion (Rely m t)}

theorem bind {p : EnqueueProgram α} {g : α → EnqueueProgram β} {B : α → Assertion (Rely m t)}
    {C : β → Assertion (Rely m t)} (first : Does m t A p B E) (rest : ∀ a, Does m t (B a) (g a) C E) :
    Does m t A (p >>= g) C E := Triple.bind first rest

theorem returns {a : α} {B : α → Assertion (Rely m t)} (le : ∀ w, A w → B a w) :
    Does m t A (pure a) B E := Triple.done le

theorem throws {e : ServiceError} {B : α → Assertion (Rely m t)} (le : ∀ w, A w → E w) :
    Does m t A (throw e) B E := Triple.failed le

theorem pre {p : EnqueueProgram α} {B : α → Assertion (Rely m t)} (h : Does m t A' p B E)
    (le : ∀ w, A w → A' w) : Does m t A p B E := Triple.pre h le

theorem ends {p : EnqueueProgram α} {B B' : α → Assertion (Rely m t)} (h : Does m t A p B' E')
    (le : ∀ a w, B' a w → B a w) (fails : ∀ w, E' w → E w) : Does m t A p B E :=
  Triple.consequence h (fun _ h => h) le fun _ => fails

/-- A refusal under a condition. -/
theorem refuses {c : Bool} {e : ServiceError} : Does m t A (.when c (throw e)) (fun _ => A) A :=
  Triple.when (fun _ => throws fun _ h => h) fun _ _ h => h

variable {q : Statement}

/-- One statement. -/
theorem run {B : q.Answer → Assertion (Rely m t)} (takes : ∀ w, A w → ∀ f a w',
      effect t f w q = some (a, w') → Guarantee m t w w' ∧ B a w' ∧ E w')
    (fails : ∀ w, A w → Guarantee m t w (failed t w q) ∧ E (failed t w q)) :
    Does m t A (run q) B E := by
  refine Triple.perform fun w hw fate r w' answered => ?_
  change answer t q fate w = some (r, w') at answered
  cases fate with
  | fail =>
    obtain ⟨rfl, rfl⟩ := Prod.mk.inj (Option.some.inj answered)
    exact fails w hw
  | go f =>
    obtain ⟨⟨a, v⟩, did, same⟩ := Option.map_eq_some_iff.mp answered
    obtain ⟨rfl, rfl⟩ := Prod.mk.inj same
    exact ⟨(takes w hw f a v did).1, (takes w hw f a v did).2.1⟩
  | lost f =>
    obtain ⟨⟨a, v⟩, did, same⟩ := Option.map_eq_some_iff.mp answered
    obtain ⟨rfl, rfl⟩ := Prod.mk.inj same
    exact ⟨(takes w hw f a v did).1, (takes w hw f a v did).2.2⟩

/-- A statement that only reads. -/
theorem reads {out : Findings → World → q.Answer}
    (ran : ∀ f w, effect t f w q = some (out f w, w)) (failed : ∀ w, failed t w q = w) :
    Does m t A (Enqueue.run q) (fun _ => A) A := by
  refine run (fun w hw f a w' did => ?_) fun w hw => ?_
  · obtain ⟨-, rfl⟩ := Prod.mk.inj (Option.some.inj ((ran f w).symm.trans did))
    exact ⟨.refl, hw, hw⟩
  · rw [failed]
    exact ⟨.refl, hw⟩

end Does

theorem abandon (w : World) (h : Knows m P w) : abandoned m t w :=
  fun fine => ⟨(h fine).1, trivial⟩

/-- A thread that has looked for nobody's jobs has drafted nothing. -/
theorem draft_of_ready (h : Ready task [] t w) : w.db.draft t = [] := by
  refine List.eq_nil_iff_forall_not_mem.mpr fun job mem => ?_
  obtain ⟨key, known, -⟩ := h.drafted job mem
  cases known

theorem does_lock : Does m t (before m task S t) (run .lockCleanupWorkspace)
    (fun _ => before m task S t) (before m task S t) := by
  refine .run (fun w hw f a w' did => ?_) fun w hw => ⟨.refl, hw⟩
  unfold effect at did
  split_ifs at did
  · obtain ⟨d, took, same⟩ := Option.map_eq_some_iff.mp did
    obtain ⟨-, rfl⟩ := Prod.mk.inj same
    obtain ⟨store, draft, -, frames⟩ := Transactions.acquire_eq_some took
    have moved : Guarantee m t w { w with db := d } := .drafts (fun _ sound => sound.keys.acquire took)
      store frames (by rw [draft, List.append_nil]) fun _ _ job mem => (List.not_mem_nil mem).elim
    have still : before m task S t { w with db := d } := by
      refine moved.knows (P := Looked task S t) (Q := Looked task S t) hw fun ⟨ready, nothing⟩ => ?_
      have kept : d.draft t = [] := (congrFun draft t).trans nothing
      refine ⟨⟨ready.claimed, store.symm ▸ ready.unwritten, ?_, store.symm ▸ ready.seen⟩, kept⟩
      intro job mem
      rw [kept] at mem
      cases mem
    exact ⟨moved, still, still⟩
  · obtain ⟨-, rfl⟩ := Prod.mk.inj (Option.some.inj did)
    exact ⟨.refl, hw, hw⟩

/-- Nobody else has a row under a key of the request. -/
theorem does_hasJobWithKey {key : String} (own : key ∈ task.storageKeys) :
    Does m t (before m task [] t) (run (.hasJobWithKey key))
      (fun replay => knows m t (fun w => Looked task [] t w ∧ replay = false)
        fun h kept => ⟨h.1.kept kept, h.2⟩) (before m task [] t) := by
  refine .run (fun w hw f a w' did => ?_) fun w hw => ⟨.refl, hw⟩
  obtain ⟨rfl, rfl⟩ := Prod.mk.inj (Option.some.inj did)
  refine ⟨.refl, fun fine => ?_, hw⟩
  obtain ⟨sound, ready, nothing⟩ := hw fine
  refine ⟨sound, ⟨ready, nothing⟩, ?_⟩
  have view : (w.view t).jobs = w.db.store.jobs := by
    rw [World.view, Transactions.view, nothing]
    rfl
  rw [view, List.any_eq_false]
  intro job mem same
  have key' : job.idempotencyKey ∈ w.mine t := by
    rw [of_decide_eq_true same]
    exact ready.claimed own
  exact ready.unwritten job mem (sound.claimed job mem t key')

/-- After the look, the senders that are not busy have no rivals but new ones. -/
theorem does_liveForwardJobSenderKeys {senderKeys exclude : List String}
    (own : exclude ⊆ task.storageKeys) : Does m t (before m task [] t)
    (run (.liveForwardJobSenderKeys m senderKeys exclude))
      (fun busy => before m task (senderKeys.filter fun key => !busy.contains key) t)
      (before m task [] t) := by
  refine .run (fun w hw f busy w' did => ?_) fun w hw => ⟨.refl, hw⟩
  obtain ⟨rfl, rfl⟩ := Prod.mk.inj (Option.some.inj did)
  have moved : Guarantee m t w { w with since := Function.update w.since t [] } := by
    refine ⟨id, fun _ _ sound => ⟨⟨sound.keys, sound.apart, fun job mem x request =>
      { sound.owned job mem x request with }, sound.claimed, fun x job mem =>
        { sound.drafts x job mem with }, sound.one⟩, fun x other => ?_⟩⟩
    have since : Function.update w.since t [] x = w.since x := Function.update_of_ne other _ _
    refine ⟨rfl, List.Subset.refl _, ?_, Kept.refl.own, fun job mem request live =>
      .inr ⟨job, mem, rfl, rfl, rfl, live⟩⟩
    change w.since x ⊆ Function.update w.since t [] x
    rw [since]
    exact List.Subset.refl _
  refine ⟨moved, fun fine => ?_, fun fine => ?_⟩
  · obtain ⟨sound, ready, nothing⟩ := hw fine
    refine ⟨(moved.sound fine fine sound).1, ⟨ready.claimed, ready.unwritten, ?_, ?_⟩, nothing⟩
    · intro job mem
      change job ∈ w.db.draft t at mem
      rw [nothing] at mem
      cases mem
    · intro job mem request live key known same
      -- the look would have shown the job
      exfalso
      obtain ⟨x, from'⟩ := Option.ne_none_iff_exists'.mp request
      have theirs := sound.owned job mem x from'
      have view : (w.view t).jobs = w.db.store.jobs := by
        rw [World.view, Transactions.view, nothing]
        rfl
      obtain ⟨asked, free⟩ := List.mem_filter.mp known
      have foreign : job.idempotencyKey ∉ exclude := fun mine =>
        ready.unwritten job mem (sound.claimed job mem t (ready.claimed (own mine)))
      have shown : key ∈ liveKeys t w m senderKeys exclude := by
        refine List.mem_filter.mpr ⟨List.mem_filterMap.mpr ⟨job, List.mem_filter.mpr ⟨?_, ?_⟩,
          same⟩, by simpa using asked⟩
        · rw [view]
          exact mem
        · simp [theirs.mailbox, theirs.direction, live, foreign]
      simp [shown] at free
  · obtain ⟨sound, ready, nothing⟩ := hw fine
    refine ⟨(moved.sound fine fine sound).1, ⟨ready.claimed, ready.unwritten, ready.drafted, ?_⟩,
      nothing⟩
    intro job mem request live key known
    cases known


/-! ## The rows of a request -/

/-- A row of the request, for a sender without jobs of others at the look. -/
def Fits (m : MailboxId) (task : Task) (S : List String) (input : ActionRow) : Prop :=
  input.mailboxAccountId = m ∧ input.direction = .forward ∧
    input.idempotencyKey ∈ task.storageKeys ∧ ∃ key ∈ S, input.selector.senderKey = some key

theorem does_insertRow {input : ActionRow} (fits : Fits m task S input) :
    Does m t (during m task S t) (run (.insertJob input)) (fun _ => during m task S t)
      (during m task S t) := by
  refine .run (fun w hw f a w' did => ?_) fun w hw => ⟨.refl, hw⟩
  obtain ⟨mailbox, direction, own, sender⟩ := fits
  obtain ⟨⟨inserted, d⟩, done, same⟩ := Option.map_eq_some_iff.mp did
  obtain ⟨-, rfl⟩ := Prod.mk.inj same
  obtain ⟨frames, store, draft⟩ := UniqueIndex.frames_insert done
  have moved : Guarantee m t w { w with db := d } := by
    refine .drafts (fun _ sound => sound.keys.insert (ActionRow.nodup_locks _) done) store frames
      draft fun fine sound job mem => ?_
    cases inserted with
    | false => cases mem
    | true =>
      obtain rfl := List.mem_singleton.mp mem
      exact ⟨rfl, mailbox, direction, (hw fine).2.claimed own⟩
  have still : during m task S t { w with db := d } := by
    refine moved.knows (P := Ready task S t) (Q := Ready task S t) hw fun ready => ?_
    refine ⟨ready.claimed, store.symm ▸ ready.unwritten, ?_, store.symm ▸ ready.seen⟩
    intro job mem
    rcases List.mem_append.mp (draft ▸ mem) with old | new
    · exact ready.drafted job old
    · cases inserted with
      | false => cases new
      | true =>
        obtain rfl := List.mem_singleton.mp new
        exact sender
  exact ⟨moved, still, still⟩

theorem does_insertJob {input : ActionRow} (fits : Fits m task S input) :
    Does m t (during m task S t) (insertJob input) (fun _ => during m task S t)
      (during m task S t) := by
  refine Does.bind (does_insertRow fits) fun inserted => ?_
  cases inserted with
  | some row => exact Does.returns fun _ h => h
  | none =>
    refine Does.bind (Does.reads (fun _ _ => rfl) fun _ => rfl) fun found => ?_
    cases found with
    | some row => exact Does.returns fun _ h => h
    | none => exact Does.throws fun _ h => h

/-- Whatever a transaction has drafted, it is gone or committed at its end. -/
theorem does_transaction {α : Type} {body : EnqueueProgram α} {A : Assertion (Rely m t)}
    (h : Does m t A body (fun _ => during m task S t) (abandoned m t)) :
    Does m t A (transaction body) (fun _ => ended m t) (ended m t) := by
  have rolled : ∀ w, abandoned m t w → Guarantee m t w (w.rollback t) ∧ ended m t (w.rollback t) :=
    fun w hw => ⟨.rollback, Guarantee.rollback.knows (P := fun _ => True) (Q := Closed t) hw
      fun _ => Transactions.draft_rollback⟩
  refine Does.bind (Triple.tryCatch h fun e => Does.bind (Does.run (B := fun _ => ended m t)
    (fun w hw f a w' did => ?_) rolled) fun _ => Does.throws fun _ h => h) fun a =>
      Does.bind (Does.run (B := fun _ => ended m t) (fun w hw f b w' did => ?_)
        fun w hw => rolled w (abandon w hw)) fun _ => Does.returns fun _ h => h
  · obtain ⟨-, rfl⟩ := Prod.mk.inj (Option.some.inj did)
    exact ⟨(rolled w hw).1, (rolled w hw).2, (rolled w hw).2⟩
  · obtain ⟨-, rfl⟩ := Prod.mk.inj (Option.some.inj did)
    have moved : Guarantee m t w (w.commit t) := .commit fun fine => (hw fine).2
    have past : ended m t (w.commit t) := moved.knows (P := Ready task S t) (Q := Closed t) hw
      fun _ => Transactions.draft_commit
    exact ⟨moved, past, past⟩

/-! ## The queue -/

section Queue

variable {mailboxAccountId : MailboxId}

theorem does_enqueueJob {actionId : ActionId} : Does m t (ended m t)
    (enqueueJob mailboxAccountId actionId) (fun _ => ended m t) (ended m t) := by
  refine Triple.tryCatch (Does.reads (fun _ _ => rfl) fun _ => rfl) fun e => ?_
  refine Does.bind (Does.run (B := fun _ => ended m t) (fun w hw f a w' did => ?_)
    fun w hw => ⟨.refl, hw⟩) fun _ => Does.throws fun _ h => h
  obtain ⟨v, failed, same⟩ := Option.map_eq_some_iff.mp did
  obtain ⟨-, rfl⟩ := Prod.mk.inj same
  obtain ⟨moved, draft⟩ := guarantee_failJob (m := m) (t := t) failed
  have still : ended m t v := moved.knows (P := Closed t) (Q := Closed t) hw (congrFun draft t).trans
  exact ⟨moved, still, still⟩

theorem does_enqueueAll (fresh : List ActionId) : Does m t (ended m t)
    (enqueueAll mailboxAccountId fresh) (fun _ => ended m t) (ended m t) := by
  induction fresh with
  | nil => exact Does.returns fun _ h => h
  | cons actionId rest ih =>
    refine Does.bind (B := fun _ => ended m t) (Triple.tryCatch (Does.bind does_enqueueJob fun _ =>
      Does.returns fun _ h => h) fun e => Does.returns fun _ h => h) fun failure => ?_
    exact Does.bind ih fun _ => Does.returns fun _ h => h

theorem does_enqueueFresh {fresh : List ActionId} : Does m t (ended m t)
    (enqueueFresh mailboxAccountId fresh) (fun _ => ended m t) (ended m t) := by
  refine Does.bind (does_enqueueAll fresh) fun failures => ?_
  cases failures with
  | nil => exact Does.returns fun _ h => h
  | cons failure rest => exact Does.throws fun _ h => h

end Queue

/-! ## The requests -/

theorem fits_row {request : CompositeRequest} {sender : Sender} {verb : Verb} {key : String}
    {count : ℕ} {compositeId : Option ActionId} (own : request.mailboxAccountId = m)
    (mem : key ∈ task.storageKeys) (known : sender.senderKey ∈ S) :
    Fits m task S (request.row sender verb key count compositeId) :=
  ⟨own, rfl, mem, _, known, rfl⟩

theorem fits_primaryRow {request : CompositeRequest} {sender : Sender} {key : String} {count : ℕ}
    {compositeId : Option ActionId} (own : request.mailboxAccountId = m)
    (mem : key ∈ task.storageKeys) (known : sender.senderKey ∈ S) :
    Fits m task S (request.primaryRow sender key count compositeId) :=
  ⟨own, rfl, mem, _, known, rfl⟩

theorem closed (w : World) (h : before m task S t w) : ended m t w :=
  Knows.weaken (P := Looked task S t) (Q := Closed t) h fun known => known.2

theorem looked (w : World) (h : before m task S t w) : during m task S t w :=
  Knows.weaken (P := Looked task S t) (Q := Ready task S t) h fun known => known.1

/-- Reads that a transaction begins with. -/
theorem does_assertCapacity {workspace : Option Workspace} {unitsNeeded : Workspace → ℕ}
    {A : Assertion (Rely m t)} :
    Does m t A (assertCapacity workspace unitsNeeded) (fun _ => A) A := by
  cases workspace with
  | none => exact Does.returns fun _ h => h
  | some workspace => exact Does.reads (fun _ _ => rfl) fun _ => rfl

theorem does_assertValidWakeAt {verb : Verb} {wakeAt : Option ℤ} {A : Assertion (Rely m t)} :
    Does m t A (assertValidWakeAt verb wakeAt) (fun _ => A) A := by
  unfold assertValidWakeAt
  split
  · exact Does.throws fun _ h => h
  · exact Does.bind (Does.reads (fun _ _ => rfl) fun _ => rfl) fun _ => Does.refuses
  · exact Does.throws fun _ h => h
  · exact Does.returns fun _ h => h

section Single

variable {request : SingleRequest} {sender : Sender} {queue : Bool}

theorem does_assertNotBusy (own : request.mailboxAccountId = m) :
    Does m t (before m task [] t) (assertNotBusy request sender)
      (fun _ => before m task [sender.senderKey] t) (abandoned m t) := by
  subst own
  refine Does.bind ((does_liveForwardJobSenderKeys (List.nil_subset _)).ends (fun _ _ h => h)
    abandon) fun busy => ?_
  refine Triple.when (fun _ => Does.throws abandon) fun free w h => ?_
  have still : [sender.senderKey].filter (fun key => !busy.contains key) = [sender.senderKey] := by
    simpa using free
  exact still ▸ h

theorem does_persistComposite {primaryCount secondaryCount : ℕ}
    (own : request.mailboxAccountId = m) :
    Does m t (before m (.single request queue) [] t)
      (persistComposite request sender primaryCount secondaryCount)
      (fun _ => during m (.single request queue) [sender.senderKey] t) (abandoned m t) := by
  refine Does.bind (does_lock.ends (fun _ _ h => h) abandon) fun workspace => ?_
  refine Does.bind ((does_hasJobWithKey List.mem_cons_self).ends (fun _ _ h => h) abandon)
    fun replay => ?_
  refine Does.bind (B := fun _ => during m (.single request queue) [sender.senderKey] t)
    (Triple.when (fun _ => ?_) fun replayed w h => ?_) fun _ => ?_
  · refine Does.pre (?_ : Does m t (before m (.single request queue) [] t) _ _ _)
      fun w h fine => ⟨(h fine).1, (h fine).2.1⟩
    refine Does.bind (does_assertCapacity.ends (fun _ _ h => h) abandon) fun _ => ?_
    exact (does_assertNotBusy own).ends (fun _ => looked) fun _ h => h
  · -- nobody has a row under the key of a request that has not written yet
    intro fine
    obtain ⟨-, -, new⟩ := h fine
    simp [new] at replayed
  · refine Does.bind ((does_insertJob (fits_primaryRow own List.mem_cons_self
      (List.mem_singleton_self _))).ends (fun _ _ h => h) abandon) fun primary => ?_
    refine Does.bind (B := fun _ => during m (.single request queue) [sender.senderKey] t) ?_
      fun secondary => Does.returns fun _ h => h
    unfold insertSecondary
    split
    · exact Does.returns fun _ h => h
    · next verb same =>
      have mem : request.secondaryStorageKey verb ∈ (Task.single request queue).storageKeys := by
        simp [Task.storageKeys, SingleRequest.storageKeys, same]
      exact Does.bind ((does_insertJob (fits_row own mem (List.mem_singleton_self _))).ends
        (fun _ _ h => h) abandon)
        fun row => Does.returns fun _ h => h

theorem does_enqueueSender (own : request.mailboxAccountId = m) :
    Does m t (before m (.single request queue) [] t) (enqueueSender request sender)
      (fun _ => ended m t) (ended m t) := by
  refine Does.bind ((Does.reads (fun _ _ => rfl) fun _ => rfl).ends (fun _ _ h => h) closed)
    fun guarded => ?_
  refine Does.bind (Does.refuses.ends (fun _ _ h => h) closed) fun _ => ?_
  refine Does.bind (Does.refuses.ends (fun _ _ h => h) closed) fun _ => ?_
  refine Does.bind ((Does.reads (fun _ _ => rfl) fun _ => rfl).ends (fun _ _ h => h) closed)
    fun primaryCount => ?_
  refine Does.bind ((Does.reads (fun _ _ => rfl) fun _ => rfl).ends (fun _ _ h => h) closed)
    fun secondaryCount => ?_
  refine Does.bind (does_transaction (does_persistComposite own)) fun rows => ?_
  exact Does.bind does_enqueueFresh fun _ => Does.returns fun _ h => h

theorem does_enqueueComposite (own : request.mailboxAccountId = m) :
    Does m t (before m (.single request queue) [] t) (enqueueComposite request queue)
      (fun _ => ended m t) (ended m t) := by
  refine Does.bind (does_assertValidWakeAt.ends (fun _ _ h => h) closed) fun _ => ?_
  refine Does.bind (Does.refuses.ends (fun _ _ h => h) closed) fun _ => ?_
  refine Does.bind ((Does.reads (fun _ _ => rfl) fun _ => rfl).ends (fun _ _ h => h) closed)
    fun found => ?_
  cases found with
  | none => exact Does.throws closed
  | some sender => exact does_enqueueSender own

end Single

section Bulk

variable {request : BulkCompositeRequest} {queue : Bool} {primaryCount secondaryCount : String → ℕ}

theorem does_insertSender {inserted : Inserted} {sender : Sender}
    (own : request.mailboxAccountId = m) (mine : request.ownKeys sender ⊆ task.storageKeys)
    (known : sender.senderKey ∈ S) : Does m t (during m task S t)
      (insertSender request primaryCount secondaryCount inserted sender)
      (fun _ => during m task S t) (during m task S t) := by
  refine Does.bind (does_insertJob (fits_primaryRow own (mine List.mem_cons_self) known))
    fun row => ?_
  dsimp only
  split
  · exact Does.returns fun _ h => h
  · next verb same =>
    have mem : request.secondaryKey verb sender ∈ request.ownKeys sender := by
      simp [BulkCompositeRequest.ownKeys, BulkRequest.ownKeys, CompositeRequest.bulk, same,
        BulkCompositeRequest.secondaryKey]
    exact Does.bind (does_insertJob (fits_row own (mine mem) known))
      fun row => Does.returns fun _ h => h

theorem does_insertSenders {senders : List Sender} (own : request.mailboxAccountId = m)
    (mine : ∀ sender ∈ senders, request.ownKeys sender ⊆ task.storageKeys)
    (known : ∀ sender ∈ senders, sender.senderKey ∈ S) (inserted : Inserted) :
    Does m t (during m task S t)
      (insertSenders request primaryCount secondaryCount inserted senders)
      (fun _ => during m task S t) (during m task S t) := by
  induction senders generalizing inserted with
  | nil => exact Does.returns fun _ h => h
  | cons sender rest ih =>
    obtain ⟨first, others⟩ := List.forall_mem_cons.mp mine
    obtain ⟨firstKnown, othersKnown⟩ := List.forall_mem_cons.mp known
    exact Does.bind (does_insertSender own first firstKnown) fun inserted =>
      ih others othersKnown inserted

theorem does_persistBulk {anchor : Sender} {rest : List Sender}
    (own : request.mailboxAccountId = m)
    (mine : ∀ sender ∈ anchor :: rest, request.ownKeys sender ⊆ task.storageKeys)
    (known : ∀ sender ∈ anchor :: rest, sender.senderKey ∈ S) :
    Does m t (before m task S t) (persistBulk request primaryCount secondaryCount anchor rest)
      (fun _ => during m task S t) (abandoned m t) := by
  refine Does.bind (does_lock.ends (fun _ _ h => h) abandon) fun workspace => ?_
  refine Does.bind ((Does.reads (fun _ _ => rfl) fun _ => rfl).ends (fun _ _ h => h) abandon)
    fun replay => ?_
  refine Does.bind (B := fun _ => before m task S t) (Triple.when
    (fun _ => does_assertCapacity.ends (fun _ _ h => h) abandon) fun _ _ h => h) fun _ => ?_
  exact ((does_insertSenders own mine known .empty).pre looked).ends (fun _ _ h => h) abandon

theorem does_enqueueSenders {anchor : Sender} {rest : List Sender}
    {skipped : List (String × SkipReason)} (own : request.mailboxAccountId = m)
    (mine : ∀ sender ∈ anchor :: rest, request.ownKeys sender ⊆ task.storageKeys)
    (known : ∀ sender ∈ anchor :: rest, sender.senderKey ∈ S) :
    Does m t (before m task S t) (enqueueSenders request anchor rest skipped)
      (fun _ => ended m t) (ended m t) := by
  refine Does.bind ((Does.reads (fun _ _ => rfl) fun _ => rfl).ends (fun _ _ h => h) closed)
    fun primaryCount => ?_
  refine Does.bind ((Does.reads (fun _ _ => rfl) fun _ => rfl).ends (fun _ _ h => h) closed)
    fun secondaryCount => ?_
  refine Does.bind (does_transaction (does_persistBulk own mine known)) fun inserted => ?_
  exact Does.bind does_enqueueFresh fun _ => Does.returns fun _ h => h

/-- A sender that is found has keys of the request. -/
theorem ownKeys_found {rows : List Sender} {sender : Sender} (mem : sender ∈ request.found rows) :
    request.ownKeys sender ⊆ (Task.bulk request queue).storageKeys := by
  obtain ⟨id, asked, found⟩ := List.mem_filterMap.mp mem
  obtain rfl : sender.id = id := by simpa using List.find?_some found
  exact fun key known => List.mem_flatMap.mpr ⟨sender.id, asked, known⟩

theorem does_enqueueActionable {rows : List Sender} {protectedKeys : List String}
    (own : request.mailboxAccountId = m) : Does m t (before m (.bulk request queue) [] t)
      (enqueueActionable request rows protectedKeys) (fun _ => ended m t) (ended m t) := by
  subst own
  unfold enqueueActionable
  dsimp only
  set found := (request.found rows).filter fun sender =>
    !protectedKeys.contains sender.senderKey with selected
  have mine : ∀ sender ∈ found, request.ownKeys sender ⊆ (Task.bulk request queue).storageKeys :=
    fun sender mem => ownKeys_found (List.mem_of_mem_filter mem)
  refine Does.bind ((does_liveForwardJobSenderKeys ?_).ends (fun _ _ h => h) closed) fun busy => ?_
  · intro key mem
    obtain ⟨sender, there, known⟩ := List.mem_flatMap.mp mem
    exact mine sender there known
  · split
    · exact Does.throws closed
    · next anchor rest free =>
      have actionable : ∀ sender ∈ anchor :: rest,
          sender ∈ found ∧ (!busy.contains sender.senderKey) = true :=
        fun sender mem => List.mem_filter.mp (free ▸ mem)
      exact does_enqueueSenders rfl (fun sender mem => mine sender (actionable sender mem).1)
        fun sender mem => List.mem_filter.mpr
          ⟨List.mem_map_of_mem (actionable sender mem).1, (actionable sender mem).2⟩

theorem does_assertTiers {A : Assertion (Rely m t)} :
    Does m t A (assertTiers request) (fun _ => A) A := by
  refine Does.bind (Does.reads (fun _ _ => rfl) fun _ => rfl) fun _ => ?_
  split
  · exact Does.returns fun _ h => h
  · exact Does.reads (fun _ _ => rfl) fun _ => rfl

theorem does_enqueueBulkComposite (own : request.mailboxAccountId = m) :
    Does m t (before m (.bulk request queue) [] t) (enqueueBulkComposite request queue)
      (fun _ => ended m t) (ended m t) := by
  refine Does.bind (Does.refuses.ends (fun _ _ h => h) closed) fun _ => ?_
  refine Does.bind (does_assertTiers.ends (fun _ _ h => h) closed) fun _ => ?_
  refine Does.bind (Does.refuses.ends (fun _ _ h => h) closed) fun _ => ?_
  refine Does.bind (does_assertValidWakeAt.ends (fun _ _ h => h) closed) fun _ => ?_
  refine Does.bind ((Does.reads (fun _ _ => rfl) fun _ => rfl).ends (fun _ _ h => h) closed)
    fun rows => ?_
  refine Does.bind ((Does.reads (fun _ _ => rfl) fun _ => rfl).ends (fun _ _ h => h) closed)
    fun protectedKeys => ?_
  exact does_enqueueActionable own

end Bulk

theorem does_code (own : task.mailboxAccountId = m) :
    Does m t (before m task [] t) task.code (fun _ => ended m t) (ended m t) := by
  cases task with
  | single request queue =>
    exact Does.bind (does_enqueueComposite own) fun _ => Does.returns fun _ h => h
  | bulk request queue =>
    exact Does.bind (does_enqueueBulkComposite own) fun _ => Does.returns fun _ h => h

/-! ## Every run -/

/-- A request that starts under keys of its own. -/
theorem guarantee_accept (accepted : (enqueues m).accept t task w = some w')
    (idle : ended m t w) : Guarantee m t w w' ∧ before m task [] t w' ∧
      task.mailboxAccountId = m := by
  change (if _ then some _ else none) = some w' at accepted
  split_ifs at accepted with fits
  have same := Option.some.inj accepted
  obtain ⟨own, unused⟩ := fits
  have db : w'.db = w.db := same ▸ rfl
  have since : w'.since = w.since := same ▸ rfl
  have amiss : w'.amiss = (w.amiss || w.collides task) := same ▸ rfl
  have tasks : w'.tasks = w.tasks ++ [(t, task)] := same ▸ rfl
  have none : w.mine t = [] := by
    refine List.eq_nil_iff_forall_not_mem.mpr fun key mem => ?_
    obtain ⟨other, there, -⟩ := mem_mine.mp mem
    exact unused (List.mem_map.mpr ⟨_, there, rfl⟩)
  have mine : ∀ x key, key ∈ w'.mine x ↔ key ∈ w.mine x ∨ x = t ∧ key ∈ task.storageKeys := by
    intro x key
    simp only [mem_mine, tasks, List.mem_append, List.mem_singleton, Prod.mk.injEq, or_and_right,
      exists_or]
    refine or_congr_right ⟨?_, ?_⟩
    · rintro ⟨other, ⟨here, what⟩, known⟩
      exact ⟨here, what ▸ known⟩
    · rintro ⟨here, known⟩
      exact ⟨task, ⟨here, rfl⟩, known⟩
  have lift : ∀ {x job}, Own m w x job → Own m w' x job := fun own =>
    ⟨own.request, own.mailbox, own.direction, (mine _ _).mpr (.inl own.key)⟩
  have moved : Guarantee m t w w' := by
    refine ⟨fun bad => by simp [amiss, bad], fun fine fine' sound => ?_⟩
    have free : w.collides task = false := by simpa [amiss, fine] using fine'
    have fresh : ∀ key ∈ task.storageKeys, (∀ x, key ∉ w.mine x) ∧
        ∀ job ∈ w.db.store.jobs, job.idempotencyKey ≠ key := by
      intro key known
      have clear := List.any_eq_false.mp free key known
      simp only [Bool.or_eq_true, List.any_eq_true, not_or, not_exists, not_and] at clear
      refine ⟨fun x mem => ?_, fun job mem same => clear.2 job mem (decide_eq_true same)⟩
      obtain ⟨other, there, held⟩ := mem_mine.mp mem
      exact clear.1 _ there (List.contains_iff_mem.mpr held)
    refine ⟨⟨db.symm ▸ sound.keys, fun x y ne key left right => ?_, fun job mem x request => ?_,
      fun job mem x key => ?_, fun x job mem => ?_, db.symm ▸ sound.one⟩, fun x other => ⟨?_, ?_, ?_,
        ?_, ?_⟩⟩
    · rcases (mine x key).mp left with left | ⟨rfl, left⟩ <;>
        rcases (mine y key).mp right with right | ⟨rfl, right⟩
      · exact sound.apart x y ne key left right
      · exact (fresh key right).1 x left
      · exact (fresh key left).1 y right
      · exact ne rfl
    · exact lift (sound.owned job (db ▸ mem) x request)
    · rcases (mine x _).mp key with old | ⟨rfl, new⟩
      · exact sound.claimed job (db ▸ mem) x old
      · exact absurd rfl ((fresh _ new).2 job (db ▸ mem))
    · exact lift (sound.drafts x job (db ▸ mem))
    · rw [db]
    · exact fun key mem => (mine x key).mpr (.inl mem)
    · rw [since]
      exact List.Subset.refl _
    · exact db.symm ▸ Kept.refl.own
    · rw [db, since]
      exact Kept.refl.live
  refine ⟨moved, ?_, own⟩
  intro fine'
  have fine : w.amiss = false := by
    by_contra bad
    rw [moved.amiss (by simpa using bad)] at fine'
    cases fine'
  obtain ⟨sound, closed⟩ := idle fine
  refine ⟨(moved.sound fine fine' sound).1, ⟨fun key mem => (mine t key).mpr (.inr ⟨rfl, mem⟩),
    fun job mem request => ?_, fun job mem => ?_, fun job mem request live key known => ?_⟩,
      (congrFun (congrArg Transactions.draft db) t).trans closed⟩
  · have key := (sound.owned job (db ▸ mem) t request).key
    rw [none] at key
    cases key
  · rw [db, closed] at mem
    cases mem
  · cases known

theorem enqueues_verified : Verified (enqueues m) (fun _ _ => True) (Rely m) (Guarantee m)
    (fun w => w.amiss = false → Sound m w) (fun t w => ended m t w)
    fun t _ w => ended m t w where
  guarantee_rely ne _ moved := moved.rely ne
  guarantee_inv inv moved := fun fine' =>
    (moved.knows (P := fun _ => True) (Q := fun _ => True) (fun fine => ⟨inv fine, trivial⟩) id
      fine').1
  idle_stable t := (ended m t).stable
  start := by
    intro t task w w' _ idle accepted
    obtain ⟨moved, opened, own⟩ := guarantee_accept accepted idle
    refine ⟨moved, (does_code own w' opened).mono fun r v h => ?_⟩
    cases r with
    | ok _ => exact h
    | error _ => exact h
  finish := by
    intro t r w w' inv closed settled
    obtain rfl := Option.some.inj settled
    exact ⟨.rollback, Guarantee.rollback.knows (P := Closed t) (Q := Closed t) closed
      fun _ => Transactions.draft_rollback⟩
  crash := by
    intro t w w' inv crashed
    obtain rfl := Option.some.inj crashed
    exact ⟨.rollback, Guarantee.rollback.knows (P := fun _ => True) (Q := Closed t)
      (fun fine => ⟨inv fine, trivial⟩) fun _ => Transactions.draft_rollback⟩
  disturb := by
    intro e w w' inv _ disturbed
    have relied := disturb_rely (m := m) disturbed
    refine ⟨fun fine' => ?_, relied⟩
    have fine : w.amiss = false := by
      by_contra bad
      rw [(relied 0).amiss (by simpa using bad)] at fine'
      cases fine'
    exact ((relied 0).sound fine fine' (inv fine)).1

/-- No request has come yet; the jobs that are there are other writers'. -/
structure Begins (w : World) : Prop where
  draft : w.db.draft = fun _ => []
  tasks : w.tasks = []
  foreign : ∀ job ∈ w.db.store.jobs, job.request = none
  unique : (jobKeys.listed w.db.store).Nodup

theorem Begins.sound (h : Begins w) : Sound m w := by
  have mine : ∀ x, w.mine x = [] := fun x => by simp [World.mine, h.tasks]
  refine ⟨.nothing h.unique fun x => congrFun h.draft x, fun x y _ key mem => ?_,
    fun job mem x request => ?_, fun job mem x key => ?_, fun x job mem => ?_,
    fun a memA b memB _ _ _ p q fromA => ?_⟩
  · rw [mine] at mem
    cases mem
  · rw [h.foreign job mem] at request
    cases request
  · rw [mine] at key
    cases key
  · rw [h.draft] at mem
    cases mem
  · rw [h.foreign a memA] at fromA
    cases fromA

/-- In every run of requests of one sender and of many, crashes and lost answers among them, the
live jobs of a sender are one request's, unless a request has been overtaken, storage keys have
collided, or a job that could not be enqueued has come back to life beside another request's. -/
theorem live_jobs_of_one_request {c : Config (enqueues m)} (start : Begins w)
    (h : Reaches (.idle w) c) (fine : c.world.amiss = false) : OneRequest c.world.db.store := by
  have sound := enqueues_verified.sound (fun _ => start.sound)
    (fun t _ => ⟨start.sound, congrFun start.draft t⟩) h
  exact (sound.inv fine).one

/-- The senders of a mailbox without jobs. -/
def unasked (senders : List Sender) : World :=
  ⟨⟨⟨senders, [], []⟩, fun _ => [], fun _ => none⟩, [], fun _ => [], false⟩

def shop : Sender := ⟨"shop", "shop.example"⟩

def news : Sender := ⟨"news", "news.example"⟩

def archiveRequest (idempotencyKey : String) : CompositeRequest :=
  ⟨7, .archive, none, idempotencyKey, .inboxOnly, none⟩

def singleTask (idempotencyKey senderId : String) : Task :=
  .single ⟨archiveRequest idempotencyKey, senderId, false⟩ true

def bulkTask (idempotencyKey : String) (senderIds : List String) : Task :=
  .bulk ⟨archiveRequest idempotencyKey, senderIds⟩ true

def freeTier : Workspace := ⟨.of 0 0 0, true, 100, 100⟩

def asks (t : ℕ) (task : Task) : Interleaving.Move (enqueues 7) := .start t task

/-- The next statements of thread `t` take effect. -/
def proceeds (t : ℕ) (workspace : Option Workspace) (ids : List ActionId) :
    List (Interleaving.Move (enqueues 7)) :=
  ids.map fun id => .reply t (.go ⟨id, 0, workspace, fun _ => 3⟩)

def answered (t : ℕ) : Interleaving.Move (enqueues 7) := .finish t

/-- A request of many senders after one of a sender among them, which it skips. -/
def successiveRequests : List (Interleaving.Move (enqueues 7)) :=
  asks 0 (singleTask "a" "shop") :: proceeds 0 none (List.range 10) ++
    [answered 0, asks 1 (bulkTask "b" ["shop", "news"])] ++
    proceeds 1 (some freeTier) ((List.range 12).map (· + 20)) ++ [answered 1]

/-- The live jobs with their senders and requests. -/
def liveJobs (w : World) : List (Option String × Option ℕ) :=
  (w.db.store.jobs.filter fun job => job.direction = .forward ∧ job.status.live).map fun job =>
    (job.selector.senderKey, job.request)

theorem live_jobs_of_one_request_successive : ∃ c : Config (enqueues 7),
    Reaches (.idle (unasked [shop, news])) c ∧ c.world.amiss = false ∧
      liveJobs c.world = [(some "shop.example", some 0), (some "news.example", some 1)] ∧
        OneRequest c.world.db.store := by
  obtain ⟨c, run, ended⟩ := exists_reaches (M := enqueues 7)
    (c := .idle (unasked [shop, news])) (l := successiveRequests)
    (p := fun c => c.world.amiss = false ∧
      liveJobs c.world = [(some "shop.example", some 0), (some "news.example", some 1)])
    (by decide +kernel)
  obtain ⟨fine, live⟩ := of_decide_eq_true ended
  have start : Begins (unasked [shop, news]) := ⟨rfl, rfl, by simp [unasked], List.nodup_nil⟩
  exact ⟨c, run, fine, live, live_jobs_of_one_request start run fine⟩

/-- Both requests look before either commits; no workspace is locked. -/
def racingRequests : List (Interleaving.Move (enqueues 7)) :=
  [asks 0 (singleTask "a" "shop"), asks 1 (singleTask "b" "shop")] ++
    proceeds 0 none (List.range 7) ++ proceeds 1 none (List.range 7) ++
    proceeds 0 none [11, 12, 13] ++ proceeds 1 none [21, 22, 23] ++ [answered 0, answered 1]

/-- The lock of the workspace comes after the look. -/
def racingBulkRequests : List (Interleaving.Move (enqueues 7)) :=
  [asks 0 (bulkTask "a" ["shop"]), asks 1 (bulkTask "b" ["shop"])] ++
    proceeds 0 (some freeTier) (List.range 4) ++ proceeds 1 (some freeTier) (List.range 4) ++
    proceeds 0 (some freeTier) ((List.range 8).map (· + 10)) ++
    proceeds 1 (some freeTier) ((List.range 8).map (· + 20)) ++ [answered 0, answered 1]

/-- Two requests with a key each have a live forward job of one sender each, without a quota and,
where they are of many senders, with one. -/
theorem overtaken_requests :
    (∃ c : Config (enqueues 7), Reaches (.idle (unasked [shop])) c ∧
      c.world.tasks = [(0, singleTask "a" "shop"), (1, singleTask "b" "shop")] ∧
      liveJobs c.world = [(some "shop.example", some 0), (some "shop.example", some 1)]) ∧
    ∃ c : Config (enqueues 7), Reaches (.idle (unasked [shop])) c ∧
      c.world.tasks = [(0, bulkTask "a" ["shop"]), (1, bulkTask "b" ["shop"])] ∧
      liveJobs c.world = [(some "shop.example", some 0), (some "shop.example", some 1)] := by
  constructor
  · obtain ⟨c, run, ended⟩ := exists_reaches (M := enqueues 7) (c := .idle (unasked [shop]))
      (l := racingRequests) (p := fun c => c.world.tasks =
        [(0, singleTask "a" "shop"), (1, singleTask "b" "shop")] ∧
          liveJobs c.world = [(some "shop.example", some 0), (some "shop.example", some 1)])
      (by decide +kernel)
    exact ⟨c, run, of_decide_eq_true ended⟩
  · obtain ⟨c, run, ended⟩ := exists_reaches (M := enqueues 7) (c := .idle (unasked [shop]))
      (l := racingBulkRequests) (p := fun c => c.world.tasks =
        [(0, bulkTask "a" ["shop"]), (1, bulkTask "b" ["shop"])] ∧
          liveJobs c.world = [(some "shop.example", some 0), (some "shop.example", some 1)])
      (by decide +kernel)
    exact ⟨c, run, of_decide_eq_true ended⟩

end DeclutrMail.Actions.Enqueue
