import DeclutrMail.Unsubscribe.Intents

/-!
# Replays of an intent

However many posts carry one key, what they commit is what one post commits: of each kind of
write there is at most one. The first write of a post reserves its key, which is unique, and the
writes of a failed execution begin with the row of the execution, which is locked and not queued
again.
-/

namespace DeclutrMail.Unsubscribe

open Interleaving Actions Senders

/-- The decision is the `unsubscribe` row of the activity log; a sender without one-click has an
outcome beside it. -/
inductive Kind
  | reservation
  | execution
  | policy
  | decision
  | outcome
  | completion
  | event
  | failedJob
  | failedPolicy
  | failure
  deriving DecidableEq

/-- What a failed execution writes. -/
def Kind.fails : Kind → Bool
  | failedJob | failedPolicy | failure => true
  | _ => false

def Write.kind (write : Write) : Kind :=
  match write.change with
  | .job row => if row.idempotencyKey = namespacedKey write.post then .reservation else .execution
  | .policy .. => .policy
  | .activity row =>
    match row.action with
    | .unsubscribe => .decision
    | .unsubscribeFailed => .failure
    | _ => .outcome
  | .intent .. => .completion
  | .event _ => .event
  | .failJob _ => .failedJob
  | .failPolicy .. => .failedPolicy

/-- What the posts of a key have committed. -/
def Store.recorded (s : Store) (post : String) : List Kind :=
  (s.ledger.filter (·.post = post)).map Write.kind

/-- The ids of the jobs with their keys. -/
def identities : UniqueIndex Store.apply (ActionId × String) where
  listed s := s.jobs.map fun row => (row.id, row.idempotencyKey)
  keys x := match x.change with
    | .job row => [(row.id, row.idempotencyKey)]
    | _ => []
  listed_apply s x := by
    obtain ⟨post, change⟩ := x
    cases change with
    | job row => simp [Store.apply, Store.change]
    | intent | failJob =>
      simp only [Store.apply, Store.change, Store.updateJobs, List.map_map, List.append_nil]
      refine List.map_congr_left fun row _ => ?_
      dsimp only [Function.comp_apply]
      split_ifs <;> rfl
    | policy | activity | event | failPolicy => simp [Store.apply, Store.change]

namespace Store

variable {s : Store} {row row' : JobRow} {ws : List Write}

theorem ledger_foldl : (ws.foldl apply s).ledger = s.ledger ++ ws := by
  induction ws generalizing s with
  | nil => simp
  | cons x ws ih => simp [ih, apply]

/-- A job stays, and only the failure of its execution changes its status. -/
theorem job_apply (mem : row ∈ s.jobs) (x : Write) : ∃ row' ∈ (s.apply x).jobs,
    row'.id = row.id ∧ row'.idempotencyKey = row.idempotencyKey ∧
      row'.status = if x.change = .failJob row.id then .failed else row.status := by
  obtain ⟨post, change⟩ := x
  cases change with
  | job added => exact ⟨row, List.mem_append_left _ mem, rfl, rfl, by simp⟩
  | intent id activityLogId =>
    refine ⟨_, List.mem_map_of_mem mem, ?_⟩
    split_ifs <;> simp_all
  | failJob id =>
    refine ⟨_, List.mem_map_of_mem mem, ?_⟩
    by_cases same : row.id = id
    · simp [same]
    · simp [same, Ne.symm same]
  | policy | activity | event | failPolicy => exact ⟨row, mem, rfl, rfl, by simp⟩

theorem job_foldl (mem : row ∈ s.jobs) : ∃ row' ∈ (ws.foldl apply s).jobs,
    row'.id = row.id ∧ row'.idempotencyKey = row.idempotencyKey ∧
      row'.status = if .failJob row.id ∈ ws.map (·.change) then .failed else row.status := by
  induction ws generalizing s row with
  | nil => exact ⟨row, mem, rfl, rfl, by simp⟩
  | cons x ws ih =>
    obtain ⟨mid, there, id, key, status⟩ := job_apply mem x
    obtain ⟨last, there', id', key', status'⟩ := ih there
    refine ⟨last, there', id'.trans id, key'.trans key, ?_⟩
    rw [status', status, id]
    by_cases now : x.change = .failJob row.id
    · simp [now]
    · simp [now, Ne.symm now]

end Store

/-! ## The invariant -/

/-- A draft is of one post, and begins with what its kind of transaction locks. -/
structure Orderly (ws : List Write) : Prop where
  one : ∀ x ∈ ws, ∀ y ∈ ws, x.post = y.post
  distinct : (ws.map Write.kind).Nodup
  begun : (∃ x ∈ ws, x.kind.fails = false) → .reservation ∈ ws.map Write.kind

/-- What is committed of the keys. -/
structure Ledgered (s : Store) : Prop where
  once : ∀ post, (s.recorded post).Nodup
  reserved : ∀ x ∈ s.ledger, x.kind.fails = false →
    .key (namespacedKey x.post) ∈ jobKeys.listed s
  failed : ∀ x ∈ s.ledger, x.kind.fails = true →
    ∃ row ∈ s.jobs, row.idempotencyKey = executionKey x.post ∧ row.status ≠ .queued

/-- The execution that thread `t` lets fail is queued, and locked. -/
def Failing (w : World) (t : ℕ) (post : String) : Prop :=
  ∃ row ∈ w.db.store.jobs, row.idempotencyKey = executionKey post ∧ row.status = .queued ∧
    w.db.holder (.id row.id) = some t ∧ ⟨post, .failJob row.id⟩ ∈ w.db.draft t

structure Inv (w : World) : Prop where
  keys : jobKeys.Reserved w.db
  ledger : Ledgered w.db.store
  orderly : ∀ t, Orderly (w.db.draft t)
  failing : ∀ t, ∀ x ∈ w.db.draft t, x.kind.fails = true → Failing w t x.post

theorem Orderly.nil : Orderly [] := ⟨by simp, by simp, by simp⟩

variable {w w' : World} {t : ℕ} {x : Write} {post : String} {ws : List Write}

theorem kind_reservation (h : x.kind = .reservation) :
    .key (namespacedKey x.post) ∈ jobKeys.keys x := by
  obtain ⟨post, change⟩ := x
  cases change with
  | job row =>
    have key : row.idempotencyKey = namespacedKey post := by
      by_contra other
      simp [Write.kind, other] at h
    simp [jobKeys, Write.locks, ActionRow.locks, key]
  | activity row =>
    obtain ⟨_, _, action, _, _⟩ := row
    cases action <;> simp [Write.kind] at h
  | policy | intent | event | failJob | failPolicy => simp [Write.kind] at h

/-- A post whose draft has more than a failure has reserved its key. -/
theorem Orderly.reserves (h : Orderly ws) (mem : x ∈ ws) (more : x.kind.fails = false) :
    ∃ y ∈ ws, .key (namespacedKey x.post) ∈ jobKeys.keys y := by
  obtain ⟨y, there, reservation⟩ := List.mem_map.mp (h.begun ⟨x, mem, more⟩)
  exact ⟨y, there, h.one y there x mem ▸ kind_reservation reservation⟩

/-- Only the failed execution itself is in the draft. -/
theorem Inv.locked (inv : Inv w) {id : ActionId} (mem : ⟨post, .failJob id⟩ ∈ w.db.draft t) :
    w.db.holder (.id id) = some t := by
  obtain ⟨row, -, -, -, held, drafted⟩ := inv.failing t _ mem rfl
  have same := List.inj_on_of_nodup_map (inv.orderly t).distinct mem drafted rfl
  obtain rfl : id = row.id := by simpa using same
  exact held

/-- A job that another thread lets fail is not touched by this draft. -/
theorem Inv.spared (inv : Inv w) {other : ℕ} (ne : other ≠ t) {id : ActionId}
    (held : w.db.holder (.id id) = some other) :
    .failJob id ∉ (w.db.draft t).map (·.change) := by
  intro mem
  obtain ⟨⟨post, change⟩, mem, rfl⟩ := List.mem_map.mp mem
  have mine := inv.locked mem
  rw [held] at mine
  exact ne (Option.some.inj mine)

theorem job_view {row : JobRow} (mem : row ∈ w.db.store.jobs) : ∃ row' ∈ (w.view t).jobs,
    row'.id = row.id ∧ row'.idempotencyKey = row.idempotencyKey ∧ row'.status =
      if .failJob row.id ∈ (w.db.draft t).map (·.change) then .failed else row.status :=
  Store.job_foldl mem

theorem Ledgered.commit (inv : Inv w) : Ledgered (w.view t) := by
  have ledger : (w.view t).ledger = w.db.store.ledger ++ w.db.draft t := Store.ledger_foldl
  have listed : jobKeys.listed (w.view t) =
      jobKeys.listed w.db.store ++ (w.db.draft t).flatMap jobKeys.keys := jobKeys.listed_view
  refine ⟨fun post => ?_, fun x mem more => ?_, fun x mem fails => ?_⟩
  · rw [Store.recorded, ledger, List.filter_append, List.map_append, List.nodup_append']
    refine ⟨inv.ledger.once post,
      (inv.orderly t).distinct.sublist (List.filter_sublist.map _), fun kind old new => ?_⟩
    obtain ⟨x, mem, rfl⟩ := List.mem_map.mp old
    obtain ⟨y, mem', same⟩ := List.mem_map.mp new
    obtain ⟨there, rfl⟩ : x ∈ w.db.store.ledger ∧ x.post = post := by simpa using mem
    obtain ⟨drafted, own⟩ : y ∈ w.db.draft t ∧ y.post = x.post := by simpa using mem'
    cases fails : x.kind.fails with
    | false =>
      -- both reserved the key
      obtain ⟨z, reserves, known⟩ := (inv.orderly t).reserves drafted (same ▸ fails)
      exact inv.keys.absent t z reserves _ (own ▸ known) (inv.ledger.reserved x there fails)
    | true =>
      -- the one execution is queued for the draft and not for the ledger
      obtain ⟨row, row_mem, key, ended⟩ := inv.ledger.failed x there fails
      obtain ⟨row', row_mem', key', queued, -⟩ := inv.failing t y drafted (same ▸ fails)
      have one := eq_of_locks inv.keys.nodup row_mem row_mem' (.inr (by rw [key, key', own]))
      exact ended (one ▸ queued)
  · rw [listed]
    rcases List.mem_append.mp (ledger ▸ mem) with old | new
    · exact List.mem_append_left _ (inv.ledger.reserved x old more)
    · obtain ⟨y, there, known⟩ := (inv.orderly t).reserves new more
      exact List.mem_append_right _ (List.mem_flatMap.mpr ⟨y, there, known⟩)
  · rcases List.mem_append.mp (ledger ▸ mem) with old | new
    · obtain ⟨row, there, key, ended⟩ := inv.ledger.failed x old fails
      obtain ⟨row', there', -, key', status⟩ := job_view (t := t) there
      refine ⟨row', there', key'.trans key, ?_⟩
      rw [status]
      split_ifs
      · simp
      · exact ended
    · obtain ⟨row, there, key, -, -, drafted⟩ := inv.failing t x new fails
      obtain ⟨row', there', -, key', status⟩ := job_view (t := t) there
      refine ⟨row', there', key'.trans key, ?_⟩
      rw [status, if_pos (List.mem_map.mpr ⟨_, drafted, rfl⟩)]
      simp

theorem Inv.rollback (inv : Inv w) : Inv (w.rollback t) := by
  have drafts : ∀ other, (w.rollback t).db.draft other =
      if other = t then [] else w.db.draft other := by
    intro other
    split_ifs with same
    · rw [same]
      exact Transactions.draft_rollback
    · exact Transactions.Frames.rollback.draft other same
  refine ⟨inv.keys.rollback, inv.ledger, fun other => ?_, fun other x mem fails => ?_⟩
  · rw [drafts]
    split_ifs
    · exact .nil
    · exact inv.orderly other
  · rw [drafts] at mem
    split_ifs at mem with same
    · cases mem
    · obtain ⟨row, there, key, queued, held, drafted⟩ := inv.failing other x mem fails
      refine ⟨row, there, key, queued,
        (Transactions.Frames.rollback.holder other same _).mpr held, ?_⟩
      rwa [drafts, if_neg same]

theorem Inv.commit (inv : Inv w) : Inv (w.commit t) := by
  have drafts : ∀ other, other ≠ t → (w.commit t).db.draft other = w.db.draft other :=
    fun other ne => Transactions.Frames.commit.draft other ne
  have done : (w.commit t).db.draft t = [] := Transactions.draft_commit
  refine ⟨inv.keys.commit, .commit inv, fun other => ?_, fun other x mem fails => ?_⟩
  · by_cases same : other = t
    · rw [same, done]
      exact .nil
    · rw [drafts other same]
      exact inv.orderly other
  · by_cases same : other = t
    · rw [same, done] at mem
      cases mem
    · rw [drafts other same] at mem
      obtain ⟨row, there, key, queued, held, drafted⟩ := inv.failing other x mem fails
      obtain ⟨row', there', id, key', status⟩ := job_view (t := t) there
      refine ⟨row', there', key'.trans key, ?_, ?_, ?_⟩
      · rw [status, if_neg (inv.spared same held), queued]
      · rw [id]
        exact (Transactions.Frames.commit.holder other same _).mpr held
      · rwa [id, drafts other same]

/-! ## The writes of a draft -/

/-- A draft that goes on. -/
theorem Inv.extend (xs : List Write) (inv : Inv w) (keys : jobKeys.Reserved w'.db)
    (store : w'.db.store = w.db.store) (frames : w.db.Frames t w'.db)
    (kept : ∀ k, w.db.holder k = some t → w'.db.holder k = some t)
    (draft : w'.db.draft t = w.db.draft t ++ xs) (orderly : Orderly (w'.db.draft t))
    (failing : ∀ x ∈ xs, x.kind.fails = true → Failing w' t x.post) : Inv w' := by
  refine ⟨keys, store ▸ inv.ledger, fun other => ?_, fun other x mem fails => ?_⟩
  · by_cases same : other = t
    · exact same ▸ orderly
    · exact frames.draft other same ▸ inv.orderly other
  · by_cases same : other = t
    · subst same
      rcases List.mem_append.mp (draft ▸ mem) with old | new
      · obtain ⟨row, there, key, queued, held, drafted⟩ := inv.failing other x old fails
        refine ⟨row, store ▸ there, key, queued, kept _ held, ?_⟩
        rw [draft]
        exact List.mem_append_left _ drafted
      · exact failing x new fails
    · rw [frames.draft other same] at mem
      obtain ⟨row, there, key, queued, held, drafted⟩ := inv.failing other x mem fails
      exact ⟨row, store ▸ there, key, queued, (frames.holder other same _).mpr held,
        (frames.draft other same).symm ▸ drafted⟩

/-- The draft of `post` that has begun with `root`, and has nothing but the kinds of `rest`
besides. -/
structure During (post : String) (root : Kind) (rest : List Kind) (ws : List Write) : Prop where
  posts : ∀ x ∈ ws, x.post = post
  begun : root ∈ ws.map Write.kind
  kinds : (ws.map Write.kind).Sublist (root :: rest)

/-- The kinds of one transaction. -/
def Fitting (root : Kind) (rest : List Kind) : Prop :=
  (root = .reservation ∨ root = .failedJob) ∧ (root :: rest).Nodup ∧
    ∀ k ∈ rest, k.fails = root.fails

instance (root : Kind) (rest : List Kind) : Decidable (Fitting root rest) :=
  inferInstanceAs (Decidable (_ ∧ _ ∧ _))

variable {root k : Kind} {rest : List Kind}

theorem During.orderly (h : During post root rest ws) (fitting : Fitting root rest) :
    Orderly ws := by
  obtain ⟨begins, distinct, fits⟩ := fitting
  refine ⟨fun x mem y mem' => (h.posts x mem).trans (h.posts y mem').symm,
    distinct.sublist h.kinds, fun ⟨x, mem, more⟩ => ?_⟩
  rcases begins with rfl | rfl
  · exact h.begun
  · have failure : x.kind.fails = true := by
      rcases List.mem_cons.mp (h.kinds.subset (List.mem_map_of_mem mem)) with same | mem
      · rw [same]
        rfl
      · exact fits _ mem
    rw [failure] at more
    cases more

theorem During.append (h : During post root rest ws) (own : x.post = post) (kind : x.kind = k) :
    During post root (rest ++ [k]) (ws ++ [x]) := by
  refine ⟨fun y mem => ?_, ?_, ?_⟩
  · rcases List.mem_append.mp mem with old | new
    · exact h.posts y old
    · rw [List.mem_singleton.mp new, own]
  · rw [List.map_append]
    exact List.mem_append_left _ h.begun
  · rw [List.map_append, List.map_singleton, kind]
    exact h.kinds.append (List.Sublist.refl [k])

/-- The same draft, where the next write is left out. -/
theorem During.skip (h : During post root rest ws) (k : Kind) :
    During post root (rest ++ [k]) ws :=
  ⟨h.posts, h.begun, h.kinds.trans (List.sublist_append_left ..)⟩

theorem During.begin (own : x.post = post) (kind : x.kind = root) :
    During post root [] ([] ++ [x]) :=
  ⟨by simp [own], by simp [kind], by simp [kind]⟩

/-- A write that is not a job. -/
theorem Inv.write (inv : Inv w) (during : During post root rest (w.db.draft t))
    (own : x.post = post) (kind : x.kind = k) (fitting : Fitting root (rest ++ [k]))
    (none : jobKeys.keys x = []) : Inv (w.write t x) := by
  have draft : (w.write t x).db.draft t = w.db.draft t ++ [x] := Transactions.draft_write x
  have during' : During post root (rest ++ [k]) ((w.write t x).db.draft t) :=
    draft ▸ during.append own kind
  refine inv.extend [x] (inv.keys.write (by simp [none]) (by simp [none]) (by simp [none])) rfl
    (.write x) (fun _ held => held) draft (during'.orderly fitting) fun y mem fails => ?_
  obtain rfl := List.mem_singleton.mp mem
  -- a failure has begun before
  obtain ⟨z, there, begun⟩ := List.mem_map.mp during.begun
  have failure : z.kind.fails = true := by
    rw [begun, ← fitting.2.2 k (by simp), ← kind]
    exact fails
  obtain ⟨row, row_mem, key, queued, held, drafted⟩ := inv.failing t z there failure
  rw [during.posts z there] at key drafted
  refine ⟨row, row_mem, own ▸ key, queued, held, ?_⟩
  rw [draft, own]
  exact List.mem_append_left _ drafted

/-! ## What a thread does and relies on -/

/-- A thread changes its own draft, and jobs stay. -/
structure Guarantee (t : ℕ) (w w' : World) : Prop where
  inv : Inv w'
  frames : w.db.Frames t w'.db
  jobs : identities.listed w.db.store ⊆ identities.listed w'.db.store

structure Rely (t : ℕ) (w w' : World) : Prop where
  inv : Inv w'
  draft : w'.db.draft t = w.db.draft t
  jobs : identities.listed w.db.store ⊆ identities.listed w'.db.store

theorem Guarantee.refl (inv : Inv w) : Guarantee t w w := ⟨inv, .refl, List.Subset.refl _⟩

theorem Guarantee.rely {other : ℕ} (h : Guarantee t w w') (ne : t ≠ other) : Rely other w w' :=
  ⟨h.inv, h.frames.draft other ne.symm, h.jobs⟩

theorem Guarantee.write (inv : Inv (w.write t x)) : Guarantee t w (w.write t x) :=
  ⟨inv, .write x, List.Subset.refl _⟩

theorem Guarantee.rollback (inv : Inv w) : Guarantee t w (w.rollback t) :=
  ⟨inv.rollback, .rollback, List.Subset.refl _⟩

theorem Guarantee.commit (inv : Inv w) : Guarantee t w (w.commit t) := by
  refine ⟨inv.commit, .commit, ?_⟩
  rw [World.commit, Transactions.store_commit, Transactions.view, identities.listed_foldl]
  exact List.subset_append_left _ _

theorem guarantee_acquire {k : RowLock} {d : Transactions ℕ Store Write RowLock} (inv : Inv w)
    (took : w.db.acquire t k = some d) :
    Guarantee t w ⟨d⟩ ∧ d.draft = w.db.draft ∧ d.store = w.db.store ∧ d.holder k = some t := by
  obtain ⟨store, draft, held, frames⟩ := Transactions.acquire_eq_some took
  refine ⟨⟨?_, frames, ?_⟩, draft, store, held⟩
  · refine inv.extend [] (inv.keys.acquire took) store frames
      (fun k held => Transactions.holder_acquire took held) ?_ ?_ (by simp)
    · rw [List.append_nil, draft]
    · rw [draft]
      exact inv.orderly t
  · rw [store]
    exact List.Subset.refl _

variable {f : Findings}

/-- A job is inserted where its draft may go on with it. -/
theorem guarantee_insertJob {row : ActionRow} {found : Option ActionId} (inv : Inv w)
    (orderly : ∀ id createdAt,
      Orderly (w.db.draft t ++ [⟨post, .job { row with id, createdAt }⟩]))
    (more : ∀ id createdAt, (Write.mk post (.job { row with id, createdAt })).kind.fails = false)
    (done : insertJob t f w post row = some (found, w')) :
    Guarantee t w w' ∧ (found = none ∧ w'.db.draft t = w.db.draft t ∨ ∃ id createdAt,
      found = some id ∧
        w'.db.draft t = w.db.draft t ++ [⟨post, .job { row with id, createdAt }⟩]) := by
  obtain ⟨⟨inserted, d⟩, took, same⟩ := Option.map_eq_some_iff.mp done
  obtain ⟨rfl, rfl⟩ := Prod.mk.inj same
  obtain ⟨frames, store, draft⟩ := UniqueIndex.frames_insert took
  have jobs : identities.listed w.db.store ⊆ identities.listed d.store := by
    rw [store]
    exact List.Subset.refl _
  have keys := inv.keys.insert (by simp [jobKeys, Write.locks, ActionRow.locks]) took
  have kept : ∀ k, w.db.holder k = some t → d.holder k = some t :=
    fun k held => UniqueIndex.holder_insert took held
  cases inserted with
  | false =>
    have same : d.draft t = w.db.draft t := draft.trans (List.append_nil _)
    refine ⟨⟨inv.extend [] keys store frames kept draft ?_ (by simp), frames, jobs⟩,
      .inl ⟨rfl, same⟩⟩
    exact same.symm ▸ inv.orderly t
  | true =>
    refine ⟨⟨inv.extend _ keys store frames kept draft ?_ fun x mem fails => ?_, frames, jobs⟩,
      .inr ⟨f.id, f.now, rfl, draft⟩⟩
    · exact draft.symm ▸ orderly f.id f.now
    · obtain rfl := List.mem_singleton.mp mem
      rw [more] at fails
      cases fails

/-- The execution whose failure is written is the post's own. -/
theorem guarantee_failJob {actionId : ActionId} {mailboxAccountId : MailboxId} {found : Bool}
    (inv : Inv w) (nothing : w.db.draft t = [])
    (known : (actionId, executionKey post) ∈ identities.listed (w.view t))
    (done : failJob t w post actionId mailboxAccountId = some (found, w')) :
    Guarantee t w w' ∧
      w'.db.draft t = if found then [⟨post, .failJob actionId⟩] else [] := by
  have view : w.view t = w.db.store := by
    simp [World.view, Transactions.view, nothing]
  unfold failJob at done
  split_ifs at done with there
  · obtain ⟨d, took, same⟩ := Option.map_eq_some_iff.mp done
    obtain ⟨rfl, rfl⟩ := Prod.mk.inj same
    obtain ⟨before, draft, store, held⟩ := guarantee_acquire inv took
    have drafted : (d.write t ⟨post, .failJob actionId⟩).draft t = [⟨post, .failJob actionId⟩] := by
      rw [Transactions.draft_write, draft, nothing]
      rfl
    refine ⟨⟨?_, before.frames.trans (.write _), before.jobs⟩, drafted⟩
    rw [view] at there known
    obtain ⟨row, mem, id, -, queued⟩ : ∃ row ∈ w.db.store.jobs, row.id = actionId ∧
        row.mailboxAccountId = mailboxAccountId ∧ row.status = .queued := by simpa using there
    obtain ⟨row', mem', same⟩ := List.mem_map.mp known
    obtain ⟨id', key⟩ := Prod.mk.inj same
    obtain rfl := eq_of_locks inv.keys.nodup mem mem' (.inl (id.trans id'.symm))
    have during : During post .failedJob [] ((d.write t ⟨post, .failJob actionId⟩).draft t) :=
      drafted ▸ During.begin rfl rfl
    refine before.inv.extend _ (before.inv.keys.write ?_ ?_ ?_) rfl (.write _)
      (fun _ held => held) (Transactions.draft_write _) (during.orderly (by decide)) ?_
    · exact List.nodup_nil
    · exact fun k mem => (List.not_mem_nil mem).elim
    · exact fun k mem => (List.not_mem_nil mem).elim
    · intro x mem _
      obtain rfl := List.mem_singleton.mp mem
      subst id
      refine ⟨row, store ▸ mem', key, queued, held, ?_⟩
      rw [drafted]
      exact List.mem_singleton_self _
  · obtain ⟨rfl, rfl⟩ := Prod.mk.inj (Option.some.inj done)
    exact ⟨.refl inv, nothing⟩

/-! ## The rest of the application -/

/-- Jobs stay, none is queued again, and one that is locked is not touched. -/
structure Background (w : World) (s : Store) : Prop where
  ledger : s.ledger = w.db.store.ledger
  unique : (jobKeys.listed s).Nodup
  fresh : ∀ k ∈ jobKeys.listed s, k ∉ jobKeys.listed w.db.store → w.db.holder k = none
  listed : jobKeys.listed w.db.store ⊆ jobKeys.listed s
  jobs : ∀ row ∈ w.db.store.jobs, ∃ row' ∈ s.jobs, row'.id = row.id ∧
    row'.idempotencyKey = row.idempotencyKey ∧ (row.status ≠ .queued → row'.status ≠ .queued) ∧
      (w.db.holder (.id row.id) ≠ none → row'.status = row.status)

theorem Background.rely {s : Store} (inv : Inv w) (h : Background w s) :
    Inv ⟨{ w.db with store := s }⟩ ∧ ∀ t, Rely t w ⟨{ w.db with store := s }⟩ := by
  have inv' : Inv ⟨{ w.db with store := s }⟩ := by
    refine ⟨inv.keys.restore h.unique fun k t held there => ?_, ⟨fun post => ?_, fun x mem more => ?_,
      fun x mem fails => ?_⟩, inv.orderly, fun t x mem fails => ?_⟩
    · by_contra absent
      rw [h.fresh k there absent] at held
      cases held
    · rw [Store.recorded, h.ledger]
      exact inv.ledger.once post
    · exact h.listed (inv.ledger.reserved x (h.ledger ▸ mem) more)
    · obtain ⟨row, there, key, ended⟩ := inv.ledger.failed x (h.ledger ▸ mem) fails
      obtain ⟨row', there', -, key', stays, -⟩ := h.jobs row there
      exact ⟨row', there', key'.trans key, stays ended⟩
    · obtain ⟨row, there, key, queued, held, drafted⟩ := inv.failing t x mem fails
      obtain ⟨row', there', id, key', -, same⟩ := h.jobs row there
      refine ⟨row', there', key'.trans key, ?_, id ▸ held, id ▸ drafted⟩
      rw [same (by simp [held]), queued]
  refine ⟨inv', fun t => ⟨inv', rfl, fun pair mem => ?_⟩⟩
  obtain ⟨row, there, rfl⟩ := List.mem_map.mp mem
  obtain ⟨row', there', id, key, -⟩ := h.jobs row there
  exact List.mem_map.mpr ⟨row', there', by rw [id, key]⟩

/-- The jobs are as they were. -/
theorem Background.of_jobs {s : Store} (inv : Inv w) (ledger : s.ledger = w.db.store.ledger)
    (jobs : s.jobs = w.db.store.jobs) : Background w s := by
  have listed : jobKeys.listed s = jobKeys.listed w.db.store := congrArg (List.flatMap _) jobs
  refine ⟨ledger, listed ▸ inv.keys.nodup, fun k mem absent => ?_, ?_, fun row mem => ?_⟩
  · exact absurd (listed ▸ mem) absent
  · rw [listed]
    exact List.Subset.refl _
  · exact ⟨row, jobs ▸ mem, rfl, rfl, id, fun _ => rfl⟩

theorem disturb_rely {e : Event} (inv : Inv w) (disturbed : disturb w e = some w') :
    Inv w' ∧ ∀ t, Rely t w w' := by
  cases e with
  | senders | policy | activity =>
    obtain rfl := Option.some.inj disturbed
    exact Background.rely inv (.of_jobs inv rfl rfl)
  | inserted row =>
    simp only [disturb] at disturbed
    split_ifs at disturbed with free
    obtain rfl := Option.some.inj disturbed
    have listed : jobKeys.listed { w.db.store with jobs := w.db.store.jobs ++ [row] } =
        jobKeys.listed w.db.store ++ row.locks := by simp [jobKeys]
    refine Background.rely inv ⟨rfl, ?_, fun k mem absent => ?_, ?_, fun old mem => ?_⟩
    · rw [listed, List.nodup_append']
      refine ⟨inv.keys.nodup, by simp [ActionRow.locks], fun k old new => ?_⟩
      exact (free k new).2 old
    · rw [listed] at mem
      exact (free k ((List.mem_append.mp mem).resolve_left absent)).1
    · rw [listed]
      exact List.subset_append_left _ _
    · exact ⟨old, List.mem_append_left _ mem, rfl, rfl, id, fun _ => rfl⟩
  | progressed jobId status errorCode =>
    simp only [disturb] at disturbed
    split_ifs at disturbed with free
    obtain rfl := Option.some.inj disturbed
    have listed : jobKeys.listed { w.db.store with
        jobs := w.db.store.updateJobs (·.id = jobId) fun row => { row with status, errorCode } } =
          jobKeys.listed w.db.store := by
      rw [listed_jobKeys, listed_jobKeys]
      exact locks_update fun _ => rfl
    refine Background.rely inv ⟨rfl, ?_, fun k mem absent => ?_, ?_, fun row mem => ?_⟩
    · rw [listed]
      exact inv.keys.nodup
    · rw [listed] at mem
      exact absurd mem absent
    · rw [listed]
      exact List.Subset.refl _
    · refine ⟨_, List.mem_map_of_mem mem, ?_⟩
      dsimp only
      split_ifs with chosen
      · refine ⟨rfl, rfl, fun _ => free.2, fun held => ?_⟩
        obtain rfl := of_decide_eq_true chosen
        exact absurd free.1 held
      · exact ⟨rfl, rfl, id, fun _ => rfl⟩

/-! ## The programs -/

/-- The draft of thread `t`, and jobs that it sees. -/
def seen (t : ℕ) (P : List Write → Prop) (known : List (ActionId × String)) :
    Assertion (Rely t) where
  holds w := Inv w ∧ P (w.db.draft t) ∧ known ⊆ identities.listed (w.view t)
  stable := by
    rintro w w' ⟨-, drafted, there⟩ relied
    refine ⟨relied.inv, relied.draft.symm ▸ drafted, fun pair mem => ?_⟩
    have old := there mem
    rw [World.view, Transactions.view, identities.listed_foldl] at old ⊢
    rw [relied.draft]
    exact List.mem_append.mpr ((List.mem_append.mp old).imp_left (relied.jobs ·))

/-- Between two transactions. -/
abbrev idle (t : ℕ) (known : List (ActionId × String)) : Assertion (Rely t) :=
  seen t (· = []) known

abbrev during (t : ℕ) (post : String) (root : Kind) (rest : List Kind)
    (known : List (ActionId × String)) : Assertion (Rely t) := seen t (During post root rest) known

/-- A transaction that only its rollback is left of. -/
abbrev abandoned (t : ℕ) : Assertion (Rely t) := seen t (fun _ => True) []

theorem seen_weaken {P P' : List Write → Prop} {known known' : List (ActionId × String)}
    (le : ∀ ws, P ws → P' ws) (sub : known' ⊆ known) (w : World) (h : seen t P known w) :
    seen t P' known' w := ⟨h.1, le _ h.2.1, fun _ mem => h.2.2 (sub mem)⟩

variable {isMeterV2 : Bool} {mailboxAccountId : MailboxId}

abbrev Does (isMeterV2 : Bool) (mailboxAccountId : MailboxId) {α : Type} (t : ℕ)
    (A : Assertion (Rely t)) (p : IntentProgram α) (B : α → Assertion (Rely t))
    (E : Assertion (Rely t)) : Prop :=
  @Triple IntentSignature (intents isMeterV2 mailboxAccountId) Rely t α Guarantee A p B fun _ => E

variable {known : List (ActionId × String)} {P : List Write → Prop}

namespace Does

variable {q : Statement} {A E : Assertion (Rely t)} {B : q.Answer → Assertion (Rely t)}

/-- One statement. -/
theorem run (takes : ∀ w, A w → ∀ f a w', effect t f w q = some (a, w') →
      Guarantee t w w' ∧ B a w' ∧ E w')
    (fails : ∀ w, A w → Guarantee t w (failed t w q) ∧ E (failed t w q)) :
    Does isMeterV2 mailboxAccountId t A (run q) B E := by
  refine Triple.perform fun w hw fate r w' answered => ?_
  change answer t q fate w = some (r, w') at answered
  cases fate with
  | fail =>
    obtain ⟨rfl, rfl⟩ := Prod.mk.inj (Option.some.inj answered)
    exact fails w hw
  | go f =>
    obtain ⟨⟨a, v⟩, did, same⟩ := Option.map_eq_some_iff.mp answered
    obtain ⟨rfl, rfl⟩ := Prod.mk.inj same
    exact ⟨(takes w hw f a v did).1, (takes w hw f a v did).2.1⟩
  | lost f =>
    obtain ⟨⟨a, v⟩, did, same⟩ := Option.map_eq_some_iff.mp answered
    obtain ⟨rfl, rfl⟩ := Prod.mk.inj same
    exact ⟨(takes w hw f a v did).1, (takes w hw f a v did).2.2⟩

/-- A statement that only reads. -/
theorem reads {out : Findings → World → q.Answer}
    (ran : ∀ f w, effect t f w q = some (out f w, w)) (failed : ∀ w, failed t w q = w) :
    Does isMeterV2 mailboxAccountId t (seen t P known) (Unsubscribe.run q)
      (fun _ => seen t P known) (seen t P known) := by
  refine run (fun w hw f a w' did => ?_) fun w hw => ?_
  · obtain ⟨-, rfl⟩ := Prod.mk.inj (Option.some.inj ((ran f w).symm.trans did))
    exact ⟨.refl hw.1, hw, hw⟩
  · rw [failed]
    exact ⟨.refl hw.1, hw⟩

variable {root k : Kind} {rest : List Kind}

/-- A write that is not a job. -/
theorem writes (x : Findings → Write) (ran : ∀ f w, ∃ a, effect t f w q = some (a, w.write t (x f)))
    (failed : ∀ w, failed t w q = w) (own : ∀ f, (x f).post = post) (kind : ∀ f, (x f).kind = k)
    (none : ∀ f, jobKeys.keys (x f) = []) (fitting : Fitting root (rest ++ [k])) :
    Does isMeterV2 mailboxAccountId t (during t post root rest known) (Unsubscribe.run q)
      (fun _ => during t post root (rest ++ [k]) known) (abandoned t) := by
  refine run (fun w ⟨inv, drafted, there⟩ f a w' did => ?_) fun w hw => ?_
  · obtain ⟨b, ran⟩ := ran f w
    obtain ⟨-, rfl⟩ := Prod.mk.inj (Option.some.inj (ran.symm.trans did))
    have inv' := inv.write drafted (own f) (kind f) fitting (none f)
    have draft : (w.write t (x f)).db.draft t = w.db.draft t ++ [x f] := Transactions.draft_write _
    refine ⟨.write inv', ⟨inv', ?_, fun pair mem => ?_⟩, inv', trivial, by simp⟩
    · rw [draft]
      exact drafted.append (own f) (kind f)
    · have old := there mem
      rw [World.view, Transactions.view, identities.listed_foldl] at old ⊢
      rw [draft, List.flatMap_append]
      exact List.mem_append.mpr ((List.mem_append.mp old).imp_right (List.mem_append_left _ ·))
  · rw [failed]
    exact ⟨.refl hw.1, seen_weaken (fun _ _ => trivial) (by simp) w hw⟩

theorem pre {α : Type} {p : IntentProgram α} {A A' : Assertion (Rely t)}
    {B : α → Assertion (Rely t)} (h : Does isMeterV2 mailboxAccountId t A' p B E)
    (le : ∀ w, A w → A' w) : Does isMeterV2 mailboxAccountId t A p B E := Triple.pre h le

theorem ends {α : Type} {p : IntentProgram α} {A : Assertion (Rely t)}
    {B B' : α → Assertion (Rely t)} {E' : Assertion (Rely t)}
    (h : Does isMeterV2 mailboxAccountId t A p B' E') (le : ∀ a w, B' a w → B a w)
    (fails : ∀ w, E' w → E w) : Does isMeterV2 mailboxAccountId t A p B E :=
  Triple.consequence h (fun _ h => h) le fun _ => fails

theorem bind {α β : Type} {p : IntentProgram α} {g : α → IntentProgram β}
    {A : Assertion (Rely t)} {B : α → Assertion (Rely t)} {C : β → Assertion (Rely t)}
    (first : Does isMeterV2 mailboxAccountId t A p B E)
    (rest : ∀ a, Does isMeterV2 mailboxAccountId t (B a) (g a) C E) :
    Does isMeterV2 mailboxAccountId t A (p >>= g) C E := Triple.bind first rest

theorem returns {α : Type} {a : α} {A : Assertion (Rely t)} {B : α → Assertion (Rely t)}
    (le : ∀ w, A w → B a w) : Does isMeterV2 mailboxAccountId t A (pure a) B E := Triple.done le

theorem throws {α : Type} {e : ServiceError} {A : Assertion (Rely t)} {B : α → Assertion (Rely t)}
    (le : ∀ w, A w → E w) : Does isMeterV2 mailboxAccountId t A (throw e) B E := Triple.failed le

/-- A refusal under a condition. -/
theorem refuses {c : Bool} {e : ServiceError} {A : Assertion (Rely t)} :
    Does isMeterV2 mailboxAccountId t A (.when c (throw e)) (fun _ => A) A :=
  Triple.when (fun _ => throws fun _ h => h) fun _ _ h => h

end Does

theorem forget (w : World) (h : idle t known w) : idle t [] w :=
  seen_weaken (fun _ h => h) (by simp) w h

theorem abandon (w : World) (h : seen t P known w) : abandoned t w :=
  seen_weaken (fun _ _ => trivial) (by simp) w h

/-- Whatever a transaction has drafted, it is gone or committed at its end. -/
theorem does_transaction {α : Type} {body : IntentProgram α} {known' : α → List (ActionId × String)}
    (h : Does isMeterV2 mailboxAccountId t (idle t known) body
      (fun a => seen t (fun _ => True) (known' a)) (abandoned t)) :
    Does isMeterV2 mailboxAccountId t (idle t known) (transaction body)
      (fun a => idle t (known' a)) (idle t []) := by
  have rolled : ∀ w : World, Inv w →
      Guarantee t w (w.rollback t) ∧ idle t [] (w.rollback t) := fun w inv =>
    ⟨.rollback inv, inv.rollback, Transactions.draft_rollback, by simp⟩
  refine Does.bind (Triple.tryCatch h fun e => Does.bind (Does.run (B := fun _ => idle t [])
    (fun w ⟨inv, _⟩ f a w' did => ?_) fun w ⟨inv, _⟩ => rolled w inv) fun _ =>
      Does.throws fun _ h => h)
    fun a => Does.bind (Does.run (B := fun _ => idle t (known' a))
      (fun w ⟨inv, _, there⟩ f b w' did => ?_) fun w ⟨inv, _⟩ => rolled w inv) fun _ =>
        Does.returns fun _ h => h
  · obtain ⟨-, rfl⟩ := Prod.mk.inj (Option.some.inj did)
    exact ⟨(rolled w inv).1, (rolled w inv).2, (rolled w inv).2⟩
  · obtain ⟨-, rfl⟩ := Prod.mk.inj (Option.some.inj did)
    have ended : (w.commit t).db.draft t = [] := Transactions.draft_commit
    refine ⟨.commit inv, ⟨inv.commit, ended, ?_⟩, inv.commit, ended, by simp⟩
    rw [World.view, Transactions.view, ended]
    exact there

section Code

variable {request : IntentRequest} {sender : Sender}

theorem does_assertKeyOwners {senderKey : SenderKey} :
    Does isMeterV2 mailboxAccountId t (idle t known) (request.assertKeyOwners senderKey)
      (fun _ => idle t known) (idle t known) :=
  Does.bind (Does.reads (fun _ _ => rfl) fun _ => rfl) fun _ =>
    Does.refuses

/-- A job that is found is there under its key. -/
theorem does_selectJob {key : String} : Does isMeterV2 mailboxAccountId t (idle t [])
    (run (.selectJob key request.mailboxAccountId))
      (fun found => idle t (found.toList.map fun row => (row.id, key))) (idle t []) := by
  refine .run (fun w hw f a w' did => ?_) fun w hw => ⟨.refl hw.1, hw⟩
  obtain ⟨rfl, rfl⟩ := Prod.mk.inj (Option.some.inj did)
  refine ⟨.refl hw.1, ⟨hw.1, hw.2.1, fun pair mem => ?_⟩, hw⟩
  obtain ⟨row, found, rfl⟩ := List.mem_map.mp mem
  have hit := Option.mem_toList.mp found
  have same : row.idempotencyKey = key ∧ row.mailboxAccountId = request.mailboxAccountId := by
    simpa using List.find?_some hit
  exact List.mem_map.mpr ⟨row, List.mem_of_find?_eq_some hit, by rw [same.1]⟩

/-- The execution of a transaction's result, under the key of the request. -/
def promised (request : IntentRequest) (recorded : Recorded) : List (ActionId × String) :=
  recorded.execution.toList.map fun execution => (execution.1, request.execution)

theorem does_cachedIntent {intent : JobRow} : Does isMeterV2 mailboxAccountId t (idle t [])
    (cachedIntent request intent) (fun recorded => idle t (promised request recorded))
      (idle t []) := by
  unfold cachedIntent
  split
  · exact Does.throws fun _ h => h
  · refine Does.bind does_selectJob fun found => Does.returns fun w h => ?_
    refine seen_weaken (fun _ h => h) ?_ w h
    cases found <;> simp [promised]

theorem does_failExecution {actionId : ActionId} :
    Does isMeterV2 mailboxAccountId t (idle t [(actionId, request.execution)])
      (failExecution request sender actionId) (fun _ => abandoned t) (abandoned t) := by
  refine Does.bind (B := fun failed => if failed then
      during t request.idempotencyKey .failedJob [] [] else abandoned t)
    (Does.run (fun w ⟨inv, nothing, there⟩ f found w' did => ?_) fun w hw => ?_)
    fun failed => ?_
  · obtain ⟨moved, draft⟩ := guarantee_failJob inv nothing
      (there (List.mem_singleton.mpr rfl)) did
    refine ⟨moved, ?_, moved.inv, trivial, by simp⟩
    cases found with
    | false => exact ⟨moved.inv, trivial, by simp⟩
    | true =>
      refine ⟨moved.inv, ?_, by simp⟩
      rw [draft]
      exact .begin rfl rfl
  · exact ⟨.refl hw.1, abandon w hw⟩
  · cases failed with
    | false => exact Does.returns fun _ h => h
    | true =>
      refine Does.bind (Does.writes (k := .failedPolicy) (fun f =>
        ⟨request.idempotencyKey, .failPolicy sender.senderKey f.now⟩) (fun _ _ => ⟨_, rfl⟩)
        (fun _ => rfl) (fun _ => rfl) (fun _ => rfl) (fun _ => rfl) (by decide)) fun _ => ?_
      refine Does.bind (Does.writes (k := .failure) (fun f => ⟨request.idempotencyKey,
        .activity ⟨f.id, sender.senderKey, .unsubscribeFailed, f.now, none⟩⟩)
        (fun _ _ => ⟨_, rfl⟩) (fun _ => rfl) (fun _ => rfl) (fun _ => rfl) (fun _ => rfl)
        (by decide)) fun _ => ?_
      exact Does.returns abandon

theorem does_enqueueUnsubExecution {actionId : ActionId} :
    Does isMeterV2 mailboxAccountId t (idle t [(actionId, request.execution)])
      (enqueueUnsubExecution request sender actionId) (fun _ => idle t []) (idle t []) := by
  refine Triple.tryCatch ((Does.reads (fun _ _ => rfl) fun _ => rfl).ends (fun _ => forget)
    fun _ h => h) fun e => ?_
  exact Does.bind (does_transaction does_failExecution)
    fun _ => Does.throws fun _ h => h

theorem does_enqueueQueued {recorded : Recorded} :
    Does isMeterV2 mailboxAccountId t (idle t (promised request recorded))
      (enqueueQueued request sender recorded) (fun _ => idle t []) (idle t []) := by
  unfold enqueueQueued promised
  split
  · next actionId same =>
    rw [same]
    exact Triple.when (fun _ => does_enqueueUnsubExecution) fun _ => forget
  · exact Does.returns forget

theorem executionKey_ne (key key' : String) : executionKey key ≠ namespacedKey key' := by
  intro same
  have lists := congrArg String.toList same
  simp [executionKey, namespacedKey] at lists

theorem kind_execution {row : JobRow} {key : String} (same : row.idempotencyKey = executionKey key) :
    (Write.mk post (.job row)).kind = .execution := by
  simp [Write.kind, same, executionKey_ne]

/-- A job that goes into the draft of a post. -/
theorem does_insertJob {row : ActionRow} {k : Kind} (root : Kind) (rest : List Kind)
    (begins : ∀ ws x, P ws → x.post = post → x.kind = k → During post root rest (ws ++ [x]))
    (kind : ∀ id createdAt, (Write.mk post (.job { row with id, createdAt })).kind = k)
    (more : k.fails = false) (fitting : Fitting root rest) :
    Does isMeterV2 mailboxAccountId t (seen t P [])
      (run (.insertJob post row))
      (fun found => match found with
        | none => seen t P []
        | some id => during t post root rest [(id, row.idempotencyKey)]) (abandoned t) := by
  refine .run (fun w ⟨inv, drafted, _⟩ f found w' did => ?_) fun w hw =>
    ⟨.refl hw.1, abandon w hw⟩
  obtain ⟨moved, taken | ⟨id, createdAt, rfl, draft⟩⟩ := guarantee_insertJob inv
    (fun id createdAt => (begins _ _ drafted rfl (kind id createdAt)).orderly fitting)
    (fun id createdAt => kind id createdAt ▸ more) did
  · obtain ⟨rfl, draft⟩ := taken
    exact ⟨moved, ⟨moved.inv, draft.symm ▸ drafted, by simp⟩, moved.inv, trivial, by simp⟩
  · refine ⟨moved, ⟨moved.inv, ?_, fun pair mem => ?_⟩, moved.inv, trivial, by simp⟩
    · rw [draft]
      exact begins _ _ drafted rfl (kind id createdAt)
    · obtain rfl := List.mem_singleton.mp mem
      rw [World.view, Transactions.view, identities.listed_foldl, draft, List.flatMap_append]
      exact List.mem_append_right _ (List.mem_append_right _ List.mem_cons_self)

/-- A write that is left out leaves the draft as it is. -/
theorem during_skip {root : Kind} (k : Kind) {rest : List Kind} (w : World)
    (h : during t post root rest known w) : during t post root (rest ++ [k]) known w :=
  seen_weaken (fun _ h => h.skip k) (List.Subset.refl _) w h

theorem does_insertExecution : Does isMeterV2 mailboxAccountId t
    (during t request.idempotencyKey .reservation [] []) (insertExecution request sender)
      (fun execution => during t request.idempotencyKey .reservation [.execution]
        (execution.toList.map (·, request.execution))) (abandoned t) := by
  unfold insertExecution
  split_ifs
  · refine Does.bind (does_insertJob (k := .execution) .reservation [.execution]
      (fun ws x drafted => drafted.append) (fun id createdAt => ?_) rfl (by decide)) fun inserted => ?_
    · exact kind_execution rfl
    · cases inserted with
      | none => exact Does.throws abandon
      | some id => exact Does.returns fun _ h => h
  · exact Does.returns (during_skip _)

theorem does_recordFresh {intentId : ActionId} : Does isMeterV2 mailboxAccountId t
    (during t request.idempotencyKey .reservation [] []) (recordFresh request sender intentId)
      (fun recorded => seen t (fun _ => True) (promised request recorded)) (abandoned t) := by
  refine Does.bind does_insertExecution fun execution => ?_
  refine Does.bind (Does.writes (k := .policy) (fun f => ⟨request.idempotencyKey,
    .policy sender.senderKey (initialUnsubscribeLifecycleStatus sender.method) f.now⟩)
    (fun _ _ => ⟨_, rfl⟩) (fun _ => rfl) (fun _ => rfl) (fun _ => rfl) (fun _ => rfl)
    (by decide)) fun _ => ?_
  refine Does.bind (Does.writes (k := .decision) (fun f => ⟨request.idempotencyKey,
    .activity ⟨f.id, sender.senderKey, .unsubscribe, f.now, execution⟩⟩)
    (fun _ _ => ⟨_, rfl⟩) (fun _ => rfl) (fun _ => rfl) (fun _ => rfl) (fun _ => rfl)
    (by decide)) fun activity => ?_
  refine Does.bind (B := fun _ => during t request.idempotencyKey .reservation
    [.execution, .policy, .decision, .outcome] (execution.toList.map (·, request.execution)))
    (Triple.when (fun _ => Does.bind (Does.writes (k := .outcome) (fun f =>
    ⟨request.idempotencyKey, .activity ⟨f.id, sender.senderKey,
      if sender.method = .mailto then .unsubscribeActionRequired else .unsubscribeUnavailable,
      f.now, none⟩⟩) (fun _ _ => ⟨_, rfl⟩) (fun _ => rfl) (fun _ => rfl) (fun _ => ?_)
      (fun _ => rfl) (by decide)) fun _ => Does.returns fun _ h => h) fun _ => during_skip _) fun _ => ?_
  · split_ifs <;> rfl
  refine Does.bind (Does.writes (k := .completion) (fun _ => ⟨request.idempotencyKey,
    .intent intentId (toString activity.id)⟩) (fun _ _ => ⟨_, rfl⟩) (fun _ => rfl) (fun _ => rfl)
    (fun _ => rfl) (fun _ => rfl) (by decide)) fun _ => ?_
  refine Does.bind (Does.writes (k := .event) (fun _ => ⟨request.idempotencyKey,
    .event ⟨activity.id, sender.senderKey, activity.occurredAt, sender.method⟩⟩)
    (fun _ _ => ⟨_, rfl⟩) (fun _ => rfl) (fun _ => rfl) (fun _ => rfl) (fun _ => rfl)
    (by decide)) fun _ => ?_
  refine Does.returns (seen_weaken (fun _ _ => trivial) ?_)
  cases execution <;> simp [promised]

/-- A result that is read and not drafted. -/
theorem Does.inside {α : Type} {p : IntentProgram α} {A : Assertion (Rely t)}
    {known' : α → List (ActionId × String)}
    (h : Does isMeterV2 mailboxAccountId t A p (fun a => idle t (known' a)) (idle t [])) :
    Does isMeterV2 mailboxAccountId t A p (fun a => seen t (fun _ => True) (known' a))
      (abandoned t) :=
  h.ends (fun _ => seen_weaken (fun _ _ => trivial) (List.Subset.refl _)) abandon

theorem does_recordRaced : Does isMeterV2 mailboxAccountId t (idle t [])
    (recordRaced request sender) (fun recorded => idle t (promised request recorded))
      (idle t []) := by
  refine Does.bind does_assertKeyOwners fun _ => ?_
  refine Does.bind (does_selectJob.ends (fun _ => forget) fun _ h => h) fun found => ?_
  cases found with
  | none => exact Does.throws fun _ h => h
  | some intent => exact does_cachedIntent

theorem does_lock : Does isMeterV2 mailboxAccountId t (idle t []) (run .lockCleanupWorkspace)
    (fun _ => idle t []) (idle t []) := by
  refine .run (fun w ⟨inv, nothing, _⟩ f _ w' did => ?_) fun w hw => ⟨.refl hw.1, hw⟩
  unfold effect at did
  split_ifs at did
  · obtain ⟨d, took, same⟩ := Option.map_eq_some_iff.mp did
    obtain ⟨-, rfl⟩ := Prod.mk.inj same
    obtain ⟨moved, draft, -, -⟩ := guarantee_acquire inv took
    have still : d.draft t = [] := by rw [draft, nothing]
    exact ⟨moved, ⟨moved.inv, still, by simp⟩, moved.inv, still, by simp⟩
  · obtain ⟨-, rfl⟩ := Prod.mk.inj (Option.some.inj did)
    exact ⟨.refl inv, ⟨inv, nothing, by simp⟩, inv, nothing, by simp⟩

theorem does_recordIntent : Does isMeterV2 mailboxAccountId t (idle t [])
    (recordIntent request sender isMeterV2)
      (fun recorded => seen t (fun _ => True) (promised request recorded)) (abandoned t) := by
  refine Does.bind (does_lock.ends (fun _ _ h => h) abandon) fun _ => ?_
  refine Does.bind (does_assertKeyOwners.ends (fun _ _ h => h) abandon) fun _ => ?_
  refine Does.bind (does_selectJob.ends (fun _ => forget) abandon) fun found => ?_
  cases found with
  | some intent => exact does_cachedIntent.inside
  | none =>
    refine Does.bind (Triple.when (fun _ => (Does.reads (fun _ _ => rfl) fun _ => rfl).ends
      (fun _ _ h => h) abandon) fun _ _ h => h) fun _ => ?_
    refine Does.bind (does_insertJob (k := .reservation) .reservation []
      (fun ws x nothing own kind => ?_) (fun id createdAt => ?_) rfl (by decide)) fun inserted => ?_
    · subst nothing
      exact .begin own kind
    · exact if_pos rfl
    · cases inserted with
      | none => exact does_recordRaced.inside
      | some intentId => exact does_recordFresh.pre (seen_weaken (fun _ h => h) (by simp))

theorem does_replay {intent : JobRow} : Does isMeterV2 mailboxAccountId t (idle t [])
    (replay request sender intent) (fun _ => idle t []) (idle t []) := by
  refine Does.bind does_cachedIntent fun recorded => ?_
  refine Does.bind does_enqueueQueued fun _ => ?_
  refine Does.bind (B := fun _ => idle t []) (Does.bind (Does.reads (fun _ _ => rfl) fun _ => rfl)
    fun status => Does.returns fun _ h => h) fun _ => ?_
  exact Does.returns fun _ h => h

theorem does_recordFirst : Does isMeterV2 mailboxAccountId t (idle t [])
    (recordFirst request sender isMeterV2) (fun _ => idle t []) (idle t []) := by
  refine Does.bind (B := fun _ => idle t []) (Triple.when (fun _ => Does.bind
    (Does.reads (fun _ _ => rfl) fun _ => rfl) fun live => Does.refuses) fun _ _ h => h) fun _ => ?_
  refine Does.bind (does_transaction does_recordIntent) fun recorded => ?_
  refine Does.bind does_enqueueQueued fun _ => ?_
  exact Does.returns fun _ h => h

theorem does_admitIntent {post : Post} : Does isMeterV2 mailboxAccountId t (idle t [])
    (admitIntent post sender) (fun _ => idle t []) (idle t []) := by
  refine Does.bind (B := fun _ => idle t []) (Triple.when (fun _ => Does.bind
    (Does.reads (fun _ _ => rfl) fun _ => rfl) fun _ => Does.returns fun _ h => h)
    fun _ _ h => h) fun _ => ?_
  refine Does.bind does_assertKeyOwners fun _ => ?_
  exact Does.bind Does.refuses fun _ => Does.refuses

theorem does_recordUnsubscribeIntent {post : Post} : Does isMeterV2 mailboxAccountId t (idle t [])
    (recordUnsubscribeIntent isMeterV2 post) (fun _ => idle t []) (idle t []) := by
  refine Does.bind (Does.reads (fun _ _ => rfl) fun _ => rfl) fun found => ?_
  cases found with
  | none => exact Does.throws fun _ h => h
  | some sender =>
    refine Does.bind Does.refuses fun _ => ?_
    refine Does.bind does_admitIntent fun _ => ?_
    refine Does.bind (does_selectJob.ends (fun _ => forget) fun _ h => h) fun found => ?_
    cases found with
    | some intent => exact does_replay
    | none => exact does_recordFirst

end Code

/-! ## Every run -/

theorem intents_verified : Verified (intents isMeterV2 mailboxAccountId) (fun _ _ => True) Rely
    Guarantee Inv (fun t w => w.db.draft t = []) fun t _ w => w.db.draft t = [] where
  guarantee_rely ne _ moved := moved.rely ne
  guarantee_inv _ moved := moved.inv
  idle_stable t _ _ nothing relied := relied.draft.trans nothing
  start := by
    intro t post w w' inv nothing accepted
    change (if _ then some w else none) = some w' at accepted
    split_ifs at accepted
    obtain rfl := Option.some.inj accepted
    refine ⟨.refl inv, (does_recordUnsubscribeIntent w ⟨inv, nothing, by simp⟩).mono fun r v h => ?_⟩
    cases r with
    | ok _ => exact h.2.1
    | error _ => exact h.2.1
  finish := by
    intro t r w w' inv _ settled
    obtain rfl := Option.some.inj settled
    exact ⟨.rollback inv, Transactions.draft_rollback⟩
  crash := by
    intro t w w' inv crashed
    obtain rfl := Option.some.inj crashed
    exact ⟨.rollback inv, Transactions.draft_rollback⟩
  disturb inv _ disturbed := disturb_rely inv disturbed

/-- No transaction is open, and no post of this history has committed anything. -/
structure Begins (w : World) : Prop where
  draft : w.db.draft = fun _ => []
  ledger : w.db.store.ledger = []
  unique : (jobKeys.listed w.db.store).Nodup

theorem Begins.inv (h : Begins w) : Inv w := by
  refine ⟨.nothing h.unique fun t => congrFun h.draft t, ⟨fun post => ?_, ?_, ?_⟩, fun t => ?_,
    fun t x mem => ?_⟩
  · simp [Store.recorded, h.ledger]
  · simp [h.ledger]
  · simp [h.ledger]
  · rw [h.draft]
    exact .nil
  · rw [h.draft] at mem
    cases mem

/-- In every run of any number of posts, crashes and lost answers among them, the posts of one key
together commit at most one write of each kind: one reservation of its key, one execution, one
decision in the activity log with at most one outcome, one event, and one failure. Jobs have one
row for a key. -/
theorem posts_record_once {c : Config (intents isMeterV2 mailboxAccountId)} (start : Begins w)
    (h : Reaches (.idle w) c) (post : String) :
    (c.world.db.store.recorded post).Nodup ∧
      (c.world.db.store.jobs.map (·.idempotencyKey)).Nodup := by
  have sound := intents_verified.sound start.inv (fun t => congrFun start.draft t) h
  exact ⟨sound.inv.ledger.once post, nodup_keys sound.inv.keys.nodup⟩

/-- No job, and these senders. -/
def unopened (senders : List Sender) : World :=
  ⟨⟨⟨senders, [], fun _ => none, [], [], []⟩, fun _ => [], fun _ => none⟩⟩

def mailtoSender : Sender := ⟨"club", "club.example", some .mailto, some "mailto:u@club.example"⟩

def oneClickSender : Sender := ⟨"shop", "shop.example", some .oneClick, some "https://shop.example/u"⟩

def intentPost (senderId idempotencyKey : String) : Post :=
  ⟨⟨7, senderId, idempotencyKey, false, false, none, false⟩, true, true⟩

/-- The next statements of thread `t` take effect, in a workspace without a quota. -/
def goesOn (t : ℕ) (ids : List ActionId) : List (Move (intents false 7)) :=
  ids.map fun id => .reply t (.go ⟨id, 0, false⟩)

def opens (t : ℕ) (post : Post) : Move (intents false 7) := .start t post

def answers (t : ℕ) : Move (intents false 7) := .finish t

/-- Two posts of one key; the second looks for the first before that has committed, and finds it
in its transaction. -/
def racingPosts : List (Move (intents false 7)) :=
  [opens 0 (intentPost "club" "k"), opens 1 (intentPost "club" "k")] ++ goesOn 1 [0, 0, 0] ++
    goesOn 0 ((List.range 14).map (· + 1)) ++ goesOn 1 [20, 21, 22, 23, 24] ++
    [answers 0, answers 1]

theorem posts_record_once_racing : ∃ c : Config (intents false 7),
    Reaches (.idle (unopened [mailtoSender])) c ∧
      c.world.db.store.recorded "k" =
        [.reservation, .policy, .decision, .outcome, .completion, .event] ∧
      (c.world.db.store.recorded "k").Nodup ∧
        (c.world.db.store.jobs.map (·.idempotencyKey)).Nodup := by
  obtain ⟨c, run, ended⟩ := exists_reaches (M := intents false 7)
    (c := .idle (unopened [mailtoSender])) (l := racingPosts)
    (p := fun c => c.world.db.store.recorded "k" =
      [.reservation, .policy, .decision, .outcome, .completion, .event])
    (by decide +kernel)
  have start : Begins (unopened [mailtoSender]) := ⟨rfl, rfl, List.nodup_nil⟩
  exact ⟨c, run, of_decide_eq_true ended, posts_record_once start run "k"⟩

/-- Both posts find nothing live before either of them reserves its execution. -/
def rivalPosts : List (Move (intents false 7)) :=
  [opens 0 (intentPost "shop" "a"), opens 1 (intentPost "shop" "b")] ++ goesOn 0 [0, 0, 0, 0] ++
    goesOn 1 [0, 0, 0, 0] ++ goesOn 0 ((List.range 12).map (· + 1)) ++
    goesOn 1 ((List.range 12).map (· + 21)) ++ [answers 0, answers 1]

/-- A post for a mailto sender writes two rows of the activity log, and two posts of different keys
have two executions of one sender queued. -/
theorem intents_not_single :
    (∃ c : Config (intents false 7), Reaches (.idle (unopened [mailtoSender])) c ∧
      (c.world.db.store.activity.map (·.action) =
        [.unsubscribe, .unsubscribeActionRequired] ∧
          c.world.db.store.ledger.all (·.post = "k") = true)) ∧
    ∃ c : Config (intents false 7), Reaches (.idle (unopened [oneClickSender])) c ∧
      (c.world.db.store.jobs.filter fun row => row.verb = .unsubscribe ∧
        row.direction = .forward ∧ row.status.live ∧
          row.selector = .sender "shop" "shop.example").length = 2 := by
  constructor
  · obtain ⟨c, run, ended⟩ := exists_reaches (M := intents false 7)
      (c := .idle (unopened [mailtoSender])) (l := racingPosts)
      (p := fun c => c.world.db.store.activity.map (·.action) =
        [.unsubscribe, .unsubscribeActionRequired] ∧
          c.world.db.store.ledger.all (·.post = "k") = true)
      (by decide +kernel)
    exact ⟨c, run, of_decide_eq_true ended⟩
  · obtain ⟨c, run, ended⟩ := exists_reaches (M := intents false 7)
      (c := .idle (unopened [oneClickSender])) (l := rivalPosts)
      (p := fun c => (c.world.db.store.jobs.filter fun row => row.verb = .unsubscribe ∧
        row.direction = .forward ∧ row.status.live ∧
          row.selector = .sender "shop" "shop.example").length = 2)
      (by decide +kernel)
    exact ⟨c, run, of_decide_eq_true ended⟩

end DeclutrMail.Unsubscribe
