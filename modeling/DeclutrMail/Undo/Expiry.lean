import DeclutrMail.Undo.Cascade

/-!
# What the Undo of a decision reverts

The loop enqueues the reverse job of every label job of the decision that has a token and is
not undone yet (`enqueues_reverts`), while the list shows the tokens that may be reverted. The
two agree exactly when no token of the decision has expired under way, which nothing asks of
the tokens other than the posted one.
-/

namespace DeclutrMail.Undo

open Actions Batches

variable {env : Env} {mailboxAccountId : MailboxId} {table table' : JobTable} {db : Tables}
  {api api' : Api} {token : UndoToken} {forward : ActionRow}

/-! ## What the loop does -/

theorem reverseDone_add {input : ActionRow} (absent : table.get input.idempotencyKey = none)
    (queued : input.status = .queued) :
    ReverseDone (table.add input absent) token ↔ ReverseDone table token := by
  unfold ReverseDone
  rw [JobTable.get_add]
  split_ifs with here
  · rw [here, absent]
    simp [queued]
  · rfl

/-- A change of rows that are not done, into rows that are not. -/
theorem reverseDone_update {chosen : ActionRow → Bool} {change : ActionRow → ActionRow}
    (keeps : ∀ row, (change row).id = row.id ∧ (change row).idempotencyKey = row.idempotencyKey)
    (before : ∀ row ∈ table.rows, chosen row → row.status ≠ .done)
    (after : ∀ row, (change row).status ≠ .done) :
    ReverseDone (table.update chosen change keeps) token ↔ ReverseDone table token := by
  unfold ReverseDone
  rw [JobTable.get_update]
  cases found : table.get (revertKey token) with
  | none => simp
  | some row =>
    have mem := (JobTable.get_eq_some.mp found).1
    by_cases here : chosen row
    · simp [here, before row mem here, after row]
    · simp [here]

/-- A step of the call that may hand the queue the tokens of `owed`, and when it does not
throw, has handed over all of them. -/
structure Enqueues (owed : UndoToken → Prop) (ok : Prop) (api api' : Api) : Prop where
  done : ∀ t, ReverseDone api'.db.jobs t ↔ ReverseDone api.db.jobs t
  sound : ∀ t ∈ api'.added, t ∈ api.added ∨ owed t
  complete : ok → ∀ t, t ∈ api.added ∨ owed t → t ∈ api'.added

theorem Enqueues.refl {owed : UndoToken → Prop} {ok : Prop} (none : ∀ t, ¬owed t) :
    Enqueues owed ok api api where
  done := fun _ => Iff.rfl
  sound := fun _ mem => .inl mem
  complete := fun _ t h => h.resolve_right (none t)

theorem Enqueues.trans {owed owed' : UndoToken → Prop} {ok : Prop} {mid : Api}
    (first : Enqueues owed True api mid) (rest : Enqueues owed' ok mid api') :
    Enqueues (fun t => owed t ∨ owed' t) ok api api' where
  done := fun t => (rest.done t).trans (first.done t)
  sound := fun t mem => by
    rcases rest.sound t mem with mem | later
    · exact (first.sound t mem).imp id .inl
    · exact .inr (.inr later)
  complete := fun ok t h => by
    refine rest.complete ok t ?_
    rcases h with there | now | later
    · exact .inl (first.complete trivial t (.inl there))
    · exact .inl (first.complete trivial t (.inr now))
    · exact .inr later

theorem Enqueues.congr {owed owed' : UndoToken → Prop} {ok ok' : Prop}
    (step : Enqueues owed ok api api') (same : ∀ t, owed' t ↔ owed t) (fewer : ok' → ok) :
    Enqueues owed' ok' api api' where
  done := step.done
  sound := fun t mem => (step.sound t mem).imp id (same t).mpr
  complete := fun ok t h => step.complete (fewer ok) t (h.imp id (same t).mp)

theorem Enqueues.early {owed : UndoToken → Prop} {ok : Prop}
    (step : Enqueues owed ok api api') {owed' : UndoToken → Prop} :
    Enqueues (fun t => owed t ∨ owed' t) False api api' where
  done := step.done
  sound := fun t mem => (step.sound t mem).imp id .inl
  complete := fun absurd => absurd.elim

theorem enqueues_enqueueJob (id : ActionId) (api : Api) :
    Enqueues (· = token) ((enqueueJob env mailboxAccountId id token api).1 = .ok ()) api
      (enqueueJob env mailboxAccountId id token api).2 := by
  unfold enqueueJob
  split
  · exact ⟨fun _ => Iff.rfl, fun t mem => by simpa [Api.add] using mem,
      fun _ t h => by simpa [Api.add] using h⟩
  · refine ⟨fun t => ?_, fun t mem => ?_, by simp⟩
    · split_ifs
      · refine reverseDone_update (fun _ => ?_) (fun row mem chosen => ?_) (by simp)
        · exact ⟨rfl, rfl⟩
        · simp_all
      · refine reverseDone_update (fun _ => ?_) (fun row mem chosen => ?_) (by simp)
        · exact ⟨rfl, rfl⟩
        · simp_all
    · simp only [Api.fail, Api.add] at mem
      split_ifs at mem
      · simpa using mem
      · exact .inl mem

theorem enqueues_queueRevert {mid : Api} (id : ActionId)
    (same : ∀ t, ReverseDone mid.db.jobs t ↔ ReverseDone api.db.jobs t)
    (kept : mid.added = api.added) (pending : ¬ReverseDone api.db.jobs token) :
    Enqueues (fun t => t = token ∧ ¬ReverseDone api.db.jobs t)
      (∃ handle, (queueRevert env mailboxAccountId id token mid).1 = .ok handle) api
      (queueRevert env mailboxAccountId id token mid).2 := by
  have step : Enqueues (· = token)
      ((enqueueJob env mailboxAccountId id token mid).1 = .ok ()) mid
        (enqueueJob env mailboxAccountId id token mid).2 := enqueues_enqueueJob id mid
  have owed : ∀ t, t = token ∧ ¬ReverseDone api.db.jobs t ↔ t = token :=
    fun t => ⟨And.left, fun same => ⟨same, same ▸ pending⟩⟩
  unfold queueRevert
  split
  next thrown =>
    rw [thrown] at step
    refine ⟨fun t => (step.done t).trans (same t), fun t mem => ?_, by simp⟩
    exact (kept ▸ step.sound t mem).imp (fun there => there) (owed t).mpr
  next accepted =>
    rw [accepted] at step
    refine ⟨fun t => (step.done t).trans (same t), fun t mem => ?_, fun _ t h => ?_⟩
    · exact (kept ▸ step.sound t mem).imp (fun there => there) (owed t).mpr
    · exact step.complete rfl t ((kept.symm ▸ h).imp (fun there => there) (owed t).mp)

theorem reverseDone_rearm {row : ActionRow} (found : api.db.jobs.get (revertKey token) = some row)
    (pending : row.status ≠ .done) (t : UndoToken) :
    ReverseDone (api.rearm row.id).db.jobs t ↔ ReverseDone api.db.jobs t := by
  unfold Api.rearm
  refine reverseDone_update ?_ (fun other mem chosen => ?_) (by simp)
  · exact fun _ => ⟨rfl, rfl⟩
  · obtain rfl := JobTable.eq_of_id mem (JobTable.get_eq_some.mp found).1 (by simpa using chosen)
    exact pending

/-- The reverse job of a token goes to the queue unless it is done. -/
theorem enqueues_enqueueRevert (forward : ActionRow) (token : UndoToken) (api : Api) :
    Enqueues (fun t => t = token ∧ ¬ReverseDone api.db.jobs t)
      (∃ handle, (enqueueRevert env mailboxAccountId forward token api).1 = .ok handle) api
      (enqueueRevert env mailboxAccountId forward token api).2 := by
  have stays : Enqueues (fun t => t = token ∧ ¬ReverseDone api.db.jobs t) False api api :=
    ⟨fun _ => Iff.rfl, fun _ mem => .inl mem, False.elim⟩
  unfold enqueueRevert
  split_ifs with unavailable
  · exact stays.congr (fun _ => Iff.rfl) (by simp)
  split
  · exact stays.congr (fun _ => Iff.rfl) (by simp)
  next row inserted =>
    obtain ⟨-, rfl, found, -⟩ | ⟨isFalse, -⟩ := JobTable.insert_eq_ok inserted
    · split_ifs with finished
      · refine Enqueues.refl fun t owed => owed.2 ⟨row, ?_, finished⟩
        rw [owed.1]
        exact found
      · refine enqueues_queueRevert row.id (reverseDone_rearm found finished) rfl ?_
        rintro ⟨other, there, done⟩
        obtain rfl := Option.some.inj (there.symm.trans found)
        exact finished done
    · cases isFalse
  next jobs row inserted =>
    obtain ⟨isTrue, -⟩ | ⟨-, absent, rfl, rfl⟩ := JobTable.insert_eq_ok inserted
    · cases isTrue
    · refine enqueues_queueRevert _ (fun t => reverseDone_add absent rfl) rfl ?_
      rintro ⟨other, there, -⟩
      cases there.symm.trans absent

/-- The tokens that the loop finds on these jobs. -/
def Owed (jobs : JobTable) (siblings : List ActionRow) (token : UndoToken) : Prop :=
  (∃ row ∈ siblings, row.undoToken = some token ∧ row.verb ≠ .unsubscribe) ∧
    ¬ReverseDone jobs token

theorem enqueues_enqueueReverts (siblings : List ActionRow) (api : Api) :
    Enqueues (Owed api.db.jobs siblings)
      (∃ handles, (enqueueReverts env mailboxAccountId siblings api).1 = .ok handles) api
      (enqueueReverts env mailboxAccountId siblings api).2 := by
  induction siblings generalizing api with
  | nil => exact Enqueues.refl (by simp [Owed])
  | cons sibling siblings ih =>
    unfold enqueueReverts
    split
    next untold =>
      exact (ih api).congr (fun t => by simp [Owed, untold]) id
    next token told =>
    split_ifs with unsubscribe
    · exact (ih api).congr (fun t => by simp [Owed, unsubscribe]) id
    · have owed : ∀ t, Owed api.db.jobs (sibling :: siblings) t ↔
          (t = token ∧ ¬ReverseDone api.db.jobs t) ∨ Owed api.db.jobs siblings t := by
        intro t
        simp only [Owed, List.mem_cons, exists_eq_or_imp, told, Option.some.injEq]
        grind
      have step := @enqueues_enqueueRevert env mailboxAccountId sibling token api
      split
      next thrown =>
        rw [thrown] at step
        exact step.early.congr owed (by simp)
      next handle mid went =>
        rw [went] at step
        have first := step.congr (fun _ => Iff.rfl) (fun _ : True => ⟨handle, rfl⟩)
        have same : ∀ t, Owed api.db.jobs siblings t ↔ Owed mid.db.jobs siblings t :=
          fun t => and_congr Iff.rfl (not_congr (step.done t).symm)
        have both := first.trans ((ih mid).congr same id)
        split
        next thrown =>
          rw [thrown] at both
          exact both.congr owed (by simp)
        next through =>
          rw [through] at both
          exact both.congr owed fun _ => ⟨_, rfl⟩

/-! ## What the list shows -/

theorem revertable_iff {now : ℤ} :
    db.Revertable mailboxAccountId token now ↔
      ∃ entry ∈ db.journal, entry.token = token ∧ entry.mailboxAccountId = mailboxAccountId ∧
        entry.revertable now = true := by
  have unique {a b : UndoJournalEntry} (memA : a ∈ db.journal) (memB : b ∈ db.journal)
      (same : a.token = b.token) : a = b := List.inj_on_of_nodup_map db.tokens memA memB same
  unfold Tables.Revertable Tables.findRevertable Tables.entryOf UndoJournalEntry.revertable
  constructor
  · rintro ⟨entry, found⟩
    split at found
    · cases found
    next other there =>
      split_ifs at found with reverted late
      have := List.find?_some there
      have mem := List.mem_of_find?_eq_some there
      refine ⟨other, mem, ?_⟩
      grind
  · rintro ⟨entry, mem, rfl, rfl, live⟩
    have found : db.journal.find? (fun other => decide (other.token = entry.token) &&
        decide (other.mailboxAccountId = entry.mailboxAccountId)) = some entry := by
      cases there : db.journal.find? (fun other => decide (other.token = entry.token) &&
          decide (other.mailboxAccountId = entry.mailboxAccountId)) with
      | none => simpa using List.find?_eq_none.mp there entry mem
      | some other =>
        have := List.find?_some there
        rw [unique (List.mem_of_find?_eq_some there) mem (by grind)]
    obtain ⟨unreverted, unexpired⟩ := Bool.and_eq_true_iff.mp live
    refine ⟨entry, ?_⟩
    simp only [found]
    rw [if_neg (by simpa using unreverted), if_neg (by simpa using unexpired)]

/-- The list shows the tokens of the jobs of a decision that may be reverted. -/
theorem mem_shown {now : ℤ} {groupId : ActionId} :
    token ∈ db.shown mailboxAccountId now (.job groupId) ↔
      db.Revertable mailboxAccountId token now ∧
        ∃ row ∈ db.jobs.rows, row.issued mailboxAccountId token ∧ row.groupId = groupId := by
  rw [revertable_iff]
  simp only [Tables.shown, Tables.activeOf, Tables.active, List.mem_map, List.mem_filter,
    List.mem_flatMap, decide_eq_true_eq, Bool.and_eq_true]
  constructor
  · rintro ⟨active, ⟨⟨entry, ⟨mem, own, live⟩, joined⟩, group⟩, rfl⟩
    split at joined
    · obtain rfl := List.mem_singleton.mp joined
      simp [ActiveRow.groupId] at group
    · obtain ⟨row, there, rfl⟩ := List.mem_map.mp joined
      obtain ⟨there, issued⟩ := List.mem_filter.mp there
      exact ⟨⟨entry, mem, rfl, own, live⟩, row, there, issued, by simpa [ActiveRow.groupId] using group⟩
  · rintro ⟨⟨entry, mem, rfl, own, live⟩, row, there, issued, rfl⟩
    refine ⟨⟨entry, some row⟩, ⟨⟨entry, ⟨mem, own, live⟩, ?_⟩, rfl⟩, rfl⟩
    have joined : row ∈ db.jobs.rows.filter (·.issued mailboxAccountId entry.token) :=
      List.mem_filter.mpr ⟨there, issued⟩
    split
    next absent =>
      rw [absent] at joined
      cases joined
    · exact List.mem_map_of_mem joined

/-- Every row of a decision of jobs has its job. -/
theorem isSome_job {now : ℤ} {groupId : ActionId} {row : ActiveRow}
    (mem : row ∈ db.activeOf mailboxAccountId now (.job groupId)) : row.job.isSome := by
  obtain ⟨-, group⟩ := List.mem_filter.mp mem
  unfold ActiveRow.groupId at group
  cases job : row.job <;> simp_all

/-- A listed decision counts the tokens that it shows and names its members among them, all of
them if they are not too many. -/
theorem listed_members {now : ℤ} {limit : ℕ} {groupId : ActionId} {d : UndoDecision}
    (listed : d ∈ db.listActiveDecisions mailboxAccountId now limit) (of : d.groupId = .job groupId) :
    d.memberCount = (db.shown mailboxAccountId now (.job groupId)).length ∧
      (∀ m ∈ d.members, m.token ∈ db.shown mailboxAccountId now (.job groupId)) ∧
      (d.memberCount ≤ decisionMembersMax →
        ∀ t ∈ db.shown mailboxAccountId now (.job groupId), ∃ m ∈ d.members, m.token = t) := by
  have sorted := (List.mem_insertionSort _).mp (List.mem_of_mem_take listed)
  obtain ⟨group, -, made⟩ := List.mem_filterMap.mp sorted
  unfold Tables.decision at made
  split at made
  · cases made
  next first rest rows =>
  obtain rfl := Option.some.inj made
  obtain rfl : group = .job groupId := of
  have jobs : ∀ row ∈ first :: rest, row.job.isSome := fun row mem => isSome_job (rows ▸ mem)
  have count : ((first :: rest).filterMap (·.job)).length = (first :: rest).length := by
    rw [List.length_filterMap_eq_countP, List.countP_eq_length]
    exact jobs
  simp only [Tables.shown, rows, List.length_map]
  refine ⟨count, fun m mem => ?_, fun few t mem => ?_⟩
  · obtain ⟨row, there, rfl⟩ := List.mem_map.mp mem
    have there := List.mem_of_mem_take (List.mem_filter.mp there).1
    exact List.mem_map_of_mem ((List.mem_insertionSort _).mp there)
  · obtain ⟨row, there, rfl⟩ := List.mem_map.mp mem
    refine ⟨db.memberOf mailboxAccountId row, List.mem_map_of_mem ?_, rfl⟩
    refine List.mem_filter.mpr ⟨?_, jobs row there⟩
    rw [List.take_of_length_le]
    · exact (List.mem_insertionSort _).mpr there
    · rw [List.length_insertionSort]
      exact count ▸ few

theorem mem_siblings {row : ActionRow} {primaryId : ActionId} :
    row ∈ db.siblings mailboxAccountId primaryId ↔
      row ∈ db.jobs.rows ∧ row.mailboxAccountId = mailboxAccountId ∧ row.direction = .forward ∧
        (row.id = primaryId ∨ row.compositeId = some primaryId) := by
  simp [Tables.siblings, and_assoc]

theorem sibling_of_groupId {row : ActionRow} {primaryId : ActionId} (mem : row ∈ db.jobs.rows)
    (issued : row.issued mailboxAccountId token) (group : row.groupId = primaryId) :
    row ∈ db.siblings mailboxAccountId primaryId ∧ row.undoToken = some token := by
  simp only [ActionRow.issued, Bool.and_eq_true, decide_eq_true_eq] at issued
  obtain ⟨⟨told, own⟩, forward⟩ := issued
  refine ⟨mem_siblings.mpr ⟨mem, own, forward, ?_⟩, told⟩
  unfold ActionRow.groupId at group
  cases composite : row.compositeId <;> simp_all

theorem mem_primaryFirst {primaryId : ActionId} {siblings : List ActionRow} {row : ActionRow} :
    row ∈ Tables.primaryFirst primaryId siblings ↔ row ∈ siblings := by
  simp only [Tables.primaryFirst, List.mem_append, List.mem_filter, decide_eq_true_eq]
  grind

/-! ## Agreement -/

/-- The state of a decision in which its Undo reverts what the list shows. In tables in which a
reverse job is done exactly when its token is reverted, an unsubscribe has no token, and no
member of a decision is the anchor of another, this says that no token of the decision that
is not reverted yet has expired. -/
structure Current (db : Tables) (mailboxAccountId : MailboxId) (now : ℤ) (primaryId : ActionId) :
    Prop where
  /-- A token whose reverse job is still to be done may be reverted, and is of this decision. -/
  pending : ∀ row ∈ db.siblings mailboxAccountId primaryId, row.verb ≠ .unsubscribe →
    ∀ token, row.undoToken = some token → ¬ReverseDone db.jobs token →
      db.Revertable mailboxAccountId token now ∧ row.groupId = primaryId
  /-- A token of this decision that may be reverted is of a label job, not undone yet. -/
  live : ∀ row ∈ db.siblings mailboxAccountId primaryId, row.groupId = primaryId →
    ∀ token, row.undoToken = some token → db.Revertable mailboxAccountId token now →
      row.verb ≠ .unsubscribe ∧ ¬ReverseDone db.jobs token

theorem current_iff_unexpired {now : ℤ} {primaryId : ActionId}
    (settled : ∀ row ∈ db.siblings mailboxAccountId primaryId, ∀ token, row.undoToken = some token →
      row.verb ≠ .unsubscribe ∧ row.groupId = primaryId ∧
        ∃ entry, db.entryOf mailboxAccountId token = some entry ∧
          (ReverseDone db.jobs token ↔ entry.revertedAt ≠ none)) :
    Current db mailboxAccountId now primaryId ↔
      ∀ row ∈ db.siblings mailboxAccountId primaryId, ∀ token, row.undoToken = some token →
        ∀ entry, db.entryOf mailboxAccountId token = some entry →
          entry.revertedAt = none → now < entry.expiresAt := by
  constructor
  · intro current row mem token told entry found unreverted
    obtain ⟨label, -, entry', found', done⟩ := settled row mem token told
    obtain rfl := Option.some.inj (found.symm.trans found')
    obtain ⟨⟨live, ready⟩, -⟩ :=
      current.pending row mem label token told fun isDone => done.mp isDone unreverted
    unfold Tables.findRevertable at ready
    simp only [found] at ready
    split_ifs at ready with reverted late
    exact not_le.mp late
  · intro unexpired
    refine ⟨fun row mem _ token told undone => ?_, fun row mem _ token told live => ?_⟩
    · obtain ⟨-, group, entry, found, done⟩ := settled row mem token told
      have unreverted : entry.revertedAt = none := by
        by_contra reverted
        exact undone (done.mpr reverted)
      refine ⟨⟨entry, ?_⟩, group⟩
      unfold Tables.findRevertable
      simp only [found]
      rw [if_neg (not_not.mpr unreverted),
        if_neg (not_le.mpr (unexpired row mem token told entry found unreverted))]
    · obtain ⟨label, -, entry, found, done⟩ := settled row mem token told
      refine ⟨label, fun isDone => ?_⟩
      obtain ⟨other, ready⟩ := live
      unfold Tables.findRevertable at ready
      simp only [found] at ready
      rw [if_pos (done.mp isDone)] at ready
      cases ready

theorem owed_iff_shown_iff {now : ℤ} {primaryId : ActionId} :
    (∀ t, Owed db.jobs (db.siblings mailboxAccountId primaryId) t ↔
      t ∈ db.shown mailboxAccountId now (.job primaryId)) ↔
      Current db mailboxAccountId now primaryId := by
  constructor
  · intro agree
    have forwardOf {row : ActionRow} (mem : row ∈ db.siblings mailboxAccountId primaryId) :=
      mem_siblings.mp mem
    have same {row row' : ActionRow} {t : UndoToken}
        (mem : row ∈ db.siblings mailboxAccountId primaryId)
        (mem' : row' ∈ db.siblings mailboxAccountId primaryId)
        (told : row.undoToken = some t) (told' : row'.undoToken = some t) : row = row' :=
      db.issuedOnce row (forwardOf mem).1 row' (forwardOf mem').1 (forwardOf mem).2.2.1
        (forwardOf mem').2.2.1 t told told'
    refine ⟨fun row mem label t told undone => ?_, fun row mem group t told live => ?_⟩
    · obtain ⟨live, other, there, issued, group⟩ :=
        mem_shown.mp ((agree t).mp ⟨⟨row, mem, told, label⟩, undone⟩)
      obtain ⟨there, told'⟩ := sibling_of_groupId there issued group
      rw [same mem there told told']
      exact ⟨live, group⟩
    · have issued : row.issued mailboxAccountId t := by
        obtain ⟨-, own, forward, -⟩ := forwardOf mem
        simp [ActionRow.issued, told, own, forward]
      obtain ⟨⟨other, there, told', label⟩, undone⟩ :=
        (agree t).mpr (mem_shown.mpr ⟨live, row, (forwardOf mem).1, issued, group⟩)
      rw [same mem there told told']
      exact ⟨label, undone⟩
  · intro current t
    rw [mem_shown]
    constructor
    · rintro ⟨⟨row, mem, told, label⟩, undone⟩
      obtain ⟨live, group⟩ := current.pending row mem label t told undone
      obtain ⟨there, own, forward, -⟩ := mem_siblings.mp mem
      exact ⟨live, row, there, by simp [ActionRow.issued, told, own, forward], group⟩
    · rintro ⟨live, row, there, issued, group⟩
      obtain ⟨mem, told⟩ := sibling_of_groupId there issued group
      obtain ⟨label, undone⟩ := current.live row mem group t told live
      exact ⟨⟨row, mem, told, label⟩, undone⟩

/-- What a call hands to the queue, whether it throws or not. -/
theorem enqueues_enqueueCompositeRevert (posted : db.forwardRow mailboxAccountId token = some forward) :
    Enqueues (Owed db.jobs (db.siblings mailboxAccountId forward.groupId))
      (∃ handles, (enqueueCompositeRevert env mailboxAccountId token false ⟨db, []⟩).1 = .ok handles)
      ⟨db, []⟩ (enqueueCompositeRevert env mailboxAccountId token false ⟨db, []⟩).2 := by
  have stays : Enqueues (Owed db.jobs (db.siblings mailboxAccountId forward.groupId)) False
      ⟨db, []⟩ ⟨db, []⟩ := ⟨fun _ => Iff.rfl, fun _ mem => .inl mem, False.elim⟩
  unfold enqueueCompositeRevert
  simp only [posted, Bool.false_eq_true, if_false]
  split_ifs with unavailable running
  · exact stays.congr (fun _ => Iff.rfl) (by simp)
  · exact stays.congr (fun _ => Iff.rfl) (by simp)
  · refine (enqueues_enqueueReverts _ ⟨db, []⟩).congr (fun t => ?_) fun h => h
    simp only [Owed, mem_primaryFirst]

/-- **The Undo of a decision reverts the tokens that the list shows, all of them revertable,
exactly when the decision is current.** A call that throws midway reverts no others either. -/
theorem cascade_reverts_shown_iff (env : Env) (mailboxAccountId : MailboxId) (token : UndoToken)
    (db : Tables) (forward : ActionRow)
    (posted : db.forwardRow mailboxAccountId token = some forward) :
    let call := enqueueCompositeRevert env mailboxAccountId token false ⟨db, []⟩
    (Current db mailboxAccountId env.now forward.groupId →
      ∀ t ∈ call.2.added, db.Revertable mailboxAccountId t env.now) ∧
    ∀ handles, call.1 = .ok handles →
      (((∀ t ∈ call.2.added, db.Revertable mailboxAccountId t env.now) ∧
          ∀ t, t ∈ call.2.added ↔
            t ∈ db.shown mailboxAccountId env.now (.job forward.groupId)) ↔
        Current db mailboxAccountId env.now forward.groupId) := by
  intro call
  have step : Enqueues _ (∃ handles, call.1 = .ok handles) _ call.2 :=
    enqueues_enqueueCompositeRevert posted
  have onlyOwed : ∀ t ∈ call.2.added,
      Owed db.jobs (db.siblings mailboxAccountId forward.groupId) t :=
    fun t mem => (step.sound t mem).resolve_left (List.not_mem_nil)
  have revertable (current : Current db mailboxAccountId env.now forward.groupId) :
      ∀ t ∈ call.2.added, db.Revertable mailboxAccountId t env.now :=
    fun t mem => (mem_shown.mp ((owed_iff_shown_iff.mpr current t).mp (onlyOwed t mem))).1
  refine ⟨revertable, fun handles through => ?_⟩
  have added : ∀ t, t ∈ call.2.added ↔
      Owed db.jobs (db.siblings mailboxAccountId forward.groupId) t :=
    fun t => ⟨onlyOwed t, fun owed => step.complete ⟨handles, through⟩ t (.inr owed)⟩
  constructor
  · rintro ⟨-, agree⟩
    exact owed_iff_shown_iff.mp fun t => (added t).symm.trans (agree t)
  · intro current
    exact ⟨revertable current, fun t => (added t).trans (owed_iff_shown_iff.mpr current t)⟩

/-! ### A bulk whose members finish hours apart -/

/-- The archive of one sender of a bulk. -/
def bulkJob (id : ActionId) (compositeId : Option ActionId) : ActionRow where
  id
  mailboxAccountId := 0
  verb := .archive
  direction := .forward
  selector := .sender (toString id) (toString id)
  resolvedMessageIds := []
  requestedCount := 1
  affectedCount := 1
  status := .done
  idempotencyKey := "archive-bulk-" ++ toString id
  undoToken := some id
  errorCode := none
  compositeId
  wakeAt := none
  reach := .inboxOnly

/-- The token of the anchor expires at 100, the one of the other member at 200. -/
def bulkTables : Tables where
  journal := [⟨1, 0, .archive, 0, 100, none⟩, ⟨2, 0, .archive, 100, 200, none⟩]
  jobs := ⟨[bulkJob 1 none, bulkJob 2 (some 1)], by decide, by decide⟩
  senders := []
  tokens := by decide
  issuedOnce := issuedOnce_of_nodup (by decide)

def accepting (now : ℤ) : Env := ⟨now, true, fun _ => .accepted⟩

theorem cascade_reverts_shown_iff_bulk :
    bulkTables.forwardRow 0 2 = some (bulkJob 2 (some 1)) ∧
      (enqueueCompositeRevert (accepting 50) 0 2 false ⟨bulkTables, []⟩).2.added = [1, 2] ∧
      Current bulkTables 0 50 1 := by
  have posted : bulkTables.forwardRow 0 2 = some (bulkJob 2 (some 1)) := rfl
  have added : (enqueueCompositeRevert (accepting 50) 0 2 false ⟨bulkTables, []⟩).2.added = [1, 2] :=
    rfl
  have shown : bulkTables.shown 0 50 (.job 1) = [1, 2] := rfl
  refine ⟨posted, added, ?_⟩
  refine ((cascade_reverts_shown_iff (accepting 50) 0 2 bulkTables _ posted).2 _ rfl).mp ⟨?_, ?_⟩
  · rw [added]
    intro t mem
    rcases List.mem_cons.mp mem with rfl | mem
    · exact ⟨_, rfl⟩
    · obtain rfl := List.mem_singleton.mp mem
      exact ⟨_, rfl⟩
  · intro t
    rw [added]
    exact Iff.of_eq (congrArg (t ∈ ·) shown.symm)

/-- At 150 the token of the anchor has expired and is not listed, and the post of the other
token reverts it. -/
theorem expired_sibling_reverted :
    (performRevert (accepting 150) 0 2 false ⟨bulkTables, []⟩).2.added = [1, 2] ∧
      bulkTables.findRevertable 0 1 150 = .expired ⟨1, 0, .archive, 0, 100, none⟩ ∧
      bulkTables.shown 0 150 (.job 1) = [2] := by
  refine ⟨?_, ?_, ?_⟩
  · rfl
  · rfl
  · rfl

end DeclutrMail.Undo
