import Mathlib.Data.Finset.Card
import DeclutrMail.Effects.Contract
import DeclutrMail.Sync.Incremental

/-!
# What a sync job reports of refused messages

Before it advances the cursor a job compares the messages that Gmail refused with those
it asked for. It takes the refused ones from the growth of the client's set during the
pass. A message that an earlier pass of the same job was refused is in the set already,
so it is not counted again (`neverDropsRefused_iff`).
-/

namespace DeclutrMail.Sync

open Batches

/-- The messages whose metadata Gmail refused in a pass. -/
def refusedIn (pass : Pass) : Finset MessageId :=
  (pass.answers.filterMap fun a => if a.2 = .refused then some a.1 else none).toFinset

def refusedBy : List Pass → Finset MessageId
  | [] => ∅
  | pass :: passes => refusedIn pass ∪ refusedBy passes

/-- The distinct messages that a pass attempts to add. -/
def attempted (pass : Pass) : Finset MessageId := (mailAdds pass.events).toFinset

/-- How often the event loop counts a fetch: once for a prefetched message, and once for
each record of another one. -/
def fetchCount (events : List GmailHistoryRecord) : ℕ :=
  (prefetched events).length + ((mailAdds events).filter (· ∉ prefetched events)).length

/-! ## The states of a job -/

/-- The client's set holds what Gmail refused so far. -/
structure Tallied (job : Job) : Prop where
  nodup : job.unreadableMessageIds.Nodup
  refused : job.unreadableMessageIds.toFinset = refusedBy job.passes

/-- Nothing has been decided yet. -/
structure Open (job : Job) : Prop where
  tallied : Tallied job
  applied : job.applied = false
  failed : job.failed = false
  cursorUpdate : job.cursorUpdate = .untried

/-- Between two passes. -/
structure Between (earlier : List Pass) (job : Job) : Prop extends Open job where
  passes : job.passes = earlier

/-- The current pass asks about messages of its own records only. -/
structure Asking (events : List GmailHistoryRecord) (earlier : List Pass) (job : Job) : Prop where
  tallied : Tallied job
  passes : ∃ answers, job.passes = ⟨events, answers⟩ :: earlier ∧
    ∀ a ∈ answers, a.1 ∈ mailAdds events

structure InPass (events : List GmailHistoryRecord) (earlier : List Pass) (job : Job) :
    Prop extends Open job where
  asking : Asking events earlier job

/-- The job has stopped before it applied its records. -/
def Stopped (_ : JobError) (job : Job) : Prop := job.applied = false

variable {α : Type} {events : List GmailHistoryRecord} {earlier : List Pass}

theorem InPass.passes {job : Job} (h : InPass events earlier job) :
    ∃ answers, job.passes = ⟨events, answers⟩ :: earlier ∧ ∀ a ∈ answers, a.1 ∈ mailAdds events :=
  h.asking.passes

/-! ## Requests -/

/-- An assertion that does not look at the tape, and what a failed request leaves of it. -/
structure Awaits (A : Job → Prop) (E : JobError → Job → Prop) : Prop where
  tapeless : ∀ job replies, A job → A { job with replies := replies }
  fails : ∀ job, A job → E .request { job with failed := true }

section Requests

variable {A : Job → Prop} {E : JobError → Job → Prop}

theorem Awaits.fail {B : α → Job → Prop} (w : Awaits A E) : Meets A (fail : SyncJob α) B E :=
  w.fails

theorem Awaits.nextReply (w : Awaits A E) : Meets A nextReply (fun _ => A) E := by
  refine (Meets.get (B := fun s s' => s = s' ∧ A s') fun s hs => ⟨rfl, hs⟩).bind fun s => ?_
  cases s.replies with
  | nil => exact .ret fun _ h => h.2
  | cons reply replies =>
    exact (Meets.modify (B := fun _ => A) fun job h => w.tapeless job replies h.2).bind
      fun _ => .ret fun _ h => h

theorem Awaits.listHistory (w : Awaits A E) (cursor : HistoryId) (token : Option String) :
    Meets A (listHistory cursor token) (fun _ => A) E := by
  refine w.nextReply.bind fun reply => ?_
  cases reply with
  | page page => exact .ret fun _ h => h
  | _ => exact w.fail

theorem Awaits.readCursor (w : Awaits A E) : Meets A readCursor (fun _ => A) E := by
  refine w.nextReply.bind fun reply => ?_
  cases reply with
  | cursor c => exact .ret fun _ h => h
  | _ => exact w.fail

theorem Awaits.getProfile (w : Awaits A E) : Meets A getProfile (fun _ => A) E := by
  refine w.nextReply.bind fun reply => ?_
  cases reply with
  | profile historyId => exact .ret fun _ h => h
  | _ => exact w.fail

theorem Awaits.getMessageLabelIds (w : Awaits A E) (id : MessageId) :
    Meets A (getMessageLabelIds id) (fun _ => A) E := by
  refine w.nextReply.bind fun reply => ?_
  cases reply with
  | labelIds labels => exact .ret fun _ h => h
  | _ => exact w.fail

theorem Awaits.statement (w : Awaits A E) : Meets A statement (fun _ => A) E := by
  refine w.nextReply.bind fun reply => ?_
  cases reply with
  | written => exact .ret fun _ h => h
  | _ => exact w.fail

theorem Awaits.pages (w : Awaits A E) (cursor : HistoryId) (fuel : ℕ)
    (collected : List GmailHistoryRecord) (token : Option String) :
    Meets A (pages cursor fuel collected token) (fun _ => A) E := by
  induction fuel generalizing collected token with
  | zero => exact w.fail
  | succ fuel ih =>
    refine (w.listHistory cursor token).bind fun page => ?_
    cases page with
    | none => exact .ret fun _ h => h
    | some page =>
      cases more : page.nextPageToken with
      | none => simpa only [more] using .ret fun _ h => h
      | some next => simpa only [more] using ih _ _

theorem Awaits.pageHistoryFrom (w : Awaits A E) (cursor : HistoryId) :
    Meets A (pageHistoryFrom cursor) (fun _ => A) E :=
  (Meets.get (B := fun _ => A) fun _ h => h).bind fun _ => w.pages cursor _ _ _

end Requests

theorem awaits_between : Awaits (Between earlier) Stopped :=
  ⟨fun _ _ h => ⟨⟨⟨h.tallied.nodup, h.tallied.refused⟩, h.applied, h.failed, h.cursorUpdate⟩,
    h.passes⟩, fun _ h => h.applied⟩

theorem awaits_inPass : Awaits (InPass events earlier) Stopped :=
  ⟨fun _ _ h => ⟨⟨⟨h.tallied.nodup, h.tallied.refused⟩, h.applied, h.failed, h.cursorUpdate⟩,
    ⟨⟨h.tallied.nodup, h.tallied.refused⟩, h.passes⟩⟩, fun _ h => h.applied⟩

/-! ## A metadata request -/

theorem refusedIn_answer (answers : List (MessageId × Rendering)) (id : MessageId)
    (r : Rendering) :
    refusedIn ⟨events, answers ++ [(id, r)]⟩ =
      refusedIn ⟨events, answers⟩ ∪ if r = .refused then {id} else ∅ := by
  unfold refusedIn
  by_cases refused : r = .refused
  · ext x
    simp [refused, List.filterMap_append]
  · ext x
    simp [refused, List.filterMap_append]

theorem inPass_answer {job : Job} {id : MessageId} (h : InPass events earlier job)
    (mine : id ∈ mailAdds events) (r : Rendering) {ids : List MessageId} (nodup : ids.Nodup)
    (tally : ids.toFinset = job.unreadableMessageIds.toFinset ∪ if r = .refused then {id} else ∅) :
    InPass events earlier { job.answer id r with unreadableMessageIds := ids } := by
  obtain ⟨answers, passes, own⟩ := h.passes
  have later : (job.answer id r).passes = ⟨events, answers ++ [(id, r)]⟩ :: earlier := by
    simp [Job.answer, passes]
  have tallied : Tallied { job.answer id r with unreadableMessageIds := ids } := by
    have before := h.tallied.refused
    rw [passes, refusedBy] at before
    refine ⟨nodup, ?_⟩
    change _ = refusedBy (job.answer id r).passes
    rw [later, refusedBy, refusedIn_answer, Finset.union_right_comm, ← before, tally]
  refine ⟨⟨tallied, h.applied, h.failed, h.cursorUpdate⟩, tallied, answers ++ [(id, r)], later,
    fun a mem => ?_⟩
  rcases List.mem_append.mp mem with old | new
  · exact own a old
  · rwa [List.mem_singleton.mp new]

theorem meets_getMessageMetadata {id : MessageId} (mine : id ∈ mailAdds events) :
    Meets (InPass events earlier) (getMessageMetadata id) (fun _ => InPass events earlier)
      Stopped := by
  refine awaits_inPass.nextReply.bind fun reply => ?_
  cases reply with
  | metadata r =>
    cases r with
    | refused =>
      intro job h
      refine inPass_answer h mine .refused (nodup_put h.tallied.nodup) ?_
      ext x
      simp [Job.answer, or_comm]
    | gone =>
      intro job h
      exact inPass_answer h mine .gone h.tallied.nodup (by simp)
    | rendered metadata =>
      intro job h
      exact inPass_answer h mine (.rendered metadata) h.tallied.nodup (by simp)
  | _ => exact awaits_inPass.fail

/-! ## The prefetch -/

/-- The keys of a metadata map. -/
def Holds (ids : List MessageId) (metadata : Metadata) : Prop :=
  ∀ id, (metadata.get id).isSome ↔ id ∈ ids

theorem mem_mailAdds_of_prefetched {id : MessageId} (h : id ∈ prefetched events) :
    id ∈ mailAdds events := by
  unfold prefetched at h
  split_ifs at h
  · exact mem_distinct.mp (List.mem_of_mem_take h)
  · simp at h

theorem nodup_prefetched : (prefetched events).Nodup := by
  unfold prefetched
  split_ifs
  · exact (nodup_distinct _).sublist (List.take_sublist _ _)
  · exact List.nodup_nil

theorem meets_fetchAll (had ids : List MessageId) {metadata : Metadata}
    (own : ∀ id ∈ ids, id ∈ mailAdds events) (holds : Holds had metadata) :
    Meets (InPass events earlier) (fetchAll ids metadata)
      (fun metadata job => Holds (had ++ ids) metadata ∧ InPass events earlier job) Stopped := by
  induction ids generalizing had metadata with
  | nil => exact .ret fun _ h => ⟨by simpa using holds, h⟩
  | cons id ids ih =>
    refine (meets_getMessageMetadata (own id List.mem_cons_self)).bind fun fetched => ?_
    have next := @ih (had ++ [id]) (metadata.set id fetched)
      (fun x mem => own x (List.mem_cons_of_mem _ mem)) fun x => by
        rw [InsertionMap.get_set, List.mem_append, List.mem_singleton, ← holds x]
        split_ifs with same
        · simp [same]
        · simp [Ne.symm same]
    simpa using next

theorem meets_prefetch :
    Meets (InPass events earlier) (prefetch events)
      (fun r job => Holds (prefetched events) r.2 ∧ InPass events earlier job) Stopped := by
  unfold prefetch
  split_ifs with none
  · refine .ret fun _ h => ⟨fun id => ?_, h⟩
    simp [none]
  · refine awaits_inPass.getProfile.bind fun historyId => ?_
    refine (meets_fetchAll [] _ (fun id => mem_mailAdds_of_prefetched) fun id => ?_).bind
      fun metadata => .ret fun _ h => h
    simp

theorem meets_refreshLabels {had : List MessageId} (ids : List MessageId) {metadata : Metadata}
    (holds : Holds had metadata) :
    Meets (InPass events earlier) (refreshLabels ids metadata)
      (fun metadata job => Holds had metadata ∧ InPass events earlier job) Stopped := by
  induction ids generalizing metadata with
  | nil => exact .ret fun _ h => ⟨holds, h⟩
  | cons id ids ih =>
    unfold refreshLabels
    cases known : metadata.get id with
    | none => exact ih holds
    | some found =>
      cases found with
      | none => exact ih holds
      | some found =>
        refine (awaits_inPass.getMessageLabelIds id).bind fun labels => ih fun x => ?_
        rw [InsertionMap.get_set, ← holds x]
        split_ifs with same
        · simp [← same, known]
        · rfl

theorem meets_refreshIfChanged {before : Option HistoryId} {metadata : Metadata}
    (holds : Holds (prefetched events) metadata) :
    Meets (InPass events earlier) (refreshIfChanged events before metadata)
      (fun metadata job => Holds (prefetched events) metadata ∧ InPass events earlier job)
      Stopped := by
  cases before with
  | none => exact .ret fun _ h => ⟨holds, h⟩
  | some before =>
    refine awaits_inPass.getProfile.bind fun historyId => ?_
    split_ifs
    · exact .ret fun _ h => ⟨holds, h⟩
    · exact meets_refreshLabels _ holds

/-! ## What the event loop counts -/

def Attempts.after (metadata : Metadata) (a : Attempts) : GmailHistoryRecord → Attempts
  | .added id labelIds => if isNonMail labelIds then a else a.count metadata id
  | _ => a

theorem foldl_after (metadata : Metadata) (a : Attempts) (events : List GmailHistoryRecord) :
    events.foldl (Attempts.after metadata) a =
      (mailAdds events).foldl (fun a id => a.count metadata id) a := by
  induction events generalizing a with
  | nil => rfl
  | cons ev events ih =>
    rw [List.foldl_cons, ih]
    cases ev with
    | added id labelIds =>
      by_cases skipped : isNonMail labelIds <;> simp [Attempts.after, mailAdds, skipped]
    | deleted id => simp [Attempts.after, mailAdds]
    | labels r => simp [Attempts.after, mailAdds]

/-- A prefetched message counts once, another one at each of its records. -/
theorem foldl_count {metadata : Metadata} {had : List MessageId} (holds : Holds had metadata)
    (ids : List MessageId) :
    let a := ids.foldl (fun a id => Attempts.count a metadata id) ⟨0, []⟩
    a.addAttempts =
        (had.toFinset ∩ ids.toFinset).card + (ids.filter (· ∉ had)).length ∧
      ∀ id, id ∈ a.countedPrefetched ↔ id ∈ ids := by
  induction ids using List.reverseRecOn with
  | nil => simp
  | append_singleton ids id ih =>
    obtain ⟨attempts, counted⟩ := ih
    simp only [List.foldl_concat]
    generalize ids.foldl (fun a id => Attempts.count a metadata id) ⟨0, []⟩ = a at attempts counted ⊢
    refine ⟨?_, fun x => by simp [Attempts.count, counted]⟩
    have known : (metadata.get id).isNone = decide (id ∉ had) := by
      have there := holds id
      cases found : metadata.get id <;> simp_all
    simp only [Attempts.count, known, counted, attempts, List.filter_append, List.length_append]
    by_cases mine : id ∈ had
    · by_cases again : id ∈ ids
      · have same : (ids ++ [id]).toFinset = ids.toFinset := by
          ext x
          simp only [List.mem_toFinset, List.mem_append, List.mem_singleton]
          grind
        simp [mine, again, same]
      · have grown : had.toFinset ∩ (ids ++ [id]).toFinset =
            insert id (had.toFinset ∩ ids.toFinset) := by
          ext x
          simp only [Finset.mem_inter, Finset.mem_insert, List.mem_toFinset, List.mem_append,
            List.mem_singleton]
          grind
        rw [grown, Finset.card_insert_of_notMem (by simp [again])]
        simp only [mine, again, not_true_eq_false, decide_false, not_false_eq_true, decide_true,
          Bool.or_true, if_true, List.filter_cons_of_neg, Bool.false_eq_true, List.filter_nil,
          List.length_nil]
        omega
    · have same : had.toFinset ∩ (ids ++ [id]).toFinset = had.toFinset ∩ ids.toFinset := by
        ext x
        simp only [Finset.mem_inter, List.mem_toFinset, List.mem_append, List.mem_singleton]
        grind
      simp only [same, mine, not_false_eq_true, decide_true, Bool.true_or, if_true,
        List.filter_cons_of_pos, List.filter_nil, List.length_cons, List.length_nil]
      omega

theorem addAttempts_eq {metadata : Metadata} (holds : Holds (prefetched events) metadata) :
    (events.foldl (Attempts.after metadata) ⟨0, []⟩).addAttempts = fetchCount events := by
  rw [foldl_after, (foldl_count holds _).1, fetchCount]
  have inside : (prefetched events).toFinset ∩ (mailAdds events).toFinset =
      (prefetched events).toFinset := by
    refine Finset.inter_eq_left.mpr fun id mem => ?_
    exact List.mem_toFinset.mpr (mem_mailAdds_of_prefetched (List.mem_toFinset.mp mem))
  rw [inside, List.toFinset_card_of_nodup nodup_prefetched]

/-! ## The event loop -/

theorem meets_modifyLoop {f : EventLoop → EventLoop} :
    Meets (InPass events earlier) (modifyLoop f) (fun _ => InPass events earlier) Stopped :=
  .modify fun _ h => ⟨⟨⟨h.tallied.nodup, h.tallied.refused⟩, h.applied, h.failed,
    h.cursorUpdate⟩, ⟨⟨h.tallied.nodup, h.tallied.refused⟩, h.passes⟩⟩

theorem meets_metadataOf {metadata : Metadata} {id : MessageId} (mine : id ∈ mailAdds events) :
    Meets (InPass events earlier) (metadataOf metadata id) (fun _ => InPass events earlier)
      Stopped := by
  unfold metadataOf
  cases metadata.get id with
  | none => exact meets_getMessageMetadata mine
  | some fetched => exact .ret fun _ h => h

theorem meets_turn {metadata : Metadata} {ev : GmailHistoryRecord} (mem : ev ∈ events)
    (a : Attempts) :
    Meets (InPass events earlier) (turn metadata a ev)
      (fun a' job => a' = a.after metadata ev ∧ InPass events earlier job) Stopped := by
  refine awaits_inPass.statement.bind fun _ => ?_
  cases ev with
  | added id labelIds =>
    refine meets_modifyLoop.bind fun _ => ?_
    by_cases skipped : isNonMail labelIds
    · rw [if_pos skipped]
      exact .ret fun _ h => ⟨by simp [Attempts.after, skipped], h⟩
    · rw [if_neg skipped]
      have mine : id ∈ mailAdds events :=
        List.mem_filterMap.mpr ⟨.added id labelIds, mem, by simp [skipped]⟩
      refine (meets_metadataOf mine).bind fun _ => awaits_inPass.statement.bind fun _ =>
        meets_modifyLoop.bind fun _ => .ret fun _ h => ⟨?_, h⟩
      simp [Attempts.after, skipped]
  | deleted id => exact meets_modifyLoop.bind fun _ => .ret fun _ h => ⟨rfl, h⟩
  | labels r => exact meets_modifyLoop.bind fun _ => .ret fun _ h => ⟨rfl, h⟩

theorem meets_turns {metadata : Metadata} (todo : List GmailHistoryRecord)
    (mem : ∀ ev ∈ todo, ev ∈ events) (a : Attempts) :
    Meets (InPass events earlier) (turns metadata a todo)
      (fun a' job => a' = todo.foldl (Attempts.after metadata) a ∧ InPass events earlier job)
      Stopped := by
  induction todo generalizing a with
  | nil => exact .ret fun _ h => ⟨rfl, h⟩
  | cons ev todo ih =>
    refine (meets_turn (mem ev List.mem_cons_self) a).bind fun a' => ?_
    rintro job ⟨rfl, h⟩
    exact ih (fun ev' later => mem ev' (List.mem_cons_of_mem _ later)) _ job h

/-- The records of the current pass are applied, and nothing is written about it yet. -/
structure Swept (events : List GmailHistoryRecord) (earlier : List Pass) (job : Job) :
    Prop extends Asking events earlier job where
  applied : job.applied = true
  failed : job.failed = false
  cursorUpdate : job.cursorUpdate = .untried

theorem meets_eventLoop {metadata : Metadata} (holds : Holds (prefetched events) metadata) :
    Meets (InPass events earlier) (eventLoop metadata events)
      (fun a job => a.addAttempts = fetchCount events ∧ Swept events earlier job) Stopped := by
  refine meets_modifyLoop.bind fun _ =>
    (meets_turns events (fun _ mem => mem) ⟨0, []⟩).bind fun a => ?_
  rintro job ⟨rfl, h⟩
  refine (awaits_inPass.statement.bind fun _ => (Meets.modify (B := fun _ =>
    Swept events earlier) fun job h => ?_).bind fun _ => .ret fun job h => ?_) job h
  · exact ⟨⟨⟨h.tallied.nodup, h.tallied.refused⟩, h.passes⟩, rfl, h.failed, h.cursorUpdate⟩
  · exact ⟨addAttempts_eq holds, h⟩

/-! ## The end of a run -/

/-- The refused messages of a pass that no earlier pass was refused. -/
def freshlyRefused (pass : Pass) (earlier : List Pass) : Finset MessageId :=
  refusedIn pass \ refusedBy earlier

/-- What a run that has applied the records of `pass` ends with. -/
structure Verdict (pass : Pass) (earlier : List Pass) (o : Except JobError Report) (job : Job) :
    Prop where
  passes : job.passes = pass :: earlier
  own : refusedIn pass ⊆ attempted pass
  stopped : systemic (freshlyRefused pass earlier).card (fetchCount pass.events) = true →
    (∃ e, o = .error e) ∧ job.cursorUpdate = .untried
  failed : systemic (freshlyRefused pass earlier).card (fetchCount pass.events) = false →
    ∀ e, o = .error e → job.failed = true
  reported : systemic (freshlyRefused pass earlier).card (fetchCount pass.events) = false →
    ∀ r, o = .ok r →
      job.failed = false ∧ r.unreadableSkipped.getD 0 = (freshlyRefused pass earlier).card

/-- Every end of a run: before its records are applied, or with a verdict on them. -/
def Ended (o : Except JobError Report) (job : Job) : Prop :=
  job.applied = true → ∃ pass earlier, Verdict pass earlier o job

theorem ended_of_stopped {o : Except JobError Report} {job : Job} (h : job.applied = false) :
    Ended o job := fun applied => by simp [h] at applied

theorem Asking.own {job : Job} (h : Asking events earlier job) :
    ∃ pass, pass.events = events ∧ job.passes = pass :: earlier ∧ refusedIn pass ⊆ attempted pass ∧
      (freshlyRefused pass earlier).card =
        job.unreadableMessageIds.length - (refusedBy earlier).card := by
  obtain ⟨answers, passes, own⟩ := h.passes
  refine ⟨⟨events, answers⟩, rfl, passes, fun id mem => ?_, ?_⟩
  · obtain ⟨a, asked, refused⟩ := List.mem_filterMap.mp (List.mem_toFinset.mp mem)
    split_ifs at refused
    obtain rfl := Option.some.inj refused
    exact List.mem_toFinset.mpr (own a asked)
  · have tally := h.tallied.refused
    rw [passes, refusedBy] at tally
    rw [← List.toFinset_card_of_nodup h.tallied.nodup, tally, freshlyRefused,
      ← Finset.union_sdiff_right, Finset.card_sdiff_of_subset Finset.subset_union_right]

/-- The check has passed, and nothing else has gone wrong. -/
structure Closing (pass : Pass) (earlier : List Pass) (job : Job) : Prop where
  passes : job.passes = pass :: earlier
  failed : job.failed = false

section Closing

variable {pass : Pass}
  (passed : systemic (freshlyRefused pass earlier).card (fetchCount pass.events) = false)
  (own : refusedIn pass ⊆ attempted pass)

include passed own

theorem awaits_closing :
    Awaits (Closing pass earlier) fun e job => Verdict pass earlier (.error e) job :=
  ⟨fun _ _ h => ⟨h.passes, h.failed⟩, fun _ h => ⟨h.passes, own, by simp [passed],
    fun _ _ _ => rfl, fun _ _ h => nomatch h⟩⟩

theorem meets_advanceCursor (candidate : HistoryId) :
    Meets (Closing pass earlier) (advanceCursor candidate) (fun _ => Closing pass earlier)
      fun e job => Verdict pass earlier (.error e) job :=
  (awaits_closing passed own).readCursor.bind fun _ => .modify fun _ h => ⟨h.passes, h.failed⟩

theorem meets_conclude (listing : Listing) :
    Meets (Closing pass earlier) (conclude listing (freshlyRefused pass earlier).card)
      (fun r job => Verdict pass earlier (.ok r) job)
      fun e job => Verdict pass earlier (.error e) job := by
  have waits := awaits_closing passed own
  refine waits.statement.bind fun _ => (meets_advanceCursor passed own _).bind fun _ =>
    waits.statement.bind fun _ => waits.statement.bind fun _ =>
    (Meets.get (B := fun _ => Closing pass earlier) fun _ h => h).bind fun job => .ret fun job h => ?_
  refine ⟨h.passes, own, by simp [passed], nofun, ?_⟩
  rintro - r same
  obtain rfl := Except.ok.inj same
  refine ⟨h.failed, ?_⟩
  dsimp only
  split_ifs with some
  · rfl
  · simp only [Option.getD_none]
    omega

end Closing

theorem meets_applyPass {listing : Listing} {before : Option HistoryId} {metadata : Metadata}
    (holds : Holds (prefetched listing.events) metadata) :
    Meets (InPass listing.events earlier)
      (applyPass listing before metadata (refusedBy earlier).card)
      (fun r => Ended (.ok r)) (fun e => Ended (.error e)) := by
  refine (Meets.mono (meets_refreshIfChanged holds) (fun _ h => h) (fun _ _ h => h)
    fun _ _ h => ended_of_stopped h).bind fun metadata => ?_
  rintro job ⟨holds, h⟩
  refine ((Meets.mono (meets_eventLoop holds) (fun _ h => h) (fun _ _ h => h)
    fun _ _ h => ended_of_stopped h).bind fun a => ?_) job h
  refine (Meets.get (B := fun s s' => s = s' ∧ a.addAttempts = fetchCount listing.events ∧
    Swept listing.events earlier s') fun s h => ⟨rfl, h⟩).bind fun s => ?_
  rintro job ⟨rfl, counted, swept⟩
  obtain ⟨pass, mine, passes, own, fresh⟩ := swept.own
  rw [← fresh, counted, ← mine]
  cases check : systemic (freshlyRefused pass earlier).card (fetchCount pass.events) with
  | true =>
    simp only [check, if_true]
    intro _
    exact ⟨pass, earlier, passes, own, fun _ => ⟨⟨_, rfl⟩, swept.cursorUpdate⟩,
      by simp [check], by simp [check]⟩
  | false =>
    have done := meets_conclude check own listing s ⟨passes, swept.failed⟩
    simp only [check, Bool.false_eq_true, if_false]
    revert done
    cases conclude listing (freshlyRefused pass earlier).card s with
    | ok r job => exact fun verdict _ => ⟨pass, earlier, verdict⟩
    | error e job => exact fun verdict _ => ⟨pass, earlier, verdict⟩

theorem meets_guardedSection {listing : Listing} {snapshotCursor : HistoryId}
    {before : Option HistoryId} {metadata : Metadata}
    (holds : Holds (prefetched listing.events) metadata) :
    Meets (InPass listing.events earlier)
      (guardedSection listing snapshotCursor before metadata (refusedBy earlier).card)
      (fun g job => match g with
        | .finished r => Ended (.ok r) job
        | .retry _ => InPass listing.events earlier job)
      (fun e => Ended (.error e)) := by
  refine (Meets.mono awaits_inPass.readCursor (fun _ h => h) (fun _ _ h => h)
    fun _ _ h => ended_of_stopped h).bind fun current => ?_
  split_ifs
  · exact .ret fun _ h => h
  · exact (meets_applyPass holds).bind fun r => .ret fun _ h => h

theorem meets_restarts (left : ℕ) (listing : Listing) (snapshotCursor : HistoryId) :
    Meets (Between earlier) (restarts left listing snapshotCursor) (fun r => Ended (.ok r))
      (fun e => Ended (.error e)) := by
  induction left generalizing earlier listing snapshotCursor with
  | zero => exact .raise fun _ h => ended_of_stopped h.applied
  | succ left ih =>
    have begun : Meets (Between earlier) (beginPass listing.events)
        (fun _ job => job.unreadableMessageIds.length = (refusedBy earlier).card ∧
          InPass listing.events earlier job) (fun e => Ended (.error e)) := by
      refine .modify fun job h => ?_
      have tally := h.tallied.refused
      rw [h.passes] at tally
      have tallied : Tallied { job with passes := ⟨listing.events, []⟩ :: job.passes } :=
        ⟨h.tallied.nodup, by simpa [refusedBy, refusedIn, h.passes] using tally⟩
      refine ⟨?_, ⟨tallied, h.applied, h.failed, h.cursorUpdate⟩, tallied, [],
        congrArg _ h.passes, by simp⟩
      rw [← tally, List.toFinset_card_of_nodup h.tallied.nodup]
    refine begun.bind fun _ => (Meets.get (B := fun s s' => s = s' ∧
      s'.unreadableMessageIds.length = (refusedBy earlier).card ∧
        InPass listing.events earlier s') fun s h => ⟨rfl, h⟩).bind fun s => ?_
    rintro job ⟨rfl, before, h⟩
    rw [before]
    refine ((Meets.mono meets_prefetch (fun _ h => h) (fun _ _ h => h)
      fun _ _ h => ended_of_stopped h).bind fun fetched => ?_) s h
    rintro job ⟨holds, h⟩
    refine ((meets_guardedSection holds).bind fun g => ?_) job h
    cases g with
    | finished r => exact .ret fun _ h => h
    | retry cursor =>
      intro job h
      obtain ⟨answers, passes, -⟩ := h.passes
      refine ((Meets.mono (awaits_between.pageHistoryFrom cursor) (fun _ h => h) (fun _ _ h => h)
        fun _ _ h => ended_of_stopped h).bind fun refetched => ?_) job ⟨h.toOpen, passes⟩
      cases refetched with
      | none => exact .ret fun _ h => ended_of_stopped h.applied
      | some refetched => exact ih refetched cursor

theorem meets_processJob (startHistoryId : HistoryId) :
    Meets (Between []) (processJob startHistoryId) (fun r => Ended (.ok r))
      (fun e => Ended (.error e)) := by
  refine (Meets.mono awaits_between.readCursor (fun _ h => h) (fun _ _ h => h)
    fun _ _ h => ended_of_stopped h).bind fun stored => ?_
  refine (Meets.mono (awaits_between.pageHistoryFrom _) (fun _ h => h) (fun _ _ h => h)
    fun _ _ h => ended_of_stopped h).bind fun first => ?_
  cases first with
  | none => exact .ret fun _ h => ended_of_stopped h.applied
  | some first => exact meets_restarts maxPasses first _

theorem between_start (mirror : Mirror) (replies : List Reply) :
    Between [] (Job.start mirror replies) :=
  ⟨⟨⟨List.nodup_nil, rfl⟩, rfl, rfl, rfl⟩, rfl⟩

/-- Run a job from its start. -/
def runJob (mirror : Mirror) (startHistoryId : HistoryId) (replies : List Reply) :
    Except JobError Report × Job :=
  (processJob startHistoryId (Job.start mirror replies)).outcome

theorem ended_runJob (mirror : Mirror) (startHistoryId : HistoryId) (replies : List Reply) :
    Ended (runJob mirror startHistoryId replies).1 (runJob mirror startHistoryId replies).2 := by
  have run := (meets_processJob startHistoryId).outcome (between_start mirror replies)
  unfold runJob
  revert run
  rcases (processJob startHistoryId (Job.start mirror replies)).outcome with ⟨_ | _, job⟩ <;>
    exact id

/-! ## The main result -/

/-- The messages of a pass that Gmail refused to render. -/
def refusedAdds (pass : Pass) : Finset MessageId := attempted pass ∩ refusedIn pass

/-- A run that applies a list of records throws when too many of its messages were
refused, and reports how many were refused whenever it advances the cursor. -/
def NeverDropsRefused (o : Except JobError Report) (job : Job) : Prop :=
  job.applied = true → ∀ pass earlier, job.passes = pass :: earlier →
    (systemic (refusedAdds pass).card (attempted pass).card = true →
      (∃ e, o = .error e) ∧ job.cursorUpdate ≠ .advanced) ∧
    (job.cursorUpdate = .advanced → ∀ r, o = .ok r →
      r.unreadableSkipped.getD 0 = (refusedAdds pass).card)

/-- Either the messages refused for the first time are systemic by the fetches counted; or
a request fails before the cursor is updated; or the refused messages are not systemic,
and, where the run advances the cursor and reports, none was refused in an earlier pass. -/
def RefusalsCounted (job : Job) : Prop :=
  job.applied = true → ∀ pass earlier, job.passes = pass :: earlier →
    systemic (refusedAdds pass \ refusedBy earlier).card (fetchCount pass.events) = true ∨
    (job.failed = true ∧ job.cursorUpdate ≠ .advanced) ∨
    (systemic (refusedAdds pass).card (attempted pass).card = false ∧
      (job.failed = true ∨ job.cursorUpdate ≠ .advanced ∨
        Disjoint (refusedAdds pass) (refusedBy earlier)))

/-- Nothing is lost by subtraction exactly when nothing was shared. -/
theorem card_sdiff_eq_iff (s t : Finset MessageId) : (s \ t).card = s.card ↔ Disjoint s t := by
  rw [← Finset.sdiff_eq_self_iff_disjoint]
  constructor
  · exact fun same => Finset.eq_of_subset_of_card_le Finset.sdiff_subset same.ge
  · exact congrArg Finset.card

/-- Exactly the runs whose refusals are counted never drop refused mail. -/
theorem neverDropsRefused_iff (mirror : Mirror) (startHistoryId : HistoryId)
    (replies : List Reply) :
    NeverDropsRefused (runJob mirror startHistoryId replies).1
        (runJob mirror startHistoryId replies).2 ↔
      RefusalsCounted (runJob mirror startHistoryId replies).2 := by
  have ended := ended_runJob mirror startHistoryId replies
  generalize (runJob mirror startHistoryId replies).1 = o at ended
  generalize (runJob mirror startHistoryId replies).2 = job at ended
  unfold NeverDropsRefused RefusalsCounted
  refine imp_congr_right fun applied => forall₂_congr fun pass earlier => ?_
  refine imp_congr_right fun passes => ?_
  obtain ⟨pass', earlier', verdict⟩ := ended applied
  obtain ⟨rfl, rfl⟩ := List.cons.inj (passes.symm.trans verdict.passes)
  have refused : refusedAdds pass = refusedIn pass := Finset.inter_eq_right.mpr verdict.own
  have fresh : refusedAdds pass \ refusedBy earlier = freshlyRefused pass earlier := by
    rw [refused, freshlyRefused]
  rw [fresh]
  cases check : systemic (freshlyRefused pass earlier).card (fetchCount pass.events) with
  | true =>
    obtain ⟨thrown, untried⟩ := verdict.stopped check
    simp [thrown, untried]
  | false =>
    cases o with
    | error e =>
      have failed := verdict.failed check e rfl
      simp only [failed, reduceCtorEq, false_implies, implies_true, and_true, true_and, true_or]
      cases systemic (refusedAdds pass).card (attempted pass).card <;> simp
    | ok r =>
      obtain ⟨sound, reported⟩ := verdict.reported check r rfl
      have lossless := card_sdiff_eq_iff (refusedAdds pass) (refusedBy earlier)
      rw [fresh, ← reported] at lossless
      simp only [sound, reduceCtorEq, exists_false, false_and, imp_false, Bool.not_eq_true,
        Except.ok.injEq, forall_eq', lossless, Bool.false_eq_true, false_or]
      refine and_congr_right fun _ => ?_
      tauto

/-- Ten new messages whose metadata Gmail refuses, in both passes of a job that finds the
cursor moved once. -/
def refusedTwice : List Reply :=
  let ids := ["a", "b", "c", "d", "e", "f", "g", "h", "i", "j"]
  let page : Reply := .page (some ⟨ids.map fun id => .added id ["INBOX"], none, 200⟩)
  let prefetch : List Reply := .profile 1 :: ids.map fun _ => .metadata .refused
  let turns : List Reply := ids.flatMap fun _ => [.written, .written]
  [.cursor none, page] ++ prefetch ++ [.cursor (some 150), page] ++ prefetch ++
    [.cursor (some 150), .profile 1] ++ turns ++
    [.written, .written, .cursor (some 150), .written, .written]

/-- The second pass counts no refusal at all, and the cursor moves past ten lost messages. -/
theorem refusedTwice_dropped :
    let run := runJob (fun _ => none) 100 refusedTwice
    ¬ NeverDropsRefused run.1 run.2 := by
  intro run sound
  have facts : (run.2.applied && decide (run.2.cursorUpdate = .advanced) &&
      run.2.passes.head?.any fun pass =>
        systemic (refusedAdds pass).card (attempted pass).card) = true := by
    decide +kernel
  simp only [Bool.and_eq_true, decide_eq_true_eq] at facts
  obtain ⟨⟨applied, advanced⟩, lost⟩ := facts
  cases passes : run.2.passes with
  | nil => simp [passes] at lost
  | cons pass earlier =>
    have refused : systemic (refusedAdds pass).card (attempted pass).card = true := by
      simpa [passes] using lost
    exact ((sound applied pass earlier passes).1 refused).2 advanced

end DeclutrMail.Sync
