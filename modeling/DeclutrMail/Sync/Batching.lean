import DeclutrMail.Collections.NetChange
import DeclutrMail.Sync.History

/-!
# Batched application is application record by record

`applyOneByOne` is what the buffers stand for: every record is written on its own, as
soon as it is read. The event loop reaches the same labels on every message, with the
same counters (`applyEvents_eq_applyOneByOne`).
-/

namespace DeclutrMail.Sync

open Batches

/-! ## One statement for each record -/

/-- The per-record expressions: an addition de-duplicates, a removal keeps the order. -/
def MailMessage.relabelOne (row : MailMessage) (r : LabelHistoryRecord) : MailMessage :=
  match r.kind with
  | .labelsAdded =>
    ⟨distinct (row.labelIds ++ r.labelIds), if "UNREAD" ∈ r.labelIds then true else row.isUnread⟩
  | .labelsRemoved =>
    ⟨row.labelIds.filter (· ∉ r.labelIds), if "UNREAD" ∈ r.labelIds then false else row.isUnread⟩

namespace Applied

def applyLabelRecord (s : Applied) (r : LabelHistoryRecord) : Applied :=
  match s.mirror r.messageId with
  | none => s
  | some row =>
    if r.labelIds = [] then s
    else
      { s with
        mirror := Function.update s.mirror r.messageId (some (row.relabelOne r))
        labelChanges := s.labelChanges + 1 }

def applyTombstone (s : Applied) (messageId : MessageId) : Applied :=
  match s.mirror messageId with
  | none => s
  | some _ =>
    { s with mirror := Function.update s.mirror messageId none, deleted := s.deleted + 1 }

def applyOne (s : Applied) (ev : GmailHistoryRecord × Option GmailMessageMetadata) : Applied :=
  match ev.1 with
  | .added _ labelIds => if isNonMail labelIds then s else s.handleMessageAdded ev.2
  | .deleted messageId => s.applyTombstone messageId
  | .labels record => s.applyLabelRecord record

end Applied

def applyOneByOne (mirror : Mirror)
    (events : List (GmailHistoryRecord × Option GmailMessageMetadata)) : Applied :=
  events.foldl Applied.applyOne (.start mirror)

/-! ## Rows as sets of labels -/

/-- A row up to the order and the repetitions of its labels. -/
def MailMessage.view (row : MailMessage) : Finset Label × Bool :=
  (row.labelIds.toFinset, row.isUnread)

def SameLabels (a b : Mirror) : Prop :=
  ∀ id, (a id).map MailMessage.view = (b id).map MailMessage.view

/-- `is_unread` shadows the `UNREAD` label on every row. -/
def Lockstep (mirror : Mirror) : Prop :=
  ∀ id, ∀ row ∈ mirror id, (row.isUnread = true ↔ "UNREAD" ∈ row.labelIds)

structure SameApplied (a b : Applied) : Prop where
  mirror : SameLabels a.mirror b.mirror
  added : a.added = b.added
  deleted : a.deleted = b.deleted
  labelChanges : a.labelChanges = b.labelChanges

def LabelHistoryRecord.edit (r : LabelHistoryRecord) : SetEdit Label :=
  match r.kind with
  | .labelsAdded => .add r.labelIds.toFinset
  | .labelsRemoved => .remove r.labelIds.toFinset

/-- What a label record does to a row seen as a set. -/
def edited (r : LabelHistoryRecord) (v : Finset Label × Bool) : Finset Label × Bool :=
  (r.edit.apply v.1, r.edit.flag "UNREAD" v.2)

theorem view_relabelOne (row : MailMessage) (r : LabelHistoryRecord) :
    (row.relabelOne r).view = edited r row.view := by
  unfold MailMessage.relabelOne edited LabelHistoryRecord.edit
  cases r.kind with
  | labelsAdded =>
    refine Prod.ext ?_ ?_
    · ext label
      simp [MailMessage.view, SetEdit.apply]
    · simp [MailMessage.view, SetEdit.flag]
  | labelsRemoved =>
    refine Prod.ext ?_ ?_
    · ext label
      simp [MailMessage.view, SetEdit.apply]
    · simp [MailMessage.view, SetEdit.flag]

/-! ## The net change of a run -/

/-- The net change of one message as a change of a set. -/
def LabelChange.net (c : LabelChange) : NetChange Label :=
  ⟨c.add.toFinset, c.remove.toFinset, by
    refine Finset.disjoint_left.mpr fun label added removed => ?_
    exact c.apart label (List.mem_toFinset.mp added) (List.mem_toFinset.mp removed)⟩

theorem net_foldl_touch (kind : LabelHistoryKind) (messageId : MessageId) (labels : List Label)
    (c : LabelChange) :
    (labels.foldl (LabelChange.touch kind) c).net =
      c.net.record (LabelHistoryRecord.edit ⟨kind, messageId, labels⟩) := by
  induction labels generalizing c with
  | nil => cases kind <;> ext <;> simp [LabelHistoryRecord.edit, NetChange.record]
  | cons label labels ih =>
    rw [List.foldl_cons, ih]
    cases kind with
    | labelsAdded =>
      ext x
      · simp [LabelHistoryRecord.edit, NetChange.record, LabelChange.net, LabelChange.touch]
        tauto
      · simp [LabelHistoryRecord.edit, NetChange.record, LabelChange.net, LabelChange.touch]
        tauto
    | labelsRemoved =>
      ext x
      · simp [LabelHistoryRecord.edit, NetChange.record, LabelChange.net, LabelChange.touch]
        tauto
      · simp [LabelHistoryRecord.edit, NetChange.record, LabelChange.net, LabelChange.touch]
        tauto

theorem records_foldl_touch (kind : LabelHistoryKind) (labels : List Label) (c : LabelChange) :
    (labels.foldl (LabelChange.touch kind) c).records = c.records := by
  induction labels generalizing c with
  | nil => rfl
  | cons label labels ih =>
    rw [List.foldl_cons, ih]
    cases kind <;> rfl

theorem view_relabel (row : MailMessage) (c : LabelChange) :
    (row.relabel c).view = (c.net.apply row.view.1, c.net.flag "UNREAD" row.view.2) := by
  refine Prod.ext ?_ ?_
  · ext label
    have apart := c.apart label
    simp only [MailMessage.relabel, MailMessage.view, NetChange.apply, LabelChange.net]
    split_ifs with adds
    · simp only [List.mem_toFinset, mem_distinct, List.mem_filter, List.mem_append,
        decide_eq_true_eq, Finset.mem_union, Finset.mem_sdiff]
      tauto
    · have nothing : c.add = [] := List.eq_nil_of_length_eq_zero (by omega)
      simp [nothing]
  · simp [MailMessage.relabel, MailMessage.view, NetChange.flag, LabelChange.net]

@[simp] theorem relabel_none (row : MailMessage) :
    (row.relabel .none).view = row.view := by
  have nothing : LabelChange.none.net = NetChange.none := rfl
  rw [view_relabel, nothing, NetChange.apply_none, NetChange.flag_none]

/-- The records of a run that name a message, as edits of its labels. -/
def edits (id : MessageId) (run : List LabelHistoryRecord) : List (SetEdit Label) :=
  (run.filter (·.messageId = id)).map (·.edit)

theorem edits_concat (id : MessageId) (run : List LabelHistoryRecord) (r : LabelHistoryRecord) :
    edits id (run ++ [r]) = edits id run ++ if r.messageId = id then [r.edit] else [] := by
  unfold edits
  split_ifs with here <;> simp [here]

theorem netChanges_concat (run : List LabelHistoryRecord) (r : LabelHistoryRecord) :
    netChanges (run ++ [r]) = recordChange (netChanges run) r := by
  simp [netChanges]

theorem record_no_labels (c : NetChange Label) {r : LabelHistoryRecord} (h : r.labelIds = []) :
    c.record r.edit = c := by
  unfold LabelHistoryRecord.edit
  cases r.kind <;> ext <;> simp [h, NetChange.record]

theorem net_record (c : LabelChange) (r : LabelHistoryRecord) :
    (c.record r).net = c.net.record r.edit :=
  net_foldl_touch r.kind r.messageId r.labelIds _

/-- The fold of a run keeps, for each message, the net change of its records. -/
theorem net_netChanges (id : MessageId) (run : List LabelHistoryRecord) :
    (((netChanges run).get id).getD .none).net = NetChange.netOf (edits id run) := by
  induction run using List.reverseRecOn with
  | nil => rfl
  | append_singleton run r ih =>
    rw [netChanges_concat, edits_concat, recordChange]
    by_cases here : r.messageId = id
    · rw [if_pos here, NetChange.netOf_concat, ← ih]
      split_ifs with empty
      · rw [record_no_labels _ empty]
      · simp [here, net_record]
    · rw [if_neg here, List.append_nil, ← ih]
      split_ifs with empty
      · rfl
      · simp [here]

/-! ## A label run in one step -/

theorem isSome_updateBatch (mirror : Mirror) (batch : List (MessageId × LabelChange))
    (id : MessageId) : (updateBatch mirror batch id).isSome = (mirror id).isSome := by
  simp [updateBatch]

/-- Two statements over different messages are one. -/
theorem updateBatch_append (mirror : Mirror) (batch rest : List (MessageId × LabelChange))
    (apart : ∀ id ∈ batch.map Prod.fst, id ∉ rest.map Prod.fst) :
    updateBatch (updateBatch mirror batch) rest = updateBatch mirror (batch ++ rest) := by
  funext id
  cases found : InsertionMap.find id batch with
  | none => simp [updateBatch, InsertionMap.find_append, found]
  | some c =>
    have named : id ∈ batch.map Prod.fst := by
      by_contra absent
      simp [InsertionMap.find_eq_none.mpr absent] at found
    have elsewhere := InsertionMap.find_eq_none.mpr (apart id named)
    simp only [updateBatch, InsertionMap.find_append, found, elsewhere, Option.map_map]
    rfl

theorem foldl_updateBatch (weight : MessageId → ℕ)
    (batches : List (List (MessageId × LabelChange))) (mirror : Mirror) (matched : ℕ)
    (nodup : (batches.flatten.map Prod.fst).Nodup) :
    batches.foldl
        (fun (mirror, matched) batch =>
          (updateBatch mirror batch, matched + ((updated mirror batch).map weight).sum))
        (mirror, matched) =
      (updateBatch mirror batches.flatten,
        matched + ((updated mirror batches.flatten).map weight).sum) := by
  induction batches generalizing mirror matched with
  | nil =>
    refine Prod.ext ?_ ?_
    · funext id
      simp [updateBatch, InsertionMap.find]
    · simp [updated]
  | cons batch rest ih =>
    rw [List.flatten_cons, List.map_append] at nodup
    obtain ⟨-, later, apart⟩ := List.nodup_append.mp nodup
    have same : updated (updateBatch mirror batch) rest.flatten = updated mirror rest.flatten := by
      simp [updated, isSome_updateBatch]
    rw [List.foldl_cons, ih _ _ later, same, updateBatch_append, List.flatten_cons]
    · simp [updated, add_assoc]
    · intro id here there
      exact apart id here id there rfl

/-- The records of a run that have labels and whose message has a row. -/
def matchedRecords (mirror : Mirror) (net : InsertionMap MessageId LabelChange) : ℕ :=
  (net.entries.map fun e => if (mirror e.1).isSome then e.2.records else 0).sum

theorem sum_updated (mirror : Mirror) (net : InsertionMap MessageId LabelChange) :
    ((updated mirror net.entries).map fun id => ((net.get id).map (·.records)).getD 0).sum =
      matchedRecords mirror net := by
  have weights : ∀ e ∈ net.entries, ((net.get e.1).map (·.records)).getD 0 = e.2.records := by
    intro e mem
    have found : net.get e.1 = some e.2 := InsertionMap.find_of_mem net.nodup mem
    simp [found]
  unfold matchedRecords updated
  generalize net.entries = es at weights
  induction es with
  | nil => rfl
  | cons e es ih =>
    have below := ih fun e mem => weights e (List.mem_cons_of_mem _ mem)
    have head := weights e List.mem_cons_self
    by_cases present : (mirror e.1).isSome
    · simp [present, head, below]
    · simp [present, below]

theorem applyLabelRun_eq (mirror : Mirror) (run : List LabelHistoryRecord) :
    applyLabelRun mirror run =
      (updateBatch mirror (netChanges run).entries, matchedRecords mirror (netChanges run)) := by
  have flat : (batches applyBatchSize (netChanges run).entries).flatten = (netChanges run).entries :=
    flatten_batches (by decide) _
  unfold applyLabelRun
  rw [foldl_updateBatch, flat, sum_updated, zero_add]
  rw [flat]
  exact (netChanges run).nodup

@[simp] theorem applyLabelRun_nil (mirror : Mirror) : applyLabelRun mirror [] = (mirror, 0) := by
  rw [applyLabelRun_eq]
  refine Prod.ext ?_ rfl
  funext id
  simp [updateBatch, netChanges, InsertionMap.empty, InsertionMap.find]

theorem isSome_applyLabelRun (mirror : Mirror) (run : List LabelHistoryRecord) (id : MessageId) :
    ((applyLabelRun mirror run).1 id).isSome = (mirror id).isSome := by
  rw [applyLabelRun_eq]
  exact isSome_updateBatch mirror _ id

/-- Every row goes through the edits of the run that name it, in order. -/
theorem view_applyLabelRun (mirror : Mirror) (run : List LabelHistoryRecord) (id : MessageId) :
    ((applyLabelRun mirror run).1 id).map MailMessage.view =
      (mirror id).map fun row =>
        ((edits id run).foldl SetEdit.apply row.view.1,
          (edits id run).foldl (SetEdit.flag "UNREAD") row.view.2) := by
  have net := net_netChanges id run
  have through : ∀ row : MailMessage,
      ((InsertionMap.find id (netChanges run).entries).map row.relabel |>.getD row).view =
        (row.relabel (((netChanges run).get id).getD .none)).view := by
    intro row
    change _ = (row.relabel ((InsertionMap.find id (netChanges run).entries).getD .none)).view
    cases InsertionMap.find id (netChanges run).entries with
    | none => exact (relabel_none row).symm
    | some c => rfl
  rw [applyLabelRun_eq]
  cases present : mirror id with
  | none => simp [updateBatch, present]
  | some row =>
    simp only [updateBatch, present, Option.map_some, through, view_relabel, net,
      NetChange.apply_netOf, NetChange.flag_netOf]

/-- One more record in a run is one more record applied. -/
theorem view_applyLabelRun_concat (mirror : Mirror) (run : List LabelHistoryRecord)
    (r : LabelHistoryRecord) (id : MessageId) :
    ((applyLabelRun mirror (run ++ [r])).1 id).map MailMessage.view =
      (((applyLabelRun mirror run).1 id).map MailMessage.view).map fun v =>
        if r.messageId = id then edited r v else v := by
  rw [view_applyLabelRun, view_applyLabelRun, edits_concat]
  split_ifs with here
  · simp [edited, Function.comp_def]
  · simp [Function.comp_def]

theorem matched_concat (mirror : Mirror) (run : List LabelHistoryRecord)
    (r : LabelHistoryRecord) :
    (applyLabelRun mirror (run ++ [r])).2 =
      (applyLabelRun mirror run).2 +
        if r.labelIds ≠ [] ∧ (mirror r.messageId).isSome then 1 else 0 := by
  simp only [applyLabelRun_eq, netChanges_concat, recordChange]
  generalize netChanges run = net
  by_cases empty : r.labelIds = []
  · simp [empty]
  · rw [if_neg empty]
    have grown := InsertionMap.sum_set
      (fun id c => if (mirror id).isSome then c.records else 0) net r.messageId
      (((net.get r.messageId).getD .none).record r)
    have counted : (((net.get r.messageId).getD .none).record r).records =
        ((net.get r.messageId).map (·.records)).getD 0 + 1 := by
      rw [LabelChange.record, records_foldl_touch]
      cases net.get r.messageId <;> rfl
    unfold matchedRecords
    by_cases present : (mirror r.messageId).isSome
    · simp only [present, if_true, counted] at grown
      simp only [empty, present, ne_eq, not_false_eq_true, and_self, if_true]
      omega
    · simp only [present, Bool.false_eq_true, if_false] at grown
      simp only [present, Bool.false_eq_true, and_false, if_false]
      have nothing : ((net.get r.messageId).map fun _ : LabelChange => 0).getD 0 = 0 := by
        cases net.get r.messageId <;> rfl
      omega

/-! ## A delete run in one step -/

theorem deleteBatch_append (mirror : Mirror) (ids rest : List MessageId) :
    deleteBatch (deleteBatch mirror ids) rest = deleteBatch mirror (ids ++ rest) := by
  funext id
  simp only [deleteBatch, List.mem_append]
  grind

def present (mirror : Mirror) (ids : List MessageId) : ℕ :=
  (ids.filter fun id => (mirror id).isSome).length

theorem foldl_deleteBatch (batches : List (List MessageId)) (mirror : Mirror) (removed : ℕ)
    (nodup : batches.flatten.Nodup) :
    batches.foldl
        (fun (mirror, removed) ids =>
          (deleteBatch mirror ids, removed + (ids.filter fun id => (mirror id).isSome).length))
        (mirror, removed) =
      (deleteBatch mirror batches.flatten, removed + present mirror batches.flatten) := by
  induction batches generalizing mirror removed with
  | nil =>
    refine Prod.ext ?_ rfl
    funext id
    simp [deleteBatch]
  | cons ids rest ih =>
    rw [List.flatten_cons] at nodup
    obtain ⟨-, later, apart⟩ := List.nodup_append.mp nodup
    have same : present (deleteBatch mirror ids) rest.flatten = present mirror rest.flatten := by
      unfold present
      congr 1
      refine List.filter_congr fun id there => ?_
      have elsewhere : id ∉ ids := fun here => apart id here id there rfl
      simp [deleteBatch, elsewhere]
    rw [List.foldl_cons, ih _ _ later, same, deleteBatch_append, List.flatten_cons]
    simp [present, add_assoc]

theorem applyDeleteRun_eq (mirror : Mirror) (ids : List MessageId) :
    applyDeleteRun mirror ids =
      (deleteBatch mirror (distinct ids), present mirror (distinct ids)) := by
  have flat : (batches applyBatchSize (distinct ids)).flatten = distinct ids :=
    flatten_batches (by decide) _
  unfold applyDeleteRun
  rw [foldl_deleteBatch, flat, zero_add]
  rw [flat]
  exact nodup_distinct ids

@[simp] theorem applyDeleteRun_nil (mirror : Mirror) : applyDeleteRun mirror [] = (mirror, 0) := by
  rw [applyDeleteRun_eq]
  refine Prod.ext ?_ rfl
  funext id
  simp [deleteBatch]

theorem applyDeleteRun_concat (mirror : Mirror) (ids : List MessageId) (id : MessageId) :
    applyDeleteRun mirror (ids ++ [id]) =
      (Function.update (applyDeleteRun mirror ids).1 id none,
        (applyDeleteRun mirror ids).2 +
          if ((applyDeleteRun mirror ids).1 id).isSome then 1 else 0) := by
  simp only [applyDeleteRun_eq]
  refine Prod.ext ?_ ?_
  · funext x
    simp only [deleteBatch, mem_distinct, Function.update_apply]
    grind
  · simp only [distinct_concat, put, mem_distinct, deleteBatch]
    by_cases named : id ∈ ids
    · simp [named]
    · by_cases there : (mirror id).isSome
      · simp [named, there, present]
      · simp [named, there, present]

/-! ## Records on mirrors with the same labels -/

theorem SameLabels.isSome_eq {a b : Mirror} (same : SameLabels a b) (id : MessageId) :
    (a id).isSome = (b id).isSome := by
  simpa using congrArg Option.isSome (same id)

theorem SameLabels.update {a b : Mirror} (same : SameLabels a b) (id : MessageId)
    {x y : Option MailMessage} (h : x.map MailMessage.view = y.map MailMessage.view) :
    SameLabels (Function.update a id x) (Function.update b id y) := by
  intro other
  by_cases here : other = id
  · subst here
    simpa using h
  · simpa [here] using same other

/-- What a label record leaves, seen as sets of labels. -/
theorem view_applyLabelRecord (s : Applied) (r : LabelHistoryRecord) (id : MessageId) :
    ((s.applyLabelRecord r).mirror id).map MailMessage.view =
      ((s.mirror id).map MailMessage.view).map fun v =>
        if r.messageId = id then edited r v else v := by
  unfold Applied.applyLabelRecord
  by_cases here : r.messageId = id
  · subst here
    cases present : s.mirror r.messageId with
    | none => simp [present]
    | some row =>
      by_cases empty : r.labelIds = []
      · have idle : edited r row.view = row.view := by
          unfold edited LabelHistoryRecord.edit
          cases r.kind <;> refine Prod.ext ?_ ?_ <;> simp [empty, SetEdit.apply, SetEdit.flag]
        simp [present, empty, idle]
      · simp [empty, view_relabelOne]
  · have aside : (fun v : Finset Label × Bool =>
        if r.messageId = id then edited r v else v) = fun v => v := by
      funext v
      simp [here]
    rw [aside, Option.map_id']
    cases s.mirror r.messageId with
    | none => rfl
    | some row => split_ifs <;> simp [Ne.symm here]

theorem labelChanges_applyLabelRecord (s : Applied) (r : LabelHistoryRecord) :
    (s.applyLabelRecord r).labelChanges =
      s.labelChanges +
        if r.labelIds ≠ [] ∧ (s.mirror r.messageId).isSome then 1 else 0 := by
  unfold Applied.applyLabelRecord
  cases s.mirror r.messageId with
  | none => simp
  | some row => by_cases empty : r.labelIds = [] <;> simp [empty]

@[simp] theorem added_applyLabelRecord (s : Applied) (r : LabelHistoryRecord) :
    (s.applyLabelRecord r).added = s.added := by
  unfold Applied.applyLabelRecord
  cases s.mirror r.messageId with
  | none => rfl
  | some row => by_cases empty : r.labelIds = [] <;> simp [empty]

@[simp] theorem deleted_applyLabelRecord (s : Applied) (r : LabelHistoryRecord) :
    (s.applyLabelRecord r).deleted = s.deleted := by
  unfold Applied.applyLabelRecord
  cases s.mirror r.messageId with
  | none => rfl
  | some row => by_cases empty : r.labelIds = [] <;> simp [empty]

theorem applyTombstone_eq (s : Applied) (id : MessageId) :
    s.applyTombstone id =
      { s with
        mirror := Function.update s.mirror id none
        deleted := s.deleted + if (s.mirror id).isSome then 1 else 0 } := by
  unfold Applied.applyTombstone
  cases absent : s.mirror id with
  | none =>
    have idle : Function.update s.mirror id none = s.mirror := by
      rw [← absent, Function.update_eq_self]
    simp [idle]
  | some row => rfl

namespace SameApplied

variable {a b : Applied}

theorem handleMessageAdded (h : SameApplied a b) (fetched : Option GmailMessageMetadata) :
    SameApplied (a.handleMessageAdded fetched) (b.handleMessageAdded fetched) := by
  unfold Applied.handleMessageAdded
  cases fetched with
  | none => exact h
  | some metadata =>
    by_cases skipped : isNonMail metadata.labelIds
    · simpa [skipped] using h
    · simp only [skipped, Bool.false_eq_true, if_false]
      exact ⟨h.mirror.update _ rfl, by simp [h.added, h.mirror.isSome_eq], h.deleted,
        h.labelChanges⟩

theorem applyTombstone (h : SameApplied a b) (id : MessageId) :
    SameApplied (a.applyTombstone id) (b.applyTombstone id) := by
  rw [applyTombstone_eq, applyTombstone_eq]
  exact ⟨h.mirror.update _ rfl, h.added, by simp [h.deleted, h.mirror.isSome_eq],
    h.labelChanges⟩

theorem applyLabelRecord (h : SameApplied a b) (r : LabelHistoryRecord) :
    SameApplied (a.applyLabelRecord r) (b.applyLabelRecord r) where
  mirror id := by rw [view_applyLabelRecord, view_applyLabelRecord, h.mirror id]
  added := by simp [h.added]
  deleted := by simp [h.deleted]
  labelChanges := by
    rw [labelChanges_applyLabelRecord, labelChanges_applyLabelRecord, h.labelChanges,
      h.mirror.isSome_eq]

theorem applyOne (h : SameApplied a b) (ev : GmailHistoryRecord × Option GmailMessageMetadata) :
    SameApplied (a.applyOne ev) (b.applyOne ev) := by
  obtain ⟨record, fetched⟩ := ev
  cases record with
  | added id labelIds =>
    by_cases skipped : isNonMail labelIds
    · simpa [Applied.applyOne, skipped] using h
    · simpa [Applied.applyOne, skipped] using h.handleMessageAdded fetched
  | deleted id => exact h.applyTombstone id
  | labels r => exact h.applyLabelRecord r

theorem refl (a : Applied) : SameApplied a a := ⟨fun _ => rfl, rfl, rfl, rfl⟩

theorem trans {c : Applied} (h : SameApplied a b) (h' : SameApplied b c) : SameApplied a c :=
  ⟨fun id => (h.mirror id).trans (h'.mirror id), h.added.trans h'.added,
    h.deleted.trans h'.deleted, h.labelChanges.trans h'.labelChanges⟩

end SameApplied

/-! ## The buffers -/

namespace EventLoop

theorem flushLabelRun_eq (s : EventLoop) :
    s.flushLabelRun =
      { s with
        mirror := (applyLabelRun s.mirror s.labelRun).1
        labelChanges := s.labelChanges + (applyLabelRun s.mirror s.labelRun).2
        labelRun := [] } := by
  unfold flushLabelRun
  split_ifs with empty
  · obtain ⟨done, labelRun, deleteRun⟩ := s
    subst empty
    simp
  · rfl

theorem flushDeleteRun_eq (s : EventLoop) :
    s.flushDeleteRun =
      { s with
        mirror := (applyDeleteRun s.mirror s.deleteRun).1
        deleted := s.deleted + (applyDeleteRun s.mirror s.deleteRun).2
        deleteRun := [] } := by
  unfold flushDeleteRun
  split_ifs with empty
  · obtain ⟨done, labelRun, deleteRun⟩ := s
    subst empty
    simp
  · rfl

/-- The loop's locals once nothing is buffered. -/
def drained (s : EventLoop) : EventLoop := s.flushLabelRun.flushDeleteRun

/-- One of the two buffers is empty. -/
def OneRun (s : EventLoop) : Prop := s.labelRun = [] ∨ s.deleteRun = []

theorem oneRun_applyRecord (s : EventLoop)
    (ev : GmailHistoryRecord × Option GmailMessageMetadata) : (s.applyRecord ev).OneRun := by
  obtain ⟨record, fetched⟩ := ev
  cases record with
  | added id labelIds =>
    left
    simp only [applyRecord]
    split_ifs <;> simp [handleAdded, flushDeleteRun_eq, flushLabelRun_eq]
  | deleted id => exact .inl (by simp [applyRecord, flushLabelRun_eq])
  | labels r => exact .inr (by simp [applyRecord, flushDeleteRun_eq])

theorem drained_of_empty {s : EventLoop} (labels : s.labelRun = []) (deletes : s.deleteRun = []) :
    s.drained = s := by
  simp [drained, flushLabelRun, flushDeleteRun, labels, deletes]

theorem drained_added (s : EventLoop) (id : MessageId) (labelIds : List Label)
    (fetched : Option GmailMessageMetadata) :
    (s.applyRecord (.added id labelIds, fetched)).drained.toApplied =
      s.drained.toApplied.applyOne (.added id labelIds, fetched) := by
  have emptied : s.drained.labelRun = [] ∧ s.drained.deleteRun = [] := by
    simp [drained, flushDeleteRun_eq, flushLabelRun_eq]
  have again : ∀ t : EventLoop, t.labelRun = s.drained.labelRun →
      t.deleteRun = s.drained.deleteRun → t.drained = t := fun t labels deletes =>
    drained_of_empty (labels.trans emptied.1) (deletes.trans emptied.2)
  by_cases skipped : isNonMail labelIds
  · have step : s.applyRecord (.added id labelIds, fetched) = s.drained := by
      simp [applyRecord, skipped, drained]
    rw [step, again _ rfl rfl]
    simp [Applied.applyOne, skipped]
  · have step : s.applyRecord (.added id labelIds, fetched) = s.drained.handleAdded fetched := by
      simp [applyRecord, skipped, drained]
    rw [step, again (s.drained.handleAdded fetched) rfl rfl]
    simp [Applied.applyOne, skipped, handleAdded]

theorem drained_deleted (s : EventLoop) (id : MessageId)
    (fetched : Option GmailMessageMetadata) :
    (s.applyRecord (.deleted id, fetched)).drained.toApplied =
      s.drained.toApplied.applyTombstone id := by
  simp [applyRecord, drained, flushLabelRun_eq, flushDeleteRun_eq, applyTombstone_eq,
    applyDeleteRun_concat, add_assoc]

theorem drained_labels {s : EventLoop} (one : s.OneRun) (r : LabelHistoryRecord)
    (fetched : Option GmailMessageMetadata) :
    SameApplied (s.applyRecord (.labels r, fetched)).drained.toApplied
      (s.drained.toApplied.applyLabelRecord r) := by
  -- The tombstones go first now: they commute with a label run that is empty.
  have first : ∃ mirror deleted, s.drained.toApplied =
        ⟨(applyLabelRun mirror s.labelRun).1, s.added, deleted,
          s.labelChanges + (applyLabelRun mirror s.labelRun).2⟩ ∧
      (s.applyRecord (.labels r, fetched)).drained.toApplied =
        ⟨(applyLabelRun mirror (s.labelRun ++ [r])).1, s.added, deleted,
          s.labelChanges + (applyLabelRun mirror (s.labelRun ++ [r])).2⟩ := by
    refine ⟨s.flushDeleteRun.mirror, s.flushDeleteRun.deleted, ?_, ?_⟩
    · rcases one with none | none <;>
        simp [drained, flushLabelRun_eq, flushDeleteRun_eq, none]
    · simp [applyRecord, drained, flushLabelRun_eq, flushDeleteRun_eq]
  obtain ⟨mirror, deleted, before, after⟩ := first
  rw [before, after]
  refine ⟨fun id => ?_, by simp, by simp, ?_⟩
  · rw [view_applyLabelRecord]
    exact view_applyLabelRun_concat mirror s.labelRun r id
  · rw [labelChanges_applyLabelRecord]
    simp only [matched_concat, isSome_applyLabelRun, add_assoc]

/-- A record buffered is a record applied, once the buffers are drained. -/
theorem drained_applyRecord {s : EventLoop} (one : s.OneRun)
    (ev : GmailHistoryRecord × Option GmailMessageMetadata) :
    SameApplied (s.applyRecord ev).drained.toApplied (s.drained.toApplied.applyOne ev) := by
  obtain ⟨record, fetched⟩ := ev
  cases record with
  | added id labelIds =>
    rw [drained_added]
    exact .refl _
  | deleted id =>
    rw [drained_deleted]
    exact .refl _
  | labels r => exact drained_labels one r fetched

theorem drained_foldl {s : EventLoop} {t : Applied} (one : s.OneRun)
    (same : SameApplied s.drained.toApplied t)
    (events : List (GmailHistoryRecord × Option GmailMessageMetadata)) :
    SameApplied (events.foldl applyRecord s).drained.toApplied (events.foldl Applied.applyOne t) := by
  induction events generalizing s t with
  | nil => exact same
  | cons ev events ih =>
    refine ih (oneRun_applyRecord s ev) ?_
    exact (drained_applyRecord one ev).trans (same.applyOne ev)

end EventLoop

/-! ## `is_unread` and `UNREAD` -/

theorem lockstep_iff (mirror : Mirror) :
    Lockstep mirror ↔
      ∀ id, ∀ v ∈ (mirror id).map MailMessage.view, v.2 = decide ("UNREAD" ∈ v.1) := by
  unfold Lockstep MailMessage.view
  refine forall_congr' fun id => ?_
  cases mirror id with
  | none => simp
  | some row =>
    have shadow : (row.isUnread = true ↔ "UNREAD" ∈ row.labelIds) ↔
        row.isUnread = decide ("UNREAD" ∈ row.labelIds.toFinset) := by
      cases row.isUnread <;> simp
    simp only [Option.mem_def, Option.map_some, Option.some.injEq, forall_eq', shadow]

theorem Lockstep.of_sameLabels {a b : Mirror} (h : Lockstep a) (same : SameLabels a b) :
    Lockstep b := by
  rw [lockstep_iff] at h ⊢
  intro id v mem
  rw [← same id] at mem
  exact h id v mem

theorem Lockstep.update {mirror : Mirror} (h : Lockstep mirror) (id : MessageId)
    {x : Option MailMessage} (hx : ∀ row ∈ x, (row.isUnread = true ↔ "UNREAD" ∈ row.labelIds)) :
    Lockstep (Function.update mirror id x) := by
  intro other row mem
  by_cases here : other = id
  · subst here
    exact hx row (by simpa using mem)
  · exact h other row (by simpa [here] using mem)

theorem Lockstep.applyLabelRecord {s : Applied} (h : Lockstep s.mirror)
    (r : LabelHistoryRecord) : Lockstep (s.applyLabelRecord r).mirror := by
  rw [lockstep_iff] at h ⊢
  intro id v mem
  rw [view_applyLabelRecord] at mem
  obtain ⟨w, before, rfl⟩ := Option.mem_map.mp mem
  have tracked := h id w before
  split_ifs
  · simp only [edited, tracked, SetEdit.flag_eq_decide]
  · exact tracked

theorem Lockstep.applyOne {s : Applied} (h : Lockstep s.mirror)
    (ev : GmailHistoryRecord × Option GmailMessageMetadata) : Lockstep (s.applyOne ev).mirror := by
  obtain ⟨record, fetched⟩ := ev
  cases record with
  | added id labelIds =>
    simp only [Applied.applyOne, Applied.handleMessageAdded]
    split_ifs with skipped
    · exact h
    · cases fetched with
      | none => exact h
      | some metadata =>
        by_cases nonMail : isNonMail metadata.labelIds
        · simpa [nonMail] using h
        · simp only [nonMail, Bool.false_eq_true, if_false]
          exact h.update _ (by simp)
  | deleted id =>
    simp only [Applied.applyOne, applyTombstone_eq]
    exact h.update id (by simp)
  | labels r => exact h.applyLabelRecord r

theorem Lockstep.applyOneByOne {mirror : Mirror} (h : Lockstep mirror)
    (events : List (GmailHistoryRecord × Option GmailMessageMetadata)) :
    Lockstep (applyOneByOne mirror events).mirror := by
  have run : ∀ s : Applied, Lockstep s.mirror →
      Lockstep (events.foldl Applied.applyOne s).mirror := by
    induction events with
    | nil => exact fun _ here => here
    | cons ev events ih => exact fun s here => ih _ (here.applyOne ev)
  exact run _ h

/-! ## The main result -/

/-- The event loop reaches the labels, and counts the records, of the application one by
one, and it keeps `is_unread` in step with the `UNREAD` label. -/
theorem applyEvents_eq_applyOneByOne (mirror : Mirror) (lockstep : Lockstep mirror)
    (events : List (GmailHistoryRecord × Option GmailMessageMetadata)) :
    SameApplied (applyEvents mirror events) (applyOneByOne mirror events) ∧
      Lockstep (applyEvents mirror events).mirror := by
  have same : SameApplied (applyEvents mirror events) (applyOneByOne mirror events) :=
    EventLoop.drained_foldl (s := .start mirror) (.inl rfl) (.refl _) events
  refine ⟨same, (lockstep.applyOneByOne events).of_sameLabels fun id => ?_⟩
  exact (same.mirror id).symm

/-- One unread message and a run that reads it, marks it and drops it, in two batches. -/
def unreadMail : Mirror := fun id => if id = "m" then some ⟨["INBOX", "UNREAD"], true⟩ else none

theorem applyEvents_eq_applyOneByOne_unreadMail :
    let events : List (GmailHistoryRecord × Option GmailMessageMetadata) :=
      [(.labels ⟨.labelsRemoved, "m", ["UNREAD"]⟩, none),
        (.labels ⟨.labelsAdded, "m", ["STARRED", "UNREAD"]⟩, none),
        (.added "n" [], some ⟨"n", ["INBOX"]⟩), (.deleted "m", none)]
    (applyEvents unreadMail events).labelChanges = 2 ∧
      SameApplied (applyEvents unreadMail events) (applyOneByOne unreadMail events) ∧
      Lockstep (applyEvents unreadMail events).mirror := by
  refine ⟨by decide +kernel, applyEvents_eq_applyOneByOne unreadMail ?_ _⟩
  intro id row mem
  unfold unreadMail at mem
  split_ifs at mem with here
  · obtain rfl := Option.some.inj mem
    simp
  · cases mem

end DeclutrMail.Sync
