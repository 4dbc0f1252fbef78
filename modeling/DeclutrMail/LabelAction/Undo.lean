import DeclutrMail.LabelAction.Refinement

/-!
# The way back of one message

The groups of a reverse job apply to each message of the job the one change that undoes it,
`back`, in Gmail and in the mirror, and applying it again changes nothing.
-/

namespace DeclutrMail.LabelAction

variable {u : UserLabels} {job : ActionJob} {m : MessageId} {ids : List MessageId}
  {labels : Finset Label} {row : Option MailMessage}

/-! ## The changes of one message -/

/-- The labels that a verb adds. -/
def addedLabels (u : UserLabels) (verb : ActionVerb) : List Label :=
  ((labelChangeForVerb verb).forward.resolved u).addLabelIds

theorem resolve_inbox (u : UserLabels) : u.resolve "INBOX" = "INBOX" := by
  simp [UserLabels.resolve, systemLabelIds]

theorem forwardChange_eq (u : UserLabels) (job : ActionJob) :
    forwardChange u job = ⟨addedLabels u job.verb, ["INBOX"]⟩ := by
  unfold forwardChange addedLabels
  cases job.verb <;> simp [labelChangeForVerb, LabelChange.resolved, resolve_inbox]

theorem reverse_resolved (u : UserLabels) (verb : ActionVerb) :
    (labelChangeForVerb verb).reverse.resolved u = ⟨["INBOX"], addedLabels u verb⟩ := by
  unfold addedLabels
  cases verb <;> simp [labelChangeForVerb, LabelChange.resolved, resolve_inbox]

/-- The labels of a row, as a set. -/
def labelSet (row : Option MailMessage) : Option (Finset Label) := row.map (·.labelIds.toFinset)

/-- A message whose labels a forward job and its Undo leave as they were: it has none of the
labels that the verb adds, and Gmail and the mirror agree on whether it is in the inbox. -/
structure Restorable (added : List Label) (labels : Finset Label) (row : Option MailMessage) :
    Prop where
  absent : ∀ l ∈ added, l ∉ labels
  absentMirror : ∀ set, labelSet row = some set → ∀ l ∈ added, l ∉ set
  agree : ∀ set, labelSet row = some set → ("INBOX" ∈ labels ↔ "INBOX" ∈ set)

/-- The message was in the inbox, as the mirror says. -/
def inInbox (row : Option MailMessage) : Bool :=
  row.any fun row => decide ("INBOX" ∈ row.labelIds)

/-- The way back for one message. -/
def back (added : List Label) (row : Option MailMessage) : LabelChange :=
  if inInbox row then ⟨["INBOX"], added⟩ else ⟨[], added⟩

theorem back_exact {added : List Label} {set : Finset Label} (absent : ∀ l ∈ added, l ∉ set)
    (placed : inInbox row = true ↔ "INBOX" ∈ set) :
    (back added row).apply (LabelChange.apply ⟨added, ["INBOX"]⟩ set) = set ∧
      (back added row).apply set = set := by
  unfold back
  by_cases inbox : inInbox row = true
  · have there : ∀ l ∈ ["INBOX"], l ∈ set := by simpa using placed.mp inbox
    rw [if_pos inbox]
    exact ⟨undo_exact there absent, apply_restored there absent⟩
  · have gone : ∀ l ∈ ["INBOX"], l ∉ set := by
      simpa using fun there => inbox (placed.mpr there)
    rw [if_neg inbox]
    exact ⟨undo_exact_without absent gone, apply_restored (by simp) absent⟩

theorem inInbox_iff {set : Finset Label} (h : labelSet row = some set) :
    inInbox row = true ↔ "INBOX" ∈ set := by
  obtain ⟨message, rfl, rfl⟩ := Option.map_eq_some_iff.mp h
  simp [inInbox]

theorem Restorable.gmail {added : List Label} (h : Restorable added labels row)
    (known : row ≠ none) :
    (back added row).apply (LabelChange.apply ⟨added, ["INBOX"]⟩ labels) = labels ∧
      (back added row).apply labels = labels := by
  obtain ⟨message, rfl⟩ := Option.ne_none_iff_exists'.mp known
  exact back_exact h.absent ((inInbox_iff rfl).trans (h.agree _ rfl).symm)

theorem Restorable.mirror {added : List Label} {set : Finset Label}
    (h : Restorable added labels row) (there : labelSet row = some set) :
    (back added row).apply (LabelChange.apply ⟨added, ["INBOX"]⟩ set) = set ∧
      (back added row).apply set = set :=
  back_exact (h.absentMirror set there) (inInbox_iff there)

/-! ## The mirror -/

theorem labelSet_updateMirror (ids : List MessageId) (change : LabelChange)
    (mail : MessageId → Option MailMessage) :
    labelSet (updateMirror ids change mail m) =
      if m ∈ ids then (labelSet (mail m)).map change.apply else labelSet (mail m) := by
  unfold updateMirror labelSet
  split_ifs
  · cases mail m with
    | none => rfl
    | some message => simp [toFinset_mirror]
  · rfl

/-- The groups of a message all lead back, so applying them is applying the way back. -/
theorem labelSet_updateMirrors {change : LabelChange} {groups : List ReverseGroup}
    (lead : ∀ g ∈ groups, m ∈ g.ids → g.change = change)
    (mail : MessageId → Option MailMessage) :
    labelSet (updateMirrors groups mail m) =
      if ∃ g ∈ groups, m ∈ g.ids then (labelSet (mail m)).map change.apply
      else labelSet (mail m) := by
  induction groups generalizing mail with
  | nil => simp [updateMirrors]
  | cons g groups ih =>
    have rest := ih (fun g mem => lead g (List.mem_cons_of_mem _ mem))
      (updateMirror g.ids g.change mail)
    rw [updateMirrors, List.foldl_cons]
    refine rest.trans ?_
    rw [labelSet_updateMirror]
    by_cases here : m ∈ g.ids
    · rw [if_pos here, lead g (List.mem_cons_self ..) here,
        if_pos (c := ∃ g' ∈ g :: groups, m ∈ g'.ids) ⟨g, List.mem_cons_self .., here⟩]
      split_ifs
      · cases labelSet (mail m) with
        | none => rfl
        | some set => simp [apply_apply]
      · rfl
    · rw [if_neg here]
      have same : (∃ g' ∈ g :: groups, m ∈ g'.ids) ↔ ∃ g' ∈ groups, m ∈ g'.ids := by
        simp [here]
      simp only [same]

/-! ## The groups of a message -/

/-- The groups of a reverse job lead its messages back, and touch no others. -/
structure LeadsBack (change : LabelChange) (m : MessageId) (ids : List MessageId)
    (groups : List ReverseGroup) : Prop where
  change : ∀ g ∈ groups, m ∈ g.ids → g.change = change
  covered : (∃ g ∈ groups, m ∈ g.ids) ↔ m ∈ ids

theorem leadsBack_single {change : LabelChange} {g : ReverseGroup}
    (h : m ∈ g.ids → g.change = change) : LeadsBack change m g.ids [g] := by
  constructor
  · intro g' mem
    obtain rfl := List.mem_singleton.mp mem
    exact h
  · simp

theorem leadsBack_split {inbox ids : List MessageId} {inChange outChange change : LabelChange}
    (inside : m ∈ ids → m ∈ inbox → inChange = change)
    (outside : m ∈ ids → m ∉ inbox → outChange = change) :
    LeadsBack change m ids
      ([⟨ids.filter (· ∈ inbox), inChange⟩, ⟨ids.filter (· ∉ inbox), outChange⟩].filter
        fun group : ReverseGroup => group.ids.length > 0) := by
  constructor
  · intro g mem here
    obtain ⟨mem, -⟩ := List.mem_filter.mp mem
    rcases List.mem_cons.mp mem with rfl | mem
    · obtain ⟨known, placed⟩ := List.mem_filter.mp here
      exact inside known (of_decide_eq_true placed)
    · obtain rfl := List.mem_singleton.mp mem
      obtain ⟨known, placed⟩ := List.mem_filter.mp here
      exact outside known (of_decide_eq_true placed)
  · constructor
    · rintro ⟨g, mem, here⟩
      obtain ⟨mem, -⟩ := List.mem_filter.mp mem
      rcases List.mem_cons.mp mem with rfl | mem
      · exact (List.mem_filter.mp here).1
      · obtain rfl := List.mem_singleton.mp mem
        exact (List.mem_filter.mp here).1
    · intro known
      by_cases placed : m ∈ inbox
      · have here : m ∈ ids.filter (· ∈ inbox) := List.mem_filter.mpr ⟨known, by simpa using placed⟩
        exact ⟨_, List.mem_filter.mpr ⟨List.mem_cons_self ..,
          by simpa using List.length_pos_of_mem here⟩, here⟩
      · have here : m ∈ ids.filter (· ∉ inbox) := List.mem_filter.mpr ⟨known, by simpa using placed⟩
        exact ⟨_, List.mem_filter.mpr ⟨List.mem_cons_of_mem _ (List.mem_cons_self ..),
          by simpa using List.length_pos_of_mem here⟩, here⟩

theorem LeadsBack.resolved {change : LabelChange} {groups : List ReverseGroup}
    (h : LeadsBack change m ids groups) :
    LeadsBack (change.resolved u) m ids
      (groups.map fun group => ⟨group.ids, group.change.resolved u⟩) := by
  constructor
  · intro g mem here
    obtain ⟨g', mem', rfl⟩ := List.mem_map.mp mem
    exact congrArg (LabelChange.resolved u) (h.change g' mem' here)
  · rw [← h.covered]
    simp

/-- The way back, by label names. -/
theorem resolved_back (u : UserLabels) (verb : ActionVerb) (row : Option MailMessage) :
    LabelChange.resolved u (if inInbox row then (labelChangeForVerb verb).reverse
      else ⟨[], (labelChangeForVerb verb).reverse.removeLabelIds⟩) =
        back (addedLabels u verb) row := by
  have whole := reverse_resolved u verb
  have half : LabelChange.resolved u ⟨[], (labelChangeForVerb verb).reverse.removeLabelIds⟩ =
      ⟨[], addedLabels u verb⟩ := by
    rw [LabelChange.resolved, List.map_nil]
    exact congrArg (LabelChange.mk []) (congrArg LabelChange.removeLabelIds whole)
  unfold back
  split_ifs
  · exact whole
  · exact half

theorem reverseChangeGroups_uniform {verb : ActionVerb} (h : verb ≠ .delete)
    (reach : SenderActionReach) (change : LabelChange) (ids : List MessageId)
    (payload : Option UndoPayload) :
    reverseChangeGroups verb reach change ids payload = [⟨ids, change⟩] := by
  unfold reverseChangeGroups
  rw [if_pos (by simp [h])]

theorem reverseChangeGroups_split (reach : SenderActionReach) (change : LabelChange)
    {ids inbox : List MessageId} (nonempty : ids ≠ []) :
    reverseChangeGroups .delete reach change ids
        (some (buildUndoPayload .delete ids (some inbox) reach)) =
      [⟨ids.filter (· ∈ inbox), change⟩, ⟨ids.filter (· ∉ inbox), ⟨[], change.removeLabelIds⟩⟩].filter
        fun group : ReverseGroup => group.ids.length > 0 := by
  unfold reverseChangeGroups
  rw [if_neg (by simp [nonempty])]
  rfl

/-- A payload without a split leads back the messages that were all in the inbox. -/
theorem leadsBack_uniform {payload : Option UndoPayload} (verb : job.verb ≠ .delete)
    (inbox : m ∈ job.resolvedMessageIds → inInbox row = true) :
    LeadsBack (back (addedLabels u job.verb) row) m job.resolvedMessageIds
      (revertGroups u job payload) := by
  rw [← resolved_back]
  refine LeadsBack.resolved ?_
  rw [reverseChangeGroups_uniform verb]
  refine leadsBack_single (g := ⟨job.resolvedMessageIds, _⟩) fun here => ?_
  rw [if_pos (inbox here)]

/-- A payload with the split of a Delete leads each message back to where it was. -/
theorem leadsBack_delete (inbox : List MessageId) (verb : job.verb = .delete)
    (nonempty : job.resolvedMessageIds ≠ [])
    (placed : m ∈ job.resolvedMessageIds → (m ∈ inbox ↔ inInbox row = true)) :
    LeadsBack (back (addedLabels u job.verb) row) m job.resolvedMessageIds
      (revertGroups u job (some (buildUndoPayload .delete job.resolvedMessageIds (some inbox)
        job.reach))) := by
  rw [← resolved_back]
  refine LeadsBack.resolved ?_
  rw [verb, reverseChangeGroups_split job.reach _ nonempty]
  refine leadsBack_split (fun here isIn => ?_) fun here isOut => ?_
  · rw [if_pos ((placed here).mp isIn)]
  · rw [if_neg fun shown => isOut ((placed here).mpr shown)]

end DeclutrMail.LabelAction
