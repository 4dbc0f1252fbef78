import Mathlib.Data.Finset.Basic
import Mathlib.Data.Finset.SDiff
import DeclutrMail.Collections.Batches

/-!
# Label changes and their undo

The label delta of each verb comes from the Action Registry, as a forward change and its
reverse. The reverse of a Delete is split by what the undo journal remembers: mail that was
in the inbox goes back there, the rest stays in the archive.

A change is applied twice, to the labels in Gmail (`LabelChange.apply`, on sets) and to
the local mirror (`LabelChange.mirror`, the SQL expression on arrays); the two agree
(`toFinset_mirror`). `undo_exact` says when forward and reverse cancel.
-/

namespace DeclutrMail.LabelAction

abbrev MessageId := String

abbrev Label := String

/-- The verbs whose pipeline is complete. -/
inductive ActionVerb
  | archive
  | later
  | delete
  deriving DecidableEq

inductive SenderActionReach
  | inboxOnly
  | allMail
  deriving DecidableEq

/-- An absent list of the source is an empty one. -/
structure LabelChange where
  addLabelIds : List Label
  removeLabelIds : List Label
  deriving DecidableEq

structure LabelChangePair where
  forward : LabelChange
  reverse : LabelChange

def labelChangeForVerb : ActionVerb → LabelChangePair
  | .archive => ⟨⟨[], ["INBOX"]⟩, ⟨["INBOX"], []⟩⟩
  | .later => ⟨⟨["DeclutrMail/Later"], ["INBOX"]⟩, ⟨["INBOX"], ["DeclutrMail/Later"]⟩⟩
  | .delete => ⟨⟨["TRASH"], ["INBOX"]⟩, ⟨["INBOX"], ["TRASH"]⟩⟩

def systemLabelIds : List Label :=
  ["INBOX", "TRASH", "UNREAD", "SPAM", "STARRED", "IMPORTANT", "SENT", "DRAFT"]

/-- The ids Gmail gives to user labels by name, where they exist and once they are created.
They are none of the system labels. -/
structure UserLabels where
  id : String → Label
  notSystem : ∀ name, id name ∉ systemLabelIds

/-- A label name as the id that Gmail accepts. -/
def UserLabels.resolve (u : UserLabels) (label : Label) : Label :=
  if label ∈ systemLabelIds then label else u.id label

/-- The change with its names resolved, the one that Gmail and the mirror get. -/
def LabelChange.resolved (u : UserLabels) (change : LabelChange) : LabelChange :=
  ⟨change.addLabelIds.map u.resolve, change.removeLabelIds.map u.resolve⟩

/-! ## Applying a change -/

/-- `messages.batchModify` on one message. -/
def LabelChange.apply (change : LabelChange) (labels : Finset Label) : Finset Label :=
  labels \ change.removeLabelIds.toFinset ∪ change.addLabelIds.toFinset

/-- `buildLabelMirrorExpr`: a chain of `array_remove`, then each addition unless present. -/
def LabelChange.mirror (change : LabelChange) (labelIds : List Label) : List Label :=
  change.addLabelIds.foldl Batches.put
    (change.removeLabelIds.foldl (fun labels label => labels.filter (· ≠ label)) labelIds)

theorem mem_foldl_filter {removed labels : List Label} {x : Label} :
    x ∈ removed.foldl (fun labels label => labels.filter (· ≠ label)) labels ↔
      x ∈ labels ∧ x ∉ removed := by
  induction removed generalizing labels with
  | nil => simp
  | cons label removed ih =>
    rw [List.foldl_cons, ih]
    simp only [List.mem_filter, decide_eq_true_eq, List.mem_cons, not_or, and_assoc]

theorem toFinset_mirror (change : LabelChange) (labelIds : List Label) :
    (change.mirror labelIds).toFinset = change.apply labelIds.toFinset := by
  ext x
  simp only [LabelChange.mirror, LabelChange.apply, List.mem_toFinset, Batches.mem_foldl_put,
    mem_foldl_filter, Finset.mem_union, Finset.mem_sdiff]

/-! ## Undo -/

/-- The Inbox placement that a Delete stores with its job before the first request;
`inboxMessageIds` is absent where it is not known. -/
structure DeleteUndo where
  messageIds : List MessageId
  inboxMessageIds : Option (List MessageId)
  deriving DecidableEq

/-- `storedDeleteUndo`: refuse a snapshot that does not cover the ids, and narrow it. -/
def storedDeleteUndo (snapshot : Option DeleteUndo) (ids : List MessageId) :
    Except Unit (Option DeleteUndo) :=
  match snapshot with
  | none => .ok none
  | some stored =>
    if ids.any (· ∉ stored.messageIds) ||
        (stored.inboxMessageIds.getD []).any (· ∉ stored.messageIds) then .error ()
    else .ok (some ⟨ids, stored.inboxMessageIds.map fun inbox => inbox.filter (· ∈ ids)⟩)

/-- `undo_journal.payload`. -/
structure UndoPayload where
  kind : ActionVerb
  messageIds : List MessageId
  inboxMessageIds : Option (List MessageId)
  inboxPlacementUnknown : Bool
  reach : Option SenderActionReach
  deriving DecidableEq

def buildUndoPayload (verb : ActionVerb) (messageIds : List MessageId)
    (inboxMessageIds : Option (List MessageId)) (reach : SenderActionReach) : UndoPayload :=
  match verb with
  | .delete => ⟨.delete, messageIds, inboxMessageIds, inboxMessageIds.isNone,
      if reach = .allMail then some .allMail else none⟩
  | verb => ⟨verb, messageIds, none, false, none⟩

/-- The messages of a reverse job that get one change. -/
structure ReverseGroup where
  ids : List MessageId
  change : LabelChange
  deriving DecidableEq

/-- `reverseChangeGroups`, given the payload that the journal holds for the token. -/
def reverseChangeGroups (verb : ActionVerb) (reach : SenderActionReach)
    (reverseChange : LabelChange) (ids : List MessageId) (payload : Option UndoPayload) :
    List ReverseGroup :=
  if verb ≠ .delete || ids.isEmpty then [⟨ids, reverseChange⟩]
  else
    let archiveChange : LabelChange := ⟨[], reverseChange.removeLabelIds⟩
    match payload.bind (·.inboxMessageIds) with
    | none =>
      let wasAllMail := payload.any (·.inboxPlacementUnknown) ||
        decide (payload.bind (·.reach) = some .allMail) || decide (reach = .allMail)
      if wasAllMail then [⟨ids, archiveChange⟩] else [⟨ids, reverseChange⟩]
    | some inbox =>
      [⟨ids.filter (· ∈ inbox), reverseChange⟩, ⟨ids.filter (· ∉ inbox), archiveChange⟩].filter
        fun group => group.ids.length > 0

/-! ## When undo is exact -/

/-- Going forward and back leaves a set as it was when the removed labels were there and
the added ones were not. -/
theorem undo_exact {add remove : List Label} {labels : Finset Label}
    (there : ∀ l ∈ remove, l ∈ labels) (absent : ∀ l ∈ add, l ∉ labels) :
    LabelChange.apply ⟨remove, add⟩ (LabelChange.apply ⟨add, remove⟩ labels) = labels := by
  ext x
  have h := there x
  have h' := absent x
  simp only [LabelChange.apply, Finset.mem_union, Finset.mem_sdiff, List.mem_toFinset]
  tauto

/-- Going back without putting the removed labels again: they must not have been there. -/
theorem undo_exact_without {add remove : List Label} {labels : Finset Label}
    (absent : ∀ l ∈ add, l ∉ labels) (gone : ∀ l ∈ remove, l ∉ labels) :
    LabelChange.apply ⟨[], add⟩ (LabelChange.apply ⟨add, remove⟩ labels) = labels := by
  ext x
  have h := absent x
  have h' := gone x
  simp only [LabelChange.apply, Finset.mem_union, Finset.mem_sdiff, List.mem_toFinset,
    List.not_mem_nil, or_false]
  tauto

/-- A reverse change leaves alone what it would restore. -/
theorem apply_restored {add remove : List Label} {labels : Finset Label}
    (there : ∀ l ∈ add, l ∈ labels) (absent : ∀ l ∈ remove, l ∉ labels) :
    LabelChange.apply ⟨add, remove⟩ labels = labels := by
  ext x
  have h := there x
  have h' := absent x
  simp only [LabelChange.apply, Finset.mem_union, Finset.mem_sdiff, List.mem_toFinset]
  tauto

end DeclutrMail.LabelAction
