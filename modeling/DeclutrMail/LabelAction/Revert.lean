import DeclutrMail.LabelAction.Mark

/-!
# A reverse delivery keeps to the protocol

Its groups do not overlap, so what has landed of one group stays while the others are sent.
-/

namespace DeclutrMail.LabelAction

open Interleaving Discipline Batches

variable {u : UserLabels} {S : Scope} {root job row : ActionJob} {t : Delivery} {w : World}
  {ids chunk sofar : List MessageId} {change : LabelChange} {token : UndoToken}
  {payload : Option UndoPayload} {finished groups : List ReverseGroup} {group : ReverseGroup}

/-! ## The groups -/

/-- No message is in two groups. -/
def Apart (groups : List ReverseGroup) : Prop :=
  groups.Pairwise fun g g' => ∀ m ∈ g'.ids, m ∉ g.ids

theorem apart_reverseChangeGroups (verb : ActionVerb) (reach : SenderActionReach)
    (ids : List MessageId) :
    Apart (reverseChangeGroups verb reach change ids payload) := by
  unfold reverseChangeGroups
  split_ifs with uniform
  · exact List.pairwise_singleton _ _
  · simp only
    split
    · split_ifs
      · exact List.pairwise_singleton _ _
      · exact List.pairwise_singleton _ _
    · rename_i inbox _
      refine List.Pairwise.filter _ (List.pairwise_pair.mpr fun m archived placed => ?_)
      have out : m ∉ inbox := of_decide_eq_true (List.mem_filter.mp archived).2
      exact out (of_decide_eq_true (List.mem_filter.mp placed).2)

theorem apart_revertGroups : Apart (revertGroups u job payload) := by
  rw [Apart, revertGroups, List.pairwise_map]
  exact apart_reverseChangeGroups job.verb job.reach job.resolvedMessageIds

theorem SameRevert.revertGroups (h : SameRevert job row) :
    revertGroups u row payload = revertGroups u job payload := by
  rw [LabelAction.revertGroups, h.verb, h.reach, h.resolvedMessageIds, LabelAction.revertGroups]

theorem does_resolveGroups (P : Local u S root) (groups : List ReverseGroup) :
    Does u S root t P (resolveGroups groups)
      (fun resolved => P.and (.fact (resolved = groups.map fun group =>
        ⟨group.ids, group.change.resolved u⟩))) fun _ => P := by
  induction groups with
  | nil => exact Does.done fun w _ h => ⟨h, rfl⟩
  | cons group groups ih =>
    refine Does.bind (does_resolveLabelChange P _) fun change => ?_
    refine Does.of_fact (fun w _ h => h.2) fun resolved => ?_
    refine Does.bind (ih.pre fun w _ h => h.1) fun rest => ?_
    refine Does.done fun w _ h => ⟨h.1, ?_⟩
    rw [Assertion.fact_holds, List.map_cons, resolved, h.2]

/-! ## Requests to Gmail -/

/-- A delivery that knows its row and the payload of its token. -/
def undoing (job : ActionJob) (token : UndoToken) (payload : Option UndoPayload) :
    Local u S root := (reverting job).and (holdsPayload token payload)

/-- One request of a group. `finished` groups have landed, and so has `sofar` of this one. -/
theorem does_sendReverse_request (issued : job.undoToken = some token)
    (known : group ∈ revertGroups u job payload) (chunkIn : ∀ m ∈ chunk, m ∈ group.ids)
    (apart : ∀ g ∈ finished, ∀ m ∈ group.ids, m ∉ g.ids) :
    Does u S root t
      ((undoing job token payload).and ((landedAll finished).and (landed sofar group.change)))
      (await (.sendReverse chunk group.change))
      (fun _ => (undoing job token payload).and
        ((landedAll finished).and (landed (sofar ++ chunk) group.change)))
      fun _ => anything := by
  refine writes (fun _ _ => rfl) (fun w _ h f a w' took => ?_) fun _ _ _ _ _ => trivial
  obtain ⟨⟨⟨row, there, same⟩, held⟩, before, sofar⟩ := h
  obtain ⟨rfl, rfl⟩ := Prod.mk.inj (Option.some.inj took)
  have mine : group ∈ revertGroups u row (w.undoPayload token) := by
    rw [same.revertGroups, show w.undoPayload token = payload from held]
    exact known
  refine ⟨⟨rfl, .inr (.sendReverse w chunk row token group there (same.undoToken.trans issued) mine
    chunkIn)⟩, ⟨⟨⟨row, there, same⟩, held⟩, fun g mem => ?_, sofar.batchModify rfl⟩,
    fun _ _ => trivial⟩
  exact (before g mem).apart rfl fun m now => apart g mem m (chunkIn m now)

theorem does_sendChunks (sofar : List MessageId) (issued : job.undoToken = some token)
    (known : group ∈ revertGroups u job payload)
    (apart : ∀ g ∈ finished, ∀ m ∈ group.ids, m ∉ g.ids) {chunks : List (List MessageId)}
    (chunksIn : ∀ chunk ∈ chunks, ∀ m ∈ chunk, m ∈ group.ids) :
    Does u S root t
      ((undoing job token payload).and ((landedAll finished).and (landed sofar group.change)))
      (sendChunks group.change chunks)
      (fun _ => (undoing job token payload).and
        ((landedAll finished).and (landed (sofar ++ chunks.flatten) group.change)))
      fun _ => anything := by
  induction chunks generalizing sofar with
  | nil => exact Does.done fun w _ h => by rwa [List.flatten_nil, List.append_nil]
  | cons chunk chunks ih =>
    refine Does.bind ((does_acquireQuota _).fails fun _ _ _ _ => trivial) fun _ => ?_
    refine Does.bind (does_sendReverse_request issued known
      (chunksIn chunk (List.mem_cons_self ..)) apart) fun _ => ?_
    rw [List.flatten_cons, ← List.append_assoc]
    exact ih (sofar ++ chunk) fun chunk mem => chunksIn chunk (List.mem_cons_of_mem _ mem)

theorem does_sendGroups (finished : List ReverseGroup) (issued : job.undoToken = some token)
    (known : ∀ group ∈ groups, group ∈ revertGroups u job payload)
    (apart : Apart (finished ++ groups)) :
    Does u S root t ((undoing job token payload).and (landedAll finished)) (sendGroups groups)
      (fun _ => (undoing job token payload).and (landedAll (finished ++ groups)))
      fun _ => anything := by
  induction groups generalizing finished with
  | nil => exact Does.done fun w _ h => by rwa [List.append_nil]
  | cons group groups ih =>
    have covers : (batches gmailBatchModifyMaxIds group.ids).flatten = group.ids :=
      flatten_batches (by decide) group.ids
    have others : ∀ g ∈ finished, ∀ m ∈ group.ids, m ∉ g.ids := fun g mem =>
      (List.pairwise_append.mp apart).2.2 g mem group (List.mem_cons_self ..)
    refine Does.bind ((does_sendChunks [] issued (known group (List.mem_cons_self ..))
      others fun chunk mem m inChunk => ?_).pre fun w _ h => ?_) fun _ => ?_
    · rw [← covers]
      exact List.mem_flatten.mpr ⟨chunk, mem, inChunk⟩
    · exact ⟨h.1, h.2, fun m mem => absurd mem List.not_mem_nil⟩
    · rw [covers, List.nil_append]
      have rest := ih (finished ++ [group])
        (fun g mem => known g (List.mem_cons_of_mem _ mem))
        (by rwa [List.append_assoc, List.singleton_append])
      rw [List.append_assoc, List.singleton_append] at rest
      refine rest.pre fun w _ h => ⟨h.1, fun g mem => ?_⟩
      rcases List.mem_append.mp mem with before | now
      · exact h.2.1 g before
      · obtain rfl := List.mem_singleton.mp now
        exact h.2.2

/-! ## The whole of `executeReverse` -/

/-- What the requests leave, if there were messages to change. -/
def reverted (u : UserLabels) (job : ActionJob) (payload : Option UndoPayload)
    (groups : List ReverseGroup) : Local u S root where
  holds w := job.resolvedMessageIds ≠ [] →
    groups = revertGroups u job payload ∧ ∀ group ∈ groups, w.Landed S group.ids group.change
  stable := fun _ _ h b some_ => ⟨(h some_).1, (landedAll groups).stable (h some_).2 b⟩

theorem does_sendReverse (issued : job.undoToken = some token) :
    Does u S root t (undoing job token payload)
      (sendReverse job.resolvedMessageIds (reverseChangeGroups job.verb job.reach
        (labelChangeForVerb job.verb).reverse job.resolvedMessageIds payload))
      (fun resolved => (undoing job token payload).and (reverted u job payload resolved))
      fun _ => anything := by
  unfold sendReverse
  split_ifs with nothing
  · exact Does.done fun w _ h => ⟨h, fun some_ => absurd nothing some_⟩
  · refine Does.bind ((does_getClient _).fails fun _ _ _ _ => trivial) fun _ => ?_
    refine Does.bind ((does_resolveGroups _ _).fails fun _ _ _ _ => trivial) fun resolved => ?_
    refine Does.of_fact (fun w _ h => h.2) fun same => ?_
    obtain rfl : resolved = revertGroups u job payload := same
    refine Does.bind ((does_sendGroups [] issued (fun _ mem => mem)
      apart_revertGroups).pre fun w _ h => ⟨h.1, fun g mem => absurd mem List.not_mem_nil⟩)
      fun _ => ?_
    exact Does.done fun w _ h => ⟨h.1, fun _ => ⟨rfl, h.2⟩⟩

theorem does_executeReverse :
    Does u S root t (reverting job) (executeReverse job) (fun _ => anything)
      fun _ => anything := by
  unfold executeReverse
  cases issued : job.undoToken with
  | none => exact Does.failed fun _ _ _ => trivial
  | some token =>
    refine Does.bind (B := fun _ => reverting job) ?_ fun _ => ?_
    · refine writes (fun _ _ => rfl) (fun w _ h f a w' took => ?_) fun _ _ _ _ _ => trivial
      obtain ⟨row, there, same⟩ := h
      obtain ⟨rfl, rfl⟩ := Prod.mk.inj (Option.some.inj took)
      refine ⟨⟨rfl, .inr (.markReverse w)⟩, ⟨{ row with status := .executing }, ?_, ?_⟩,
        fun _ _ => trivial⟩
      · simp [World.setReverse, there]
      · exact ⟨same.verb, same.direction, same.reach, same.undoToken, same.resolvedMessageIds⟩
    refine Does.bind (B := fun payload => undoing job token payload) ?_ fun payload => ?_
    · refine reads (fun _ _ => rfl) (fun w _ h f a w' took => ?_) fun _ _ _ _ _ => trivial
      obtain ⟨rfl, rfl⟩ := Prod.mk.inj (Option.some.inj took)
      exact ⟨rfl, h, rfl⟩
    refine Does.bind (does_sendReverse issued) fun resolved => ?_
    refine Does.bind (B := fun _ => anything) ?_ fun _ => Does.done fun _ _ h => h
    refine writes (fun _ _ => rfl) (fun w _ h f a w' took => ?_) fun _ _ _ _ _ => trivial
    obtain ⟨⟨⟨row, there, same⟩, held⟩, done⟩ := h
    obtain ⟨rfl, rfl⟩ := Prod.mk.inj (Option.some.inj took)
    have act := Act.commitReverse (u := u) (S := S) w row token resolved there
      (same.undoToken.trans issued) fun some_ => ?_
    · rw [same.resolvedMessageIds] at act
      exact ⟨⟨rfl, .inr act⟩, trivial, fun _ _ => trivial⟩
    · rw [same.resolvedMessageIds] at some_
      rw [same.revertGroups, show w.undoPayload token = payload from held]
      exact done some_

end DeclutrMail.LabelAction
