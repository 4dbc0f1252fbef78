import DeclutrMail.LabelAction.Undo

/-!
# Undo is exact

`Before` follows one message until its job has an outcome, `Undoable` from there on: at every
moment its labels are those it had at first or what the forward change makes of them, and once
the journal says reverted they are those it had at first.
-/

namespace DeclutrMail.LabelAction

open Interleaving

variable {u : UserLabels} {S : Scope} {root job : ActionJob} {w w' : World} {m : MessageId}
  {labels : Finset Label} {row : Option MailMessage} {entry : UndoEntry}

/-! ## Before the outcome -/

/-- An action on a sender, as it is enqueued; a custom rule brings its approved ids. Only a
Delete may reach beyond the inbox. -/
structure SenderAction (root : ActionJob) : Prop where
  isRoot : root.recoveryAttempt = 0
  sender : root.selector ≠ .messages
  fresh : customAutopilot root = false → root.resolvedMessageIds = []
  reach : root.verb ≠ .delete → root.reach = .inboxOnly

/-- What a message is like while its job has no outcome. -/
structure Before (u : UserLabels) (root : ActionJob) (m : MessageId) (labels : Finset Label)
    (row : Option MailMessage) (w : World) : Prop where
  journal : w.undoJournal = []
  mail : w.mailMessages m = row
  gmail : w.gmail m = labels ∨ w.gmail m = (forwardChange u root).apply labels ∧
    m ∈ w.forward.resolvedMessageIds ∧ MaybeApplied w.log
  eligible : m ∈ w.forward.resolvedMessageIds → (customAutopilot root = true → EverMarked w.log) →
    row.any (senderActionWhere root) = true
  nonempty : customAutopilot root = false → EverMarked w.log →
    w.forward.resolvedMessageIds ≠ []
  snapshot : root.verb = .delete → EverMarked w.log → ∃ covered inbox,
    w.forward.deleteUndo = some ⟨covered, some inbox⟩ ∧
      (m ∈ w.forward.resolvedMessageIds → (m ∈ inbox ↔ inInbox row = true))

/-- A step that writes only the status of the job, and maybe the log. -/
theorem Before.frame (h : Before u root m labels row w) (journal : w'.undoJournal = w.undoJournal)
    (mail : w'.mailMessages m = w.mailMessages m) (gmail : w'.gmail m = w.gmail m)
    (ids : w'.forward.resolvedMessageIds = w.forward.resolvedMessageIds)
    (deleteUndo : w'.forward.deleteUndo = w.forward.deleteUndo)
    (applied : MaybeApplied w.log → MaybeApplied w'.log)
    (marks : EverMarked w'.log ↔ EverMarked w.log) : Before u root m labels row w' where
  journal := journal.trans h.journal
  mail := mail.trans h.mail
  gmail := by
    rw [gmail, ids]
    exact h.gmail.imp_right fun ⟨same, mem, sent⟩ => ⟨same, mem, applied sent⟩
  eligible := by
    rw [ids, marks]
    exact h.eligible
  nonempty := by
    rw [ids, marks]
    exact h.nonempty
  snapshot := by
    rw [ids, marks, deleteUndo]
    exact h.snapshot

theorem Before.persistIds {ids : List MessageId} (h : Before u root m labels row w)
    (inv : Inv root w) (calm : S.calm m) (ok : PersistOk S w ids) :
    Before u root m labels row (w.persistIds ids) where
  journal := h.journal
  mail := h.mail
  gmail := by
    refine .inl (h.gmail.resolve_right fun ⟨_, mem, sent⟩ => ?_)
    rcases ok.scope with ⟨-, -, -, untouched⟩ | ⟨-, -, none⟩
    · exact untouched sent
    · rw [none] at mem
      exact List.not_mem_nil mem
  eligible := by
    intro mem _
    have now := ok.eligible m mem calm
    rw [World.Eligible, h.mail] at now
    rwa [show senderActionWhere w.forward = senderActionWhere root from
      funext inv.same.senderActionWhere] at now
  nonempty := by
    intro plain marked
    rcases ok.scope with ⟨custom, -⟩ | ⟨-, -, none⟩
    · rw [inv.same.customAutopilot, plain] at custom
      cases custom
    · exact absurd none (h.nonempty plain marked)
  snapshot := by
    intro delete marked
    obtain ⟨covered, inbox, stored, placed⟩ := h.snapshot delete marked
    refine ⟨covered, inbox, stored, fun mem => placed ?_⟩
    rcases ok.scope with ⟨-, -, narrowed, -⟩ | ⟨plain, -, none⟩
    · exact narrowed m mem
    · exact absurd none (h.nonempty (inv.same.customAutopilot.symm.trans plain) marked)

theorem Before.mark {deleteUndo : Option DeleteUndo} (h : Before u root m labels row w)
    (inv : Inv root w) (calm : S.calm m) (action : SenderAction root)
    (ok : MarkOk S w deleteUndo) : Before u root m labels row (w.markExecuting deleteUndo) where
  journal := h.journal
  mail := h.mail
  gmail := h.gmail.imp_right fun ⟨same, mem, sent⟩ => ⟨same, mem, maybeApplied_cons.mpr (.inr sent)⟩
  eligible := by
    intro mem _
    cases custom : customAutopilot root with
    | false => exact h.eligible mem fun yes => by simp [custom] at yes
    | true =>
      rcases ok.scope (inv.same.customAutopilot.trans custom)
        (inv.same.recoveryAttempt.trans action.isRoot) with marked | eligible
      · exact h.eligible mem fun _ => marked
      · have now := eligible m mem calm
        rw [World.Eligible, h.mail] at now
        rwa [show senderActionWhere w.forward = senderActionWhere root from
          funext inv.same.senderActionWhere] at now
  nonempty := fun _ _ => ok.nonempty
  snapshot := by
    intro delete _
    obtain ⟨snapshot, rfl, placed⟩ := ok.placement (inv.same.verb.trans delete)
    rcases placed with ⟨inbox, rfl, now⟩ | ⟨later, stored, read, rfl⟩
    · refine ⟨_, inbox, rfl, fun mem => ?_⟩
      rw [now m mem calm, World.hasInbox, h.mail, inInbox]
    · have marked : EverMarked w.log := by
        refine later.resolve_left fun reviewed => ?_
        rw [inv.same.recoveryAttempt, action.isRoot] at reviewed
        omega
      obtain ⟨covered, inbox, held, before⟩ := h.snapshot delete marked
      rw [held, storedDeleteUndo] at read
      simp only at read
      split_ifs at read
      obtain rfl := Except.ok.inj read
      refine ⟨_, _, rfl, fun mem => ?_⟩
      rw [← before mem]
      simp only [List.mem_filter, decide_eq_true_eq, and_iff_left_iff_imp]
      exact fun _ => mem

theorem Before.send {first : Bool} {chunk : List MessageId} (h : Before u root m labels row w)
    (inv : Inv root w) (scope : ∀ x ∈ chunk, x ∈ w.forward.resolvedMessageIds) :
    Before u root m labels row (w.send first chunk (forwardChange u w.forward)) where
  journal := h.journal
  mail := h.mail
  gmail := by
    have change : forwardChange u w.forward = forwardChange u root := by
      rw [forwardChange, inv.same.verb, forwardChange]
    simp only [World.send, batchModify, change]
    split_ifs with here
    · refine .inr ⟨?_, scope m here, maybeApplied_cons.mpr (.inl ⟨first, rfl⟩)⟩
      rcases h.gmail with same | ⟨same, -⟩
      · rw [same]
      · rw [same, apply_apply]
    · exact h.gmail.imp_right fun moved =>
        ⟨moved.1, moved.2.1, maybeApplied_cons.mpr (.inr moved.2.2)⟩
  eligible := by
    intro mem marked
    refine h.eligible mem fun custom => ?_
    simpa [World.send] using marked custom
  nonempty := by
    intro plain marked
    exact h.nonempty plain (by simpa [World.send] using marked)
  snapshot := by
    intro delete marked
    exact h.snapshot delete (by simpa [World.send] using marked)

/-! ## After the outcome -/

/-- A message whose job has an undo token. -/
structure Undoable (u : UserLabels) (root : ActionJob) (m : MessageId) (labels : Finset Label)
    (row : Option MailMessage) (entry : UndoEntry) (w : World) : Prop where
  journal : w.undoJournal = [entry]
  token : w.forward.undoToken = some entry.token
  known : m ∈ w.forward.resolvedMessageIds → row ≠ none
  leads : LeadsBack (back (addedLabels u root.verb) row) m w.forward.resolvedMessageIds
    (revertGroups u w.forward (some entry.payload))
  gmail : w.gmail m = labels ∨ entry.reverted = false ∧ m ∈ w.forward.resolvedMessageIds ∧
    w.gmail m = (forwardChange u root).apply labels
  mail : labelSet (w.mailMessages m) = labelSet row ∨
    entry.reverted = false ∧ m ∈ w.forward.resolvedMessageIds ∧
      labelSet (w.mailMessages m) = (labelSet row).map (forwardChange u root).apply

/-- A message of a job that is over. -/
inductive After (u : UserLabels) (root : ActionJob) (m : MessageId) (labels : Finset Label)
    (row : Option MailMessage) (w : World) : Prop
  | unmoved : w.undoJournal = [] → w.forward.undoToken = none → After u root m labels row w
  | undoable (entry : UndoEntry) : Undoable u root m labels row entry w →
      After u root m labels row w

/-- What the rows of an eligible message say. -/
theorem inbox_of_eligible (reach : job.reach = .inboxOnly)
    (h : row.any (senderActionWhere job) = true) : inInbox row = true := by
  obtain ⟨message, rfl, ok⟩ := (Option.any_eq_true _ _).mp h
  unfold senderActionWhere at ok
  split at ok
  · simp only [reach, reachWhere, Bool.and_eq_true] at ok
    simpa [inInbox] using ok.2
  · cases ok

theorem Before.commit {payload : UndoPayload} (h : Before u root m labels row w)
    (inv : Inv root w) (action : SenderAction root) (ok : CommitOk u S w payload) :
    Undoable u root m labels row ⟨0, payload, false⟩
      (w.commitForward w.forward.resolvedMessageIds payload (forwardChange u w.forward)) := by
  have verb := inv.same.verb
  have eligible (mem : m ∈ w.forward.resolvedMessageIds) :=
    h.eligible mem fun _ => ok.marked
  have change : forwardChange u w.forward = forwardChange u root := by
    rw [forwardChange, verb, forwardChange]
  refine ⟨?_, ?_, fun mem => ?_, ?_, ?_, ?_⟩
  · simp [World.commitForward, h.journal]
  · simp [World.commitForward, ActionJob.finish, h.journal]
  · obtain ⟨message, rfl, -⟩ := (Option.any_eq_true _ _).mp (eligible mem)
    simp
  · change LeadsBack _ m w.forward.resolvedMessageIds (revertGroups u w.forward (some payload))
    rw [← verb]
    obtain ⟨inbox, rfl, stored⟩ := ok.payload
    by_cases delete : w.forward.verb = .delete
    · obtain ⟨found, read, rfl⟩ := stored delete
      obtain ⟨covered, inbox, held, placed⟩ := h.snapshot (verb.symm.trans delete) ok.marked
      rw [held, storedDeleteUndo] at read
      simp only at read
      split_ifs at read
      obtain rfl := Except.ok.inj read
      have kept : m ∈ w.forward.resolvedMessageIds →
          (m ∈ inbox.filter (· ∈ w.forward.resolvedMessageIds) ↔ inInbox row = true) := fun mem => by
        rw [← placed mem]
        simp only [List.mem_filter, decide_eq_true_eq, and_iff_left_iff_imp]
        exact fun _ => mem
      have result := leadsBack_delete (u := u) _ delete ok.nonempty kept
      rw [delete] at result ⊢
      exact result
    · refine leadsBack_uniform delete fun mem => ?_
      have other : root.verb ≠ .delete := fun yes => delete (verb.trans yes)
      exact inbox_of_eligible (action.reach other) (eligible mem)
  · exact h.gmail.imp_right fun moved => ⟨rfl, moved.2.1, moved.1⟩
  · have set := labelSet_updateMirror (m := m) w.forward.resolvedMessageIds
      (forwardChange u w.forward) w.mailMessages
    rw [h.mail, change] at set
    by_cases mem : m ∈ w.forward.resolvedMessageIds
    · rw [if_pos mem] at set
      exact .inr ⟨rfl, mem, by rw [change]; exact set⟩
    · rw [if_neg mem] at set
      exact .inl (by rw [change]; exact set)

theorem revertGroups_congr {job job' : ActionJob} (verb : job'.verb = job.verb)
    (reach : job'.reach = job.reach) (ids : job'.resolvedMessageIds = job.resolvedMessageIds)
    (payload : Option UndoPayload) : revertGroups u job' payload = revertGroups u job payload := by
  rw [revertGroups, verb, reach, ids, revertGroups]

/-- A step that touches neither the message nor what its Undo reads. -/
theorem Undoable.frame (h : Undoable u root m labels row entry w)
    (journal : w'.undoJournal = w.undoJournal) (same : SameJob w.forward w'.forward)
    (ids : w'.forward.resolvedMessageIds = w.forward.resolvedMessageIds)
    (token : w'.forward.undoToken = w.forward.undoToken) (gmail : w'.gmail m = w.gmail m)
    (mail : w'.mailMessages m = w.mailMessages m) : Undoable u root m labels row entry w' where
  journal := journal.trans h.journal
  token := token.trans h.token
  known := by rw [ids]; exact h.known
  leads := by
    rw [ids, revertGroups_congr same.verb same.reach ids]
    exact h.leads
  gmail := by rw [gmail, ids]; exact h.gmail
  mail := by rw [mail, ids]; exact h.mail

/-- The payload and the groups that a reverse delivery reads are those of the entry. -/
theorem Undoable.groups (h : Undoable u root m labels row entry w) (inv : Inv root w)
    {token : UndoToken} (there : w.reverse = some job) (issued : job.undoToken = some token) :
    token = entry.token ∧ revertGroups u job (w.undoPayload token) =
      revertGroups u w.forward (some entry.payload) := by
  have reverts := inv.reverse job there
  have same : token = entry.token :=
    Option.some.inj (issued.symm.trans (reverts.undoToken.trans h.token))
  have payload : w.undoPayload token = some entry.payload := by
    simp [World.undoPayload, h.journal, same]
  exact ⟨same, by rw [payload, revertGroups_congr reverts.verb reverts.reach
    reverts.resolvedMessageIds]⟩

theorem Undoable.sendReverse {ids : List MessageId} {group : ReverseGroup}
    (h : Undoable u root m labels row entry w)
    (fair : Restorable (addedLabels u root.verb) labels row)
    (known : group ∈ revertGroups u w.forward (some entry.payload))
    (scope : ∀ x ∈ ids, x ∈ group.ids) :
    Undoable u root m labels row entry
      { w with gmail := batchModify ids group.change w.gmail } := by
  refine ⟨h.journal, h.token, h.known, h.leads, ?_, h.mail⟩
  simp only [batchModify]
  split_ifs with here
  · have mem := h.leads.covered.mp ⟨group, known, scope m here⟩
    rw [h.leads.change group known (scope m here)]
    have exact_ := fair.gmail (h.known mem)
    rw [← forwardChange_eq] at exact_
    rcases h.gmail with same | ⟨_, _, changed⟩
    · exact .inl (by rw [same]; exact exact_.2)
    · exact .inl (by rw [changed]; exact exact_.1)
  · exact h.gmail

theorem Undoable.commitReverse {groups : List ReverseGroup}
    (h : Undoable u root m labels row entry w) (inv : Inv root w) (calm : S.calm m)
    (fair : Restorable (addedLabels u root.verb) labels row) (there : w.reverse = some job)
    (landed : job.resolvedMessageIds ≠ [] →
      groups = revertGroups u w.forward (some entry.payload) ∧
        ∀ group ∈ groups, w.Landed S group.ids group.change) :
    Undoable u root m labels row { entry with reverted := true }
      (w.commitReverse entry.token job.resolvedMessageIds groups) := by
  have ids := (inv.reverse job there).resolvedMessageIds
  refine ⟨by simp [World.commitReverse, h.journal], h.token, h.known, h.leads, .inl ?_, .inl ?_⟩
  · rcases h.gmail with same | ⟨_, mem, changed⟩
    · exact same
    · -- What has landed is the way back, so it led back.
      obtain ⟨rfl, landed⟩ := landed (by rw [ids]; exact List.ne_nil_of_mem mem)
      obtain ⟨group, known, here⟩ := h.leads.covered.mpr mem
      have settled := landed group known m here calm
      have exact_ := fair.gmail (h.known mem)
      rw [← forwardChange_eq] at exact_
      rw [h.leads.change group known here, changed, exact_.1] at settled
      exact changed.trans settled.symm
  · simp only [World.commitReverse]
    split_ifs with none
    · refine h.mail.resolve_right fun pending => ?_
      have mem := pending.2.1
      rw [← ids, none] at mem
      exact List.not_mem_nil mem
    · obtain ⟨rfl, -⟩ := landed none
      rw [labelSet_updateMirrors h.leads.change]
      by_cases mem : m ∈ w.forward.resolvedMessageIds
      · rw [if_pos (h.leads.covered.mpr mem)]
        obtain ⟨message, same⟩ := Option.ne_none_iff_exists'.mp (h.known mem)
        have shown : labelSet row = some message.labelIds.toFinset := by rw [same]; rfl
        have exact_ := fair.mirror shown
        rw [← forwardChange_eq] at exact_
        rcases h.mail with same | ⟨_, _, changed⟩
        · rw [same, shown, Option.map_some, exact_.2]
        · rw [changed, shown, Option.map_some, Option.map_some, exact_.1]
      · rw [if_neg fun found => mem (h.leads.covered.mp found)]
        exact h.mail.resolve_right fun pending => mem pending.2.1

/-! ## Every step -/

/-- A message through the whole life of its job. -/
def Followed (u : UserLabels) (root : ActionJob) (m : MessageId) (labels : Finset Label)
    (row : Option MailMessage) (w : World) : Prop :=
  w.activityLog = [] ∧ Before u root m labels row w ∨
    w.activityLog ≠ [] ∧ After u root m labels row w

theorem Before.act (h : Before u root m labels row w) (inv : Inv root w) (calm : S.calm m)
    (action : SenderAction root) (quiet : w.activityLog = []) (step : Act u S w w') :
    Followed u root m labels row w' := by
  have no_reverse (job : ActionJob) : w.reverse ≠ some job := fun there =>
    inv.token (inv.reverse job there).issued quiet
  cases step with
  | background b =>
    refine .inl ⟨b.activityLog.trans quiet, h.frame b.undoJournal (b.mailMessages m calm)
      (b.gmail m calm) b.forward.kept.1 b.forward.kept.2.1 ?_ ?_⟩
    · rw [b.log]
      exact id
    · rw [b.log]
  | reread =>
    exact .inl ⟨quiet, h.frame rfl rfl rfl rfl rfl (by simp [World.record]) (by simp [World.record])⟩
  | skip =>
    exact .inl ⟨quiet, h.frame rfl rfl rfl rfl rfl (by simp [World.stop]) (by simp [World.stop])⟩
  | stop =>
    exact .inl ⟨quiet, h.frame rfl rfl rfl rfl rfl (by simp [World.stop]) (by simp [World.stop])⟩
  | missed first refused _ ok =>
    refine .inl ⟨quiet, h.frame rfl rfl rfl rfl rfl (fun sent => ?_) (by simp [World.record])⟩
    exact maybeApplied_cons.mpr (.inr sent)
  | setLock => exact .inl ⟨quiet, h.frame rfl rfl rfl rfl rfl id .rfl⟩
  | failBlocked => exact .inl ⟨quiet, h.frame rfl rfl rfl rfl rfl id .rfl⟩
  | markReverse => exact .inl ⟨quiet, h.frame rfl rfl rfl rfl rfl id .rfl⟩
  | resetQueued _ =>
    unfold World.resetQueued
    split_ifs
    · exact .inl ⟨quiet, h.frame rfl rfl rfl rfl rfl id .rfl⟩
    · exact .inl ⟨quiet, h⟩
  | persistIds ids _ ok => exact .inl ⟨quiet, h.persistIds inv calm ok⟩
  | markExecuting deleteUndo _ ok => exact .inl ⟨quiet, h.mark inv calm action ok⟩
  | send first chunk _ _ scope => exact .inl ⟨quiet, h.send inv scope⟩
  | commitNothing _ _ =>
    refine .inr ⟨List.cons_ne_nil _ _, .unmoved h.journal ?_⟩
    by_contra issued
    exact inv.token issued quiet
  | commitForward payload _ ok =>
    exact .inr ⟨List.cons_ne_nil _ _, .undoable _ (h.commit inv action ok)⟩
  | sendReverse _ job _ _ there => exact absurd there (no_reverse job)
  | commitReverse job _ _ there => exact absurd there (no_reverse job)

theorem After.act (h : After u root m labels row w) (inv : Inv root w) (calm : S.calm m)
    (fair : Restorable (addedLabels u root.verb) labels row) (logged : w.activityLog ≠ [])
    (step : Act u S w w') : Followed u root m labels row w' := by
  have reset : w.resetQueued = w := by
    refine if_neg fun executing => ?_
    have final := inv.committed logged
    simp [isFinal, failedForGood, executing] at final
  cases h with
  | unmoved journal none =>
    have no_reverse (job : ActionJob) : w.reverse ≠ some job := fun there =>
      (inv.reverse job there).issued none
    cases step with
    | background b =>
      exact .inr ⟨by rwa [b.activityLog], .unmoved (b.undoJournal.trans journal)
        (b.forward.kept.2.2.1.trans none)⟩
    | resetQueued _ =>
      rw [reset]
      exact .inr ⟨logged, .unmoved journal none⟩
    | setLock => exact .inr ⟨logged, .unmoved journal none⟩
    | reread => exact .inr ⟨logged, .unmoved journal none⟩
    | markReverse => exact .inr ⟨logged, .unmoved journal none⟩
    | skip running _ _ => exact absurd running.activityLog logged
    | stop running => exact absurd running.activityLog logged
    | failBlocked _ running => exact absurd running.activityLog logged
    | persistIds _ running _ => exact absurd running.activityLog logged
    | commitNothing running _ => exact absurd running.activityLog logged
    | markExecuting _ running _ => exact absurd running.activityLog logged
    | missed _ _ running _ => exact absurd running.activityLog logged
    | send _ _ running _ _ => exact absurd running.activityLog logged
    | commitForward _ running _ => exact absurd running.activityLog logged
    | sendReverse _ job _ _ there => exact absurd there (no_reverse job)
    | commitReverse job _ _ there => exact absurd there (no_reverse job)
  | undoable entry h =>
    cases step with
    | background b =>
      have kept := b.forward.kept
      exact .inr ⟨by rwa [b.activityLog], .undoable entry (h.frame b.undoJournal b.forward.same_job
        kept.1 kept.2.2.1 (b.gmail m calm) (b.mailMessages m calm))⟩
    | resetQueued _ =>
      rw [reset]
      exact .inr ⟨logged, .undoable entry h⟩
    | setLock => exact .inr ⟨logged, .undoable entry (h.frame rfl (.refl _) rfl rfl rfl rfl)⟩
    | reread => exact .inr ⟨logged, .undoable entry (h.frame rfl (.refl _) rfl rfl rfl rfl)⟩
    | markReverse => exact .inr ⟨logged, .undoable entry (h.frame rfl (.refl _) rfl rfl rfl rfl)⟩
    | skip running _ _ => exact absurd running.activityLog logged
    | stop running => exact absurd running.activityLog logged
    | failBlocked _ running => exact absurd running.activityLog logged
    | persistIds _ running _ => exact absurd running.activityLog logged
    | commitNothing running _ => exact absurd running.activityLog logged
    | markExecuting _ running _ => exact absurd running.activityLog logged
    | missed _ _ running _ => exact absurd running.activityLog logged
    | send _ _ running _ _ => exact absurd running.activityLog logged
    | commitForward _ running _ => exact absurd running.activityLog logged
    | sendReverse ids job token group there issued known scope =>
      rw [(h.groups inv there issued).2] at known
      exact .inr ⟨logged, .undoable entry (h.sendReverse fair known scope)⟩
    | commitReverse job token groups there issued landed =>
      obtain ⟨rfl, same⟩ := h.groups inv there issued
      rw [same] at landed
      refine .inr ⟨?_, .undoable _ (h.commitReverse inv calm fair there landed)⟩
      simpa [World.commitReverse] using logged

/-- Nobody else changes the labels of `m`. -/
def LeavesAlone (m : MessageId) {confirmed : Bool} (_ : World)
    (move : Move (system u confirmed)) : Prop :=
  ∀ labels row, move ≠ .disturb (.relabel m labels row)

theorem LeavesAlone.permits {confirmed : Bool} {move : Move (system u confirmed)}
    (h : LeavesAlone m w move) : Permits ⟨confirmed, (· = m), False⟩ w move := by
  cases move with
  | disturb e =>
    cases e with
    | relabel m' labels row =>
      rintro rfl
      exact h labels row rfl
    | terminalFailure direction _ => cases direction <;> simp [Permits, PermitsEvent]
    | protect => trivial
    | enqueueFailed => trivial
    | undo => trivial
  | start | reply | finish | crash => trivial

/-- Once the reverse job of a sender action has run, a message that was restorable when the
action was enqueued has the labels it had then, in Gmail and in the mirror, whatever the
attempts of both jobs went through. -/
theorem undo_restores {confirmed : Bool} {isProtected : SenderKey → Bool}
    {gmail : MessageId → Finset Label} {mail : MessageId → Option MailMessage}
    {c : Config (system u confirmed)} (enqueued : Enqueued root) (action : SenderAction root)
    (fair : Restorable (addedLabels u root.verb) (gmail m) (mail m))
    (run : RunWhere (LeavesAlone m) (.idle (World.enqueued root isProtected gmail mail)) c)
    (undone : c.world.undoJournal.any (·.reverted) = true) :
    c.world.gmail m = gmail m ∧ labelSet (c.world.mailMessages m) = labelSet (mail m) := by
  let S : Scope := ⟨confirmed, (· = m), False⟩
  have acts := (refines (S := S) enqueued (run.mono fun w move h => LeavesAlone.permits h)).2
  have start : Followed u root m (gmail m) (mail m)
      (World.enqueued root isProtected gmail mail) := by
    refine .inl ⟨rfl, rfl, rfl, .inl rfl, fun mem marked => ?_, fun _ marked => ?_,
      fun _ marked => ?_⟩
    · have plain : customAutopilot root = false := by
        by_contra custom
        exact not_everMarked_nil (marked (by simpa using custom))
      rw [World.enqueued, action.fresh plain] at mem
      exact absurd mem List.not_mem_nil
    · exact absurd marked not_everMarked_nil
    · exact absurd marked not_everMarked_nil
  have followed := acts.induct (.enqueued enqueued isProtected gmail mail) start
    fun v v' inv h step => by
      rcases h with ⟨quiet, before⟩ | ⟨logged, after⟩
      · exact before.act inv rfl action quiet step
      · exact after.act inv rfl fair logged step
  rcases followed with ⟨-, before⟩ | ⟨-, unmoved | ⟨entry, h⟩⟩
  · simp [before.journal] at undone
  · simp [unmoved] at undone
  · simp only [h.journal, List.any_cons, List.any_nil, Bool.or_false] at undone
    exact ⟨h.gmail.resolve_right fun pending => absurd pending.1 (by simp [undone]),
      h.mail.resolve_right fun pending => absurd pending.1 (by simp [undone])⟩

/-- An archive of one message and its Undo. -/
theorem undo_restores_archive :
    ∃ c : Config (system ⟨fun _ => "Label_1", fun _ => by decide⟩ false),
      c.world.undoJournal.any (·.reverted) = true ∧ c.world.gmail "m" = {"INBOX"} ∧
      labelSet (c.world.mailMessages "m") = some {"INBOX"} := by
  let u : UserLabels := ⟨fun _ => "Label_1", fun _ => by decide⟩
  let job := senderJob .archive "a" .inboxOnly 1 none
  let start : Config (system u false) := .idle (World.enqueued job (fun _ => false)
    (fun _ => {"INBOX"}) fun _ => some ⟨"a", false, ["INBOX"]⟩)
  let there : Delivery := ⟨0, .forward⟩
  let way : Delivery := ⟨1, .reverse⟩
  let go (t : Delivery) : Move (system u false) := .reply t (.go ⟨.pass, ["m"]⟩)
  have run : (start.run ([.start there .forward] ++ List.replicate 12 (go there) ++
      [.disturb .undo, .start way .reverse] ++ List.replicate 8 (go way))).any
        (fun c => c.world.undoJournal.any (·.reverted)) = true := by
    decide +kernel
  obtain ⟨c, reached, undone⟩ := exists_runWhere (A := LeavesAlone "m") run
    fun move mem w labels row same => by
      subst same
      simp only [go, List.mem_append, List.mem_cons, List.mem_replicate, reduceCtorEq, and_false,
        List.not_mem_nil, or_false, false_or] at mem
      exact nomatch Move.disturb.inj mem
  have none : addedLabels u .archive = [] := by decide
  have fair : Restorable (addedLabels u .archive) {"INBOX"} (some ⟨"a", false, ["INBOX"]⟩) := by
    rw [none]
    exact ⟨by simp, by simp, by simp [labelSet]⟩
  have enqueued : Enqueued job := ⟨rfl, rfl, rfl, rfl⟩
  have action : SenderAction job :=
    ⟨rfl, by simp [job, senderJob], fun _ => rfl, fun _ => rfl⟩
  have result := undo_restores enqueued action fair reached undone
  exact ⟨c, undone, by simpa [labelSet] using result⟩

/-- Mail in the inbox that already had the Later label loses that label with the Undo. -/
theorem undo_drops_later_label :
    ∃ c : Config (system ⟨fun _ => "Label_1", fun _ => by decide⟩ false),
      RunWhere (LeavesAlone "m") (.idle (World.enqueued
        (senderJob .later "a" .inboxOnly 1 (some 0)) (fun _ => false)
        (fun _ => {"INBOX", "Label_1"}) fun _ => some ⟨"a", false, ["INBOX", "Label_1"]⟩)) c ∧
      c.world.undoJournal.any (·.reverted) = true ∧ c.world.gmail "m" = {"INBOX"} ∧
      labelSet (c.world.mailMessages "m") = some {"INBOX"} := by
  let u : UserLabels := ⟨fun _ => "Label_1", fun _ => by decide⟩
  let start : Config (system u false) := .idle (World.enqueued
    (senderJob .later "a" .inboxOnly 1 (some 0)) (fun _ => false)
    (fun _ => {"INBOX", "Label_1"}) fun _ => some ⟨"a", false, ["INBOX", "Label_1"]⟩)
  let there : Delivery := ⟨0, .forward⟩
  let way : Delivery := ⟨1, .reverse⟩
  let go (t : Delivery) : Move (system u false) := .reply t (.go ⟨.pass, ["m"]⟩)
  have run : (start.run ([.start there .forward] ++ List.replicate 14 (go there) ++
      [.disturb .undo, .start way .reverse] ++ List.replicate 9 (go way))).any
        (fun c => decide (c.world.undoJournal.any (·.reverted) = true ∧
          c.world.gmail "m" = {"INBOX"} ∧
          labelSet (c.world.mailMessages "m") = some {"INBOX"})) = true := by
    decide +kernel
  obtain ⟨c, reached, dropped⟩ := exists_runWhere (A := LeavesAlone "m") run
    fun move mem w labels row same => by
      subst same
      simp only [go, List.mem_append, List.mem_cons, List.mem_replicate, reduceCtorEq, and_false,
        List.not_mem_nil, or_false, false_or] at mem
      exact nomatch Move.disturb.inj mem
  exact ⟨c, reached, of_decide_eq_true dropped⟩

end DeclutrMail.LabelAction
