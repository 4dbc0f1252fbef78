import DeclutrMail.Later.TimerVersions

/-!
# The mail that a return has moved

A wake chooses the messages that carry the Later label, has Gmail move them, and then takes the
label off every message of the mirror that carries it by then. The two sets are the same as long
as nobody puts the label on another message in between (`Undisturbed`): then the rows that the wake
changes are among those that Gmail has accepted.
-/

namespace DeclutrMail.Later

open Interleaving
open LabelAction (MessageId Label)

/-! ## Rows that change -/

/-- The messages that have other labels than before. -/
def relabelled (before after : List MailMessage) : List MessageId :=
  (before.zip after).filterMap fun (message, message') =>
    if message'.labelIds = message.labelIds then none else some message.providerMessageId

/-- The messages that have lost the label. -/
def losing (labelId : Label) (before after : List MailMessage) : List MessageId :=
  (before.zip after).filterMap fun (message, message') =>
    if labelId ∈ message.labelIds ∧ labelId ∉ message'.labelIds then
      some message.providerMessageId
    else none

/-- All messages with the label are among `ids`. -/
def Covers (labelId : Label) (ids : List MessageId) (mail : List MailMessage) : Prop :=
  ∀ message ∈ mail, labelId ∈ message.labelIds → message.providerMessageId ∈ ids

instance (labelId : Label) (ids : List MessageId) (mail : List MailMessage) :
    Decidable (Covers labelId ids mail) :=
  inferInstanceAs (Decidable (∀ message ∈ mail, labelId ∈ message.labelIds →
    message.providerMessageId ∈ ids))

/-- No message that a wake under way has not chosen comes to carry the label. -/
def World.Undisturbed (labelId : Label) (w : World) : Event → Prop
  | .mirror mail => ∀ entry ∈ w.attempts.entries, entry.2.ids ≠ [] → Covers labelId entry.2.ids mail
  | _ => True

instance World.decidableUndisturbed (labelId : Label) (w : World) (e : Event) :
    Decidable (w.Undisturbed labelId e) :=
  match e with
  | .mirror mail => inferInstanceAs (Decidable (∀ entry ∈ w.attempts.entries,
      entry.2.ids ≠ [] → Covers labelId entry.2.ids mail))
  | .setSnooze .. | .scheduleLaterReturn .. | .undoLater .. | .wakeNow | .jobRemoved _
  | .mailbox _ => inferInstanceAs (Decidable True)

def Undisturbed (labelId : Label) (w : waking.World) : Move waking → Prop
  | .disturb e => World.Undisturbed labelId w e
  | _ => True

instance (labelId : Label) (w : waking.World) (m : Move waking) :
    Decidable (Undisturbed labelId w m) :=
  match m with
  | .disturb e => World.decidableUndisturbed labelId w e
  | .start .. | .finish _ | .crash _ | .reply .. => inferInstanceAs (Decidable True)

section Mail

variable {t x : ℕ} {labelId labelId' : Label} {ids : List MessageId} {id : MessageId}
  {w w' : World} {mail : List MailMessage} {message : MailMessage}

theorem mem_losing_map {f : MailMessage → MailMessage} :
    id ∈ losing labelId mail (mail.map f) ↔ ∃ message ∈ mail, message.providerMessageId = id ∧
      labelId ∈ message.labelIds ∧ labelId ∉ (f message).labelIds := by
  have zip : mail.zip (mail.map f) = mail.map fun message => (message, f message) := by
    rw [List.zip_eq_zipWith, List.zipWith_map_right, List.zipWith_self]
  simp only [losing, zip, List.filterMap_map, List.mem_filterMap, Function.comp_apply]
  refine exists_congr fun message => and_congr_right fun _ => ?_
  rw [Option.ite_none_right_eq_some, Option.some_inj]
  tauto

theorem losing_self (labelId : Label) (mail : List MailMessage) : losing labelId mail mail = [] := by
  have same : losing labelId mail (mail.map fun message => message) = [] := by
    refine List.eq_nil_iff_forall_not_mem.mpr fun id mem => ?_
    obtain ⟨message, -, -, there, gone⟩ := mem_losing_map.mp mem
    exact gone there
  rwa [List.map_id'] at same

theorem mem_mirror_restoring {labels : List Label} : labelId ∈ (restoring labelId').mirror labels ↔
    labelId ∈ labels ∧ labelId ≠ labelId' ∨ labelId = "INBOX" := by
  simp [LabelAction.LabelChange.mirror, restoring]

/-- Only the label of the return is taken off. -/
theorem mem_losing_restoreMirror (mem : id ∈ losing labelId w.mail (w.restoreMirror labelId')) :
    labelId = labelId' ∧ ∃ message ∈ w.mail, message.providerMessageId = id ∧
      labelId ∈ message.labelIds := by
  obtain ⟨message, there, same, before, after⟩ := mem_losing_map.mp mem
  refine ⟨?_, message, there, same, before⟩
  split_ifs at after with carries
  · by_contra other
    exact after (mem_mirror_restoring.mpr (.inl ⟨before, other⟩))
  · exact (after before).elim

/-- A row that a return changes loses the label. -/
theorem mem_losing_of_relabelled (own : labelId ≠ "INBOX")
    (mem : id ∈ relabelled w.mail (w.restoreMirror labelId)) :
    id ∈ losing labelId w.mail (w.restoreMirror labelId) := by
  refine mem_losing_map.mpr ?_
  have zip : w.mail.zip (w.restoreMirror labelId) = w.mail.map fun message => (message,
      if labelId ∈ message.labelIds then
        { message with labelIds := (restoring labelId).mirror message.labelIds }
      else message) := by
    rw [World.restoreMirror, List.zip_eq_zipWith, List.zipWith_map_right, List.zipWith_self]
  simp only [relabelled, zip, List.filterMap_map, List.mem_filterMap, Function.comp_apply] at mem
  obtain ⟨message, there, changed⟩ := mem
  by_cases carries : labelId ∈ message.labelIds
  · refine ⟨message, there, ?_, carries, ?_⟩
    · exact Option.some.inj (Option.ite_none_left_eq_some.mp changed).2
    · rw [if_pos carries]
      exact fun still => (mem_mirror_restoring.mp still).elim (fun h => h.2 rfl) own
  · rw [if_neg carries, if_pos rfl] at changed
    cases changed

end Mail

/-! ## What a wake may do to the mail -/

/-- A step of thread `t`: it puts the label on no message, and takes it off those alone that Gmail
has accepted from it. -/
structure Restores (labelId : Label) (t : ℕ) (w w' : World) : Prop where
  others : ∀ x ≠ t, w'.attempts.get x = w.attempts.get x
  covers : ∀ ids, Covers labelId ids w.mail → Covers labelId ids w'.mail
  accepted : ∀ id ∈ losing labelId w.mail w'.mail,
    ∃ a, w.attempts.get t = some a ∧ id ∈ a.accepted.flatten

/-- The others leave a thread's wake to it, and put the label on no message that it has not
chosen. -/
def Spares (labelId : Label) (t : ℕ) (w w' : World) : Prop :=
  w'.attempts.get t = w.attempts.get t ∧ ∀ a, w.attempts.get t = some a → a.ids ≠ [] →
    Covers labelId a.ids w.mail → Covers labelId a.ids w'.mail

section Restores

variable {t x : ℕ} {labelId labelId' : Label} {w w' : World}

theorem Restores.of_mail (others : ∀ x ≠ t, w'.attempts.get x = w.attempts.get x)
    (same : w'.mail = w.mail) : Restores labelId t w w' := by
  refine ⟨others, fun ids => by rw [same]; exact id, fun id mem => ?_⟩
  rw [same, losing_self] at mem
  cases mem

theorem touch_mail (w : World) (t : ℕ) (kind : ActKind) (v : SnoozeTimerVersion)
    (f : SenderPolicy → SenderPolicy) : (w.touch t kind v f).mail = w.mail := by
  rcases touch_cases w t kind v f with ⟨same, -⟩ | ⟨p, -, -, same⟩ <;> rw [same]

theorem disturb_mail (w : World) (e : Event) :
    (w.disturb e).mail = match e with
      | .mirror mail => mail
      | _ => w.mail := by
  cases written : w.written e with
  | some p => cases e <;> first | (simp only [World.disturb, written]; rfl) | cases written
  | none =>
    cases e with
    | wakeNow =>
      simp only [World.disturb, written]
      split <;> rfl
    | _ => simp only [World.disturb, written]

theorem World.Undisturbed.spares {e : Event} (undisturbed : w.Undisturbed labelId e) (t : ℕ) :
    Spares labelId t w (w.disturb e) := by
  refine ⟨congrArg (·.get t) (disturb_attempts w e), fun a under chosen covers => ?_⟩
  rw [disturb_mail]
  cases e with
  | mirror mail => exact undisturbed (t, a) (InsertionMap.mem_entries_iff.mpr under) chosen
  | _ => exact covers

theorem Restores.spares (h : Restores labelId t w w') (other : t ≠ x) : Spares labelId x w w' :=
  ⟨h.others x other.symm, fun _ _ _ => h.covers _⟩

end Restores

/-! ## The code -/

section Code

variable {t : ℕ} {labelId labelId' : Label} {v : SnoozeTimerVersion}

/-- The wake of the thread has these messages and these accepted chunks; what it has chosen under
the label covers the label. -/
def selected (t : ℕ) (labelId labelId' : Label) (ids : List MessageId)
    (accepted : List (List MessageId)) : Assertion (Spares labelId t) where
  holds w := ∃ a, w.attempts.get t = some a ∧ a.ids = ids ∧ a.accepted = accepted ∧
    (labelId' = labelId → ids ≠ [] → Covers labelId ids w.mail)
  stable := by
    rintro w w' ⟨a, under, rfl, rfl, covers⟩ ⟨same, spares⟩
    exact ⟨a, same.trans under, rfl, rfl, fun own chosen =>
      spares a under chosen (covers own chosen)⟩

/-- The wake of the thread has begun. -/
def begun (t : ℕ) (labelId : Label) : Assertion (Spares labelId t) where
  holds w := ∃ a, w.attempts.get t = some a ∧ a.accepted = []
  stable := fun _ _ ⟨a, under, empty⟩ spares => ⟨a, spares.1.trans under, empty⟩

def Mirrors {α : Type} (A : Assertion (Spares labelId t)) (p : WakeProgram α)
    (B : α → Assertion (Spares labelId t)) : Prop :=
  @Triple WakeSignature waking (Spares labelId) t α (Restores labelId) A p B fun _ => .fact True

theorem Mirrors.ask {A : Assertion (Spares labelId t)} {q : Request}
    {B : q.Answer → Assertion (Spares labelId t)}
    (h : ∀ w, A w → ∀ f, Restores labelId t w (effect t f w q).2 ∧
      B (effect t f w q).1 (effect t f w q).2) : Mirrors A (Later.ask q) B := by
  refine Triple.perform fun w hw c r w' answered => ?_
  have answered : answer t q c w = some (r, w') := answered
  cases c with
  | go f =>
    obtain ⟨rfl, rfl⟩ := Prod.mk.inj (Option.some.inj answered)
    exact h w hw f
  | lost f e =>
    obtain ⟨rfl, rfl⟩ := Prod.mk.inj (Option.some.inj answered)
    exact ⟨(h w hw f).1, trivial⟩
  | fail e =>
    obtain ⟨rfl, rfl⟩ := Prod.mk.inj (Option.some.inj answered)
    exact ⟨.of_mail (fun _ _ => rfl) rfl, trivial⟩

/-- A statement that leaves the wakes and the mail. -/
structure Quiet (t : ℕ) (q : Request) : Prop where
  attempts : ∀ f w, (effect t f w q).2.attempts = w.attempts
  mail : ∀ f w, (effect t f w q).2.mail = w.mail

theorem Quiet.step {A : Assertion (Spares labelId t)} {q : Request} (quiet : Quiet t q) (f : Found)
    {w : World} (hw : A w) :
    Restores labelId t w (effect t f w q).2 ∧ A (effect t f w q).2 := by
  refine ⟨.of_mail (fun x _ => ?_) (quiet.mail f w), A.stable hw ⟨?_, fun a _ _ covers => ?_⟩⟩
  · rw [quiet.attempts]
  · rw [quiet.attempts]
  · rwa [quiet.mail]

theorem Quiet.mirrors {A : Assertion (Spares labelId t)} {q : Request} (quiet : Quiet t q) :
    Mirrors A (Later.ask q) fun _ => A :=
  Mirrors.ask fun _ hw f => quiet.step f hw

/-- Whether it goes through does not matter to a quiet statement. -/
theorem Quiet.always {A : Assertion (Spares labelId t)} {q : Request} (quiet : Quiet t q) :
    @Triple WakeSignature waking (Spares labelId) t _ (Restores labelId) A (Later.ask q)
      (fun _ => A) fun _ => A := by
  refine Triple.perform fun w hw c r w' answered => ?_
  have answered : answer t q c w = some (r, w') := answered
  cases c with
  | go f | lost f e =>
    obtain ⟨rfl, rfl⟩ := Prod.mk.inj (Option.some.inj answered)
    exact quiet.step f hw
  | fail e =>
    obtain ⟨rfl, rfl⟩ := Prod.mk.inj (Option.some.inj answered)
    exact ⟨.of_mail (fun _ _ => rfl) rfl, hw⟩

theorem Mirrors.bestEffort {α : Type} {A : Assertion (Spares labelId t)} {p : WakeProgram α} {a : α}
    (h : @Triple WakeSignature waking (Spares labelId) t _ (Restores labelId) A p (fun _ => A)
      fun _ => A) : Mirrors A (tryCatch p fun _ => .ret a) fun _ => A :=
  Triple.tryCatch h fun _ => Triple.done fun _ h => h

theorem quiet_claim : Quiet t (.claim v) := ⟨fun _ _ => touch_attempts .., fun _ _ => touch_mail ..⟩

theorem quiet_backOff (kind : WakeFailureKind) : Quiet t (.backOff v kind) :=
  ⟨fun _ _ => touch_attempts .., fun _ _ => touch_mail ..⟩

theorem quiet_of_same {q : Request} (same : ∀ f w, (effect t f w q).2 = w) : Quiet t q :=
  ⟨fun f w => congrArg World.attempts (same f w), fun f w => congrArg World.mail (same f w)⟩

theorem put_restores (w : World) (b : Attempt) : Restores labelId t w (w.put t b) :=
  .of_mail (fun x other => by simp [other.symm]) rfl

theorem forget_restores (w : World) : Restores labelId t w (w.forget t) :=
  .of_mail (fun x other => by simp [other.symm]) rfl

theorem quiet_ask {A : Assertion (Spares labelId t)} {q : Request}
    (same : ∀ f w, (effect t f w q).2 = w) : Mirrors A (ask q) fun _ => A :=
  (quiet_of_same same).mirrors

theorem mirrors_postAll (change : LabelAction.LabelChange) {ids : List MessageId}
    (chunks done : List (List MessageId)) :
    Mirrors (selected t labelId labelId' ids done) (postAll change chunks)
      fun _ => selected t labelId labelId' ids (done ++ chunks) := by
  induction chunks generalizing done with
  | nil => exact Triple.done fun w h => by simpa using h
  | cons chunk chunks ih =>
    refine Triple.bind (Mirrors.ask (B := fun _ => selected t labelId labelId' ids (done ++ [chunk]))
      fun w ⟨a, under, chose, accepted, covers⟩ f => ?_) fun _ => ?_
    · have grown : (effect t f w (.post chunk change)).2 =
          w.put t { a with accepted := a.accepted ++ [chunk] } := by
        simp [effect, World.accept, under]
      rw [grown]
      exact ⟨put_restores .., _, put_self .., chose, by simp [accepted], covers⟩
    · have rest := ih (done ++ [chunk])
      rwa [List.append_assoc, List.singleton_append] at rest

/-- The end of a return takes the label off the messages that it has chosen. -/
theorem mirrors_settle (own : labelId ≠ "INBOX") (ids : List MessageId) :
    Mirrors (selected t labelId labelId' ids (Batches.batches gmailBatchModifyMaxIds ids))
      (ask (.settle labelId' (decide (0 < ids.length)) v)) fun _ => .fact True := by
  refine Mirrors.ask fun w ⟨a, under, chose, accepted, covers⟩ f => ⟨?_, trivial⟩
  have attempts : (effect t f w (.settle labelId' (decide (0 < ids.length)) v)).2.attempts =
      w.attempts := touch_attempts ..
  refine ⟨fun x _ => by rw [attempts], fun others there => ?_, fun id mem => ?_⟩
  · intro message mem carries
    simp only [effect] at mem
    split_ifs at mem with restored
    · obtain ⟨before, there', rfl⟩ := List.mem_map.mp mem
      split_ifs at carries ⊢
      · exact there before there' ((mem_mirror_restoring.mp carries).resolve_right own).1
      · exact there before there' carries
    · exact there message mem carries
  · simp only [effect] at mem
    split_ifs at mem with restored
    · obtain ⟨same, message, there, rfl, carries⟩ := mem_losing_restoreMirror mem
      refine ⟨a, under, ?_⟩
      rw [accepted, Batches.flatten_batches (by decide)]
      exact covers same.symm (List.length_pos_iff.mp (of_decide_eq_true restored)) message there
        carries
    · rw [losing_self] at mem
      cases mem

theorem mirrors_wakeSender (own : labelId ≠ "INBOX") :
    Mirrors (begun t labelId) (wakeSender v) fun _ => .fact True := by
  have claims : Mirrors (begun t labelId) (ask (.claim v)) fun _ => begun t labelId :=
    quiet_claim.mirrors
  refine Triple.bind claims fun claimed => ?_
  cases claimed with
  | false => exact Triple.done fun _ _ => trivial
  | true =>
    have looks : ∀ {q : Request}, (∀ f w, (effect t f w q).2 = w) →
        Mirrors (begun t labelId) (ask q) fun _ => begun t labelId := quiet_ask
    refine Triple.bind (looks fun _ _ => rfl) fun _ => ?_
    refine Triple.bind (looks fun _ _ => rfl) fun labelId' => ?_
    refine Triple.bind (B := fun _ => begun t labelId) ?_ fun _ => ?_
    · exact Mirrors.bestEffort (quiet_of_same fun _ _ => rfl).always
    refine Triple.bind (Mirrors.ask (q := .selectLabelled labelId')
      (B := fun ids => selected t labelId labelId' ids []) fun w ⟨a, under, empty⟩ f => ?_)
      fun ids => ?_
    · have chose : (effect t f w (.selectLabelled labelId')).2 = w.put t
          { a with ids := (w.labelled labelId').map (·.providerMessageId) } := by
        simp [effect, World.choose, under]
      rw [chose]
      refine ⟨put_restores .., _, put_self .., rfl, empty, ?_⟩
      rintro rfl - message mem carries
      exact List.mem_map.mpr ⟨message, List.mem_filter.mpr ⟨mem, by simpa using carries⟩, rfl⟩
    · refine Triple.bind (B := fun _ => selected t labelId labelId' ids
        (Batches.batches gmailBatchModifyMaxIds ids)) ?_ fun _ => ?_
      · refine Triple.when (fun _ => mirrors_postAll _ _ []) fun empty w h => ?_
        obtain rfl : ids = [] := by simpa using empty
        exact h
      · exact Triple.bind (mirrors_settle own ids) fun _ => Triple.done fun _ _ => trivial

theorem mirrors_recordWakeFailure (e : WakeError) :
    Mirrors (.fact True : Assertion (Spares labelId t)) (recordWakeFailure v e)
      fun _ => .fact True := by
  refine Triple.bind (B := fun _ => .fact True) ?_ fun superseded => ?_
  · unfold grantSuperseded
    split
    · exact quiet_ask fun _ _ => rfl
    · exact Triple.done fun _ h => h
  · exact (quiet_backOff _).mirrors

theorem mirrors_unlock :
    Mirrors (.fact True : Assertion (Spares labelId t)) unlock fun _ => .fact True :=
  Mirrors.bestEffort (quiet_of_same fun _ _ => rfl).always

/-- The wake of a sweep, and of a job. -/
theorem mirrors_return {recovers : WakeError → WakeProgram WakeOutcome} (own : labelId ≠ "INBOX")
    (handled : ∀ e, Mirrors (.fact True : Assertion (Spares labelId t)) (recovers e)
      fun _ => .fact True) :
    Mirrors (begun t labelId)
      (Program.ensure (tryCatch (WakeOutcome.of <$> wakeSender v) recovers) unlock)
      fun _ => .fact True := by
  have wakes : Mirrors (begun t labelId) (WakeOutcome.of <$> wakeSender v) fun _ => .fact True :=
    Triple.bind (mirrors_wakeSender own) fun _ => Triple.done fun _ h => h
  have body : Mirrors (begun t labelId) (tryCatch (WakeOutcome.of <$> wakeSender v) recovers)
      fun _ => .fact True := Triple.tryCatch wakes handled
  exact Triple.ensure body (fun _ => mirrors_unlock) fun _ => mirrors_unlock

theorem mirrors_runTargetedWake (own : labelId ≠ "INBOX") (attempt maxAttempts : ℕ) :
    Mirrors (begun t labelId) (runTargetedWake v attempt maxAttempts) fun _ => .fact True := by
  have locks : Mirrors (begun t labelId) (ask .lockMailbox) fun _ => begun t labelId :=
    quiet_ask fun _ _ => rfl
  refine Triple.bind locks fun _ => mirrors_return own fun e => ?_
  have records : Mirrors (.fact True : Assertion (Spares labelId t))
      (Program.when (e.isNonRetryable || decide (maxAttempts ≤ attempt)) (recordWakeFailure v e))
      fun _ => .fact True :=
    Triple.when (fun _ => mirrors_recordWakeFailure e) fun _ _ h => h
  exact Triple.bind records fun _ => Triple.failed fun _ h => h

/-- What the sweep's read leaves. -/
def found (t : ℕ) (labelId : Label) : Option SnoozeTimerVersion → Assertion (Spares labelId t)
  | none => .fact True
  | some _ => begun t labelId

theorem mirrors_sweep (own : labelId ≠ "INBOX") (now : ℤ) :
    Mirrors (.fact True : Assertion (Spares labelId t)) (sweep now) fun _ => .fact True := by
  unfold sweep
  refine Triple.bind (Mirrors.ask (q := .selectDue now) (B := found t labelId)
    fun w _ f => ?_) fun read => ?_
  · simp only [effect]
    cases w.dueVersion now with
    | none => exact ⟨.of_mail (fun _ _ => rfl) rfl, trivial⟩
    | some v => exact ⟨put_restores .., _, put_self .., rfl⟩
  cases read with
  | none => exact Triple.done fun _ h => h
  | some v =>
    have enters : @Triple WakeSignature waking (Spares labelId) t _ (Restores labelId)
        (begun t labelId) (ask .lockMailbox) (fun _ => begun t labelId) fun _ => begun t labelId :=
      (quiet_of_same fun _ _ => rfl).always
    refine Triple.bind (B := fun _ => begun t labelId) ?_ fun entered => ?_
    · exact Mirrors.bestEffort (enters.bind fun _ => Triple.done fun _ h => h)
    cases entered with
    | false => exact Triple.done fun _ _ => trivial
    | true =>
      exact mirrors_return own fun e =>
        Triple.bind (mirrors_recordWakeFailure e) fun _ => Triple.done fun _ h => h

end Code

/-! ## Every run -/

theorem mirror_verified {labelId : Label} (own : labelId ≠ "INBOX") :
    Verified waking (Undisturbed labelId) (Spares labelId) (Restores labelId) (fun _ => True)
      (fun _ _ => True) fun _ _ _ => True where
  guarantee_rely other _ restores := restores.spares other
  guarantee_inv _ _ := trivial
  idle_stable _ _ _ _ := fun _ => trivial
  start := by
    intro t task w w' _ _ accepted
    cases task with
    | sweep now =>
      obtain rfl := Option.some.inj accepted
      exact ⟨forget_restores w, (mirrors_sweep own now _ trivial).mono fun _ _ _ => trivial⟩
    | wake pinned attempt maxAttempts =>
      obtain ⟨queued, same⟩ := Option.ite_none_right_eq_some.mp accepted
      obtain rfl := Option.some.inj same
      exact ⟨put_restores .., (mirrors_runTargetedWake own attempt maxAttempts _
        ⟨_, put_self .., rfl⟩).mono fun _ _ _ => trivial⟩
  finish := by
    intro t r w w' _ _ settled
    obtain rfl := Option.some.inj settled
    exact ⟨forget_restores w, trivial⟩
  crash := by
    intro t w w' _ crashed
    obtain rfl := Option.some.inj crashed
    exact ⟨forget_restores w, trivial⟩
  disturb := by
    intro e w w' _ undisturbed disturbed
    obtain rfl := Option.some.inj disturbed
    exact ⟨trivial, fun t => World.Undisturbed.spares undisturbed t⟩

theorem relabelled_self (mail : List MailMessage) : relabelled mail mail = [] := by
  refine List.filterMap_eq_nil_iff.mpr fun pair mem => ?_
  rw [List.zip_eq_zipWith, List.zipWith_self] at mem
  obtain ⟨message, -, rfl⟩ := List.mem_map.mp mem
  exact if_pos rfl

/-- Only the end of a return writes the mirror. -/
theorem effect_mail (t : ℕ) (f : Found) (w : World) (q : Request) :
    (effect t f w q).2.mail = w.mail ∨
      ∃ labelId v, q = .settle labelId true v ∧
        (effect t f w q).2.mail = w.restoreMirror labelId := by
  cases q with
  | selectDue now =>
    refine .inl ?_
    simp only [effect]
    cases w.dueVersion now <;> rfl
  | selectLabelled | post =>
    refine .inl ?_
    simp only [effect, World.choose, World.accept]
    split <;> rfl
  | claim | backOff => exact .inl (touch_mail ..)
  | settle labelId restored v =>
    cases restored with
    | false => exact .inl rfl
    | true => exact .inr ⟨labelId, v, rfl, rfl⟩
  | lockMailbox | unlockMailbox | getClient | ensureLabelId | publishLabelId
  | recordMailboxSyncFailure => exact .inl rfl

/-- The label is the one that the thread's statement takes off, if it is the end of a return. -/
def settles (labelId : Label) : WakeProgram WakeOutcome → Bool
  | .request (.settle labelId' true _) _ => labelId' = labelId
  | _ => true

theorem reply_mail {labelId : Label} {c d : Config waking} {t : ℕ} {ch : Choice}
    (label : (c.running t).all (settles labelId) = true)
    (taken : c.step (.reply t ch) = some d) :
    d.world.mail = c.world.mail ∨ d.world.mail = World.restoreMirror c.world labelId := by
  obtain ⟨q, next, running⟩ : ∃ q next, c.running t = some (.request q next) := by
    cases running : c.running t with
    | none => simp [Config.step, running] at taken
    | some p =>
      cases p with
      | ret | raise => simp [Config.step, running] at taken
      | request q next => exact ⟨q, next, rfl⟩
  · simp only [Config.step, running] at taken
    obtain ⟨⟨r, w⟩, answered, rfl⟩ := Option.map_eq_some_iff.mp taken
    have went : ∀ f, w = (effect t f c.world q).2 →
        World.mail w = World.mail c.world ∨ World.mail w = World.restoreMirror c.world labelId := by
      rintro f rfl
      rcases effect_mail t f c.world q with same | ⟨labelId', v, rfl, mail⟩
      · exact .inl same
      · rw [running] at label
        have own : decide (labelId' = labelId) = true := label
        exact .inr (of_decide_eq_true own ▸ mail)
    cases ch with
    | go f | lost f e => exact went f (Prod.mk.inj (Option.some.inj answered)).2.symm
    | fail e => exact .inl (congrArg World.mail (Prod.mk.inj (Option.some.inj answered)).2.symm)

/-- The sweep up to its post, with one message that carries the label. -/
def underWay : List (Move waking) := .start (0 : ℕ) (.sweep 200) :: .replicate 7 (goes 0)

end DeclutrMail.Later
