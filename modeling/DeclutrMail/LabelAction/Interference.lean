import DeclutrMail.Interleaving.Ownership
import DeclutrMail.LabelAction.Invariant

/-!
# What a delivery knows while it holds the lock

The lock of the mailbox makes its holder the owner of the job: the others can only do what
`Background` allows. The assertions of this file survive that, and `request` is the rule for
one request of the owner, which has to be a step of the protocol.
-/

namespace DeclutrMail.LabelAction

open Interleaving

variable (u : UserLabels) (S : Scope) (root : ActionJob)

def discipline : Discipline (system u S.confirmed) where
  owner := World.lock
  inv := Inv root
  kept := Relation.ReflTransGen (Act u S)
  background := Background S
  owner_background b := b.lock
  kept_refl _ := .refl
  kept_trans h g := h.trans g

/-- What the owner knows. -/
abbrev Local := (discipline u S root).Local

abbrev Does {α : Type} (t : Delivery) (P : Local u S root) (p : Program Sig α)
    (B : α → Local u S root) (E : ActionError → Local u S root) : Prop :=
  (discipline u S root).Does t P p B E

variable {u S root} {t : Delivery} {w w' : World} {job : ActionJob} {ids : List MessageId}

/-! ## Requests -/

/-- A step of the protocol, or none. -/
def Steps (u : UserLabels) (S : Scope) (w w' : World) : Prop :=
  w'.lock = w.lock ∧ (w' = w ∨ Act u S w w')

theorem Steps.refl (w : World) : Steps u S w w := ⟨rfl, .inl rfl⟩

theorem Steps.kept (h : Steps u S w w') : Relation.ReflTransGen (Act u S) w w' := by
  rcases h.2 with rfl | step
  · exact .refl
  · exact .single step

theorem Steps.inv (h : Steps u S w w') (inv : Inv root w) : Inv root w' := by
  rcases h.2 with rfl | step
  · exact inv
  · exact inv.act step

theorem Request.external_of_mayLose {q : Request} {e : ActionError} (h : q.mayLose e = true) :
    e.external = true := by
  cases q <;> simp_all [Request.mayLose]

theorem Request.external_of_mayFail {q : Request} {e : ActionError} (h : q.mayFail e = true) :
    e.external = true := by
  cases q <;> simp_all [Request.mayFail]

section

variable {q : Request} {P : Local u S root} {B : q.Answer → Local u S root}
  {E : ActionError → Local u S root}

/-- One request of the owner. -/
theorem request
    (go : ∀ w, Inv root w → P w → ∀ f a w', effect u t f w q = some (a, w') →
      Steps u S w w' ∧ B a w' ∧ ∀ e, q.mayLose e = true → E e w')
    (fail : ∀ w, Inv root w → P w → ∀ e, q.mayFail e = true →
      Steps u S w (missed e w q) ∧ E e (missed e w q)) :
    Does u S root t P (await q) B E := by
  refine Discipline.own fun w inv mine known ch r w' answered => ?_
  have owed : Steps u S w w' ∧ match r with
      | .ok a => B a w'
      | .error e => E e w' := by
    cases ch with
    | go f =>
      obtain ⟨⟨a, v⟩, took, same⟩ := Option.map_eq_some_iff.mp answered
      obtain ⟨rfl, rfl⟩ := Prod.mk.inj same
      obtain ⟨steps, held, -⟩ := go w inv known f a v took
      exact ⟨steps, held⟩
    | lost f e =>
      simp only [system, answer] at answered
      split_ifs at answered with loses
      obtain ⟨⟨a, v⟩, took, same⟩ := Option.map_eq_some_iff.mp answered
      obtain ⟨rfl, rfl⟩ := Prod.mk.inj same
      obtain ⟨steps, -, lost⟩ := go w inv known f a v took
      exact ⟨steps, lost e loses⟩
    | fail e =>
      simp only [system, answer] at answered
      split_ifs at answered with fails
      obtain ⟨rfl, rfl⟩ := Prod.mk.inj (Option.some.inj answered)
      exact fail w inv known e fails
  refine ⟨owed.1.1.trans mine, owed.1.inv inv, owed.1.kept, ?_⟩
  cases r <;> exact owed.2

/-- A request that leaves no trace when it fails. -/
theorem writes (silent : ∀ e w, missed e w q = w)
    (go : ∀ w, Inv root w → P w → ∀ f a w', effect u t f w q = some (a, w') →
      Steps u S w w' ∧ B a w' ∧ ∀ e, e.external = true → E e w')
    (fail : ∀ w, Inv root w → P w → ∀ e, e.external = true → E e w) :
    Does u S root t P (await q) B E := by
  refine request (fun w inv known f a w' took => ?_) fun w inv known e fails => ?_
  · obtain ⟨steps, held, lost⟩ := go w inv known f a w' took
    exact ⟨steps, held, fun e loses => lost e (Request.external_of_mayLose loses)⟩
  · rw [silent]
    exact ⟨.refl w, fail w inv known e (Request.external_of_mayFail fails)⟩

/-- A request that only reads. -/
theorem reads (silent : ∀ e w, missed e w q = w)
    (go : ∀ w, Inv root w → P w → ∀ f a w', effect u t f w q = some (a, w') → w' = w ∧ B a w)
    (fail : ∀ w, Inv root w → P w → ∀ e, e.external = true → E e w) :
    Does u S root t P (await q) B E := by
  refine writes silent (fun w inv known f a w' took => ?_) fail
  obtain ⟨rfl, held⟩ := go w inv known f a w' took
  exact ⟨.refl w', held, fun e outside => fail w' inv known e outside⟩

end

/-- A request with nothing to say about the world. -/
theorem passes {q : Request} {P : Local u S root} (silent : ∀ e w, missed e w q = w)
    (same : ∀ w f a w', effect u t f w q = some (a, w') → w' = w) :
    Does u S root t P (await q) (fun _ => P) fun _ => P :=
  reads silent (fun w _ known f a w' took => ⟨same w f a w' took, known⟩)
    fun _ _ known _ _ => known

/-! ## Assertions -/

/-- Nothing is known. -/
def anything : Local u S root := .fact True

theorem World.Running.background (h : w.Running) (b : Background S w w') : w'.Running := by
  refine ⟨fun done => ?_, b.activityLog.trans h.activityLog⟩
  rcases b.forward.status with same | failed
  · exact h.status (same.symm.trans done)
  · rw [failed] at done
    cases done

theorem World.Eligible.background {m : MessageId} (h : w.Eligible m) (b : Background S w w')
    (calm : S.calm m) : w'.Eligible m := by
  rw [World.Eligible, b.mailMessages m calm,
    show senderActionWhere w'.forward = senderActionWhere w.forward from
      funext b.forward.same_job.senderActionWhere]
  exact h

theorem Background.hasInbox {m : MessageId} (b : Background S w w') (calm : S.calm m) :
    w'.hasInbox m = w.hasInbox m := by
  rw [World.hasInbox, b.mailMessages m calm, World.hasInbox]

/-- The job is under way, with its durable ids and its stored placement; `job` is the row as
the delivery read it. -/
structure AttemptAt (job : ActionJob) (ids : List MessageId) (deleteUndo : Option DeleteUndo)
    (w : World) : Prop where
  running : w.Running
  ids : w.forward.resolvedMessageIds = ids
  deleteUndo : w.forward.deleteUndo = deleteUndo
  marked : neverReachedGmail job = false → EverMarked w.log

theorem AttemptAt.background {deleteUndo : Option DeleteUndo}
    (h : AttemptAt job ids deleteUndo w) (b : Background S w w') :
    AttemptAt job ids deleteUndo w' where
  running := h.running.background b
  ids := b.forward.kept.1.trans h.ids
  deleteUndo := b.forward.kept.2.1.trans h.deleteUndo
  marked reached := by
    rw [b.log]
    exact h.marked reached

def underWay : Local u S root := ⟨World.Running, fun _ _ h b => h.background b⟩

def attempting (job : ActionJob) (ids : List MessageId) (deleteUndo : Option DeleteUndo) :
    Local u S root :=
  ⟨AttemptAt job ids deleteUndo, fun _ _ h b => h.background b⟩

/-- Nothing of the job was applied, if it read as untouched. -/
def unsent (job : ActionJob) : Local u S root where
  holds w := neverReachedGmail job = true → ¬MaybeApplied w.log
  stable := by
    intro w w' h b
    rw [b.log]
    exact h

/-- The row says that Gmail may have changed. -/
def reached : Local u S root where
  holds w := neverReachedGmail w.forward = false ∧ EverMarked w.log
  stable := by
    intro w w' h b
    rw [b.log]
    exact ⟨b.forward.reached h.1, h.2⟩

def lastLogged (entry : LogEntry) : Local u S root where
  holds w := w.log.head? = some entry
  stable := by
    intro w w' h b
    rw [b.log]
    exact h

def landed (ids : List MessageId) (change : LabelChange) : Local u S root where
  holds w := w.Landed S ids change
  stable := by
    intro w w' h b m mem calm
    rw [b.gmail m calm]
    exact h m mem calm

theorem apply_apply (change : LabelChange) (labels : Finset Label) :
    change.apply (change.apply labels) = change.apply labels := by
  ext x
  simp only [LabelChange.apply, Finset.mem_union, Finset.mem_sdiff]
  tauto

theorem World.Landed.batchModify {chunk : List MessageId} {change : LabelChange}
    (h : w.Landed S ids change) (sent : w'.gmail = batchModify chunk change w.gmail) :
    w'.Landed S (ids ++ chunk) change := by
  intro m mem calm
  rw [sent, LabelAction.batchModify]
  split_ifs with now
  · exact apply_apply change (w.gmail m)
  · exact h m ((List.mem_append.mp mem).resolve_right now) calm

theorem World.Landed.apart {chunk : List MessageId} {change change' : LabelChange}
    (h : w.Landed S ids change) (sent : w'.gmail = LabelAction.batchModify chunk change' w.gmail)
    (apart : ∀ m ∈ chunk, m ∉ ids) : w'.Landed S ids change := by
  intro m mem calm
  rw [sent, LabelAction.batchModify, if_neg fun now => apart m now mem]
  exact h m mem calm

/-- The ids are mail of the sender, or were when they were first sent. -/
def inScope (job : ActionJob) (ids : List MessageId) : Local u S root where
  holds w := customAutopilot job = true → job.recoveryAttempt = 0 →
    EverMarked w.log ∨ ∀ m ∈ ids, S.calm m → w.Eligible m
  stable := by
    intro w w' h b custom first
    rw [b.log]
    refine (h custom first).imp_right fun eligible m mem calm => ?_
    exact (eligible m mem calm).background b calm

def eligible (ids : List MessageId) : Local u S root where
  holds w := ∀ m ∈ ids, S.calm m → w.Eligible m
  stable := fun _ _ h b m mem calm => (h m mem calm).background b calm

theorem PlacementOk.background {snapshot : DeleteUndo} (h : PlacementOk S w snapshot)
    (b : Background S w w') : PlacementOk S w' snapshot := by
  have kept := b.forward.kept
  unfold PlacementOk at h ⊢
  rw [kept.1, kept.2.1, b.log, b.forward.same_job.recoveryAttempt]
  refine h.imp_left fun ⟨inbox, same, placed⟩ => ⟨inbox, same, fun m mem calm => ?_⟩
  rw [b.hasInbox calm]
  exact placed m mem calm

def placement (snapshot : DeleteUndo) : Local u S root where
  holds w := PlacementOk S w snapshot
  stable := fun _ _ h b => h.background b

/-- An error that ends the job from outside finds it under way. -/
def openIfBlocked (e : ActionError) : Local u S root where
  holds w := (∃ block, e = .customAutopilotBlocked block) → w.Running
  stable := fun _ _ h b blocked => (h blocked).background b

/-- The reverse row that a delivery works on. -/
def reverting (job : ActionJob) : Local u S root where
  holds w := ∃ row, w.reverse = some row ∧ SameRevert job row
  stable := by
    rintro w w' ⟨row, there, same⟩ b
    have drift := b.reverse
    rw [there] at drift
    generalize w'.reverse = after at drift ⊢
    cases drift with
    | same still =>
      exact ⟨_, rfl, still.verb.trans same.verb, still.direction.trans same.direction,
        still.reach.trans same.reach, still.undoToken.trans same.undoToken,
        still.resolvedMessageIds.trans same.resolvedMessageIds⟩

def holdsPayload (token : UndoToken) (payload : Option UndoPayload) : Local u S root where
  holds w := w.undoPayload token = payload
  stable := by
    intro w w' h b
    simpa only [World.undoPayload, b.undoJournal] using h

/-- Every group has landed. -/
def landedAll (groups : List ReverseGroup) : Local u S root where
  holds w := ∀ group ∈ groups, w.Landed S group.ids group.change
  stable := fun _ _ h b group mem => (landed group.ids group.change).stable (h group mem) b

end DeclutrMail.LabelAction
