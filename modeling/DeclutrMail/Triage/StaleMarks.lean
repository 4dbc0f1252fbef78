import DeclutrMail.Interleaving.Turns
import DeclutrMail.Triage.CategorySweep

/-!
# How long a stale mark lasts

A sweep finds every sender again that it owes a new verdict, as long as no job writes over the mark
that read the tab before it changed. The upsert does not see to that: it compares `produced_at`
only, and a job that was triggered after the marked verdict may have read before the sweep.
-/

namespace DeclutrMail.Triage.Marks

open Interleaving
open Sync.Ingest (MailMessage Sender GmailCategory)

variable {w w' : World} {t : ℕ} {tx : Tx} {key : Text}

/-! ## Steps -/

/-- A job that is about to write over a marked row has read the tab since its last change, and no
sweep is changing it. -/
def World.Permits (w : World) (t : ℕ) : Prop :=
  ∀ a ∈ w.attempts t, ∀ producedAt ∈ a.writing, ∀ row ∈ w.decisions a.senderKey,
    isMarked row = true → row.producedAt < producedAt →
      a.version = w.version a.senderKey ∧ w.changing a.senderKey = false

instance : Decidable (w.Permits t) := by
  unfold World.Permits
  infer_instance

def Careful (w : World) : Move system → Prop
  | .reply t _ => w.Permits t
  | _ => True

instance : ∀ (w : system.World) (m : Move system), Decidable (Careful w m) :=
  fun (w : World) m => match m with
  | .reply (t : ℕ) _ => inferInstanceAs (Decidable (w.Permits t))
  | .start .. | .finish _ | .crash _ | .disturb _ => inferInstanceAs (Decidable True)

/-- The system by such steps -/
abbrev careful : System Sig := system.restrict Careful

/-! ## What every step keeps -/

def World.Marked (w : World) (key : Text) : Prop := ∃ d, w.decisions key = some d ∧ isMarked d = true

def World.HasSender (w : World) (key : Text) : Prop :=
  ∃ s ∈ w.senders, s.mailboxAccountId = w.mailboxAccountId ∧ s.senderKey = key

/-- What an open transaction has written can still be committed. -/
structure World.Pending (w : World) (tx : Tx) : Prop where
  changed {key : Text} : tx.changed key = true → w.HasSender key
  marked {key : Text} : key ∈ tx.marked → ∃ d, w.decisions key = some d
  noted {key : Text} : key ∈ tx.noted → tx.changed key = true ∧ (key ∈ tx.marked ∨ w.Marked key)

structure World.Inv (w : World) : Prop where
  owed {key : Text} : w.owed key = true → w.Marked key ∧ w.HasSender key
  pending {t : ℕ} {tx : Tx} : w.hold = some (t, tx) → w.Pending tx
  lost : w.lost = false

structure Guarantee (t : ℕ) (w w' : World) : Prop where
  inv : w'.Inv
  attempts {t' : ℕ} : t' ≠ t → w'.attempts t' = w.attempts t'

structure Rely (t : ℕ) (w w' : World) : Prop where
  inv : w'.Inv
  attempt : w'.attempts t = w.attempts t

theorem Guarantee.refl (inv : w.Inv) : Guarantee t w w := ⟨inv, fun _ => rfl⟩

@[simp] theorem isMarked_mark (d : Decision) : isMarked (mark d) = true := decide_eq_true rfl

/-- A transaction sees its own marks on top of the others. -/
theorem marked_decisionsIn (marked : ∃ d, w.decisions key = some d)
    (here : key ∈ tx.marked ∨ w.Marked key) :
    ∃ d, w.decisionsIn tx key = some d ∧ isMarked d = true := by
  unfold World.decisionsIn
  split_ifs with own
  · obtain ⟨d, stored⟩ := marked
    exact ⟨mark d, by rw [stored]; rfl, isMarked_mark d⟩
  · exact here.resolve_left own

theorem World.Marked.decisionsIn (marked : w.Marked key) :
    ∃ d, w.decisionsIn tx key = some d ∧ isMarked d = true :=
  marked_decisionsIn (marked.imp fun _ h => h.1) (.inr marked)

/-- The tabs change, the senders stay. -/
theorem mem_sendersIn_keys {s : Sender} (here : s ∈ w.sendersIn tx) :
    ∃ s₀ ∈ w.senders, s₀.mailboxAccountId = s.mailboxAccountId ∧ s₀.senderKey = s.senderKey := by
  obtain ⟨s₀, there, rfl⟩ := List.mem_map.mp here
  refine ⟨s₀, there, ?_⟩
  split
  · split_ifs <;> exact ⟨rfl, rfl⟩
  · exact ⟨rfl, rfl⟩

theorem World.HasSender.sendersIn (has : w.HasSender key) :
    ∃ s ∈ w.sendersIn tx, s.mailboxAccountId = w.mailboxAccountId ∧ s.senderKey = key := by
  obtain ⟨s, here, mine, same⟩ := has
  refine ⟨_, List.mem_map_of_mem here, ?_⟩
  split
  · rw [if_pos mine]
    exact ⟨mine, same⟩
  · exact ⟨mine, same⟩

/-- A marked sender waits for its verdict, as every transaction sees it. -/
theorem mem_awaiting (marked : w.Marked key) (has : w.HasSender key) : key ∈ w.awaiting tx := by
  obtain ⟨s, here, mine, rfl⟩ : ∃ s ∈ w.sendersIn tx,
      s.mailboxAccountId = w.mailboxAccountId ∧ s.senderKey = key := has.sendersIn
  obtain ⟨d, stored, marked⟩ : ∃ d, w.decisionsIn tx s.senderKey = some d ∧ isMarked d = true :=
    marked.decisionsIn
  refine List.mem_map_of_mem (List.mem_mergeSort.mpr (List.mem_filter.mpr ⟨here, ?_⟩))
  simp [mine, World.markedIn, stored, marked]

/-! ## The statements of a sweep -/

theorem World.Pending.empty : w.Pending .empty := ⟨nofun, nofun, nofun⟩

theorem hasSender_of_reconciled {s : Sender} (here : s ∈ (w.reconciled tx).senders)
    (mine : s.mailboxAccountId = w.mailboxAccountId) : w.HasSender s.senderKey := by
  obtain ⟨s₁, there, rfl⟩ := List.mem_map.mp here
  obtain ⟨s₀, before, account, same⟩ := mem_sendersIn_keys there
  revert mine
  cases Sync.Ingest.Recount.update w.messages w.mailboxAccountId (w.sendersIn tx) s₁ <;> intro mine
  · exact ⟨s₀, before, account.trans mine, same⟩
  · exact ⟨s₀, before, account.trans mine, same⟩

theorem World.Pending.reconcile (pending : w.Pending tx) : w.Pending (w.reconcile tx).2 where
  changed {key} changed := by
    obtain ⟨tab, here, same⟩ := List.any_eq_true.mp changed
    obtain rfl : tab.1 = key := of_decide_eq_true same
    rcases List.mem_append.mp here with new | old
    · obtain ⟨s, found, rfl⟩ := List.mem_map.mp new
      obtain ⟨there, mine⟩ := List.mem_filter.mp found
      exact hasSender_of_reconciled there (of_decide_eq_true mine).1
    · exact pending.changed (List.any_eq_true.mpr ⟨tab, old, decide_eq_true rfl⟩)
  marked := pending.marked
  noted here := by
    obtain ⟨changed, marked⟩ := pending.noted here
    exact ⟨by rw [Tx.changed, World.reconcile, List.any_append]; exact Bool.or_eq_true_iff.mpr (.inr changed),
      marked⟩

theorem stored_of_decisionsIn {d : Decision} (stored : w.decisionsIn tx key = some d) :
    ∃ d, w.decisions key = some d := by
  unfold World.decisionsIn at stored
  split_ifs at stored
  · obtain ⟨d, stored, -⟩ := Option.map_eq_some_iff.mp stored
    exact ⟨d, stored⟩
  · exact ⟨d, stored⟩

theorem World.Pending.markKeys (pending : w.Pending tx) (keys : List Text) :
    w.Pending (w.markKeys tx keys) where
  changed := pending.changed
  marked here := by
    rcases List.mem_append.mp here with old | new
    · exact pending.marked old
    · obtain ⟨-, fresh⟩ := List.mem_filter.mp new
      obtain ⟨d, stored, -⟩ := (Option.any_eq_true _ _).mp fresh
      exact stored_of_decisionsIn stored
  noted here := (pending.noted here).imp_right (.imp_left (List.mem_append_left _))

theorem World.Pending.markStale (pending : w.Pending tx) (keys : List Text) :
    w.Pending (w.markStale tx keys) where
  changed := pending.changed
  marked := (pending.markKeys keys).marked
  noted {key} here := by
    rcases List.mem_append.mp here with old | new
    · exact (pending.markKeys keys).noted old
    · obtain ⟨changed, found⟩ := Bool.and_eq_true_iff.mp (List.mem_filter.mp new).2
      refine ⟨changed, ?_⟩
      obtain ⟨d, stored, marked⟩ := (Option.any_eq_true _ _).mp found
      unfold World.decisionsIn at stored
      split_ifs at stored with own
      · exact .inl (List.mem_append_left _ own)
      · exact .inr ⟨d, stored, marked⟩

/-- The transaction writes, and nothing is committed. -/
theorem World.Inv.setTx (inv : w.Inv) (pending : w.Pending tx) : (w.setTx t tx).Inv where
  owed := inv.owed
  pending here := by
    obtain ⟨-, rfl⟩ := Prod.mk.inj (Option.some.inj here)
    exact ⟨pending.changed, pending.marked, pending.noted⟩
  lost := inv.lost

theorem World.Inv.release (inv : w.Inv) : World.Inv { w with hold := none } :=
  ⟨inv.owed, nofun, inv.lost⟩

theorem World.Inv.commit (inv : w.Inv) (pending : w.Pending tx) : (w.commit tx).Inv where
  owed {key} owed := by
    rcases Bool.or_eq_true_iff.mp owed with before | now
    · obtain ⟨marked, has⟩ := inv.owed before
      exact ⟨marked.decisionsIn, has.sendersIn⟩
    · obtain ⟨changed, written⟩ := Bool.and_eq_true_iff.mp now
      refine ⟨?_, (pending.changed changed).sendersIn⟩
      rcases Bool.or_eq_true_iff.mp written with own | found
      · have own := of_decide_eq_true own
        exact marked_decisionsIn (pending.marked own) (.inl own)
      · obtain ⟨-, own | marked⟩ := pending.noted (of_decide_eq_true found)
        · exact marked_decisionsIn (pending.marked own) (.inl own)
        · exact marked.decisionsIn
  pending := nofun
  lost := inv.lost

/-- What is remembered of the jobs changes. -/
theorem World.Inv.remember (inv : w.Inv) (attempts : ℕ → Option Attempt) :
    World.Inv { w with attempts := attempts } where
  owed := inv.owed
  pending held :=
    have pending := inv.pending held
    ⟨pending.changed, pending.marked, pending.noted⟩
  lost := inv.lost

/-! ## The write of a score job -/

theorem World.Inv.upsert {d : Decision} {version : ℕ} (inv : w.Inv)
    (about : w.attempts t = some ⟨key, version, some d.producedAt⟩) (permits : w.Permits t)
    (unlocked : w.locked key = false) : (w.upsert t key d).Inv := by
  unfold World.upsert
  split_ifs with newer
  · have fresh (marked : w.Marked key) :
        version = w.version key ∧ w.changing key = false := by
      obtain ⟨row, stored, marked⟩ := marked
      have older : row.producedAt < d.producedAt := by simpa [stored] using newer
      exact permits _ about _ rfl row stored marked older
    refine ⟨fun {key'} owed => ?_, fun {t' tx} held => ?_, ?_⟩
    · by_cases same : key' = key
      · subst same
        simp at owed
      · have before : w.owed key' = true := by simpa [same] using owed
        obtain ⟨⟨row, stored, marked⟩, has⟩ := inv.owed before
        exact ⟨⟨row, by simpa [same] using stored, marked⟩, has⟩
    · have pending := inv.pending held
      have free : key ∉ tx.marked := by simpa [World.locked, show w.hold = _ from held] using unlocked
      refine ⟨pending.changed, fun {key'} here => ?_, fun {key'} here => ?_⟩
      · by_cases same : key' = key
        · exact absurd (same ▸ here) free
        · obtain ⟨row, stored⟩ := pending.marked here
          exact ⟨row, by simpa [same] using stored⟩
      · obtain ⟨changed, marked⟩ := pending.noted here
        refine ⟨changed, ?_⟩
        by_cases same : key' = key
        · subst same
          have quiet := (fresh (marked.resolve_left free)).2
          have busy : w.changing key' = true := by
            simpa [World.changing, show w.hold = _ from held] using changed
          exact Bool.noConfusion (quiet.symm.trans busy)
        · refine marked.imp_right fun ⟨row, stored, marked⟩ => ⟨row, ?_, marked⟩
          simpa [same] using stored
    · cases owed : w.owed key with
      | false => simp [inv.lost]
      | true =>
        have same := (fresh (inv.owed owed).1).1
        simp [inv.lost, World.current, about, same]
  · exact inv.remember _

/-! ## Requests -/

/-- Writes no verdict. -/
def Request.mild : Request → Bool
  | .upsertDecision .. => false
  | _ => true

theorem txOf_hold (open_ : w.txOf t = some tx) : w.hold = some (t, tx) := by
  unfold World.txOf at open_
  obtain ⟨⟨owner, tx'⟩, held, mine⟩ := Option.bind_eq_some_iff.mp open_
  obtain ⟨rfl, same⟩ := Option.ite_none_right_eq_some.mp mine
  obtain rfl := Option.some.inj same
  exact held

theorem inTx_inv {α : Type} {f : Tx → α × Tx} {a : α} (inv : w.Inv)
    (took : inTx w t f = some (a, w')) (keeps : ∀ tx, w.Pending tx → w.Pending (f tx).2) :
    Guarantee t w w' := by
  obtain ⟨tx, mine, same⟩ := Option.map_eq_some_iff.mp took
  obtain ⟨-, rfl⟩ := Prod.mk.inj same
  exact ⟨inv.setTx (keeps tx (inv.pending (txOf_hold mine))), fun _ => rfl⟩

theorem Guarantee.effect {q : Request} {found : Found} {a : q.Answer} (inv : w.Inv)
    (mild : q.mild = true) (took : Marks.effect t found w q = some (a, w')) :
    Guarantee t w w' := by
  cases q with
  | begin =>
    obtain ⟨-, here⟩ := Option.ite_none_right_eq_some.mp took
    obtain ⟨-, rfl⟩ := Prod.mk.inj (Option.some.inj here)
    exact ⟨inv.setTx .empty, fun _ => rfl⟩
  | reconcileSenderCategories => exact inTx_inv inv took fun _ pending => pending.reconcile
  | markDecisionsStale keys => exact inTx_inv inv took fun _ pending => pending.markStale keys
  | expireUnbackedPrimaryKeeps => exact inTx_inv inv took fun _ pending => pending.markKeys _
  | applyAutomaticProtection | sendersAwaitingRescore =>
    exact inTx_inv inv took fun _ pending => pending
  | commit =>
    obtain ⟨tx, mine, same⟩ := Option.map_eq_some_iff.mp took
    obtain ⟨-, rfl⟩ := Prod.mk.inj same
    exact ⟨inv.commit (inv.pending (txOf_hold mine)), fun _ => rfl⟩
  | rollback =>
    obtain ⟨tx, mine, same⟩ := Option.map_eq_some_iff.mp took
    obtain ⟨-, rfl⟩ := Prod.mk.inj same
    exact ⟨inv.release, fun _ => rfl⟩
  | selectMayAct | onSendersRecategorized =>
    cases took
    exact .refl inv
  | loadSignals | explain =>
    cases took
    exact ⟨inv.remember _, fun ne => Function.update_of_ne ne ..⟩
  | upsertDecision => cases mild

theorem Guarantee.missed (inv : w.Inv) (q : Request) : Guarantee t w (Marks.missed t w q) := by
  unfold Marks.missed
  split
  · split_ifs
    · exact ⟨inv.release, fun _ => rfl⟩
    · exact .refl inv
  · split_ifs
    · exact ⟨inv.release, fun _ => rfl⟩
    · exact .refl inv
  · exact .refl inv

theorem Guarantee.answer {q : Request} {ch : Choice} {r : Except ScoreError q.Answer}
    (inv : w.Inv) (effects : ∀ found a v, Marks.effect t found w q = some (a, v) → Guarantee t w v)
    (answered : Marks.answer t q ch w = some (r, w')) : Guarantee t w w' := by
  cases ch with
  | go found | lost found =>
    obtain ⟨⟨a, v⟩, took, same⟩ := Option.map_eq_some_iff.mp answered
    obtain ⟨-, rfl⟩ := Prod.mk.inj same
    exact effects found a v took
  | fail =>
    obtain ⟨-, rfl⟩ := Prod.mk.inj (Option.some.inj answered)
    exact .missed inv q

/-! ## What a task knows -/

def kept (t : ℕ) : Assertion (Rely t) where
  holds := World.Inv
  stable := fun _ _ _ r => r.inv

/-- The job has read the sender's signals, and is about to write if `writing` says so. -/
def read (t : ℕ) (key : Text) (writing : Option ℤ) : Assertion (Rely t) where
  holds w := w.Inv ∧ ∃ version, w.attempts t = some ⟨key, version, writing⟩
  stable := fun _ _ h r => ⟨r.inv, by rw [r.attempt]; exact h.2⟩

abbrev Does {α : Type} (t : ℕ) (A : Assertion (Rely t)) (p : Prog α)
    (B : α → Assertion (Rely t)) : Prop :=
  Triple (M := careful) Guarantee A p B fun _ => kept t

theorem asks {A : Assertion (Rely t)} {q : Request} {B : q.Answer → Assertion (Rely t)}
    (step : ∀ w ch r w', A w → w.Permits t → Marks.answer t q ch w = some (r, w') →
      Guarantee t w w' ∧ ∀ a, r = .ok a → B a w') : Does t A (await q) B := by
  refine Triple.perform fun w assumed ch r w' answered => ?_
  obtain ⟨permitted, answered⟩ := System.restrict_answer answered
  obtain ⟨allowed, owed⟩ := step w ch r w' assumed permitted answered
  refine ⟨allowed, ?_⟩
  cases r with
  | ok a => exact owed a rfl
  | error e => exact allowed.inv

theorem does_mild {q : Request} (mild : q.mild = true) :
    Does t (kept t) (await q) fun _ => kept t :=
  asks fun _ _ _ _ inv _ answered =>
    have allowed := Guarantee.answer inv (fun _ _ _ => .effect inv mild) answered
    ⟨allowed, fun _ _ => allowed.inv⟩

/-! ## Sweeps -/

theorem does_markDecisionsStale (keys : List Text) :
    Does t (kept t) (markDecisionsStale keys) fun _ => kept t :=
  Triple.when (fun _ => does_mild rfl) fun _ _ h => h

theorem does_categories : Does t (kept t) categories fun _ => kept t :=
  Triple.bind (does_mild rfl) fun changed => Triple.bind (does_markDecisionsStale changed) fun _ =>
    Triple.bind (does_mild rfl) fun _ => Triple.bind (does_mild rfl) fun released =>
      Triple.bind (does_markDecisionsStale released) fun _ => does_mild rfl

theorem does_sweep : Does t (kept t) sweep fun _ => kept t := by
  have rolledBack (e : ScoreError) : Does t (kept t) (do
      await .rollback
      throw e : Prog (List Text)) fun _ => kept t :=
    Triple.bind (does_mild rfl) fun _ => Triple.failed fun _ h => h
  have held : Does t (kept t) hold fun _ => kept t :=
    Triple.bind (does_mild rfl) fun _ => Triple.bind (Triple.tryCatch does_categories rolledBack)
      fun _ => Triple.bind (does_mild rfl) fun _ => Triple.done fun _ h => h
  refine Triple.bind held fun awaiting => Triple.bind (Triple.when (fun _ => ?_) fun _ _ h => h)
    fun _ => Triple.done fun _ h => h
  refine Triple.tryCatch (Triple.bind (does_mild rfl) fun _ => ?_) fun _ => Triple.done fun _ h => h
  exact Triple.when (fun _ => does_mild rfl) fun _ _ h => h

/-! ## Score jobs -/

theorem does_loadSignals : Does t (kept t) (await (.loadSignals key)) fun _ => read t key none := by
  refine asks fun w ch r w' inv _ answered => ?_
  have allowed := Guarantee.answer inv (fun _ _ _ => .effect inv rfl) answered
  refine ⟨allowed, fun a found => ⟨allowed.inv, w.version key, ?_⟩⟩
  cases ch with
  | go =>
    obtain ⟨-, rfl⟩ := Prod.mk.inj (Option.some.inj answered)
    exact Function.update_self ..
  | lost | fail =>
    rw [found] at answered
    cases answered

theorem does_explain (job : ScoreJob) : Does t (read t key none) (await (.explain key job))
    fun _ => read t key (some job.producedAt) := by
  refine asks fun w ch r w' ⟨inv, version, about⟩ _ answered => ?_
  have allowed := Guarantee.answer inv (fun _ _ _ => .effect inv rfl) answered
  refine ⟨allowed, fun a found => ⟨allowed.inv, version, ?_⟩⟩
  cases ch with
  | go =>
    obtain ⟨-, rfl⟩ := Prod.mk.inj (Option.some.inj answered)
    simp [about]
  | lost | fail =>
    rw [found] at answered
    cases answered

theorem does_upsertDecision (d : Decision) :
    Does t (read t key (some d.producedAt)) (await (.upsertDecision key d)) fun _ => kept t := by
  refine asks fun w ch r w' ⟨inv, version, about⟩ permits answered => ?_
  have allowed : Guarantee t w w' := by
    refine .answer inv (fun found a v took => ?_) answered
    obtain ⟨unlocked, here⟩ := Option.ite_none_left_eq_some.mp took
    obtain ⟨-, rfl⟩ := Prod.mk.inj (Option.some.inj here)
    refine ⟨inv.upsert about permits (Bool.eq_false_iff.mpr unlocked), fun ne => ?_⟩
    unfold World.upsert
    split_ifs <;> exact Function.update_of_ne ne ..
  exact ⟨allowed, fun _ _ => allowed.inv⟩

theorem does_scoreOne (job : ScoreJob) : Does t (kept t) (scoreOne key job) fun _ => kept t := by
  refine Triple.bind does_loadSignals fun signals => ?_
  cases signals with
  | none => exact Triple.done fun _ h => h.1
  | some signals =>
    exact Triple.bind (does_explain job) fun prose =>
      Triple.bind (does_upsertDecision (job.decision signals prose)) fun _ => Triple.done fun _ h => h

theorem does_code (task : Task) : Does t (kept t) (code task) fun _ => kept t := by
  cases task with
  | sweep => exact Triple.bind does_sweep fun _ => Triple.done fun _ h => h
  | score senderKey job => exact Triple.bind (does_scoreOne job) fun _ => Triple.done fun _ h => h

/-! ## Runs -/

theorem Guarantee.leave (inv : w.Inv) : Guarantee t w (w.leave t) := by
  refine ⟨?_, fun ne => Function.update_of_ne ne ..⟩
  unfold World.leave
  split_ifs
  · exact inv.release.remember _
  · exact inv.remember _

theorem disturb_inv {e : Event} (inv : w.Inv) (disturbed : disturb w e = some w') :
    w'.Inv ∧ w'.attempts = w.attempts := by
  cases e with
  | mail messages =>
    obtain rfl := Option.some.inj disturbed
    refine ⟨⟨inv.owed, fun held => ?_, inv.lost⟩, rfl⟩
    have pending := inv.pending held
    exact ⟨pending.changed, pending.marked, pending.noted⟩
  | newSender s =>
    obtain ⟨-, here⟩ := Option.ite_none_left_eq_some.mp disturbed
    obtain rfl := Option.some.inj here
    have still {key : Text} (has : w.HasSender key) :
        World.HasSender { w with senders := w.senders ++ [s] } key :=
      has.imp fun _ h => ⟨List.mem_append_left _ h.1, h.2⟩
    refine ⟨⟨fun owed => (inv.owed owed).imp_right still, fun held => ?_, inv.lost⟩, rfl⟩
    have pending := inv.pending held
    exact ⟨fun changed => still (pending.changed changed), pending.marked, pending.noted⟩

theorem verified : Verified careful (fun _ _ => True) Rely Guarantee World.Inv
    (fun _ _ => True) (fun _ _ => World.Inv) where
  guarantee_rely ne _ allowed := ⟨allowed.inv, allowed.attempts (Ne.symm ne)⟩
  guarantee_inv _ allowed := allowed.inv
  idle_stable _ _ _ _ _ := trivial
  start := by
    intro t task w w' inv _ accepted
    obtain ⟨-, accepted⟩ := System.restrict_accept accepted
    obtain rfl := Option.some.inj accepted
    have allowed := Guarantee.leave (t := t) inv
    refine ⟨allowed, (does_code task _ allowed.inv).mono fun r v h => ?_⟩
    cases r <;> exact h
  finish := by
    intro t r w w' inv _ settled
    obtain ⟨-, settled⟩ := System.restrict_settle settled
    obtain rfl := Option.some.inj settled
    exact ⟨.leave inv, trivial⟩
  crash := by
    intro t w w' inv crashed
    obtain ⟨-, crashed⟩ := System.restrict_crash crashed
    obtain rfl := Option.some.inj crashed
    exact ⟨.leave inv, trivial⟩
  disturb := by
    intro e w w' inv _ disturbed
    obtain ⟨-, disturbed⟩ := System.restrict_disturb disturbed
    obtain ⟨inv', same⟩ := disturb_inv inv disturbed
    exact ⟨inv', fun t => ⟨inv', congrFun same t⟩⟩

/-- In every run by careful steps, no mark is cleared by a job that read the old tab, and every
sweep finds all senders that are owed a verdict. -/
theorem mark_kept {mailboxAccountId : String} {messages : List MailMessage} {senders : List Sender}
    {decisions : Text → Option Decision} {c : Config system}
    (run : RunWhere Careful (.idle (World.initial mailboxAccountId messages senders decisions)) c) :
    World.lost c.world = false ∧
    ∀ key, World.owed c.world key = true → ∀ t ch keys w,
      answer t .sendersAwaitingRescore ch c.world = some (.ok keys, w) → key ∈ keys := by
  have start : (World.initial mailboxAccountId messages senders decisions).Inv :=
    ⟨nofun, nofun, rfl⟩
  have inv : World.Inv c.world := (verified.sound start (fun _ => trivial) run.restrict).inv
  refine ⟨inv.lost, fun key owed t ch keys w answered => ?_⟩
  obtain ⟨marked, has⟩ := inv.owed owed
  cases ch with
  | go found =>
    obtain ⟨⟨a, v⟩, took, same⟩ := Option.map_eq_some_iff.mp answered
    obtain ⟨tx, -, read⟩ := Option.map_eq_some_iff.mp took
    obtain rfl := (Prod.mk.inj read).1
    obtain rfl := Except.ok.inj (Prod.mk.inj same).1
    exact mem_awaiting marked has
  | lost found =>
    obtain ⟨_, -, same⟩ := Option.map_eq_some_iff.mp answered
    cases (Prod.mk.inj same).1
  | fail => cases answered

/-! ## A sweep between the read and the write -/

namespace Sample

/-- A sender that was in Primary, with a verdict that was produced at 1. -/
def sender : Sender :=
  { Sync.Ingest.Recount.sampleSender with gmailCategory := .primary }

def keep : Decision := ⟨⟨.keep, 95, .gmailPrimary⟩, "", .template, 1, 1 + rescoreTtl, false⟩

def found : Found where
  signals category := ⟨1, ⟨.keep, if category = .primary then 95 else 80, .gmailPrimary⟩, ""⟩
  prose := none
  released := []
  mayAct := true

/-- Its mail is now in Promotions. -/
def start : Config system :=
  .idle (World.initial "m" Sync.Ingest.Recount.sampleMessages [sender]
    fun key => if key = sender.senderKey then some keep else none)

def goes (t : ℕ) : Move system := .reply t (.go found)

def sweeps (t : ℕ) : Move system := .start t .sweep

def scores (t : ℕ) (producedAt : ℤ) : Move system :=
  .start t (.score sender.senderKey ⟨producedAt, false⟩)

/-- A sweep to its commit -/
def sweep (t : ℕ) : List (Move system) := sweeps t :: List.replicate 7 (goes t)

end Sample

/-- A sweep alone -/
theorem mark_kept_sweep : ∃ c : Config system, RunWhere Careful Sample.start c ∧
    World.owed c.world Sample.sender.senderKey = true ∧ World.lost c.world = false := by
  have run : (Sample.start.runIf Careful (Sample.sweep 0)).any
      (fun c => World.owed c.world Sample.sender.senderKey) = true := by
    decide +kernel
  obtain ⟨c, reached, owed⟩ := (Option.any_eq_true _ _).mp run
  have permitted := runWhere_of_runIf reached
  exact ⟨c, permitted, owed, (mark_kept permitted).1⟩

/-- A job that was triggered after the stored verdict reads the old tab; the sweep changes the tab
and marks the row; the job writes its verdict of the old tab, and no later sweep finds the
sender. -/
theorem mark_cleared : ∃ c : Config system, Reaches Sample.start c ∧
    World.lost c.world = true ∧ (World.senders c.world).map (·.gmailCategory) = [.promotions] ∧
    ((World.decisions c.world Sample.sender.senderKey).map (·.result.confidence)) = some 95 ∧
    World.awaiting c.world .empty = [] := by
  have run : (Sample.start.run ([Sample.scores 1 2, Sample.goes 1, Sample.goes 1] ++ Sample.sweep 0 ++
      [Sample.goes 1])).any (fun c => decide (World.lost c.world = true ∧
        (World.senders c.world).map (·.gmailCategory) = [.promotions] ∧
        ((World.decisions c.world Sample.sender.senderKey).map (·.result.confidence)) = some 95 ∧
        World.awaiting c.world .empty = [])) = true := by
    decide +kernel
  obtain ⟨c, reached, seen⟩ := exists_reaches run
  exact ⟨c, reached, of_decide_eq_true seen⟩

end DeclutrMail.Triage.Marks
