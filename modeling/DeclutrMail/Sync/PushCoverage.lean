import DeclutrMail.Sync.PushWebhook

/-!
# What a push that was absorbed can count on

An add is absorbed by a job that has yet to start, by one that runs and will be followed, or by the
key of a lost job. In the last case the call takes the key off and adds again, unless another
call has taken it off before: then it answers `noop`, although nothing may be stored.
-/

namespace DeclutrMail.Sync.Push

open Interleaving

variable {w w' : World} {t : ℕ} {q q' : Queue} {since : ℕ} {holder : JobId}

/-! ## Steps -/

/-- Where a call is about to take off the key of a lost job, the key is set, or a job has been
stored since its first add. -/
def World.Owed (w : World) (t : ℕ) : Prop :=
  ∀ holder ∈ (w.calls t).inspected, ∀ since ∈ (w.calls t).firstAdd,
    w.queue.jobs holder = none → w.queue.key = none → w.queue.renewed since

/-- A job that was stored since the first add of a call under way has started. -/
def World.Spares (w : World) (id : JobId) : Prop :=
  ∀ t ∈ w.underWay, ∀ since ∈ (w.calls t).firstAdd, ∀ job ∈ w.queue.jobs id,
    job.state = .waiting → job.storedAt < since

instance : Decidable (w.Owed t) := by
  unfold World.Owed
  infer_instance

instance (id : JobId) : Decidable (w.Spares id) := by
  unfold World.Spares
  infer_instance

/-- No call finds the key of a lost job taken off with nothing stored in its place, and no job
that was stored for a call under way is lost before it starts. -/
def Careful (w : World) : Move system → Prop
  | .reply t _ => w.Owed t
  | .disturb (.lose id) => w.Spares id
  | _ => True

instance : ∀ (w : system.World) (m : Move system), Decidable (Careful w m) :=
  fun (w : World) m => match m with
  | .reply (t : ℕ) _ => inferInstanceAs (Decidable (w.Owed t))
  | .disturb (.lose id) => inferInstanceAs (Decidable (w.Spares id))
  | .start .. | .finish _ | .crash _ | .disturb (.start _) | .disturb (.retry _)
  | .disturb (.settle ..) | .disturb (.pass _) | .disturb (.setMailbox _)
  | .disturb (.setSyncState _) | .disturb (.expireDedup _) => inferInstanceAs (Decidable True)

/-- The system by such steps -/
abbrev careful : System Sig := system.restrict Careful

/-! ## What every step keeps -/

structure World.Inv (w : World) : Prop where
  queue : w.queue.Sound
  firstAdd {t since : ℕ} : (w.calls t).firstAdd = some since →
    since ≤ w.queue.now ∧ t ∈ w.underWay

structure Guarantee (t : ℕ) (w w' : World) : Prop where
  inv : w'.Inv
  calls {t' : ℕ} : t' ≠ t → w'.calls t' = w.calls t' ∧ (t' ∈ w.underWay → t' ∈ w'.underWay)
  queue {since : ℕ} : since ≤ w.queue.now → w.queue.Next since w'.queue

structure Rely (t : ℕ) (w w' : World) : Prop where
  inv : w'.Inv
  call : w'.calls t = w.calls t
  underWay : t ∈ w.underWay → t ∈ w'.underWay
  queue {since : ℕ} : (w.calls t).firstAdd = some since → w.queue.Next since w'.queue

theorem Guarantee.rely {t' : ℕ} (inv : w.Inv) (h : Guarantee t w w') (ne : t ≠ t') :
    Rely t' w w' :=
  ⟨h.inv, (h.calls (Ne.symm ne)).1, (h.calls (Ne.symm ne)).2,
    fun first => h.queue (inv.firstAdd first).1⟩

/-- The queue and the calls stay. -/
theorem Guarantee.quiet (inv : w.Inv) (queue : w'.queue = w.queue) (calls : w'.calls = w.calls)
    (underWay : w'.underWay = w.underWay) : Guarantee t w w' where
  inv := ⟨by rw [queue]; exact inv.queue, by rw [queue, calls, underWay]; exact inv.firstAdd⟩
  calls _ := ⟨congrFun calls _, by rw [underWay]; exact fun here => here⟩
  queue _ := by
    rw [queue]
    exact .refl _ _

theorem calls_setCall (w : World) (t t' : ℕ) (call : Call) :
    (w.setCall t call).calls t' = if t' = t then call else w.calls t' :=
  Function.update_apply ..

/-- The queue has answered the call. -/
theorem Guarantee.answered (inv : w.Inv) (sound : q'.Sound)
    (next : ∀ since ≤ w.queue.now, w.queue.Next since q') (now : w.queue.now ≤ q'.now)
    (first : since ≤ q'.now) (mine : t ∈ w.underWay) (inspected : Option JobId) :
    Guarantee t w (w.answered t q' since inspected) where
  inv := by
    refine ⟨sound, fun {t'} {since'} here => ?_⟩
    rw [show (w.answered t q' since inspected).calls t' = _ from calls_setCall w t t' _] at here
    split_ifs at here with same
    · obtain rfl := Option.some.inj here
      rw [same]
      exact ⟨first, mine⟩
    · obtain ⟨before, under⟩ := inv.firstAdd here
      exact ⟨Nat.le_trans before now, under⟩
  calls ne := ⟨(calls_setCall w t _ _).trans (if_neg ne), fun here => here⟩
  queue := next _

@[simp] theorem answered_calls (w : World) (t : ℕ) (queue : Queue) (since : ℕ)
    (inspected : Option JobId) : (w.answered t queue since inspected).calls t =
      ⟨some since, inspected, decide (queue.covers since), (w.calls t).applied⟩ :=
  Function.update_self ..

/-! ## What a call knows -/

def underWay (t : ℕ) : Assertion (Rely t) where
  holds w := w.Inv ∧ t ∈ w.underWay
  stable := fun _ _ h r => ⟨r.inv, r.underWay h.2⟩

/-- No add of the call has been answered. -/
def unadded (t : ℕ) : Assertion (Rely t) where
  holds w := w.Inv ∧ t ∈ w.underWay ∧ (w.calls t).firstAdd = none
  stable := fun _ _ h r => ⟨r.inv, r.underWay h.2.1, by rw [r.call]; exact h.2.2⟩

/-- The first add was absorbed by `holder`; the call is about to take its key off if it has
`inspected` it. -/
def absorbed (t : ℕ) (holder : JobId) (inspected : Bool) : Assertion (Rely t) where
  holds w := w.Inv ∧ ∃ since, (w.calls t).firstAdd = some since ∧
    (inspected = true → (w.calls t).inspected = some holder) ∧ w.queue.Met since holder
  stable := fun _ _ ⟨_, since, first, seen, met⟩ r =>
    ⟨r.inv, since, by rw [r.call]; exact first, by rw [r.call]; exact seen, (r.queue first).met met⟩

/-- The call has taken the key off. -/
def cleared (t : ℕ) : Assertion (Rely t) where
  holds w := w.Inv ∧ ∃ since, (w.calls t).firstAdd = some since ∧ w.queue.Cleared since
  stable := fun _ _ ⟨_, since, first, cleared⟩ r =>
    ⟨r.inv, since, by rw [r.call]; exact first, (r.queue first).cleared cleared⟩

def covered (t : ℕ) : Assertion (Rely t) where
  holds w := w.Inv ∧ (w.calls t).covered = true
  stable := fun _ _ h r => ⟨r.inv, by rw [r.call]; exact h.2⟩

/-- The call read an applied cursor. -/
def read (t : ℕ) (cursor : ℕ) : Assertion (Rely t) where
  holds w := w.Inv ∧ (w.calls t).applied = some cursor
  stable := fun _ _ h r => ⟨r.inv, by rw [r.call]; exact h.2⟩

abbrev Does {α : Type} (t : ℕ) (A : Assertion (Rely t)) (p : Prog α)
    (B : α → Assertion (Rely t)) (E : Error → Assertion (Rely t)) : Prop :=
  Triple (M := careful) Guarantee A p B E

/-! ## Requests to the queue -/

section

variable {A : Assertion (Rely t)}

/-- One request to the queue. -/
theorem asks {r : Request} {B : r.Answer → Assertion (Rely t)}
    (start : ∀ w, A w → underWay t w) (silent : ∀ w, missed t w r = w)
    (go : ∀ w : World, A w → w.Owed t → ∀ a w', effect t w r = some (a, w') →
      Guarantee t w w' ∧ w'.underWay = w.underWay ∧ B a w') :
    Does t A (await r) B fun _ => underWay t := by
  refine Triple.perform fun (w : World) hw ch answer w' answered => ?_
  obtain ⟨permitted, answered⟩ := System.restrict_answer answered
  obtain ⟨inv, mine⟩ := start w hw
  cases ch with
  | go =>
    obtain ⟨⟨a, v⟩, took, same⟩ := Option.map_eq_some_iff.mp answered
    cases same
    obtain ⟨allowed, -, held⟩ := go w hw permitted a _ took
    exact ⟨allowed, held⟩
  | lost =>
    obtain ⟨⟨a, v⟩, took, same⟩ := Option.map_eq_some_iff.mp answered
    cases same
    obtain ⟨allowed, under, -⟩ := go w hw permitted a _ took
    exact ⟨allowed, allowed.inv, under ▸ mine⟩
  | fail =>
    obtain ⟨rfl, rfl⟩ := Prod.mk.inj (Option.some.inj answered)
    rw [silent]
    exact ⟨.quiet inv rfl rfl rfl, inv, mine⟩

end

theorem absorbed_underWay {inspected : Bool} (h : absorbed t holder inspected w) :
    underWay t w := by
  obtain ⟨inv, since, first, -⟩ := h
  exact ⟨inv, (inv.firstAdd first).2⟩

theorem cleared_underWay (h : cleared t w) : underWay t w := by
  obtain ⟨inv, since, first, -⟩ := h
  exact ⟨inv, (inv.firstAdd first).2⟩

theorem Guarantee.add (inv : w.Inv) (mine : t ∈ w.underWay) (data : IncrementalSyncJobData)
    (first : since ≤ w.queue.now + 1) :
    Guarantee t w (w.answered t (w.queue.add data).2 since none) := by
  refine .answered inv (Queue.sound_add inv.queue data) (fun _ now => Queue.next_add now data) ?_
    ?_ mine none
  · rw [Queue.now_add]
    exact Nat.le_succ _
  · rw [Queue.now_add]
    exact first

/-- The first add. -/
theorem does_add (data : IncrementalSyncJobData) :
    Does t (unadded t) (add data)
      (fun r => if r.added then covered t else absorbed t r.holderId false)
      fun _ => underWay t := by
  refine Triple.bind (B := fun a => a.2.elim (underWay t) fun id =>
    if id = a.1 then covered t else absorbed t id false) ?_ fun a => ?_
  · refine asks (fun w h => ⟨h.1, h.2.1⟩) (fun _ => rfl) fun w mine _ a w' took => ?_
    obtain ⟨inv, mine, unasked⟩ := mine
    obtain ⟨rfl, rfl⟩ := Prod.mk.inj (Option.some.inj took)
    rw [unasked, Option.getD_none]
    have allowed := Guarantee.add inv mine data (Nat.le_of_eq (Queue.now_add w.queue data))
    refine ⟨allowed, rfl, ?_⟩
    show (if (w.queue.add data).1.2 = (w.queue.add data).1.1 then covered t
      else absorbed t (w.queue.add data).1.2 false)
      (w.answered t (w.queue.add data).2 (w.queue.add data).2.now none)
    rcases Queue.add_ids inv.queue data with ⟨key, ids⟩ | ⟨holder, key, ne, ids⟩
    · rw [ids, if_pos rfl]
      refine ⟨allowed.inv, ?_⟩
      rw [answered_calls]
      exact decide_eq_true (Queue.covers_add key data)
    · rw [ids, if_neg ne]
      exact ⟨allowed.inv, (w.queue.add data).2.now, by rw [answered_calls], by simp,
        Queue.met_add inv.queue key data⟩
  · obtain ⟨jobId, returned⟩ := a
    cases returned with
    | none => exact Triple.failed fun _ h => h
    | some id =>
      refine Triple.done fun w h => ?_
      change (if id = jobId then covered t else absorbed t id false) w at h
      by_cases same : id = jobId
      · simpa [same] using h
      · simpa [same] using h

/-- The add after the key was taken off. -/
theorem does_add_again (data : IncrementalSyncJobData) :
    Does t (cleared t) (add data) (fun _ => covered t) fun _ => underWay t := by
  refine Triple.bind (B := fun _ => (covered t).and (underWay t)) ?_ fun a => ?_
  · refine asks (fun w h => cleared_underWay h) (fun _ => rfl)
      fun w ⟨inv, since, first, open_⟩ _ a w' took => ?_
    obtain ⟨rfl, rfl⟩ := Prod.mk.inj (Option.some.inj took)
    obtain ⟨before, mine⟩ := inv.firstAdd first
    have allowed : Guarantee t w (w.answered t (w.queue.add data).2 since none) :=
      Guarantee.add inv mine data (Nat.le_succ_of_le before)
    rw [first, Option.getD_some]
    refine ⟨allowed, rfl, ⟨allowed.inv, ?_⟩, allowed.inv, mine⟩
    rw [answered_calls]
    refine decide_eq_true ?_
    rcases open_ with key | renewed
    · exact Queue.covers_add key data
    · exact Queue.covers_of_renewed ((Queue.next_add before data).renewed renewed)
  · obtain ⟨jobId, returned⟩ := a
    cases returned with
    | none => exact Triple.failed fun _ h => h.2
    | some id => exact Triple.done fun _ h => h.1

/-- What an inspection leaves the call with. -/
theorem Guarantee.seen (inv : w.Inv) (mine : t ∈ w.underWay)
    (first : (w.calls t).firstAdd = some since) (inspected : Option JobId) :
    Guarantee t w (w.answered t w.queue since inspected) :=
  .answered inv inv.queue (fun since _ => .refl since _) (Nat.le_refl _) (inv.firstAdd first).1 mine
    inspected

theorem since_of_firstAdd (first : (w.calls t).firstAdd = some since) : w.since t = since := by
  rw [World.since, first, Option.getD_some]

theorem does_getJob (holder : JobId) :
    Does t (absorbed t holder false) (await (.getJob holder))
      (fun found => absorbed t holder found.isNone) fun _ => underWay t := by
  refine asks (fun w h => absorbed_underWay h) (fun _ => rfl)
    fun w ⟨inv, since, first, _, met⟩ _ a w' took => ?_
  obtain ⟨rfl, rfl⟩ := Prod.mk.inj (Option.some.inj took)
  rw [since_of_firstAdd first]
  have allowed := Guarantee.seen inv (inv.firstAdd first).2 first
  refine ⟨allowed _, rfl, (allowed _).inv, since, by rw [answered_calls], fun gone => ?_, met⟩
  rw [answered_calls, if_pos (Option.map_eq_none_iff.mp (Option.isNone_iff_eq_none.mp gone))]

theorem does_getState (holder : JobId) :
    Does t (absorbed t holder false) (await (.getState holder))
      (fun a => (absorbed t holder true).and (.or (.fact (a.1 = none)) (covered t)))
      fun _ => underWay t := by
  refine asks (fun w h => absorbed_underWay h) (fun _ => rfl)
    fun w ⟨inv, since, first, _, met⟩ _ a w' took => ?_
  obtain ⟨rfl, rfl⟩ := Prod.mk.inj (Option.some.inj took)
  rw [since_of_firstAdd first]
  have allowed := Guarantee.seen inv (inv.firstAdd first).2 first (some holder)
  refine ⟨allowed, rfl, ⟨allowed.inv, since, by rw [answered_calls], fun _ => ?_, met⟩, ?_⟩
  · rw [answered_calls]
  · by_cases here : w.queue.jobs holder = none
    · exact .inl (Option.map_eq_none_iff.mpr here)
    · refine .inr ⟨allowed.inv, ?_⟩
      rw [answered_calls]
      exact decide_eq_true (met.covers here)

theorem not_absorbs {seen : HolderSeen} (unknown : seen.state = none) : seen.absorbs = false := by
  rw [HolderSeen.absorbs, unknown]
  exact Bool.and_false _

theorem does_inspect (holder : JobId) (found : Option (Option ℕ)) :
    Does t (absorbed t holder found.isNone) (inspect holder found)
      (fun seen => (absorbed t holder true).and (.or (.fact (seen.absorbs = false)) (covered t)))
      fun _ => underWay t := by
  cases found with
  | none => exact Triple.done fun w h => ⟨h, .inl (not_absorbs rfl)⟩
  | some processedOn =>
    exact Triple.bind (does_getState holder) fun a =>
      Triple.done fun w h => ⟨h.1, h.2.imp_left fun unknown => not_absorbs unknown⟩

/-- The holder is gone, settled or stuck. -/
theorem does_retake (data : IncrementalSyncJobData) (holder : JobId) :
    Does t (absorbed t holder true) (retake data holder) (fun _ => covered t)
      fun _ => underWay t := by
  refine Triple.bind (B := fun gone => if gone then cleared t else covered t) ?_ fun gone => ?_
  · refine asks (fun w h => absorbed_underWay h) (fun _ => rfl)
      fun w ⟨inv, since, first, seen, met⟩ owed a w' took => ?_
    obtain ⟨rfl, rfl⟩ := Prod.mk.inj (Option.some.inj took)
    obtain ⟨before, mine⟩ := inv.firstAdd first
    rw [since_of_firstAdd first]
    have allowed : Guarantee t w (w.answered t (w.queue.removeKey holder).2 since none) :=
      .answered inv (Queue.sound_removeKey inv.queue holder)
        (fun since _ => Queue.next_removeKey since holder)
        (Queue.next_removeKey since holder).now
        (Nat.le_trans before (Queue.next_removeKey since holder).now) mine none
    refine ⟨allowed, rfl, ?_⟩
    show (if (w.queue.removeKey holder).1 then cleared t else covered t)
      (w.answered t (w.queue.removeKey holder).2 since none)
    by_cases same : w.queue.key = some holder
    · have taken : w.queue.removeKey holder = (true, { w.queue with key := none }) := if_pos same
      rw [taken] at allowed ⊢
      exact ⟨allowed.inv, since, by rw [answered_calls], .inl rfl⟩
    · have kept : w.queue.removeKey holder = (false, w.queue) := if_neg same
      rw [kept] at allowed ⊢
      refine ⟨allowed.inv, ?_⟩
      rw [answered_calls]
      exact decide_eq_true (met.covers_of_ne same (owed holder (seen rfl) since first))
  · cases gone with
    | true => exact Triple.bind (does_add_again data) fun again => Triple.done fun _ h => h
    | false => exact Triple.done fun _ h => h

theorem does_addCoalescedJob (data : IncrementalSyncJobData) :
    Does t (unadded t) (addCoalescedJob data) (fun _ => covered t) fun _ => underWay t := by
  refine Triple.bind (does_add data) fun first => ?_
  obtain ⟨added, holder⟩ := first
  cases added with
  | true => exact Triple.done fun _ h => h
  | false =>
    refine Triple.bind (does_getJob holder) fun found =>
      Triple.bind (does_inspect holder found) fun seen => ?_
    dsimp only
    cases absorbs : seen.absorbs with
    | true =>
      refine Triple.done fun w h => h.2.resolve_left fun spent => ?_
      exact Bool.noConfusion (show true = false from spent)
    | false => exact (does_retake data holder).pre fun _ h => h.1

/-! ## The plan of a push -/

/-- The queue and the calls stay. -/
structure Quiet (w w' : World) : Prop where
  queue : w'.queue = w.queue
  calls : w'.calls = w.calls
  underWay : w'.underWay = w.underWay

theorem Quiet.rely (same : Quiet w w') (inv : w.Inv) : Guarantee t w w' ∧ Rely t w w' := by
  have allowed : Guarantee t w w' := .quiet inv same.queue same.calls same.underWay
  refine ⟨allowed, allowed.inv, congrFun same.calls t, by rw [same.underWay]; exact fun h => h, ?_⟩
  intro since _
  rw [same.queue]
  exact .refl _ _

theorem quiet_missed (r : Request) (w : World) : Quiet w (missed t w r) := by
  cases r <;> exact ⟨rfl, rfl, rfl⟩

/-- A request that leaves what calls know. -/
theorem keeps {r : Request} {A : Assertion (Rely t)} (start : ∀ w : World, A w → w.Inv)
    (quiet : ∀ (w : World) a w', effect t w r = some (a, w') → Quiet w w') :
    Does t A (await r) (fun _ => A) fun _ => A := by
  refine Triple.perform fun (w : World) hw ch answer w' answered => ?_
  obtain ⟨-, answered⟩ := System.restrict_answer answered
  have same : Quiet w w' := by
    cases ch with
    | go | lost =>
      obtain ⟨⟨a, v⟩, took, same⟩ := Option.map_eq_some_iff.mp answered
      cases same
      exact quiet w a _ took
    | fail =>
      obtain ⟨-, rfl⟩ := Prod.mk.inj (Option.some.inj answered)
      exact quiet_missed r w
  obtain ⟨allowed, relied⟩ := same.rely (t := t) (start w hw)
  refine ⟨allowed, ?_⟩
  cases answer <;> exact A.stable hw relied

/-- What the plan has to say: a stale push lies behind the cursor that was read. -/
def planned {κ : Type} (t : ℕ) (outcome : ProcessOutcome κ) : Assertion (Rely t) where
  holds w := (w.Inv ∧ t ∈ w.underWay ∧ (w.calls t).firstAdd = none) ∧
    ∀ last incoming, outcome = .staleHistoryId last incoming →
      (w.calls t).applied = some last ∧ incoming ≤ last
  stable := fun _ _ ⟨h, stale⟩ r => ⟨(unadded t).stable h r, by rw [r.call]; exact stale⟩

theorem planned_of_unadded {κ : Type} {outcome : ProcessOutcome κ} (h : unadded t w)
    (other : ∀ last incoming, outcome ≠ .staleHistoryId last incoming) : planned t outcome w :=
  ⟨h, fun last incoming same => absurd same (other last incoming)⟩

/-- The cursor of a row that was read. -/
def cursorOf (row : Option ProviderSyncState) : Option ℕ :=
  row.bind fun row => if row.readinessStatus = .ready then row.lastHistoryId else none

def sawRow (t : ℕ) (row : Option ProviderSyncState) : Assertion (Rely t) where
  holds w := (w.Inv ∧ t ∈ w.underWay ∧ (w.calls t).firstAdd = none) ∧
    (w.calls t).applied = cursorOf row
  stable := fun _ _ ⟨h, saw⟩ r => ⟨(unadded t).stable h r, by rw [r.call]; exact saw⟩

theorem does_selectSyncState :
    Does t (unadded t) (await .selectSyncState) (sawRow t) fun _ => unadded t := by
  have took {w : World} (h : unadded t w) {a w'} (took : effect t w .selectSyncState = some (a, w')) :
      Guarantee t w w' ∧ sawRow t a w' := by
    obtain ⟨inv, mine, unasked⟩ := h
    obtain ⟨-, here⟩ := Option.ite_none_right_eq_some.mp took
    obtain ⟨rfl, rfl⟩ := Prod.mk.inj (Option.some.inj here)
    have calls (t' : ℕ) : (w.setCall t { w.calls t with applied := w.applied }).calls t' =
        if t' = t then { w.calls t with applied := w.applied } else w.calls t' :=
      calls_setCall w t t' _
    have still : ((w.setCall t { w.calls t with applied := w.applied }).calls t).firstAdd = none := by
      rw [calls, if_pos rfl]
      exact unasked
    have inv' : ({ w.setCall t { w.calls t with applied := w.applied } with
        syncLock := if w.syncState.isSome then some t else w.syncLock } : World).Inv := by
      refine ⟨inv.queue, fun {t'} {since} first => ?_⟩
      by_cases same : t' = t
      · subst same
        exact nomatch still.symm.trans first
      · refine inv.firstAdd (t := t') ?_
        rw [← first]
        exact congrArg Call.firstAdd ((calls t').trans (if_neg same)).symm
    refine ⟨⟨inv', fun ne => ⟨(calls _).trans (if_neg ne), fun here => here⟩, fun _ => .refl _ _⟩,
      ⟨inv', mine, still⟩, ?_⟩
    exact congrArg Call.applied ((calls t).trans (if_pos rfl))
  refine Triple.perform fun (w : World) hw ch answer w' answered => ?_
  obtain ⟨-, answered⟩ := System.restrict_answer answered
  cases ch with
  | go =>
    obtain ⟨⟨a, v⟩, did, same⟩ := Option.map_eq_some_iff.mp answered
    cases same
    exact took hw did
  | lost =>
    obtain ⟨⟨a, v⟩, did, same⟩ := Option.map_eq_some_iff.mp answered
    cases same
    exact (took hw did).imp_right And.left
  | fail =>
    obtain ⟨rfl, rfl⟩ := Prod.mk.inj (Option.some.inj answered)
    exact ⟨.quiet hw.1 rfl rfl rfl, hw⟩

theorem does_planHistorySync (incoming : ℕ) :
    Does t (unadded t) (planHistorySync incoming)
      (fun plan => planned t (outcomeOf incoming plan)) fun _ => unadded t := by
  refine Triple.bind does_selectSyncState fun row => ?_
  cases row with
  | none => exact Triple.done fun w h => planned_of_unadded h.1 nofun
  | some row =>
    dsimp only
    cases cursor : row.lastHistoryId with
    | none => exact Triple.done fun w h => planned_of_unadded h.1 nofun
    | some previous =>
      dsimp only
      split_ifs with unready stale
      · exact Triple.done fun w h => planned_of_unadded h.1 nofun
      · refine Triple.done fun w h => ⟨h.1, fun last incoming' same => ?_⟩
        obtain ⟨rfl, rfl⟩ := ProcessOutcome.staleHistoryId.inj same
        refine ⟨h.2.trans ?_, stale⟩
        simp only [ne_eq, not_not] at unready
        simp [cursorOf, unready, cursor]
      · exact Triple.done fun w h => planned_of_unadded h.1 nofun

theorem does_planPush (messageId : MessageId) (payload : GmailPubSubPayload) :
    Does t (unadded t) (planPush messageId payload) (fun outcome => planned t outcome)
      fun _ => unadded t := by
  have inv (w : World) (h : unadded t w) : w.Inv := h.1
  have insert : Does t (unadded t) (await (.insertDedup messageId)) (fun _ => unadded t)
      fun _ => unadded t := by
    refine keeps inv fun w a w' took => ?_
    simp only [effect] at took
    split_ifs at took <;> cases took <;> exact ⟨rfl, rfl, rfl⟩
  refine Triple.bind insert fun inserted => ?_
  cases inserted with
  | false => exact Triple.done fun w h => planned_of_unadded h nofun
  | true =>
    have select : Does t (unadded t) (await (.selectMailbox payload.emailAddress))
        (fun _ => unadded t) fun _ => unadded t := by
      refine keeps inv fun w a w' took => ?_
      cases took
      exact ⟨rfl, rfl, rfl⟩
    refine Triple.bind select fun found => ?_
    match found with
    | none => exact Triple.done fun w h => planned_of_unadded h nofun
    | some true => exact Triple.done fun w h => planned_of_unadded h nofun
    | some false =>
      have update : Does t (unadded t) (await (.updateDedup messageId)) (fun _ => unadded t)
          fun _ => unadded t := by
        refine keeps inv fun w a w' took => ?_
        cases took
        exact ⟨rfl, rfl, rfl⟩
      exact Triple.bind update fun _ => Triple.bind (does_planHistorySync _) fun plan =>
        Triple.done fun _ h => h

/-! ## Calls -/

/-- What holds when a call returns. -/
def answeredPush (t : ℕ) (returned : Returned) : Assertion (Rely t) where
  holds w := w.Inv ∧ (returned.promises = true → (w.calls t).covered = true) ∧
    ∀ last incoming, returned = .pushed (.staleHistoryId last incoming) →
      (w.calls t).applied = some last ∧ incoming ≤ last
  stable := fun _ _ ⟨_, promise, stale⟩ r =>
    ⟨r.inv, by rw [r.call]; exact promise, by rw [r.call]; exact stale⟩

theorem does_enqueue (data : IncrementalSyncJobData) :
    Does t (unadded t) (enqueue data)
      (fun queue => .or ((underWay t).and (.fact (queue = .failed))) (covered t))
      fun _ => underWay t := by
  refine Triple.tryCatch (Triple.bind (does_addCoalescedJob data) fun result =>
    Triple.done fun w h => .inr h) fun _ => ?_
  exact Triple.done fun w h => .inl ⟨h, rfl⟩

theorem does_transaction {κ : Type} {p : Prog (ProcessOutcome κ)}
    (body : Does t (unadded t) p (fun outcome => planned t outcome) fun _ => unadded t) :
    Does t (unadded t) (transaction p) (fun outcome => planned t outcome)
      fun _ => underWay t := by
  have weaken (w : World) (h : unadded t w) : underWay t w := ⟨h.1, h.2.1⟩
  refine Triple.bind (Triple.tryCatch body fun e => ?_) fun outcome => ?_
  · have rolled : Does t (unadded t) (await .rollback) (fun _ => unadded t) fun _ => unadded t :=
      keeps (fun _ h => h.1) fun w a w' took => by cases took; exact ⟨rfl, rfl, rfl⟩
    refine Triple.bind (rolled.consequence (fun _ h => h) (fun _ _ h => h) fun _ w h => weaken w h)
      fun _ => Triple.failed fun w h => weaken w h
  · have committed : Does t (planned t outcome) (await .commit) (fun _ => planned t outcome)
        fun _ => planned t outcome :=
      keeps (fun _ h => h.1.1) fun w a w' took => by cases took; exact ⟨rfl, rfl, rfl⟩
    exact Triple.bind (committed.consequence (fun _ h => h) (fun _ _ h => h)
      fun _ w h => weaken w h.1) fun _ => Triple.done fun _ h => h

theorem does_processVerifiedPush (messageId : MessageId) (payload : GmailPubSubPayload) :
    Does t (unadded t) (processVerifiedPush messageId payload)
      (fun outcome => answeredPush t (.pushed outcome)) fun _ => underWay t := by
  refine Triple.bind (does_transaction (does_planPush messageId payload)) fun outcome => ?_
  have stays {o : ProcessOutcome QueueOutcome} {w : World} (h : planned t outcome w)
      (quiet : Returned.promises (.pushed o) = false)
      (stale : ∀ last incoming, o = .staleHistoryId last incoming →
        outcome = .staleHistoryId last incoming) : answeredPush t (.pushed o) w := by
    refine ⟨h.1.1, fun yes => Bool.noConfusion (quiet.symm.trans yes), fun last incoming same => ?_⟩
    exact h.2 last incoming (stale last incoming (Returned.pushed.inj same))
  cases outcome with
  | enqueued previous historyId known =>
    refine Triple.bind ((does_enqueue _).pre fun w h => h.1) fun queue => Triple.done fun w h => ?_
    rcases h with ⟨under, failed⟩ | covered
    · refine ⟨under.1, fun promised => ?_, nofun⟩
      exact absurd (show queue = .failed from failed) (of_decide_eq_true promised)
    · exact ⟨covered.1, fun _ => covered.2, nofun⟩
  | staleHistoryId last incoming =>
    refine Triple.done fun w h => stays h rfl fun last' incoming' same => ?_
    obtain ⟨rfl, rfl⟩ := ProcessOutcome.staleHistoryId.inj same
    rfl
  | duplicateMessageId | unknownMailbox | deletionPending | syncStateUninitialized
  | deferredInitialSyncInFlight => exact Triple.done fun w h => stays h rfl nofun

theorem does_code (task : Task) :
    Does t (unadded t) (code task) (fun returned => answeredPush t returned)
      fun _ => underWay t := by
  cases task with
  | push messageId payload =>
    exact Triple.bind (does_processVerifiedPush messageId payload) fun _ => Triple.done fun _ h => h
  | produce data =>
    exact Triple.bind (does_addCoalescedJob data) fun _ =>
      Triple.done fun _ h => ⟨h.1, fun _ => h.2, nofun⟩

/-! ## Runs -/

/-- A call begins. -/
theorem Guarantee.enter (inv : w.Inv) : Guarantee t w { w with underWay := t :: w.underWay } where
  inv := ⟨inv.queue, fun first => (inv.firstAdd first).imp_right (List.mem_cons_of_mem _)⟩
  calls _ := ⟨rfl, List.mem_cons_of_mem _⟩
  queue _ := .refl _ _

theorem leave_calls (w : World) (t t' : ℕ) :
    (w.leave t).calls t' = if t' = t then .new else w.calls t' :=
  Function.update_apply ..

/-- A call ends. -/
theorem Guarantee.leave (inv : w.Inv) : Guarantee t w (w.leave t) where
  inv := by
    refine ⟨inv.queue, fun {t'} {since} first => ?_⟩
    rw [leave_calls] at first
    split_ifs at first with same
    · cases first
    · obtain ⟨before, under⟩ := inv.firstAdd first
      exact ⟨before, List.mem_filter.mpr ⟨under, decide_eq_true same⟩⟩
  calls ne := ⟨(leave_calls w t _).trans (if_neg ne),
    fun under => List.mem_filter.mpr ⟨under, decide_eq_true ne⟩⟩
  queue _ := .refl _ _

theorem leave_firstAdd (w : World) (t : ℕ) : ((w.leave t).calls t).firstAdd = none := by
  rw [leave_calls, if_pos rfl]
  rfl

/-- A step of the queue's other users. -/
theorem rely_queue (inv : w.Inv) (sound : q.Sound) (now : w.queue.now ≤ q.now)
    (next : ∀ t since, (w.calls t).firstAdd = some since → w.queue.Next since q) :
    World.Inv { w with queue := q } ∧ ∀ t, Rely t w { w with queue := q } := by
  have inv' : World.Inv { w with queue := q } :=
    ⟨sound, fun first => (inv.firstAdd first).imp_left fun before => Nat.le_trans before now⟩
  exact ⟨inv', fun t => ⟨inv', rfl, fun here => here, fun first => next t _ first⟩⟩

theorem careful_disturb {e : Event} (inv : w.Inv) (permitted : Careful w (.disturb e))
    (disturbed : disturb w e = some w') : w'.Inv ∧ ∀ t, Rely t w w' := by
  have before {t since : ℕ} (first : (w.calls t).firstAdd = some since) : since ≤ w.queue.now :=
    (inv.firstAdd first).1
  have quiet (same : Quiet w w') : w'.Inv ∧ ∀ t, Rely t w w' :=
    ⟨(same.rely (t := 0) inv).1.inv, fun t => (same.rely inv).2⟩
  cases e with
  | start id =>
    obtain ⟨q, started, rfl⟩ := Option.map_eq_some_iff.mp disturbed
    exact rely_queue inv (Queue.sound_start inv.queue started)
      (Queue.next_start (Nat.zero_le _) started).now
      fun t since first => Queue.next_start (before first) started
  | retry id =>
    obtain ⟨q, retried, rfl⟩ := Option.map_eq_some_iff.mp disturbed
    exact rely_queue inv (Queue.sound_retry inv.queue retried) (Queue.next_retry 0 retried).now
      fun t since _ => Queue.next_retry since retried
  | settle id completes moves =>
    obtain ⟨q, settled, rfl⟩ := Option.map_eq_some_iff.mp disturbed
    exact rely_queue inv (Queue.sound_settle inv.queue settled)
      (Queue.next_settle (Nat.zero_le _) settled).now
      fun t since first => Queue.next_settle (before first) settled
  | lose id =>
    obtain rfl := Option.some.inj disturbed
    refine rely_queue inv (Queue.sound_lose inv.queue id) (Nat.le_refl _) fun t since first => ?_
    refine Queue.next_lose fun job here waiting => ?_
    exact permitted t (inv.firstAdd first).2 since first job here waiting
  | pass | setMailbox | expireDedup =>
    cases disturbed
    exact quiet ⟨rfl, rfl, rfl⟩
  | setSyncState =>
    obtain ⟨-, here⟩ := Option.ite_none_right_eq_some.mp disturbed
    cases here
    exact quiet ⟨rfl, rfl, rfl⟩

theorem verified : Verified careful (fun _ _ => True) Rely Guarantee World.Inv
    (fun t w => (w.calls t).firstAdd = none)
    (fun t r w => match r with
      | .ok returned => answeredPush t returned w
      | .error _ => underWay t w) where
  guarantee_rely ne inv allowed := allowed.rely inv ne
  guarantee_inv _ allowed := allowed.inv
  idle_stable t w w' idle r := (congrArg Call.firstAdd r.call).trans idle
  start := by
    intro t task w w' inv idle accepted
    obtain ⟨-, accepted⟩ := System.restrict_accept accepted
    obtain rfl := Option.some.inj accepted
    have allowed : Guarantee t w _ := .enter inv
    refine ⟨allowed, (does_code task _ ⟨allowed.inv, List.mem_cons_self, idle⟩).mono fun r v h => ?_⟩
    cases r <;> exact h
  finish := by
    intro t r w w' inv _ settled
    obtain ⟨-, settled⟩ := System.restrict_settle settled
    obtain rfl := Option.some.inj settled
    exact ⟨.leave inv, leave_firstAdd w t⟩
  crash := by
    intro t w w' inv crashed
    obtain ⟨-, crashed⟩ := System.restrict_crash crashed
    obtain rfl := Option.some.inj crashed
    exact ⟨.leave inv, leave_firstAdd w t⟩
  disturb := by
    intro e w w' inv _ disturbed
    obtain ⟨permitted, disturbed⟩ := System.restrict_disturb disturbed
    exact careful_disturb inv permitted disturbed

/-- What the call of a thread has returned. -/
def returnedOf (c : Config system) (t : ℕ) : Option Returned :=
  match c.running t with
  | some (.ret returned) => some returned
  | _ => none

theorem effect_syncState {r : Request} {a : r.Answer} (took : effect t w r = some (a, w')) :
    w'.syncState = w.syncState := by
  cases r with
  | insertDedup messageId =>
    simp only [effect] at took
    split_ifs at took <;> cases took <;> rfl
  | selectSyncState =>
    obtain ⟨-, here⟩ := Option.ite_none_right_eq_some.mp took
    cases here
    rfl
  | _ =>
    cases took
    rfl

/-- Only the sync moves the cursor. -/
theorem step_syncState {c d : Config system} {m : Move system} (taken : c.step m = some d)
    (own : ∀ e, m ≠ .disturb e) : World.syncState d.world = World.syncState c.world := by
  have did := Config.step_world taken
  cases m with
  | start t task =>
    rw [← Option.some.inj did]
  | reply t ch =>
    obtain ⟨r, answer, answered⟩ := did
    cases ch with
    | go | lost =>
      obtain ⟨⟨a, v⟩, took, same⟩ := Option.map_eq_some_iff.mp answered
      obtain ⟨-, same⟩ := Prod.mk.inj same
      rw [← same]
      exact effect_syncState took
    | fail =>
      obtain ⟨-, same⟩ := Prod.mk.inj (Option.some.inj answered)
      rw [← same]
      cases r <;> rfl
  | finish t =>
    obtain ⟨r, settled⟩ := did
    rw [← Option.some.inj settled]
    rfl
  | crash t =>
    rw [← Option.some.inj did]
    rfl
  | disturb e => exact absurd rfl (own e)

/-- In every run by careful steps, a call of `addCoalescedJob` that returns is covered by a job that
starts after its first add, a stale push lies behind the applied cursor of a ready mailbox, and
no call moves the cursor. -/
theorem push_covered {mailbox : Mailbox} {syncState : Option ProviderSyncState} (sound : q.Sound)
    {c : Config system} (run : RunWhere Careful (.idle (World.initial mailbox syncState q)) c) :
    (∀ t returned, returnedOf c t = some returned → returned.promises = true →
      (World.calls c.world t).covered = true) ∧
    (∀ t last incoming, returnedOf c t = some (.pushed (.staleHistoryId last incoming)) →
      (World.calls c.world t).applied = some last ∧ incoming ≤ last) ∧
    ∀ m d, c.step m = some d → (∀ e, m ≠ .disturb e) →
      World.syncState d.world = World.syncState c.world := by
  have start : (World.initial mailbox syncState q).Inv := ⟨sound, nofun⟩
  have ended := verified.sound start (fun _ => rfl) run.restrict
  have post {t : ℕ} {returned : Returned} (here : returnedOf c t = some returned) :
      answeredPush t returned c.world := by
    unfold returnedOf at here
    split at here
    · obtain rfl := Option.some.inj here
      rename_i running
      exact ended.safe t _ running c.world .refl
    · cases here
  exact ⟨fun t returned here promised => (post here).2.1 promised,
    fun t last incoming here => (post here).2.2 last incoming rfl,
    fun m d taken own => step_syncState taken own⟩

/-- The next request of a call succeeds. -/
def goes (t : ℕ) : Move system := .reply t .go

def calls (t : ℕ) (task : Task) : Move system := .start t task

def ends (t : ℕ) : Move system := .finish t

def dies (t : ℕ) : Move system := .crash t

/-- "Sync now" on a quiet queue. -/
def Returned.isAdded : Returned → Bool
  | .produced .added => true
  | _ => false

/-- The push was coalesced into a job of another history id. -/
def Returned.isCoalesced : Returned → Bool
  | .pushed (.enqueued 5 7 .coalesced) => true
  | _ => false

theorem push_covered_added : ∃ c : Config system, returnedOf c 0 = some (.produced .added) ∧
    (World.calls c.world 0).covered = true := by
  let start : Config system := .idle (World.initial ⟨"a", true, false⟩ none .empty)
  have run : (start.runIf Careful [calls 0 (.produce ⟨5, 6⟩), goes 0]).any (fun c =>
      (returnedOf c 0).any Returned.isAdded) = true := by
    decide
  obtain ⟨c, reached, seen⟩ := (Option.any_eq_true _ _).mp run
  obtain ⟨r, returned, added⟩ := (Option.any_eq_true _ _).mp seen
  unfold Returned.isAdded at added
  split at added
  · exact ⟨c, returned, (push_covered Queue.sound_empty (runWhere_of_runIf reached)).1 0 _ returned rfl⟩
  · cases added

/-- The job of the first add is lost and two pushes meet its key. The second one takes it off and
goes down before it adds; the first one finds it gone and answers that it was absorbed. No
job is stored. -/
theorem push_swallowed : ∃ c : Config system,
    Reaches (.idle (World.initial ⟨"a", true, false⟩ (some ⟨some 5, .ready⟩) .empty)) c ∧
    returnedOf c 1 = some (.pushed (.enqueued 5 7 .coalesced)) ∧
    (World.calls c.world 1).covered = false ∧
    (World.queue c.world).key = none ∧ ∀ id < (World.queue c.world).issued,
      ((World.queue c.world).jobs id).isNone = true := by
  let start : Config system := .idle (World.initial ⟨"a", true, false⟩ (some ⟨some 5, .ready⟩) .empty)
  let moves : List (Move system) :=
    [calls 0 (.produce ⟨5, 6⟩), goes 0, ends 0, .disturb (.lose 0), calls 1 (.push "m1" ⟨"a", 7⟩),
      calls 2 (.push "m2" ⟨"a", 8⟩)] ++
    List.replicate 7 (goes 1) ++ List.replicate 8 (goes 2) ++ [dies 2, goes 1]
  have run : (start.run moves).any (fun c =>
      (returnedOf c 1).any Returned.isCoalesced && decide ((World.calls c.world 1).covered = false ∧
        (World.queue c.world).key = none ∧ ∀ id < (World.queue c.world).issued,
          ((World.queue c.world).jobs id).isNone = true)) = true := by
    decide +kernel
  obtain ⟨c, reached, seen⟩ := exists_reaches run
  obtain ⟨returned, lost⟩ := Bool.and_eq_true_iff.mp seen
  obtain ⟨r, here, coalesced⟩ := (Option.any_eq_true _ _).mp returned
  unfold Returned.isCoalesced at coalesced
  split at coalesced
  · exact ⟨c, reached, here, of_decide_eq_true lost⟩
  · cases coalesced

end DeclutrMail.Sync.Push
