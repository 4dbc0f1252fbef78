import DeclutrMail.Later.SnoozeWake

/-!
# A timer is not lost

A wake knows the timer that it has read by its version. The version stands for one timer write as
long as no other write brings the same one back while the wake is under way (`Fresh`): then a wake
clears or postpones no other timer than its own, and what the last write has left is still there
unless a wake that has read it brought the mail back.
-/

namespace DeclutrMail.Later

open Interleaving
open LabelAction (MessageId Label LabelChange)

/-! ## The condition and the invariant -/

namespace World

variable (w : World)

/-- What the wakes under way and the queued ones have read. -/
def pins : List Pinned := w.attempts.entries.map (·.2.pinned) ++ w.queue

/-- The event brings back no version that a wake has read. -/
def Fresh (e : Event) : Prop :=
  ∀ p ∈ w.written e, ∀ v ∈ p.version, ∀ x ∈ w.pins, x.version ≠ v

instance decidableFresh (e : Event) : Decidable (w.Fresh e) :=
  inferInstanceAs (Decidable (∀ p ∈ w.written e, ∀ v ∈ p.version, ∀ x ∈ w.pins, x.version ≠ v))

end World

def Fresh (w : waking.World) : Move waking → Prop
  | .disturb e => World.Fresh w e
  | _ => True

instance (w : waking.World) (m : Move waking) : Decidable (Fresh w m) :=
  match m with
  | .disturb e => World.decidableFresh w e
  | .start .. | .finish _ | .crash _ | .reply .. => inferInstanceAs (Decidable True)

/-- The wake found the version it had read, on the row of the same timer write, and it clears the
timer only when Gmail has accepted every chunk. -/
def Act.Within (act : Act) : Prop :=
  ∃ a, act.attempt = some a ∧ act.policy.carries a.pinned.version = true ∧
    a.pinned.writes = act.writes ∧
    (act.kind = .cleared → a.accepted = Batches.batches gmailBatchModifyMaxIds a.ids)

/-- A wake that has read the last timer write has brought the mail back. -/
def World.Returned (w : World) : Prop :=
  ∃ act ∈ w.acts, act.kind = .cleared ∧ act.attempt.map (·.pinned.writes) = some w.writes

structure World.Inv (w : World) : Prop where
  pins : ∀ x ∈ w.pins, x.writes ≤ w.writes ∧ (w.carries x.version = true → x.writes = w.writes)
  acts : ∀ act ∈ w.acts, act.Within
  timer : w.timer = w.latest ∨ w.timer = (none, none, none) ∧ w.Returned

section Pins

variable {t x : ℕ} {w : World} {a b : Attempt} {p : Pinned}

theorem mem_pins :
    p ∈ w.pins ↔ (∃ t a, w.attempts.get t = some a ∧ a.pinned = p) ∨ p ∈ w.queue := by
  simp only [World.pins, List.mem_append, List.mem_map, Prod.exists]
  refine or_congr_left ⟨?_, ?_⟩
  · rintro ⟨t, a, mem, same⟩
    exact ⟨t, a, InsertionMap.mem_entries_iff.mp mem, same⟩
  · rintro ⟨t, a, found, same⟩
    exact ⟨t, a, InsertionMap.mem_entries_iff.mpr found, same⟩

theorem mem_pins_put (mem : p ∈ (w.put t a).pins) : p = a.pinned ∨ p ∈ w.pins := by
  rcases mem_pins.mp mem with ⟨x, b, found, rfl⟩ | queued
  · simp only [World.put, InsertionMap.get_set] at found
    split at found
    · exact .inl (congrArg _ (Option.some.inj found).symm)
    · exact .inr (mem_pins.mpr (.inl ⟨x, b, found, rfl⟩))
  · exact .inr (mem_pins.mpr (.inr queued))

theorem mem_pins_forget (mem : p ∈ (w.forget t).pins) : p ∈ w.pins := by
  rcases mem_pins.mp mem with ⟨x, b, found, rfl⟩ | queued
  · simp only [World.forget, InsertionMap.get_delete] at found
    split at found
    · contradiction
    · exact mem_pins.mpr (.inl ⟨x, b, found, rfl⟩)
  · exact mem_pins.mpr (.inr queued)

@[simp] theorem get_put : (w.put t a).attempts.get x = if t = x then some a else w.attempts.get x :=
  InsertionMap.get_set ..

theorem put_self (w : World) (t : ℕ) (a : Attempt) : (w.put t a).attempts.get t = some a := by
  simp

@[simp] theorem get_forget :
    (w.forget t).attempts.get x = if t = x then none else w.attempts.get x :=
  InsertionMap.get_delete ..

end Pins

/-! ## What a wake may do -/

inductive Moves (t : ℕ) (w : World) : World → Prop where
  | same : Moves t w w
  | forget : Moves t w (w.forget t)
  | pin {v : SnoozeTimerVersion} (carried : w.carries v = true) : Moves t w (w.pin t (some v))
  | take {p : Pinned} (queued : p ∈ w.queue) : Moves t w (w.put t ⟨p, [], []⟩)
  | go {a b : Attempt} (faced : w.attempts.get t = some a) (same : b.pinned = a.pinned) :
      Moves t w (w.put t b)
  | postpone {a : Attempt} {kind : ActKind} {f : SenderPolicy → SenderPolicy}
      (faced : w.attempts.get t = some a) (keeps : ∀ p, (f p).timer = p.timer)
      (kept : kind ≠ .cleared) : Moves t w (w.touch t kind a.pinned.version f)
  | clear {a : Attempt} (mail : List MailMessage) (faced : w.attempts.get t = some a)
      (accepted : a.accepted = Batches.batches gmailBatchModifyMaxIds a.ids) :
      Moves t w { w.touch t .cleared a.pinned.version fun _ => .cleared with mail := mail }

section Moves

variable {t x : ℕ} {w w' : World} {v : SnoozeTimerVersion}

/-- The update finds the version, or it does nothing. -/
theorem touch_cases (w : World) (t : ℕ) (kind : ActKind) (v : SnoozeTimerVersion)
    (f : SenderPolicy → SenderPolicy) :
    w.touch t kind v f = w ∧ w.carries v = false ∨
      ∃ p, w.policy = some p ∧ p.carries v = true ∧
        w.touch t kind v f = { w with
          policy := some (f p)
          acts := w.acts ++ [⟨kind, w.attempts.get t, p, w.writes⟩] } := by
  unfold World.touch World.carries
  cases found : w.policy with
  | none => exact .inl ⟨rfl, rfl⟩
  | some p =>
    cases carried : p.carries v with
    | true => exact .inr ⟨p, rfl, carried, by simp [carried]⟩
    | false => exact .inl ⟨by simp [carried], by simpa using carried⟩

@[simp] theorem touch_attempts (w : World) (t : ℕ) (kind : ActKind) (v : SnoozeTimerVersion)
    (f : SenderPolicy → SenderPolicy) : (w.touch t kind v f).attempts = w.attempts := by
  rcases touch_cases w t kind v f with ⟨same, -⟩ | ⟨p, -, -, same⟩ <;> rw [same]

theorem Moves.get (h : Moves t w w') (other : x ≠ t) : w'.attempts.get x = w.attempts.get x := by
  cases h with
  | same => rfl
  | forget => simp [other.symm]
  | pin | take | go => simp [World.pin, other.symm]
  | postpone => simp
  | clear => simp

theorem carries_of_timer {p q : SenderPolicy} (same : p.timer = q.timer) :
    p.carries v = q.carries v := by
  simp only [SenderPolicy.timer, Prod.mk.injEq] at same
  simp [SenderPolicy.carries, same.1, same.2.1]

namespace World.Inv

theorem pinned (inv : w.Inv) {a : Attempt} (faced : w.attempts.get t = some a)
    (carried : w.carries a.pinned.version = true) : a.pinned.writes = w.writes :=
  (inv.pins a.pinned (mem_pins.mpr (.inl ⟨t, a, faced, rfl⟩))).2 carried

theorem forget (inv : w.Inv) : (w.forget t).Inv :=
  ⟨fun x mem => inv.pins x (mem_pins_forget mem), inv.acts, inv.timer⟩

theorem put (inv : w.Inv) {a : Attempt} (known : a.pinned.writes ≤ w.writes ∧
    (w.carries a.pinned.version = true → a.pinned.writes = w.writes)) : (w.put t a).Inv := by
  refine ⟨fun x mem => ?_, inv.acts, inv.timer⟩
  rcases mem_pins_put mem with rfl | old
  · exact known
  · exact inv.pins x old

/-- A wake's update writes down an act within its limits. -/
theorem act_within (inv : w.Inv) {a : Attempt} {p : SenderPolicy} (kind : ActKind)
    (faced : w.attempts.get t = some a) (found : w.policy = some p)
    (carried : p.carries a.pinned.version = true)
    (accepted : kind = .cleared → a.accepted = Batches.batches gmailBatchModifyMaxIds a.ids) :
    Act.Within ⟨kind, w.attempts.get t, p, w.writes⟩ :=
  ⟨a, faced, carried, inv.pinned faced (by simpa [World.carries, found] using carried), accepted⟩

theorem postpone (inv : w.Inv) {a : Attempt} {kind : ActKind} {f : SenderPolicy → SenderPolicy}
    (faced : w.attempts.get t = some a) (keeps : ∀ p, (f p).timer = p.timer)
    (kept : kind ≠ .cleared) : (w.touch t kind a.pinned.version f).Inv := by
  rcases touch_cases w t kind a.pinned.version f with ⟨same, -⟩ | ⟨p, found, carried, same⟩
  · rwa [same]
  · rw [same]
    refine ⟨fun x mem => ?_, fun act mem => ?_, ?_⟩
    · obtain ⟨le, current⟩ := inv.pins x mem
      refine ⟨le, fun there => current ?_⟩
      rw [World.carries, found, Option.any_some, ← carries_of_timer (keeps p)]
      exact there
    · rcases List.mem_append.mp mem with old | new
      · exact inv.acts act old
      · rw [List.mem_singleton.mp new]
        exact inv.act_within kind faced found carried fun cleared => absurd cleared kept
    · refine inv.timer.imp (fun last => ?_) fun ⟨empty, act, mem, cleared⟩ => ⟨?_, act, ?_, cleared⟩
      · simpa [World.timer, found, keeps p] using last
      · simpa [World.timer, found, keeps p] using empty
      · exact List.mem_append_left _ mem

theorem clear (inv : w.Inv) {a : Attempt} (mail : List MailMessage)
    (faced : w.attempts.get t = some a)
    (accepted : a.accepted = Batches.batches gmailBatchModifyMaxIds a.ids) :
    World.Inv { w.touch t .cleared a.pinned.version fun _ => .cleared with mail := mail } := by
  rcases touch_cases w t .cleared a.pinned.version fun _ => .cleared with
    ⟨same, -⟩ | ⟨p, found, carried, same⟩
  · rw [same]
    exact ⟨inv.pins, inv.acts, inv.timer⟩
  · rw [same]
    have within := inv.act_within .cleared faced found carried fun _ => accepted
    refine ⟨fun x mem => ⟨(inv.pins x mem).1, fun there => by contradiction⟩, fun act mem => ?_,
      .inr ⟨rfl, _, List.mem_append_right _ (List.mem_singleton_self _), rfl, ?_⟩⟩
    · rcases List.mem_append.mp mem with old | new
      · exact inv.acts act old
      · exact List.mem_singleton.mp new ▸ within
    · obtain ⟨b, read, -, current, -⟩ := within
      exact read ▸ congrArg some current

/-- A fresh write leaves no wake with the version of the row. -/
theorem write (inv : w.Inv) {p : SenderPolicy}
    (fresh : ∀ v ∈ p.version, ∀ x ∈ w.pins, x.version ≠ v) : (w.write p).Inv := by
  refine ⟨fun x mem => ?_, inv.acts, .inl rfl⟩
  have mem : x ∈ w.pins := mem
  refine ⟨Nat.le_succ_of_le (inv.pins x mem).1, fun there => ?_⟩
  simp only [World.carries, World.write, Option.any_some, SenderPolicy.carries,
    decide_eq_true_eq] at there
  exact absurd (by rw [there.2]) (fresh ⟨x.version.snoozedUntil, p.snoozedAt⟩
    (by simp [SenderPolicy.version, there.1]) x mem)

end World.Inv

theorem carries_of_version {p : SenderPolicy} (found : w.policy = some p)
    (read : p.version = some v) : w.carries v = true := by
  obtain ⟨due, same, rfl⟩ := Option.map_eq_some_iff.mp read
  simp [World.carries, found, SenderPolicy.carries, same]

theorem carries_of_due {now : ℤ} (found : w.dueVersion now = some v) : w.carries v = true := by
  unfold World.dueVersion at found
  split at found
  · obtain ⟨p, there, read⟩ := Option.bind_eq_some_iff.mp found
    exact carries_of_version (Option.filter_eq_some_iff.mp there).1 read
  · contradiction

theorem Moves.inv (h : Moves t w w') (inv : w.Inv) : w'.Inv := by
  cases h with
  | same => exact inv
  | forget => exact inv.forget
  | pin => exact inv.put ⟨le_rfl, fun _ => rfl⟩
  | @take p queued => exact inv.put (inv.pins p (mem_pins.mpr (.inr queued)))
  | @go a b faced same =>
    refine inv.put ?_
    rw [same]
    exact inv.pins _ (mem_pins.mpr (.inl ⟨t, a, faced, rfl⟩))
  | postpone faced keeps kept => exact inv.postpone faced keeps kept
  | clear mail faced accepted => exact inv.clear mail faced accepted

theorem World.Inv.disturb {e : Event} (inv : w.Inv) (fresh : w.Fresh e) : (w.disturb e).Inv := by
  unfold World.disturb
  split
  next p written => exact inv.write (fresh p written)
  next =>
    split
    next => exact inv
    next v read =>
      obtain ⟨p, found, read⟩ := Option.bind_eq_some_iff.mp read
      refine ⟨fun x mem => ?_, inv.acts, inv.timer⟩
      rcases mem_pins.mp mem with held | queued
      · exact inv.pins x (mem_pins.mpr (.inl held))
      · rcases List.mem_append.mp queued with old | new
        · exact inv.pins x (mem_pins.mpr (.inr old))
        · rw [List.mem_singleton.mp new]
          exact ⟨le_rfl, fun _ => rfl⟩
  next p =>
    refine ⟨fun x mem => inv.pins x ?_, inv.acts, inv.timer⟩
    exact mem_pins.mpr ((mem_pins.mp mem).imp_right List.mem_of_mem_filter)
  next => exact ⟨inv.pins, inv.acts, inv.timer⟩
  next => exact ⟨inv.pins, inv.acts, inv.timer⟩
  next => exact inv

theorem disturb_attempts (w : World) (e : Event) : (w.disturb e).attempts = w.attempts := by
  unfold World.disturb
  split <;> try rfl
  split <;> rfl

end Moves

/-! ## The wakes keep to it -/

section Code

variable {t : ℕ} {v : SnoozeTimerVersion}

/-- The others leave a thread's wake to it. -/
def Rely (t : ℕ) (w w' : World) : Prop := w'.attempts.get t = w.attempts.get t

/-- The wake of the thread is at `P`. -/
def wakeIs (t : ℕ) (P : Attempt → Prop) : Assertion (Rely t) where
  holds w := ∃ a, w.attempts.get t = some a ∧ P a
  stable := fun _ _ ⟨a, faced, h⟩ rely => ⟨a, rely.trans faced, h⟩

/-- The wake has read the version. -/
def reading (t : ℕ) (v : SnoozeTimerVersion) : Assertion (Rely t) :=
  wakeIs t fun a => a.pinned.version = v

/-- It has chosen its messages, and Gmail has accepted some chunks of them. -/
def chosen (t : ℕ) (v : SnoozeTimerVersion) (ids : List MessageId)
    (accepted : List (List MessageId)) : Assertion (Rely t) :=
  wakeIs t fun a => a.pinned.version = v ∧ a.ids = ids ∧ a.accepted = accepted

theorem reading_of_chosen {ids : List MessageId} {accepted : List (List MessageId)} {w : World}
    (h : chosen t v ids accepted w) : reading t v w := by
  obtain ⟨a, faced, same, -⟩ := h
  exact ⟨a, faced, same⟩

def Acts {α : Type} (v : SnoozeTimerVersion) (A : Assertion (Rely t)) (p : WakeProgram α)
    (B : α → Assertion (Rely t)) : Prop :=
  @Triple WakeSignature waking Rely t α Moves A p B fun _ => reading t v

/-- One statement of a wake. -/
theorem Acts.ask {A : Assertion (Rely t)} {q : Request} {B : q.Answer → Assertion (Rely t)}
    (reads : ∀ w, A w → reading t v w)
    (h : ∀ w, A w → ∀ f, Moves t w (effect t f w q).2 ∧ reading t v (effect t f w q).2 ∧
      B (effect t f w q).1 (effect t f w q).2) : Acts v A (Later.ask q) B := by
  refine Triple.perform fun w hw c r w' answered => ?_
  have answered : answer t q c w = some (r, w') := answered
  cases c with
  | go f =>
    obtain ⟨rfl, rfl⟩ := Prod.mk.inj (Option.some.inj answered)
    exact ⟨(h w hw f).1, (h w hw f).2.2⟩
  | lost f e =>
    obtain ⟨rfl, rfl⟩ := Prod.mk.inj (Option.some.inj answered)
    exact ⟨(h w hw f).1, (h w hw f).2.1⟩
  | fail e =>
    obtain ⟨rfl, rfl⟩ := Prod.mk.inj (Option.some.inj answered)
    exact ⟨.same, reads w hw⟩

/-- A statement that writes nothing here. -/
theorem look {A : Assertion (Rely t)} {q : Request} (same : ∀ f w, (effect t f w q).2 = w) :
    @Triple WakeSignature waking Rely t _ Moves A (ask q) (fun _ => A) fun _ => A := by
  refine Triple.perform fun w hw c r w' answered => ?_
  have answered : answer t q c w = some (r, w') := answered
  have idle : w' = w := by
    cases c with
    | go f | lost f e => exact (Prod.mk.inj (Option.some.inj answered)).2.symm.trans (same f w)
    | fail e => exact (Prod.mk.inj (Option.some.inj answered)).2.symm
  subst idle
  refine ⟨.same, ?_⟩
  cases r <;> exact hw

theorem Acts.look {A : Assertion (Rely t)} {q : Request} (reads : ∀ w, A w → reading t v w)
    (same : ∀ f w, (effect t f w q).2 = w) : Acts v A (Later.ask q) fun _ => A :=
  (Later.look same).consequence (fun _ h => h) (fun _ _ h => h) fun _ w => reads w

/-- A statement whose failure is no matter. -/
theorem Acts.bestEffort {A : Assertion (Rely t)} {p : WakeProgram Unit}
    (h : @Triple WakeSignature waking Rely t _ Moves A p (fun _ => A) fun _ => A) :
    Acts v A (tryCatch p fun _ => .ret ()) fun _ => A :=
  Triple.tryCatch h fun _ => Triple.done fun _ h => h

/-- An update of the row that leaves the timer. -/
theorem Acts.postpone {P : Attempt → Prop} {q : Request} (kind : ActKind)
    (reads : ∀ a, P a → a.pinned.version = v) (kept : kind ≠ .cleared)
    (update : ∀ f w, ∃ g, (∀ p, (g p).timer = p.timer) ∧
      (effect t f w q).2 = w.touch t kind v g) :
    Acts v (wakeIs t P) (Later.ask q) fun _ => wakeIs t P := by
  refine Acts.ask (fun w ⟨a, faced, h⟩ => ⟨a, faced, reads a h⟩) fun w ⟨a, faced, h⟩ f => ?_
  obtain ⟨g, keeps, same⟩ := update f w
  have read := reads a h
  subst read
  rw [same]
  exact ⟨.postpone faced keeps kept, ⟨a, by simpa using faced, rfl⟩, ⟨a, by simpa using faced, h⟩⟩

theorem acts_postAll (change : LabelChange) {ids : List MessageId}
    (chunks done : List (List MessageId)) :
    Acts v (chosen t v ids done) (postAll change chunks)
      fun _ => chosen t v ids (done ++ chunks) := by
  induction chunks generalizing done with
  | nil => exact Triple.done fun w h => by simpa using h
  | cons chunk chunks ih =>
    refine Triple.bind (Acts.ask (B := fun _ => chosen t v ids (done ++ [chunk]))
      (fun w => reading_of_chosen) fun w ⟨a, faced, read, chose, accepted⟩ f => ?_) fun _ => ?_
    · have grown : (effect t f w (.post chunk change)).2 =
          w.put t { a with accepted := a.accepted ++ [chunk] } := by
        simp [effect, World.accept, faced]
      rw [grown]
      exact ⟨.go faced rfl, ⟨_, put_self .., read⟩,
        ⟨_, put_self .., read, chose, by simp [accepted]⟩⟩
    · have rest := ih (done ++ [chunk])
      rwa [List.append_assoc, List.singleton_append] at rest

theorem acts_batchModify (change : LabelChange) (ids : List MessageId) :
    Acts v (chosen t v ids []) (batchModify ids change)
      fun _ => chosen t v ids (Batches.batches gmailBatchModifyMaxIds ids) :=
  acts_postAll change _ []

/-- The timer is cleared at the end of a return. -/
theorem acts_settle (labelId : Label) (restored : Bool) (ids : List MessageId) :
    Acts v (chosen t v ids (Batches.batches gmailBatchModifyMaxIds ids))
      (ask (.settle labelId restored v)) fun _ => reading t v := by
  refine Acts.ask (fun w => reading_of_chosen) fun w ⟨a, faced, read, chose, accepted⟩ f => ?_
  subst read
  refine ⟨.clear _ faced (chose ▸ accepted), ?_, ?_⟩ <;>
    exact ⟨a, (congrArg (·.get t) (touch_attempts ..)).trans faced, rfl⟩

theorem acts_wakeSender : Acts v (chosen t v [] []) (wakeSender v) fun _ => reading t v := by
  refine Triple.bind (B := fun _ => chosen t v [] []) ?_ fun claimed => ?_
  · exact Acts.postpone .claimed (fun a h => h.1) (by decide) fun f w =>
      ⟨(·.claimed f.now), fun p => rfl, rfl⟩
  cases claimed with
  | false => exact Triple.done fun w => reading_of_chosen
  | true =>
    have looks : ∀ {q : Request}, (∀ f w, (effect t f w q).2 = w) →
        Acts v (chosen t v [] []) (ask q) fun _ => chosen t v [] [] := fun same =>
      Acts.look (fun w => reading_of_chosen) same
    refine Triple.bind (looks fun _ _ => rfl) fun _ => ?_
    refine Triple.bind (looks fun _ _ => rfl) fun labelId => ?_
    refine Triple.bind (B := fun _ => chosen t v [] []) ?_ fun _ => ?_
    · exact Acts.bestEffort (look fun _ _ => rfl)
    refine Triple.bind (Acts.ask (q := .selectLabelled labelId) (B := fun ids => chosen t v ids [])
      (fun w => reading_of_chosen) fun w ⟨a, faced, read, _, accepted⟩ f => ?_) fun ids => ?_
    · have chose : (effect t f w (.selectLabelled labelId)).2 = w.put t
          { a with ids := (w.labelled labelId).map (·.providerMessageId) } := by
        simp [effect, World.choose, faced]
      rw [chose]
      exact ⟨.go faced rfl, ⟨_, put_self .., read⟩, ⟨_, put_self .., read, rfl, accepted⟩⟩
    · refine Triple.bind (B := fun _ =>
        chosen t v ids (Batches.batches gmailBatchModifyMaxIds ids)) ?_ fun _ => ?_
      · refine Triple.when (fun _ => acts_batchModify _ ids) fun empty w h => ?_
        obtain rfl : ids = [] := by simpa using empty
        exact h
      · exact Triple.bind (acts_settle labelId _ ids) fun _ => Triple.done fun _ h => h

theorem acts_recordWakeFailure (e : WakeError) :
    Acts v (reading t v) (recordWakeFailure v e) fun _ => reading t v := by
  refine Triple.bind (B := fun _ => reading t v) ?_ fun superseded => ?_
  · unfold grantSuperseded
    split
    · exact Acts.look (fun _ h => h) fun _ _ => rfl
    · exact Triple.done fun _ h => h
  · exact Acts.postpone .backedOff (fun a h => h) (by decide) fun f w =>
      ⟨(·.backedOff f.now _), fun p => rfl, rfl⟩

theorem acts_unlock : Acts v (reading t v) unlock fun _ => reading t v :=
  Acts.bestEffort (look fun _ _ => rfl)

/-- The wake of a sweep, and of a job. -/
theorem acts_return {recovers : WakeError → WakeProgram WakeOutcome}
    (handled : ∀ e, Acts v (reading t v) (recovers e) fun _ => reading t v) :
    Acts v (chosen t v [] [])
      (Program.ensure (tryCatch (WakeOutcome.of <$> wakeSender v) recovers) unlock)
      fun _ => reading t v := by
  have wakes : Acts v (chosen t v [] []) (WakeOutcome.of <$> wakeSender v) fun _ => reading t v :=
    Triple.bind acts_wakeSender fun _ => Triple.done fun _ h => h
  have body : Acts v (chosen t v [] []) (tryCatch (WakeOutcome.of <$> wakeSender v) recovers)
      fun _ => reading t v := Triple.tryCatch wakes handled
  exact Triple.ensure body (fun _ => acts_unlock) fun _ => acts_unlock

theorem acts_runTargetedWake (attempt maxAttempts : ℕ) :
    Acts v (chosen t v [] []) (runTargetedWake v attempt maxAttempts) fun _ => reading t v := by
  have locks : Acts v (chosen t v [] []) (ask .lockMailbox) fun _ => chosen t v [] [] :=
    Acts.look (fun w => reading_of_chosen) fun _ _ => rfl
  refine Triple.bind locks fun _ => acts_return fun e => ?_
  have records : Acts v (reading t v) (Program.when (e.isNonRetryable ||
      decide (maxAttempts ≤ attempt)) (recordWakeFailure v e)) fun _ => reading t v :=
    Triple.when (fun _ => acts_recordWakeFailure e) fun _ _ h => h
  exact Triple.bind records fun _ => Triple.failed fun _ h => h

/-- What the sweep's read leaves. -/
def swept (t : ℕ) : Option SnoozeTimerVersion → Assertion (Rely t)
  | none => .fact True
  | some v => chosen t v [] []

theorem swept_pin (w : World) : ∀ found, swept t found (w.pin t found)
  | none => trivial
  | some _ => ⟨_, put_self .., rfl, rfl, rfl⟩

theorem acts_sweep (now : ℤ) : @Triple WakeSignature waking Rely t _ Moves (.fact True) (sweep now)
    (fun _ => .fact True) fun _ => .fact True := by
  unfold sweep
  refine Triple.bind (B := swept t) ?_ fun found => ?_
  · refine Triple.perform fun w _ c r w' answered => ?_
    have answered : answer t (.selectDue now) c w = some (r, w') := answered
    have moves : Moves t w (w.pin t (w.dueVersion now)) := by
      cases due : w.dueVersion now with
      | none => exact .same
      | some v => exact .pin (carries_of_due due)
    cases c with
    | go f =>
      obtain ⟨rfl, rfl⟩ := Prod.mk.inj (Option.some.inj answered)
      exact ⟨moves, swept_pin w _⟩
    | lost f e =>
      obtain ⟨rfl, rfl⟩ := Prod.mk.inj (Option.some.inj answered)
      exact ⟨moves, trivial⟩
    | fail e =>
      obtain ⟨rfl, rfl⟩ := Prod.mk.inj (Option.some.inj answered)
      exact ⟨.same, trivial⟩
  cases found with
  | none => exact Triple.done fun _ h => h
  | some v =>
    refine Triple.bind (B := fun _ => chosen t v [] []) ?_ fun entered => ?_
    · refine Triple.tryCatch (F := fun _ => chosen t v [] []) ?_ fun _ => Triple.done fun _ h => h
      exact Triple.bind (look fun _ _ => rfl) fun _ => Triple.done fun _ h => h
    cases entered with
    | false => exact Triple.done fun _ _ => trivial
    | true =>
      refine Triple.consequence (acts_return fun e => ?_) (fun _ h => h)
        (fun _ _ _ => trivial) fun _ _ _ => trivial
      exact Triple.bind (acts_recordWakeFailure e) fun _ => Triple.done fun _ h => h

end Code

/-! ## Every run -/

theorem verified : Verified waking Fresh Rely Moves World.Inv (fun _ _ => True)
    fun _ _ _ => True where
  guarantee_rely ne _ moves := moves.get ne.symm
  guarantee_inv inv moves := moves.inv inv
  idle_stable _ _ _ _ := fun _ => trivial
  start := by
    intro t task w w' inv _ accepted
    cases task with
    | sweep now =>
      obtain rfl := Option.some.inj accepted
      exact ⟨.forget, (acts_sweep now _ trivial).mono fun _ _ _ => trivial⟩
    | wake pinned attempt maxAttempts =>
      obtain ⟨queued, same⟩ := Option.ite_none_right_eq_some.mp accepted
      obtain rfl := Option.some.inj same
      refine ⟨.take queued, (acts_runTargetedWake attempt maxAttempts _ ?_).mono
        fun _ _ _ => trivial⟩
      exact ⟨_, put_self .., rfl, rfl, rfl⟩
  finish := by
    intro t r w w' _ _ settled
    obtain rfl := Option.some.inj settled
    exact ⟨.forget, trivial⟩
  crash := by
    intro t w w' _ crashed
    obtain rfl := Option.some.inj crashed
    exact ⟨.forget, trivial⟩
  disturb := by
    intro e w w' inv fresh disturbed
    obtain rfl := Option.some.inj disturbed
    exact ⟨inv.disturb fresh, fun t => congrArg (InsertionMap.get · t) (disturb_attempts w e)⟩

/-- Before any wake, with whatever timer is there. -/
def World.initial (active : Bool) (policy : Option SenderPolicy) (mail : List MailMessage) :
    World where
  active := active
  policy := policy
  mail := mail
  queue := []
  writes := 0
  latest := (policy.map SenderPolicy.timer).getD (none, none, none)
  attempts := .empty
  acts := []

theorem inv_initial (active : Bool) (policy : Option SenderPolicy) (mail : List MailMessage) :
    (World.initial active policy mail).Inv :=
  ⟨by simp [World.initial, World.pins, InsertionMap.empty], by simp [World.initial], .inl rfl⟩

def sampleStart : World :=
  .initial true (some (.scheduled 100 10 none)) [⟨"m", ["Label_1", "UNREAD"]⟩]

/-- A statement that goes through. -/
def goes (t : ℕ) : Move waking := .reply t (.go ⟨0, "Label_1", false⟩)

/-- The user picks another time between the sweep's read and its claim; the next sweep brings the
mail back. -/
def rescheduled : List (Move waking) :=
  .start (0 : ℕ) (.sweep 200) :: goes 0 :: .disturb (.setSnooze 900 none 205) ::
    .replicate 3 (goes 0) ++ .finish (0 : ℕ) ::
    .start (0 : ℕ) (.sweep 1000) :: .replicate 10 (goes 0) ++ [.finish (0 : ℕ)]

/-- A Wake now is queued, and the user changes the note before the job starts, on a server whose
clock shows the time at which the timer was set. -/
def noteChanged : List (Move waking) :=
  .disturb .wakeNow :: .disturb (.setSnooze 100 (some "later") 10) ::
    .start (0 : ℕ) (.wake ⟨⟨100, some 10⟩, 0⟩ 1 5) :: .replicate 9 (goes 0) ++ [.finish (0 : ℕ)]

/-- A wake writes the row only under the version it has read, on the row of that very timer write,
and clears it after Gmail has accepted every chunk; and the timer of the last write is still there,
unless a wake that has read it brought the mail back. -/
theorem timers_never_lost {active : Bool} {policy : Option SenderPolicy} {mail : List MailMessage}
    {c : Config waking}
    (run : RunWhere Fresh (Config.idle (World.initial active policy mail)) c) :
    (∀ act ∈ c.world.acts, Act.Within act) ∧
      (World.timer c.world = c.world.latest ∨
        World.timer c.world = (none, none, none) ∧ World.Returned c.world) := by
  have sound := verified.sound (inv_initial active policy mail) (fun _ => trivial) run
  exact ⟨sound.inv.acts, sound.inv.timer⟩

theorem timers_never_lost_rescheduled : ∃ c : Config waking,
    (Config.idle (M := waking) sampleStart).runIf Fresh rescheduled = some c ∧
    c.world.acts.map (·.kind) = [.claimed, .cleared] ∧
    (∀ act ∈ c.world.acts, Act.Within act) ∧ World.Returned c.world := by
  let start : Config waking := .idle sampleStart
  have run : (start.runIf Fresh rescheduled).any (fun c => decide (
      c.world.acts.map (·.kind) = [.claimed, .cleared] ∧
      World.timer c.world ≠ c.world.latest)) = true := by decide
  obtain ⟨c, ran, seen⟩ := (Option.any_eq_true _ _).mp run
  obtain ⟨kinds, lost⟩ := of_decide_eq_true seen
  obtain ⟨within, last | returned⟩ := timers_never_lost (runWhere_of_runIf ran)
  · exact absurd last lost
  · exact ⟨c, ran, kinds, within, returned.2⟩

/-- The wake clears the timer that the user has just written. -/
theorem note_lost : ∃ c : Config waking,
    (Config.idle (M := waking) sampleStart).run noteChanged = some c ∧
    c.world.latest = (some 100, some 10, some "later") ∧
    World.timer c.world = (none, none, none) ∧ ¬ World.Returned c.world := by
  let start : Config waking := .idle sampleStart
  have run : (start.run noteChanged).any (fun c => decide (
      c.world.latest = (some 100, some 10, some "later") ∧
      World.timer c.world = (none, none, none) ∧ ∀ act ∈ c.world.acts,
        ¬(act.kind = .cleared ∧ act.attempt.map (·.pinned.writes) = some c.world.writes))) =
      true := by decide
  obtain ⟨c, ran, seen⟩ := (Option.any_eq_true _ _).mp run
  obtain ⟨latest, timer, unread⟩ := of_decide_eq_true seen
  exact ⟨c, ran, latest, timer, fun ⟨act, mem, cleared⟩ => unread act mem cleared⟩

end DeclutrMail.Later
