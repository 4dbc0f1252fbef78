import DeclutrMail.Sync.InitialSync

/-!
# Attempts of the initial sync are fenced

An attempt that has lost the row writes nothing any more: the row carries the id of the one attempt
that may (`World.Inv.holder`). The history id that an attempt brings to ready came in before its
first listing, and the cursor is that id unless an incremental run has stored a later one. The
reconciler requeues a mailbox a bounded number of times, until its count is reset.
-/

namespace DeclutrMail.Sync.Initial

open Interleaving

/-! ## The invariant -/

/-- The history id came in before the first listing of the attempt. -/
def CapturedBefore (log : List Entry) (historyId k : ℕ) : Prop :=
  ∃ before after e, log = before ++ .listed k :: after ∧ Entry.listed k ∉ before ∧ e ∈ before ∧
    e.captured = some historyId

/-- The cursor is the attempt's snapshot, or what an incremental run has stored since. -/
def Completion.Sound (log : List Entry) (x : Completion) : Prop :=
  CapturedBefore log x.snapshot x.attempt ∧
    (x.cursor = x.snapshot ∨ x.snapshot < x.cursor ∧ Entry.incremental x.cursor ∈ log)

structure World.Inv (w : World) : Prop where
  issued : ∀ t k, w.attemptIds t = some k → k < w.nextId
  apart : ∀ t t' k, w.attemptIds t = some k → w.attemptIds t' = some k → t = t'
  claimed : ∀ k ∈ w.claimed, k < w.nextId
  superseded : ∀ k ∈ w.superseded, k ∈ w.claimed
  holder : ∀ k, w.holder = some k → k ∈ w.claimed ∧ k ∉ w.superseded
  listed : ∀ k, Entry.listed k ∈ w.log → k < w.nextId
  stored : ∀ h, w.cursor = some h → ∃ e ∈ w.log, e.captured = some h
  writes : ∀ x ∈ w.writes, x.superseded = false
  completions : ∀ x ∈ w.completions, x.Sound w.log
  counted : w.requeues ≤ (w.row.map (·.initialRecoveryAttempts)).getD 0
  limited : w.requeues ≤ initialRecoveryLimit

/-- The row stays with its attempt, its cursor and its count. -/
structure SyncState.Keeps (r r' : SyncState) : Prop where
  attempt : r'.initialAttemptId = r.initialAttemptId
  cursor : r'.lastHistoryId = r.lastHistoryId
  count : r'.initialRecoveryAttempts = r.initialRecoveryAttempts

section Rows

variable {w : World} {r r' : SyncState} {k h : ℕ} {log : List Entry} {x : Completion}

@[simp] theorem setRow_row (w : World) (r : SyncState) : (w.setRow r).row = some r := rfl

@[simp] theorem setRow_holder (w : World) (r : SyncState) :
    (w.setRow r).holder = r.initialAttemptId := rfl

@[simp] theorem setRow_cursor (w : World) (r : SyncState) :
    (w.setRow r).cursor = r.lastHistoryId := rfl

theorem holder_of_row (found : w.row = some r) : w.holder = r.initialAttemptId := by
  simp [World.holder, found]

theorem cursor_of_row (found : w.row = some r) : w.cursor = r.lastHistoryId := by
  simp [World.cursor, found]

/-- Who loses the row. -/
theorem mem_setRow_superseded : k ∈ (w.setRow r).superseded ↔
    k ∈ w.superseded ∨ w.holder = some k ∧ r.initialAttemptId ≠ some k := by
  simp [World.setRow, Option.mem_toList]

theorem CapturedBefore.append (before : CapturedBefore log h k) (more : List Entry) :
    CapturedBefore (log ++ more) h k := by
  obtain ⟨l, after, e, rfl, first, mem, captured⟩ := before
  exact ⟨l, after ++ more, e, by simp, first, mem, captured⟩

theorem Completion.Sound.append (sound : x.Sound log) (more : List Entry) :
    x.Sound (log ++ more) :=
  ⟨sound.1.append more, sound.2.imp_right fun ⟨less, mem⟩ => ⟨less, List.mem_append_left _ mem⟩⟩

namespace World.Inv

/-- A row may be written for an attempt that has not lost it. -/
theorem setRow (inv : w.Inv)
    (fence : ∀ k, r.initialAttemptId = some k → k ∈ w.claimed ∧ k ∉ w.superseded)
    (stored : ∀ h, r.lastHistoryId = some h → ∃ e ∈ w.log, e.captured = some h)
    (counted : w.requeues ≤ r.initialRecoveryAttempts) : (w.setRow r).Inv where
  issued := inv.issued
  apart := inv.apart
  claimed := inv.claimed
  superseded k lost := by
    rcases mem_setRow_superseded.mp lost with before | ⟨held, -⟩
    · exact inv.superseded k before
    · exact (inv.holder k held).1
  holder k held := by
    obtain ⟨claimed, kept⟩ := fence k held
    refine ⟨claimed, fun lost => ?_⟩
    rcases mem_setRow_superseded.mp lost with before | ⟨-, other⟩
    · exact kept before
    · exact other held
  listed := inv.listed
  stored := stored
  writes := inv.writes
  completions := inv.completions
  counted := counted
  limited := inv.limited

theorem count_le (inv : w.Inv) (found : w.row = some r) :
    w.requeues ≤ r.initialRecoveryAttempts := by
  simpa [found] using inv.counted

/-- The row is written for whom it was. -/
theorem keep (inv : w.Inv) (found : w.row = some r) (keeps : r.Keeps r') : (w.setRow r').Inv := by
  refine inv.setRow (fun k held => inv.holder k ?_) (fun h same => inv.stored h ?_) ?_
  · rw [holder_of_row found, ← keeps.attempt, held]
  · rw [cursor_of_row found, ← keeps.cursor, same]
  · exact keeps.count ▸ inv.count_le found

theorem written (inv : w.Inv) {x : AttemptWrite} (kept : x.superseded = false) :
    World.Inv { w with writes := w.writes ++ [x] } where
  issued := inv.issued
  apart := inv.apart
  claimed := inv.claimed
  superseded := inv.superseded
  holder := inv.holder
  listed := inv.listed
  stored := inv.stored
  writes y mem := by
    rcases List.mem_append.mp mem with old | new
    · exact inv.writes y old
    · exact List.mem_singleton.mp new ▸ kept
  completions := inv.completions
  counted := inv.counted
  limited := inv.limited

theorem note (inv : w.Inv) (e : Entry) (known : ∀ k, e = .listed k → k < w.nextId) :
    (w.note e).Inv where
  issued := inv.issued
  apart := inv.apart
  claimed := inv.claimed
  superseded := inv.superseded
  holder := inv.holder
  listed k mem := by
    rcases List.mem_append.mp mem with old | new
    · exact inv.listed k old
    · exact known k (List.mem_singleton.mp new).symm
  stored h same := by
    obtain ⟨e, mem, captured⟩ := inv.stored h same
    exact ⟨e, List.mem_append_left _ mem, captured⟩
  writes := inv.writes
  completions x mem := (inv.completions x mem).append _
  counted := inv.counted
  limited := inv.limited

theorem issue (inv : w.Inv) (t : ℕ) : (w.issue t).Inv where
  issued t' k mine := by
    by_cases same : t' = t
    · subst same
      obtain rfl : w.nextId = k := by simpa [World.issue] using mine
      exact Nat.lt_succ_self _
    · have old : w.attemptIds t' = some k := by simpa [World.issue, same] using mine
      exact Nat.lt_succ_of_lt (inv.issued t' k old)
  apart t' t'' k mine yours := by
    have fresh : ∀ x, w.attemptIds x ≠ some w.nextId := fun x same =>
      Nat.lt_irrefl _ (inv.issued x _ same)
    simp only [World.issue, Function.update_apply] at mine yours
    grind [inv.apart t' t'' k]
  claimed k mem := Nat.lt_succ_of_lt (inv.claimed k mem)
  superseded := inv.superseded
  holder := inv.holder
  listed k mem := Nat.lt_succ_of_lt (inv.listed k mem)
  stored := inv.stored
  writes := inv.writes
  completions := inv.completions
  counted := inv.counted
  limited := inv.limited

theorem forget (inv : w.Inv) (t : ℕ) : (w.forget t).Inv where
  issued t' k mine := by
    simp only [World.forget, Function.update_apply] at mine
    exact inv.issued t' k (by grind)
  apart t' t'' k mine yours := by
    simp only [World.forget, Function.update_apply] at mine yours
    grind [inv.apart t' t'' k]
  claimed := inv.claimed
  superseded := inv.superseded
  holder := inv.holder
  listed := inv.listed
  stored := inv.stored
  writes := inv.writes
  completions := inv.completions
  counted := inv.counted
  limited := inv.limited

/-- An attempt that has been issued may claim. -/
theorem take (inv : w.Inv) (known : k < w.nextId) :
    World.Inv { w with claimed := w.claimed ++ [k] } where
  issued := inv.issued
  apart := inv.apart
  claimed x mem := by
    rcases List.mem_append.mp mem with old | new
    · exact inv.claimed x old
    · exact List.mem_singleton.mp new ▸ known
  superseded x mem := List.mem_append_left _ (inv.superseded x mem)
  holder x held := ⟨List.mem_append_left _ (inv.holder x held).1, (inv.holder x held).2⟩
  listed := inv.listed
  stored := inv.stored
  writes := inv.writes
  completions := inv.completions
  counted := inv.counted
  limited := inv.limited

end World.Inv

end Rows

/-! ## What the others do -/

/-- An event leaves the row, takes it from its attempt, keeps it there, or moves its cursor on. -/
inductive Stirs (w : World) : World → Prop where
  | calm (mailbox : Eligibility) (now : ℤ) : Stirs w { w with mailbox := mailbox, now := now }
  | queue {r : SyncState} {n m : ℕ} (free : r.initialAttemptId = none)
      (cursor : r.lastHistoryId = none ∨ r.lastHistoryId = w.cursor)
      (counted : n ≤ r.initialRecoveryAttempts) (limited : n ≤ initialRecoveryLimit) :
      Stirs w { w.setRow r with requeues := n, sinceReady := m }
  | keep {r r' : SyncState} (found : w.row = some r) (keeps : r.Keeps r') : Stirs w (w.setRow r')
  | advance {r r' : SyncState} {h : ℕ} (found : w.row = some r)
      (keeps : r.Keeps { r' with lastHistoryId := r.lastHistoryId })
      (cursor : r'.lastHistoryId = some h) :
      Stirs w ((w.setRow r').note (.incremental h))

section Stirs

variable {w w' : World} {k : ℕ}

theorem Stirs.inv (h : Stirs w w') (inv : w.Inv) : w'.Inv := by
  cases h with
  | calm mailbox now =>
    exact ⟨inv.issued, inv.apart, inv.claimed, inv.superseded, inv.holder, inv.listed, inv.stored,
      inv.writes, inv.completions, inv.counted, inv.limited⟩
  | @queue r n m free cursor counted limited =>
    have base : World.Inv { w with requeues := 0 } :=
      ⟨inv.issued, inv.apart, inv.claimed, inv.superseded, inv.holder, inv.listed, inv.stored,
        inv.writes, inv.completions, Nat.zero_le _, Nat.zero_le _⟩
    have next : (World.setRow { w with requeues := 0 } r).Inv := by
      refine base.setRow (fun k held => ?_) (fun h same => ?_) (Nat.zero_le _)
      · rw [free] at held
        contradiction
      · rcases cursor with empty | kept
        · rw [empty] at same
          contradiction
        · exact inv.stored h (kept ▸ same)
    exact ⟨next.issued, next.apart, next.claimed, next.superseded, next.holder, next.listed,
      next.stored, next.writes, next.completions, counted, limited⟩
  | keep found keeps => exact inv.keep found keeps
  | @advance r r' h found keeps cursor =>
    have noted := inv.note (.incremental h) (fun k same => by contradiction)
    have found' : (w.note (.incremental h)).row = some r := found
    refine noted.setRow (fun k held => inv.holder k ?_) (fun h' same => ?_) ?_
    · rw [holder_of_row found, ← keeps.attempt]
      exact held
    · obtain rfl := Option.some.inj (cursor.symm.trans same)
      exact ⟨.incremental h, List.mem_append_right _ (List.mem_singleton_self _), rfl⟩
    · exact Nat.le_trans (inv.count_le found) (Nat.le_of_eq keeps.count.symm)

theorem Stirs.attemptIds (h : Stirs w w') : w'.attemptIds = w.attemptIds := by
  cases h <;> rfl

theorem Stirs.claimed (h : Stirs w w') : w'.claimed = w.claimed := by
  cases h <;> rfl

/-- Only an incremental run writes to the log, and only a cursor. -/
theorem Stirs.log (h : Stirs w w') : ∃ more, w'.log = w.log ++ more ∧ ∀ k, Entry.listed k ∉ more := by
  cases h with
  | calm | queue | keep => exact ⟨[], (List.append_nil _).symm, by simp⟩
  | advance => exact ⟨_, rfl, by simp⟩

theorem Stirs.held (h : Stirs w w') (held : w'.holder = some k) : w.holder = some k ∧
    (w'.cursor = w.cursor ∨ ∃ c, w'.cursor = some c ∧ Entry.incremental c ∈ w'.log) := by
  cases h with
  | calm => exact ⟨held, .inl rfl⟩
  | @queue r n m free =>
    have none_ : r.initialAttemptId = some k := held
    rw [free] at none_
    contradiction
  | @keep r r' found keeps =>
    have held : r'.initialAttemptId = some k := held
    have cursor : (w.setRow r').cursor = w.cursor := by
      rw [setRow_cursor, keeps.cursor, cursor_of_row found]
    exact ⟨by rw [holder_of_row found, ← keeps.attempt, held], .inl cursor⟩
  | @advance r r' c found keeps cursor =>
    have held : r'.initialAttemptId = some k := held
    have same : r'.initialAttemptId = r.initialAttemptId := keeps.attempt
    exact ⟨by rw [holder_of_row found, ← same, held],
      .inr ⟨c, cursor, List.mem_append_right _ (List.mem_singleton_self _)⟩⟩

theorem updateIf_cases (w : World) (p : SyncState → Bool) (f : SyncState → SyncState)
    (then_ : World → World) : w.updateIf p f then_ = w ∨
      ∃ r, w.row = some r ∧ p r = true ∧ w.updateIf p f then_ = then_ (w.setRow (f r)) := by
  unfold World.updateIf
  cases found : w.row with
  | none => exact .inl rfl
  | some r =>
    cases asked : p r with
    | true => exact .inr ⟨r, rfl, asked, by simp [asked]⟩
    | false => exact .inl (by simp [asked])

theorem stirs_updateIf {p : SyncState → Bool} {f : SyncState → SyncState} {then_ : World → World}
    (h : ∀ r, w.row = some r → p r = true → Stirs w (then_ (w.setRow (f r)))) :
    Stirs w (w.updateIf p f then_) := by
  rcases updateIf_cases w p f then_ with same | ⟨r, found, asked, same⟩
  · rw [same]
    exact .calm w.mailbox w.now
  · rw [same]
    exact h r found asked

/-- A connect puts the row back without its attempt. -/
theorem stirs_queue (inv : w.Inv) (freshCredentials : Bool) :
    Stirs w (w.queue freshCredentials) := by
  let r := (w.row.map (·.markQueued freshCredentials w.now)).getD (.fresh w.now)
  have free : r.initialAttemptId = none := by
    cases found : w.row <;> cases freshCredentials <;> simp [r, found] <;> rfl
  have cursor : r.lastHistoryId = none ∨ r.lastHistoryId = w.cursor := by
    cases found : w.row with
    | none => exact .inl (by simp [r, found, SyncState.fresh])
    | some old =>
      have kept : r.lastHistoryId =
          if old.readinessStatus = .ready then none else old.lastHistoryId := by
        cases freshCredentials <;>
          simp [r, found, SyncState.markQueued, SyncState.freshGrant]
      rw [kept, cursor_of_row found]
      split
      · exact .inl rfl
      · exact .inr rfl
  cases freshCredentials with
  | true => exact .queue (m := w.sinceReady) free cursor (Nat.zero_le _) (Nat.zero_le _)
  | false =>
    refine .queue (n := w.requeues) (m := w.sinceReady) free cursor ?_ inv.limited
    have counted := inv.counted
    cases found : w.row with
    | none => simpa [r, found, SyncState.fresh] using counted
    | some old =>
      simpa [r, found, SyncState.markQueued, SyncState.requeued] using counted

theorem disturb_stirs (inv : w.Inv) (e : Event) : Stirs w (w.disturb e) := by
  cases e with
  | markQueued freshCredentials => exact stirs_queue inv freshCredentials
  | markConnected =>
    unfold World.disturb
    dsimp only
    split
    · refine stirs_updateIf fun r found _ => .keep found ?_
      unfold World.clearAuthError
      split <;> exact ⟨rfl, rfl, rfl⟩
    · exact stirs_queue inv true
  | retryFailedInitialSync =>
    refine stirs_updateIf fun r found _ => ?_
    exact .queue (m := w.sinceReady) rfl (.inr (cursor_of_row found).symm) (Nat.zero_le _)
      (Nat.zero_le _)
  | recoverExpiredHistoryCursor expired =>
    refine stirs_updateIf fun r found _ => ?_
    exact .queue (m := w.sinceReady) rfl (.inl rfl) (Nat.zero_le _) (Nat.zero_le _)
  | reconcile tickNow =>
    unfold World.disturb
    dsimp only
    split
    · refine stirs_updateIf fun r found asked => ?_
      have below : r.initialRecoveryAttempts < initialRecoveryLimit := by
        simp only [SyncState.recoverable, Bool.and_eq_true, decide_eq_true_eq] at asked
        exact asked.1.2
      have counted := inv.count_le found
      exact .queue (n := w.requeues + 1) (m := w.sinceReady + 1) rfl
        (.inr (cursor_of_row found).symm) (Nat.succ_le_succ counted) (by omega)
    · exact .calm w.mailbox w.now
  | reconcilerPark =>
    unfold World.disturb
    dsimp only
    split
    · exact stirs_updateIf fun r found _ => .keep found ⟨rfl, rfl, rfl⟩
    · exact .calm w.mailbox w.now
  | incrementalCursor candidate =>
    unfold World.disturb
    refine stirs_updateIf fun r found _ => ?_
    exact .advance found ⟨rfl, rfl, rfl⟩ rfl
  | incrementalDone => exact stirs_updateIf fun r found _ => .keep found ⟨rfl, rfl, rfl⟩
  | incrementalFailed e at_ => exact stirs_updateIf fun r found _ => .keep found ⟨rfl, rfl, rfl⟩
  | mailbox status => exact .calm status w.now
  | tick ms => exact .calm w.mailbox (w.now + ms)

end Stirs

/-! ## What an attempt may do -/

/-- The row's cursor, as long as the attempt holds the row. -/
def Held (k snapshot : ℕ) (w : World) : Prop :=
  w.holder = some k →
    w.cursor = some snapshot ∨ ∃ c, w.cursor = some c ∧ Entry.incremental c ∈ w.log

inductive Moves (t : ℕ) (w : World) : World → Prop where
  | same : Moves t w w
  | forget : Moves t w (w.forget t)
  | issue : Moves t w (w.issue t)
  | profile (h : ℕ) : Moves t w (w.note (.profile h))
  | list {k : ℕ} (mine : w.attemptIds t = some k) : Moves t w (w.note (.listed k))
  | keep {r r' : SyncState} (found : w.row = some r) (keeps : r.Keeps r') : Moves t w (w.setRow r')
  | claim {k : ℕ} {r : SyncState} (mine : w.attemptIds t = some k) (first : k ∉ w.claimed)
      (owns : r.initialAttemptId = some k) (cursor : r.lastHistoryId = w.cursor)
      (count : (w.row.map (·.initialRecoveryAttempts)).getD 0 ≤ r.initialRecoveryAttempts) :
      Moves t w { w.writeBy k r with claimed := w.claimed ++ [k] }
  | own {k : ℕ} {r r' : SyncState} (mine : w.attemptIds t = some k) (found : w.row = some r)
      (holds : w.holder = some k) (keeps : r.Keeps { r' with lastHistoryId := r.lastHistoryId })
      (cursor : r'.lastHistoryId = r.lastHistoryId ∨
        ∃ e ∈ w.log, e.captured = r'.lastHistoryId) : Moves t w (w.writeBy k r')
  | fail {k : ℕ} {r r' : SyncState} (notices : List Notice) (found : w.row = some r)
      (holds : w.holder = some k) (keeps : r.Keeps r') :
      Moves t w { w.writeBy k r' with notices := notices }
  | complete {k snapshot c : ℕ} {r : SyncState} (r' : SyncState) (notices : List Notice)
      (found : w.row = some r) (holds : w.holder = some k) (free : r'.initialAttemptId = none)
      (cursor : r'.lastHistoryId = some c) (before : CapturedBefore w.log snapshot k)
      (stored : c = snapshot ∨ snapshot < c ∧ Entry.incremental c ∈ w.log) :
      Moves t w { w.writeBy k r' with
        completions := w.completions ++ [⟨k, snapshot, c⟩]
        notices := notices
        requeues := 0
        sinceReady := 0 }

/-- The others leave a thread its attempt, and the row's cursor while the attempt holds it. -/
structure Rely (t : ℕ) (w w' : World) : Prop where
  inv : w.Inv → w'.Inv
  attempt : w'.attemptIds t = w.attemptIds t
  claimed : ∀ k, w.attemptIds t = some k → (k ∈ w'.claimed ↔ k ∈ w.claimed)
  log : ∃ more, w'.log = w.log ++ more ∧ ∀ k, w.attemptIds t = some k → Entry.listed k ∉ more
  held : ∀ k, w.attemptIds t = some k → w'.holder = some k → w.holder = some k ∧
    (w'.cursor = w.cursor ∨ ∃ c, w'.cursor = some c ∧ Entry.incremental c ∈ w'.log)

section Moves

variable {t t' k : ℕ} {w w' : World}

theorem Stirs.rely (h : Stirs w w') : Rely t w w' := by
  obtain ⟨more, same, unlisted⟩ := h.log
  exact ⟨h.inv, congrFun h.attemptIds t, fun k _ => by rw [h.claimed], ⟨more, same, fun k _ => unlisted k⟩,
    fun k _ => h.held⟩

/-- A thread's attempt is not another's. -/
theorem World.Inv.other (inv : w.Inv) {j : ℕ} (ne : t ≠ t') (mine : w.attemptIds t = some j)
    (yours : w.attemptIds t' = some k) : j ≠ k := by
  rintro rfl
  exact ne (inv.apart t t' j mine yours)

theorem Moves.leaves (h : Moves t w w') (inv : w.Inv) (ne : t ≠ t') (sane : w.Inv → w'.Inv) :
    Rely t' w w' := by
  have quiet : ∃ more, w.log = w.log ++ more ∧
      ∀ k, w.attemptIds t' = some k → Entry.listed k ∉ more := ⟨[], by simp, by simp⟩
  cases h with
  | same => exact ⟨sane, rfl, fun _ _ => .rfl, quiet, fun _ _ held => ⟨held, .inl rfl⟩⟩
  | forget =>
    exact ⟨sane, Function.update_of_ne ne.symm _ _, fun _ _ => .rfl, quiet,
      fun _ _ held => ⟨held, .inl rfl⟩⟩
  | issue =>
    exact ⟨sane, Function.update_of_ne ne.symm _ _, fun _ _ => .rfl, quiet,
      fun _ _ held => ⟨held, .inl rfl⟩⟩
  | profile h =>
    exact ⟨sane, rfl, fun _ _ => .rfl, ⟨_, rfl, by simp⟩, fun _ _ held => ⟨held, .inl rfl⟩⟩
  | @list j mine =>
    refine ⟨sane, rfl, fun _ _ => .rfl, ⟨_, rfl, fun k yours there => ?_⟩,
      fun _ _ held => ⟨held, .inl rfl⟩⟩
    have same : k = j := by simpa using there
    exact inv.other ne mine yours same.symm
  | keep found keeps => exact (Stirs.keep found keeps).rely
  | @claim j r mine first owns =>
    refine ⟨sane, rfl, fun k yours => ?_, quiet, fun k yours held => ?_⟩
    · have other := inv.other ne mine yours
      simp only [List.mem_append, List.mem_singleton, or_iff_left_iff_imp]
      exact fun same => absurd same.symm other
    · have held : r.initialAttemptId = some k := held
      rw [owns] at held
      exact absurd (Option.some.inj held) (inv.other ne mine yours)
  | @own j r r' mine found holds keeps =>
    refine ⟨sane, rfl, fun _ _ => .rfl, quiet, fun k yours held => ?_⟩
    have owns : r'.initialAttemptId = r.initialAttemptId := keeps.attempt
    have held : r'.initialAttemptId = some k := held
    rw [owns, ← holder_of_row found, holds] at held
    exact absurd (Option.some.inj held) (inv.other ne mine yours)
  | fail notices found holds keeps =>
    have kept := (Stirs.keep found keeps).rely (t := t')
    exact ⟨sane, rfl, fun _ _ => .rfl, quiet, fun k yours held => kept.held k yours held⟩
  | @complete j snapshot c r r' notices found holds free =>
    refine ⟨sane, rfl, fun _ _ => .rfl, quiet, fun k yours held => ?_⟩
    have held : r'.initialAttemptId = some k := held
    rw [free] at held
    contradiction

theorem unsuperseded (inv : w.Inv) (holds : w.holder = some k) :
    decide (k ∈ w.superseded) = false :=
  decide_eq_false (inv.holder k holds).2

theorem Moves.inv (h : Moves t w w') (inv : w.Inv) : w'.Inv := by
  cases h with
  | same => exact inv
  | forget => exact inv.forget t
  | issue => exact inv.issue t
  | profile h => exact inv.note _ fun k same => by contradiction
  | @list k mine =>
    refine inv.note _ fun k' same => ?_
    obtain rfl := Entry.listed.inj same
    exact inv.issued t k mine
  | keep found keeps => exact inv.keep found keeps
  | @claim k r mine first owns cursor count =>
    have unlost : k ∉ w.superseded := fun lost => first (inv.superseded k lost)
    have taken := inv.take (inv.issued t k mine)
    have next : (World.setRow { w with claimed := w.claimed ++ [k] } r).Inv := by
      refine taken.setRow (fun k' held => ?_) (fun h same => ?_) (Nat.le_trans inv.counted count)
      · obtain rfl : k = k' := Option.some.inj (owns.symm.trans held)
        exact ⟨List.mem_append_right _ (List.mem_singleton_self k), unlost⟩
      · exact inv.stored h (cursor ▸ same)
    exact next.written (x := ⟨k, _⟩) (decide_eq_false unlost)
  | @own k r r' mine found holds keeps cursor =>
    have next : (w.setRow r').Inv := by
      refine inv.setRow (fun k' held => inv.holder k' ?_) (fun h same => ?_) ?_
      · rw [holder_of_row found, ← keeps.attempt]
        exact held
      · rcases cursor with kept | ⟨e, mem, captured⟩
        · exact inv.stored h (by rw [cursor_of_row found, ← kept, same])
        · exact ⟨e, mem, captured.trans same⟩
      · exact Nat.le_trans (inv.count_le found) (Nat.le_of_eq keeps.count.symm)
    exact next.written (x := ⟨k, _⟩) (unsuperseded inv holds)
  | @fail k r r' notices found holds keeps =>
    have next := (inv.keep found keeps).written (x := ⟨k, _⟩) (unsuperseded inv holds)
    exact ⟨next.issued, next.apart, next.claimed, next.superseded, next.holder, next.listed,
      next.stored, next.writes, next.completions, next.counted, next.limited⟩
  | @complete k snapshot c r r' notices found holds free cursor before stored =>
    have captured : ∃ e ∈ w.log, e.captured = some c := by
      rcases stored with rfl | ⟨-, mem⟩
      · obtain ⟨l, after, e, same, -, mem, captured⟩ := before
        exact ⟨e, same ▸ List.mem_append_left _ mem, captured⟩
      · exact ⟨_, mem, rfl⟩
    have queued : Stirs w { w.setRow { r' with lastHistoryId := none } with
        requeues := 0, sinceReady := 0 } :=
      .queue free (.inl rfl) (Nat.zero_le _) (Nat.zero_le _)
    have next := (queued.inv inv).written (x := ⟨k, _⟩) (unsuperseded inv holds)
    refine ⟨next.issued, next.apart, next.claimed, next.superseded, next.holder, next.listed,
      fun h same => ?_, next.writes, fun x mem => ?_, Nat.zero_le _, Nat.zero_le _⟩
    · obtain rfl := Option.some.inj (cursor.symm.trans same)
      exact captured
    · rcases List.mem_append.mp mem with old | new
      · exact next.completions x old
      · rw [List.mem_singleton.mp new]
        exact ⟨before, stored⟩

theorem Moves.rely (h : Moves t w w') (inv : w.Inv) (ne : t ≠ t') : Rely t' w w' :=
  h.leaves inv ne h.inv

end Moves

/-! ## The job keeps to it -/

section Code

variable {t k S : ℕ} {w w' : World}

/-- The thread is in attempt `k`, and what `P` says of it is not taken away. -/
def attempting (t k : ℕ) (P : World → Prop)
    (stable : ∀ w w', Rely t w w' → w.attemptIds t = some k → P w → P w') :
    Assertion (Rely t) where
  holds w := w.Inv ∧ w.attemptIds t = some k ∧ P w
  stable := fun w w' ⟨inv, mine, h⟩ rely =>
    ⟨rely.inv inv, rely.attempt.trans mine, stable w w' rely mine h⟩

def sane (t : ℕ) : Assertion (Rely t) := ⟨World.Inv, fun _ _ inv rely => rely.inv inv⟩

theorem Rely.unlisted (rely : Rely t w w') (mine : w.attemptIds t = some k)
    (h : Entry.listed k ∉ w.log) : Entry.listed k ∉ w'.log := by
  obtain ⟨more, same, quiet⟩ := rely.log
  rw [same]
  exact fun mem => (List.mem_append.mp mem).elim h (quiet k mine)

theorem Rely.grown (rely : Rely t w w') : ∃ more, w'.log = w.log ++ more :=
  rely.log.imp fun _ => And.left

theorem Rely.keepsHeld (rely : Rely t w w') (mine : w.attemptIds t = some k) (h : Held k S w) :
    Held k S w' := by
  intro held
  obtain ⟨before, kept | moved⟩ := rely.held k mine held
  · obtain ⟨more, same⟩ := rely.grown
    rw [kept, same]
    exact (h before).imp_right fun ⟨c, stored, mem⟩ => ⟨c, stored, List.mem_append_left _ mem⟩
  · exact .inr moved

/-- The attempt has its id and has not claimed. -/
def issued (t k : ℕ) : Assertion (Rely t) :=
  attempting t k (fun w => k ∉ w.claimed ∧ Entry.listed k ∉ w.log) fun _ _ rely mine h =>
    ⟨fun there => h.1 ((rely.claimed k mine).mp there), rely.unlisted mine h.2⟩

/-- It has claimed the row and not begun to list. -/
def begun (t k : ℕ) : Assertion (Rely t) :=
  attempting t k (fun w => Entry.listed k ∉ w.log) fun _ _ rely mine => rely.unlisted mine

/-- Gmail's history id has come in. -/
def profiled (t k h : ℕ) : Assertion (Rely t) :=
  attempting t k (fun w => Entry.listed k ∉ w.log ∧ ∃ e ∈ w.log, e.captured = some h)
    fun _ _ rely mine ⟨unlisted, e, mem, captured⟩ => by
      obtain ⟨more, same⟩ := rely.grown
      exact ⟨rely.unlisted mine unlisted, e, same ▸ List.mem_append_left _ mem, captured⟩

/-- The snapshot is taken. -/
def snapped (t k S : ℕ) : Assertion (Rely t) :=
  attempting t k
    (fun w => Entry.listed k ∉ w.log ∧ (∃ e ∈ w.log, e.captured = some S) ∧ Held k S w)
    fun _ _ rely mine ⟨unlisted, ⟨e, mem, captured⟩, held⟩ => by
      obtain ⟨more, same⟩ := rely.grown
      exact ⟨rely.unlisted mine unlisted, ⟨e, same ▸ List.mem_append_left _ mem, captured⟩,
        rely.keepsHeld mine held⟩

/-- The listing has begun. -/
def scanning (t k S : ℕ) : Assertion (Rely t) :=
  attempting t k (fun w => CapturedBefore w.log S k ∧ Held k S w)
    fun _ _ rely mine ⟨before, held⟩ => by
      obtain ⟨more, same⟩ := rely.grown
      exact ⟨same ▸ before.append more, rely.keepsHeld mine held⟩

def Acts {α : Type} (A : Assertion (Rely t)) (p : SyncProgram α) (B : α → Assertion (Rely t)) :
    Prop :=
  @Triple SyncSignature syncing Rely t α Moves A p B fun _ => sane t

/-- One statement. -/
theorem Acts.ask {A : Assertion (Rely t)} {q : Request} {B : q.Answer → Assertion (Rely t)}
    (inv : ∀ w, A w → w.Inv)
    (h : ∀ w, A w → ∀ f, Moves t w (effect t f w q).2 ∧ B (effect t f w q).1 (effect t f w q).2) :
    Acts A (Initial.ask q) B := by
  refine Triple.perform fun w hw c r w' answered => ?_
  have answered : answer t q c w = some (r, w') := answered
  cases c with
  | go f =>
    obtain ⟨rfl, rfl⟩ := Prod.mk.inj (Option.some.inj answered)
    exact h w hw f
  | lost f e =>
    obtain ⟨rfl, rfl⟩ := Prod.mk.inj (Option.some.inj answered)
    exact ⟨(h w hw f).1, (h w hw f).1.inv (inv w hw)⟩
  | fail e =>
    obtain ⟨rfl, rfl⟩ := Prod.mk.inj (Option.some.inj answered)
    exact ⟨.same, inv w hw⟩

/-- A statement that writes nothing here, whether it fails or not. -/
theorem look {A : Assertion (Rely t)} {q : Request} (same : ∀ f w, (effect t f w q).2 = w) :
    @Triple SyncSignature syncing Rely t _ Moves A (ask q) (fun _ => A) fun _ => A := by
  refine Triple.perform fun w hw c r w' answered => ?_
  have answered : answer t q c w = some (r, w') := answered
  have idle : w' = w := by
    cases c with
    | go f | lost f e => exact (Prod.mk.inj (Option.some.inj answered)).2.symm.trans (same f w)
    | fail e => exact (Prod.mk.inj (Option.some.inj answered)).2.symm
  subst idle
  refine ⟨.same, ?_⟩
  cases r <;> exact hw

theorem Acts.look {A : Assertion (Rely t)} {q : Request} (inv : ∀ w, A w → w.Inv)
    (same : ∀ f w, (effect t f w q).2 = w) : Acts A (Initial.ask q) fun _ => A :=
  (Initial.look same).consequence (fun _ h => h) (fun _ _ h => h) fun _ => inv

/-- The fence finds the attempt, or nothing is written. -/
theorem fenced_cases (w : World) (k : ℕ) (also : SyncState → Bool) (f : SyncState → SyncState) :
    w.fenced k also f = (false, w) ∨ ∃ r, w.row = some r ∧ w.holder = some k ∧ also r = true ∧
      w.fenced k also f = (true, w.writeBy k (f r)) := by
  unfold World.fenced World.holder
  cases found : w.row with
  | none => exact .inl rfl
  | some r =>
    by_cases held : r.initialAttemptId = some k ∧ also r = true
    · exact .inr ⟨r, rfl, held.1, held.2, if_pos held⟩
    · exact .inl (if_neg held)

theorem acts_claim : Acts (issued t k) (claimSyncState k) fun _ => begun t k := by
  refine Triple.bind (B := fun done => if done then begun t k else sane t) ?_ fun done => ?_
  · refine Acts.ask (fun _ h => h.1) fun w ⟨inv, mine, first, unlisted⟩ f => ?_
    have claims : ∀ r : SyncState, r.lastHistoryId = w.cursor →
        (w.row.map (·.initialRecoveryAttempts)).getD 0 ≤ r.initialRecoveryAttempts →
        Moves t w (w.take k r) ∧ begun t k (w.take k r) := by
      intro r cursor count
      have moves : Moves t w (w.take k r) := .claim mine first rfl cursor count
      exact ⟨moves, moves.inv inv, mine, unlisted⟩
    simp only [effect, World.claim]
    split
    · split
      next empty =>
        refine claims (.fresh w.now) ?_ ?_ <;>
          simp [World.cursor, empty, SyncState.fresh]
      next r found =>
        split
        · refine claims r ?_ ?_ <;> simp [World.cursor, found]
        · exact ⟨.same, inv⟩
    · exact ⟨.same, inv⟩
  · cases done with
    | true => exact Triple.done fun _ h => h
    | false => exact Triple.failed fun _ h => h

theorem acts_capture (h : ℕ) :
    Acts (profiled t k h) (captureInitialHistorySnapshot k h) fun S => snapped t k S := by
  refine Triple.bind (B := fun found => match found with
    | none => sane t
    | some S => snapped t k S) ?_ fun found => ?_
  · refine Acts.ask (fun _ h => h.1) fun w ⟨inv, mine, unlisted, known⟩ f => ?_
    simp only [effect]
    rcases fenced_cases w k (fun _ => true) (·.capture h w.now) with
      same | ⟨r, found, holds, -, same⟩
    · rw [same]
      exact ⟨.same, inv⟩
    · rw [same]
      have keeps : r.Keeps { r.capture h w.now with lastHistoryId := r.lastHistoryId } :=
        ⟨rfl, rfl, rfl⟩
      cases stored : r.lastHistoryId with
      | some S =>
        have cursor : (r.capture h w.now).lastHistoryId = some S := by
          simp [SyncState.capture, stored]
        have moves : Moves t w (w.writeBy k (r.capture h w.now)) :=
          .own mine found holds keeps (.inl (cursor.trans stored.symm))
        refine ⟨moves, ?_⟩
        have owned : (w.writeBy k (r.capture h w.now)).cursor = some S := cursor
        simp only [if_true, owned]
        exact ⟨moves.inv inv, mine, unlisted,
          inv.stored S ((cursor_of_row found).trans stored), fun _ => .inl owned⟩
      | none =>
        have cursor : (r.capture h w.now).lastHistoryId = some h := by
          simp [SyncState.capture, stored]
        obtain ⟨e, mem, captured⟩ := known
        have moves : Moves t w (w.writeBy k (r.capture h w.now)) :=
          .own mine found holds keeps (.inr ⟨e, mem, captured.trans cursor.symm⟩)
        refine ⟨moves, ?_⟩
        have owned : (w.writeBy k (r.capture h w.now)).cursor = some h := cursor
        simp only [if_true, owned]
        exact ⟨moves.inv inv, mine, unlisted, ⟨e, mem, captured⟩, fun _ => .inl owned⟩
  · cases found with
    | some S => exact Triple.done fun _ h => h
    | none => exact Triple.failed fun _ h => h

/-- Another page of the listing. -/
theorem acts_list {A : Assertion (Rely t)}
    (attempt : ∀ w, A w → w.Inv ∧ w.attemptIds t = some k ∧ Held k S w)
    (before : ∀ w, A w → CapturedBefore (w.log ++ [.listed k]) S k) :
    Acts A (ask .listMessageIds) fun _ => scanning t k S := by
  refine Acts.ask (fun w h => (attempt w h).1) fun w hw f => ?_
  obtain ⟨inv, mine, held⟩ := attempt w hw
  have listed : (effect t f w .listMessageIds).2 = w.note (.listed k) := by
    simp [effect, World.list, mine]
  have moves : Moves t w (w.note (.listed k)) := .list mine
  rw [listed]
  refine ⟨moves, moves.inv inv, mine, before w hw, fun holds => ?_⟩
  exact (held holds).imp_right fun ⟨c, stored, mem⟩ => ⟨c, stored, List.mem_append_left _ mem⟩

theorem acts_listAll (pages : ℕ) :
    Acts (snapped t k S) (listAll pages) fun _ => scanning t k S := by
  have first : Acts (snapped t k S) (ask .listMessageIds) fun _ => scanning t k S :=
    acts_list (fun w h => ⟨h.1, h.2.1, h.2.2.2.2⟩) fun w ⟨_, _, unlisted, ⟨e, mem, captured⟩, _⟩ =>
      ⟨w.log, [], e, rfl, unlisted, mem, captured⟩
  have next : Acts (scanning t k S) (ask .listMessageIds) fun _ => scanning t k S :=
    acts_list (fun w h => ⟨h.1, h.2.1, h.2.2.2⟩) fun w h => h.2.2.1.append _
  have rest : ∀ n, Acts (scanning t k S) (listAll n) fun _ => scanning t k S := by
    intro n
    induction n with
    | zero => exact next
    | succ n ih => exact Triple.bind next fun _ => ih
  cases pages with
  | zero => exact first
  | succ n => exact Triple.bind first fun _ => rest n

/-- An update of the attempt's row that leaves the cursor, or sets an empty one. -/
theorem scanning_own {r r' : SyncState} (h : scanning t k S w) (found : w.row = some r)
    (holds : w.holder = some k) (keeps : r.Keeps { r' with lastHistoryId := r.lastHistoryId })
    (cursor : r'.lastHistoryId = r.lastHistoryId) :
    Moves t w (w.writeBy k r') ∧ scanning t k S (w.writeBy k r') := by
  obtain ⟨inv, mine, before, held⟩ := h
  have moves : Moves t w (w.writeBy k r') := .own mine found holds keeps (.inl cursor)
  have same : (w.writeBy k r').cursor = w.cursor := cursor.trans (cursor_of_row found).symm
  refine ⟨moves, moves.inv inv, mine, before, fun _ => ?_⟩
  rw [same]
  exact held holds

theorem acts_fetchAll (counts : List (ℕ × ℕ)) :
    Acts (scanning t k S) (fetchAll k S counts) fun _ => scanning t k S := by
  have fetches : Acts (scanning t k S) (ask .fetchMessages) fun _ => scanning t k S :=
    Acts.look (fun _ h => h.1) fun _ _ => rfl
  induction counts with
  | nil => exact fetches
  | cons count counts ih =>
    obtain ⟨processed, total⟩ := count
    refine Triple.bind (B := fun _ => scanning t k S) ?_ fun _ => ?_
    swap
    · exact Triple.bind fetches fun _ => ih
    refine Acts.ask (fun _ h => h.1) fun w h f => ?_
    simp only [effect]
    rcases fenced_cases w k World.updatesProgress (·.progress (scanPct processed total) S w.now)
      with same | ⟨r, found, holds, -, same⟩
    · rw [same]
      exact ⟨.same, h⟩
    · rw [same]
      -- while the attempt holds the row, its cursor is set
      have set : ∃ c, r.lastHistoryId = some c := by
        rcases h.2.2.2 holds with stored | ⟨c, stored, -⟩ <;>
          exact ⟨_, (cursor_of_row found).symm.trans stored⟩
      obtain ⟨c, stored⟩ := set
      exact scanning_own h found holds ⟨rfl, rfl, rfl⟩ (by simp [SyncState.progress, stored])

theorem acts_upsertSyncState (stage : Stage) (pct : ℕ) :
    Acts (scanning t k S) (upsertSyncState k stage pct) fun _ => scanning t k S := by
  refine Triple.bind (B := fun _ => scanning t k S) ?_ fun done => ?_
  · refine Acts.ask (fun _ h => h.1) fun w h f => ?_
    simp only [effect]
    rcases fenced_cases w k (fun _ => true) (·.advance k stage pct w.now)
      with same | ⟨r, found, holds, -, same⟩
    · rw [same]
      exact ⟨.same, h⟩
    · rw [same]
      have own : r.initialAttemptId = some k := (holder_of_row found).symm.trans holds
      exact scanning_own h found holds ⟨own.symm, rfl, rfl⟩ rfl
  · cases done with
    | true => exact Triple.done fun _ h => h
    | false => exact Triple.failed fun _ h => h.1

/-- The greater of the snapshot and what an incremental run has stored. -/
theorem greatest_spec {r : SyncState} (h : scanning t k S w) (found : w.row = some r)
    (holds : w.holder = some k) :
    r.greatest S = S ∨ S < r.greatest S ∧ Entry.incremental (r.greatest S) ∈ w.log := by
  have cursor := cursor_of_row found
  unfold SyncState.greatest
  rcases h.2.2.2 holds with stored | ⟨c, stored, mem⟩
  · simp [cursor.symm.trans stored]
  · simp only [cursor.symm.trans stored]
    rcases Nat.le_total c S with le | le
    · exact .inl (Nat.max_eq_right le)
    · rw [Nat.max_eq_left le]
      rcases Nat.lt_or_eq_of_le le with less | same
      · exact .inr ⟨less, mem⟩
      · exact .inl same.symm

theorem acts_markReady : Acts (scanning t k S) (markReady k S) fun _ => sane t := by
  have looks : Acts (scanning t k S) (ask .selectAccount) fun _ => scanning t k S :=
    Acts.look (fun _ h => h.1) fun _ _ => rfl
  refine Triple.bind looks fun there => ?_
  cases there with
  | false => exact Triple.failed fun _ h => h.1
  | true =>
    refine Triple.bind (B := fun _ => sane t) ?_ fun done => ?_
    · refine Acts.ask (fun _ h => h.1) fun w h f => ?_
      simp only [effect, World.complete]
      rcases fenced_cases w k (fun _ => true) (·.markReady S w.now)
        with same | ⟨r, found, holds, -, same⟩
      · rw [same]
        exact ⟨.same, h.1⟩
      · rw [same]
        have moves := Moves.complete (t := t) (r.markReady S w.now)
          (w.notices ++ [.syncReady (w.row.all (·.lastSyncedAt.isNone))])
          found holds rfl rfl h.2.2.1 (greatest_spec h found holds)
        exact ⟨moves, moves.inv h.1⟩
    · cases done with
      | true => exact Triple.done fun _ h => h
      | false => exact Triple.failed fun _ h => h

theorem acts_finishStages : Acts (scanning t k S) (finishStages k S) fun _ => sane t := by
  have looks : ∀ {q : Request}, (∀ f w, (effect t f w q).2 = w) →
      Acts (scanning t k S) (ask q) fun _ => scanning t k S := Acts.look fun _ h => h.1
  refine Triple.bind (acts_upsertSyncState _ _) fun _ => ?_
  refine Triple.bind (looks fun _ _ => rfl) fun _ => ?_
  refine Triple.bind (acts_upsertSyncState _ _) fun _ => ?_
  refine Triple.bind (B := fun _ => scanning t k S) ?_ fun _ => ?_
  · refine Triple.tryCatch (F := fun _ => scanning t k S) ?_ fun _ => Triple.done fun _ h => h
    exact look fun _ _ => rfl
  refine Triple.bind (acts_upsertSyncState _ _) fun _ => ?_
  refine Triple.bind (looks fun _ _ => rfl) fun _ => ?_
  exact acts_markReady

theorem acts_runAttempt (scan : Scan) : Acts (sane t) (runAttempt scan) fun _ => sane t := by
  refine Triple.bind (B := fun k => issued t k) (Acts.ask (fun _ h => h) fun w inv f => ?_) fun k => ?_
  · have mine : (w.issue t).attemptIds t = some w.nextId := Function.update_self ..
    refine ⟨.issue, inv.issue t, mine, fun mem => ?_, fun mem => ?_⟩
    · exact Nat.lt_irrefl _ (inv.claimed _ mem)
    · exact Nat.lt_irrefl _ (inv.listed _ mem)
  refine Triple.bind acts_claim fun _ => ?_
  have looks : Acts (begun t k) (ask .getClient) fun _ => begun t k :=
    Acts.look (fun _ h => h.1) fun _ _ => rfl
  refine Triple.bind looks fun _ => ?_
  refine Triple.bind (B := fun h => profiled t k h) ?_ fun h => ?_
  · refine Acts.ask (fun _ h => h.1) fun w ⟨inv, mine, unlisted⟩ f => ?_
    have moves : Moves t w (w.note (.profile f.historyId)) := .profile _
    refine ⟨moves, moves.inv inv, mine, fun mem => ?_, .profile f.historyId, ?_, rfl⟩
    · exact (List.mem_append.mp mem).elim unlisted (by simp)
    · exact List.mem_append_right _ (List.mem_singleton_self _)
  refine Triple.bind (acts_capture h) fun S => ?_
  have scans : Acts (snapped t k S) (fetchAndStoreMetadata k S scan) fun _ => scanning t k S :=
    Triple.bind (acts_listAll _) fun _ => acts_fetchAll _
  refine Triple.bind scans fun _ => ?_
  exact acts_finishStages

/-- The guards leave the row to its attempt, if they write it at all. -/
theorem acts_park (status : Readiness) : Acts (sane t) (ask (.park status)) fun _ => sane t := by
  refine Acts.ask (fun _ h => h) fun w inv f => ?_
  have moves : Moves t w (w.park status) := by
    unfold World.park
    split
    · exact .same
    next r found =>
      split
      · exact .keep found ⟨rfl, rfl, rfl⟩
      · exact .same
  exact ⟨moves, moves.inv inv⟩

theorem acts_parkKnownReconnect : Acts (sane t) parkKnownReconnect fun _ => sane t := by
  have parks : Acts (sane t) (ask (.park .needsReconnect)) fun _ => sane t := acts_park _
  refine Triple.tryCatch parks fun e => ?_
  split
  · exact acts_park _
  · exact Triple.failed fun _ h => h

theorem acts_awaitsReconnect (row : SyncRow) :
    Acts (sane t) (awaitsReconnect row) fun _ => sane t := by
  unfold awaitsReconnect
  split
  · exact Triple.done fun _ h => h
  · exact Acts.look (fun _ h => h) fun _ _ => rfl

theorem acts_admitted (row : SyncRow) : Acts (sane t) (admitted row) fun _ => sane t := by
  have looks : ∀ {q : Request}, (∀ f w, (effect t f w q).2 = w) →
      Acts (sane t) (ask q) fun _ => sane t := Acts.look fun _ h => h
  unfold admitted
  split
  · exact Triple.done fun _ h => h
  refine Triple.bind (acts_awaitsReconnect row) fun awaits => ?_
  split
  · exact Triple.bind acts_parkKnownReconnect fun _ => Triple.done fun _ h => h
  refine Triple.bind (looks fun _ _ => rfl) fun now => ?_
  split
  · exact Triple.done fun _ h => h
  split
  · exact Triple.bind (looks fun _ _ => rfl) fun _ => Triple.done fun _ h => h
  · exact Triple.done fun _ h => h

theorem acts_admits (row : Option SyncRow) : Acts (sane t) (admits row) fun _ => sane t := by
  cases row with
  | none => exact Triple.done fun _ h => h
  | some row => exact acts_admitted row

theorem acts_processJob (scan : Scan) : Acts (sane t) (processJob scan) fun _ => sane t := by
  have looks : ∀ {q : Request}, (∀ f w, (effect t f w q).2 = w) →
      Acts (sane t) (ask q) fun _ => sane t := Acts.look fun _ h => h
  refine Triple.bind (looks fun _ _ => rfl) fun eligibility => ?_
  cases eligibility with
  | inactive => exact Triple.done fun _ h => h
  | deletionPending => exact looks fun _ _ => rfl
  | active =>
    refine Triple.bind (looks fun _ _ => rfl) fun row => ?_
    refine Triple.bind (acts_admits row) fun runs => ?_
    cases runs with
    | true => exact acts_runAttempt scan
    | false => exact Triple.done fun _ h => h

/-! ## The hook -/

theorem acts_recordFailure (e : SyncError) (status : Readiness) (providerDelay : ℕ) :
    Acts (sane t) (ask (.recordFailure k e status providerDelay)) fun _ => sane t := by
  refine Acts.ask (fun _ h => h) fun w inv f => ?_
  have moves : Moves t w (w.failure k e status providerDelay) := by
    unfold World.failure
    rcases fenced_cases w k (fun r => r.readinessStatus == .syncing)
      (·.fail e status providerDelay w.now) with same | ⟨r, found, holds, -, same⟩
    · rw [same]
      exact .same
    · rw [same]
      dsimp only
      split
      · exact .fail _ found holds ⟨rfl, rfl, rfl⟩
      · exact .fail w.notices found holds ⟨rfl, rfl, rfl⟩
  exact ⟨moves, moves.inv inv⟩

theorem acts_applyTerminal (e : SyncError) (status : Readiness) (providerDelay : ℕ) :
    Acts (sane t) (applyTerminal k e status providerDelay) fun _ => sane t := by
  have looks : Acts (sane t) (ask .selectAccount) fun _ => sane t :=
    Acts.look (fun _ h => h) fun _ _ => rfl
  refine Triple.bind looks fun there => ?_
  cases there with
  | true => exact Triple.bind (acts_recordFailure e status _) fun _ => Triple.done fun _ h => h
  | false => exact Triple.done fun _ h => h

theorem acts_recordTerminalFailure (e : SyncError) (providerDelay : ℕ) :
    Acts (sane t) (recordTerminalFailure k e providerDelay) fun _ => sane t := by
  refine Triple.bind (B := fun _ => sane t) ?_ fun recorded => Triple.when (fun _ => ?_)
    fun _ _ h => h
  · have applies : Acts (sane t) (applyTerminal k e e.failedStatus providerDelay)
        fun _ => sane t := acts_applyTerminal e _ _
    refine Triple.tryCatch applies fun err => ?_
    split
    · exact acts_applyTerminal e _ _
    · exact Triple.failed fun _ h => h
  · refine Triple.tryCatch (F := fun _ => sane t) ?_ fun _ => Triple.done fun _ h => h
    exact look fun _ _ => rfl

end Code

/-! ## Every run -/

theorem verified : Verified syncing (fun _ _ => True) Rely Moves World.Inv (fun _ _ => True)
    fun _ _ _ => True where
  guarantee_rely ne inv moves := moves.rely inv ne
  guarantee_inv inv moves := moves.inv inv
  idle_stable _ _ _ _ := fun _ => trivial
  start := by
    intro t task w w' inv _ accepted
    obtain rfl := Option.some.inj accepted
    have sane' : sane t (w.forget t) := inv.forget t
    cases task with
    | job scan => exact ⟨.forget, (acts_processJob scan _ sane').mono fun _ _ _ => trivial⟩
    | terminalFailure k e providerDelay =>
      exact ⟨.forget, (acts_recordTerminalFailure e providerDelay _ sane').mono
        fun _ _ _ => trivial⟩
  finish := by
    intro t r w w' _ _ settled
    obtain rfl := Option.some.inj settled
    exact ⟨.forget, trivial⟩
  crash := by
    intro t w w' _ crashed
    obtain rfl := Option.some.inj crashed
    exact ⟨.forget, trivial⟩
  disturb := by
    intro e w w' inv _ disturbed
    obtain rfl := Option.some.inj disturbed
    have stirs := disturb_stirs inv e
    exact ⟨stirs.inv inv, fun t => stirs.rely⟩

/-- Before any attempt of the run, with whatever row is there. -/
def World.initial (mailbox : Eligibility) (row : Option SyncState) (now : ℤ) : World where
  mailbox := mailbox
  row := row
  now := now
  nextId := ((row.bind (·.initialAttemptId)).map (· + 1)).getD 0
  attemptIds _ := none
  claimed := (row.bind (·.initialAttemptId)).toList
  superseded := []
  writes := []
  completions := []
  notices := []
  log := (row.bind (·.lastHistoryId)).toList.map .profile
  requeues := 0
  sinceReady := 0

theorem inv_initial (mailbox : Eligibility) (row : Option SyncState) (now : ℤ) :
    (World.initial mailbox row now).Inv where
  issued := by simp [World.initial]
  apart := by simp [World.initial]
  claimed k mem := by
    have held : row.bind (·.initialAttemptId) = some k := Option.mem_toList.mp mem
    simp [World.initial, held]
  superseded := by simp [World.initial]
  holder k held := ⟨Option.mem_toList.mpr held, by simp [World.initial]⟩
  listed := by simp [World.initial]
  stored h same := by
    have same : row.bind (·.lastHistoryId) = some h := same
    exact ⟨.profile h, by simp [World.initial, same], rfl⟩
  writes := by simp [World.initial]
  completions := by simp [World.initial]
  counted := Nat.zero_le _
  limited := Nat.zero_le _

/-- What came in before the first listing. -/
theorem CapturedBefore.mem_takeWhile {log : List Entry} {h k : ℕ} (before : CapturedBefore log h k) :
    ∃ e ∈ log.takeWhile (· ≠ .listed k), e.captured = some h := by
  obtain ⟨l, after, e, rfl, first, mem, captured⟩ := before
  refine ⟨e, ?_, captured⟩
  have others : ∀ x ∈ l, decide (x ≠ .listed k) = true := by
    intro x there
    refine decide_eq_true fun same => first ?_
    rwa [← same]
  rw [List.takeWhile_append_of_pos others]
  exact List.mem_append_left _ mem

def goes (t : ℕ) : Move syncing := .reply t (.go ⟨0, 10, true⟩)

def readyRow : SyncState :=
  { SyncState.fresh 0 with
    readinessStatus := .ready, currentStage := .ready, lastHistoryId := some 5,
    lastSyncedAt := some 0 }

/-- A ready mailbox is queued for a new scan, while an incremental run is still on its way. -/
def overtakenScan : List (Move syncing) :=
  .disturb (.markQueued false) :: .start (0 : ℕ) (.job ⟨0, []⟩) :: .replicate 10 (goes 0) ++
    .disturb (.incrementalCursor 12) :: .replicate 9 (goes 0) ++ [.finish (0 : ℕ)]

/-- Attempt `k` fails for good, and the time to retry comes. -/
def failing (k : ℕ) : List (Move syncing) :=
  .start (0 : ℕ) (.job ⟨0, []⟩) :: .replicate 6 (goes 0) ++ .crash (0 : ℕ) ::
    .start (0 : ℕ) (.terminalFailure k .transient 0) :: .replicate 3 (goes 0) ++
    [.finish (0 : ℕ), .disturb (.tick 10000000)]

/-- The reconciler gives up after three requeues, and the user retries. -/
def retriedByUser : List (Move syncing) :=
  failing 0 ++ .disturb (.reconcile 10000000) :: failing 1 ++ .disturb (.reconcile 20000000) ::
    failing 2 ++ .disturb (.reconcile 30000000) :: failing 3 ++
    .disturb .retryFailedInitialSync :: failing 4 ++ [.disturb (.reconcile 50000000)]

end DeclutrMail.Sync.Initial
