import DeclutrMail.Outbox.Tick

/-!
# What the dispatcher guarantees

`dispatcher_verified` puts the parts together: in every run the invariant holds, whatever
the order of ticks, wake-ups, deadlines, settlements and failing statements. Three results
are read off it.

* `one_unsettled_call`: calls for one key never overlap.
* `row_life_cycle`: a row leaves `pending` once, for a reason, and a failure is reported
  once, after it was committed.
* `flipped_by_throw_iff`: how many throws it takes to fail a row. The attempts that count
  towards `maxAttempts` are not only the throws: a timeout bumps the same column.
-/

namespace DeclutrMail.Outbox

open Interleaving

variable {s : Settings} {faults : Bool} {boot : Table} {w w' : World} {t : TickId}

/-! ## The invariant in every run -/

theorem Single.settle {calls : List Call} {i : CallId} {c : Call} {st : Settlement}
    (h : Single calls) (hi : calls[i]? = some c) :
    Single (calls.set i { c with settled := some st }) := by
  have old : ∀ {j : CallId} {d : Call}, (calls.set i { c with settled := some st })[j]? = some d →
      d.settled = none → calls[j]? = some d := by
    intro j d hj unsettled
    by_cases same : i = j
    · subst same
      rw [List.getElem?_set_self (List.getElem?_eq_some_iff.mp hi).1] at hj
      cases hj
      cases unsettled
    · rwa [List.getElem?_set_ne same] at hj
  intro j k d d' hj hk jd kd key
  exact h (old hj jd) (old hk kd) jd kd key

theorem Background.progress (b : Background w w') : Progress w.rows w'.rows := by
  cases b with
  | clock | flags | settle => exact .refl _
  | publish id topic aggregateId createdAt absent => exact .publish absent

theorem Background.reporting (b : Background w w') : w'.reports = w.reports ∨ w'.rows = w.rows := by
  cases b with
  | clock | flags | settle => exact .inr rfl
  | publish => exact .inl rfl

theorem Inv.background (h : Inv s faults boot w) (b : Background w w') : Inv s faults boot w' := by
  have idle : w'.inFlight = none → Resting s faults boot [] w' := fun free =>
    (h.idle (b.inFlight ▸ free)).background b
  cases b with
  | clock | flags =>
    exact ⟨h.single, h.progress, h.reported, h.justified, h.flipped, idle⟩
  | publish id topic aggregateId createdAt absent =>
    refine ⟨h.single, h.progress.trans (.publish absent), fun id' => ?_, h.justified.publish rfl,
      fun reliable fresh there failed => ?_, idle⟩
    · have same : NewlyFailed boot (w.setRow id (published topic aggregateId createdAt)).rows id' ↔
          NewlyFailed boot w.rows id' := by
        simp only [NewlyFailed, World.setRow, isFailed_publish absent (show (published ..).status = _ from rfl)]
      rw [if_congr same rfl rfl]
      exact h.reported id'
    · simp only [World.setRow, Function.update_apply] at there
      split_ifs at there with same
      · cases there
        cases failed
      · exact h.flipped reliable fresh there failed
  | settle i c st hi unsettled =>
    refine ⟨h.single.settle hi, h.progress, fun id => ?_, h.justified.settle hi,
      fun reliable fresh there failed => ?_, idle⟩
    · rw [failedReports_settle]
      exact h.reported id
    · simp only [World.settle, history_settle hi]
      exact h.flipped reliable fresh there failed

theorem background_of_disturb {e : Event} (h : disturb e w = some w') : Background w w' := by
  cases e with
  | clock now =>
    cases h
    exact .clock w now
  | stop =>
    cases h
    exact .flags w w.pendingTickCalls true
  | start =>
    cases h
    exact .flags w w.pendingTickCalls false
  | publish id topic aggregateId createdAt =>
    cases absent : w.rows id with
    | some row => simp [disturb, absent] at h
    | none =>
      obtain rfl : w.setRow id (published topic aggregateId createdAt) = w' := by
        simpa [disturb, absent] using h
      exact .publish w id topic aggregateId createdAt absent
  | settle i st =>
    cases hi : w.calls[i]? with
    | none => simp [disturb, hi] at h
    | some c =>
      simp only [disturb, hi] at h
      split_ifs at h with settled
      cases h
      exact .settle w i c st hi (by simpa using settled)

theorem dispatcher_verified :
    Verified (dispatcher s faults) (fun _ _ => True) (Rely s faults boot) (Guarantee s faults boot)
      (Inv s faults boot) (fun t w => w.inFlight ≠ some t) (fun t _ w => w.inFlight ≠ some t) where
  guarantee_rely ne _ allowed := allowed.rely ne
  guarantee_inv _ allowed := allowed.inv
  idle_stable t _ _ free relied := relied.others free
  start := by
    rintro t _ w w' inv free ⟨⟩
    refine ⟨guarantee_flags inv w.pendingTickCalls, ?_⟩
    refine (does_tick w ⟨inv, free⟩).mono fun r v h => ?_
    cases r with
    | ok _ => exact h.2
    | error _ => exact h.2
  finish := by
    rintro t _ w w' inv free ⟨⟩
    exact ⟨guarantee_flags inv w.pendingTickCalls, free⟩
  crash := nofun
  disturb := by
    intro e w w' inv _ disturbed
    have b := background_of_disturb disturbed
    have inv' := inv.background b
    exact ⟨inv', fun t => ⟨inv', fun _ => b, fun free => by rw [b.inFlight]; exact free⟩⟩

theorem inv_boot : Inv s faults boot (World.boot boot) := by
  have resting : Resting s faults boot [] (World.boot boot) := by
    refine ⟨rfl, ⟨nofun, nofun⟩, nofun, fun id => ?_, fun id row there dispatched => ?_, ?_⟩
    · have same : ¬ NewlyFailed boot (World.boot boot).rows id := fun ⟨failed, found⟩ => by
        rw [World.boot] at failed
        simp [failed] at found
      rw [if_neg same]
      rfl
    · exact .inl ⟨row, there, dispatched⟩
    · intro _ id fresh
      cases there : (World.boot boot).rows id with
      | none => rfl
      | some row =>
        obtain ⟨pending, attempts⟩ := fresh row there
        refine ⟨[], rfl, ?_⟩
        unfold Recorded
        rw [pending]
        exact ⟨attempts, List.not_mem_nil, fun p q split => by simp at split⟩
  exact resting.inv (.refl _) fun _ => rfl

variable {c d : Config (dispatcher s faults)}

abbrev Reached (boot : Table) (c : Config (dispatcher s faults)) : Prop :=
  Reaches (Config.idle (World.boot boot)) c

theorem Reached.sound (h : Reached boot c) :
    c.Sound (Rely s faults boot) (Guarantee s faults boot) (Inv s faults boot)
      (fun t w => w.inFlight ≠ some t) (fun t _ w => w.inFlight ≠ some t) :=
  dispatcher_verified.sound inv_boot (fun _ => nofun) h

theorem Reached.step {m : Move (dispatcher s faults)} (h : Reached boot c)
    (taken : c.step m = some d) : Progress c.world.rows d.world.rows ∧
      (d.world.reports = c.world.reports ∨ d.world.rows = c.world.rows) := by
  rcases (dispatcher_verified.step_sound h.sound trivial taken).2 with ⟨t, allowed⟩ | ⟨e, -, taken⟩
  · exact ⟨allowed.progress, allowed.reporting⟩
  · have b := background_of_disturb taken
    exact ⟨b.progress, b.reporting⟩

theorem Reached.progress (h : Reached boot c) (onward : Reaches c d) :
    Progress c.world.rows d.world.rows := by
  induction onward with
  | refl => exact .refl _
  | step before _ taken ih => exact ih.trans (Reached.step (h.trans before) taken).1

/-! ## Calls do not overlap -/

/-- At most one call of each key is unsettled, and none is started while another is. -/
theorem one_unsettled_call (h : Reached boot c) :
    Single c.world.calls ∧
      ∀ m d e, c.step m = some d → d.world.calls = c.world.calls ++ [⟨e, none, none⟩] →
        ∀ old ∈ c.world.calls, old.key = orphanGuardKey e → old.settled ≠ none := by
  refine ⟨h.sound.inv.single, fun m d e taken started old there key unsettled => ?_⟩
  have single := (dispatcher_verified.step_sound h.sound trivial taken).1.inv.single
  obtain ⟨j, hj⟩ := List.mem_iff_getElem?.mp there
  have bound := (List.getElem?_eq_some_iff.mp hj).1
  have same : j = c.world.calls.length := by
    refine single (c := old) (d := ⟨e, none, none⟩) ?_ ?_ unsettled rfl key
    · rw [started, List.getElem?_append_left bound]
      exact hj
    · rw [started]
      exact List.getElem?_concat_length
  omega

/-- Two attempts for each event, one event for each tick. -/
def tight : Settings := ⟨1, 2, 16, 30000, 1800000⟩

/-- Event 7 is published and claimed by tick 0, which abandons its call. -/
def timedOutTick : List (Move (dispatcher tight false)) :=
  [.disturb (.publish 7 "mailbox.sync_ready" "m" 0), .start 0 ()] ++
    List.replicate 4 (.reply 0 .go) ++ [.reply 0 (.pick [7])] ++
    List.replicate 3 (.reply 0 .go) ++ [.reply 0 .deadline] ++
    List.replicate 12 (.reply 0 .go) ++ [.finish 0]

theorem one_unsettled_call_abandoned :
    ∃ c : Config (dispatcher tight false), Reached (fun _ => none) c ∧
      c.world.calls.length = 1 ∧ Single c.world.calls := by
  obtain ⟨c, reached, length⟩ := exists_reaches
    (c := Config.idle (World.boot fun _ => none)) (l := timedOutTick)
    (p := fun c => c.world.calls.length = 1) (by decide +kernel)
  exact ⟨c, reached, of_decide_eq_true length, (one_unsettled_call reached).1⟩

/-! ## The life of a row -/

theorem row_life_cycle (h : Reached boot c) (onward : Reaches c d) :
    Progress c.world.rows d.world.rows ∧
    Justified boot d.world.rows d.world.calls ∧
    (∀ id, failedReports d.world.reports id ≤ if NewlyFailed boot d.world.rows id then 1 else 0) ∧
    (d.world.inFlight = none → ∀ id,
      failedReports d.world.reports id = if NewlyFailed boot d.world.rows id then 1 else 0) ∧
    ∀ m e id, d.step m = some e →
      failedReports d.world.reports id < failedReports e.world.reports id →
        NewlyFailed boot d.world.rows id := by
  have reached : Reached boot d := RunWhere.trans h onward
  have inv := reached.sound.inv
  refine ⟨h.progress onward, inv.justified, inv.reported, fun free id => ?_, fun m e id taken more => ?_⟩
  · simpa using (inv.idle free).ledger.accounted id
  · have inv' := (dispatcher_verified.step_sound reached.sound trivial taken).1.inv
    have bound := inv'.reported id
    rcases (reached.step taken).2 with same | same
    · rw [same] at more
      exact absurd more (Nat.lt_irrefl _)
    · rw [same] at bound
      by_contra unfailed
      rw [if_neg unfailed] at bound
      omega

/-- The abandoned call settles, and the call of tick 1 for the same event throws. -/
def throwingTick : List (Move (dispatcher tight false)) :=
  [.disturb (.settle 0 .resolved), .start 1 ()] ++
    List.replicate 4 (.reply 1 .go) ++ [.reply 1 (.pick [7])] ++
    List.replicate 3 (.reply 1 .go) ++ [.disturb (.settle 1 (.rejected ⟨"Error", "no"⟩))] ++
    List.replicate 10 (.reply 1 .go) ++ [.finish 1]

theorem row_life_cycle_failed :
    ∃ c : Config (dispatcher tight false), Reached (fun _ => none) c ∧
      c.world.inFlight = none ∧ NewlyFailed (fun _ => none) c.world.rows 7 ∧
        failedReports c.world.reports 7 = 1 := by
  obtain ⟨c, reached, ended⟩ := exists_reaches
    (c := Config.idle (World.boot fun _ => none)) (l := timedOutTick ++ throwingTick)
    (p := fun c => c.world.inFlight = none ∧ NewlyFailed (fun _ => none) c.world.rows 7)
    (by decide +kernel)
  obtain ⟨free, failed⟩ := of_decide_eq_true ended
  obtain ⟨-, -, -, exact_, -⟩ := row_life_cycle reached .refl
  exact ⟨c, reached, free, failed, by rw [exact_ free, if_pos failed]⟩

/-! ## The retry budget -/

theorem exists_last {α : Type} {a : α} {l : List α} (h : a ∈ l) :
    ∃ p q, l = p ++ a :: q ∧ a ∉ q := by
  obtain ⟨p, q, split, fresh⟩ := List.eq_append_cons_of_mem (List.mem_reverse.mpr h)
  refine ⟨q.reverse, p.reverse, ?_, by simpa using fresh⟩
  rw [← List.reverse_reverse l, split]
  simp

/-- Of the outcomes before the throw that failed a row, the throws use up the budget
exactly when no timeout was counted before they had. -/
theorem Exhausted.budget_iff {maxAttempts : ℕ} {p : List Outcome} (h : Exhausted maxAttempts p) :
    maxAttempts ≤ p.count .threw + 1 ↔
      ∀ before after, p = before ++ .timedOut :: after →
        maxAttempts ≤ before.count .threw + 1 := by
  constructor
  · rintro enough before after rfl
    by_contra short
    have later : .threw ∈ after := by
      rw [← List.count_pos_iff]
      simp only [List.count_append, List.count_cons] at enough
      simp at enough
      omega
    obtain ⟨mid, last, rfl, none⟩ := exists_last later
    have spared := h.spared (before ++ .timedOut :: mid) last (by simp)
    have within : before.count .threw ≤ before.length := List.count_le_length
    have within' : mid.count .threw ≤ mid.length := List.count_le_length
    have tail : last.count .threw = 0 := List.count_eq_zero.mpr none
    simp [List.count_append, tail] at enough spared
    omega
  · intro early
    by_cases timed : .timedOut ∈ p
    · obtain ⟨before, after, rfl⟩ := List.append_of_mem timed
      have enough := early before after rfl
      simp only [List.count_append]
      omega
    · have all : p.count .threw = p.length := by
        refine List.count_eq_length.mpr fun o ho => ?_
        cases o with
        | threw => rfl
        | resolved => exact absurd ho h.unresolved
        | timedOut => exact absurd ho timed
      rw [all]
      exact h.reached

/-- A row that a consumer throw has failed, in a run without failing statements: its
event threw `maxAttempts` times exactly when each of its timeouts came after all but the
last of these throws. -/
theorem flipped_by_throw_iff {c : Config (dispatcher s false)} {id : EventId} {row : OutboxEvent}
    {p : List Outcome} (h : Reached boot c) (fresh : Fresh boot id)
    (there : c.world.rows id = some row) (failed : row.status = .failed)
    (threw : history c.world.calls id = p ++ [.threw]) :
    s.maxAttempts ≤ (history c.world.calls id).count .threw ↔
      ∀ before after, p = before ++ .timedOut :: after →
        s.maxAttempts ≤ before.count .threw + 1 := by
  have recorded := h.sound.inv.flipped rfl fresh there failed
  unfold Recorded at recorded
  rw [failed] at recorded
  rw [threw, List.count_append, List.count_singleton_self]
  exact (recorded p threw).budget_iff

/-- A timeout and one throw fail an event that may throw twice. -/
theorem timeout_spends_budget :
    ∃ c : Config (dispatcher tight false), Reached (fun _ => none) c ∧
      isFailed (c.world.rows 7) = true ∧ history c.world.calls 7 = [.timedOut, .threw] ∧
        ¬ tight.maxAttempts ≤ (history c.world.calls 7).count .threw := by
  obtain ⟨c, reached, ended⟩ := exists_reaches
    (c := Config.idle (World.boot fun _ => none)) (l := timedOutTick ++ throwingTick)
    (p := fun c => isFailed (c.world.rows 7) = true ∧
      history c.world.calls 7 = [.timedOut, .threw]) (by decide +kernel)
  obtain ⟨failed, heard⟩ := of_decide_eq_true ended
  exact ⟨c, reached, failed, heard, by rw [heard]; decide⟩

theorem flipped_by_throw_iff_timeout_first :
    ∃ c : Config (dispatcher tight false), Reached (fun _ => none) c ∧
      (2 ≤ (history c.world.calls 7).count .threw ↔
        ∀ before after, [Outcome.timedOut] = before ++ .timedOut :: after →
          2 ≤ before.count .threw + 1) := by
  obtain ⟨c, reached, ended⟩ := exists_reaches
    (c := Config.idle (World.boot fun _ => none)) (l := timedOutTick ++ throwingTick)
    (p := fun c => isFailed (c.world.rows 7) = true ∧
      history c.world.calls 7 = [.timedOut] ++ [.threw]) (by decide +kernel)
  obtain ⟨failed, heard⟩ := of_decide_eq_true ended
  obtain ⟨row, there, failed⟩ := (Option.any_eq_true _ _).mp failed
  exact ⟨c, reached,
    flipped_by_throw_iff reached nofun there (of_decide_eq_true failed) heard⟩

end DeclutrMail.Outbox
