import DeclutrMail.Triage.Cascade

/-!
# Laws of the cascade

More evidence for Keep never makes a verdict more destructive, an Unsubscribe needs a stream that
can be left, and every confidence stays in its band.
-/

namespace DeclutrMail.Triage.Cascade

/-- How much a verdict destroys. -/
def destructiveness : TriageVerdict → ℕ
  | .keep => 0
  | .later => 1
  | .archive => 2
  | .unsubscribe => 3

/-- The same sender with more evidence for Keep, or as much. -/
structure Engaged (weak strong : SenderSignals) : Prop where
  same : strong = { weak with
    isProtected := strong.isProtected
    protectionReason := strong.protectionReason
    hasWrittenTo := strong.hasWrittenTo
    starredInLastYear := strong.starredInLastYear
    readRate90d := strong.readRate90d }
  isProtected : weak.isProtected = true → strong.isProtected = true
  hasWrittenTo : weak.hasWrittenTo = true → strong.hasWrittenTo = true
  starred : weak.starredInLastYear = true → strong.starredInLastYear = true
  /-- The read rate is measured or raised, to at least 0.2. -/
  readRate : strong.readRate90d = weak.readRate90d ∨ ∃ rate ∈ strong.readRate90d, 0.2 ≤ rate ∧
    ∀ before ∈ weak.readRate90d, before ≤ rate

/-- Keep, or a verdict and an Unsubscribe score that destroy no more. -/
def CascadeResult.NoMoreDestructive (result before : CascadeResult) : Prop :=
  result.verdict = .keep ∨
    destructiveness result.verdict ≤ destructiveness before.verdict ∧
      ∀ scores ∈ result.scores, ∃ scores' ∈ before.scores,
        scores.unsubscribe ≤ scores'.unsubscribe

/-! ## Scores -/

/-- The sums that a read rate of at least 0.2 leaves are the smallest. -/
theorem score_engaged : ∀ oneClick weekly steady disengaged unread bulkTab spike : Bool,
    (steady = true → weekly = true) → (unread = true → disengaged = true) →
      let weak := UnsubscribeConditions.score ⟨true, oneClick, !oneClick, weekly, steady,
        disengaged, unread, bulkTab, spike⟩
      let strong := UnsubscribeConditions.score ⟨true, oneClick, !oneClick, weekly, steady, false,
        false, bulkTab, spike⟩
      strong ≤ weak ∧ round2 strong ≤ round2 weak := by
  decide +kernel

theorem score_archive_nonneg : ∀ steady heavy archived hasUnsubChannel : Bool,
    0 ≤ ArchiveConditions.score ⟨steady, heavy, archived, hasUnsubChannel⟩ := by
  decide

/-- Apart from the read rate, the conditions say what the channel and the volume are. -/
structure UnsubscribeConditions.Consistent (c : UnsubscribeConditions) : Prop where
  channel : c.gate = true → c.mailto = !c.oneClick
  volume : c.steady = true → c.weekly = true
  readRate : c.unread = true → c.disengaged = true

theorem UnsubscribeConditions.Consistent.score_le {c : UnsubscribeConditions}
    (consistent : c.Consistent) :
    let strong := UnsubscribeConditions.score { c with disengaged := false, unread := false }
    strong ≤ c.score ∧ round2 strong ≤ round2 c.score := by
  obtain ⟨gate, oneClick, mailto, weekly, steady, disengaged, unread, bulkTab, spike⟩ := c
  cases gate with
  | false => exact (by decide +kernel : (0 : Float) ≤ 0 ∧ round2 0 ≤ round2 0)
  | true =>
    obtain rfl : mailto = !oneClick := consistent.channel rfl
    exact score_engaged oneClick weekly steady disengaged unread bulkTab spike consistent.volume
      consistent.readRate

section Signals

variable {s weak strong : SenderSignals}

theorem any_lt {rate : Option Float} {x y : Float} (le : x ≤ y) (h : rate.any (· < x) = true) :
    rate.any (· < y) = true := by
  obtain ⟨r, measured, below⟩ := (Option.any_eq_true _ _).mp h
  refine (Option.any_eq_true _ _).mpr ⟨r, measured, decide_eq_true ?_⟩
  exact Float.lt_of_lt_of_le (of_decide_eq_true below) le

theorem consistent (s : SenderSignals) : s.unsubscribeConditions.Consistent := by
  refine ⟨fun gate => ?_, fun steady => ?_, any_lt (by decide)⟩
  · obtain ⟨channel, -⟩ := Bool.and_eq_true_iff.mp gate
    unfold SenderSignals.hasUnsubChannel at channel
    show decide (s.unsubscribeChannel = .mailto) = !decide (s.unsubscribeChannel = .oneClick)
    cases here : s.unsubscribeChannel with
    | oneClick | mailto => rfl
    | none => simp [here] at channel
  · have le : (8 : Float) ≤ 30 := by decide
    exact decide_eq_true (Float.le_trans le (of_decide_eq_true steady))

/-- A read rate that reaches a threshold still reaches it. -/
theorem reaches_engaged (more : Engaged weak strong) {x : Float}
    (h : weak.readRate90d.any (x ≤ ·) = true) : strong.readRate90d.any (x ≤ ·) = true := by
  rcases more.readRate with same | ⟨rate, measured, -, raised⟩
  · rwa [same]
  · obtain ⟨before, there, above⟩ := (Option.any_eq_true _ _).mp h
    refine (Option.any_eq_true _ _).mpr ⟨rate, measured, decide_eq_true ?_⟩
    exact Float.le_trans (of_decide_eq_true above) (raised before there)

theorem not_any_lt {rate : Option Float} {r x y : Float} (measured : r ∈ rate) (le : y ≤ r)
    (less : x ≤ y) : rate.any (· < x) = false := by
  rw [Option.mem_def.mp measured, Option.any_some, decide_eq_false_iff_not]
  exact Float.not_lt_of_le (Float.le_trans less le)

theorem archive_engaged (more : Engaged weak strong) : strong.archive = weak.archive := by
  rw [more.same]
  rfl

/-- The conditions of the read rate stay as they are or fall away. -/
theorem conditions_engaged (more : Engaged weak strong) :
    strong.unsubscribeConditions = weak.unsubscribeConditions ∨
      strong.unsubscribeConditions =
        { weak.unsubscribeConditions with disengaged := false, unread := false } := by
  rcases more.readRate with same | ⟨rate, measured, high, -⟩
  · refine .inl ?_
    rw [more.same, SenderSignals.unsubscribeConditions, same]
    rfl
  · refine .inr ?_
    have disengaged := not_any_lt (x := 0.2) measured high (by decide)
    have unread := not_any_lt (x := 0.05) measured high (by decide)
    rw [more.same, SenderSignals.unsubscribeConditions]
    dsimp only
    rw [disengaged, unread]
    rfl

theorem gate_engaged (more : Engaged weak strong) :
    strong.unsubscribeConditions.gate = weak.unsubscribeConditions.gate := by
  rcases conditions_engaged more with same | without
  · rw [same]
  · rw [without]

/-- The Unsubscribe score of the stronger sender is no greater, exactly and rounded. -/
theorem unsubscribe_engaged (more : Engaged weak strong) :
    strong.unsubscribe ≤ weak.unsubscribe ∧
      round2 strong.unsubscribe ≤ round2 weak.unsubscribe := by
  obtain ⟨le, le'⟩ := (consistent weak).score_le
  unfold SenderSignals.unsubscribe
  rcases conditions_engaged more with same | without
  · rw [same]
    exact ⟨Float.le_self_of_le le, Float.le_self_of_le le'⟩
  · rw [without]
    exact ⟨le, le'⟩

end Signals

/-! ## Verdicts -/

namespace SenderSignals

variable (s : SenderSignals)

/-- One of the rules of phase A matches. -/
def Kept : Prop :=
  s.isProtected = true ∨ s.hasWrittenTo = true ∨
    (s.gmailCategory = .primary ∧ s.unsubscribeChannel = .none) ∨ s.starredInLastYear = true ∨
      s.readRate90d.any (0.5 ≤ ·) = true ∨
        (60 ≤ s.firstSeenMonthsAgo ∧ s.readRate90d.any (0.3 ≤ ·) = true)

/-- Rule 7 -/
def TooNew : Prop := s.totalMessages < 3 ∨ s.firstSeenDaysAgo < 7

instance : Decidable s.TooNew := inferInstanceAs (Decidable (_ ∨ _))

end SenderSignals

section Verdicts

variable {s weak strong : SenderSignals}

/-- The confidences of phase A -/
def keepConfidences : List Float := [1, 0.98, 0.95, 0.92, 0.85, 0.8]

theorem runCascade_of_kept (kept : s.Kept) :
    ∃ confidence ∈ keepConfidences, ∃ ruleId, runCascade s = keeps s confidence ruleId := by
  unfold runCascade
  by_cases one : s.isProtected = true
  · refine ⟨1, by simp [keepConfidences], protectRuleId (s.protectionReason.getD .userDefined), ?_⟩
    rw [if_pos one]
  by_cases two : s.hasWrittenTo = true
  · refine ⟨0.98, by simp [keepConfidences], .wroteToAtLeastOnce, ?_⟩
    rw [if_neg one, if_pos two]
  by_cases three : s.gmailCategory = .primary ∧ s.unsubscribeChannel = .none
  · refine ⟨0.95, by simp [keepConfidences], .gmailPrimary, ?_⟩
    rw [if_neg one, if_neg two, if_pos three]
  by_cases four : s.starredInLastYear = true
  · refine ⟨0.92, by simp [keepConfidences], .starredRecently, ?_⟩
    rw [if_neg one, if_neg two, if_neg three, if_pos four]
  by_cases five : s.readRate90d.any (0.5 ≤ ·) = true
  · refine ⟨0.85, by simp [keepConfidences], .highReadRate, ?_⟩
    rw [if_neg one, if_neg two, if_neg three, if_neg four, if_pos five]
  have six : 60 ≤ s.firstSeenMonthsAgo ∧ s.readRate90d.any (0.3 ≤ ·) = true :=
    ((((kept.resolve_left one).resolve_left two).resolve_left three).resolve_left
      four).resolve_left five
  refine ⟨0.8, by simp [keepConfidences], .longRelationshipEngaged, ?_⟩
  rw [if_neg one, if_neg two, if_neg three, if_neg four, if_neg five, if_pos six]

theorem verdict_of_kept (kept : s.Kept) : (runCascade s).verdict = .keep := by
  obtain ⟨_, _, _, ran⟩ := runCascade_of_kept kept
  rw [ran]
  rfl

theorem runCascade_of_not_kept (judged : ¬s.Kept) : runCascade s =
    if s.TooNew then ⟨.later, 0.7, .B, .insufficientSignal, s.facts, none⟩ else phaseC s := by
  unfold SenderSignals.Kept at judged
  push Not at judged
  obtain ⟨unprotected, unwritten, bulk, unstarred, unread, unengaged⟩ := judged
  unfold runCascade
  rw [if_neg unprotected, if_neg unwritten, if_neg fun h => bulk h.1 h.2, if_neg unstarred,
    if_neg unread, if_neg fun h => unengaged h.1 h.2]
  rfl

theorem SenderSignals.Kept.engaged (kept : weak.Kept) (more : Engaged weak strong) :
    strong.Kept := by
  have months : strong.firstSeenMonthsAgo = weak.firstSeenMonthsAgo := by rw [more.same]
  have tab : strong.gmailCategory = weak.gmailCategory := by rw [more.same]
  have channel : strong.unsubscribeChannel = weak.unsubscribeChannel := by rw [more.same]
  rcases kept with kept | kept | kept | kept | kept | ⟨long, kept⟩
  · exact .inl (more.isProtected kept)
  · exact .inr (.inl (more.hasWrittenTo kept))
  · exact .inr (.inr (.inl (by rwa [tab, channel])))
  · exact .inr (.inr (.inr (.inl (more.starred kept))))
  · exact .inr (.inr (.inr (.inr (.inl (reaches_engaged more kept)))))
  · exact .inr (.inr (.inr (.inr (.inr ⟨months ▸ long, reaches_engaged more kept⟩))))

theorem tooNew_engaged (more : Engaged weak strong) : strong.TooNew ↔ weak.TooNew := by
  rw [more.same]
  rfl

@[simp]
theorem phaseC_scores (s : SenderSignals) : (phaseC s).scores = some s.scores := by
  unfold phaseC
  split_ifs <;> rfl

theorem phaseC_engaged (more : Engaged weak strong) :
    destructiveness (phaseC strong).verdict ≤ destructiveness (phaseC weak).verdict := by
  obtain ⟨le, -⟩ := unsubscribe_engaged more
  have archive := archive_engaged more
  have gate := gate_engaged more
  unfold phaseC
  rw [gate, archive]
  by_cases quiet : !weak.unsubscribeConditions.gate ∧ weak.archive < 0.5
  · rw [if_pos quiet, if_pos quiet]
    exact le_rfl
  rw [if_neg quiet, if_neg quiet]
  by_cases low : weak.archive < 0.5 ∧ weak.unsubscribe < 0.5
  · rw [if_pos low, if_pos ⟨low.1, Float.lt_of_le_of_lt le low.2⟩]
    exact le_rfl
  rw [if_neg low]
  by_cases wins : weak.unsubscribe ≤ weak.archive
  · -- Archive wins against a smaller score as well.
    rw [if_pos wins, if_pos (Float.le_trans le wins)]
    split_ifs <;> simp [destructiveness, scored]
  · rw [if_neg wins]
    split_ifs <;> simp [destructiveness, scored]

theorem runCascade_engaged (more : Engaged weak strong) :
    (runCascade strong).NoMoreDestructive (runCascade weak) := by
  by_cases kept : strong.Kept
  · exact .inl (verdict_of_kept kept)
  refine .inr ?_
  rw [runCascade_of_not_kept kept, runCascade_of_not_kept (mt (·.engaged more) kept)]
  by_cases new : weak.TooNew
  · rw [if_pos new, if_pos ((tooNew_engaged more).mpr new)]
    exact ⟨le_rfl, fun scores here => nomatch here⟩
  · rw [if_neg new, if_neg (mt (tooNew_engaged more).mp new)]
    refine ⟨phaseC_engaged more, fun scores here => ?_⟩
    rw [phaseC_scores, Option.mem_some_iff] at here
    obtain rfl := here
    exact ⟨weak.scores, phaseC_scores weak, (unsubscribe_engaged more).2⟩

/-- The Archive score of a sender that cannot be unsubscribed from wins or is too low. -/
theorem phaseC_of_closed (closed : s.unsubscribeConditions.gate = false) :
    (phaseC s).verdict ≠ .unsubscribe := by
  unfold phaseC
  rw [closed]
  by_cases low : s.archive < 0.5
  · rw [if_pos ⟨rfl, low⟩]
    simp [scored]
  · have none : s.unsubscribe = 0 := by
      rw [SenderSignals.unsubscribe, UnsubscribeConditions.score, closed]
      rfl
    have wins : s.unsubscribe ≤ s.archive := none ▸ score_archive_nonneg _ _ _ _
    rw [if_neg fun h => low h.2, if_neg fun h => low h.1, if_pos wins]
    simp [scored]

theorem gate_closed
    (bare : s.unsubscribeChannel = .none ∨ s.monthlyVolume < minUnsubStreamVolume) :
    s.unsubscribeConditions.gate = false := by
  rcases bare with no | quiet
  · simp [SenderSignals.unsubscribeConditions, SenderSignals.hasUnsubChannel, no]
  · refine Bool.and_eq_false_imp.mpr fun _ => decide_eq_false fun le => ?_
    exact Float.not_lt_of_le le quiet

theorem verdict_ne_unsubscribe (bare : s.unsubscribeChannel = .none ∨
    s.monthlyVolume < minUnsubStreamVolume ∨ s.totalMessages < 3) :
    (runCascade s).verdict ≠ .unsubscribe := by
  by_cases kept : s.Kept
  · simp [verdict_of_kept kept]
  rw [runCascade_of_not_kept kept]
  by_cases new : s.TooNew
  · simp [new]
  rw [if_neg new]
  rcases bare with no | quiet | few
  · exact phaseC_of_closed (gate_closed (.inl no))
  · exact phaseC_of_closed (gate_closed (.inr quiet))
  · exact absurd (.inl few) new

end Verdicts

/-! ## Confidence -/

/-- The sums of `archive` -/
def archiveScores (hasUnsubChannel : Bool) : List Float :=
  if hasUnsubChannel then [0.15, 0.44999999999999996, 0.65, 0.75, 0.9500000000000001]
  else [0, 0.3, 0.5, 0.6, 0.8]

/-- The sums of `unsubscribe` -/
def unsubscribeScores (hasUnsubChannel : Bool) : List Float :=
  if hasUnsubChannel then
    [0, 0.2, 0.30000000000000004, 0.35, 0.4, 0.44999999999999996, 0.5, 0.5499999999999999, 0.6,
      0.6499999999999999, 0.65, 0.7, 0.75, 0.7999999999999999, 0.8, 0.85, 0.9, 0.95, 1, 1.1]
  else [0]

theorem archive_sums : ∀ steady heavy archived hasUnsubChannel : Bool,
    (heavy = true → steady = true) → ∃ score ∈ archiveScores hasUnsubChannel,
      ArchiveConditions.score ⟨steady, heavy, archived, hasUnsubChannel⟩ = score := by
  decide

theorem unsubscribe_sums : ∀ oneClick weekly steady disengaged unread bulkTab spike : Bool,
    (steady = true → weekly = true) → (unread = true → disengaged = true) →
      ∃ score ∈ unsubscribeScores true, UnsubscribeConditions.score ⟨true, oneClick, !oneClick,
        weekly, steady, disengaged, unread, bulkTab, spike⟩ = score := by
  decide +kernel

/-- The confidence of a score that is high enough stays in its band. -/
theorem confidenceOf_mem : ∀ hasUnsubChannel : Bool, ∀ archive ∈ archiveScores hasUnsubChannel,
    ∀ unsubscribe ∈ unsubscribeScores hasUnsubChannel, ¬(archive < 0.5 ∧ unsubscribe < 0.5) →
      0.55 ≤ confidenceOf archive unsubscribe ∧ confidenceOf archive unsubscribe ≤ 0.95 := by
  intro hasUnsubChannel
  cases hasUnsubChannel with
  | false => decide +kernel
  | true =>
    -- one score of `archive` after the other, so that no single check grows large
    iterate 5 refine List.forall_mem_cons.mpr ⟨by decide +kernel, ?_⟩
    exact List.forall_mem_nil _

section Confidence

variable {s : SenderSignals}

theorem archive_mem (s : SenderSignals) :
    ∃ score ∈ archiveScores s.hasUnsubChannel, s.archive = score := by
  refine archive_sums _ _ _ _ fun heavy => decide_eq_true ?_
  exact Float.le_trans (by decide : (30 : Float) ≤ 60) (of_decide_eq_true heavy)

theorem UnsubscribeConditions.Consistent.score_mem {c : UnsubscribeConditions}
    (consistent : c.Consistent) (taken : c.gate = true) :
    ∃ score ∈ unsubscribeScores true, c.score = score := by
  obtain ⟨gate, oneClick, mailto, weekly, steady, disengaged, unread, bulkTab, spike⟩ := c
  obtain rfl : gate = true := taken
  obtain rfl : mailto = !oneClick := consistent.channel rfl
  exact unsubscribe_sums oneClick weekly steady disengaged unread bulkTab spike consistent.volume
    consistent.readRate

theorem unsubscribe_mem (s : SenderSignals) :
    ∃ score ∈ unsubscribeScores s.hasUnsubChannel, s.unsubscribe = score := by
  cases gate : s.unsubscribeConditions.gate with
  | false =>
    have zero : s.unsubscribe = 0 := by
      rw [SenderSignals.unsubscribe, UnsubscribeConditions.score, gate]
      rfl
    refine ⟨0, ?_, zero⟩
    cases s.hasUnsubChannel with
    | false | true => exact List.mem_cons_self
  | true =>
    have channel : s.hasUnsubChannel = true := (Bool.and_eq_true_iff.mp gate).1
    rw [channel]
    exact (consistent s).score_mem gate

theorem confidence_mem (high : ¬(s.archive < 0.5 ∧ s.unsubscribe < 0.5)) :
    0.55 ≤ confidenceOf s.archive s.unsubscribe ∧
      confidenceOf s.archive s.unsubscribe ≤ 0.95 := by
  obtain ⟨archive, here, is⟩ := archive_mem s
  obtain ⟨unsubscribe, there, is'⟩ := unsubscribe_mem s
  rw [is, is'] at high ⊢
  exact confidenceOf_mem _ archive here unsubscribe there high

/-- The cap takes a confidence down to 0.75 at most. -/
theorem capped_mem {x : Float} (mem : 0.55 ≤ x ∧ x ≤ 0.95) :
    0.55 ≤ capped s x ∧ capped s x ≤ 0.95 := by
  unfold capped min
  split_ifs with gov below
  · exact mem
  · exact (by decide : (0.55 : Float) ≤ govUnsubConfidenceCap ∧
      govUnsubConfidenceCap ≤ (0.95 : Float))
  · exact mem

theorem phaseC_confidence (s : SenderSignals) :
    0.55 ≤ (phaseC s).confidence ∧ (phaseC s).confidence ≤ 0.95 := by
  have later : (0.55 : Float) ≤ 0.6 ∧ (0.6 : Float) ≤ 0.95 := by decide
  unfold phaseC
  by_cases quiet : !s.unsubscribeConditions.gate ∧ s.archive < 0.5
  · rw [if_pos quiet]
    exact later
  rw [if_neg quiet]
  by_cases low : s.archive < 0.5 ∧ s.unsubscribe < 0.5
  · rw [if_pos low]
    exact later
  rw [if_neg low]
  by_cases wins : s.unsubscribe ≤ s.archive
  · rw [if_pos wins]
    exact confidence_mem low
  · rw [if_neg wins]
    exact capped_mem (confidence_mem low)

theorem runCascade_confidence (s : SenderSignals) :
    0.55 ≤ (runCascade s).confidence ∧ (runCascade s).confidence ≤ 1 := by
  by_cases kept : s.Kept
  · obtain ⟨confidence, here, _, ran⟩ := runCascade_of_kept kept
    have band : ∀ confidence ∈ keepConfidences, 0.55 ≤ confidence ∧ confidence ≤ 1 := by
      decide
    rw [ran]
    exact band confidence here
  rw [runCascade_of_not_kept kept]
  by_cases new : s.TooNew
  · rw [if_pos new]
    exact (by decide : (0.55 : Float) ≤ 0.7 ∧ (0.7 : Float) ≤ 1)
  · rw [if_neg new]
    obtain ⟨low, high⟩ := phaseC_confidence s
    exact ⟨low, Float.le_trans high (by decide)⟩

theorem capped_gov {x : Float} (gov : s.isGovDomain = true) :
    capped s x ≤ govUnsubConfidenceCap := by
  rw [capped, if_pos gov, min]
  split_ifs with below
  · exact below
  · decide

theorem phaseC_confidence_gov (gov : s.isGovDomain = true)
    (left : (phaseC s).verdict = .unsubscribe) :
    (phaseC s).confidence ≤ govUnsubConfidenceCap := by
  unfold phaseC at left ⊢
  by_cases quiet : !s.unsubscribeConditions.gate ∧ s.archive < 0.5
  · rw [if_pos quiet] at left
    contradiction
  rw [if_neg quiet] at left ⊢
  by_cases low : s.archive < 0.5 ∧ s.unsubscribe < 0.5
  · rw [if_pos low] at left
    contradiction
  rw [if_neg low] at left ⊢
  by_cases wins : s.unsubscribe ≤ s.archive
  · rw [if_pos wins] at left
    contradiction
  · rw [if_neg wins]
    exact capped_gov gov

theorem runCascade_confidence_gov (gov : s.isGovDomain = true)
    (left : (runCascade s).verdict = .unsubscribe) :
    (runCascade s).confidence ≤ govUnsubConfidenceCap := by
  by_cases kept : s.Kept
  · rw [verdict_of_kept kept] at left
    contradiction
  rw [runCascade_of_not_kept kept] at left ⊢
  by_cases new : s.TooNew
  · rw [if_pos new] at left
    contradiction
  · rw [if_neg new] at left ⊢
    exact phaseC_confidence_gov gov left

end Confidence

/-- More evidence for Keep destroys no more, an Unsubscribe needs an active stream with a channel,
and the confidences stay in their bands. -/
theorem runCascade_monotone :
    (∀ weak strong, Engaged weak strong →
      (runCascade strong).NoMoreDestructive (runCascade weak)) ∧
    (∀ s, s.unsubscribeChannel = .none ∨ s.monthlyVolume < minUnsubStreamVolume ∨
      s.totalMessages < 3 → (runCascade s).verdict ≠ .unsubscribe) ∧
    (∀ s, s.isGovDomain = true → (runCascade s).verdict = .unsubscribe →
      (runCascade s).confidence ≤ govUnsubConfidenceCap) ∧
    ∀ s, 0.55 ≤ (runCascade s).confidence ∧ (runCascade s).confidence ≤ 1 :=
  ⟨fun _ _ => runCascade_engaged, fun _ => verdict_ne_unsubscribe,
    fun _ => runCascade_confidence_gov, runCascade_confidence⟩

/-- A newsletter on a government domain that is hardly read -/
def newsletter : SenderSignals where
  isProtected := false
  protectionReason := none
  hasWrittenTo := false
  gmailCategory := .promotions
  starredInLastYear := false
  readRate90d := some 0.1
  firstSeenMonthsAgo := 12
  firstSeenDaysAgo := 365
  totalMessages := 120
  monthlyVolume := 10
  spikeRatio := 1
  unsubscribeChannel := .oneClick
  isGovDomain := true
  userManuallyArchivedCount := 0

theorem newsletter_engaged :
    Engaged newsletter { newsletter with readRate90d := some 0.25 } where
  same := rfl
  isProtected := id
  hasWrittenTo := id
  starred := id
  readRate := by
    refine .inr ⟨0.25, rfl, by decide, fun before here => ?_⟩
    obtain rfl : before = 0.1 := (Option.some.inj here).symm
    decide

/-- The newsletter is left, and kept for later if a quarter of its mail is read. -/
theorem runCascade_monotone_newsletter :
    (runCascade newsletter).verdict = .unsubscribe ∧
      (runCascade newsletter).confidence ≤ govUnsubConfidenceCap ∧
      (runCascade { newsletter with readRate90d := some 0.25 }).NoMoreDestructive
        (runCascade newsletter) := by
  have left : (runCascade newsletter).verdict = .unsubscribe := by decide +kernel
  obtain ⟨engaged, -, gov, -⟩ := runCascade_monotone
  exact ⟨left, gov _ rfl left, engaged _ _ newsletter_engaged⟩

end DeclutrMail.Triage.Cascade
