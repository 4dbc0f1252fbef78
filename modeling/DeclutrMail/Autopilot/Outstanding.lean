import DeclutrMail.Autopilot.RuleSaves

/-!
# Approved matches and stopped rules

In every run an approved match that has not been applied has the criteria of its rule. An approval
lands on a rule that can start work, as long as no commit stops the rule of a suggestion that a
call of `approveMatches` has checked; `approveAllForRule` shares the rule and is never overtaken.
-/

namespace DeclutrMail.Autopilot

open Interleaving

theorem code_does (t : ℕ) (task : Task) :
    Does t .idle task.code (fun _ => .idle) .idle := by
  have ignores {α : Type} {p : RuleProgram α} (h : Does t .idle p (fun _ => .idle) .idle) :
      Does t .idle (p >>= fun _ => pure ()) (fun _ => .idle) .idle :=
    Does.bind h fun _ => Does.returns fun _ _ h => h
  cases task with
  | approveMatches queue matchIds => exact ignores (approveMatches_does queue matchIds)
  | approveAllForRule queue ruleId scope => exact ignores (approveAllForRule_does queue ruleId scope)
  | patchRule ruleId patch => exact ignores (patchRule_does ruleId patch)
  | pauseAll => exact ignores pauseAll_does
  | retire ruleId version => exact ignores (retire_does ruleId version)
  | applyPass => exact applyPass_does

theorem idle_of_rollback {w : World} {t : ℕ} : (Fact.idle : Fact t) (w.rollback t) := by
  intro x mem
  have none : (w.rollback t).db.draft t = [] := Transactions.draft_rollback
  rw [none] at mem
  cases mem

theorem ruling_verified : Verified ruling (fun _ _ => True) Rely Guarantee World.Inv
    (fun t w => (Fact.idle : Fact t) w) fun t _ w => (Fact.idle : Fact t) w where
  guarantee_rely other _ moved := ⟨moved.inv, moved.others _ other.symm⟩
  guarantee_inv _ moved := moved.inv
  idle_stable _ _ _ idle relied x mem := idle x (relied.2.shields.draft ▸ mem)
  start := by
    intro t task w w' inv idle accepted
    obtain rfl := Option.some.inj accepted
    refine ⟨.refl inv, (code_does t task w ⟨inv, idle⟩).mono fun r v h => ?_⟩
    cases r with
    | ok _ => exact h.2
    | error _ => exact h.2
  finish := by
    intro t r w w' inv idle settled
    obtain rfl := Option.some.inj settled
    exact ⟨.refl inv, idle⟩
  crash := by
    intro t w w' inv crashed
    obtain rfl := Option.some.inj crashed
    exact ⟨.rollback inv, idle_of_rollback⟩
  disturb inv _ happened := by
    obtain ⟨inv', kept⟩ := inv.disturb happened
    exact ⟨inv', fun t => ⟨inv', kept t⟩⟩

/-- No transaction is open, and the calls of this history have not approved anything. -/
structure Begins (w : World) : Prop where
  draft : w.db.draft = fun _ => []
  holder : w.db.holder = fun _ => none
  flips : w.flips = []
  current : w.db.store.Current

theorem Begins.inv {w : World} (h : Begins w) : w.Inv := by
  refine ⟨fun k x held => ?_, fun t => .nothing (congrFun h.draft t), h.current, fun _ flip mem => ?_⟩
  · have free := congrFun h.holder k
    rw [held] at free
    cases free
  · rw [h.flips] at mem
    cases mem

theorem Begins.reaches {w : World} {c : Config ruling} (begins : Begins w)
    (run : Reaches (.idle w) c) : c.world.Inv := by
  refine (ruling_verified.sound begins.inv (fun t x mem => ?_) run).inv
  rw [begins.draft] at mem
  cases mem

/-! ## The rule of an approved match -/

/-- An approved match that has not been applied was found by a pass that evaluated the criteria
that its rule has now. -/
theorem approved_has_criteria {w : World} {c : Config ruling} (begins : Begins w)
    (run : Reaches (.idle w) c) {id : MatchId} {m : Match}
    (found : c.world.db.store.matchLog.get id = some m) (approved : m.resolution = .approved)
    (unapplied : m.intentApplied = false) :
    ∃ r, c.world.db.store.rules.get m.ruleId = some r ∧ r.toCriteria = m.evaluated := by
  refine (begins.reaches run).current id m found ?_
  simp [Match.outstanding, approved, unapplied]

/-- A preset in Observe mode. -/
def sampleRule : Rule where
  conditions := .empty
  actionKind := .archive
  confidenceThreshold := none
  presetKey := some .autoArchiveLowEngagement
  version := 3
  retired := false
  enabled := true
  mode := .observe
  scope := .account

def sampleSignals : AutopilotSignalRow where
  senderKey := "news"
  signals := ⟨false, 90, 12, none, 2⟩
  decision := some (.archive, 9 / 10)
  inboxCount := 4
  isUnsubscribed := false

/-- A mailbox with one rule, one sender and the matches given. -/
def sampleWorld (matchLog : InsertionMap MatchId Match) : World where
  db := ⟨⟨⟨.set .empty 1 sampleRule, matchLog, .set .empty "news" 5, .empty, [], []⟩, fun _ => [],
    fun _ => none⟩, fun _ => []⟩
  checked := []
  flips := []
  overtaken := false

def proceeds (t n : ℕ) : List (Interleaving.Move ruling) := List.replicate n (.reply t .ok)

/-- A pass finds a match, the match is approved, and the threshold can then not be changed. -/
def approvedBeforeSave : List (Interleaving.Move ruling) :=
  [.start 0 .applyPass, .reply 0 (.time 10), .reply 0 (.tier (some (true, true)))] ++
    proceeds 0 2 ++ [.reply 0 (.signals [sampleSignals])] ++ proceeds 0 3 ++
    [.reply 0 (.id 7), .reply 0 .ok, .finish 0, .start 1 (.approveMatches true [7])] ++
    proceeds 1 8 ++ [.finish 1,
      .start 2 (.patchRule 1 { RulePatch.empty with confidenceThreshold := some (some (4 / 5)) })] ++
    proceeds 2 5 ++ [.finish 2]

theorem sampleWorld_begins : Begins (sampleWorld .empty) := by
  refine ⟨rfl, rfl, rfl, fun id m found => ?_⟩
  cases found

theorem approved_has_criteria_sample : ∃ c : Config ruling,
    Reaches (.idle (sampleWorld .empty)) c ∧ ∃ m, c.world.db.store.matchLog.get 7 = some m ∧
      m.resolution = .approved ∧
        ∃ r, c.world.db.store.rules.get m.ruleId = some r ∧ r.toCriteria = m.evaluated := by
  obtain ⟨c, run, ended⟩ := exists_reaches (M := ruling) (c := .idle (sampleWorld .empty))
    (l := approvedBeforeSave) (p := fun c => (c.world.db.store.matchLog.get 7).any fun m =>
      m.resolution = .approved && !m.intentApplied) (by decide +kernel)
  obtain ⟨m, found, approved⟩ := (Option.any_eq_true _ _).mp ended
  obtain ⟨approved, unapplied⟩ := Bool.and_eq_true_iff.mp approved
  have approved := of_decide_eq_true approved
  exact ⟨c, run, m, found, approved, approved_has_criteria sampleWorld_begins run found approved
    (by simpa using unapplied)⟩

/-! ## The rule of an approval -/

/-- A suggestion is approved in a commit at which its rule can start work. -/
theorem approved_of_running_rule {w : World} {c : Config ruling} (begins : Begins w)
    (run : Reaches (.idle w) c) (fine : c.world.overtaken = false) :
    ∀ flip ∈ c.world.flips, flip.2 = true := (begins.reaches run).flips fine

/-- A pending match of the sample's rule. -/
def sampleMatch : Match := { sampleRule.newMatch 1 10 "news" with resolution := .pending }

theorem sampleMatch_begins : Begins (sampleWorld (.set .empty 7 sampleMatch)) := by
  refine ⟨rfl, rfl, rfl, fun id m found _ => ⟨sampleRule, ?_⟩⟩
  have here : m = sampleMatch := by
    rw [show (sampleWorld (.set .empty 7 sampleMatch)).db.store.matchLog.get id =
      if 7 = id then some sampleMatch else none from InsertionMap.get_set ..] at found
    split_ifs at found
    exact (Option.some.inj found).symm
  subst here
  exact ⟨rfl, rfl⟩

theorem approved_of_running_rule_sample : ∃ c : Config ruling,
    Reaches (.idle (sampleWorld (.set .empty 7 sampleMatch))) c ∧ c.world.overtaken = false ∧
      c.world.flips = [(7, true)] ∧ ∀ flip ∈ c.world.flips, flip.2 = true := by
  obtain ⟨c, run, ended⟩ := exists_reaches (M := ruling)
    (c := .idle (sampleWorld (.set .empty 7 sampleMatch)))
    (l := [.start 0 (.approveMatches true [7]), .start 1 (.approveAllForRule true 1 none)] ++
      proceeds 0 2 ++ proceeds 1 2 ++ proceeds 0 2 ++ [.reply 0 .ok] ++ proceeds 1 1 ++ proceeds 0 1)
    (p := fun c => decide (c.world.overtaken = false ∧ c.world.flips = [(7, true)]))
    (by decide +kernel)
  obtain ⟨fine, flips⟩ := of_decide_eq_true ended
  exact ⟨c, run, fine, flips, approved_of_running_rule sampleMatch_begins run fine⟩

/-- All rules are paused between the check of `approveMatches` and its update. -/
theorem approved_of_paused_rule : ¬∀ (w : World) (c : Config ruling), Begins w →
    Reaches (.idle w) c → ∀ flip ∈ c.world.flips, flip.2 = true := by
  intro always
  obtain ⟨c, run, ended⟩ := exists_reaches (M := ruling)
    (c := .idle (sampleWorld (.set .empty 7 sampleMatch)))
    (l := [.start 0 (.approveMatches true [7])] ++ proceeds 0 2 ++ [.start 1 .pauseAll] ++
      proceeds 1 3 ++ [.finish 1] ++ proceeds 0 3)
    (p := fun c => decide ((7, false) ∈ c.world.flips)) (by decide +kernel)
  have running := always _ c sampleMatch_begins run (7, false) (of_decide_eq_true ended)
  cases running

end DeclutrMail.Autopilot
