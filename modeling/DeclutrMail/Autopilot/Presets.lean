import Mathlib.Data.Rat.Floor

/-!
# The rules of Autopilot

What a rule looks for in a sender, and with what it replaces what it has been given. Confidences
are rational, as every double is; a threshold is stored in hundredths.
-/

namespace DeclutrMail.Autopilot

inductive TriageVerdict
  | keep
  | archive
  | unsubscribe
  | later
  deriving DecidableEq

inductive ActionKind
  | archive
  | later
  | unsubscribe
  | delete
  deriving DecidableEq

inductive PresetKey
  | autoArchiveLowEngagement
  | autoUnsubscribeNoisy
  | autoScreenNewSenders
  | newsletterGraveyard
  | longDormantUnsubscribe
  deriving DecidableEq

/-! ## What a rule looks for -/

/-- `conditions`; `empty` stands for the preset's own. -/
inductive Conditions
  | empty
  | recommendation (verdict : TriageVerdict) (confidence : ℚ)
  | newSender (firstSeenWithinDays fewerThanMessages : ℕ)
  | dormant (lastSeenAfterDays : ℕ) (lastSeenWithinDays : Option ℕ) (readRateBelow : ℚ)
      (minMessages : ℕ)
  | senderList (senderKeys : List String) (olderThanDays : Option ℕ)
  deriving DecidableEq

/-- `AutopilotRuleConditionsSchema` -/
def Conditions.parses : Conditions → Bool
  | .recommendation verdict confidence => verdict ≠ .keep && 0 ≤ confidence && confidence ≤ 1
  | .newSender firstSeenWithinDays fewerThanMessages =>
    1 ≤ firstSeenWithinDays && firstSeenWithinDays ≤ 365 && 1 ≤ fewerThanMessages &&
      fewerThanMessages ≤ 1000
  | .dormant lastSeenAfterDays lastSeenWithinDays readRateBelow minMessages =>
    lastSeenAfterDays ≤ 3650 &&
      (lastSeenWithinDays.all fun n => 1 ≤ n && n ≤ 3650 && lastSeenAfterDays < n) &&
        1 / 100 ≤ readRateBelow && readRateBelow ≤ 1 && 5 ≤ minMessages && minMessages ≤ 10000
  | .empty | .senderList .. => false

/-- What decides which senders a rule matches, and what it does to them. -/
structure Criteria where
  conditions : Conditions
  actionKind : ActionKind
  confidenceThreshold : Option ℤ
  deriving DecidableEq

structure PresetSignals where
  isProtected : Bool
  firstSeenDaysAgo : ℤ
  totalMessages : ℕ
  readRateLifetime : Option ℚ
  lastSeenDaysAgo : ℤ

structure AutopilotSignalRow where
  senderKey : String
  signals : PresetSignals
  decision : Option (TriageVerdict × ℚ)
  inboxCount : ℕ
  isUnsubscribed : Bool

namespace AutopilotSignalRow

variable (row : AutopilotSignalRow)

/-- `VERDICT_MATCHER` -/
def verdictMatcher (target : TriageVerdict) (defaultThreshold : ℚ) (threshold : Option ℚ) : Bool :=
  row.decision.any fun (verdict, confidence) =>
    verdict = target && threshold.getD defaultThreshold < confidence

def dormancyMinMessages : ℕ := 5

/-- The two dormancy presets cover ranges that do not overlap. -/
def dormancyMatcher (after : ℤ) (within : Option ℤ) : Bool :=
  row.signals.readRateLifetime.any (· < 5 / 100) &&
    dormancyMinMessages ≤ row.signals.totalMessages && after < row.signals.lastSeenDaysAgo &&
      within.all (row.signals.lastSeenDaysAgo ≤ ·)

/-- The matchers of `AUTOPILOT_PRESETS`. -/
def presetMatch (key : PresetKey) (threshold : Option ℚ) : Bool :=
  match key with
  | .autoArchiveLowEngagement => row.verdictMatcher .archive (72 / 100) threshold
  | .autoUnsubscribeNoisy => row.verdictMatcher .unsubscribe (90 / 100) threshold
  | .autoScreenNewSenders => row.signals.firstSeenDaysAgo < 7 || row.signals.totalMessages < 3
  | .newsletterGraveyard => row.dormancyMatcher 90 (some 180)
  | .longDormantUnsubscribe => row.dormancyMatcher 180 none

/-- Conditions that do not parse match nothing. -/
def matchConfiguredPreset (key : PresetKey) (threshold : Option ℚ) (stored : Conditions) : Bool :=
  match stored with
  | .empty => row.presetMatch key threshold
  | .recommendation verdict confidence =>
    stored.parses && row.decision.any fun (decided, decidedConfidence) =>
      decided = verdict && threshold.getD confidence < decidedConfidence
  | .newSender firstSeenWithinDays fewerThanMessages =>
    stored.parses && (row.signals.firstSeenDaysAgo < firstSeenWithinDays ||
      row.signals.totalMessages < fewerThanMessages)
  | .dormant lastSeenAfterDays lastSeenWithinDays readRateBelow minMessages =>
    stored.parses && row.signals.readRateLifetime.any (· < readRateBelow) &&
      minMessages ≤ row.signals.totalMessages && lastSeenAfterDays < row.signals.lastSeenDaysAgo &&
        lastSeenWithinDays.all (row.signals.lastSeenDaysAgo ≤ ·)
  | .senderList .. => false

end AutopilotSignalRow

/-! ## Rules -/

inductive RuleMode
  | observe
  | active
  | paused
  deriving DecidableEq

inductive RuleScope
  | account
  | allAccounts
  | workspace
  deriving DecidableEq

/-- A row of `automation_rules`; a preset is a rule that has a key. -/
structure Rule extends Criteria where
  presetKey : Option PresetKey
  version : ℕ
  retired : Bool
  enabled : Bool
  mode : RuleMode
  scope : RuleScope
  deriving DecidableEq

namespace Rule

def isPreset (rule : Rule) : Bool := rule.presetKey.isSome

/-- The rule may start new work. -/
def canStart (rule : Rule) : Bool := rule.enabled && rule.mode ≠ .paused

def threshold (rule : Rule) : Option ℚ := rule.confidenceThreshold.map fun n => n / 100

/-- Two presets collect suggestions even in Active mode. -/
def actsUnattended (rule : Rule) : Bool :=
  rule.mode = .active && rule.presetKey ≠ some .autoScreenNewSenders &&
    rule.presetKey ≠ some .autoArchiveLowEngagement

/-- The senders whose match would do something. -/
def candidates (rule : Rule) (key : PresetKey) (eligible : List AutopilotSignalRow) : List String :=
  (eligible.filter fun row =>
    row.matchConfiguredPreset key rule.threshold rule.conditions &&
      if rule.actionKind = .unsubscribe then !row.isUnsubscribed else 0 < row.inboxCount).map
    (·.senderKey)

end Rule

/-! ## Changes of a rule -/

/-- `toFixed(2)`, in hundredths. -/
def toFixed (x : ℚ) : ℤ := ⌊100 * x + 1 / 2⌋

structure RuleConfiguration where
  version : ℕ
  conditions : Conditions
  actionKind : ActionKind
  deriving DecidableEq

/-- A field that is `none` is not in the body. -/
structure RulePatch where
  configuration : Option RuleConfiguration
  enabled : Option Bool
  mode : Option RuleMode
  confidenceThreshold : Option (Option ℚ)
  scope : Option RuleScope
  observePromptDismissed : Option Bool
  expectedVersion : Option ℕ
  deriving DecidableEq

namespace RulePatch

def empty : RulePatch := ⟨none, none, none, none, none, none, none⟩

variable (patch : RulePatch)

def isEmpty : Bool :=
  patch.configuration.isNone && patch.enabled.isNone && patch.mode.isNone &&
    patch.confidenceThreshold.isNone && patch.scope.isNone && patch.observePromptDismissed.isNone

/-- The body has a field besides the configuration. -/
def hasOther : Bool := { patch with configuration := none } ≠ empty

/-- What the rule acts on changes. -/
def material : Bool := patch.configuration.isSome || patch.confidenceThreshold.isSome

/-- The version that the row must have. -/
def version : Option ℕ :=
  match patch.configuration with
  | some configuration => some configuration.version
  | none => patch.expectedVersion

/-- An Active rule goes back to Observe. -/
def leaveActive (mode : RuleMode) : RuleMode := if mode = .active then .observe else mode

/-- The criteria of the row that `set` describes. -/
def criteria (row : Rule) : Criteria :=
  match patch.configuration, patch.confidenceThreshold with
  | some configuration, _ =>
    { conditions := configuration.conditions
      actionKind := configuration.actionKind
      confidenceThreshold :=
        match configuration.conditions with
        | .recommendation _ confidence => some (toFixed confidence)
        | _ => none }
  | none, some threshold => { row.toCriteria with confidenceThreshold := threshold.map toFixed }
  | none, none => row.toCriteria

/-- The row that `set` describes. -/
def set (row : Rule) : Rule where
  toCriteria := patch.criteria row
  presetKey := row.presetKey
  version :=
    if patch.material || patch.enabled.isSome || patch.mode.isSome then row.version + 1
    else row.version
  retired := row.retired
  enabled := patch.enabled.getD row.enabled
  mode := patch.mode.getD (if patch.material then leaveActive row.mode else row.mode)
  scope := patch.scope.getD row.scope

theorem criteria_of_not_material {row : Rule} (h : patch.material = false) :
    (patch.set row).toCriteria = row.toCriteria := by
  obtain ⟨configuration, threshold⟩ := Bool.or_eq_false_iff.mp h
  unfold set criteria
  rw [Option.isSome_eq_false_iff, Option.isNone_iff_eq_none] at configuration threshold
  rw [configuration, threshold]

theorem version_of_material {row : Rule} (h : patch.material = true) :
    (patch.set row).version = row.version + 1 := by simp [set, h]

theorem version_le_set {row : Rule} : row.version ≤ (patch.set row).version := by
  unfold set
  dsimp only
  split_ifs <;> omega

end RulePatch

/-- `defaultAutopilotConditions`, without the threshold. -/
def defaultAutopilotConditions : PresetKey → Conditions
  | .autoArchiveLowEngagement => .recommendation .archive (72 / 100)
  | .autoUnsubscribeNoisy => .recommendation .unsubscribe (90 / 100)
  | .autoScreenNewSenders => .newSender 7 3
  | .newsletterGraveyard => .dormant 90 (some 180) (5 / 100) 5
  | .longDormantUnsubscribe => .dormant 180 none (5 / 100) 5

/-- The same kind of condition, and for a recommendation the same verdict. -/
def Conditions.sameFamily : Conditions → Conditions → Bool
  | .recommendation verdict _, .recommendation verdict' _ => verdict = verdict'
  | .newSender .., .newSender .. => true
  | .dormant .., .dormant .. => true
  | .senderList .., .senderList .. => true
  | .empty, .empty => true
  | _, _ => false

end DeclutrMail.Autopilot
