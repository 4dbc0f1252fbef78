import DeclutrMail.Numbers.Floats
import DeclutrMail.Senders.AutomaticProtection
import DeclutrMail.Triage.Scoring

/-!
# The cascade

`runCascade`, which turns the signals of a sender into a verdict. The numbers of the source are
those of `Float`, and its scores are sums of weights that are rounded as they are added.

More evidence for Keep leaves the conditions of all weights as they are, but for the two of the
read rate, which fall away. What is left to show of the sums themselves is finite.
-/

namespace DeclutrMail.Triage.Cascade

open Senders (GmailCategory ProtectionReason)

inductive CascadePhase
  | A
  | B
  | C
  deriving DecidableEq

inductive UnsubscribeChannel
  | oneClick
  | mailto
  | none
  deriving DecidableEq

structure SenderSignals where
  isProtected : Bool
  protectionReason : Option ProtectionReason
  hasWrittenTo : Bool
  gmailCategory : GmailCategory
  starredInLastYear : Bool
  /-- `none` if there is no mail in the last 90 days. -/
  readRate90d : Option Float
  firstSeenMonthsAgo : ℕ
  firstSeenDaysAgo : ℕ
  totalMessages : ℕ
  monthlyVolume : Float
  spikeRatio : Float
  unsubscribeChannel : UnsubscribeChannel
  isGovDomain : Bool
  userManuallyArchivedCount : ℕ

structure Facts where
  monthlyVolume : Float
  readRatePct : Option Float

structure Scores where
  archive : Float
  unsubscribe : Float

structure CascadeResult where
  verdict : TriageVerdict
  confidence : Float
  phase : CascadePhase
  ruleId : CascadeRuleId
  facts : Facts
  scores : Option Scores

def minUnsubStreamVolume : Float := 2

def govUnsubConfidenceCap : Float := 0.75

/-! ## Arithmetic -/

def min (x y : Float) : Float := if x ≤ y then x else y

def max (x y : Float) : Float := if x ≤ y then y else x

def clamp (x lo hi : Float) : Float := max lo (min hi x)

/-- `Math.round` of a number that is not negative. -/
def mathRound (x : Float) : Float :=
  let below := x.toUInt64.toFloat
  if 0.5 ≤ x - below then below + 1 else below

def round2 (x : Float) : Float := mathRound (x * 100) / 100

/-- `if (holds) score += weight` -/
def add (holds : Bool) (weight score : Float) : Float := if holds then score + weight else score

/-! ## Scores -/

/-- The conditions of the weights of `archive`. -/
structure ArchiveConditions where
  steady : Bool
  heavy : Bool
  archived : Bool
  hasUnsubChannel : Bool

def ArchiveConditions.score (c : ArchiveConditions) : Float :=
  add c.hasUnsubChannel 0.15 (add c.archived 0.3 (add c.heavy 0.2 (add c.steady 0.3 0)))

/-- The conditions of the weights of `unsubscribe`, and the gate. -/
structure UnsubscribeConditions where
  gate : Bool
  oneClick : Bool
  mailto : Bool
  weekly : Bool
  steady : Bool
  disengaged : Bool
  unread : Bool
  bulkTab : Bool
  spike : Bool

def UnsubscribeConditions.score (c : UnsubscribeConditions) : Float :=
  if c.gate then
    add c.spike 0.1 (add c.bulkTab 0.1 (add c.unread 0.1 (add c.disengaged 0.15
      (add c.steady 0.15 (add c.weekly 0.15 (add c.mailto 0.2 (add c.oneClick 0.35 0)))))))
  else 0

/-- The confidence of the winner, before the cap. -/
def confidenceOf (archive unsubscribe : Float) : Float :=
  let archiveWins : Bool := unsubscribe ≤ archive
  let winner := if archiveWins then archive else unsubscribe
  let loser := if archiveWins then unsubscribe else archive
  let strength := clamp winner 0 1
  let margin := clamp (winner - loser) 0 1
  round2 (clamp (0.5 + 0.35 * strength + 0.1 * margin) 0.55 0.95)

namespace SenderSignals

variable (s : SenderSignals)

def hasUnsubChannel : Bool := s.unsubscribeChannel ≠ .none

def archiveConditions : ArchiveConditions where
  steady := 30 ≤ s.monthlyVolume
  heavy := 60 ≤ s.monthlyVolume
  archived := 3 ≤ s.userManuallyArchivedCount
  hasUnsubChannel := s.hasUnsubChannel

def unsubscribeConditions : UnsubscribeConditions where
  gate := s.hasUnsubChannel && decide (minUnsubStreamVolume ≤ s.monthlyVolume)
  oneClick := s.unsubscribeChannel = .oneClick
  mailto := s.unsubscribeChannel = .mailto
  weekly := 8 ≤ s.monthlyVolume
  steady := 30 ≤ s.monthlyVolume
  disengaged := s.readRate90d.any (· < 0.2)
  unread := s.readRate90d.any (· < 0.05)
  bulkTab := s.gmailCategory = .promotions || s.gmailCategory = .forums ||
    s.gmailCategory = .social
  spike := 3 ≤ s.spikeRatio

def archive : Float := s.archiveConditions.score

def unsubscribe : Float := s.unsubscribeConditions.score

def facts : Facts := ⟨s.monthlyVolume, s.readRate90d.map fun rate => mathRound (rate * 100)⟩

def scores : Scores := ⟨round2 s.archive, round2 s.unsubscribe⟩

end SenderSignals

/-! ## The rules -/

def protectRuleId : ProtectionReason → CascadeRuleId
  | .userDefined => .protectUserDefined
  | .replied => .protectReplied
  | .starred => .protectStarred
  | .gmailImportant => .protectGmailImportant

def keeps (s : SenderSignals) (confidence : Float) (ruleId : CascadeRuleId) : CascadeResult :=
  ⟨.keep, confidence, .A, ruleId, s.facts, none⟩

def scored (s : SenderSignals) (verdict : TriageVerdict) (confidence : Float)
    (ruleId : CascadeRuleId) : CascadeResult :=
  ⟨verdict, confidence, .C, ruleId, s.facts, some s.scores⟩

def capped (s : SenderSignals) (confidence : Float) : Float :=
  if s.isGovDomain then min confidence govUnsubConfidenceCap else confidence

def phaseC (s : SenderSignals) : CascadeResult :=
  if !s.unsubscribeConditions.gate ∧ s.archive < 0.5 then
    scored s .later 0.6 (if s.hasUnsubChannel then .scoreQuietStream else .scoreNoUnsubChannel)
  else if s.archive < 0.5 ∧ s.unsubscribe < 0.5 then scored s .later 0.6 .scoreInconclusive
  else if s.unsubscribe ≤ s.archive then
    scored s .archive (confidenceOf s.archive s.unsubscribe) .scoreArchive
  else
    scored s .unsubscribe (capped s (confidenceOf s.archive s.unsubscribe)) .scoreUnsubscribe

def runCascade (s : SenderSignals) : CascadeResult :=
  if s.isProtected then keeps s 1 (protectRuleId (s.protectionReason.getD .userDefined))
  else if s.hasWrittenTo then keeps s 0.98 .wroteToAtLeastOnce
  else if s.gmailCategory = .primary ∧ s.unsubscribeChannel = .none then
    keeps s 0.95 .gmailPrimary
  else if s.starredInLastYear then keeps s 0.92 .starredRecently
  else if s.readRate90d.any (0.5 ≤ ·) then keeps s 0.85 .highReadRate
  else if 60 ≤ s.firstSeenMonthsAgo ∧ s.readRate90d.any (0.3 ≤ ·) then
    keeps s 0.8 .longRelationshipEngaged
  else if s.totalMessages < 3 ∨ s.firstSeenDaysAgo < 7 then
    ⟨.later, 0.7, .B, .insufficientSignal, s.facts, none⟩
  else phaseC s

end DeclutrMail.Triage.Cascade
