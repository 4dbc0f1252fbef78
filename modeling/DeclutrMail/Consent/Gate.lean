import Mathlib.Data.Option.Basic
import Mathlib.Data.Int.Init

/-!
# The consent columns

What `ai-consent/gate.ts` reads and writes on a user's row. A decision is answered on a card, and
is a patch of nine columns; the gate of each scope looks at four of them.

`UsersService.applyAiConsent` writes the patch in a statement of its own. The scopes that an Allow
builds on are read before it, so requests may have come between (`Commit`).
-/

namespace DeclutrMail.Consent

inductive AiConsentCard
  | all | withBrief | upgrade
  deriving DecidableEq

inductive Scope
  | explanations | brief
  deriving DecidableEq

inductive AiConsentExplanationsState
  | unset | allowed | off | paused | review
  deriving DecidableEq

inductive AiConsentBriefState
  | unset | allowed | off | paused | review | declined
  deriving DecidableEq

structure AiConsentStored where
  aiConsentVersion : Option String
  aiExplanationsConsentAt : Option ℤ
  aiExplanationsRevokedAt : Option ℤ
  aiConsentScopes : Option (List Scope)
  aiConsentDeclinedAt : Option ℤ
  briefAiConsentAt : Option ℤ
  briefAiConsentVersion : Option String
  briefAiConsentRevokedAt : Option ℤ
  briefAiDeclinedAt : Option ℤ

def EMPTY_AI_CONSENT : AiConsentStored := ⟨none, none, none, none, none, none, none, none, none⟩

structure AiConsentView where
  explanations : AiConsentExplanationsState
  brief : AiConsentBriefState
  reask : Bool

inductive AiConsentDecision
  | allow (card : AiConsentCard)
  | notNow (card : AiConsentCard)
  | revoke (scope : Option Scope)
  deriving DecidableEq

/-- What a patch does to a column. -/
inductive ColumnWrite (α : Type)
  | keep
  | set (value : α)

inductive ConsentMark
  | now | keep | null

structure AiConsentPatch where
  aiConsentVersion : ColumnWrite String
  aiExplanationsConsentAt : ConsentMark
  aiExplanationsRevokedAt : ConsentMark
  aiConsentScopes : ColumnWrite (List Scope)
  aiConsentDeclinedAt : ConsentMark
  briefAiConsentAt : ConsentMark
  briefAiConsentVersion : ColumnWrite String
  briefAiConsentRevokedAt : ConsentMark
  briefAiDeclinedAt : ConsentMark

/-! ## The gate -/

def present (value : Option ℤ) : Bool := value.isSome

def hasScope (row : AiConsentStored) (scope : Scope) : Bool :=
  (row.aiConsentScopes.getD []).contains scope

def explanationsConsentActive (row : AiConsentStored) (version : String) : Bool :=
  row.aiConsentVersion = some version && present row.aiExplanationsConsentAt &&
    !present row.aiExplanationsRevokedAt && hasScope row .explanations

def briefConsentActive (row : AiConsentStored) (version : String) : Bool :=
  row.briefAiConsentVersion = some version && present row.briefAiConsentAt &&
    !present row.briefAiConsentRevokedAt && hasScope row .brief

def consentActive (scope : Scope) (row : AiConsentStored) (version : String) : Bool :=
  match scope with
  | .explanations => explanationsConsentActive row version
  | .brief => briefConsentActive row version

/-- Whether a column has a version, but another one. -/
def outdated (stored : Option String) (version : String) : Bool :=
  stored.isSome && stored ≠ some version

def explanationsRaw (row : AiConsentStored) (version : String) : AiConsentExplanationsState :=
  if outdated row.aiConsentVersion version then .review
  else if explanationsConsentActive row version then .allowed
  else if present row.aiConsentDeclinedAt || present row.aiExplanationsRevokedAt then .off
  else .unset

def briefRaw (row : AiConsentStored) (version : String) : AiConsentBriefState :=
  if outdated row.briefAiConsentVersion version then .review
  else if briefConsentActive row version then .allowed
  else if present row.briefAiDeclinedAt && row.briefAiConsentVersion = some version &&
      !present row.briefAiConsentAt then .declined
  else if present row.briefAiConsentRevokedAt then .off
  else .unset

def aiConsentView (row : AiConsentStored) (version : String) : AiConsentView where
  explanations := explanationsRaw row version
  brief := briefRaw row version
  reask := outdated row.aiConsentVersion version || outdated row.briefAiConsentVersion version

/-- The card that the client shows, if any. -/
def consentCard (view : AiConsentView) (briefCapable : Bool) : Option AiConsentCard :=
  let whole := if briefCapable then AiConsentCard.withBrief else .all
  if view.explanations = .paused then none
  else if briefCapable && view.brief = .paused then none
  else if view.explanations = .review || view.explanations = .unset then some whole
  else if view.explanations ≠ .allowed && view.reask then some whole
  else if !briefCapable || view.explanations ≠ .allowed || view.brief = .allowed then none
  else if view.brief = .unset || view.reask || view.brief = .review then some .upgrade
  else none

/-! ## The patch -/

def scopesAgreedOnCard : AiConsentCard → List Scope
  | .all => [.explanations]
  | .withBrief => [.explanations, .brief]
  | .upgrade => [.brief]

def allowScopes (card : AiConsentCard) (previous : Option (List Scope)) : List Scope :=
  let prior := previous.getD []
  let kept (scope : Scope) : Bool := scope ∈ scopesAgreedOnCard card ||
    (card = .upgrade && scope = .explanations && prior.contains .explanations) ||
    (card = .all && scope = .brief && prior.contains .brief)
  [.explanations, .brief].filter kept

def aiConsentPatch (decision : AiConsentDecision) (version : String)
    (previousScopes : Option (List Scope)) : AiConsentPatch :=
  match decision with
  | .revoke scope =>
    { aiConsentVersion := .keep
      aiExplanationsConsentAt := .keep
      aiExplanationsRevokedAt := if scope = some .brief then .keep else .now
      aiConsentScopes := .keep
      aiConsentDeclinedAt := .keep
      briefAiConsentAt := .keep
      briefAiConsentVersion := .keep
      briefAiConsentRevokedAt := if scope = some .explanations then .keep else .now
      briefAiDeclinedAt := .keep }
  | .notNow .upgrade =>
    { aiConsentVersion := .keep
      aiExplanationsConsentAt := .keep
      aiExplanationsRevokedAt := .keep
      aiConsentScopes := .keep
      aiConsentDeclinedAt := .keep
      briefAiConsentAt := .null
      briefAiConsentVersion := .set version
      briefAiConsentRevokedAt := .null
      briefAiDeclinedAt := .now }
  | .notNow .all =>
    { aiConsentVersion := .set version
      aiExplanationsConsentAt := .null
      aiExplanationsRevokedAt := .null
      aiConsentScopes := .keep
      aiConsentDeclinedAt := .now
      briefAiConsentAt := .keep
      briefAiConsentVersion := .keep
      briefAiConsentRevokedAt := .keep
      briefAiDeclinedAt := .keep }
  | .notNow .withBrief =>
    { aiConsentVersion := .set version
      aiExplanationsConsentAt := .null
      aiExplanationsRevokedAt := .null
      aiConsentScopes := .set []
      aiConsentDeclinedAt := .now
      briefAiConsentAt := .null
      briefAiConsentVersion := .set version
      briefAiConsentRevokedAt := .null
      briefAiDeclinedAt := .now }
  | .allow .upgrade =>
    { aiConsentVersion := .set version
      aiExplanationsConsentAt := .keep
      aiExplanationsRevokedAt := .keep
      aiConsentScopes := .set (allowScopes .upgrade previousScopes)
      aiConsentDeclinedAt := .keep
      briefAiConsentAt := .now
      briefAiConsentVersion := .set version
      briefAiConsentRevokedAt := .null
      briefAiDeclinedAt := .null }
  | .allow .all =>
    { aiConsentVersion := .set version
      aiExplanationsConsentAt := .now
      aiExplanationsRevokedAt := .null
      aiConsentScopes := .set (allowScopes .all previousScopes)
      aiConsentDeclinedAt := .null
      briefAiConsentAt := .keep
      briefAiConsentVersion := .keep
      briefAiConsentRevokedAt := .keep
      briefAiDeclinedAt := .keep }
  | .allow .withBrief =>
    { aiConsentVersion := .set version
      aiExplanationsConsentAt := .now
      aiExplanationsRevokedAt := .null
      aiConsentScopes := .set (allowScopes .withBrief previousScopes)
      aiConsentDeclinedAt := .null
      briefAiConsentAt := .now
      briefAiConsentVersion := .set version
      briefAiConsentRevokedAt := .null
      briefAiDeclinedAt := .null }

def textWrite (column : Option String) : ColumnWrite String → Option String
  | .keep => column
  | .set value => some value

def scopesWrite (column : Option (List Scope)) : ColumnWrite (List Scope) → Option (List Scope)
  | .keep => column
  | .set value => some value

def timeWrite (now : ℤ) (column : Option ℤ) : ConsentMark → Option ℤ
  | .keep => column
  | .now => some now
  | .null => none

def AiConsentStored.write (row : AiConsentStored) (patch : AiConsentPatch) (now : ℤ) :
    AiConsentStored where
  aiConsentVersion := textWrite row.aiConsentVersion patch.aiConsentVersion
  aiExplanationsConsentAt :=
    timeWrite now row.aiExplanationsConsentAt patch.aiExplanationsConsentAt
  aiExplanationsRevokedAt :=
    timeWrite now row.aiExplanationsRevokedAt patch.aiExplanationsRevokedAt
  aiConsentScopes := scopesWrite row.aiConsentScopes patch.aiConsentScopes
  aiConsentDeclinedAt := timeWrite now row.aiConsentDeclinedAt patch.aiConsentDeclinedAt
  briefAiConsentAt := timeWrite now row.briefAiConsentAt patch.briefAiConsentAt
  briefAiConsentVersion := textWrite row.briefAiConsentVersion patch.briefAiConsentVersion
  briefAiConsentRevokedAt :=
    timeWrite now row.briefAiConsentRevokedAt patch.briefAiConsentRevokedAt
  briefAiDeclinedAt := timeWrite now row.briefAiDeclinedAt patch.briefAiDeclinedAt

/-- A decision, with the version of the code that serves the request and the clock of the
database. -/
structure Request where
  decision : AiConsentDecision
  version : String
  now : ℤ

/-- The update of a request, with the scopes that it has read. -/
structure Commit extends Request where
  previousScopes : Option (List Scope)

def commit (row : AiConsentStored) (c : Commit) : AiConsentStored :=
  row.write (aiConsentPatch c.decision c.version c.previousScopes) c.now

/-- A request with none between its read and its update. -/
def applyAiConsent (row : AiConsentStored) (r : Request) : AiConsentStored :=
  let previousScopes := match r.decision with
    | .allow _ => row.aiConsentScopes
    | _ => none
  commit row ⟨r, previousScopes⟩

end DeclutrMail.Consent
