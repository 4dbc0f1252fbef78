import Mathlib.Data.List.Induction
import DeclutrMail.Consent.Gate

/-!
# Standing grants

Of a history of decisions only the standing grants matter: for each scope, the version under which
it is allowed, if it is. The columns keep more than that, and the gate puts it together again. In
whatever order requests read and write, the gate lets no one through without a grant. What requests
that overlap can lose is a scope in the list of scopes, and with it a grant.
-/

namespace DeclutrMail.Consent

structure Grants where
  explanations : Option String
  brief : Option String

def Grants.of (g : Grants) : Scope → Option String
  | .explanations => g.explanations
  | .brief => g.brief

/-- The card of the upgrade does not mention the explanations. Their grant passes to the version of
the card. -/
def Grants.decide (g : Grants) (version : String) : AiConsentDecision → Grants
  | .allow .all => ⟨some version, g.brief⟩
  | .allow .withBrief => ⟨some version, some version⟩
  | .allow .upgrade => ⟨g.explanations.map fun _ => version, some version⟩
  | .notNow .all => ⟨none, g.brief⟩
  | .notNow .withBrief => ⟨none, none⟩
  | .notNow .upgrade => ⟨g.explanations, none⟩
  | .revoke none => ⟨none, none⟩
  | .revoke (some .explanations) => ⟨none, g.brief⟩
  | .revoke (some .brief) => ⟨g.explanations, none⟩

def grants (requests : List Request) : Grants :=
  requests.foldl (fun g r => g.decide r.version r.decision) ⟨none, none⟩

theorem grants_append (requests : List Request) (r : Request) :
    grants (requests ++ [r]) = (grants requests).decide r.version r.decision :=
  List.foldl_append ..

/-- The row after updates that come in this order, whatever each request has read. -/
def stored (commits : List Commit) : AiConsentStored := commits.foldl commit EMPTY_AI_CONSENT

/-- The row after requests that come one after the other. -/
def applied (requests : List Request) : AiConsentStored :=
  requests.foldl applyAiConsent EMPTY_AI_CONSENT

/-! ## What the columns say -/

variable {row : AiConsentStored} {g : Grants} {version : String}

/-- The version of a consent that is dated and not revoked. -/
def standing (version : Option String) (consentAt revokedAt : Option ℤ) : Option String :=
  if present consentAt && !present revokedAt then version else none

/-- The columns, but for the scopes, say what is granted. -/
structure Reflects (row : AiConsentStored) (g : Grants) : Prop where
  explanations : standing row.aiConsentVersion row.aiExplanationsConsentAt
    row.aiExplanationsRevokedAt = g.explanations
  brief : standing row.briefAiConsentVersion row.briefAiConsentAt
    row.briefAiConsentRevokedAt = g.brief
  versioned : present row.aiExplanationsConsentAt → row.aiConsentVersion.isSome

/-- The scopes that are granted are listed. -/
structure Listed (row : AiConsentStored) (g : Grants) : Prop where
  explanations : g.explanations.isSome → hasScope row .explanations
  brief : g.brief.isSome → hasScope row .brief

theorem standing_none {version : Option String} {revokedAt : Option ℤ} :
    standing version none revokedAt = none := rfl

theorem standing_revoked {version : Option String} {consentAt : Option ℤ} {now : ℤ} :
    standing version consentAt (some now) = none := by
  simp [standing, present]

theorem standing_now {version : Option String} {now : ℤ} :
    standing version (some now) none = version := rfl

/-- A new version of a consent that stands leaves it standing. -/
theorem standing_some {consentAt revokedAt : Option ℤ} {stored : Option String} {now : String}
    (versioned : present consentAt → stored.isSome) : standing (some now) consentAt revokedAt =
      (standing stored consentAt revokedAt).map fun _ => now := by
  unfold standing
  split_ifs with stands
  · simp only [Bool.and_eq_true] at stands
    obtain ⟨old, is⟩ := Option.isSome_iff_exists.mp (versioned stands.1)
    rw [is]
    rfl
  · rfl

theorem Reflects.commit (reflects : Reflects row g) (c : Commit) :
    Reflects (commit row c) (g.decide c.version c.decision) := by
  obtain ⟨explanations, brief, versioned⟩ := reflects
  obtain ⟨⟨decision, version, now⟩, previousScopes⟩ := c
  match decision with
  | .allow .all => exact ⟨standing_now, brief, fun _ => rfl⟩
  | .allow .withBrief => exact ⟨standing_now, standing_now, fun _ => rfl⟩
  | .allow .upgrade =>
    exact ⟨(standing_some versioned).trans (congrArg _ explanations), standing_now, fun _ => rfl⟩
  | .notNow .all => exact ⟨standing_none, brief, nofun⟩
  | .notNow .withBrief => exact ⟨standing_none, standing_none, nofun⟩
  | .notNow .upgrade => exact ⟨explanations, standing_none, versioned⟩
  | .revoke none => exact ⟨standing_revoked, standing_revoked, versioned⟩
  | .revoke (some .explanations) => exact ⟨standing_revoked, brief, versioned⟩
  | .revoke (some .brief) => exact ⟨explanations, standing_revoked, versioned⟩

theorem reflects_stored (commits : List Commit) :
    Reflects (stored commits) (grants (commits.map Commit.toRequest)) := by
  induction commits using List.reverseRecOn with
  | nil => exact ⟨rfl, rfl, nofun⟩
  | append_singleton commits c ih =>
    rw [stored, List.foldl_append, List.map_append, List.map_singleton, grants_append]
    exact ih.commit c

theorem Reflects.explanationsConsentActive_iff (reflects : Reflects row g) :
    explanationsConsentActive row version ↔
      g.explanations = some version ∧ hasScope row .explanations := by
  rw [← reflects.explanations, standing]
  by_cases stands : (present row.aiExplanationsConsentAt && !present row.aiExplanationsRevokedAt)
  · simp only [Bool.and_eq_true] at stands
    simp [explanationsConsentActive, stands.1, stands.2]
  · simp only [if_neg stands, reduceCtorEq, false_and, iff_false]
    simp only [Bool.and_eq_true] at stands
    simp only [explanationsConsentActive, Bool.and_eq_true, not_and]
    exact fun both => absurd ⟨both.1.2, both.2⟩ stands

theorem Reflects.briefConsentActive_iff (reflects : Reflects row g) :
    briefConsentActive row version ↔ g.brief = some version ∧ hasScope row .brief := by
  rw [← reflects.brief, standing]
  by_cases stands : (present row.briefAiConsentAt && !present row.briefAiConsentRevokedAt)
  · simp only [Bool.and_eq_true] at stands
    simp [briefConsentActive, stands.1, stands.2]
  · simp only [if_neg stands, reduceCtorEq, false_and, iff_false]
    simp only [Bool.and_eq_true] at stands
    simp only [briefConsentActive, Bool.and_eq_true, not_and]
    exact fun both => absurd ⟨both.1.2, both.2⟩ stands

theorem Reflects.consentActive_iff (reflects : Reflects row g) (scope : Scope) :
    consentActive scope row version ↔ g.of scope = some version ∧ hasScope row scope := by
  cases scope with
  | explanations => exact reflects.explanationsConsentActive_iff
  | brief => exact reflects.briefConsentActive_iff

/-! ## Requests that overlap -/

/-- Whether a decision answers a card that names the scope, or revokes it. -/
def AiConsentDecision.concerns (scope : Scope) : AiConsentDecision → Bool
  | .allow card => scope ∈ scopesAgreedOnCard card
  | .notNow card => scope ∈ scopesAgreedOnCard card
  | .revoke none => true
  | .revoke (some revoked) => revoked = scope

theorem Grants.decide_of_concerns {decision : AiConsentDecision} {scope : Scope}
    (concerns : decision.concerns scope) (granted : (g.decide version decision).of scope ≠ none) :
    (∃ card, decision = .allow card ∧ scope ∈ scopesAgreedOnCard card) ∧
      (g.decide version decision).of scope = some version := by
  match decision with
  | .allow card =>
    refine ⟨⟨card, rfl, of_decide_eq_true concerns⟩, ?_⟩
    cases scope <;> cases card <;> first | rfl | cases concerns
  | .notNow card => cases scope <;> cases card <;> first | exact absurd rfl granted | cases concerns
  | .revoke none => cases scope <;> exact absurd rfl granted
  | .revoke (some revoked) =>
    cases scope <;> cases revoked <;> first | exact absurd rfl granted | cases concerns

theorem Grants.decide_of_not_concerns {decision : AiConsentDecision} {scope : Scope}
    (other : decision.concerns scope = false) : (g.decide version decision).of scope =
      if decision = .allow .upgrade then (g.of scope).map fun _ => version else g.of scope := by
  match decision with
  | .allow card => cases scope <;> cases card <;> first | rfl | cases other
  | .notNow card => cases scope <;> cases card <;> first | rfl | cases other
  | .revoke none => cases other
  | .revoke (some revoked) => cases scope <;> cases revoked <;> first | rfl | cases other

/-- A grant stands if the last decision about the scope was to allow it. Its version is the one
that was allowed, or that of an upgrade since. -/
theorem decided_of_grants {requests : List Request} {scope : Scope}
    (granted : (grants requests).of scope = some version) :
    ∃ before r after, requests = before ++ r :: after ∧
      (∃ card, r.decision = .allow card ∧ scope ∈ scopesAgreedOnCard card) ∧
      (∀ later ∈ after, later.decision.concerns scope = false) ∧
      ∃ latest ∈ r :: after, latest.version = version ∧
        (latest = r ∨ latest.decision = .allow .upgrade) := by
  induction requests using List.reverseRecOn generalizing version with
  | nil => cases scope <;> cases granted
  | append_singleton requests r ih =>
    rw [grants_append] at granted
    by_cases concerns : r.decision.concerns scope
    · have given : ((grants requests).decide r.version r.decision).of scope ≠ none := by
        simp [granted]
      obtain ⟨allowed, is⟩ := Grants.decide_of_concerns concerns given
      exact ⟨requests, r, [], rfl, allowed, by simp, r, by simp,
        Option.some.inj (is.symm.trans granted), .inl rfl⟩
    rw [Bool.not_eq_true] at concerns
    rw [Grants.decide_of_not_concerns concerns] at granted
    -- An upgrade leaves the decision in place, and dates it anew.
    have older (version' : String) (granted' : (grants requests).of scope = some version') :
        ∃ before r' after, requests ++ [r] = before ++ r' :: after ∧
          (∃ card, r'.decision = .allow card ∧ scope ∈ scopesAgreedOnCard card) ∧
          (∀ later ∈ after, later.decision.concerns scope = false) ∧ r ∈ after ∧
          ∃ latest ∈ r' :: after, latest.version = version' ∧
            (latest = r' ∨ latest.decision = .allow .upgrade) := by
      obtain ⟨before, r', after, rfl, allowed, quiet, latest, mem, is, by_⟩ := ih granted'
      refine ⟨before, r', after ++ [r], by simp, allowed, ?_, by simp, latest, ?_, is, by_⟩
      · intro later mem
        rcases List.mem_append.mp mem with mem | mem
        · exact quiet later mem
        · rwa [List.mem_singleton.mp mem]
      · rw [← List.cons_append]
        exact List.mem_append_left _ mem
    split_ifs at granted with upgrade
    · obtain ⟨version', granted', rfl⟩ := Option.map_eq_some_iff.mp granted
      obtain ⟨before, r', after, split, allowed, quiet, last, -⟩ := older version' granted'
      exact ⟨before, r', after, split, allowed, quiet, r, List.mem_cons_of_mem _ last, rfl,
        .inr upgrade⟩
    · obtain ⟨before, r', after, split, allowed, quiet, -, latest⟩ := older version granted
      exact ⟨before, r', after, split, allowed, quiet, latest⟩

/-- In whatever order requests read and write the row, a scope is active only if the last decision
that was written about it allowed it, on a card that names it. -/
theorem allowed_of_consentActive (commits : List Commit) (scope : Scope)
    (active : consentActive scope (stored commits) version) :
    ∃ before r after, commits.map Commit.toRequest = before ++ r :: after ∧
      (∃ card, r.decision = .allow card ∧ scope ∈ scopesAgreedOnCard card) ∧
      (∀ later ∈ after, later.decision.concerns scope = false) ∧
      ∃ latest ∈ r :: after, latest.version = version ∧
        (latest = r ∨ latest.decision = .allow .upgrade) :=
  decided_of_grants (((reflects_stored commits).consentActive_iff scope).mp active).1

/-- The Brief is allowed while a request that has read the row before answers the plain card. -/
def overtaken : List Commit :=
  [⟨⟨.allow .withBrief, "2026-10", 1⟩, none⟩, ⟨⟨.allow .all, "2026-10", 2⟩, none⟩]

theorem allowed_of_consentActive_overtaken :
    ∃ before r after, overtaken.map Commit.toRequest = before ++ r :: after ∧
      (∃ card, r.decision = .allow card ∧ Scope.explanations ∈ scopesAgreedOnCard card) ∧
      (∀ later ∈ after, later.decision.concerns .explanations = false) ∧
      ∃ latest ∈ r :: after, latest.version = "2026-10" ∧
        (latest = r ∨ latest.decision = .allow .upgrade) :=
  allowed_of_consentActive overtaken .explanations (by decide)

/-- The grant of the Brief is lost. -/
example : (grants (overtaken.map Commit.toRequest)).brief = some "2026-10" ∧
    consentActive .brief (stored overtaken) "2026-10" = false := by decide

/-! ## Requests one after the other -/

theorem hasScope_allow {card : AiConsentCard} {scope : Scope} {now : ℤ}
    (agreed : scope ∈ scopesAgreedOnCard card) :
    hasScope (applyAiConsent row ⟨.allow card, version, now⟩) scope := by
  have scopes : (applyAiConsent row ⟨.allow card, version, now⟩).aiConsentScopes =
      some (allowScopes card row.aiConsentScopes) := by cases card <;> rfl
  cases scope <;> simp [hasScope, scopes, allowScopes, agreed]

theorem explanations_mem_allowScopes {previous : Option (List Scope)}
    (prior : (previous.getD []).contains .explanations) :
    (allowScopes .upgrade previous).contains .explanations := by
  simp_all [allowScopes]

theorem brief_mem_allowScopes {previous : Option (List Scope)}
    (prior : (previous.getD []).contains .brief) : (allowScopes .all previous).contains .brief := by
  simp_all [allowScopes]

theorem Listed.applyAiConsent (listed : Listed row g) (r : Request) :
    Listed (applyAiConsent row r) (g.decide r.version r.decision) := by
  obtain ⟨explanations, brief⟩ := listed
  obtain ⟨decision, version, now⟩ := r
  match decision with
  | .allow .all =>
    exact ⟨fun _ => hasScope_allow (by decide),
      fun granted => brief_mem_allowScopes (brief granted)⟩
  | .allow .withBrief =>
    exact ⟨fun _ => hasScope_allow (by decide),
      fun _ => hasScope_allow (by decide)⟩
  | .allow .upgrade =>
    refine ⟨fun granted => explanations_mem_allowScopes (explanations ?_),
      fun _ => hasScope_allow (by decide)⟩
    exact (Option.isSome_map ..).symm.trans granted
  | .notNow .all => exact ⟨nofun, brief⟩
  | .notNow .withBrief => exact ⟨nofun, nofun⟩
  | .notNow .upgrade => exact ⟨explanations, nofun⟩
  | .revoke none => exact ⟨nofun, nofun⟩
  | .revoke (some .explanations) => exact ⟨nofun, brief⟩
  | .revoke (some .brief) => exact ⟨explanations, nofun⟩

theorem reflects_applied (requests : List Request) :
    Reflects (applied requests) (grants requests) ∧
      Listed (applied requests) (grants requests) := by
  induction requests using List.reverseRecOn with
  | nil => exact ⟨⟨rfl, rfl, nofun⟩, ⟨nofun, nofun⟩⟩
  | append_singleton requests r ih =>
    rw [applied, List.foldl_append, grants_append]
    exact ⟨ih.1.commit _, ih.2.applyAiConsent r⟩

theorem consentActive_of_reflects (reflects : Reflects row g) (listed : Listed row g)
    (scope : Scope) : consentActive scope row version ↔ g.of scope = some version := by
  rw [reflects.consentActive_iff]
  refine and_iff_left_of_imp fun granted => ?_
  cases scope with
  | explanations => exact listed.explanations (Option.isSome_of_eq_some granted)
  | brief => exact listed.brief (Option.isSome_of_eq_some granted)

/-- Requests that do not overlap lose nothing: the gate lets through what is granted. -/
theorem consentActive_iff_granted (requests : List Request) (scope : Scope) (version : String) :
    consentActive scope (applied requests) version ↔
      (grants requests).of scope = some version :=
  consentActive_of_reflects (reflects_applied requests).1 (reflects_applied requests).2 scope

/-! ## Cards -/

theorem explanationsRaw_allowed :
    explanationsRaw row version = .allowed ↔ explanationsConsentActive row version := by
  unfold explanationsRaw
  split_ifs with old active off <;> simp_all [explanationsConsentActive, outdated]

theorem briefRaw_allowed : briefRaw row version = .allowed ↔ briefConsentActive row version := by
  unfold briefRaw
  split_ifs with old active declined off <;> simp_all [briefConsentActive, outdated]

theorem explanationsRaw_ne_paused : explanationsRaw row version ≠ .paused := by
  unfold explanationsRaw
  split_ifs <;> nofun

theorem briefRaw_ne_paused : briefRaw row version ≠ .paused := by
  unfold briefRaw
  split_ifs <;> nofun

/-- The upgrade is offered where the explanations are allowed and the Brief is not, and either of
the other cards where the explanations are not. -/
theorem consentCard_some {view : AiConsentView} {briefCapable : Bool} {card : AiConsentCard}
    (shown : consentCard view briefCapable = some card) :
    (briefCapable ↔ card ≠ .all) ∧ (view.explanations = .allowed ↔ card = .upgrade) ∧
      (card = .upgrade → view.brief ≠ .allowed) := by
  obtain ⟨explanations, brief, reask⟩ := view
  simp only [consentCard, Bool.and_eq_true, Bool.or_eq_true, decide_eq_true_eq,
    Bool.not_eq_true'] at shown
  cases briefCapable <;> split_ifs at shown <;> grind

theorem outdated_some : outdated (some version) version = false := by simp [outdated]

theorem outdated_of_active (active : explanationsConsentActive row version) :
    outdated row.aiConsentVersion version = false := by
  simp_all [explanationsConsentActive, outdated]

theorem explanationsRaw_off (current : row.aiConsentVersion = some version)
    (undated : row.aiExplanationsConsentAt = none) (declined : present row.aiConsentDeclinedAt) :
    explanationsRaw row version = .off := by
  have inactive : explanationsConsentActive row version = false := by
    simp [explanationsConsentActive, undated, present]
  simp [explanationsRaw, current, inactive, declined, outdated_some]

theorem briefRaw_declined (current : row.briefAiConsentVersion = some version)
    (undated : row.briefAiConsentAt = none) (declined : present row.briefAiDeclinedAt) :
    briefRaw row version = .declined := by
  have inactive : briefConsentActive row version = false := by
    simp [briefConsentActive, undated, present]
  have undated' : present row.briefAiConsentAt = false := congrArg present undated
  simp [briefRaw, current, undated', inactive, declined, outdated_some]

theorem consentCard_off {view : AiConsentView} {briefCapable : Bool}
    (off : view.explanations = .off) (running : view.brief ≠ .paused) :
    consentCard view briefCapable = none ↔ view.reask = false := by
  cases asked : view.reask <;> simp [consentCard, off, running, asked]

theorem consentCard_declined {view : AiConsentView} {briefCapable : Bool}
    (explanations : view.explanations = .allowed) (brief : view.brief = .declined)
    (settled : view.reask = false) : consentCard view briefCapable = none := by
  simp [consentCard, explanations, brief, settled]

theorem consentCard_none {view : AiConsentView} {briefCapable : Bool}
    (explanations : view.explanations = .allowed) (brief : briefCapable → view.brief = .allowed) :
    consentCard view briefCapable = none := by
  cases briefCapable <;> simp_all [consentCard]

variable {requests : List Request} {briefCapable : Bool} {card : AiConsentCard}

theorem consentActive_applyAiConsent (scope : Scope) (r : Request) {version : String} :
    consentActive scope (applyAiConsent (applied requests) r) version ↔
      ((grants requests).decide r.version r.decision).of scope = some version := by
  have after : applied (requests ++ [r]) = applyAiConsent (applied requests) r :=
    List.foldl_append ..
  rw [← after, ← grants_append]
  have reflects := reflects_applied (requests ++ [r])
  exact consentActive_of_reflects reflects.1 reflects.2 scope

/-- To allow a card makes active what it names, and leaves the rest as it is. Where the card is the
upgrade, the explanations have to be active. -/
theorem consentActive_allow (now : ℤ) (scope : Scope) {version version' : String}
    (upgrade : card = .upgrade → explanationsConsentActive (applied requests) version) :
    consentActive scope (applyAiConsent (applied requests) ⟨.allow card, version, now⟩) version' ↔
      if scope ∈ scopesAgreedOnCard card then version' = version
      else consentActive scope (applied requests) version' := by
  have before := reflects_applied requests
  rw [consentActive_applyAiConsent, consentActive_of_reflects before.1 before.2]
  split_ifs with named
  · have granted : ((grants requests).decide version (.allow card)).of scope = some version := by
      cases scope <;> cases card <;> first | rfl | exact absurd named (by decide)
    simp [granted, eq_comm]
  have other : (AiConsentDecision.allow card).concerns scope = false := decide_eq_false named
  rw [Grants.decide_of_not_concerns other]
  split_ifs with upgraded
  · -- The explanations, which are allowed under the version of the card.
    obtain rfl := AiConsentDecision.allow.inj upgraded
    have active := (consentActive_of_reflects before.1 before.2 .explanations).mp (upgrade rfl)
    cases scope with
    | explanations => simp [active]
    | brief => exact absurd (by decide) named
  · rfl

/-- To decline a card ends what it names, and leaves the rest as it is. -/
theorem consentActive_notNow (card : AiConsentCard) (now : ℤ) (scope : Scope)
    {version version' : String} :
    consentActive scope (applyAiConsent (applied requests) ⟨.notNow card, version, now⟩) version' ↔
      scope ∉ scopesAgreedOnCard card ∧ consentActive scope (applied requests) version' := by
  have before := reflects_applied requests
  rw [consentActive_applyAiConsent, consentActive_of_reflects before.1 before.2]
  by_cases named : scope ∈ scopesAgreedOnCard card
  · have ended : ((grants requests).decide version (.notNow card)).of scope = none := by
      cases scope <;> cases card <;> first | rfl | exact absurd named (by decide)
    simp [named, ended]
  · have other : (AiConsentDecision.notNow card).concerns scope = false := decide_eq_false named
    rw [Grants.decide_of_not_concerns other, if_neg nofun]
    simp [named]

/-- To allow the card that is shown makes active what the card names, leaves the rest as it is, and
puts the card away. -/
theorem shown_card_allowed (now : ℤ)
    (shown : consentCard (aiConsentView (applied requests) version) briefCapable = some card) :
    (∀ scope version', consentActive scope (applyAiConsent (applied requests)
        ⟨.allow card, version, now⟩) version' ↔
      if scope ∈ scopesAgreedOnCard card then version' = version
      else consentActive scope (applied requests) version') ∧
    consentCard (aiConsentView (applyAiConsent (applied requests) ⟨.allow card, version, now⟩)
      version) briefCapable = none := by
  obtain ⟨capable, allowed, -⟩ := consentCard_some shown
  have active (is : card = .upgrade) : explanationsConsentActive (applied requests) version :=
    explanationsRaw_allowed.mp (allowed.mpr is)
  refine ⟨fun scope _ => consentActive_allow now scope active,
    consentCard_none (explanationsRaw_allowed.mpr ?_) fun able => briefRaw_allowed.mpr ?_⟩
  · refine (consentActive_allow now .explanations active).mpr ?_
    cases card with
    | all | withBrief => rfl
    | upgrade => exact active rfl
  · refine (consentActive_allow now .brief active).mpr ?_
    cases card with
    | all => exact absurd rfl (capable.mp able)
    | withBrief | upgrade => rfl

theorem shown_card_allowed_first :
    consentCard (aiConsentView (applyAiConsent (applied []) ⟨.allow .withBrief, "2026-10", 1⟩)
      "2026-10") true = none :=
  (shown_card_allowed 1 (by decide)).2

/-- To decline the card that is shown ends what the card names, and leaves the rest as it is. It
puts the card away, but for the plain one: that stays while an answer about the Brief under another
version is kept. -/
theorem shown_card_declined (now : ℤ)
    (shown : consentCard (aiConsentView (applied requests) version) briefCapable = some card) :
    (∀ scope version', consentActive scope (applyAiConsent (applied requests)
        ⟨.notNow card, version, now⟩) version' ↔
      scope ∉ scopesAgreedOnCard card ∧ consentActive scope (applied requests) version') ∧
    (consentCard (aiConsentView (applyAiConsent (applied requests) ⟨.notNow card, version, now⟩)
        version) briefCapable = none ↔
      (card = .all → outdated (applied requests).briefAiConsentVersion version = false)) := by
  obtain ⟨-, allowed, -⟩ := consentCard_some shown
  refine ⟨fun scope _ => consentActive_notNow card now scope, ?_⟩
  cases card with
  | all =>
    refine (consentCard_off (explanationsRaw_off rfl rfl rfl) briefRaw_ne_paused).trans ?_
    change (outdated (some version) version || outdated _ version) = false ↔ _
    rw [outdated_some, Bool.false_or]
    exact ⟨fun fresh _ => fresh, fun settled => settled rfl⟩
  | withBrief =>
    refine (consentCard_off (explanationsRaw_off rfl rfl rfl) briefRaw_ne_paused).trans ?_
    change (outdated (some version) version || outdated (some version) version) = false ↔ _
    simp [outdated_some]
  | upgrade =>
    have still : explanationsConsentActive (applyAiConsent (applied requests)
        ⟨.notNow .upgrade, version, now⟩) version :=
      (consentActive_notNow .upgrade now .explanations).mpr
        ⟨by decide, explanationsRaw_allowed.mp (allowed.mpr rfl)⟩
    refine iff_of_true (consentCard_declined (explanationsRaw_allowed.mpr still)
      (briefRaw_declined rfl rfl rfl) ?_) nofun
    change (outdated _ version || outdated (some version) version) = false
    rw [outdated_some, Bool.or_false]
    exact outdated_of_active still

theorem shown_card_declined_first :
    consentCard (aiConsentView (applyAiConsent (applied []) ⟨.notNow .all, "2026-10", 1⟩)
      "2026-10") false = none :=
  (shown_card_declined 1 (by decide)).2.mpr fun _ => rfl

end DeclutrMail.Consent
