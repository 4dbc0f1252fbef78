import DeclutrMail.Billing.Entitlements

/-!
# What a billing event makes of a subscription row

The decisions of `BillingWebhookService` about one row of `subscriptions`, without the
transaction around them: is a payload stale, what does a snapshot write, what do the verdict
writers write.
-/

namespace DeclutrMail.Billing

structure NormalizedSubscription where
  providerSubscriptionId : String
  providerCustomerId : Option String
  providerPriceId : String
  status : SubscriptionStatus
  currentPeriodEnd : Option ℤ
  cancelAtPeriodEnd : Bool
  pauseUntil : Option ℤ
  workspaceId : Option WorkspaceId
  checkoutAttemptId : Option String
  foundingAllocationEligible : Option Bool
  deriving DecidableEq, Repr

/-- What the catalog knows of a price. -/
structure CatalogEntry where
  tierId : TierId
  cycle : BillingCycle
  founding : Bool
  deriving DecidableEq, Repr

inductive ScheduledReason where
  | refund | chargeback | providerScheduled
  deriving DecidableEq, Repr

inductive RevokedReason where
  | chargebackReverse | refundRejected
  deriving DecidableEq, Repr

/-! ## Staleness -/

/-- `toMillis`: digits are seconds, everything else is left to `Date.parse`. -/
def toMillis (dateParse : String → Option ℤ) : Option String → Option ℤ
  | none => none
  | some value =>
    if value ≠ "" ∧ value.toList.all Char.isDigit then some (value.toNat! * 1000)
    else dateParse value

/-- A processed event that wrote, or may have written, the state of the subscription. -/
structure Peer where
  arrivalSeq : ℕ
  occurredAt : Option String
  status : Option SubscriptionStatus

/-- `isNewer`: event times decide; on a tie, or without them, arrival does, and a granting
event does not overwrite a peer that does not grant. -/
def isNewer (dateParse : String → Option ℤ) (selfMs : Option ℤ) (selfSeq : ℕ)
    (selfStatus : SubscriptionStatus) (peer : Peer) : Bool :=
  let fallback := decide (selfSeq < peer.arrivalSeq) ||
    selfStatus.granting && peer.status.any fun status => !status.granting
  match toMillis dateParse peer.occurredAt, selfMs with
  | some peerMs, some selfMs => if peerMs ≠ selfMs then decide (selfMs < peerMs) else fallback
  | _, _ => fallback

/-! ## The snapshot of a subscription -/

/-- `DUNNING_WINDOW_MS`. -/
def dunningWindowMs : ℤ := 14 * 24 * 60 * 60 * 1000

/-- `REFUND_PENDING_GRACE_DAYS`, in milliseconds. -/
def refundPendingGraceMs : ℤ := 7 * 24 * 60 * 60 * 1000

/-- A scheduled change against the payload that arrives. -/
structure ScheduledView where
  matchesTarget : Bool
  applied : Bool
  restoreConfirmed : Bool
  restoreFailedAtRenewal : Bool
  maskRestoreInFlight : Bool

def viewScheduled (current : Subscription) (change : ScheduledChange) (sub : NormalizedSubscription)
    (selfMs : Option ℤ) : ScheduledView :=
  let restoring := change.state = .restoringCurrent
  let matchesTarget := change.providerPriceId = sub.providerPriceId
  let renewed := sub.currentPeriodEnd.any fun at_ => decide (change.changeAt < at_)
  let answered := selfMs.any fun ms => decide (change.requestedAt ≤ ms)
  let confirmed := restoring && current.providerPriceId = sub.providerPriceId && answered
  let failed := restoring && matchesTarget && renewed && answered
  { matchesTarget
    applied := matchesTarget && !restoring && renewed
    restoreConfirmed := confirmed
    restoreFailedAtRenewal := failed
    maskRestoreInFlight := restoring && !confirmed && !failed }

def ScheduledView.masks (view : ScheduledView) (status : SubscriptionStatus) : Bool :=
  (view.matchesTarget && !view.applied && !view.restoreFailedAtRenewal || view.maskRestoreInFlight) &&
    status != .canceled

def ScheduledView.clears (view : ScheduledView) (status : SubscriptionStatus) : Bool :=
  view.applied || view.restoreConfirmed || view.restoreFailedAtRenewal || status == .canceled

/-- The row without a scheduled change that a snapshot masks. -/
structure EffectivePlan where
  tier : TierId
  billingCycle : BillingCycle
  providerPriceId : String
  scheduled : Option ScheduledChange

def effectivePlan (entry : CatalogEntry) (sub : NormalizedSubscription) (selfMs : Option ℤ) :
    Option Subscription → EffectivePlan
  | none => ⟨entry.tierId, entry.cycle, sub.providerPriceId, none⟩
  | some current =>
    match current.scheduled with
    | none => ⟨entry.tierId, entry.cycle, sub.providerPriceId, none⟩
    | some change =>
      let view := viewScheduled current change sub selfMs
      let state := if view.matchesTarget && change.state = .pendingProvider then .scheduled
        else change.state
      let scheduled := if view.clears sub.status then none else some { change with state }
      if view.masks sub.status then
        ⟨current.tier, current.billingCycle, current.providerPriceId, scheduled⟩
      else ⟨entry.tierId, entry.cycle, sub.providerPriceId, scheduled⟩

/-- A refund or chargeback verdict, which outlives provider payloads. -/
def Subscription.localVerdict (s : Subscription) : Bool :=
  s.cancelSource = some .refund || s.cancelSource = some .chargeback

/-- The row that `applySubscription` upserts. -/
def nextSubscription (provider : BillingProviderId) (workspaceId : WorkspaceId)
    (entry : CatalogEntry) (sub : NormalizedSubscription) (selfMs : Option ℤ) (now : ℤ)
    (founding : Bool) (current : Option Subscription) : Subscription :=
  let plan := effectivePlan entry sub selfMs current
  let verdict := current.any (·.localVerdict)
  let periodEnd := sub.currentPeriodEnd.or
    (if sub.status = .paused then current.bind (·.currentPeriodEnd) else none)
  { workspaceId := (current.map (·.workspaceId)).getD workspaceId
    provider
    providerSubscriptionId := sub.providerSubscriptionId
    tier := plan.tier
    status := sub.status
    providerPriceId := plan.providerPriceId
    billingCycle := plan.billingCycle
    currentPeriodEnd := periodEnd
    cancelAtPeriodEnd := if verdict then true else sub.cancelAtPeriodEnd
    cancelSource := if verdict then current.bind (·.cancelSource)
      else if sub.status = .canceled then some .provider else none
    entitlementEndsAt := if verdict then current.bind (·.entitlementEndsAt)
      else if sub.status = .pastDue then some (periodEnd.getD now + dunningWindowMs) else none
    pauseUntil := sub.pauseUntil
    foundingMember := founding
    scheduled := plan.scheduled }

/-- `canceled_is_terminal`: the floor under a row that is canceled. -/
def belowFloor (current : Option Subscription) (sub : NormalizedSubscription) : Bool :=
  current.any (·.status = .canceled) && sub.status != .canceled

/-! ## The verdict writers -/

def ScheduledReason.cancelSource : ScheduledReason → CancelSource
  | .refund => .refund
  | .chargeback => .chargeback
  | .providerScheduled => .provider

/-- The deadline that `applyScheduledCancellation` writes. -/
def ScheduledReason.deadline (reason : ScheduledReason) (currentPeriodEnd : Option ℤ) (now : ℤ) : ℤ :=
  if reason = .chargeback then now
  else min (now + refundPendingGraceMs) (currentPeriodEnd.getD now)

/-- The `UPDATE` of `applyScheduledCancellation`. -/
def Subscription.scheduleCancellation (s : Subscription) (reason : ScheduledReason) (now : ℤ) :
    Subscription :=
  { s with
    cancelAtPeriodEnd := true
    cancelSource := some reason.cancelSource
    entitlementEndsAt := some (reason.deadline s.currentPeriodEnd now) }

/-- The `WHERE` of `applyRefundSettlement`. -/
def Subscription.settleable (s : Subscription) : Bool :=
  s.cancelSource = some .refund && s.status != .canceled

/-- The `UPDATE` of `applyRefundSettlement`. -/
def Subscription.settleRefund (s : Subscription) (now : ℤ) : Subscription :=
  if s.settleable then { s with status := .canceled, entitlementEndsAt := some now } else s

/-- The verdict that a reversal or rejection voids. -/
def RevokedReason.voided : RevokedReason → CancelSource
  | .chargebackReverse => .chargeback
  | .refundRejected => .refund

/-- The `UPDATE` of `applyRevokedCancellation`. -/
def Subscription.revokeCancellation (s : Subscription) (reason : RevokedReason) : Subscription :=
  if s.cancelSource = some reason.voided then
    { s with cancelSource := none, entitlementEndsAt := none }
  else s

/-! ## What the writers keep -/

section Laws

variable {s : Subscription} {provider : BillingProviderId} {workspaceId : WorkspaceId}
  {entry : CatalogEntry} {sub : NormalizedSubscription} {selfMs : Option ℤ} {now : ℤ}
  {founding : Bool} {current : Option Subscription} {dateParse : String → Option ℤ}

@[simp] theorem status_nextSubscription :
    (nextSubscription provider workspaceId entry sub selfMs now founding current).status =
      sub.status := rfl

@[simp] theorem provider_nextSubscription :
    (nextSubscription provider workspaceId entry sub selfMs now founding current).provider =
      provider := rfl

@[simp] theorem providerSubscriptionId_nextSubscription :
    (nextSubscription provider workspaceId entry sub selfMs now founding
      current).providerSubscriptionId = sub.providerSubscriptionId := rfl

/-- A local verdict and its deadline are sticky. -/
theorem nextSubscription_of_localVerdict (h : s.localVerdict = true) :
    (nextSubscription provider workspaceId entry sub selfMs now founding (some s)).cancelSource =
        s.cancelSource ∧
      (nextSubscription provider workspaceId entry sub selfMs now founding
        (some s)).entitlementEndsAt = s.entitlementEndsAt := by
  simp [nextSubscription, h]

/-- A snapshot makes no verdict. -/
theorem localVerdict_nextSubscription (h : current.any (·.localVerdict) = false) :
    (nextSubscription provider workspaceId entry sub selfMs now founding current).localVerdict =
      false := by
  have source : (nextSubscription provider workspaceId entry sub selfMs now founding
      current).cancelSource = if sub.status = .canceled then some .provider else none := by
    simp [nextSubscription, h]
  rw [Subscription.localVerdict, source]
  split_ifs <;> rfl

theorem settleable_iff : s.settleable = true ↔ s.cancelSource = some .refund ∧ s.status ≠ .canceled := by
  simp [Subscription.settleable]

/-- A peer with a later event time is newer. -/
theorem isNewer_of_later {selfSeq : ℕ} {selfStatus : SubscriptionStatus} {peer : Peer} {a b : ℤ}
    (theirs : toMillis dateParse peer.occurredAt = some a) (apart : a ≠ b) :
    isNewer dateParse (some b) selfSeq selfStatus peer = decide (b < a) := by
  simp [isNewer, theirs, apart]

/-- On a tie, a granting event is refused by a peer that does not grant. -/
theorem isNewer_of_tie {selfSeq : ℕ} {selfStatus status : SubscriptionStatus} {peer : Peer}
    (tie : toMillis dateParse peer.occurredAt = selfMs) (grants : selfStatus.granting = true)
    (theirs : peer.status = some status) (denies : status.granting = false) :
    isNewer dateParse selfMs selfSeq selfStatus peer = true := by
  unfold isNewer
  rw [tie]
  cases selfMs <;> simp [grants, theirs, denies]

end Laws

end DeclutrMail.Billing
