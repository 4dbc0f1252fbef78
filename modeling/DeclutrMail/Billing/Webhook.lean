import DeclutrMail.Billing.Events
import DeclutrMail.Interleaving.Program

/-!
# The billing webhook

`BillingWebhookService.process` as a program: every statement outside a transaction is a
request, and so is every transaction. What other modules answer (checkout attempts, the policy
of upgrade refunds, the provider) is a request too.
-/

namespace DeclutrMail.Billing

open Interleaving

/-- The paid checkout attempt that a subscription is bound to. -/
structure CheckoutBinding where
  id : String
  workspaceId : WorkspaceId
  providerPriceId : String
  deriving DecidableEq, Repr

inductive UpgradeRefundDecision where
  | ordinary
  | inert
  | hold
  | restored (sub : NormalizedSubscription) (confirmedAt adjustmentId intentId : String)
  deriving DecidableEq, Repr

/-- What the provider's own record says about ending a subscription. -/
structure UpgradeRefundFact where
  adjustmentId : String
  transactionId : String
  status : String
  deriving DecidableEq, Repr

structure ProviderCancellationFacts where
  settled : Option CancelSource
  refutedRefund : Bool
  refutedChargeback : Bool
  upgradeRefunds : List UpgradeRefundFact
  deriving DecidableEq, Repr

inductive FetchSubscriptionResult where
  | notFound
  | found (sub : NormalizedSubscription)
  | foundUnmapped
  deriving DecidableEq, Repr

/-- A row that the verdict pass selects. -/
structure VerdictRow where
  key : SubscriptionKey
  cancelSource : Option CancelSource
  status : SubscriptionStatus
  deriving DecidableEq, Repr

inductive Request where
  | insertEvent (k : EventKey) (e : BillingEvent)
  | selectProcessed (k : EventKey)
  | recordCheckoutPayment (payment : Payment)
  | resolveUpgradeRefund (k : EventKey)
  | confirmProjectedRestoration (k : EventKey)
  | classify (k : EventKey) (providerSubscriptionId : Option String)
  | selectSubscription (key : SubscriptionKey)
  | selectBinding (providerSubscriptionId : String)
  | selectCustomer (provider : BillingProviderId) (providerCustomerId : String)
  | selectWorkspace (workspaceId : WorkspaceId)
  | selectAttempts (workspaceId : WorkspaceId)
  | applySubscription (k : EventKey) (sub : NormalizedSubscription)
      (restoration : Option UpgradeRefundRestoration) (workspaceId : WorkspaceId)
      (entry : CatalogEntry)
  | fulfillCheckoutAttempt (workspaceId : WorkspaceId)
  | applyScheduledCancellation (k : EventKey) (providerSubscriptionId : String)
      (reason : ScheduledReason)
  | applyRefundSettlement (k : EventKey) (providerSubscriptionId : String)
  | applyRevokedCancellation (k : EventKey) (providerSubscriptionId : String)
      (reason : RevokedReason)
  | observeCompletedTransaction (providerSubscriptionId : String)
  | addCustomer (workspaceId : WorkspaceId) (provider : BillingProviderId)
      (providerCustomerId : String)
  | markProcessed (k : EventKey)
  | grantPass (workspaceId : WorkspaceId) (txn : String)
  | projectPass (k : EventKey) (workspaceId : WorkspaceId)
  | applyPassRevoked (k : EventKey) (txn : String)
  | verdictStopped
  | currentTime
  | selectUpgradeRows
  | upgradeRecords (providerSubscriptionId : String)
  | selectVerdictRows
  | fetchSubscription (key : SubscriptionKey)
  | providerCancellationFacts (key : SubscriptionKey)
  | cancelSubscription (key : SubscriptionKey)

abbrev Request.Answer : Request → Type
  | .insertEvent .. | .recordCheckoutPayment _ | .confirmProjectedRestoration _
  | .selectAttempts _ | .applyScheduledCancellation .. | .applyRefundSettlement ..
  | .applyRevokedCancellation .. | .applyPassRevoked .. | .verdictStopped | .upgradeRecords _ => Bool
  | .selectProcessed _ => Option Bool
  | .resolveUpgradeRefund _ => UpgradeRefundDecision
  | .selectSubscription _ | .selectCustomer .. | .selectWorkspace _ => Option WorkspaceId
  | .selectBinding _ => Option CheckoutBinding
  | .applySubscription .. => SnapshotOutcome
  | .grantPass .. => PassGrantResult
  | .currentTime => String
  | .selectUpgradeRows => List String
  | .selectVerdictRows => List VerdictRow
  | .fetchSubscription _ => FetchSubscriptionResult
  | .providerCancellationFacts _ => Option ProviderCancellationFacts
  | .classify .. | .fulfillCheckoutAttempt _ | .observeCompletedTransaction _ | .addCustomer ..
  | .markProcessed _ | .projectPass .. | .cancelSubscription _ => Unit

abbrev BillingSignature : Signature := ⟨Request, Request.Answer, BillingError⟩

abbrev BillingProgram (α : Type) := Program BillingSignature α

def ask (q : Request) : BillingProgram q.Answer := Program.perform (S := BillingSignature) q

inductive UnresolvedReason where
  | unknownPrice | unattributable | liveConflict
  deriving DecidableEq, Repr

inductive WebhookProcessOutcome where
  | processed (effect : String)
  | duplicate
  | ignored
  | unresolved (reason : UnresolvedReason)
  deriving DecidableEq, Repr

/-! ## The source's words for statuses and reasons -/

def SubscriptionStatus.text : SubscriptionStatus → String
  | .active => "active"
  | .pastDue => "past_due"
  | .canceled => "canceled"
  | .paused => "paused"

def ScheduledReason.text : ScheduledReason → String
  | .refund => "refund"
  | .chargeback => "chargeback"
  | .providerScheduled => "provider_scheduled"

def RevokedReason.text : RevokedReason → String
  | .chargebackReverse => "chargeback_reverse"
  | .refundRejected => "refund_rejected"

def PassRevokedReason.text : PassRevokedReason → String
  | .refund => "refund"
  | .chargeback => "chargeback"

def PaymentOutcome.text : PaymentOutcome → String
  | .succeeded => "succeeded"
  | .failed => "failed"

def PassGrantResult.text : PassGrantResult → String
  | .granted .. => "granted"
  | .extended .. => "extended"
  | .duplicate .. => "duplicate"
  | .noEmail => "no_email"

def UpgradeRefundDecision.text : UpgradeRefundDecision → String
  | .ordinary => "ordinary"
  | .inert => "inert"
  | .hold => "hold"
  | .restored .. => "restored"

/-! ## The dedup gate -/

/-- Record the event, or resume one that was not processed: whether to go on. -/
def receive (k : EventKey) (e : BillingEvent) : BillingProgram Bool := do
  if ← ask (.insertEvent k e) then return true
  match ← ask (.selectProcessed k) with
  | some false => return true
  | _ => return false

/-! ## Subscription events -/

/-- `/^[0-9a-f-]{36}$/i`. -/
def uuidShaped (id : String) : Bool :=
  decide (id.length = 36) &&
    id.toList.all fun c => c.isDigit || decide (c = '-') ||
      decide (c.toLower ∈ ['a', 'b', 'c', 'd', 'e', 'f'])

def customerWorkspace (provider : BillingProviderId) :
    Option String → BillingProgram (Option WorkspaceId)
  | none => return none
  | some customer => ask (.selectCustomer provider customer)

def attributedWorkspace : Option WorkspaceId → BillingProgram (Option WorkspaceId)
  | none => return none
  | some id => if uuidShaped id then ask (.selectWorkspace id) else return none

def resolveWorkspace (provider : BillingProviderId) (sub : NormalizedSubscription) :
    BillingProgram (Option WorkspaceId) := do
  match ← ask (.selectSubscription (provider, sub.providerSubscriptionId)) with
  | some w => return some w
  | none =>
    match ← customerWorkspace provider sub.providerCustomerId with
    | some w => return some w
    | none => attributedWorkspace sub.workspaceId

/-- The attempt's workspace may be taken for the snapshot. -/
def CheckoutBinding.admits (binding : CheckoutBinding) (sub : NormalizedSubscription) : Bool :=
  sub.workspaceId.all (· = binding.workspaceId) && sub.checkoutAttemptId.all (· = binding.id) &&
    decide (sub.providerPriceId = binding.providerPriceId)

def hasAttempts : Option WorkspaceId → BillingProgram Bool
  | none => return false
  | some w => ask (.selectAttempts w)

/-- A first snapshot of a Paddle subscription needs a paid attempt, unless the checkout was not
durable. The answer is the workspace found, or nothing if the event stays unresolved. -/
def admitNew (D : Deployment) (sub : NormalizedSubscription) (binding : Option CheckoutBinding) :
    BillingProgram (Option (Option WorkspaceId)) := do
  let discovered ← resolveWorkspace .paddle sub
  let history ← hasAttempts discovered
  match binding with
  | some binding => return if binding.admits sub then some (some binding.workspaceId) else none
  | none =>
    return if D.checkoutAttemptsEnabled || sub.checkoutAttemptId.isSome || history then none
      else some discovered

def selectBinding (provider : BillingProviderId) (sub : NormalizedSubscription) :
    BillingProgram (Option CheckoutBinding) :=
  if provider = .paddle then ask (.selectBinding sub.providerSubscriptionId) else return none

def admitEvent (D : Deployment) (provider : BillingProviderId) (sub : NormalizedSubscription) :
    BillingProgram (Option (Option WorkspaceId)) := do
  let known ← ask (.selectSubscription (provider, sub.providerSubscriptionId))
  let binding ← selectBinding provider sub
  if known.isNone && decide (provider = .paddle) then admitNew D sub binding else return some none

def orResolve (provider : BillingProviderId) (sub : NormalizedSubscription) :
    Option WorkspaceId → BillingProgram (Option WorkspaceId)
  | some w => return some w
  | none => resolveWorkspace provider sub

/-- `applySubscription`. -/
def applySubscription (D : Deployment) (k : EventKey) (sub : NormalizedSubscription)
    (restoration : Option UpgradeRefundRestoration) : BillingProgram WebhookProcessOutcome := do
  match ← admitEvent D k.1 sub with
  | none => return .unresolved .unattributable
  | some found =>
    match D.resolveByPriceId k.1 sub.providerPriceId with
    | none => return .unresolved .unknownPrice
    | some entry =>
      match ← orResolve k.1 sub found with
      | none => return .unresolved .unattributable
      | some workspaceId =>
        match ← ask (.applySubscription k sub restoration workspaceId entry) with
        | .ignored => return .ignored
        | .liveConflict => return .unresolved .liveConflict
        | .applied => return .processed ("subscription:" ++ sub.status.text)

/-- A checkout attempt that waits for the snapshot or the payment is fulfilled. -/
def fulfill : Option WorkspaceId → BillingProgram Unit
  | none => return ()
  | some w => ask (.fulfillCheckoutAttempt w)

def handleSubscription (D : Deployment) (k : EventKey) (sub : NormalizedSubscription)
    (restoration : Option UpgradeRefundRestoration) : BillingProgram WebhookProcessOutcome := do
  let result ← applySubscription D k sub restoration
  fulfill sub.workspaceId
  return result

/-! ## Payments and Passes -/

/-- `applyOneTimePayment`. -/
def applyOneTimePayment (D : Deployment) (k : EventKey) (payment : Payment) :
    BillingProgram WebhookProcessOutcome := do
  if !payment.oneTimePriceIds.any D.isPassPrice then return .unresolved .unknownPrice
  match payment.workspaceId, payment.providerTransactionId with
  | some workspaceId, some txn =>
    match ← ask (.grantPass workspaceId txn) with
    | .noEmail => return .unresolved .unattributable
    | granted =>
      ask (.projectPass k workspaceId)
      return .processed ("pass:" ++ granted.text)
  | _, _ => return .unresolved .unattributable

/-- Seed `billing_customers` from the payment's own attribution. -/
def seedCustomer (provider : BillingProviderId) :
    Option String → Option WorkspaceId → BillingProgram Unit
  | some customer, some workspaceId => do
    match ← ask (.selectWorkspace workspaceId) with
    | some w => ask (.addCustomer w provider customer)
    | none => return ()
  | _, _ => return ()

/-- A one-off transaction that went through. -/
def Payment.oneTime (payment : Payment) : Bool :=
  decide (payment.outcome = .succeeded) && payment.providerSubscriptionId.isNone &&
    !payment.oneTimePriceIds.isEmpty

/-- `applyPayment`. -/
def applyPayment (D : Deployment) (k : EventKey) (payment : Payment) :
    BillingProgram WebhookProcessOutcome := do
  if payment.oneTime then applyOneTimePayment D k payment
  else
    seedCustomer k.1 payment.providerCustomerId payment.workspaceId
    ask (.markProcessed k)
    return .processed ("payment:" ++ payment.outcome.text)

def observeUpgrade (provider : BillingProviderId) : Option String → BillingProgram Unit
  | some sid => if provider = .paddle then ask (.observeCompletedTransaction sid) else return ()
  | none => return ()

def handlePayment (D : Deployment) (k : EventKey) (payment : Payment) :
    BillingProgram WebhookProcessOutcome := do
  observeUpgrade k.1 payment.providerSubscriptionId
  let result ← applyPayment D k payment
  if payment.checkoutAttemptId.isSome then fulfill payment.workspaceId
  return result

/-! ## `process` -/

/-- The effect of an event, by its kind. -/
def handle (D : Deployment) (k : EventKey) : EventBody → BillingProgram WebhookProcessOutcome
  | .subscription sub restoration => handleSubscription D k sub restoration
  | .cancellationScheduled sid reason _ => do
    if ← ask (.applyScheduledCancellation k sid reason) then
      return .processed ("cancellation_scheduled:" ++ reason.text)
    return .unresolved .unattributable
  | .cancellationRevoked sid reason _ => do
    if ← ask (.applyRevokedCancellation k sid reason) then
      return .processed ("cancellation_revoked:" ++ reason.text)
    return .processed "cancellation_revoked:no_verdict"
  | .refundSettled sid _ => do
    if ← ask (.applyRefundSettlement k sid) then return .processed "refund_settled"
    return .processed "refund_settled:no_row"
  | .payment payment => handlePayment D k payment
  | .passRevoked txn reason => do
    if ← ask (.applyPassRevoked k txn) then return .processed ("pass_revoked:" ++ reason.text)
    return .unresolved .unattributable
  | .ignored => do
    ask (.markProcessed k)
    return .ignored

/-- The payment of a checkout is recorded before anything else. -/
def gatePayment (provider : BillingProviderId) : EventBody → BillingProgram Bool
  | .payment payment =>
    if provider = .paddle ∧ payment.outcome = .succeeded then ask (.recordCheckoutPayment payment)
    else return true
  | _ => return true

def RefundReference.present : EventBody → Bool
  | .cancellationScheduled _ _ reference | .cancellationRevoked _ _ reference
  | .refundSettled _ reference => reference.isSome
  | _ => false

/-- The events about a refund. -/
def EventBody.aboutRefund : EventBody → Bool
  | .refundSettled .. | .cancellationScheduled _ .refund _
  | .cancellationRevoked _ .refundRejected _ => true
  | _ => false

/-- The event is classified before it may write a cancellation. -/
def BillingEvent.reviewed (e : BillingEvent) (provider : BillingProviderId) : Bool :=
  decide (provider = .paddle) &&
    ("adjustment.".toList.isPrefixOf e.eventType.toList || RefundReference.present e.body) &&
    e.body.aboutRefund

/-- The synthetic event of a restoration. -/
def restorationEvent (sub : NormalizedSubscription) (confirmedAt adjustmentId intentId : String) :
    BillingEvent :=
  ⟨"local:upgrade-refund-restored:" ++ adjustmentId, "local.upgrade_refund_restored",
    some confirmedAt, .subscription sub (some ⟨intentId, adjustmentId⟩)⟩

/-- `process` of the synthetic event of a restoration. -/
def processRestoration (D : Deployment) (provider : BillingProviderId)
    (sub : NormalizedSubscription) (confirmedAt adjustmentId intentId : String) :
    BillingProgram WebhookProcessOutcome := do
  let e := restorationEvent sub confirmedAt adjustmentId intentId
  let k : EventKey := (provider, e.providerEventId)
  if ← receive k e then handleSubscription D k sub (some ⟨intentId, adjustmentId⟩)
  else return .duplicate

def projectRestoration (D : Deployment) (k : EventKey) :
    UpgradeRefundDecision → BillingProgram Unit
  | .restored sub confirmedAt adjustmentId intentId => do
    match ← processRestoration D k.1 sub confirmedAt adjustmentId intentId with
    | .unresolved _ => throw BillingError.notProjected
    | _ =>
      if ← ask (.confirmProjectedRestoration k) then return ()
      throw BillingError.notProjected
  | _ => return ()

/-- What the policy of upgrade refunds makes of the event, if it is not an ordinary one. -/
def reviewRefund (D : Deployment) (k : EventKey) (e : BillingEvent) :
    BillingProgram (Option WebhookProcessOutcome) := do
  if !e.reviewed k.1 then return none
  match ← ask (.resolveUpgradeRefund k) with
  | .ordinary => return none
  | decision =>
    projectRestoration D k decision
    ask (.classify k e.body.providerSubscriptionId)
    return some (.processed ("upgrade_refund:" ++ decision.text))

def process (D : Deployment) (provider : BillingProviderId) (e : BillingEvent) :
    BillingProgram WebhookProcessOutcome := do
  let k : EventKey := (provider, e.providerEventId)
  if !(← receive k e) then return .duplicate
  if !(← gatePayment provider e.body) then return .unresolved .unattributable
  match ← reviewRefund D k e with
  | some outcome => return outcome
  | none => handle D k e.body

end DeclutrMail.Billing
