import DeclutrMail.Billing.VerdictPass
import DeclutrMail.Interleaving.Triple

/-!
# The billing system

Deliveries of webhooks and verdict passes, interleaved between their transactions. A request
goes well, or fails before it had an effect, or has its effect while its answer is lost; and
any run may end at any request. `Commit` lists what a step can do to the world.
-/

namespace DeclutrMail.Billing

open Interleaving

/-- What a request finds outside the tables of the world. -/
structure Findings where
  paymentRecorded : Bool
  decision : UpgradeRefundDecision
  confirmed : Bool
  binding : Option CheckoutBinding
  attempts : Bool
  evidence : Option IntentEvidence
  stopped : Bool
  time : String
  upgradeRows : List String
  upgradeRecords : Bool
  verdictRows : List VerdictRow
  fetched : FetchSubscriptionResult
  facts : Option ProviderCancellationFacts

inductive Choice where
  | go (f : Findings)
  | lost (f : Findings)
  | fail

/-- `REFUND_WATCH_FALLBACK_DAYS` and `REFUND_WATCH_GRACE_DAYS`, in milliseconds. -/
def refundWatchFallbackMs : ℤ := 45 * dayMs

def refundWatchGraceMs : ℤ := 7 * dayMs

/-- `settledRefundCandidates`. -/
def Subscription.settledRefundCandidate (now : ℤ) (s : Subscription) : Bool :=
  decide (s.status = .canceled) && decide (s.cancelSource = some .refund) &&
    (s.currentPeriodEnd.or (s.entitlementEndsAt.map (· + refundWatchFallbackMs))).any
      fun at_ => decide (now ≤ at_ + refundWatchGraceMs)

/-- The rows that `enforceLocalVerdicts` may select. -/
def Subscription.verdictEligible (now : ℤ) (s : Subscription) : Bool :=
  s.localVerdict && decide (s.status ≠ .canceled) || s.settledRefundCandidate now

def Subscription.verdictRow (s : Subscription) : VerdictRow := ⟨s.key, s.cancelSource, s.status⟩

/-- A request as it takes effect. -/
def effect (D : Deployment) (f : Findings) (w : World) :
    (q : Request) → Option (Except BillingError (q.Answer × World))
  | .insertEvent k e => some (.ok (w.insertEvent k e.row))
  | .selectProcessed k => some (.ok ((w.events.get k).map (·.processed), w))
  | .recordCheckoutPayment _ => some (.ok (f.paymentRecorded, w))
  | .resolveUpgradeRefund _ => some (.ok (f.decision, w))
  | .confirmProjectedRestoration _ => some (.ok (f.confirmed, w))
  | .classify k sid => some (.ok ((), w.classify k sid))
  | .selectSubscription key => some (.ok ((w.db.subscription key).map (·.workspaceId), w))
  | .selectBinding _ => some (.ok (f.binding, w))
  | .selectCustomer provider customer =>
    some (.ok ((w.customers.find? fun c => decide (c.provider = provider) &&
      decide (c.providerCustomerId = customer)).map (·.workspaceId), w))
  | .selectWorkspace id => some (.ok ((w.db.workspaces.find? (·.id = id)).map (·.id), w))
  | .selectAttempts _ => some (.ok (f.attempts, w))
  | .applySubscription k sub restoration workspaceId entry =>
    some (w.applySubscription D k sub restoration f.evidence workspaceId entry)
  | .fulfillCheckoutAttempt _ => some (.ok ((), w))
  | .applyScheduledCancellation k sid reason => some (.ok (w.applyScheduledCancellation k sid reason))
  | .applyRefundSettlement k sid => some (.ok (w.applyRefundSettlement k sid))
  | .applyRevokedCancellation k sid reason => some (.ok (w.applyRevokedCancellation k sid reason))
  | .observeCompletedTransaction _ => some (.ok ((), w))
  | .addCustomer workspaceId provider customer =>
    some (.ok ((), w.addCustomer workspaceId provider (some customer)))
  | .markProcessed k => some (.ok ((), w.stamp k))
  | .grantPass workspaceId txn => some (.ok (w.grantPass workspaceId txn))
  | .projectPass k workspaceId => some (.ok ((), w.projectPass k workspaceId))
  | .applyPassRevoked k txn => some (.ok (w.applyPassRevoked k txn))
  | .verdictStopped => some (.ok (f.stopped, w))
  | .currentTime => some (.ok (f.time, w))
  | .selectUpgradeRows => some (.ok (f.upgradeRows, w))
  | .upgradeRecords _ => some (.ok (f.upgradeRecords, w))
  | .selectVerdictRows =>
    -- A bucket of the eligible rows, in random order.
    if f.verdictRows.Nodup ∧ f.verdictRows.length ≤ verdictPassMaxRows ∧
        ∀ row ∈ f.verdictRows, row ∈ (w.db.subscriptions.filter (·.verdictEligible w.now)).map
          (·.verdictRow) then
      some (.ok (f.verdictRows, w))
    else none
  | .fetchSubscription _ => some (.ok (f.fetched, w))
  | .providerCancellationFacts _ => some (.ok (f.facts, w))
  | .cancelSubscription _ => some (.ok ((), w))

def answer (D : Deployment) (q : Request) (c : Choice) (w : World) :
    Option (Except BillingError q.Answer × World) :=
  match c with
  | .fail => some (.error .database, w)
  | .go f => (effect D f w q).map fun r => match r with
    | .ok (a, w') => (.ok a, w')
    | .error e => (.error e, w)
  | .lost f => (effect D f w q).map fun r => match r with
    | .ok (_, w') => (.error .database, w')
    | .error e => (.error e, w)

/-- What a thread of the service runs. -/
inductive Task where
  | deliver (provider : BillingProviderId) (e : BillingEvent)
  | enforce (restoreEnabled : Bool)
  deriving DecidableEq

inductive Outcome where
  | delivered (outcome : WebhookProcessOutcome)
  | enforced (result : VerdictPass)

/-- The code of a task. -/
def Task.code (D : Deployment) : Task → BillingProgram Outcome
  | .deliver provider e => .delivered <$> process D provider e
  | .enforce restoreEnabled => .enforced <$> enforceLocalVerdicts D restoreEnabled

/-- The tasks that `E` admits, run by any number of threads while time goes on. -/
def billing (D : Deployment) (E : Task → Bool) : System BillingSignature where
  World := World
  Thread := ℕ
  Task := Task
  Outcome := Outcome
  Choice := Choice
  Event := ℕ
  code := Task.code D
  accept _ k w := if E k then some w else none
  answer _ q c w := answer D q c w
  settle _ _ w := some w
  crash _ w := some w
  disturb ms w := some { w with now := w.now + ms }

/-- The events that the tasks handle: those that are delivered, and those that the passes and
the restorations make up. -/
inductive Handled (E : Task → Bool) : BillingProviderId → BillingEvent → Prop
  | delivered {provider : BillingProviderId} {e : BillingEvent}
    (admitted : E (.deliver provider e) = true) : Handled E provider e
  | restored {provider : BillingProviderId} {e : BillingEvent} (reviewed : e.reviewed provider = true)
    (sub : NormalizedSubscription) (confirmedAt adjustmentId intentId : String)
    (h : Handled E provider e) :
    Handled E provider (restorationEvent sub confirmedAt adjustmentId intentId)
  | refuted {restoreEnabled : Bool} (admitted : E (.enforce restoreEnabled) = true)
    (key : SubscriptionKey) (cancelSource : CancelSource) (observedAt : String) :
    Handled E key.1 (refutedEvent key cancelSource observedAt)
  | settled {restoreEnabled : Bool} (admitted : E (.enforce restoreEnabled) = true)
    (key : SubscriptionKey) (observedAt : String) : Handled E key.1 (settledEvent key observedAt)
  | upgrade {restoreEnabled : Bool} (admitted : E (.enforce restoreEnabled) = true)
    (sid : String) (fact : UpgradeRefundFact) (observedAt : String) :
    Handled E .paddle (upgradeRefundEvent restoreEnabled sid fact observedAt)

/-- The event has its row. -/
def World.Recorded (w : World) (k : EventKey) : Prop := ∃ row, w.events.get k = some row

/-- A Pass was granted for the transaction. -/
def World.Granted (w : World) (txn : String) : Prop :=
  ∃ g ∈ w.db.grants, g.providerTransactionId = some txn

/-- What a step can do to the world. -/
inductive Commit (D : Deployment) (E : Task → Bool) : World → World → Prop
  | rest (w : World) : Commit D E w w
  | wait (w : World) (ms : ℕ) : Commit D E w { w with now := w.now + ms }
  | insert (w : World) {provider : BillingProviderId} {e : BillingEvent} (h : Handled E provider e) :
    Commit D E w (w.insertEvent (provider, e.providerEventId) e.row).2
  | customer (w : World) (workspaceId : WorkspaceId) (provider : BillingProviderId)
    (customer : String) : Commit D E w (w.addCustomer workspaceId provider (some customer))
  | mark {w : World} {provider : BillingProviderId} {e : BillingEvent} (h : Handled E provider e)
    (recorded : w.Recorded (provider, e.providerEventId))
    (body : e.body = .ignored ∨ ∃ payment, e.body = .payment payment ∧ payment.oneTime = false) :
    Commit D E w (w.stamp (provider, e.providerEventId))
  | classify {w : World} {provider : BillingProviderId} {e : BillingEvent}
    (h : Handled E provider e) (recorded : w.Recorded (provider, e.providerEventId))
    (reviewed : e.reviewed provider = true) :
    Commit D E w (w.classify (provider, e.providerEventId) e.body.providerSubscriptionId)
  | snapshot {w w' : World} {provider : BillingProviderId} {e : BillingEvent}
    {sub : NormalizedSubscription} {restoration : Option UpgradeRefundRestoration}
    {evidence : Option IntentEvidence} {workspaceId : WorkspaceId} {entry : CatalogEntry}
    {outcome : SnapshotOutcome} (h : Handled E provider e)
    (recorded : w.Recorded (provider, e.providerEventId))
    (body : e.body = .subscription sub restoration)
    (priced : D.resolveByPriceId provider sub.providerPriceId = some entry)
    (did : w.applySubscription D (provider, e.providerEventId) sub restoration evidence workspaceId
      entry = .ok (outcome, w')) : Commit D E w w'
  | schedule {w : World} {provider : BillingProviderId} {e : BillingEvent} {sid : String}
    {reason : ScheduledReason} {reference : Option RefundReference} (h : Handled E provider e)
    (recorded : w.Recorded (provider, e.providerEventId))
    (body : e.body = .cancellationScheduled sid reason reference) :
    Commit D E w (w.applyScheduledCancellation (provider, e.providerEventId) sid reason).2
  | settle {w : World} {provider : BillingProviderId} {e : BillingEvent} {sid : String}
    {reference : Option RefundReference} (h : Handled E provider e)
    (recorded : w.Recorded (provider, e.providerEventId))
    (body : e.body = .refundSettled sid reference) :
    Commit D E w (w.applyRefundSettlement (provider, e.providerEventId) sid).2
  | revoke {w : World} {provider : BillingProviderId} {e : BillingEvent} {sid : String}
    {reason : RevokedReason} {reference : Option RefundReference} (h : Handled E provider e)
    (recorded : w.Recorded (provider, e.providerEventId))
    (body : e.body = .cancellationRevoked sid reason reference) :
    Commit D E w (w.applyRevokedCancellation (provider, e.providerEventId) sid reason).2
  | grant {w : World} {provider : BillingProviderId} {e : BillingEvent} {payment : Payment}
    {workspaceId : WorkspaceId} {txn : String} (h : Handled E provider e)
    (body : e.body = .payment payment) (oneTime : payment.oneTime = true)
    (attributed : payment.workspaceId = some workspaceId)
    (purchase : payment.providerTransactionId = some txn) :
    Commit D E w (w.grantPass workspaceId txn).2
  | project {w : World} {provider : BillingProviderId} {e : BillingEvent} {payment : Payment}
    {txn : String} (workspaceId : WorkspaceId) (h : Handled E provider e)
    (recorded : w.Recorded (provider, e.providerEventId)) (body : e.body = .payment payment)
    (oneTime : payment.oneTime = true) (purchase : payment.providerTransactionId = some txn)
    (granted : w.Granted txn) :
    Commit D E w (w.projectPass (provider, e.providerEventId) workspaceId)
  | revokePass {w : World} {provider : BillingProviderId} {e : BillingEvent} {txn : String}
    {reason : PassRevokedReason} (h : Handled E provider e)
    (recorded : w.Recorded (provider, e.providerEventId)) (body : e.body = .passRevoked txn reason) :
    Commit D E w (w.applyPassRevoked (provider, e.providerEventId) txn).2

/-! ## A small deployment -/

/-- One monthly price of `pro`, and no checkout attempts. The time of `tt` is 2. -/
def oneprice : Deployment where
  dateParse s := some s.length
  resolveByPriceId _ price := if price = "pri" then some ⟨.pro, .monthly, false⟩ else none
  isPassPrice price := price = "pass"
  foundingMaxRedemptions := 0
  checkoutAttemptsEnabled := false

/-- Nothing is found outside the tables, and payments are recorded. -/
def nothingFound : Findings where
  paymentRecorded := true
  decision := .ordinary
  confirmed := false
  binding := none
  attempts := false
  evidence := none
  stopped := false
  time := "t"
  upgradeRows := []
  upgradeRecords := false
  verdictRows := []
  fetched := .notFound
  facts := none

/-- The subscription `sub` of the workspace `w`, paid until the instant 10. -/
def activeRow : Subscription :=
  ⟨"w", .paddle, "sub", .pro, .active, "pri", .monthly, some 10, false, none, none, none, false, none⟩

/-- One workspace that has paid. -/
def paidWorld : World where
  now := 0
  db := ⟨[⟨"w", .pro, false⟩], [⟨"u", "owner@example.test", "w", 0⟩], [activeRow], []⟩
  events := .empty
  redeemed := []
  customers := []
  pendingCheckouts := []
  applied := []

/-- The moves of a delivery of `n` requests that all go well. -/
def delivery {D : Deployment} {E : Task → Bool} (t : ℕ) (e : BillingEvent) (n : ℕ) :
    List (Move (billing D E)) :=
  .start t (.deliver .paddle e) :: List.replicate n (.reply t (.go nothingFound)) ++ [.finish t]

end DeclutrMail.Billing
