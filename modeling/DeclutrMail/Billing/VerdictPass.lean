import DeclutrMail.Billing.Webhook

/-!
# The verdict pass

`BillingReconciliationService.enforceLocalVerdicts` as a program over the requests of the
webhook: it reads what the provider says about each row with a local verdict, and lifts or
settles the verdict by an event of its own through `process`.
-/

namespace DeclutrMail.Billing

open Interleaving

/-- `DRIFT_SWEEP_TRIP_AFTER`. -/
def driftSweepTripAfter : ℕ := 3

/-- `VERDICT_PASS_MAX_ROWS`. -/
def verdictPassMaxRows : ℕ := 100

/-- The counters of a pass, and the failures in a row of each provider. -/
structure VerdictPass where
  enforced : ℕ
  unenforced : ℕ
  refuted : ℕ
  settled : ℕ
  consecutiveErrors : BillingProviderId → ℕ

namespace VerdictPass

def start : VerdictPass := ⟨0, 0, 0, 0, fun _ => 0⟩

def passOver (s : VerdictPass) : VerdictPass := { s with unenforced := s.unenforced + 1 }

def fail (s : VerdictPass) (provider : BillingProviderId) : VerdictPass :=
  { s with
    unenforced := s.unenforced + 1
    consecutiveErrors := fun p =>
      if p = provider then s.consecutiveErrors p + 1 else s.consecutiveErrors p }

def reached (s : VerdictPass) (provider : BillingProviderId) : VerdictPass :=
  { s with consecutiveErrors := fun p => if p = provider then 0 else s.consecutiveErrors p }

def tripped (s : VerdictPass) (provider : BillingProviderId) : Bool :=
  decide (driftSweepTripAfter ≤ s.consecutiveErrors provider)

end VerdictPass

/-- `throwIfVerdictStopped`. -/
def throwIfVerdictStopped : BillingProgram Unit := do
  if ← ask .verdictStopped then throw BillingError.stopped

/-- What a `catch` that calls `rethrowIfVerdictStopped` makes of an error. -/
def caught {α : Type} (p : BillingProgram α) : BillingProgram (Option α) :=
  tryCatch (some <$> p) fun e => do
    if e = .stopped then throw e
    if ← ask .verdictStopped then throw e
    return none

/-! ## Events of its own -/

/-- The event of `liftRefutedVerdict`. -/
def refutedEvent (key : SubscriptionKey) (cancelSource : CancelSource) (observedAt : String) :
    BillingEvent :=
  let provider := match key.1 with
    | .paddle => "paddle"
    | .razorpay => "razorpay"
  let (source, reason) := match cancelSource with
    | .chargeback => ("chargeback", RevokedReason.chargebackReverse)
    | .refund => ("refund", .refundRejected)
    | .provider => ("provider", .refundRejected)
  ⟨"recon-refuted:" ++ provider ++ ":" ++ key.2 ++ ":" ++ source,
    "reconciliation.cancellation_revoked", some observedAt,
    .cancellationRevoked key.2 reason none⟩

/-- The event of `projectRefundSettlement`. -/
def settledEvent (key : SubscriptionKey) (observedAt : String) : BillingEvent :=
  let provider := match key.1 with
    | .paddle => "paddle"
    | .razorpay => "razorpay"
  ⟨"recon-refund-settled:" ++ provider ++ ":" ++ key.2, "reconciliation.refund_settled",
    some observedAt, .refundSettled key.2 none⟩

/-- The event of `projectUpgradeRefunds` for one adjustment. -/
def upgradeRefundEvent (restoreEnabled : Bool) (providerSubscriptionId : String)
    (fact : UpgradeRefundFact) (observedAt : String) : BillingEvent :=
  let reference := some ⟨fact.adjustmentId, fact.transactionId⟩
  ⟨"recon:upgrade-refund:" ++ fact.adjustmentId ++ ":" ++ fact.status ++ ":" ++
      (if restoreEnabled then "restore" else "hold"),
    "reconciliation.upgrade_refund", some observedAt,
    if fact.status = "approved" then .refundSettled providerSubscriptionId reference
    else if fact.status = "rejected" then
      .cancellationRevoked providerSubscriptionId .refundRejected reference
    else .cancellationScheduled providerSubscriptionId .refund reference⟩

def liftRefutedVerdict (D : Deployment) (key : SubscriptionKey) (cancelSource : CancelSource) :
    BillingProgram Unit := do
  let observedAt ← ask .currentTime
  throwIfVerdictStopped
  let _ ← process D key.1 (refutedEvent key cancelSource observedAt)
  return ()

def projectRefundSettlement (D : Deployment) (key : SubscriptionKey) : BillingProgram Unit := do
  let observedAt ← ask .currentTime
  throwIfVerdictStopped
  let _ ← process D key.1 (settledEvent key observedAt)
  return ()

def projectFacts (D : Deployment) (restoreEnabled : Bool) (providerSubscriptionId : String) :
    List UpgradeRefundFact → BillingProgram Unit
  | [] => return ()
  | fact :: facts => do
    throwIfVerdictStopped
    let observedAt ← ask .currentTime
    let _ ← process D .paddle (upgradeRefundEvent restoreEnabled providerSubscriptionId fact observedAt)
    projectFacts D restoreEnabled providerSubscriptionId facts

def recoverUpgrade (providerSubscriptionId : String) : BillingProgram Unit := do
  if ← ask (.upgradeRecords providerSubscriptionId) then
    ask (.observeCompletedTransaction providerSubscriptionId)

def projectUpgradeRefunds (D : Deployment) (restoreEnabled : Bool) (providerSubscriptionId : String)
    (facts : ProviderCancellationFacts) : BillingProgram Unit := do
  throwIfVerdictStopped
  recoverUpgrade providerSubscriptionId
  projectFacts D restoreEnabled providerSubscriptionId facts.upgradeRefunds

/-! ## `enforceUpgradeRefunds` -/

/-- The body of the `try`: whether the facts could be read. -/
def enforceUpgradeRow (D : Deployment) (restoreEnabled : Bool) (id : String) :
    BillingProgram Bool := do
  let facts ← ask (.providerCancellationFacts (.paddle, id))
  throwIfVerdictStopped
  match facts with
  | none => return false
  | some facts =>
    projectUpgradeRefunds D restoreEnabled id facts
    return true

def enforceUpgradeRows (D : Deployment) (restoreEnabled : Bool) :
    List String → ℕ → BillingProgram Unit
  | [], _ => return ()
  | id :: ids, failures => do
    throwIfVerdictStopped
    if driftSweepTripAfter ≤ failures then return ()
    match ← caught (enforceUpgradeRow D restoreEnabled id) with
    | some true => enforceUpgradeRows D restoreEnabled ids 0
    | _ => enforceUpgradeRows D restoreEnabled ids (failures + 1)

def enforceUpgradeRefunds (D : Deployment) (restoreEnabled : Bool) : BillingProgram Unit := do
  throwIfVerdictStopped
  let ids ← ask .selectUpgradeRows
  enforceUpgradeRows D restoreEnabled ids 0

/-! ## `enforceLocalVerdicts` -/

/-- What the two reads of the provider found. -/
inductive Reading where
  | missed
  | terminal
  | unreadable
  | read (sub : NormalizedSubscription) (facts : ProviderCancellationFacts)

def readProvider (key : SubscriptionKey) : BillingProgram Reading := do
  let fetched ← ask (.fetchSubscription key)
  throwIfVerdictStopped
  match fetched with
  | .found sub =>
    if sub.status = .canceled then return .terminal
    let facts ← ask (.providerCancellationFacts key)
    throwIfVerdictStopped
    match facts with
    | none => return .unreadable
    | some facts => return .read sub facts
  | _ => return .missed

/-- The provider is asked to stop, unless it is about to. -/
def stopRenewal (key : SubscriptionKey) (sub : NormalizedSubscription) : BillingProgram Bool := do
  if sub.cancelAtPeriodEnd then return false
  throwIfVerdictStopped
  ask (.cancelSubscription key)
  return true

def projectPaddle (D : Deployment) (restoreEnabled : Bool) (key : SubscriptionKey)
    (facts : ProviderCancellationFacts) : BillingProgram Unit :=
  if key.1 = .paddle then projectUpgradeRefunds D restoreEnabled key.2 facts else return ()

/-- A row that is canceled here already. -/
def watchCanceled (row : VerdictRow) (sub : NormalizedSubscription)
    (facts : ProviderCancellationFacts) (s : VerdictPass) : BillingProgram VerdictPass := do
  if facts.settled = some .refund then
    match ← caught (stopRenewal row.key sub) with
    | none => return s.fail row.key.1
    | some true => return { s with enforced := s.enforced + 1 }
    | some false => return s
  else return s.passOver

/-- The provider has settled a cause. -/
def enforceSettled (D : Deployment) (row : VerdictRow) (sub : NormalizedSubscription)
    (facts : ProviderCancellationFacts) (s : VerdictPass) : BillingProgram VerdictPass := do
  match ← caught (stopRenewal row.key sub) with
  | none => return s.fail row.key.1
  | some sent =>
    let s := if sent then { s with enforced := s.enforced + 1 } else s
    if facts.settled = some .refund ∧ row.cancelSource = some .refund then
      match ← caught (projectRefundSettlement D row.key) with
      | none => return s.fail row.key.1
      | some () => return { s with settled := s.settled + 1 }
    else return s

/-- The provider contradicts the verdict. -/
def ProviderCancellationFacts.refuted (facts : ProviderCancellationFacts) : CancelSource → Bool
  | .chargeback => facts.refutedChargeback
  | .refund | .provider => facts.refutedRefund

def liftOrPass (D : Deployment) (row : VerdictRow) (facts : ProviderCancellationFacts)
    (s : VerdictPass) : BillingProgram VerdictPass := do
  let verdict := row.cancelSource.getD .refund
  if facts.refuted verdict then
    match ← caught (liftRefutedVerdict D row.key verdict) with
    | none => return s.fail row.key.1
    | some () => return { s with refuted := s.refuted + 1 }
  else return s.passOver

/-- The row, once both reads have landed. -/
def enforceRead (D : Deployment) (restoreEnabled : Bool) (row : VerdictRow)
    (sub : NormalizedSubscription) (facts : ProviderCancellationFacts) (s : VerdictPass) :
    BillingProgram VerdictPass := do
  match ← caught (projectPaddle D restoreEnabled row.key facts) with
  | none => return s.fail row.key.1
  | some () =>
    if row.status = .canceled then watchCanceled row sub facts s
    else if facts.settled.isSome then enforceSettled D row sub facts s
    else liftOrPass D row facts s

/-- One turn of the loop. -/
def enforceRow (D : Deployment) (restoreEnabled : Bool) (row : VerdictRow) (s : VerdictPass) :
    BillingProgram VerdictPass := do
  match ← caught (readProvider row.key) with
  | none => return s.fail row.key.1
  | some .missed => return s.passOver
  | some .terminal => return s
  | some .unreadable => return s.fail row.key.1
  | some (.read sub facts) => enforceRead D restoreEnabled row sub facts (s.reached row.key.1)

def enforceRows (D : Deployment) (restoreEnabled : Bool) :
    List VerdictRow → VerdictPass → BillingProgram VerdictPass
  | [], s => return s
  | row :: rows, s => do
    throwIfVerdictStopped
    if s.tripped row.key.1 then enforceRows D restoreEnabled rows s.passOver
    else
      let s ← enforceRow D restoreEnabled row s
      enforceRows D restoreEnabled rows s

/-- `enforceLocalVerdicts`. -/
def enforceLocalVerdicts (D : Deployment) (restoreEnabled : Bool) : BillingProgram VerdictPass := do
  throwIfVerdictStopped
  enforceUpgradeRefunds D restoreEnabled
  let rows ← ask .selectVerdictRows
  enforceRows D restoreEnabled rows .start

end DeclutrMail.Billing
