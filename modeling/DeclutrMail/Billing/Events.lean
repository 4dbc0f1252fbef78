import DeclutrMail.Billing.Founding
import DeclutrMail.Billing.Pass
import DeclutrMail.Billing.Subscription
import DeclutrMail.Collections.InsertionMap

/-!
# Billing events and the transactions they run

A billing event is recorded in `subscription_events` under its provider and its id before it is
handled, and stamped processed by the transaction that has its effect. Each transaction of the
handlers is a function on the world here, at the instant `now`.

`applied` remembers what the transactions did to rows of `subscriptions`, in order.
-/

namespace DeclutrMail.Billing

structure RefundReference where
  adjustmentId : String
  transactionId : String
  deriving DecidableEq, Repr

structure UpgradeRefundRestoration where
  intentId : String
  adjustmentId : String
  deriving DecidableEq, Repr

inductive PaymentOutcome where
  | succeeded | failed
  deriving DecidableEq, Repr

structure Payment where
  outcome : PaymentOutcome
  providerSubscriptionId : Option String
  providerCustomerId : Option String
  workspaceId : Option WorkspaceId
  checkoutAttemptId : Option String
  providerTransactionId : Option String
  oneTimePriceIds : List String
  deriving DecidableEq, Repr

inductive PassRevokedReason where
  | refund | chargeback
  deriving DecidableEq, Repr

/-- What a normalized event is about. -/
inductive EventBody where
  | subscription (sub : NormalizedSubscription) (restoration : Option UpgradeRefundRestoration)
  | payment (payment : Payment)
  | passRevoked (providerTransactionId : String) (reason : PassRevokedReason)
  | cancellationScheduled (providerSubscriptionId : String) (reason : ScheduledReason)
      (reference : Option RefundReference)
  | cancellationRevoked (providerSubscriptionId : String) (reason : RevokedReason)
      (reference : Option RefundReference)
  | refundSettled (providerSubscriptionId : String) (reference : Option RefundReference)
  | ignored
  deriving DecidableEq, Repr

/-- A normalized event, with the `occurred_at` of the payload it came in. -/
structure BillingEvent where
  providerEventId : String
  eventType : String
  occurredAt : Option String
  body : EventBody
  deriving DecidableEq, Repr

/-- The `kind` of a payload, `audit` that of a classification. -/
inductive EventKind where
  | subscription | payment | passRevoked | cancellationScheduled | cancellationRevoked
  | refundSettled | ignored | audit
  deriving DecidableEq, Repr

def EventBody.kind : EventBody → EventKind
  | .subscription .. => .subscription
  | .payment .. => .payment
  | .passRevoked .. => .passRevoked
  | .cancellationScheduled .. => .cancellationScheduled
  | .cancellationRevoked .. => .cancellationRevoked
  | .refundSettled .. => .refundSettled
  | .ignored => .ignored

/-- The kinds that write the state of a subscription. -/
def EventKind.writesState : EventKind → Bool
  | .subscription | .cancellationScheduled | .cancellationRevoked => true
  | _ => false

/-- The `status` of a payload. -/
def EventBody.status : EventBody → Option SubscriptionStatus
  | .subscription sub _ => some sub.status
  | _ => none

/-- The `provider_subscription_id` of a payload. -/
def EventBody.providerSubscriptionId : EventBody → Option String
  | .subscription sub _ => some sub.providerSubscriptionId
  | .payment p => p.providerSubscriptionId
  | .cancellationScheduled sid _ _ | .cancellationRevoked sid _ _ | .refundSettled sid _ => some sid
  | .passRevoked .. | .ignored => none

/-- What is unique about a row of `subscription_events`, and identifies it here. -/
abbrev EventKey := BillingProviderId × String

/-- A row of `subscription_events`, with the parts of its payload that are read. -/
structure EventRow where
  kind : EventKind
  occurredAt : Option String
  status : Option SubscriptionStatus
  providerSubscriptionId : Option String
  originalEventId : Option String
  arrivalSeq : ℕ
  processed : Bool
  deriving DecidableEq, Repr

/-- The row of an event that has just arrived. -/
def BillingEvent.row (e : BillingEvent) (arrivalSeq : ℕ) : EventRow where
  kind := e.body.kind
  occurredAt := e.occurredAt
  status := e.body.status
  providerSubscriptionId := e.body.providerSubscriptionId
  originalEventId := none
  arrivalSeq
  processed := false

structure BillingCustomer where
  workspaceId : WorkspaceId
  provider : BillingProviderId
  providerCustomerId : String
  deriving DecidableEq, Repr

/-- What a transaction does to a row of `subscriptions`. -/
inductive RowEffect where
  | snapshot (workspaceId : WorkspaceId) (entry : CatalogEntry) (sub : NormalizedSubscription)
      (selfMs : Option ℤ) (founding : Bool)
  | schedule (reason : ScheduledReason)
  | revoke (reason : RevokedReason)
  | settle
  deriving DecidableEq, Repr

def RowEffect.run (key : SubscriptionKey) (now : ℤ) (current : Option Subscription) :
    RowEffect → Option Subscription
  | .snapshot workspaceId entry sub selfMs founding =>
    some (nextSubscription key.1 workspaceId entry sub selfMs now founding current)
  | .schedule reason => current.map (·.scheduleCancellation reason now)
  | .revoke reason => current.map (·.revokeCancellation reason)
  | .settle => current.map (·.settleRefund now)

structure Applied where
  event : EventKey
  key : SubscriptionKey
  effect : RowEffect
  at_ : ℤ
  before : Option Subscription
  deriving DecidableEq

structure World where
  now : ℤ
  db : Db
  events : InsertionMap EventKey EventRow
  redeemed : FoundingLedger
  customers : List BillingCustomer
  pendingCheckouts : List WorkspaceId
  applied : List Applied

/-- The configuration of the service. -/
structure Deployment where
  dateParse : String → Option ℤ
  resolveByPriceId : BillingProviderId → String → Option CatalogEntry
  isPassPrice : String → Bool
  foundingMaxRedemptions : ℕ
  checkoutAttemptsEnabled : Bool

/-! ## Rows of subscriptions -/

namespace Db

def subscription (db : Db) (key : SubscriptionKey) : Option Subscription :=
  db.subscriptions.find? (·.key = key)

/-- `UPDATE subscriptions … WHERE` the row is that of a key. -/
def update (db : Db) (key : SubscriptionKey) (f : Subscription → Subscription) : Db :=
  { db with subscriptions := db.subscriptions.map fun s => if s.key = key then f s else s }

/-- `INSERT … ON CONFLICT DO UPDATE`. -/
def upsert (db : Db) (row : Subscription) : Db :=
  if (db.subscription row.key).isSome then db.update row.key fun _ => row
  else { db with subscriptions := db.subscriptions ++ [row] }

/-- The index `subscriptions_one_live_per_workspace` refuses the row. -/
def liveConflict (db : Db) (row : Subscription) : Bool :=
  row.status.granting && db.subscriptions.any fun s =>
    decide (s.key ≠ row.key) && decide (s.workspaceId = row.workspaceId) && s.status.granting

end Db

namespace World

/-! ## The ledger -/

/-- The row is stamped processed. -/
def stamp (w : World) (k : EventKey) : World :=
  match w.events.get k with
  | none => w
  | some row => { w with events := w.events.set k { row with processed := true } }

/-- `INSERT … ON CONFLICT DO NOTHING`: whether the row was inserted. -/
def insertEvent (w : World) (k : EventKey) (row : ℕ → EventRow) : Bool × World :=
  match w.events.get k with
  | some _ => (false, w)
  | none => (true, { w with events := w.events.set k (row w.events.entries.length) })

/-- A classification names the event. -/
def classified (w : World) (k : EventKey) : Bool :=
  w.events.entries.any fun c =>
    decide (c.1.1 = k.1) && decide (c.2.kind = .audit) && decide (c.2.originalEventId = some k.2)

/-- The processed events, other than `k`, that wrote the state of the subscription. -/
def peers (w : World) (k : EventKey) (providerSubscriptionId : String) : List Peer :=
  (w.events.entries.filter fun e =>
    decide (e.1.1 = k.1) && e.2.processed && decide (e.1 ≠ k) &&
      decide (e.2.providerSubscriptionId = some providerSubscriptionId) && e.2.kind.writesState &&
      !w.classified e.1).map fun e => ⟨e.2.arrivalSeq, e.2.occurredAt, e.2.status⟩

def record (w : World) (k : EventKey) (key : SubscriptionKey) (effect : RowEffect) : World :=
  { w with applied := w.applied ++ [⟨k, key, effect, w.now, w.db.subscription key⟩] }

def recompute (w : World) (workspaceId : WorkspaceId) : World :=
  { w with db := recomputeWorkspaceTier w.db workspaceId w.now w.now }

/-- The row of `billing_customers`, unless the customer or the workspace has one already. -/
def addCustomer (w : World) (workspaceId : WorkspaceId) (provider : BillingProviderId) :
    Option String → World
  | none => w
  | some customer =>
    if w.customers.any fun c => decide (c.provider = provider) &&
        (decide (c.providerCustomerId = customer) || decide (c.workspaceId = workspaceId)) then w
    else { w with customers := w.customers ++ [⟨workspaceId, provider, customer⟩] }

end World

/-! ## The transactions of the handlers -/

/-- What the intent of an upgrade says about the plan before it. -/
structure IntentEvidence where
  newerUpgrade : Bool
  priorPriceId : String
  priorPeriodEnd : Option ℤ
  deriving DecidableEq, Repr

/-- An upgrade restoration may be projected onto the row. -/
def restorable (current : Option Subscription) (sub : NormalizedSubscription)
    (evidence : Option IntentEvidence) : Bool :=
  match current, evidence with
  | some current, some evidence =>
    decide (current.status = .active) && decide (current.cancelSource = none) &&
      !current.cancelAtPeriodEnd && !evidence.newerUpgrade &&
      decide (sub.providerPriceId = evidence.priorPriceId) &&
      sub.currentPeriodEnd.isSome && decide (sub.currentPeriodEnd = evidence.priorPeriodEnd)
  | _, _ => false

inductive BillingError where
  | database | provider | restorationChanged | notProjected | stopped
  deriving DecidableEq, Repr

inductive SnapshotOutcome where
  | ignored | applied | liveConflict
  deriving DecidableEq, Repr

/-- Whether a snapshot may take a new Founding seat. -/
def NormalizedSubscription.mayAllocate (sub : NormalizedSubscription) : Bool :=
  sub.status.granting && decide (sub.foundingAllocationEligible ≠ some false)

namespace World

/-- The Founding part of `applySubscription`: the row's flag and the ledger. -/
def allocateFounding (D : Deployment) (w : World) (key : SubscriptionKey) (entry : CatalogEntry)
    (sub : NormalizedSubscription) : Bool × FoundingLedger :=
  let redeemed := if (w.db.subscription key).any (·.foundingMember) then
    recordFoundingRedemption w.redeemed key else w.redeemed
  if entry.founding then
    claimFoundingRedemption redeemed w.db.subscriptions key D.foundingMaxRedemptions sub.mayAllocate
  else (false, redeemed)

/-- The writes of `applySubscription`. -/
def writeSnapshot (D : Deployment) (w : World) (k : EventKey) (sub : NormalizedSubscription)
    (workspaceId : WorkspaceId) (entry : CatalogEntry) (selfMs : Option ℤ) :
    SnapshotOutcome × World :=
  let key : SubscriptionKey := (k.1, sub.providerSubscriptionId)
  let (founding, redeemed) := w.allocateFounding D key entry sub
  let row := nextSubscription k.1 workspaceId entry sub selfMs w.now founding (w.db.subscription key)
  if w.db.liveConflict row then (.liveConflict, w)
  else
    let noted := (w.addCustomer workspaceId k.1 sub.providerCustomerId).record k key
      (.snapshot workspaceId entry sub selfMs founding)
    let written := { noted with db := noted.db.upsert row, redeemed }.recompute workspaceId
    let pendingCheckouts := if sub.status.granting then
      written.pendingCheckouts.filter (· ≠ workspaceId) else written.pendingCheckouts
    (.applied, { written with pendingCheckouts }.stamp k)

/-- The transaction of `applySubscription`. -/
def applySubscription (D : Deployment) (w : World) (k : EventKey) (sub : NormalizedSubscription)
    (restoration : Option UpgradeRefundRestoration) (evidence : Option IntentEvidence)
    (workspaceId : WorkspaceId) (entry : CatalogEntry) :
    Except BillingError (SnapshotOutcome × World) :=
  let self := w.events.get k
  let selfMs := toMillis D.dateParse (self.bind (·.occurredAt))
  let eventArrivalSeq := (self.map (·.arrivalSeq)).getD 0
  let current := w.db.subscription (k.1, sub.providerSubscriptionId)
  if (w.peers k sub.providerSubscriptionId).any (isNewer D.dateParse selfMs eventArrivalSeq sub.status)
  then .ok (.ignored, w.stamp k)
  else if restoration.isSome && !restorable current sub evidence then .error .restorationChanged
  else if belowFloor current sub then .ok (.ignored, w.stamp k)
  else .ok (w.writeSnapshot D k sub workspaceId entry selfMs)

/-- The transaction of `applyScheduledCancellation`: whether there is a row. -/
def applyScheduledCancellation (w : World) (k : EventKey) (providerSubscriptionId : String)
    (reason : ScheduledReason) : Bool × World :=
  let key : SubscriptionKey := (k.1, providerSubscriptionId)
  match w.db.subscription key with
  | none => (false, w)
  | some row =>
    let noted := w.record k key (.schedule reason)
    let written := { noted with db := w.db.update key (·.scheduleCancellation reason w.now) }
    (true, (written.recompute row.workspaceId).stamp k)

/-- The transaction of `applyRefundSettlement`: whether a row was settled. -/
def applyRefundSettlement (w : World) (k : EventKey) (providerSubscriptionId : String) :
    Bool × World :=
  let key : SubscriptionKey := (k.1, providerSubscriptionId)
  let noted := w.record k key .settle
  match (w.db.subscription key).filter (·.settleable) with
  | none => (false, noted.stamp k)
  | some row =>
    let written := { noted with db := w.db.update key (·.settleRefund w.now) }
    (true, (written.recompute row.workspaceId).stamp k)

/-- The transaction of `applyRevokedCancellation`: whether a verdict was lifted. -/
def applyRevokedCancellation (w : World) (k : EventKey) (providerSubscriptionId : String)
    (reason : RevokedReason) : Bool × World :=
  let key : SubscriptionKey := (k.1, providerSubscriptionId)
  let noted := w.record k key (.revoke reason)
  match (w.db.subscription key).filter (·.cancelSource = some reason.voided) with
  | none => (false, noted.stamp k)
  | some row =>
    let written := { noted with db := w.db.update key (·.revokeCancellation reason) }
    (true, (written.recompute row.workspaceId).stamp k)

/-- The classification of an event that turned out to be an upgrade refund. -/
def classify (w : World) (k : EventKey) (providerSubscriptionId : Option String) : World :=
  (w.insertEvent (k.1, "local:upgrade-refund-classified:" ++ k.2) fun arrivalSeq =>
    ⟨.audit, none, none, providerSubscriptionId, some k.2, arrivalSeq, true⟩).2.stamp k

/-- The first transaction of `applyOneTimePayment`. -/
def grantPass (w : World) (workspaceId : WorkspaceId) (txn : String) : PassGrantResult × World :=
  let (result, db) := grantPassFromTransaction w.db workspaceId txn w.now
  (result, { w with db })

/-- The second transaction of `applyOneTimePayment`. -/
def projectPass (w : World) (k : EventKey) (workspaceId : WorkspaceId) : World :=
  let written := w.recompute workspaceId
  { written with pendingCheckouts := written.pendingCheckouts.filter (· ≠ workspaceId) }.stamp k

/-- The transaction of `applyPassRevoked`: whether the purchase is known. -/
def applyPassRevoked (w : World) (k : EventKey) (txn : String) : Bool × World :=
  let known := w.db.grants.any fun g =>
    decide (g.providerTransactionId = some txn) && decide (g.source = .pass) &&
      decide (g.provider = some .paddle)
  if !known then (false, w)
  else
    match revokePassByTransaction w.db txn w.now with
    | (none, _) => (false, w)
    | (some workspaceIds, db) => (true, (workspaceIds.foldl recompute { w with db }).stamp k)

/-! ## What each write leaves alone -/

section Frame

variable (w : World) (k : EventKey)

@[simp] theorem now_stamp : (w.stamp k).now = w.now := by
  unfold stamp
  split <;> rfl

@[simp] theorem db_stamp : (w.stamp k).db = w.db := by
  unfold stamp
  split <;> rfl

@[simp] theorem applied_stamp : (w.stamp k).applied = w.applied := by
  unfold stamp
  split <;> rfl

@[simp] theorem now_record (key : SubscriptionKey) (effect : RowEffect) :
    (w.record k key effect).now = w.now := rfl

@[simp] theorem db_record (key : SubscriptionKey) (effect : RowEffect) :
    (w.record k key effect).db = w.db := rfl

@[simp] theorem events_record (key : SubscriptionKey) (effect : RowEffect) :
    (w.record k key effect).events = w.events := rfl

@[simp] theorem applied_record (key : SubscriptionKey) (effect : RowEffect) :
    (w.record k key effect).applied =
      w.applied ++ [⟨k, key, effect, w.now, w.db.subscription key⟩] := rfl

@[simp] theorem now_recompute (workspaceId : WorkspaceId) :
    (w.recompute workspaceId).now = w.now := rfl

@[simp] theorem subscriptions_recompute (workspaceId : WorkspaceId) :
    (w.recompute workspaceId).db.subscriptions = w.db.subscriptions := rfl

@[simp] theorem subscription_recompute (workspaceId : WorkspaceId) (key : SubscriptionKey) :
    (w.recompute workspaceId).db.subscription key = w.db.subscription key := rfl

@[simp] theorem grants_recompute (workspaceId : WorkspaceId) :
    (w.recompute workspaceId).db.grants = w.db.grants := rfl

@[simp] theorem users_recompute (workspaceId : WorkspaceId) :
    (w.recompute workspaceId).db.users = w.db.users := rfl

@[simp] theorem events_recompute (workspaceId : WorkspaceId) :
    (w.recompute workspaceId).events = w.events := rfl

@[simp] theorem applied_recompute (workspaceId : WorkspaceId) :
    (w.recompute workspaceId).applied = w.applied := rfl

variable (workspaceId : WorkspaceId) (provider : BillingProviderId) (customer : Option String)

@[simp] theorem now_addCustomer : (w.addCustomer workspaceId provider customer).now = w.now := by
  unfold addCustomer
  split
  · rfl
  · split <;> rfl

@[simp] theorem db_addCustomer : (w.addCustomer workspaceId provider customer).db = w.db := by
  unfold addCustomer
  split
  · rfl
  · split <;> rfl

@[simp] theorem events_addCustomer :
    (w.addCustomer workspaceId provider customer).events = w.events := by
  unfold addCustomer
  split
  · rfl
  · split <;> rfl

@[simp] theorem applied_addCustomer :
    (w.addCustomer workspaceId provider customer).applied = w.applied := by
  unfold addCustomer
  split
  · rfl
  · split <;> rfl

variable (row : ℕ → EventRow)

@[simp] theorem now_insertEvent : (w.insertEvent k row).2.now = w.now := by
  unfold insertEvent
  split <;> rfl

@[simp] theorem db_insertEvent : (w.insertEvent k row).2.db = w.db := by
  unfold insertEvent
  split <;> rfl

@[simp] theorem applied_insertEvent : (w.insertEvent k row).2.applied = w.applied := by
  unfold insertEvent
  split <;> rfl

variable (sid : Option String)

@[simp] theorem now_classify : (w.classify k sid).now = w.now := by simp [classify]

@[simp] theorem db_classify : (w.classify k sid).db = w.db := by simp [classify]

@[simp] theorem applied_classify : (w.classify k sid).applied = w.applied := by simp [classify]

end Frame

/-! ## What each write does to the ledger -/

section Ledger

variable {w : World} {k : EventKey}

theorem get_stamp (x : EventKey) : (w.stamp k).events.get x =
    if k = x then (w.events.get k).map ({ · with processed := true }) else w.events.get x := by
  unfold stamp
  cases found : w.events.get k with
  | none =>
    dsimp only
    split_ifs with same
    · rw [← same, found]
      rfl
    · rfl
  | some row => simp

theorem get_insertEvent (row : ℕ → EventRow) (x : EventKey) :
    (w.insertEvent k row).2.events.get x =
      if k = x then some ((w.events.get k).getD (row w.events.entries.length))
      else w.events.get x := by
  unfold insertEvent
  cases found : w.events.get k with
  | none => simp
  | some there =>
    dsimp only
    split_ifs with same
    · rw [← same, found]
      rfl
    · rfl

theorem events_stamp_congr {w' : World} (same : w'.events = w.events) :
    (w'.stamp k).events = (w.stamp k).events := by
  unfold stamp
  rw [same]
  split
  · exact same
  · rfl

theorem events_applyScheduledCancellation {sid : String} {reason : ScheduledReason} :
    (w.applyScheduledCancellation k sid reason).2.events =
      if (w.db.subscription (k.1, sid)).isSome then (w.stamp k).events else w.events := by
  unfold applyScheduledCancellation
  dsimp only
  split
  next none => simp [none]
  next row found =>
    simp only [found, Option.isSome_some, if_true]
    exact events_stamp_congr rfl

theorem events_applyRefundSettlement {sid : String} :
    (w.applyRefundSettlement k sid).2.events = (w.stamp k).events := by
  unfold applyRefundSettlement
  dsimp only
  split <;> exact events_stamp_congr rfl

theorem events_applyRevokedCancellation {sid : String} {reason : RevokedReason} :
    (w.applyRevokedCancellation k sid reason).2.events = (w.stamp k).events := by
  unfold applyRevokedCancellation
  dsimp only
  split <;> exact events_stamp_congr rfl

theorem events_projectPass {workspaceId : WorkspaceId} :
    (w.projectPass k workspaceId).events = (w.stamp k).events := events_stamp_congr rfl

theorem events_foldl_recompute (ids : List WorkspaceId) (w : World) :
    (ids.foldl recompute w).events = w.events := by
  induction ids generalizing w with
  | nil => rfl
  | cons id ids ih => exact ih (w.recompute id)

theorem events_applyPassRevoked (txn : String) : (w.applyPassRevoked k txn).2.events =
    if (w.applyPassRevoked k txn).1 then (w.stamp k).events else w.events := by
  unfold applyPassRevoked
  dsimp only
  split
  · rfl
  · split
    · rfl
    · exact events_stamp_congr (events_foldl_recompute _ _)

/-- A snapshot that conflicts with a live subscription changes nothing. -/
theorem writeSnapshot_cases {D : Deployment} {w' : World} {sub : NormalizedSubscription}
    {workspaceId : WorkspaceId} {entry : CatalogEntry} {selfMs : Option ℤ}
    {outcome : SnapshotOutcome}
    (written : (outcome, w') = w.writeSnapshot D k sub workspaceId entry selfMs) :
    outcome = .liveConflict ∧ w' = w ∨ outcome = .applied ∧ w'.events = (w.stamp k).events := by
  unfold writeSnapshot at written
  dsimp only at written
  split at written
  · exact .inl (Prod.mk.inj written)
  · obtain ⟨rfl, rfl⟩ := Prod.mk.inj written
    exact .inr ⟨rfl, events_stamp_congr (events_addCustomer ..)⟩

/-- What `applySubscription` may do: refuse the snapshot, find a conflict, or write it. -/
theorem applySubscription_cases {D : Deployment} {w' : World} {sub : NormalizedSubscription}
    {restoration : Option UpgradeRefundRestoration} {evidence : Option IntentEvidence}
    {workspaceId : WorkspaceId} {entry : CatalogEntry} {outcome : SnapshotOutcome}
    (did : w.applySubscription D k sub restoration evidence workspaceId entry = .ok (outcome, w')) :
    let selfMs := toMillis D.dateParse ((w.events.get k).bind (·.occurredAt))
    let newer := (w.peers k sub.providerSubscriptionId).any
      (isNewer D.dateParse selfMs (((w.events.get k).map (·.arrivalSeq)).getD 0) sub.status)
    let floored := belowFloor (w.db.subscription (k.1, sub.providerSubscriptionId)) sub
    (outcome = .ignored ∧ w' = w.stamp k ∧ (newer = true ∨ floored = true)) ∨
      (newer = false ∧ floored = false ∧
        (outcome, w') = w.writeSnapshot D k sub workspaceId entry selfMs) := by
  unfold applySubscription at did
  dsimp only at did ⊢
  split at did
  next newer =>
    obtain ⟨rfl, rfl⟩ : SnapshotOutcome.ignored = outcome ∧ w.stamp k = w' := by simpa using did
    exact .inl ⟨rfl, rfl, .inl newer⟩
  next older =>
    split at did
    · cases did
    · split at did
      next floored =>
        obtain ⟨rfl, rfl⟩ : SnapshotOutcome.ignored = outcome ∧ w.stamp k = w' := by simpa using did
        exact .inl ⟨rfl, rfl, .inr floored⟩
      next above =>
        exact .inr ⟨Bool.eq_false_iff.mpr older, Bool.eq_false_iff.mpr above,
          (Except.ok.inj did).symm⟩

end Ledger

end World

/-! ## What leaves grants and users alone -/

section Grants

variable {w : World} {k : EventKey}

@[simp] theorem grants_update {db : Db} {key : SubscriptionKey} {f : Subscription → Subscription} :
    (db.update key f).grants = db.grants := rfl

@[simp] theorem grants_upsert {db : Db} {row : Subscription} :
    (db.upsert row).grants = db.grants := by
  unfold Db.upsert
  split <;> rfl

theorem grants_applyScheduledCancellation {sid : String} {reason : ScheduledReason} :
    (w.applyScheduledCancellation k sid reason).2.db.grants = w.db.grants := by
  unfold World.applyScheduledCancellation
  dsimp only
  split <;> simp

theorem grants_applyRefundSettlement {sid : String} :
    (w.applyRefundSettlement k sid).2.db.grants = w.db.grants := by
  unfold World.applyRefundSettlement
  dsimp only
  split <;> simp

theorem grants_applyRevokedCancellation {sid : String} {reason : RevokedReason} :
    (w.applyRevokedCancellation k sid reason).2.db.grants = w.db.grants := by
  unfold World.applyRevokedCancellation
  dsimp only
  split <;> simp

theorem grants_writeSnapshot {D : Deployment} {sub : NormalizedSubscription}
    {workspaceId : WorkspaceId} {entry : CatalogEntry} {selfMs : Option ℤ} :
    (w.writeSnapshot D k sub workspaceId entry selfMs).2.db.grants = w.db.grants := by
  unfold World.writeSnapshot
  dsimp only
  split
  · rfl
  · simp

theorem grants_applySubscription {D : Deployment} {w' : World} {sub : NormalizedSubscription}
    {restoration : Option UpgradeRefundRestoration} {evidence : Option IntentEvidence}
    {workspaceId : WorkspaceId} {entry : CatalogEntry} {outcome : SnapshotOutcome}
    (did : w.applySubscription D k sub restoration evidence workspaceId entry = .ok (outcome, w')) :
    w'.db.grants = w.db.grants := by
  rcases World.applySubscription_cases did with ⟨-, rfl, -⟩ | ⟨-, -, written⟩
  · rw [World.db_stamp]
  · rw [show w' = _ from congrArg Prod.snd written, grants_writeSnapshot]

theorem grants_foldl_recompute (ids : List WorkspaceId) (w : World) :
    (ids.foldl World.recompute w).db.grants = w.db.grants := by
  induction ids generalizing w with
  | nil => rfl
  | cons id ids ih => exact ih (w.recompute id)

theorem grants_projectPass (workspaceId : WorkspaceId) :
    (w.projectPass k workspaceId).db.grants = w.db.grants := by simp [World.projectPass]

theorem grants_applyPassRevoked (txn : String) : (w.applyPassRevoked k txn).2.db.grants =
    if (w.applyPassRevoked k txn).1 then w.db.grants.map (·.revoke txn w.now) else w.db.grants := by
  unfold World.applyPassRevoked
  dsimp only
  split
  · rfl
  · split
    · rfl
    next ids db revoked =>
      have grants : db.grants = w.db.grants.map (·.revoke txn w.now) := by
        rw [show db = _ from (congrArg Prod.snd revoked).symm]
        rfl
      simp only [World.db_stamp, grants_foldl_recompute, grants, if_true]

end Grants

/-! ## What each write does to a row -/

section Rows

variable {db : Db} {key : SubscriptionKey} {f : Subscription → Subscription}

@[simp] theorem key_scheduleCancellation (s : Subscription) (reason : ScheduledReason) (now : ℤ) :
    (s.scheduleCancellation reason now).key = s.key := rfl

@[simp] theorem key_settleRefund (s : Subscription) (now : ℤ) : (s.settleRefund now).key = s.key := by
  unfold Subscription.settleRefund
  split_ifs <;> rfl

@[simp] theorem key_revokeCancellation (s : Subscription) (reason : RevokedReason) :
    (s.revokeCancellation reason).key = s.key := by
  unfold Subscription.revokeCancellation
  split_ifs <;> rfl

theorem subscription_update (keeps : ∀ s : Subscription, s.key = key → (f s).key = key)
    (x : SubscriptionKey) : (db.update key f).subscription x =
      if x = key then (db.subscription x).map f else db.subscription x := by
  unfold Db.update Db.subscription
  induction db.subscriptions with
  | nil => simp
  | cons s rows ih =>
    simp only [List.map_cons, List.find?_cons]
    have same : (if s.key = key then f s else s).key = s.key := by
      split_ifs with mine
      · exact (keeps s mine).trans mine.symm
      · rfl
    rw [same]
    by_cases hit : s.key = x
    · subst hit
      simp only [decide_true]
      split_ifs <;> rfl
    · simpa only [hit, decide_false] using ih

theorem mem_subscription {s : Subscription} (h : db.subscription key = some s) :
    s ∈ db.subscriptions ∧ s.key = key := by
  have found := List.find?_some h
  exact ⟨List.mem_of_find?_eq_some h, by simpa using found⟩

theorem subscription_upsert {row : Subscription} (x : SubscriptionKey) :
    (db.upsert row).subscription x = if x = row.key then some row else db.subscription x := by
  unfold Db.upsert
  cases found : db.subscription row.key with
  | none =>
    have appended : ({ db with subscriptions := db.subscriptions ++ [row] } : Db).subscription x =
        (db.subscription x).or (if row.key = x then some row else none) := by
      simp [Db.subscription, List.find?_append, List.find?_singleton]
    simp only [Option.isSome_none, Bool.false_eq_true, if_false]
    rw [appended]
    by_cases same : x = row.key
    · simp [same, found]
    · simp [same, Ne.symm same]
  | some old =>
    simp only [Option.isSome_some, if_true]
    rw [subscription_update fun s _ => rfl]
    by_cases same : x = row.key
    · simp [same, found]
    · simp [same]

end Rows

end DeclutrMail.Billing
