import DeclutrMail.Billing.Entitlements
import DeclutrMail.Collections.Batches

/-!
# Founding seats

An allocated seat is an entry of an append-only ledger. A row of `subscriptions` that is marked
founding and has no entry yet is a legacy seat, which counts too.
-/

namespace DeclutrMail.Billing

open Batches

/-- What is unique about a row of `subscriptions`. -/
abbrev SubscriptionKey := BillingProviderId × String

def Subscription.key (s : Subscription) : SubscriptionKey := (s.provider, s.providerSubscriptionId)

/-- The entries of type `FOUNDING_REDEEMED`, by the subscription they name. -/
abbrev FoundingLedger := List SubscriptionKey

/-- `recordFoundingRedemption`: an entry that is there already stays. -/
def recordFoundingRedemption (ledger : FoundingLedger) (key : SubscriptionKey) : FoundingLedger :=
  put ledger key

/-- The rows that are marked founding. -/
def foundingKeys (subscriptions : List Subscription) : List SubscriptionKey :=
  (subscriptions.filter (·.foundingMember)).map (·.key)

/-- The identities of the union that `foundingRedemptionCount` counts. -/
def foundingIdentities (ledger : FoundingLedger) (subscriptions : List Subscription) :
    List SubscriptionKey := distinct (ledger ++ foundingKeys subscriptions)

def foundingRedemptionCount (ledger : FoundingLedger) (subscriptions : List Subscription) : ℕ :=
  (foundingIdentities ledger subscriptions).length

/-- `claimFoundingRedemption`, under the lock that serializes it. -/
def claimFoundingRedemption (ledger : FoundingLedger) (subscriptions : List Subscription)
    (key : SubscriptionKey) (maximum : ℕ) (canAllocate : Bool) : Bool × FoundingLedger :=
  let durable := decide (key ∈ ledger)
  let legacy := (subscriptions.find? (·.key = key)).any (·.foundingMember)
  if durable || legacy then (true, recordFoundingRedemption ledger key)
  else if !canAllocate || decide (maximum ≤ foundingRedemptionCount ledger subscriptions) then
    (false, ledger)
  else (true, recordFoundingRedemption ledger key)

end DeclutrMail.Billing
