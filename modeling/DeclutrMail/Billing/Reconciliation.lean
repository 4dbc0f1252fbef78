import DeclutrMail.Billing.Verdicts
import DeclutrMail.Interleaving.Solo

/-!
# Verdicts that the provider contradicts

The turn of one row in a verdict pass that nothing interrupts. The pass lifts a verdict by an
event of its own, whose id names the subscription and the kind of the verdict, so it lifts each
kind once in the life of a subscription (`refuted_verdict_lifted_iff`).
-/

namespace DeclutrMail.Billing

open Interleaving

/-- The row of the event by which a pass lifts a verdict. -/
def refutedKey (key : SubscriptionKey) (verdict : CancelSource) : EventKey :=
  (key.1, (refutedEvent key verdict "").providerEventId)

/-- The row has no verdict and no deadline, and the tier of its workspace is projected from it. -/
def World.Lifted (w : World) (key : SubscriptionKey) : Prop :=
  ∃ (db : Db) (s : Subscription), w.db = recomputeWorkspaceTier db s.workspaceId w.now w.now ∧
    db.subscription key = some s ∧ s.cancelSource = none ∧ s.entitlementEndsAt = none

/-- `p`, run alone, may return `a`. -/
abbrev Returns {α : Type} (D : Deployment) (p : BillingProgram α) (w : World) (a : α) (w' : World) :
    Prop := Ends (billing D fun _ => true) (0 : ℕ) p w (.ok a) w'

section Requests

variable {D : Deployment} {w w' : World} {α β : Type}

theorem returns_ask {q : Request} {a : q.Answer} (h : Returns D (ask q) w a w') :
    ∃ f, effect D f w q = some (.ok (a, w')) := by
  obtain ⟨c, answered⟩ := h.of_perform
  change answer D q c w = some (.ok a, w') at answered
  cases c with
  | fail => cases answered
  | go f =>
    obtain ⟨r, did, same⟩ := Option.map_eq_some_iff.mp answered
    cases r with
    | error e => cases same
    | ok out =>
      obtain ⟨rfl, rfl⟩ : out.1 = a ∧ out.2 = w' := by simpa using same
      exact ⟨f, did⟩
  | lost f =>
    obtain ⟨r, -, same⟩ := Option.map_eq_some_iff.mp answered
    cases r <;> cases same

/-- A request that cannot fail by itself. -/
theorem returns_does {q : Request} {out : Findings → World → q.Answer × World} {a : q.Answer}
    (h : Returns D (ask q) w a w') (ran : ∀ f w, effect D f w q = some (.ok (out f w))) :
    ∃ f, out f w = (a, w') := by
  obtain ⟨f, did⟩ := returns_ask h
  rw [ran] at did
  exact ⟨f, by simpa using did⟩

/-- The pass was not stopped. -/
theorem returns_throwIfVerdictStopped (h : Returns D throwIfVerdictStopped w () w') : w' = w := by
  obtain ⟨stopped, v, asked, rest⟩ := h.of_bind_ok
  obtain ⟨f, same⟩ := returns_does asked fun _ _ => rfl
  obtain ⟨-, rfl⟩ := Prod.mk.inj same
  cases stopped with
  | true => cases (Ends.raise_iff.mp rest).1
  | false => exact (Ends.ret_iff.mp rest).2

/-- What was not caught went well. -/
theorem returns_caught {p : BillingProgram α} {a : α} (h : Returns D (caught p) w (some a) w') :
    Returns D p w a w' := by
  rcases h.of_tryCatch with ⟨b, same, done⟩ | ⟨e, v, -, handled⟩
  · obtain rfl := Except.ok.inj same
    obtain ⟨c, u, first, last⟩ := Ends.of_bind_ok (f := fun a => .ret (some a)) done
    obtain ⟨same, rfl⟩ := Ends.ret_iff.mp last
    obtain rfl := Option.some.inj (Except.ok.inj same)
    exact first
  · exfalso
    split at handled
    · cases (Ends.raise_iff.mp handled).1
    · obtain ⟨stopped, u, -, rest⟩ := handled.of_bind_ok
      cases stopped with
      | true => cases (Ends.raise_iff.mp rest).1
      | false => cases (Ends.ret_iff.mp rest).1

end Requests

/-! ## The event of a pass -/

section Lift

variable {D : Deployment} {w w' : World} {key : SubscriptionKey} {verdict : CancelSource}
  {observedAt : String}

theorem providerEventId_refutedEvent :
    (key.1, (refutedEvent key verdict observedAt).providerEventId) = refutedKey key verdict := rfl

/-- The event lifts verdicts of its own kind. -/
theorem body_refutedEvent (key : SubscriptionKey) (observedAt : String) (local_ : verdict ≠ .provider) :
    ∃ reason : RevokedReason, (refutedEvent key verdict observedAt).body =
      .cancellationRevoked key.2 reason none ∧ reason.voided = verdict := by
  cases verdict with
  | provider => exact absurd rfl local_
  | refund => exact ⟨.refundRejected, rfl, rfl⟩
  | chargeback => exact ⟨.chargebackReverse, rfl, rfl⟩

/-- The event is recorded, and handled unless it was processed. -/
theorem returns_receive {e : BillingEvent} {k : EventKey} {goesOn : Bool}
    (h : Returns D (receive k e) w goesOn w') :
    w' = (w.insertEvent k e.row).2 ∧
      goesOn = !(w.events.get k).any (·.processed) := by
  obtain ⟨inserted, v, asked, rest⟩ := h.of_bind_ok
  obtain ⟨f, same⟩ := returns_does asked fun _ _ => rfl
  cases there : w.events.get k with
  | none =>
    have fresh : w.insertEvent k e.row = (true, (w.insertEvent k e.row).2) := by
      simp [World.insertEvent, there]
    obtain ⟨rfl, rfl⟩ := Prod.mk.inj (fresh.symm.trans same)
    obtain ⟨same, rfl⟩ := Ends.ret_iff.mp rest
    exact ⟨rfl, Except.ok.inj same⟩
  | some row =>
    have known : w.insertEvent k e.row = (false, w) := by simp [World.insertEvent, there]
    rw [known]
    obtain ⟨rfl, rfl⟩ := Prod.mk.inj (known.symm.trans same)
    obtain ⟨processed, u, asked, rest⟩ := Ends.of_bind_ok rest
    obtain ⟨f, same⟩ := returns_does asked fun _ _ => rfl
    obtain ⟨rfl, rfl⟩ := Prod.mk.inj same
    rw [there] at rest
    cases done : row.processed <;> simp only [Option.map_some, done] at rest <;>
      obtain ⟨answered, rfl⟩ := Ends.ret_iff.mp rest
    · exact ⟨rfl, by simpa [done] using Except.ok.inj answered⟩
    · exact ⟨rfl, by simpa [done] using Except.ok.inj answered⟩

theorem reviewed_refutedEvent (p : BillingProviderId) :
    (refutedEvent key verdict observedAt).reviewed p = false := by
  have other : "adjustment.".toList.isPrefixOf
      "reconciliation.cancellation_revoked".toList = false := by decide
  have type_ : (refutedEvent key verdict observedAt).eventType =
      "reconciliation.cancellation_revoked" := rfl
  have plain : RefundReference.present (refutedEvent key verdict observedAt).body = false := by
    cases verdict <;> rfl
  rw [BillingEvent.reviewed, type_, other, plain, Bool.false_or, Bool.and_false, Bool.false_and]

/-- The event of a pass lifts the verdict, unless it was processed before. -/
theorem returns_process (local_ : verdict ≠ .provider) {outcome : WebhookProcessOutcome}
    (h : Returns D (process D key.1 (refutedEvent key verdict observedAt)) w outcome w') :
    if (w.events.get (refutedKey key verdict)).any (·.processed) then w' = w
    else ∃ reason : RevokedReason, reason.voided = verdict ∧
      w' = (World.applyRevokedCancellation (w.insertEvent (refutedKey key verdict)
        (refutedEvent key verdict observedAt).row).2 (refutedKey key verdict) key.2 reason).2 := by
  obtain ⟨reason, body, voided⟩ := body_refutedEvent key observedAt local_
  obtain ⟨goesOn, v, received, rest⟩ := h.of_bind_ok
  obtain ⟨rfl, rfl⟩ := returns_receive received
  rw [providerEventId_refutedEvent] at rest
  cases done : (w.events.get (refutedKey key verdict)).any (·.processed) with
  | true =>
    simp only [done, Bool.not_true, Bool.not_false, if_true] at rest ⊢
    obtain ⟨-, rfl⟩ := Ends.ret_iff.mp rest
    obtain ⟨row, there, -⟩ := (Option.any_eq_true _ _).mp done
    simp [World.insertEvent, there]
  | false =>
    simp only [done, Bool.not_false, Bool.not_true, Bool.false_eq_true, if_false] at rest ⊢
    obtain ⟨gated, u, gate, rest⟩ := Ends.of_bind_ok rest
    rw [body] at gate rest
    obtain ⟨answered, rfl⟩ := Ends.ret_iff.mp gate
    obtain rfl := Except.ok.inj answered
    obtain ⟨review, u, reviewed, rest⟩ := Ends.of_bind_ok rest
    rw [reviewRefund, reviewed_refutedEvent] at reviewed
    obtain ⟨answered, rfl⟩ := Ends.ret_iff.mp reviewed
    obtain rfl := Except.ok.inj answered
    obtain ⟨lifted, u, revoked, rest⟩ := Ends.of_bind_ok rest
    obtain ⟨f, did⟩ := returns_does revoked fun _ _ => rfl
    have last : w' = u := by
      cases lifted <;> exact (Ends.ret_iff.mp rest).2
    refine ⟨reason, voided, ?_⟩
    rw [last]
    exact (congrArg Prod.snd did).symm

/-- A verdict that is voided is lifted. -/
theorem lifted_applyRevokedCancellation {k : EventKey} {reason : RevokedReason} {s : Subscription}
    (here : k.1 = key.1) (found : w.db.subscription key = some s)
    (stands : s.cancelSource = some reason.voided) :
    (w.applyRevokedCancellation k key.2 reason).2.Lifted key := by
  have matched : (w.db.subscription (k.1, key.2)).filter
      (·.cancelSource = some reason.voided) = some s := by
    rw [here, found]
    simp [Option.filter, stands]
  have lifts : s.revokeCancellation reason = { s with cancelSource := none, entitlementEndsAt := none } :=
    if_pos stands
  have row : (w.db.update (k.1, key.2) (·.revokeCancellation reason)).subscription key =
      some (s.revokeCancellation reason) := by
    rw [subscription_update (fun s => (key_revokeCancellation s _).trans), found, here, if_pos rfl, Option.map_some]
  unfold World.applyRevokedCancellation
  dsimp only
  rw [matched]
  refine ⟨_, s.revokeCancellation reason, ?_, row, by rw [lifts], by rw [lifts]⟩
  rw [World.db_stamp, World.now_stamp, lifts]
  rfl

/-- A verdict that stands is not lifted. -/
theorem not_lifted {s : Subscription} (found : w.db.subscription key = some s)
    (stands : s.cancelSource = some verdict) : ¬ w.Lifted key := by
  rintro ⟨db, s', same, found', lifted, -⟩
  have kept : w.db.subscription key = db.subscription key := by
    rw [same]
    rfl
  rw [kept, found'] at found
  rw [← Option.some.inj found, lifted] at stands
  cases stands

/-- The pass lifts the verdict iff it did not lift one of this kind before. -/
theorem lifted_iff (local_ : verdict ≠ .provider) {s : Subscription}
    (found : w.db.subscription key = some s) (stands : s.cancelSource = some verdict)
    (h : Returns D (liftRefutedVerdict D key verdict) w () w') :
    w'.Lifted key ↔ (w.events.get (refutedKey key verdict)).any (·.processed) = false := by
  obtain ⟨observedAt, v, asked, rest⟩ := h.of_bind_ok
  obtain ⟨f, same⟩ := returns_does asked fun _ _ => rfl
  obtain ⟨-, rfl⟩ := Prod.mk.inj same
  obtain ⟨_, v, unstopped, lift⟩ := rest.of_bind_ok
  obtain rfl := returns_throwIfVerdictStopped unstopped
  obtain ⟨outcome, u, processed, last⟩ := lift.of_bind_ok
  obtain ⟨-, rfl⟩ := Ends.ret_iff.mp last
  have did := returns_process local_ processed
  cases done : (v.events.get (refutedKey key verdict)).any (·.processed) with
  | true =>
    rw [done, if_pos rfl] at did
    rw [did]
    exact iff_of_false (not_lifted found stands) (by simp)
  | false =>
    rw [done, if_neg (by simp)] at did
    obtain ⟨reason, rfl, rfl⟩ := did
    have kept : (World.insertEvent v (refutedKey key reason.voided)
        (refutedEvent key reason.voided observedAt).row).2.db.subscription key = some s :=
      (congrArg (fun db : Db => db.subscription key) (World.db_insertEvent ..)).trans found
    exact iff_of_true (lifted_applyRevokedCancellation rfl kept stands) rfl

end Lift

/-! ## The turn of a row -/

/-- Without refunds of upgrades, the pass comes to the verdict as it read the row. -/
theorem returns_projectPaddle {D : Deployment} {restoreEnabled : Bool} {key : SubscriptionKey}
    {facts : ProviderCancellationFacts} {w v : World} (none : facts.upgradeRefunds = [])
    (h : Returns D (projectPaddle D restoreEnabled key facts) w () v) : v = w := by
  unfold projectPaddle at h
  split at h
  · obtain ⟨_, u, unstopped, rest⟩ := h.of_bind_ok
    obtain rfl := returns_throwIfVerdictStopped unstopped
    obtain ⟨_, u', recovered, projected⟩ := rest.of_bind_ok
    rw [none] at projected
    obtain ⟨-, rfl⟩ := Ends.ret_iff.mp projected
    obtain ⟨records, x, asked, observed⟩ := recovered.of_bind_ok
    obtain ⟨f, same⟩ := returns_does asked fun _ _ => rfl
    obtain ⟨rfl, rfl⟩ := Prod.mk.inj same
    split at observed
    · obtain ⟨f, same⟩ := returns_does observed fun _ _ => rfl
      exact (congrArg Prod.snd same).symm
    · exact (Ends.ret_iff.mp observed).2
  · exact (Ends.ret_iff.mp h).2

/-- What a pass finds on a charged back row that the provider does not confirm. -/
def refuting : Findings :=
  { nothingFound with
    verdictRows := [⟨(.paddle, "sub"), some .chargeback, .active⟩]
    fetched := .found ⟨"sub", none, "pri", .active, some 20, false, none, none, none, none⟩
    facts := some ⟨none, false, true, []⟩ }

/-- The moves of a pass over one row. -/
def pass {D : Deployment} (t : ℕ) (f : Findings) : List (Move (billing D fun _ => true)) :=
  .start t (.enforce false) :: List.replicate 15 (.reply t (.go f))

/-- The pass has refuted one verdict. -/
def refutedOne (p : Option (BillingProgram Outcome)) : Bool :=
  match p with
  | some (.ret (.enforced r)) => decide (r.refuted = 1)
  | _ => false

theorem exists_of_refutedOne {p : Option (BillingProgram Outcome)} (h : refutedOne p = true) :
    ∃ r, p = some (.ret (.enforced r)) ∧ r.refuted = 1 := by
  unfold refutedOne at h
  split at h
  · exact ⟨_, rfl, of_decide_eq_true h⟩
  · cases h

end DeclutrMail.Billing
