import DeclutrMail.Billing.Verdicts
import DeclutrMail.Effects.Reordering

/-!
# Adjustments in any order

Refunds, chargebacks, and what becomes of them, delivered in any order. The writers of
adjustments have no staleness check, and one that finds no verdict is stamped as well. So a row
comes to what the history gives only if adjustments that conflict take effect in the order of the
history (`InOrder`).
-/

namespace DeclutrMail.Billing

open Interleaving Effects

/-! ## Adjustments and their effects -/

/-- The effect of an adjustment. -/
def EventBody.adjustment : EventBody → Option RowEffect
  | .cancellationScheduled _ .refund _ => some (.schedule .refund)
  | .cancellationScheduled _ .chargeback _ => some (.schedule .chargeback)
  | .cancellationRevoked _ reason _ => some (.revoke reason)
  | .refundSettled .. => some .settle
  | _ => none

/-- A history of adjustments of one subscription, and an id belongs to one event. -/
structure AdjustmentsOf (sid : String) (events : List BillingEvent) : Prop where
  body : ∀ e ∈ events, e.body.adjustment.isSome = true ∧ e.body.providerSubscriptionId = some sid
  id : (events.map (·.providerEventId)).Nodup

def RowEffect.adjust (effect : RowEffect) (now : ℤ) (s : Subscription) : Subscription :=
  match effect with
  | .schedule reason => s.scheduleCancellation reason now
  | .revoke reason => s.revokeCancellation reason
  | .settle => s.settleRefund now
  | .snapshot .. => s

/-- The order of the two effects does not matter. -/
def RowEffect.commutes : RowEffect → RowEffect → Bool
  | .schedule .chargeback, .schedule .chargeback => true
  | .schedule .chargeback, .revoke .refundRejected => true
  | .revoke .refundRejected, .schedule .chargeback => true
  | .schedule .refund, .revoke .chargebackReverse => true
  | .revoke .chargebackReverse, .schedule .refund => true
  | .revoke .chargebackReverse, .settle => true
  | .settle, .revoke .chargebackReverse => true
  | .revoke _, .revoke _ => true
  | .settle, .settle => true
  | _, _ => false

/-- The row after the adjustments in the order of the history, each at its own instant. -/
def inOrder (events : List BillingEvent) (at_ : BillingEvent → ℤ) (s : Subscription) : Subscription :=
  events.foldl (fun s e => (e.body.adjustment.map (·.adjust (at_ e) s)).getD s) s

/-- The place of an entry's event in the history. -/
def Applied.position (a : Applied) (events : List BillingEvent) : ℕ :=
  (events.map (·.providerEventId)).idxOf a.event.2

/-- No adjustment takes effect after a later one that it does not commute with. -/
def InOrder (events : List BillingEvent) (log : List Applied) : Prop :=
  log.Pairwise fun a b => a.position events < b.position events ∨ a.effect.commutes b.effect = true

instance (events : List BillingEvent) (log : List Applied) : Decidable (InOrder events log) :=
  inferInstanceAs (Decidable (log.Pairwise _))

/-- The ledger has no trace of the refund of an upgrade. -/
def World.Ordinary (w : World) (provider : BillingProviderId) : Prop :=
  ∀ id, ¬ w.Recorded (provider, "local:upgrade-refund-classified:" ++ id) ∧
    ¬ w.Recorded (provider, "local:upgrade-refund-restored:" ++ id)

/-! ## What commutes -/

section Laws

variable {T t t' : ℤ} {s s' : Subscription} {effect effect' : RowEffect}

/-- The rows differ in their deadlines at most, and these are both over at `T` or both are not. -/
def SameAt (T : ℤ) (s s' : Subscription) : Prop :=
  s' = { s with entitlementEndsAt := s'.entitlementEndsAt } ∧
    unexpired T s.entitlementEndsAt = unexpired T s'.entitlementEndsAt

theorem SameAt.refl (s : Subscription) : SameAt T s s := ⟨rfl, rfl⟩

theorem SameAt.of_eq (h : s = s') : SameAt T s s' := h ▸ .refl s

theorem SameAt.trans {s'' : Subscription} (h : SameAt T s s') (h' : SameAt T s' s'') :
    SameAt T s s'' := by
  refine ⟨?_, h.2.trans h'.2⟩
  rw [h'.1, h.1]

theorem SameAt.grants (h : SameAt T s s') : s.grants T = s'.grants T := by
  rw [Subscription.grants, Subscription.grants, h.2, h.1]

theorem SameAt.cancelSource (h : SameAt T s s') : s.cancelSource = s'.cancelSource := by rw [h.1]

theorem unexpired_of_le (le : t ≤ T) : unexpired T (some t) = false := by
  simpa [unexpired] using le

theorem SameAt.adjust (h : SameAt T s s') (effect : RowEffect) (t : ℤ) :
    SameAt T (effect.adjust t s) (effect.adjust t s') := by
  obtain ⟨rest, ends⟩ := h
  cases effect with
  | schedule reason =>
    rw [rest]
    exact .refl _
  | snapshot => exact ⟨rest, ends⟩
  | revoke reason =>
    rw [rest]
    grind [SameAt, RowEffect.adjust, Subscription.revokeCancellation]
  | settle =>
    rw [rest]
    grind [SameAt, RowEffect.adjust, Subscription.settleRefund, Subscription.settleable]

/-- A cancellation is scheduled over whatever a reversal leaves. -/
theorem schedule_revoke (s : Subscription) (reason : ScheduledReason) (r : RevokedReason) (t : ℤ) :
    (s.revokeCancellation r).scheduleCancellation reason t = s.scheduleCancellation reason t := by
  unfold Subscription.revokeCancellation
  split_ifs <;> rfl

/-- A reversal leaves other cancellations alone. -/
theorem revoke_schedule (s : Subscription) {reason : ScheduledReason} {r : RevokedReason} (t : ℤ)
    (other : reason.cancelSource ≠ r.voided) :
    (s.scheduleCancellation reason t).revokeCancellation r = s.scheduleCancellation reason t :=
  if_neg fun same => other (Option.some.inj same)

theorem revoke_comm (s : Subscription) (r r' : RevokedReason) :
    (s.revokeCancellation r).revokeCancellation r' =
      (s.revokeCancellation r').revokeCancellation r := by
  unfold Subscription.revokeCancellation
  split_ifs <;> simp_all

theorem revoke_revoke (s : Subscription) (r : RevokedReason) :
    (s.revokeCancellation r).revokeCancellation r = s.revokeCancellation r := by
  unfold Subscription.revokeCancellation
  split_ifs <;> simp_all

theorem settle_revoke (s : Subscription) (t : ℤ) :
    (s.revokeCancellation .chargebackReverse).settleRefund t =
      (s.settleRefund t).revokeCancellation .chargebackReverse := by
  unfold Subscription.revokeCancellation Subscription.settleRefund
  by_cases settleable : s.settleable = true
  · obtain ⟨source, -⟩ := settleable_iff.mp settleable
    simp [settleable, source, RevokedReason.voided]
  · rw [if_neg settleable]
    split_ifs with reversed still
    · simp [Subscription.settleable] at still
    · rfl
    · rfl

/-- A refund is settled once. -/
theorem settle_settle (s : Subscription) (t t' : ℤ) :
    (s.settleRefund t).settleRefund t' = s.settleRefund t := by
  unfold Subscription.settleRefund
  split_ifs with settleable again
  · simp [Subscription.settleable] at again
  · rfl
  · rfl

/-- The instant does not matter but for the deadline of a refund that is pending. -/
theorem adjust_at (effect : RowEffect) (s : Subscription) (le : t ≤ T) (le' : t' ≤ T)
    (same : ∀ reason, effect = .schedule reason → reason = .chargeback ∨ t = t') :
    SameAt T (effect.adjust t s) (effect.adjust t' s) := by
  have beyond : unexpired T (some t) = unexpired T (some t') :=
    (unexpired_of_le le).trans (unexpired_of_le le').symm
  cases effect with
  | snapshot | revoke => exact .refl _
  | schedule reason =>
    rcases same reason rfl with rfl | rfl
    · exact ⟨rfl, beyond⟩
    · exact .refl _
  | settle =>
    unfold RowEffect.adjust Subscription.settleRefund
    dsimp only
    split_ifs
    · exact ⟨rfl, beyond⟩
    · exact .refl _

theorem adjust_commutes (s : Subscription) (free : effect.commutes effect' = true) (le : t ≤ T)
    (le' : t' ≤ T) : SameAt T (effect'.adjust t' (effect.adjust t s))
      (effect.adjust t (effect'.adjust t' s)) := by
  unfold RowEffect.commutes at free
  split at free
  · exact ⟨rfl, (unexpired_of_le le').trans (unexpired_of_le le).symm⟩
  · exact .of_eq ((revoke_schedule s t (by decide)).trans (schedule_revoke ..).symm)
  · exact .of_eq ((schedule_revoke ..).trans (revoke_schedule s t' (by decide)).symm)
  · exact .of_eq ((revoke_schedule s t (by decide)).trans (schedule_revoke ..).symm)
  · exact .of_eq ((schedule_revoke ..).trans (revoke_schedule s t' (by decide)).symm)
  · exact .of_eq (settle_revoke s t')
  · exact .of_eq (settle_revoke s t).symm
  · exact .of_eq (revoke_comm ..)
  · have once : SameAt T (s.settleRefund t) (s.settleRefund t') :=
      adjust_at .settle s le le' fun _ is => by cases is
    exact (SameAt.of_eq (settle_settle ..)).trans (once.trans (.of_eq (settle_settle ..).symm))
  · cases free

theorem adjust_absorbs (s : Subscription) (free : effect.commutes effect = true) (le : t ≤ T)
    (le' : t' ≤ T) : SameAt T (effect.adjust t' (effect.adjust t s)) (effect.adjust t' s) := by
  cases effect with
  | snapshot => cases free
  | schedule reason => exact .refl _
  | revoke r => exact .of_eq (revoke_revoke s r)
  | settle =>
    exact (SameAt.of_eq (settle_settle ..)).trans
      (adjust_at .settle s le le' fun _ is => by cases is)

end Laws

/-! ## What a delivery of an adjustment does -/

section Commits

variable {D : Deployment} {key : SubscriptionKey} {events : List BillingEvent} {w w' w₀ : World}
  {e : BillingEvent} {provider : BillingProviderId}

theorem World.Ordinary.back {E : Task → Bool} (h : w'.Ordinary provider) (commit : Commit D E w w') :
    w.Ordinary provider :=
  fun id => ⟨fun there => (h id).1 (commit.recorded there), fun there =>
    (h id).2 (commit.recorded there)⟩

theorem handled_history {p : BillingProviderId} (h : Handled (delivers provider events) p e) :
    p = provider ∧ (e ∈ events ∨ ∃ sub confirmedAt adjustmentId intentId,
      e = restorationEvent sub confirmedAt adjustmentId intentId) := by
  induction h with
  | delivered admitted =>
    obtain ⟨same, mem⟩ : _ ∧ _ := by simpa [delivers] using admitted
    exact ⟨same, .inl mem⟩
  | restored _ sub confirmedAt adjustmentId intentId _ ih =>
    exact ⟨ih.1, .inr ⟨sub, confirmedAt, adjustmentId, intentId, rfl⟩⟩
  | refuted admitted | settled admitted | upgrade admitted => cases admitted

/-- A commit leaves the row and the stamps of the history alone, or has the effect of one of its
adjustments. -/
theorem Commit.adjusts (h : AdjustmentsOf key.2 events) (ordinary : w'.Ordinary key.1)
    (commit : Commit D (delivers key.1 events) w w') :
    (w.now ≤ w'.now ∧ w'.applied = w.applied ∧
      w'.db.subscription key = w.db.subscription key ∧
      ∀ e ∈ events, w'.Processed key.1 e → w.Processed key.1 e) ∨
    ∃ e ∈ events, ∃ effect, e.body.adjustment = some effect ∧
      w.Affects w' (key.1, e.providerEventId) key effect ∧
      ∀ e' ∈ events, w'.Processed key.1 e' → w.Processed key.1 e' ∨
        e.providerEventId = e'.providerEventId := by
  have before := ordinary.back commit
  have other : ∀ {p e}, Handled (delivers key.1 events) p e → w.Recorded (p, e.providerEventId) →
      p = key.1 ∧ e ∈ events := by
    intro p e handled recorded
    obtain ⟨rfl, mem | ⟨sub, confirmedAt, adjustmentId, intentId, rfl⟩⟩ := handled_history handled
    · exact ⟨rfl, mem⟩
    · exact absurd recorded (before adjustmentId).2
  have stamped : ∀ {e : BillingEvent}, w.Recorded (key.1, e.providerEventId) →
      w'.events = (w.stamp (key.1, e.providerEventId)).events →
      ∀ e' ∈ events, w'.Processed key.1 e' → w.Processed key.1 e' ∨
        e.providerEventId = e'.providerEventId := by
    intro e recorded events e' _ processed
    rw [processed_congr events, processed_stamp recorded] at processed
    exact processed.imp_right fun same => (Prod.mk.inj same).2
  cases commit with
  | rest => exact .inl ⟨le_rfl, rfl, rfl, fun _ _ => id⟩
  | wait ms => exact .inl ⟨by simp, rfl, rfl, fun _ _ => id⟩
  | insert => exact .inl ⟨by simp, by simp, by simp, fun _ _ => processed_insertEvent.mp⟩
  | customer => exact .inl ⟨by simp, by simp, by simp, fun _ _ =>
      (processed_congr (World.events_addCustomer ..)).mp⟩
  | mark handled recorded body =>
    obtain ⟨rfl, mem⟩ := other handled recorded
    have adjusts := (h.body _ mem).1
    rcases body with body | ⟨payment, body, -⟩ <;> rw [body] at adjusts <;> cases adjusts
  | @classify p e handled recorded =>
    obtain ⟨rfl, -⟩ := other handled recorded
    refine absurd ?_ (ordinary e.providerEventId).1
    obtain ⟨row, there⟩ : (w.insertEvent _ _).2.Recorded _ :=
      ⟨_, (World.get_insertEvent _ _).trans (if_pos rfl)⟩
    obtain ⟨row', there', -⟩ := stays_stamp there
    exact ⟨row', there'⟩
  | snapshot handled recorded body =>
    have adjusts := (h.body _ (other handled recorded).2).1
    rw [body] at adjusts
    cases adjusts
  | @schedule p e sid reason reference handled recorded body =>
    obtain ⟨rfl, mem⟩ := other handled recorded
    obtain ⟨adjusts, sub⟩ := h.body e mem
    rw [body] at adjusts sub
    obtain rfl : sid = key.2 := Option.some.inj sub
    have effect : e.body.adjustment = some (.schedule reason) := by
      rw [body]
      cases reason with
      | refund | chargeback => rfl
      | providerScheduled => cases adjusts
    cases found : w.db.subscription key with
    | none =>
      have same : w.applyScheduledCancellation (key.1, e.providerEventId) key.2 reason = (false, w) := by
        unfold World.applyScheduledCancellation
        dsimp only
        rw [found]
      rw [same]
      exact .inl ⟨le_rfl, rfl, found, fun _ _ => id⟩
    | some row =>
      refine .inr ⟨e, mem, _, effect, affects_applyScheduledCancellation found, stamped recorded ?_⟩
      rw [World.events_applyScheduledCancellation, if_pos (by simp [found])]
  | @settle p e sid reference handled recorded body =>
    obtain ⟨rfl, mem⟩ := other handled recorded
    have sub := (h.body e mem).2
    rw [body] at sub
    obtain rfl : sid = key.2 := Option.some.inj sub
    exact .inr ⟨e, mem, .settle, by rw [body]; rfl, affects_applyRefundSettlement,
      stamped recorded World.events_applyRefundSettlement⟩
  | @revoke p e sid reason reference handled recorded body =>
    obtain ⟨rfl, mem⟩ := other handled recorded
    have sub := (h.body e mem).2
    rw [body] at sub
    obtain rfl : sid = key.2 := Option.some.inj sub
    exact .inr ⟨e, mem, .revoke reason, by rw [body]; rfl, affects_applyRevokedCancellation,
      stamped recorded World.events_applyRevokedCancellation⟩
  | grant handled body =>
    obtain ⟨-, mem | ⟨sub, confirmedAt, adjustmentId, intentId, rfl⟩⟩ := handled_history handled
    · have adjusts := (h.body _ mem).1
      rw [body] at adjusts
      cases adjusts
    · cases body
  | project workspaceId handled recorded body =>
    have adjusts := (h.body _ (other handled recorded).2).1
    rw [body] at adjusts
    cases adjusts
  | revokePass handled recorded body =>
    have adjusts := (h.body _ (other handled recorded).2).1
    rw [body] at adjusts
    cases adjusts

/-- What took effect since `w₀`, and what it made of the row. -/
structure Adjusted (key : SubscriptionKey) (events : List BillingEvent) (w₀ : World)
    (s₀ : Subscription) (w : World) : Prop where
  log : ∀ a ∈ w.appliedSince w₀, a.at_ ≤ w.now ∧ ∃ e ∈ events,
    a.event.2 = e.providerEventId ∧ e.body.adjustment = some a.effect
  row : w.db.subscription key =
    some ((w.appliedSince w₀).foldl (fun s a => a.effect.adjust a.at_ s) s₀)
  processed : ∀ e ∈ events, w.Processed key.1 e →
    ∃ a ∈ w.appliedSince w₀, a.event.2 = e.providerEventId

theorem run_adjustment {effect : RowEffect} {now : ℤ} {s : Subscription}
    (h : e.body.adjustment = some effect) :
    effect.run key now (some s) = some (effect.adjust now s) := by
  cases effect with
  | schedule | revoke | settle => rfl
  | snapshot =>
    unfold EventBody.adjustment at h
    split at h <;> cases h

theorem adjusted_of_commits {s₀ : Subscription} (h : AdjustmentsOf key.2 events)
    (found : w₀.db.subscription key = some s₀)
    (start : ∀ e ∈ events, ¬ w₀.Recorded (key.1, e.providerEventId))
    (run : Relation.ReflTransGen (Commit D (delivers key.1 events)) w₀ w)
    (ordinary : w.Ordinary key.1) : Adjusted key events w₀ s₀ w := by
  induction run with
  | refl =>
    have none : w₀.appliedSince w₀ = [] := by simp [World.appliedSince]
    refine ⟨by simp [none], by simp [none, found], fun e mem processed => ?_⟩
    obtain ⟨row, there, -⟩ := processed
    exact absurd ⟨row, there⟩ (start e mem)
  | @tail w w' run commit ih =>
    have inv := ih (ordinary.back commit)
    rcases commit.adjusts h ordinary with
      ⟨le, log, row, processed⟩ | ⟨e, mem, effect, is, affects, processed⟩
    · have same : w'.appliedSince w₀ = w.appliedSince w₀ := appliedSince_congr log
      refine ⟨?_, by rw [row, same, inv.row], fun e mem done => ?_⟩
      · rw [same]
        exact fun a mem => ⟨(inv.log a mem).1.trans le, (inv.log a mem).2⟩
      · rw [same]
        exact inv.processed e mem (processed e mem done)
    · have grown := appliedSince_affects run affects
      refine ⟨fun a there => ?_, ?_, fun e' mem' done => ?_⟩
      · rw [grown] at there
        rw [affects.now]
        rcases List.mem_append.mp there with old | new
        · exact inv.log a old
        · obtain rfl := List.mem_singleton.mp new
          exact ⟨le_rfl, e, mem, rfl, is⟩
      · rw [affects.subscription, if_pos rfl, inv.row, run_adjustment is, grown, List.foldl_append]
        rfl
      · rw [grown]
        rcases processed e' mem' done with old | same
        · obtain ⟨a, there, of⟩ := inv.processed e' mem' old
          exact ⟨a, List.mem_append_left _ there, of⟩
        · exact ⟨_, List.mem_append_right _ List.mem_cons_self, same⟩

end Commits

/-! ## Convergence -/

section Converge

variable {D : Deployment} {key : SubscriptionKey} {events : List BillingEvent} {T : ℤ}

/-- The entry of an adjustment that takes effect at an instant. -/
def BillingEvent.entry (key : SubscriptionKey) (at_ : BillingEvent → ℤ) (e : BillingEvent) :
    Option Applied :=
  e.body.adjustment.map fun effect => ⟨(key.1, e.providerEventId), key, effect, at_ e, none⟩

/-- Entries that commute, if they are past and entries of one event have one effect. -/
def Independent (events : List BillingEvent) (T : ℤ) (a b : Applied) : Prop :=
  a.at_ ≤ T ∧ b.at_ ≤ T ∧ a.effect.commutes b.effect = true ∧
    (a.position events = b.position events → a.effect = b.effect)

theorem reordering (events : List BillingEvent) (T : ℤ) :
    Reordering (fun s (a : Applied) => a.effect.adjust a.at_ s) (SameAt T)
      (fun a => a.position events) (Independent events T) where
  refl := .refl
  trans := .trans
  congr a h := h.adjust a.effect a.at_
  commute s free := adjust_commutes s free.2.2.1 free.1 free.2.1
  absorb := by
    rintro a b s same ⟨le, le', free, one⟩
    rw [one same] at free ⊢
    exact adjust_absorbs s free le le'

theorem pairwise_idxOf {ids : List String} (nodup : ids.Nodup) :
    ids.Pairwise fun x y => ids.idxOf x < ids.idxOf y := by
  refine List.pairwise_iff_getElem.mpr fun i j hi hj before => ?_
  rwa [nodup.idxOf_getElem, nodup.idxOf_getElem]

theorem sorted_entries (h : AdjustmentsOf key.2 events) (at_ : BillingEvent → ℤ) :
    (events.filterMap (·.entry key at_)).Pairwise fun a b =>
      a.position events < b.position events := by
  refine List.pairwise_filterMap.mpr ((List.pairwise_map.mp (pairwise_idxOf h.id)).imp ?_)
  intro e e' before a is a' is'
  obtain ⟨_, -, rfl⟩ := Option.map_eq_some_iff.mp is
  obtain ⟨_, -, rfl⟩ := Option.map_eq_some_iff.mp is'
  exact before

theorem foldl_entries (key : SubscriptionKey) (events : List BillingEvent) (at_ : BillingEvent → ℤ)
    (s : Subscription) : (events.filterMap (·.entry key at_)).foldl
      (fun s a => a.effect.adjust a.at_ s) s = inOrder events at_ s := by
  rw [List.foldl_filterMap, inOrder]
  congr 1
  funext s e
  unfold BillingEvent.entry
  cases e.body.adjustment <;> rfl

/-- Once every adjustment is processed, the source of the cancellation and the access are those
that the history gives, if no adjustment took effect after a later one that conflicts with it. A
refund that is pending counts its days from the instant at which it took effect. -/
theorem adjustments_converge {w : World} {s₀ : Subscription} (h : AdjustmentsOf key.2 events)
    (found : w.db.subscription key = some s₀)
    (start : ∀ e ∈ events, ¬ w.Recorded (key.1, e.providerEventId))
    {c : Config (billing D (delivers key.1 events))} (run : Reaches (Config.idle w) c)
    (ordinary : c.world.Ordinary key.1) (all : ∀ e ∈ events, c.world.Processed key.1 e)
    (order : InOrder events (c.world.appliedSince w)) (after : c.world.now ≤ T)
    (at_ : BillingEvent → ℤ) (past : ∀ e ∈ events, at_ e ≤ T)
    (requests : ∀ a ∈ c.world.appliedSince w, a.effect = .schedule .refund →
      ∀ e ∈ events, a.event.2 = e.providerEventId → at_ e = a.at_) :
    ∃ s, c.world.db.subscription key = some s ∧
      s.cancelSource = (inOrder events at_ s₀).cancelSource ∧
      s.grants T = (inOrder events at_ s₀).grants T := by
  have inv := adjusted_of_commits h found start (commits_of_runWhere .refl run) ordinary
  have one : ∀ e ∈ events, ∀ e' ∈ events, e.providerEventId = e'.providerEventId → e = e' :=
    fun e mem e' mem' same => List.inj_on_of_nodup_map h.id mem mem' same
  have related : SameAt T ((c.world.appliedSince w).foldl (fun s a => a.effect.adjust a.at_ s) s₀)
      ((events.filterMap (·.entry key at_)).foldl (fun s a => a.effect.adjust a.at_ s) s₀) := by
    refine (reordering events T).foldl_rel (sorted_entries h at_) ?_ ?_ ?_ s₀
    · refine order.imp_of_mem fun {a b} ha hb ordered => ordered.imp_right fun free => ?_
      obtain ⟨le, e, mem, of, is⟩ := inv.log a ha
      obtain ⟨le', e', mem', of', is'⟩ := inv.log b hb
      refine ⟨le.trans after, le'.trans after, free, fun same => ?_⟩
      have there : a.event.2 ∈ events.map (·.providerEventId) :=
        of ▸ List.mem_map_of_mem mem
      have ids : a.event.2 = b.event.2 := (List.idxOf_inj there).mp same
      rw [one e mem e' mem' (of.symm.trans (ids.trans of'))] at is
      exact Option.some.inj (is.symm.trans is')
    · intro x there
      obtain ⟨e, mem, is⟩ := List.mem_filterMap.mp there
      obtain ⟨effect, -, rfl⟩ := Option.map_eq_some_iff.mp is
      obtain ⟨a, took, of⟩ := inv.processed e mem (all e mem)
      exact ⟨a, took, by rw [Applied.position, of]; rfl⟩
    · intro a took
      obtain ⟨le, e, mem, of, is⟩ := inv.log a took
      refine ⟨⟨(key.1, e.providerEventId), key, a.effect, at_ e, none⟩, ?_, ?_, fun s => ?_⟩
      · exact List.mem_filterMap.mpr ⟨e, mem, by rw [BillingEvent.entry, is]; rfl⟩
      · rw [Applied.position, of]
        rfl
      · refine adjust_at a.effect s (le.trans after) (past e mem) fun reason schedules => ?_
        rw [schedules] at is
        cases reason with
        | chargeback => exact .inl rfl
        | refund => exact .inr (requests a took schedules e mem of).symm
        | providerScheduled =>
          unfold EventBody.adjustment at is
          split at is <;> cases is
  rw [foldl_entries] at related
  exact ⟨_, inv.row, related.cancelSource, related.grants⟩

/-- The dispute is won. -/
def reversalEvent (id : String) : BillingEvent :=
  ⟨id, "adjustment.updated", none, .cancellationRevoked "sub" .chargebackReverse none⟩

/-- The refund is rejected. -/
def rejectionEvent (id : String) : BillingEvent :=
  ⟨id, "adjustment.updated", none, .cancellationRevoked "sub" .refundRejected none⟩

/-- A refund is rejected, and then there is a dispute that stays open. -/
def disputedHistory : List BillingEvent :=
  [refundEvent "a", rejectionEvent "b", chargebackEvent "c"]

/-- No key of the ledger was made up by the service. -/
theorem ordinary_of_keys {w : World} (provider : BillingProviderId)
    (h : ∀ k ∈ w.events.keys, "local:".toList.isPrefixOf k.2.toList = false) :
    w.Ordinary provider := by
  have none : ∀ rest id, ¬ w.Recorded (provider, "local:" ++ rest ++ id) := by
    intro rest id there
    have made := h _ (InsertionMap.mem_keys.mpr there)
    simp at made
  exact fun id => ⟨none "upgrade-refund-classified:" id, none "upgrade-refund-restored:" id⟩

/-- The dispute comes before the rejection, which comes twice. -/
theorem adjustments_converge_disputed :
    ∃ c : Config (billing oneprice (delivers .paddle disputedHistory)),
      ∃ s, c.world.db.subscription (.paddle, "sub") = some s ∧ s.cancelSource = some .chargeback ∧
        s.grants c.world.now = false := by
  let key : SubscriptionKey := (.paddle, "sub")
  let start : Config (billing oneprice (delivers key.1 disputedHistory)) := .idle paidWorld
  have run : (start.run (delivery 0 (refundEvent "a") 3 ++ delivery 0 (chargebackEvent "c") 2 ++
      delivery 0 (rejectionEvent "b") 3 ++ delivery 0 (rejectionEvent "b") 2)).any (fun c =>
        decide (c.world.now = 0 ∧ (∀ e ∈ disputedHistory,
          (c.world.events.get (key.1, e.providerEventId)).any (·.processed) = true) ∧
          (∀ k ∈ c.world.events.keys, "local:".toList.isPrefixOf k.2.toList = false) ∧
          InOrder disputedHistory (c.world.appliedSince paidWorld) ∧
          ∀ a ∈ c.world.appliedSince paidWorld, a.at_ = 0)) = true := by
    decide
  obtain ⟨c, reached, seen⟩ := exists_reaches run
  obtain ⟨now, processed, keys, order, instants⟩ := of_decide_eq_true seen
  have history : AdjustmentsOf key.2 disputedHistory := ⟨by decide, by decide⟩
  have row : paidWorld.db.subscription key = some activeRow := by decide
  obtain ⟨s, found, source, grants⟩ := adjustments_converge (T := c.world.now) history row
    (fun _ _ ⟨_, there⟩ => by cases there) reached (ordinary_of_keys key.1 keys)
    (fun e mem => (Option.any_eq_true _ _).mp (processed e mem)) order le_rfl (fun _ => 0)
    (fun _ _ => now.ge) fun a mem _ _ _ _ => (instants a mem).symm
  rw [now] at grants
  exact ⟨c, s, found, source, by rw [now]; exact grants⟩

/-- The reversal comes before its chargeback, which then stands for ever. -/
theorem reversal_lost : AdjustmentsOf "sub" [chargebackEvent "a", reversalEvent "b"] ∧
    ∃ c : Config (billing oneprice (delivers .paddle [chargebackEvent "a", reversalEvent "b"])),
      Reaches (.idle paidWorld) c ∧ c.world.Ordinary .paddle ∧
      (∀ e ∈ [chargebackEvent "a", reversalEvent "b"], c.world.Processed .paddle e) ∧
      ∃ s, c.world.db.subscription (.paddle, "sub") = some s ∧
        s.cancelSource = some .chargeback ∧ s.grants c.world.now = false ∧
        ∀ at_, (inOrder [chargebackEvent "a", reversalEvent "b"] at_ activeRow).cancelSource = none ∧
          (inOrder [chargebackEvent "a", reversalEvent "b"] at_ activeRow).grants c.world.now =
            true := by
  let events := [chargebackEvent "a", reversalEvent "b"]
  let start : Config (billing oneprice (delivers .paddle events)) := .idle paidWorld
  have run : (start.run (delivery 0 (reversalEvent "b") 2 ++ delivery 0 (chargebackEvent "a") 2)).any
      (fun c => decide ((∀ e ∈ events,
          (c.world.events.get (.paddle, e.providerEventId)).any (·.processed) = true) ∧
        (∀ k ∈ c.world.events.keys, "local:".toList.isPrefixOf k.2.toList = false) ∧
        (c.world.db.subscription (.paddle, "sub")).map (fun s =>
          (s.cancelSource, s.grants c.world.now)) = some (some .chargeback, false))) = true := by
    decide
  obtain ⟨c, reached, seen⟩ := exists_reaches run
  obtain ⟨processed, keys, row⟩ := of_decide_eq_true seen
  obtain ⟨s, found, is⟩ := Option.map_eq_some_iff.mp row
  obtain ⟨source, grants⟩ := Prod.mk.inj is
  refine ⟨⟨by decide, by decide⟩, c, reached, ordinary_of_keys _ keys,
    fun e mem => (Option.any_eq_true _ _).mp (processed e mem), s, found, source, grants,
    fun at_ => ⟨rfl, rfl⟩⟩

end Converge

end DeclutrMail.Billing
