import DeclutrMail.Billing.Commits

/-!
# Refund and chargeback verdicts

A chargeback verdict denies access until it is reversed, and a refund verdict keeps its
deadline until it is rejected, so long as no other adjustment overwrites the verdict
(`Applied.keepsChargeback`, `Applied.keepsDeadline`).
-/

namespace DeclutrMail.Billing

open Interleaving

/-! ## Runs, one row at a time -/

section Runs

variable {D : Deployment} {E : Task → Bool} {w w' : World} {key : SubscriptionKey}
  {P : ℤ → Subscription → Prop}

/-- What was applied between two worlds of a run. -/
def World.appliedSince (w' w : World) : List Applied := w'.applied.drop w.applied.length

theorem Commit.now_le (h : Commit D E w w') : w.now ≤ w'.now := by
  rcases h.rows with ⟨le, -, -⟩ | ⟨_, _, _, -, -, affects⟩
  · exact le
  · exact affects.now.ge

theorem now_le_of_commits (h : Relation.ReflTransGen (Commit D E) w w') : w.now ≤ w'.now := by
  induction h with
  | refl => exact le_rfl
  | tail _ step ih => exact ih.trans step.now_le

/-- The log only grows. -/
theorem applied_of_commits (h : Relation.ReflTransGen (Commit D E) w w') :
    w'.applied = w.applied ++ w'.appliedSince w := by
  unfold World.appliedSince
  have grown : ∃ new, w'.applied = w.applied ++ new := by
    induction h with
    | refl => exact ⟨[], (List.append_nil _).symm⟩
    | tail _ step ih =>
      obtain ⟨new, ih⟩ := ih
      rcases step.rows with ⟨-, same, -⟩ | ⟨_, _, _, -, -, affects⟩
      · exact ⟨new, same.trans ih⟩
      · rw [affects.applied, ih, List.append_assoc]
        exact ⟨_, rfl⟩
  obtain ⟨new, grown⟩ := grown
  rw [grown, List.drop_left]

theorem appliedSince_congr {w₀ : World} (same : w'.applied = w.applied) :
    w'.appliedSince w₀ = w.appliedSince w₀ := by rw [World.appliedSince, same, ← World.appliedSince]

/-- An effect is one entry more. -/
theorem appliedSince_affects {w₀ : World} (run : Relation.ReflTransGen (Commit D E) w₀ w)
    {k : EventKey} {effect : RowEffect} (affects : w.Affects w' k key effect) :
    w'.appliedSince w₀ =
      w.appliedSince w₀ ++ [⟨k, key, effect, w.now, w.db.subscription key⟩] := by
  rw [World.appliedSince, affects.applied, applied_of_commits run, List.append_assoc,
    List.drop_left]

/-- A property of every row, kept by every effect and by time. -/
theorem rows_inv (later : ∀ {t t' s}, t ≤ t' → P t s → P t' s)
    (step : ∀ key effect t before s, (∀ s ∈ before, P t s) →
      RowEffect.run key t before effect = some s → P t s)
    (h : Relation.ReflTransGen (Commit D E) w w')
    (start : ∀ s, w.db.subscription key = some s → P w.now s) :
    ∀ s, w'.db.subscription key = some s → P w'.now s := by
  induction h with
  | refl => exact start
  | tail _ commit ih =>
    intro s found
    rcases commit.rows with ⟨le, -, same⟩ | ⟨x, e, effect, -, -, affects⟩
    · rw [same] at found
      exact later le (ih s found)
    · rw [affects.subscription] at found
      rw [affects.now]
      split_ifs at found with here
      · subst here
        exact step _ effect _ _ s (fun s hs => ih s hs) found
      · exact ih s found

/-- A property of one row, kept by the effects that meet a condition and by time. -/
theorem row_run {C : Applied → Prop} (later : ∀ {t t' s}, t ≤ t' → P t s → P t' s)
    (step : ∀ a : Applied, a.key = key → C a → ∀ s, a.before = some s → P a.at_ s →
      ∃ s', a.effect.run key a.at_ (some s) = some s' ∧ P a.at_ s')
    (h : Relation.ReflTransGen (Commit D E) w w')
    (permitted : ∀ a ∈ w'.appliedSince w, a.key = key → C a) {s : Subscription}
    (found : w.db.subscription key = some s) (start : P w.now s) :
    ∃ s', w'.db.subscription key = some s' ∧ P w'.now s' := by
  induction h with
  | refl => exact ⟨s, found, start⟩
  | @tail mid w' run commit ih =>
    rcases commit.rows with ⟨le, log, same⟩ | ⟨x, e, effect, -, -, affects⟩
    · rw [appliedSince_congr log] at permitted
      obtain ⟨s', there, kept⟩ := ih permitted
      exact ⟨s', (same key).trans there, later le kept⟩
    · rw [appliedSince_affects run affects] at permitted
      obtain ⟨s', there, kept⟩ := ih fun a mem => permitted a (List.mem_append_left _ mem)
      rw [affects.subscription, affects.now]
      split_ifs with here
      · subst here
        have allowed := permitted _ (List.mem_append_right _ (List.mem_singleton.mpr rfl)) rfl
        rw [there]
        exact step _ rfl allowed s' there kept
      · exact ⟨s', there, kept⟩

end Runs

/-! ## What overwrites a verdict -/

namespace Applied

/-- The effect lifts a verdict of the row. -/
def lifts (a : Applied) (source : CancelSource) : Bool :=
  match a.effect with
  | .revoke reason => decide (reason.voided = source) && a.before.any (·.cancelSource = some source)
  | _ => false

/-- No cancellation for another reason is scheduled over a chargeback. -/
def keepsChargeback (a : Applied) : Bool :=
  match a.effect with
  | .schedule reason => a.before.all fun s =>
    !decide (s.cancelSource = some .chargeback) || decide (reason = .chargeback)
  | _ => true

/-- The effect comes in time to leave the deadline `e` of the row where it is, and is no
cancellation that the provider scheduled. -/
def inTime (a : Applied) (s : Subscription) (e : ℤ) : Bool :=
  match a.effect with
  | .schedule .chargeback => decide (a.at_ ≤ e)
  | .schedule .refund =>
    decide (a.at_ + refundPendingGraceMs ≤ e) || decide (s.currentPeriodEnd.getD a.at_ ≤ e)
  | .schedule .providerScheduled => false
  | .settle => !s.settleable || decide (a.at_ ≤ e)
  | .revoke _ | .snapshot .. => true

/-- The effect is in time for the deadline of a verdict of the row. -/
def keepsDeadline (a : Applied) : Bool :=
  a.before.all fun s => !s.localVerdict || s.entitlementEndsAt.all (a.inTime s)

end Applied

/-! ## One effect on a row with a verdict -/

section Effects

variable {key : SubscriptionKey} {now t t' : ℤ} {s : Subscription} {a : Applied}

/-- A verdict has a deadline, and that of a chargeback is in the past. -/
def Ended (now : ℤ) (s : Subscription) : Prop :=
  s.localVerdict = true → ∃ e, s.entitlementEndsAt = some e ∧
    (s.cancelSource = some .chargeback → e ≤ now)

theorem Ended.later (le : t ≤ t') (h : Ended t s) : Ended t' s := fun verdict =>
  (h verdict).imp fun _ ⟨ends, past⟩ => ⟨ends, fun source => (past source).trans le⟩

/-- No reversal is of a cancellation that the provider made. -/
theorem lifts_provider (a : Applied) : a.lifts .provider = false := by
  unfold Applied.lifts
  split
  next reason _ => cases reason <;> rfl
  · rfl

theorem localVerdict_iff : s.localVerdict = true ↔
    s.cancelSource = some .refund ∨ s.cancelSource = some .chargeback := by
  simp [Subscription.localVerdict]

/-- A snapshot leaves a verdict alone. -/
theorem sticky (key : SubscriptionKey) (now : ℤ) (workspaceId : WorkspaceId) (entry : CatalogEntry)
    (sub : NormalizedSubscription) (selfMs : Option ℤ) (founding : Bool)
    (verdict : s.localVerdict = true) :
    (nextSubscription key.1 workspaceId entry sub selfMs now founding (some s)).cancelSource =
        s.cancelSource ∧
      (nextSubscription key.1 workspaceId entry sub selfMs now founding (some s)).entitlementEndsAt =
        s.entitlementEndsAt := nextSubscription_of_localVerdict verdict

theorem Ended.run {effect : RowEffect} {before : Option Subscription} {s : Subscription}
    (h : ∀ s ∈ before, Ended t s) (ran : RowEffect.run key t before effect = some s) :
    Ended t s := by
  cases effect with
  | snapshot workspaceId entry sub selfMs founding =>
    obtain rfl := Option.some.inj ran
    by_cases none : before.any (·.localVerdict) = true
    · obtain ⟨old, rfl, verdict⟩ := (Option.any_eq_true _ _).mp none
      obtain ⟨source, ends⟩ := sticky key t workspaceId entry sub selfMs founding verdict
      intro _
      rw [source, ends]
      exact h old rfl verdict
    · intro verdict
      rw [localVerdict_nextSubscription (Bool.eq_false_iff.mpr none)] at verdict
      cases verdict
  | schedule reason =>
    obtain ⟨old, rfl, rfl⟩ := Option.map_eq_some_iff.mp ran
    intro _
    refine ⟨_, rfl, fun source => ?_⟩
    cases reason with
    | chargeback => exact le_rfl
    | refund | providerScheduled => cases source
  | revoke reason =>
    obtain ⟨old, rfl, rfl⟩ := Option.map_eq_some_iff.mp ran
    unfold Subscription.revokeCancellation
    split_ifs
    · intro verdict
      simp [Subscription.localVerdict] at verdict
    · exact h old rfl
  | settle =>
    obtain ⟨old, rfl, rfl⟩ := Option.map_eq_some_iff.mp ran
    unfold Subscription.settleRefund
    split_ifs
    · exact fun _ => ⟨t, rfl, fun _ => le_rfl⟩
    · exact h old rfl

/-- The verdict of a chargeback whose deadline has passed. -/
def ChargedBack (now : ℤ) (s : Subscription) : Prop :=
  s.cancelSource = some .chargeback ∧ ∃ e ≤ now, s.entitlementEndsAt = some e

theorem ChargedBack.later (le : t ≤ t') (h : ChargedBack t s) : ChargedBack t' s :=
  ⟨h.1, h.2.imp fun _ past => past.imp_left fun past => past.trans le⟩

theorem ChargedBack.denies (h : ChargedBack now s) : s.grants now = false := by
  obtain ⟨-, e, past, ends⟩ := h
  have beyond : ¬ now < e := by omega
  simp [Subscription.grants, ends, beyond]

theorem ChargedBack.run (h : ChargedBack a.at_ s) (there : a.before = some s)
    (kept : a.keepsChargeback = true) (stands : a.lifts .chargeback = false) :
    ∃ s', a.effect.run key a.at_ (some s) = some s' ∧ ChargedBack a.at_ s' := by
  obtain ⟨source, e, past, ends⟩ := h
  unfold Applied.keepsChargeback at kept
  unfold Applied.lifts at stands
  cases effect : a.effect with
  | snapshot workspaceId entry sub selfMs founding =>
    have verdict : s.localVerdict = true := localVerdict_iff.mpr (.inr source)
    obtain ⟨source', ends'⟩ := sticky key a.at_ workspaceId entry sub selfMs founding verdict
    exact ⟨_, rfl, source'.trans source, e, past, ends'.trans ends⟩
  | schedule reason =>
    obtain rfl : reason = .chargeback := by simpa [effect, there, source] using kept
    exact ⟨_, rfl, rfl, a.at_, le_rfl, rfl⟩
  | revoke reason =>
    have other : ¬ s.cancelSource = some reason.voided := by
      intro lifted
      have voided : reason.voided = .chargeback := Option.some.inj (lifted.symm.trans source)
      simp [effect, there, voided, source] at stands
    refine ⟨s, ?_, source, e, past, ends⟩
    rw [RowEffect.run, Option.map_some, Subscription.revokeCancellation, if_neg other]
  | settle =>
    have kept : ¬ s.settleable = true := by simp [Subscription.settleable, source]
    refine ⟨s, ?_, source, e, past, ends⟩
    rw [RowEffect.run, Option.map_some, Subscription.settleRefund, if_neg kept]

/-- A verdict whose deadline is `e` at the latest. -/
def EndsBy (e : ℤ) (s : Subscription) : Prop :=
  s.localVerdict = true ∧ ∃ e' ≤ e, s.entitlementEndsAt = some e'

theorem EndsBy.run {e : ℤ} (h : EndsBy e s) (there : a.before = some s)
    (kept : a.keepsDeadline = true) (stands : ∀ source, a.lifts source = false) :
    ∃ s', a.effect.run key a.at_ (some s) = some s' ∧ EndsBy e s' := by
  obtain ⟨verdict, e', before, ends⟩ := h
  have inTime : a.inTime s e' = true := by
    simpa [Applied.keepsDeadline, there, verdict, ends] using kept
  unfold Applied.inTime at inTime
  cases effect : a.effect with
  | snapshot workspaceId entry sub selfMs founding =>
    obtain ⟨source, ends'⟩ := sticky key a.at_ workspaceId entry sub selfMs founding verdict
    refine ⟨_, rfl, ?_, e', before, ends'.trans ends⟩
    rw [localVerdict_iff, source, ← localVerdict_iff]
    exact verdict
  | schedule reason =>
    rw [effect] at inTime
    cases reason with
    | providerScheduled => cases inTime
    | chargeback =>
      have early : a.at_ ≤ e' := by simpa using inTime
      exact ⟨_, rfl, rfl, a.at_, early.trans before, rfl⟩
    | refund =>
      refine ⟨_, rfl, rfl, _, ?_, rfl⟩
      have early : a.at_ + refundPendingGraceMs ≤ e' ∨ s.currentPeriodEnd.getD a.at_ ≤ e' := by
        simpa using inTime
      rcases early with grace | period
      · exact (min_le_left _ _).trans (grace.trans before)
      · exact (min_le_right _ _).trans (period.trans before)
  | revoke reason =>
    have other : ¬ s.cancelSource = some reason.voided := by
      intro lifted
      have stands := stands reason.voided
      simp [Applied.lifts, effect, there, lifted] at stands
    refine ⟨s, ?_, verdict, e', before, ends⟩
    rw [RowEffect.run, Option.map_some, Subscription.revokeCancellation, if_neg other]
  | settle =>
    rw [effect] at inTime
    rw [RowEffect.run, Option.map_some, Subscription.settleRefund]
    split_ifs with hit
    · have early : a.at_ ≤ e' := by simpa [hit] using inTime
      exact ⟨_, rfl, verdict, a.at_, early.trans before, rfl⟩
    · exact ⟨s, rfl, verdict, e', before, ends⟩

end Effects

/-! ## Whole runs -/

section Verdicts

variable {D : Deployment} {E : Task → Bool}

/-- While a chargeback verdict stands the row does not grant, and while a refund verdict stands
its deadline moves no later, in every run that does not overwrite the verdict. -/
theorem verdict_never_regrants {w : World} {c d : Config (billing D E)} {key : SubscriptionKey}
    {s : Subscription} (fresh : ∀ s ∈ w.db.subscriptions, s.localVerdict = false)
    (before : Reaches (Config.idle w) c) (onward : Reaches c d)
    (found : c.world.db.subscription key = some s) :
    (s.cancelSource = some .chargeback →
      (∀ a ∈ d.world.appliedSince c.world, a.key = key →
        a.lifts .chargeback = false ∧ a.keepsChargeback = true) →
      ∃ s', d.world.db.subscription key = some s' ∧ s'.grants d.world.now = false) ∧
    (s.cancelSource = some .refund →
      (∀ a ∈ d.world.appliedSince c.world, a.key = key →
        a.lifts .refund = false ∧ a.lifts .chargeback = false ∧ a.keepsDeadline = true) →
      ∃ e, s.entitlementEndsAt = some e ∧ ∃ s' e', d.world.db.subscription key = some s' ∧
        s'.entitlementEndsAt = some e' ∧ e' ≤ e) := by
  have start := commits_of_runWhere .refl before
  have run := commits_of_runWhere before onward
  have ended : Ended c.world.now s := by
    refine rows_inv (P := Ended) Ended.later (fun _ _ _ _ _ => Ended.run) start ?_ s found
    intro s there verdict
    rw [fresh s (mem_subscription there).1] at verdict
    cases verdict
  refine ⟨fun source kept => ?_, fun source kept => ?_⟩
  · obtain ⟨e, ends, past⟩ := ended (localVerdict_iff.mpr (.inr source))
    obtain ⟨s', there, charged⟩ := row_run (P := ChargedBack)
      (C := fun a => a.lifts .chargeback = false ∧ a.keepsChargeback = true) ChargedBack.later
      (fun a _ kept s there charged => charged.run there kept.2 kept.1) run kept found
      ⟨source, e, past source, ends⟩
    exact ⟨s', there, charged.denies⟩
  · obtain ⟨e, ends, -⟩ := ended (localVerdict_iff.mpr (.inl source))
    obtain ⟨s', there, -, e', le, ends'⟩ := row_run (P := fun _ => EndsBy e)
      (C := fun a => a.lifts .refund = false ∧ a.lifts .chargeback = false ∧ a.keepsDeadline = true)
      (fun _ h => h)
      (fun a _ kept s there bounded => bounded.run there kept.2.2 fun source => by
        cases source with
        | refund => exact kept.1
        | chargeback => exact kept.2.1
        | provider => exact lifts_provider a) run kept found
      ⟨localVerdict_iff.mpr (.inl source), e, le_rfl, ends⟩
    exact ⟨e, ends, s', e', there, ends', le⟩

/-- A dispute is opened. -/
def chargebackEvent (id : String) : BillingEvent :=
  ⟨id, "adjustment.created", none, .cancellationScheduled "sub" .chargeback none⟩

/-- A refund is requested. -/
def refundEvent (id : String) : BillingEvent :=
  ⟨id, "adjustment.created", none, .cancellationScheduled "sub" .refund none⟩

/-- The provider reports that the subscription renewed. -/
def renewalEvent (id : String) : BillingEvent :=
  ⟨id, "subscription.updated", none, .subscription
    ⟨"sub", none, "pri", .active, some 20, false, none, some "w", none, none⟩ none⟩

/-- A renewal and a second chargeback over a chargeback. -/
theorem verdict_never_regrants_renewed : ∃ d : Config (billing oneprice fun _ => true),
    d.world.applied.length = 3 ∧ ∃ s', d.world.db.subscription (.paddle, "sub") = some s' ∧
      s'.grants d.world.now = false := by
  let start : Config (billing oneprice fun _ => true) := .idle paidWorld
  have run : (start.run (delivery 0 (chargebackEvent "a") 2)).any (fun c =>
      decide ((c.world.db.subscription (.paddle, "sub")).map (·.cancelSource) =
        some (some .chargeback)) &&
      (c.run (delivery 0 (renewalEvent "b") 6 ++ delivery 0 (chargebackEvent "c") 2)).any fun d =>
        decide (d.world.applied.length = 3 ∧ ∀ a ∈ d.world.appliedSince c.world,
          a.lifts .chargeback = false ∧ a.keepsChargeback = true)) = true := by
    decide
  obtain ⟨c, reached, seen⟩ := exists_reaches run
  obtain ⟨charged, later⟩ := Bool.and_eq_true_iff.mp seen
  obtain ⟨d, onward, kept⟩ := exists_reaches later
  obtain ⟨s, found, source⟩ := Option.map_eq_some_iff.mp (of_decide_eq_true charged)
  obtain ⟨three, kept⟩ := of_decide_eq_true kept
  have fresh : ∀ s ∈ paidWorld.db.subscriptions, s.localVerdict = false := by decide
  exact ⟨d, three, (verdict_never_regrants fresh reached onward found).1 source
    fun a mem _ => kept a mem⟩

/-- A refund that is requested while a chargeback stands gives the access back. -/
theorem refund_regrants_chargeback :
    (∀ s ∈ paidWorld.db.subscriptions, s.localVerdict = false) ∧
    ∃ (c d : Config (billing oneprice fun _ => true)) (s s' : Subscription),
      Reaches (.idle paidWorld) c ∧ Reaches c d ∧
      c.world.db.subscription (.paddle, "sub") = some s ∧ s.cancelSource = some .chargeback ∧
      (∀ a ∈ d.world.appliedSince c.world, a.lifts .chargeback = false) ∧
      d.world.db.subscription (.paddle, "sub") = some s' ∧ s'.grants d.world.now = true := by
  let start : Config (billing oneprice fun _ => true) := .idle paidWorld
  have run : (start.run (delivery 0 (chargebackEvent "a") 2)).any (fun c =>
      decide ((c.world.db.subscription (.paddle, "sub")).map (·.cancelSource) =
        some (some .chargeback)) &&
      (c.run (delivery 0 (refundEvent "b") 3)).any fun d =>
        decide ((∀ a ∈ d.world.appliedSince c.world, a.lifts .chargeback = false) ∧
          (d.world.db.subscription (.paddle, "sub")).map (·.grants d.world.now) = some true)) =
      true := by
    decide
  obtain ⟨c, reached, seen⟩ := exists_reaches run
  obtain ⟨charged, later⟩ := Bool.and_eq_true_iff.mp seen
  obtain ⟨d, onward, regranted⟩ := exists_reaches later
  obtain ⟨s, found, source⟩ := Option.map_eq_some_iff.mp (of_decide_eq_true charged)
  obtain ⟨unlifted, regranted⟩ := of_decide_eq_true regranted
  obtain ⟨s', found', grants⟩ := Option.map_eq_some_iff.mp regranted
  exact ⟨by decide, c, d, s, s', reached, onward, found, source, unlifted, found', grants⟩

end Verdicts

end DeclutrMail.Billing
