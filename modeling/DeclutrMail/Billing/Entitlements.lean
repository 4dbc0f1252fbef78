import Mathlib.Data.List.MinMax
import Mathlib.Order.Bounds.Basic

/-!
# Subscriptions, grants and the tier of a workspace

The rows that billing keeps, and the two ways in which a workspace's tier is computed from
them: row by row in `recomputeWorkspaceTier`, and in one SQL statement in the sweep. Both give
the greatest tier of `Db.entitled` (`isGreatest_recomputedTier`, `isGreatest_sweptTier`).

Instants are in milliseconds. `email` is a `citext` column, kept here in lower case.
-/

namespace DeclutrMail.Billing

abbrev WorkspaceId := String

inductive TierId where
  | free | plus | pro | team | enterprise
  deriving DecidableEq, Repr

/-- `TIER_RANK`. -/
def TierId.rank : TierId → ℕ
  | .free => 0
  | .plus => 1
  | .pro => 2
  | .team => 3
  | .enterprise => 4

theorem TierId.rank_injective : Function.Injective TierId.rank := by
  intro a b h
  cases a <;> cases b <;> first | rfl | cases h

instance : LinearOrder TierId := LinearOrder.lift' TierId.rank TierId.rank_injective

theorem TierId.le_iff {a b : TierId} : a ≤ b ↔ a.rank ≤ b.rank := Iff.rfl

theorem TierId.free_le (t : TierId) : TierId.free ≤ t := Nat.zero_le _

inductive SubscriptionStatus where
  | active | pastDue | canceled | paused
  deriving DecidableEq, Repr

/-- `GRANTING_STATUSES`. -/
def SubscriptionStatus.granting : SubscriptionStatus → Bool
  | .active | .pastDue => true
  | .canceled | .paused => false

inductive CancelSource where
  | provider | refund | chargeback
  deriving DecidableEq, Repr

inductive BillingCycle where
  | monthly | annual
  deriving DecidableEq, Repr

inductive BillingProviderId where
  | paddle | razorpay
  deriving DecidableEq, Repr

/-- An id of a provider's is looked up together with its provider. -/
instance : LawfulBEq (BillingProviderId × String) := inferInstance

inductive ScheduledChangeState where
  | pendingProvider | scheduled | restoringCurrent
  deriving DecidableEq, Repr

/-- The six `scheduled_*` columns, which are all set or all null. -/
structure ScheduledChange where
  tier : TierId
  billingCycle : BillingCycle
  providerPriceId : String
  changeAt : ℤ
  state : ScheduledChangeState
  requestedAt : ℤ
  deriving DecidableEq, Repr

/-- A row of `subscriptions`. -/
structure Subscription where
  workspaceId : WorkspaceId
  provider : BillingProviderId
  providerSubscriptionId : String
  tier : TierId
  status : SubscriptionStatus
  providerPriceId : String
  billingCycle : BillingCycle
  currentPeriodEnd : Option ℤ
  cancelAtPeriodEnd : Bool
  cancelSource : Option CancelSource
  entitlementEndsAt : Option ℤ
  pauseUntil : Option ℤ
  foundingMember : Bool
  scheduled : Option ScheduledChange
  deriving DecidableEq, Repr

inductive GrantSource where
  | comp | pass | promo
  deriving DecidableEq, Repr

/-- A row of `entitlement_grants`. -/
structure Grant where
  email : String
  tier : TierId
  source : GrantSource
  provider : Option BillingProviderId
  providerTransactionId : Option String
  expiresAt : Option ℤ
  revokedAt : Option ℤ
  deriving DecidableEq, Repr

structure User where
  id : String
  email : String
  workspaceId : WorkspaceId
  createdAt : ℤ
  deriving DecidableEq, Repr

structure Workspace where
  id : WorkspaceId
  tier : TierId
  foundingMember : Bool
  deriving DecidableEq, Repr

/-- The tables that decide what a workspace is entitled to. -/
structure Db where
  workspaces : List Workspace
  users : List User
  subscriptions : List Subscription
  grants : List Grant
  deriving DecidableEq, Repr

/-- `column IS NULL OR column > now()`. -/
def unexpired (now : ℤ) (deadline : Option ℤ) : Bool :=
  deadline.all fun at_ => decide (now < at_)

@[simp] theorem unexpired_none (now : ℤ) : unexpired now none = true := rfl

@[simp] theorem unexpired_some (now at_ : ℤ) : unexpired now (some at_) = decide (now < at_) := rfl

/-- The granting predicate: a granting status and no deadline in the past. -/
def Subscription.grants (now : ℤ) (s : Subscription) : Bool :=
  s.status.granting && unexpired now s.entitlementEndsAt

/-- Neither revoked nor expired. -/
def Grant.live (now : ℤ) (g : Grant) : Bool :=
  g.revokedAt.isNone && unexpired now g.expiresAt

namespace Db

/-- The subscriptions that grant their tier to a workspace. -/
def granting (db : Db) (w : WorkspaceId) (now : ℤ) : List Subscription :=
  db.subscriptions.filter fun s => s.workspaceId = w && s.grants now

/-- `entitlement_grants` joined with the users of a workspace on their email. -/
def grantsOf (db : Db) (w : WorkspaceId) : List Grant :=
  db.grants.flatMap fun g =>
    (db.users.filter fun u => u.email = g.email && u.workspaceId = w).map fun _ => g

def liveGrants (db : Db) (w : WorkspaceId) (now : ℤ) : List Grant :=
  (db.grantsOf w).filter (·.live now)

/-- The tiers that a workspace is entitled to. -/
def entitled (db : Db) (w : WorkspaceId) (now : ℤ) : Set TierId :=
  {t | t = .free ∨ (∃ s ∈ db.granting w now, s.tier = t) ∨ ∃ g ∈ db.liveGrants w now, g.tier = t}

/-- Whether a granting subscription of the workspace has a Founding seat. -/
def founding (db : Db) (w : WorkspaceId) (now : ℤ) : Prop :=
  ∃ s ∈ db.granting w now, s.foundingMember = true

end Db

/-! ## `recomputeWorkspaceTier` -/

/-- The loop over the granting rows of `recomputeWorkspaceTier`. -/
def billingTier (granting : List Subscription) : TierId :=
  granting.foldl (fun best row => if best.rank < row.tier.rank then row.tier else best) .free

/-- A tie prefers a comp, then the later end. -/
def preferGrant (candidate current : Grant) : Bool :=
  if candidate.tier.rank ≠ current.tier.rank then decide (current.tier.rank < candidate.tier.rank)
  else if candidate.source = .comp ∧ current.source ≠ .comp then true
  else if current.source = .comp ∧ candidate.source ≠ .comp then false
  else match current.expiresAt, candidate.expiresAt with
    | none, _ => false
    | some _, none => true
    | some currentEnd, some candidateEnd => decide (currentEnd < candidateEnd)

/-- The loop of `highestLiveGrantForWorkspace`. -/
def highestGrant (rows : List Grant) : Option Grant :=
  rows.foldl (fun best candidate => match best with
    | none => some candidate
    | some current => if preferGrant candidate current then some candidate else some current) none

def highestLiveGrantForWorkspace (db : Db) (w : WorkspaceId) (now : ℤ) : Option Grant :=
  highestGrant (db.liveGrants w now)

def liveGrantTierForWorkspace (db : Db) (w : WorkspaceId) (now : ℤ) : Option TierId :=
  (highestLiveGrantForWorkspace db w now).map (·.tier)

/-- The grant only ever raises. -/
def applyGrantFloor (billingTier : TierId) : Option TierId → TierId
  | none => billingTier
  | some grantTier => if billingTier.rank < grantTier.rank then grantTier else billingTier

/-- What `recomputeWorkspaceTier` stores as the tier. Subscriptions are compared with the
database's `now()`, grants with the process's clock. -/
def recomputedTier (db : Db) (w : WorkspaceId) (txNow now : ℤ) : TierId :=
  applyGrantFloor (billingTier (db.granting w txNow)) (liveGrantTierForWorkspace db w now)

def recomputedFounding (db : Db) (w : WorkspaceId) (txNow : ℤ) : Bool :=
  (db.granting w txNow).any (·.foundingMember)

/-- `recomputeWorkspaceTier`: the workspace's row is written from all its rows. -/
def recomputeWorkspaceTier (db : Db) (w : WorkspaceId) (txNow now : ℤ) : Db :=
  { db with workspaces := db.workspaces.map fun row =>
      if row.id = w then
        { row with
          tier := recomputedTier db w txNow now
          foundingMember := recomputedFounding db w txNow }
      else row }

/-! ## The statement of the sweep -/

/-- The `UNION ALL` that the sweep orders by `tierRankSql` and cuts to one row. -/
def candidateTiers (db : Db) (w : WorkspaceId) (now : ℤ) : List TierId :=
  (db.granting w now).map (·.tier) ++ (db.liveGrants w now).map (·.tier) ++ [.free]

def sweptTier (db : Db) (w : WorkspaceId) (now : ℤ) : TierId :=
  ((candidateTiers db w now).argmax TierId.rank).getD .free

def sweptFounding (db : Db) (w : WorkspaceId) (now : ℤ) : Bool :=
  (db.granting w now).any (·.foundingMember)

/-! ## Both are the greatest entitled tier -/

variable {db : Db} {w : WorkspaceId} {now : ℤ}

theorem free_mem_entitled : TierId.free ∈ db.entitled w now := .inl rfl

theorem mem_candidateTiers {t : TierId} :
    t ∈ candidateTiers db w now ↔ t ∈ db.entitled w now := by
  simp only [candidateTiers, Db.entitled, List.mem_append, List.mem_map, List.mem_singleton,
    Set.mem_ofPred_eq]
  exact or_comm

theorem isGreatest_sweptTier : IsGreatest (db.entitled w now) (sweptTier db w now) := by
  have free : TierId.free ∈ candidateTiers db w now := mem_candidateTiers.mpr free_mem_entitled
  obtain ⟨t, found⟩ : ∃ t, (candidateTiers db w now).argmax TierId.rank = some t := by
    refine Option.ne_none_iff_exists'.mp fun none => ?_
    rw [List.argmax_eq_none.mp none] at free
    exact List.not_mem_nil free
  rw [sweptTier, found, Option.getD_some]
  refine ⟨mem_candidateTiers.mp (List.argmax_mem found), fun t' mem => ?_⟩
  exact List.le_of_mem_argmax (mem_candidateTiers.mpr mem) found

theorem billingTier_concat (rows : List Subscription) (row : Subscription) :
    billingTier (rows ++ [row]) = billingTier rows ⊔ row.tier := by
  rw [billingTier, List.foldl_concat, ← billingTier]
  split_ifs with above
  · exact (sup_eq_right.mpr (TierId.le_iff.mpr above.le)).symm
  · exact (sup_eq_left.mpr (TierId.le_iff.mpr (not_lt.mp above))).symm

theorem isGreatest_billingTier (rows : List Subscription) :
    IsGreatest {t | t = .free ∨ ∃ s ∈ rows, s.tier = t} (billingTier rows) := by
  induction rows using List.reverseRecOn with
  | nil => exact ⟨.inl rfl, fun t mem => by simp_all [billingTier]⟩
  | append_singleton rows row ih =>
    obtain ⟨mem, above⟩ := ih
    rw [billingTier_concat]
    refine ⟨?_, ?_⟩
    · rcases le_total (billingTier rows) row.tier with le | le
      · rw [sup_eq_right.mpr le]
        exact .inr ⟨row, by simp, rfl⟩
      · rw [sup_eq_left.mpr le]
        exact mem.imp_right fun ⟨s, hs, tier⟩ => ⟨s, by simp [hs], tier⟩
    · rintro t (rfl | ⟨s, hs, rfl⟩)
      · exact TierId.free_le _
      · rcases List.mem_append.mp hs with hs | hs
        · exact le_sup_of_le_left (above (.inr ⟨s, hs, rfl⟩))
        · rw [List.mem_singleton.mp hs]
          exact le_sup_right

theorem rank_le_of_preferGrant {candidate current : Grant} (h : preferGrant candidate current) :
    current.tier ≤ candidate.tier := by
  rw [TierId.le_iff]
  by_contra above
  have different : candidate.tier.rank ≠ current.tier.rank := by omega
  simp only [preferGrant, if_pos different, decide_eq_true_eq] at h
  omega

theorem le_rank_of_not_preferGrant {candidate current : Grant}
    (h : ¬ preferGrant candidate current) : candidate.tier ≤ current.tier := by
  rw [TierId.le_iff]
  by_contra above
  have different : candidate.tier.rank ≠ current.tier.rank := by omega
  simp only [preferGrant, if_pos different, decide_eq_true_eq] at h
  omega

/-- The highest grant is one of the rows, and none has a higher tier. -/
theorem highestGrant_spec (rows : List Grant) :
    match highestGrant rows with
    | none => rows = []
    | some best => best ∈ rows ∧ ∀ g ∈ rows, g.tier ≤ best.tier := by
  induction rows using List.reverseRecOn with
  | nil => rfl
  | append_singleton rows row ih =>
    unfold highestGrant at ih ⊢
    rw [List.foldl_concat]
    split at ih
    next => simp [ih]
    next best _ =>
      obtain ⟨mem, above⟩ := ih
      by_cases prefer : preferGrant row best
      · have raised := rank_le_of_preferGrant prefer
        simp only [prefer, if_true, List.mem_append, List.mem_singleton, or_true, true_and]
        rintro g (hg | rfl)
        · exact (above g hg).trans raised
        · exact le_rfl
      · have kept := le_rank_of_not_preferGrant prefer
        simp only [prefer, Bool.false_eq_true, if_false, List.mem_append, List.mem_singleton]
        refine ⟨.inl mem, ?_⟩
        rintro g (hg | rfl)
        · exact above g hg
        · exact kept

theorem applyGrantFloor_some (billing grant : TierId) :
    applyGrantFloor billing (some grant) = billing ⊔ grant := by
  simp only [applyGrantFloor]
  split_ifs with above
  · exact (sup_eq_right.mpr (TierId.le_iff.mpr above.le)).symm
  · exact (sup_eq_left.mpr (TierId.le_iff.mpr (not_lt.mp above))).symm

theorem isGreatest_recomputedTier :
    IsGreatest (db.entitled w now) (recomputedTier db w now now) := by
  obtain ⟨paid, paidAbove⟩ := isGreatest_billingTier (db.granting w now)
  have granted := highestGrant_spec (db.liveGrants w now)
  unfold recomputedTier liveGrantTierForWorkspace highestLiveGrantForWorkspace
  split at granted
  next none =>
    rw [none]
    refine ⟨paid.imp_right .inl, ?_⟩
    rintro t (free | sub | ⟨g, mem, -⟩)
    · exact paidAbove (.inl free)
    · exact paidAbove (.inr sub)
    · rw [granted] at mem
      exact absurd mem List.not_mem_nil
  next best found =>
    obtain ⟨mem, above⟩ := granted
    rw [found, Option.map_some, applyGrantFloor_some]
    refine ⟨?_, ?_⟩
    · rcases le_total (billingTier (db.granting w now)) best.tier with le | le
      · rw [sup_eq_right.mpr le]
        exact .inr (.inr ⟨best, mem, rfl⟩)
      · rw [sup_eq_left.mpr le]
        exact paid.imp_right .inl
    · rintro t (free | sub | ⟨g, hg, rfl⟩)
      · exact le_sup_of_le_left (paidAbove (.inl free))
      · exact le_sup_of_le_left (paidAbove (.inr sub))
      · exact le_sup_of_le_right (above g hg)

/-- The SQL ranking agrees with the TypeScript one. -/
theorem sweptTier_eq_recomputedTier : sweptTier db w now = recomputedTier db w now now :=
  isGreatest_sweptTier.unique isGreatest_recomputedTier

theorem recomputedFounding_iff : recomputedFounding db w now = true ↔ db.founding w now := by
  simp [recomputedFounding, Db.founding]

end DeclutrMail.Billing
