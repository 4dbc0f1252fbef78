import DeclutrMail.Billing.Entitlements
import DeclutrMail.Collections.Batches
import DeclutrMail.Metering.StackedDeadlines
import Mathlib.Logic.Relation
import Mathlib.Algebra.Order.Ring.Int
import Mathlib.Data.Nat.Cast.Basic

/-!
# Backlog Pass grants

A Pass is a row of `entitlement_grants`. A purchase adds its days to what is left of the live
Passes, a revocation takes back only its own row. So long as no revoked Pass has others resting
on it, what is left is paid for by the purchases that stand (`passTime_le_purchases`).
-/

namespace DeclutrMail.Billing

open StackedDeadlines Batches

def dayMs : ℤ := 24 * 60 * 60 * 1000

/-- `OFFERS.backlogPass.durationDays`, in milliseconds. -/
def passMs : ℤ := 30 * dayMs

inductive PassGrantResult where
  | granted (expiresAt : ℤ) (userId : String)
  | extended (expiresAt : ℤ) (userId : String)
  | duplicate (expiresAt : ℤ) (userId : String)
  | noEmail
  deriving DecidableEq, Repr

/-- The user `u` was created before `v`; ids break a tie. -/
def User.before (u v : User) : Bool :=
  u.createdAt < v.createdAt || u.createdAt = v.createdAt && u.id < v.id

/-- The workspace's earliest user. -/
def earliestUser (db : Db) (w : WorkspaceId) : Option User :=
  (db.users.filter fun u => u.workspaceId = w).foldl
    (fun first u => match first with
      | none => some u
      | some v => if u.before v then some u else some v) none

/-- The unrevoked Passes of an email. -/
def Db.passes (db : Db) (email : String) : List Grant :=
  db.grants.filter fun g => g.email = email && g.source = .pass && g.revokedAt.isNone

/-- The later of now and the live Passes. -/
def passBase (live : List Grant) (now : ℤ) : ℤ :=
  live.foldl (fun base row => match row.expiresAt with
    | some at_ => if base < at_ then at_ else base
    | none => base) now

/-- `grantPassFromTransaction`: one Pass for the workspace's earliest user, unless a grant
already has the transaction. -/
def grantPassFromTransaction (db : Db) (w : WorkspaceId) (txn : String) (now : ℤ) :
    PassGrantResult × Db :=
  match earliestUser db w with
  | none => (.noEmail, db)
  | some owner =>
    let live := (db.passes owner.email).filter fun g => unexpired now g.expiresAt
    let expiresAt := passBase live now + passMs
    match db.grants.find? fun g => g.providerTransactionId = some txn with
    | some existing => (.duplicate (existing.expiresAt.getD expiresAt) owner.id, db)
    | none =>
      let row : Grant := ⟨owner.email, .plus, .pass, some .paddle, some txn, some expiresAt, none⟩
      (if live.isEmpty then .granted expiresAt owner.id else .extended expiresAt owner.id,
        { db with grants := db.grants ++ [row] })

/-- A Pass that was purchased with the transaction. -/
def Grant.purchasedBy (g : Grant) (txn : String) : Bool :=
  g.providerTransactionId = some txn && g.source = .pass && g.provider.isSome

def Grant.revoke (g : Grant) (txn : String) (now : ℤ) : Grant :=
  if g.purchasedBy txn && g.revokedAt.isNone then { g with revokedAt := some now } else g

/-- `revokePassByTransaction`: the workspaces to be projected, or none if there is no such
purchase. -/
def revokePassByTransaction (db : Db) (txn : String) (now : ℤ) : Option (List WorkspaceId) × Db :=
  let revoked := db.grants.filter fun g => g.purchasedBy txn && g.revokedAt.isNone
  let existing := db.grants.filter fun g => g.purchasedBy txn && g.revokedAt.isSome
  let emails := if revoked.isEmpty then (existing.take 1).map (·.email) else revoked.map (·.email)
  let owners := db.users.filter fun u => u.email ∈ emails
  (if emails.isEmpty then none else some (distinct (owners.map (·.workspaceId))),
    { db with grants := db.grants.map (·.revoke txn now) })

/-! ## The time that Passes are worth -/

/-- When the unrevoked Passes of an email end. -/
def Db.passDeadlines (db : Db) (email : String) : List ℤ :=
  (db.passes email).filterMap (·.expiresAt)

variable {db db' : Db} {w : WorkspaceId} {owner : User} {txn email : String} {now now' : ℤ}

theorem mem_passes {g : Grant} : g ∈ db.passes email ↔
    g ∈ db.grants ∧ g.email = email ∧ g.source = .pass ∧ g.revokedAt = none := by
  simp only [Db.passes, List.mem_filter, Bool.and_eq_true, decide_eq_true_eq,
    Option.isNone_iff_eq_none, and_assoc]

theorem mem_passDeadlines {e : ℤ} :
    e ∈ db.passDeadlines email ↔ ∃ g ∈ db.passes email, g.expiresAt = some e :=
  List.mem_filterMap

/-- The base of a purchase is now, or when a live Pass ends. -/
theorem passBase_spec (live : List Grant) (now : ℤ) :
    passBase live now = now ∨ now < passBase live now ∧
      ∃ g ∈ live, g.expiresAt = some (passBase live now) := by
  induction live using List.reverseRecOn with
  | nil => exact .inl rfl
  | append_singleton live row ih =>
    have kept : passBase live now = now ∨ now < passBase live now ∧
        ∃ g ∈ live ++ [row], g.expiresAt = some (passBase live now) :=
      ih.imp_right fun ⟨after, g, mem, ends⟩ => ⟨after, g, List.mem_append_left _ mem, ends⟩
    have step : passBase (live ++ [row]) now = match row.expiresAt with
        | some at_ => if passBase live now < at_ then at_ else passBase live now
        | none => passBase live now := by
      rw [passBase, List.foldl_concat, ← passBase]
    cases ends : row.expiresAt with
    | none =>
      rw [step, ends]
      exact kept
    | some at_ =>
      rw [step, ends]
      dsimp only
      split_ifs with later
      · have after : now < at_ := by rcases ih with same | ⟨after, -⟩ <;> omega
        exact .inr ⟨after, row, by simp, ends⟩
      · exact kept

/-- A new Pass rests on now or on a Pass that stands. -/
theorem purchase_rests {live : List Grant} (sub : live ⊆ db.passes email) :
    passBase live now + passMs ≤ now + passMs ∨ ∃ e' ∈ db.passDeadlines email,
      e' < passBase live now + passMs ∧ passBase live now + passMs ≤ e' + passMs := by
  rcases passBase_spec live now with same | ⟨-, g, mem, ends⟩
  · exact .inl (by rw [same])
  · refine .inr ⟨_, mem_passDeadlines.mpr ⟨g, sub mem, ends⟩, ?_, le_rfl⟩
    have days : (0 : ℤ) < passMs := by decide
    omega

theorem users_grantPass : (grantPassFromTransaction db w txn now).2.users = db.users := by
  unfold grantPassFromTransaction
  split
  · rfl
  · dsimp only
    split <;> rfl

theorem users_revokePass : (revokePassByTransaction db txn now).2.users = db.users := rfl

/-- A purchase for the owner adds one Pass, or nothing. -/
theorem passes_grantPass (txn : String) (now : ℤ) (owns : earliestUser db w = some owner) :
    (grantPassFromTransaction db w txn now).2.grants = db.grants ∨
    ∃ row : Grant, row.email = owner.email ∧ row.source = .pass ∧ row.revokedAt = none ∧
      row.expiresAt = some (passBase ((db.passes owner.email).filter fun g =>
        unexpired now g.expiresAt) now + passMs) ∧
      (grantPassFromTransaction db w txn now).2.grants = db.grants ++ [row] := by
  unfold grantPassFromTransaction
  rw [owns]
  dsimp only
  split
  · exact .inl rfl
  · exact .inr ⟨_, rfl, rfl, rfl, rfl, rfl⟩

theorem passDeadlines_append {row : Grant} {e : ℤ}
    (grants : db'.grants = db.grants ++ [row]) (owned : row.email = email)
    (pass : row.source = .pass) (stands : row.revokedAt = none) (ends : row.expiresAt = some e) :
    db'.passDeadlines email = db.passDeadlines email ++ [e] := by
  have added : db'.passes email = db.passes email ++ [row] := by
    rw [Db.passes, grants, List.filter_append, ← Db.passes]
    simp [owned, pass, stands]
  rw [Db.passDeadlines, added, List.filterMap_append, ← Db.passDeadlines]
  simp [ends]

/-- A Pass that stands after a revocation stood before it, under another transaction. -/
theorem mem_passes_revoke {g : Grant}
    (mem : g ∈ (revokePassByTransaction db txn now).2.passes email) : g ∈ db.passes email := by
  obtain ⟨there, owned, pass, stands⟩ := mem_passes.mp mem
  obtain ⟨h, mem', rfl⟩ := List.mem_map.mp there
  by_cases hit : (h.purchasedBy txn && h.revokedAt.isNone) = true
  · simp [Grant.revoke, hit] at stands
  · rw [Grant.revoke, if_neg hit] at owned pass stands ⊢
    exact mem_passes.mpr ⟨mem', owned, pass, stands⟩

theorem mem_passes_revoke_of_other {g : Grant} (mem : g ∈ db.passes email)
    (other : g.purchasedBy txn = false) :
    g ∈ (revokePassByTransaction db txn now).2.passes email := by
  obtain ⟨there, owned, pass, stands⟩ := mem_passes.mp mem
  have same : g.revoke txn now = g := if_neg (by simp [other])
  exact mem_passes.mpr ⟨List.mem_map.mpr ⟨g, there, same⟩, owned, pass, stands⟩

/-- What may happen to the Passes of a workspace: time goes on, a Pass is purchased for it, or
a purchase is revoked. `ok` says which revocations are made. -/
inductive PassStep (w : WorkspaceId) (ok : Db → String → ℤ → Prop) : ℤ × Db → ℤ × Db → Prop
  | wait {t t' : ℤ} {db : Db} (le : t ≤ t') : PassStep w ok (t, db) (t', db)
  | purchase (txn : String) {t : ℤ} {db : Db} :
    PassStep w ok (t, db) (t, (grantPassFromTransaction db w txn t).2)
  | revoke (txn : String) {t : ℤ} {db : Db} (permitted : ok db txn t) :
    PassStep w ok (t, db) (t, (revokePassByTransaction db txn t).2)

/-- The Pass that is revoked has ended, or no other Pass that stands ends after it. -/
def NothingRests (email : String) (db : Db) (txn : String) (now : ℤ) : Prop :=
  ∀ g ∈ db.passes email, g.purchasedBy txn = true → ∀ e ∈ g.expiresAt,
    e ≤ now ∨ ∀ g' ∈ db.passes email, ∀ e' ∈ g'.expiresAt, e' ≤ e

/-- Every Pass that stands rests on now or on an earlier Pass that stands. -/
structure PassInv (w : WorkspaceId) (owner : User) (s : ℤ × Db) : Prop where
  owns : earliestUser s.2 w = some owner
  stacked : Stacked passMs s.1 (s.2.passDeadlines owner.email)

theorem earliestUser_congr (same : db'.users = db.users) (w : WorkspaceId) :
    earliestUser db' w = earliestUser db w := by
  rw [earliestUser, same, ← earliestUser]

theorem PassInv.step {s s' : ℤ × Db} (h : PassInv w owner s)
    (step : PassStep w (NothingRests owner.email) s s') : PassInv w owner s' := by
  cases step with
  | wait le => exact ⟨h.owns, h.stacked.later le⟩
  | @purchase txn t db =>
    refine ⟨(earliestUser_congr users_grantPass w).trans h.owns, ?_⟩
    rcases passes_grantPass txn t h.owns with
      same | ⟨row, owned, pass, stands, ends, grants⟩
    · have kept : (grantPassFromTransaction db w txn t).2.passDeadlines owner.email =
          db.passDeadlines owner.email := by
        rw [Db.passDeadlines, Db.passes, same]
        rfl
      dsimp only
      rw [kept]
      exact h.stacked
    · dsimp only
      rw [passDeadlines_append grants owned pass stands ends]
      exact h.stacked.concat (purchase_rests List.filter_sublist.subset)
  | @revoke txn t db permitted =>
    refine ⟨(earliestUser_congr users_revokePass w).trans h.owns, h.stacked.drop ?_ ?_⟩
    · intro e mem
      obtain ⟨g, there, ends⟩ := mem_passDeadlines.mp mem
      exact mem_passDeadlines.mpr ⟨g, mem_passes_revoke there, ends⟩
    · intro e mem
      obtain ⟨g, there, ends⟩ := mem_passDeadlines.mp mem
      cases hit : g.purchasedBy txn with
      | false =>
        exact .inl (mem_passDeadlines.mpr ⟨g, mem_passes_revoke_of_other there hit, ends⟩)
      | true =>
        refine .inr ((permitted g there hit e ends).imp_right fun last e' mem' => ?_)
        obtain ⟨g', there', ends'⟩ := mem_passDeadlines.mp mem'
        exact last g' (mem_passes_revoke there') e' ends'

/-- The days left are at most those of the purchases that stand, if no Pass is revoked while
others rest on it. -/
theorem passTime_le_purchases {t t' : ℤ} (owns : earliestUser db w = some owner)
    (fresh : ∀ g ∈ db.grants, g.email ≠ owner.email)
    (run : Relation.ReflTransGen (PassStep w (NothingRests owner.email)) (t, db) (t', db')) :
    remaining (db'.passDeadlines owner.email) t' ≤
      passMs * (db'.passes owner.email).length := by
  have none : db.passDeadlines owner.email = [] := by
    refine List.eq_nil_iff_forall_not_mem.mpr fun e mem => ?_
    obtain ⟨g, there, -⟩ := mem_passDeadlines.mp mem
    obtain ⟨there, owned, -⟩ := mem_passes.mp there
    exact fresh g there owned
  have start : PassInv w owner (t, db) := ⟨owns, by rw [none]; exact .nil⟩
  have inv : PassInv w owner (t', db') := by
    generalize (t, db) = s at start run
    generalize (t', db') = s' at run
    induction run with
    | refl => exact start
    | tail _ step ih => exact ih.step step
  have days : (0 : ℤ) ≤ passMs := by decide
  have short : ((db'.passDeadlines owner.email).length : ℤ) ≤ (db'.passes owner.email).length :=
    by exact_mod_cast List.length_filterMap_le _ _
  calc remaining (db'.passDeadlines owner.email) t'
      ≤ (db'.passDeadlines owner.email).length • passMs := inv.stacked.remaining_le days
    _ = passMs * (db'.passDeadlines owner.email).length := by rw [nsmul_eq_mul, mul_comm]
    _ ≤ passMs * (db'.passes owner.email).length := mul_le_mul_of_nonneg_left short days

/-- A workspace with one user and nothing bought. -/
def freshDb : Db := ⟨[⟨"w", .free, false⟩], [⟨"u", "owner@example.test", "w", 0⟩], [], []⟩

/-- Two purchases, of which the second is revoked. -/
theorem passTime_le_purchases_refunded :
    ∃ db : Db, remaining (db.passDeadlines "owner@example.test") 5 ≤
        passMs * (db.passes "owner@example.test").length ∧
      (db.passes "owner@example.test").length = 1 := by
  let bought := (grantPassFromTransaction (grantPassFromTransaction freshDb "w" "a" 0).2 "w" "b" 0).2
  have owns : earliestUser freshDb "w" = some ⟨"u", "owner@example.test", "w", 0⟩ := by decide
  have last : NothingRests "owner@example.test" bought "b" 5 := by
    unfold NothingRests
    decide
  have run : Relation.ReflTransGen (PassStep "w" (NothingRests "owner@example.test"))
      (0, freshDb) (5, (revokePassByTransaction bought "b" 5).2) :=
    (((Relation.ReflTransGen.single (.purchase "a")).tail (.purchase "b")).tail
      (.wait (by decide : (0 : ℤ) ≤ 5))).tail (.revoke "b" last)
  exact ⟨_, passTime_le_purchases owns (by decide) run, by decide⟩

/-- Of two purchases the first is revoked: sixty days are left, of one purchase of thirty. -/
theorem passTime_gt_purchases :
    ∃ db : Db, Relation.ReflTransGen (PassStep "w" fun _ _ _ => True) (0, freshDb) (0, db) ∧
      passMs * (db.passes "owner@example.test").length <
        remaining (db.passDeadlines "owner@example.test") 0 := by
  refine ⟨_, ((Relation.ReflTransGen.single (.purchase "a")).tail (.purchase "b")).tail
    (.revoke "a" trivial), ?_⟩
  decide

end DeclutrMail.Billing
