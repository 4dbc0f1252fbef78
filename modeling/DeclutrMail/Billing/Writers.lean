import DeclutrMail.Billing.Events
import DeclutrMail.Billing.Sweep
import DeclutrMail.Interleaving.Transactions
import DeclutrMail.Interleaving.Triple

/-!
# The writers of a subscription row

The transactions of the webhook that write a row of `subscriptions`, statement by statement, with
the dunning flip of the sweep between them. The webhook's transactions take the subscription's
advisory lock and the flip does not, so `canceled` is absorbing in the runs in which no flip lands
between the reading of a row and the snapshot that is written for it (`Undisturbed`).
-/

namespace DeclutrMail.Billing

def Db.status (db : Db) (key : SubscriptionKey) : Option SubscriptionStatus :=
  (db.subscription key).map (·.status)

namespace Writers

open Interleaving

/-- The advisory lock of a subscription, and the lock on its row. -/
inductive Lock where
  | advisory (key : SubscriptionKey)
  | row (key : SubscriptionKey)
  deriving DecidableEq

inductive Write where
  | upsert (row : Subscription)
  | schedule (key : SubscriptionKey) (reason : ScheduledReason) (now : ℤ)
  | settle (key : SubscriptionKey) (now : ℤ)
  | revoke (key : SubscriptionKey) (reason : RevokedReason)
  deriving DecidableEq

def Write.key : Write → SubscriptionKey
  | .upsert row => row.key
  | .schedule key .. | .settle key _ | .revoke key _ => key

def apply (db : Db) : Write → Db
  | .upsert row => db.upsert row
  | .schedule key reason now => db.update key (·.scheduleCancellation reason now)
  | .settle key now => db.update key (·.settleRefund now)
  | .revoke key reason => db.update key (·.revokeCancellation reason)

/-- `live` remembers whose snapshot has read its row as live, and is to write a live status. -/
structure World where
  now : ℤ
  db : Transactions ℕ Db Write Lock
  live : ℕ → Option SubscriptionKey

inductive Request where
  | lock (key : SubscriptionKey)
  | newerPeers
  | selectCurrent (key : SubscriptionKey) (status : SubscriptionStatus)
  | intentEvidence
  | allocateFounding
  | currentTime
  | write (x : Write)
  | commit
  deriving DecidableEq

abbrev Request.Answer : Request → Type
  | .newerPeers | .allocateFounding => Bool
  | .selectCurrent .. => Option Subscription
  | .intentEvidence => Option IntentEvidence
  | .currentTime => ℤ
  | _ => Unit

abbrev WriterSignature : Signature := ⟨Request, Request.Answer, BillingError⟩

abbrev WriterProgram (α : Type) := Program WriterSignature α

def ask (q : Request) : WriterProgram q.Answer := Program.perform (S := WriterSignature) q

/-! ## The transactions -/

/-- The snapshot that is written over the row that was read. -/
def writeSnapshot (key : SubscriptionKey) (workspaceId : WorkspaceId) (entry : CatalogEntry)
    (sub : NormalizedSubscription) (selfMs : Option ℤ) (current : Option Subscription) :
    WriterProgram Unit := do
  let founding ← ask .allocateFounding
  let now ← ask .currentTime
  ask (.write (.upsert (nextSubscription key.1 workspaceId entry sub selfMs now founding current)))
  ask .commit

/-- An upgrade restoration is checked against its intent. -/
def checkRestoration (sub : NormalizedSubscription) (current : Option Subscription) :
    Option UpgradeRefundRestoration → WriterProgram Unit
  | none => return ()
  | some _ => do
    let evidence ← ask .intentEvidence
    if restorable current sub evidence then return ()
    throw BillingError.restorationChanged

/-- `applySubscription`. -/
def applySubscription (provider : BillingProviderId) (workspaceId : WorkspaceId)
    (entry : CatalogEntry) (sub : NormalizedSubscription) (selfMs : Option ℤ)
    (restoration : Option UpgradeRefundRestoration) : WriterProgram Unit := do
  let key : SubscriptionKey := (provider, sub.providerSubscriptionId)
  ask (.lock key)
  if ← ask .newerPeers then ask .commit
  else
    let current ← ask (.selectCurrent key sub.status)
    checkRestoration sub current restoration
    if belowFloor current sub then ask .commit
    else writeSnapshot key workspaceId entry sub selfMs current

def applyScheduledCancellation (key : SubscriptionKey) (reason : ScheduledReason) :
    WriterProgram Unit := do
  ask (.lock key)
  let now ← ask .currentTime
  ask (.write (.schedule key reason now))
  ask .commit

def applyRefundSettlement (key : SubscriptionKey) : WriterProgram Unit := do
  ask (.lock key)
  let now ← ask .currentTime
  ask (.write (.settle key now))
  ask .commit

def applyRevokedCancellation (key : SubscriptionKey) (reason : RevokedReason) :
    WriterProgram Unit := do
  ask (.lock key)
  ask (.write (.revoke key reason))
  ask .commit

inductive Task where
  | subscription (provider : BillingProviderId) (workspaceId : WorkspaceId) (entry : CatalogEntry)
      (sub : NormalizedSubscription) (selfMs : Option ℤ)
      (restoration : Option UpgradeRefundRestoration)
  | cancellationScheduled (key : SubscriptionKey) (reason : ScheduledReason)
  | refundSettled (key : SubscriptionKey)
  | cancellationRevoked (key : SubscriptionKey) (reason : RevokedReason)

def Task.code : Task → WriterProgram Unit
  | .subscription provider workspaceId entry sub selfMs restoration =>
    applySubscription provider workspaceId entry sub selfMs restoration
  | .cancellationScheduled key reason => applyScheduledCancellation key reason
  | .refundSettled key => applyRefundSettlement key
  | .cancellationRevoked key reason => applyRevokedCancellation key reason

/-! ## The system -/

/-- What a transaction finds in the other tables. -/
structure Found where
  newer : Bool
  evidence : Option IntentEvidence
  founding : Bool

namespace World

def view (w : World) (t : ℕ) : Db := w.db.view apply t

/-- The committed status. -/
def status (w : World) (key : SubscriptionKey) : Option SubscriptionStatus := w.db.store.status key

def setLive (w : World) (t : ℕ) (key : Option SubscriptionKey) : World :=
  { w with live := Function.update w.live t key }

/-- The row is read for a snapshot of the status. -/
def read (w : World) (t : ℕ) (key : SubscriptionKey) (status : SubscriptionStatus) :
    Option Subscription × World :=
  let current := (w.view t).subscription key
  (current, if status ≠ .canceled ∧ current.all (·.status ≠ .canceled) then w.setLive t (some key)
    else w)

def commit (w : World) (t : ℕ) : World :=
  { w with db := w.db.commit apply t, live := Function.update w.live t none }

def rollback (w : World) (t : ℕ) : World :=
  { w with db := w.db.rollback t, live := Function.update w.live t none }

/-- The row is locked and written, unless the index on live rows refuses it. -/
def write (w : World) (t : ℕ) (x : Write) : Option (Except BillingError (Unit × World)) :=
  (w.db.acquire t (.row x.key)).map fun db =>
    match x with
    | .upsert row =>
      if (w.view t).liveConflict row then .error .database
      else .ok ((), { w with db := db.write t x })
    | _ => .ok ((), { w with db := db.write t x })

/-- The dunning flip waits for rows that are being written. -/
def flip (w : World) : Option World :=
  if ∀ s ∈ w.db.store.subscriptions, s.dunned w.now = true → w.db.holder (.row s.key) = none then
    some { w with db := { w.db with store := w.db.store.dunningFlip w.now } }
  else none

end World

/-- A statement of the transaction of thread `t`, as it takes effect. -/
def effect (t : ℕ) (f : Found) (w : World) :
    (q : Request) → Option (Except BillingError (q.Answer × World))
  | .lock key => (w.db.acquire t (.advisory key)).map fun db => .ok ((), { w with db })
  | .newerPeers => some (.ok (f.newer, w))
  | .selectCurrent key status => some (.ok (w.read t key status))
  | .intentEvidence => some (.ok (f.evidence, w))
  | .allocateFounding => some (.ok (f.founding, w))
  | .currentTime => some (.ok (w.now, w))
  | .write x => w.write t x
  | .commit => some (.ok ((), w.commit t))

inductive Choice where
  | go (f : Found)
  | lost (f : Found)
  | fail

def answer (t : ℕ) (q : Request) (c : Choice) (w : World) :
    Option (Except BillingError q.Answer × World) :=
  match c with
  | .fail => some (.error .database, w)
  | .go f => (effect t f w q).map fun r => match r with
    | .ok (a, w') => (.ok a, w')
    | .error e => (.error e, w)
  | .lost f => (effect t f w q).map fun r => match r with
    | .ok (_, w') => (.error .database, w')
    | .error e => (.error e, w)

/-- What happens besides: time goes on, and a sweep flips the rows that are due. -/
inductive Event where
  | wait (ms : ℕ)
  | flip

def writers : System WriterSignature where
  World := World
  Thread := ℕ
  Task := Task
  Outcome := Unit
  Choice := Choice
  Event := Event
  code := Task.code
  accept _ _ w := some w
  answer := answer
  settle t _ w := some (w.rollback t)
  crash t w := some (w.rollback t)
  disturb e w := match e with
    | .wait ms => some { w with now := w.now + ms }
    | .flip => w.flip

/-- No flip lands on a row that a snapshot has read as live and is to write as live. -/
def Undisturbed (w : World) : Move writers → Prop
  | .disturb .flip => ∀ s ∈ w.db.store.subscriptions, s.dunned w.now = true →
    ∀ t, w.live t ≠ some s.key
  | _ => True

/-! ## What a write does to the rows -/

section Rows

variable {db : Db} {key : SubscriptionKey} {now : ℤ} {x : Write} {l : List Write}

/-- What a write does to the row of its key. -/
def Write.run : Write → Option Subscription → Option Subscription
  | .upsert row, _ => some row
  | .schedule _ reason now, s => s.map (·.scheduleCancellation reason now)
  | .settle _ now, s => s.map (·.settleRefund now)
  | .revoke _ reason, s => s.map (·.revokeCancellation reason)

theorem subscription_apply (x : Write) : (apply db x).subscription key =
    if key = x.key then x.run (db.subscription key) else db.subscription key := by
  cases x with
  | upsert row => exact subscription_upsert key
  | schedule k reason now => exact subscription_update (fun s => (key_scheduleCancellation s _ _).trans) key
  | settle k now => exact subscription_update (fun s => (key_settleRefund s _).trans) key
  | revoke k reason => exact subscription_update (fun s => (key_revokeCancellation s _).trans) key

theorem status_apply_of_ne (other : x.key ≠ key) : (apply db x).status key = db.status key := by
  rw [Db.status, subscription_apply, if_neg other.symm, Db.status]

theorem status_foldl_of_ne (other : ∀ x ∈ l, x.key ≠ key) :
    (l.foldl apply db).status key = db.status key := by
  induction l generalizing db with
  | nil => rfl
  | cons x l ih =>
    rw [List.foldl_cons, ih fun y mem => other y (List.mem_cons_of_mem _ mem),
      status_apply_of_ne (other x List.mem_cons_self)]

/-- The write gives the row of `key` no status but `canceled`. -/
def Write.Spares (x : Write) (key : SubscriptionKey) : Prop :=
  ∀ row, x = .upsert row → row.key = key → row.status = .canceled

theorem canceled_apply (h : db.status key = some .canceled) (spares : x.Spares key) :
    (apply db x).status key = some .canceled := by
  by_cases same : key = x.key
  · obtain ⟨s, found, canceled⟩ := Option.map_eq_some_iff.mp h
    rw [Db.status, subscription_apply, if_pos same, found]
    cases x with
    | upsert row => exact congrArg some (spares row rfl same.symm)
    | schedule => exact congrArg some canceled
    | settle => grind [Write.run, Subscription.settleRefund]
    | revoke => grind [Write.run, Subscription.revokeCancellation]
  · rwa [status_apply_of_ne (Ne.symm same)]

theorem canceled_foldl (h : db.status key = some .canceled) (spares : ∀ x ∈ l, x.Spares key) :
    (l.foldl apply db).status key = some .canceled := by
  induction l generalizing db with
  | nil => exact h
  | cons x l ih =>
    exact ih (canceled_apply h (spares x List.mem_cons_self)) fun y mem =>
      spares y (List.mem_cons_of_mem _ mem)

theorem key_flip (s : Subscription) : (s.flip now).key = s.key := by
  unfold Subscription.flip
  split_ifs <;> rfl

theorem subscription_dunningFlip :
    (db.dunningFlip now).subscription key = (db.subscription key).map (·.flip now) := by
  unfold Db.dunningFlip Db.subscription
  rw [List.find?_map]
  congr 2
  funext s
  rw [Function.comp_apply, key_flip]

theorem canceled_dunningFlip (h : db.status key = some .canceled) :
    (db.dunningFlip now).status key = some .canceled := by
  obtain ⟨s, found, canceled⟩ := Option.map_eq_some_iff.mp h
  rw [Db.status, subscription_dunningFlip, found, Option.map_some, Option.map_some]
  unfold Subscription.flip
  split_ifs
  · rfl
  · rw [canceled]

theorem status_dunningFlip_of_not_dunned
    (spared : ∀ s ∈ db.subscriptions, s.dunned now = true → s.key ≠ key) :
    (db.dunningFlip now).status key = db.status key := by
  rw [Db.status, subscription_dunningFlip, Option.map_map, Db.status]
  cases found : db.subscription key with
  | none => rfl
  | some s =>
    obtain ⟨mem, same⟩ := mem_subscription found
    have stays : s.dunned now = false := Bool.eq_false_iff.mpr fun due => spared s mem due same
    rw [Option.map_some, Function.comp_apply, flip_of_not_dunned stays, Option.map_some]

end Rows

/-! ## What a transaction may do -/

/-- A thread writes under the lock of the subscription, and a live status only over a row that it
has read as live and that stays so. -/
structure World.Own (w : World) (t : ℕ) : Prop where
  locked : ∀ x ∈ w.db.draft t, w.db.holder (.advisory x.key) = some t
  revives : ∀ row, .upsert row ∈ w.db.draft t → row.status ≠ .canceled → w.live t = some row.key
  held : ∀ key, w.live t = some key → w.db.holder (.advisory key) = some t
  stands : ∀ key, w.live t = some key → w.status key ≠ some .canceled

def World.Inv (w : World) : Prop := ∀ t, w.Own t

section Moves

variable {t x : ℕ} {w w' : World} {key : SubscriptionKey}

theorem World.Own.idle (drafts : w.db.draft t = []) (live : w.live t = none) : w.Own t where
  locked := by simp [drafts]
  revives := by simp [drafts]
  held := by simp [live]
  stands := by simp [live]

structure Moves (t : ℕ) (w w' : World) : Prop where
  frames : w.db.Frames t w'.db
  live : ∀ x ≠ t, w'.live x = w.live x
  inv : w.Inv → w'.Inv
  canceled : w.Inv → ∀ key, w.status key = some .canceled → w'.status key = some .canceled

/-- The others keep what is theirs, if the rows that they have read as live are spared. -/
theorem World.Inv.moved (inv : w.Inv) (frames : w.db.Frames t w'.db)
    (live : ∀ x ≠ t, w'.live x = w.live x) (own : w'.Own t)
    (spared : ∀ x ≠ t, ∀ key, w.live x = some key → w'.status key = w.status key) : w'.Inv := by
  intro x
  by_cases same : x = t
  · exact same ▸ own
  · refine ⟨fun y mem => ?_, fun row mem alive => ?_, fun key read => ?_, fun key read => ?_⟩
    · rw [frames.draft x same] at mem
      exact (frames.holder x same _).mpr ((inv x).locked y mem)
    · rw [frames.draft x same] at mem
      rw [live x same]
      exact (inv x).revives row mem alive
    · rw [live x same] at read
      exact (frames.holder x same _).mpr ((inv x).held key read)
    · rw [live x same] at read
      rw [spared x same key read]
      exact (inv x).stands key read

/-- A move that commits nothing. -/
theorem Moves.drafts (frames : w.db.Frames t w'.db) (store : w'.db.store = w.db.store)
    (live : ∀ x ≠ t, w'.live x = w.live x) (own : w.Own t → w'.Own t) : Moves t w w' := by
  have status : ∀ key, w'.status key = w.status key := fun key => by
    rw [World.status, store, World.status]
  exact ⟨frames, live, fun inv => inv.moved frames live (own (inv t)) fun _ _ key _ => status key,
    fun _ key canceled => (status key).trans canceled⟩

theorem Moves.refl (w : World) : Moves t w w := .drafts .refl rfl (fun _ _ => rfl) id

theorem Moves.rollback : Moves t w (w.rollback t) :=
  .drafts .rollback rfl (fun _ other => Function.update_of_ne other _ _) fun _ =>
    .idle Transactions.draft_rollback (Function.update_self ..)

/-- What is written is under the lock of its writer. -/
theorem World.Inv.spares (inv : w.Inv) (other : x ≠ t) (read : w.live x = some key) :
    ∀ y ∈ w.db.draft t, y.key ≠ key := by
  rintro y mem rfl
  have mine := (inv t).locked y mem
  rw [(inv x).held y.key read] at mine
  exact other (Option.some.inj mine)

theorem Moves.commit : Moves t w (w.commit t) := by
  have live : ∀ x ≠ t, (w.commit t).live x = w.live x := fun x other =>
    Function.update_of_ne other _ _
  refine ⟨.commit, live, fun inv => ?_, fun inv key canceled => ?_⟩
  · refine inv.moved .commit live (.idle Transactions.draft_commit (Function.update_self ..)) ?_
    intro x other key read
    exact status_foldl_of_ne (inv.spares other read)
  · refine canceled_foldl canceled fun y mem row is same => ?_
    subst is
    by_contra alive
    exact (inv t).stands row.key ((inv t).revives row mem alive) (same ▸ canceled)

/-- What the others, the sweep and the time do to what thread `t` knows. -/
structure Rely (t : ℕ) (w w' : World) : Prop where
  draft : w'.db.draft t = w.db.draft t
  holder : ∀ k, w'.db.holder k = some t ↔ w.db.holder k = some t
  live : w'.live t = w.live t
  inv : w.Inv → w'.Inv

theorem Moves.rely (h : Moves x w w') (other : x ≠ t) : Rely t w w' :=
  ⟨h.frames.draft t other.symm, h.frames.holder t other.symm, h.live t other.symm, h.inv⟩

/-- What happens besides revives no row, and takes nothing from a thread. -/
theorem disturbed {e : Event} (permitted : Undisturbed w (.disturb e))
    (h : writers.disturb e w = some w') : (∀ t, Rely t w w') ∧
      ∀ key, w.status key = some .canceled → w'.status key = some .canceled := by
  cases e with
  | wait ms =>
    obtain rfl := Option.some.inj h
    exact ⟨fun t => ⟨rfl, fun _ => Iff.rfl, rfl, fun inv x => ⟨(inv x).locked, (inv x).revives,
      (inv x).held, (inv x).stands⟩⟩, fun _ => id⟩
  | flip =>
    change w.flip = some w' at h
    unfold World.flip at h
    split_ifs at h
    obtain rfl := Option.some.inj h
    refine ⟨fun t => ⟨rfl, fun _ => Iff.rfl, rfl, fun inv x => ⟨(inv x).locked, (inv x).revives,
      (inv x).held, fun key read => ?_⟩⟩, fun key => canceled_dunningFlip⟩
    have spared : ∀ s ∈ w.db.store.subscriptions, s.dunned w.now = true → s.key ≠ key := by
      rintro s mem due rfl
      exact permitted s mem due x read
    rw [World.status, status_dunningFlip_of_not_dunned spared]
    exact (inv x).stands key read

end Moves

/-! ## The transactions keep to it -/

section Code

variable {t : ℕ} {α β : Type}

abbrev Knows (t : ℕ) := Assertion (Rely t)

/-- The writes of the transaction so far. -/
def drafted (t : ℕ) (l : List Write) : Knows t where
  holds w := w.Inv ∧ w.db.draft t = l
  stable := fun _ _ ⟨inv, mine⟩ rely => ⟨rely.inv inv, rely.draft.trans mine⟩

def held (t : ℕ) (key : SubscriptionKey) : Knows t where
  holds w := w.db.holder (.advisory key) = some t
  stable := fun _ _ mine rely => (rely.holder _).mpr mine

/-- The row of the key has been read as live. -/
def reviving (t : ℕ) (key : SubscriptionKey) : Knows t where
  holds w := w.live t = some key
  stable := fun _ _ read rely => rely.live.trans read

/-- `p` makes only moves that are allowed, and ends in `B` if it returns. -/
def Acts (A : Knows t) (p : WriterProgram α) (B : α → Knows t) : Prop :=
  @Triple WriterSignature writers Rely t α Moves A p B fun _ => .fact True

namespace Acts

variable {A A' : Knows t} {B : α → Knows t} {C : β → Knows t}

theorem bind {p : WriterProgram α} {f : α → WriterProgram β} (first : Acts A p B)
    (rest : ∀ a, Acts (B a) (f a) C) : Acts A (p >>= f) C := Triple.bind first rest

theorem done {a : α} (le : ∀ w, A w → B a w) : Acts A (.ret a) B := Triple.done le

theorem pre {p : WriterProgram α} (h : Acts A' p B) (le : ∀ w, A w → A' w) : Acts A p B :=
  Triple.pre h le

/-- One statement. -/
theorem ask {q : Request} {B : q.Answer → Knows t}
    (h : ∀ w, A w → ∀ f a w', effect t f w q = some (.ok (a, w')) → Moves t w w' ∧ B a w') :
    Acts A (Writers.ask q) B := by
  refine Triple.perform fun w hw c r w' answered => ?_
  change answer t q c w = some (r, w') at answered
  have effected : ∀ f, ∀ v ∈ effect t f w q, match v with
      | .ok (a, w') => Moves t w w' ∧ B a w'
      | .error _ => True := by
    rintro f (e | ⟨a, w'⟩) did
    · trivial
    · exact h w hw f a w' did
  cases c with
  | fail =>
    obtain ⟨rfl, rfl⟩ := Prod.mk.inj (Option.some.inj answered)
    exact ⟨.refl w, trivial⟩
  | go f =>
    obtain ⟨v, did, same⟩ := Option.map_eq_some_iff.mp answered
    have owed := effected f v did
    rcases v with e | ⟨a, w'⟩ <;> obtain ⟨rfl, rfl⟩ := Prod.mk.inj same
    · exact ⟨.refl w, trivial⟩
    · exact owed
  | lost f =>
    obtain ⟨v, did, same⟩ := Option.map_eq_some_iff.mp answered
    have owed := effected f v did
    rcases v with e | ⟨a, w'⟩ <;> obtain ⟨rfl, rfl⟩ := Prod.mk.inj same
    · exact ⟨.refl w, trivial⟩
    · exact ⟨owed.1, trivial⟩

/-- A statement on the other tables. -/
theorem reads {q : Request} (ran : ∀ f w, ∃ a, effect t f w q = some (.ok (a, w))) :
    Acts A (Writers.ask q) fun _ => A := by
  refine ask fun w hw f a w' did => ?_
  obtain ⟨b, ran⟩ := ran f w
  obtain ⟨rfl, rfl⟩ := Prod.mk.inj (Except.ok.inj (Option.some.inj (ran.symm.trans did)))
  exact ⟨.refl w, hw⟩

end Acts

theorem acts_lock (key : SubscriptionKey) :
    Acts (drafted t []) (ask (.lock key)) fun _ => (drafted t []).and (held t key) := by
  refine .ask fun w ⟨inv, mine⟩ f a w' did => ?_
  obtain ⟨db, taken, same⟩ := Option.map_eq_some_iff.mp did
  obtain ⟨-, rfl⟩ := Prod.mk.inj (Except.ok.inj same)
  obtain ⟨store, draft, holds, frames⟩ := Transactions.acquire_eq_some taken
  have moves : Moves t w { w with db } := .drafts frames store (fun _ _ => rfl) fun own => by
    refine ⟨by simp [draft, mine], by simp [draft, mine], fun k read => ?_, fun k read => ?_⟩
    · exact Transactions.holder_acquire taken (own.held k read)
    · rw [World.status, store]
      exact own.stands k read
  exact ⟨moves, ⟨moves.inv inv, by rw [draft, mine]⟩, holds⟩

/-- A row that is read under the lock stays live until the transaction ends. -/
theorem acts_selectCurrent (key : SubscriptionKey) (status : SubscriptionStatus) :
    Acts ((drafted t []).and (held t key)) (ask (.selectCurrent key status)) fun current =>
      ((drafted t []).and (held t key)).and
        ((Assertion.fact (status = .canceled ∨ current.any (·.status = .canceled) = true)).or
          (reviving t key)) := by
  refine .ask fun w ⟨⟨inv, mine⟩, holds⟩ f a w' did => ?_
  obtain ⟨rfl, rfl⟩ := Prod.mk.inj (Except.ok.inj (Option.some.inj did))
  have view : w.view t = w.db.store := by rw [World.view, Transactions.view, mine]; rfl
  rw [view]
  split_ifs with alive
  · have moves : Moves t w (w.setLive t (some key)) :=
      .drafts .refl rfl (fun _ other => Function.update_of_ne other _ _) fun own => by
        refine ⟨own.locked, by simp [World.setLive, mine], fun k read => ?_, fun k read => ?_⟩ <;>
          obtain rfl : key = k := by simpa [World.setLive] using read
        · exact holds
        · intro canceled
          obtain ⟨s, found, canceled⟩ := Option.map_eq_some_iff.mp canceled
          change w.db.store.subscription key = some s at found
          simp [found, canceled] at alive
    exact ⟨moves, ⟨⟨moves.inv inv, mine⟩, holds⟩, .inr (Function.update_self ..)⟩
  · refine ⟨.refl w, ⟨⟨inv, mine⟩, holds⟩, .inl ?_⟩
    by_contra none
    obtain none := not_or.mp none
    refine alive ⟨none.1, ?_⟩
    cases found : w.db.store.subscription key with
    | none => rfl
    | some s => simpa [found] using none.2

/-- A row is written under the lock, and as live only by who has read it as live. -/
theorem acts_write (x : Write) :
    Acts (((drafted t []).and (held t x.key)).and
        ((Assertion.fact (∀ row, x = .upsert row → row.status = .canceled)).or (reviving t x.key)))
      (ask (.write x)) fun _ => drafted t [x] := by
  refine .ask fun w ⟨⟨⟨inv, mine⟩, holds⟩, ready⟩ f a w' did => ?_
  obtain ⟨db, taken, result⟩ := Option.map_eq_some_iff.mp did
  obtain ⟨store, draft, -, frames⟩ := Transactions.acquire_eq_some taken
  have wrote : w' = { w with db := db.write t x } := by
    split at result
    · split_ifs at result
      exact (Prod.mk.inj (Except.ok.inj result)).2.symm
    · exact (Prod.mk.inj (Except.ok.inj result)).2.symm
  subst wrote
  have one : (db.write t x).draft t = [x] := by rw [Transactions.draft_write, draft, mine]; rfl
  have moves : Moves t w { w with db := db.write t x } := by
    refine .drafts ⟨fun y other => ?_, frames.holder⟩ store (fun _ _ => rfl) fun own => ?_
    · rw [(Transactions.Frames.write x).draft y other, frames.draft y other]
    · have keeps : ∀ {k}, w.db.holder k = some t → db.holder k = some t :=
        Transactions.holder_acquire taken
      refine ⟨fun y mem => ?_, fun row mem alive => ?_, fun k read => keeps (own.held k read),
        fun k read => ?_⟩
      · obtain rfl := List.mem_singleton.mp (one ▸ mem)
        exact keeps holds
      · obtain rfl := List.mem_singleton.mp (one ▸ mem)
        exact ready.resolve_left fun spares => alive (spares row rfl)
      · rw [World.status, Transactions.store_write, store]
        exact own.stands k read
  exact ⟨moves, moves.inv inv, one⟩

theorem acts_commit {l : List Write} : Acts (drafted t l) (ask .commit) fun _ => drafted t [] := by
  refine .ask fun w ⟨inv, mine⟩ f a w' did => ?_
  obtain ⟨-, rfl⟩ := Prod.mk.inj (Except.ok.inj (Option.some.inj did))
  exact ⟨.commit, Moves.commit.inv inv, Transactions.draft_commit⟩

theorem acts_writeSnapshot (provider : BillingProviderId) (workspaceId : WorkspaceId)
    (entry : CatalogEntry) (sub : NormalizedSubscription) (selfMs : Option ℤ)
    (current : Option Subscription) :
    Acts (((drafted t []).and (held t (provider, sub.providerSubscriptionId))).and
        ((Assertion.fact (sub.status = .canceled)).or
          (reviving t (provider, sub.providerSubscriptionId))))
      (writeSnapshot (provider, sub.providerSubscriptionId) workspaceId entry sub selfMs current)
      fun _ => drafted t [] := by
  refine (Acts.reads fun f w => ⟨f.founding, rfl⟩).bind fun founding =>
    (Acts.reads fun f w => ⟨w.now, rfl⟩).bind fun now => .bind (.pre (acts_write _) ?_) fun _ =>
      acts_commit
  rintro w ⟨known, ready⟩
  refine ⟨known, ready.imp_left fun canceled row is => ?_⟩
  obtain rfl := Write.upsert.inj is
  exact canceled

theorem acts_checkRestoration {A : Knows t} (sub : NormalizedSubscription)
    (current : Option Subscription) (restoration : Option UpgradeRefundRestoration) :
    Acts A (checkRestoration sub current restoration) fun _ => A := by
  cases restoration with
  | none => exact .done fun _ h => h
  | some r =>
    refine (Acts.reads fun f w => ⟨f.evidence, rfl⟩).bind fun evidence => ?_
    split
    · exact .done fun _ h => h
    · exact Triple.failed fun _ _ => trivial

theorem acts_applySubscription (provider : BillingProviderId) (workspaceId : WorkspaceId)
    (entry : CatalogEntry) (sub : NormalizedSubscription) (selfMs : Option ℤ)
    (restoration : Option UpgradeRefundRestoration) :
    Acts (drafted t []) (applySubscription provider workspaceId entry sub selfMs restoration)
      fun _ => drafted t [] := by
  refine (acts_lock _).bind fun _ => (Acts.reads fun f w => ⟨f.newer, rfl⟩).bind fun newer => ?_
  cases newer with
  | true => exact .pre acts_commit fun _ h => h.1
  | false =>
    refine (acts_selectCurrent _ sub.status).bind fun current =>
      (acts_checkRestoration sub current restoration).bind fun _ => ?_
    split
    · exact .pre acts_commit fun _ h => h.1.1
    next above =>
      refine .pre (acts_writeSnapshot provider workspaceId entry sub selfMs current) ?_
      rintro w ⟨known, ready⟩
      refine ⟨known, ready.imp_left fun canceled => ?_⟩
      grind [belowFloor]

theorem acts_code (k : Task) : Acts (drafted t []) k.code fun _ => drafted t [] := by
  have verdict : ∀ {x : Write}, (∀ row, x ≠ .upsert row) →
      Acts ((drafted t []).and (held t x.key)) (do ask (.write x); ask .commit)
        fun _ => drafted t [] := fun {x} other =>
    .bind (.pre (acts_write x) fun w known => ⟨known, .inl fun row is => absurd is (other row)⟩)
      fun _ => acts_commit
  cases k with
  | subscription provider workspaceId entry sub selfMs restoration =>
    exact acts_applySubscription provider workspaceId entry sub selfMs restoration
  | cancellationScheduled key reason =>
    exact (acts_lock key).bind fun _ => (Acts.reads fun f w => ⟨w.now, rfl⟩).bind fun now =>
      verdict (x := .schedule key reason now) (by simp)
  | refundSettled key =>
    exact (acts_lock key).bind fun _ => (Acts.reads fun f w => ⟨w.now, rfl⟩).bind fun now =>
      verdict (x := .settle key now) (by simp)
  | cancellationRevoked key reason =>
    exact (acts_lock key).bind fun _ => verdict (x := .revoke key reason) (by simp)

end Code

/-! ## Every run -/

theorem verified : Verified writers Undisturbed Rely Moves World.Inv
    (fun t w => w.db.draft t = []) fun _ _ _ => True where
  guarantee_rely ne _ moves := moves.rely ne
  guarantee_inv inv moves := moves.inv inv
  idle_stable _ _ _ none := fun rely => rely.draft.trans none
  start := by
    intro t k w w' inv none accepted
    obtain rfl := Option.some.inj accepted
    exact ⟨.refl w, (acts_code k w ⟨inv, none⟩).mono fun _ _ _ => trivial⟩
  finish := by
    intro t r w w' _ _ settled
    obtain rfl := Option.some.inj settled
    exact ⟨.rollback, Transactions.draft_rollback⟩
  crash := by
    intro t w w' _ crashed
    obtain rfl := Option.some.inj crashed
    exact ⟨.rollback, Transactions.draft_rollback⟩
  disturb := by
    intro e w w' inv permitted happened
    have relied := (disturbed permitted happened).1
    exact ⟨(relied 0).inv inv, relied⟩

/-- Once the status is `canceled`, it stays. -/
theorem canceled_absorbing {w : World} {c d : Config writers} (drafts : ∀ t, w.db.draft t = [])
    (live : ∀ t, w.live t = none) (before : RunWhere Undisturbed (Config.idle w) c)
    (onward : RunWhere Undisturbed c d) {key : SubscriptionKey}
    (canceled : c.world.status key = some .canceled) : d.world.status key = some .canceled := by
  have start : w.Inv := fun t => .idle (drafts t) (live t)
  induction onward with
  | refl => exact canceled
  | @step c' d m run permitted taken ih =>
    have sound := verified.sound start drafts (before.trans run)
    rcases (verified.step_sound sound permitted taken).2 with ⟨t, moves⟩ | ⟨e, rfl, happened⟩
    · exact moves.canceled sound.inv key ih
    · exact (disturbed permitted happened).2 key ih

/-- A row past its dunning window, which no sweep has seen. -/
def lapsedWorld : World where
  now := 1
  db := ⟨⟨[], [], [⟨"w", .paddle, "sub", .pro, .pastDue, "pri", .annual, none, false, none, some 0,
    none, false, none⟩], []⟩, fun _ => [], fun _ => none⟩
  live _ := none

/-- The provider reports that the payment went through. -/
def recovered : Task :=
  .subscription .paddle "w" ⟨.pro, .annual, false⟩
    ⟨"sub", none, "pri", .active, some 20, false, none, some "w", none, none⟩ none none

/-- Statements that go well, with nothing in the other tables. -/
def statements (n : ℕ) : List (Move writers) :=
  List.replicate n (.reply (0 : ℕ) (.go ⟨false, none, false⟩))

/-- A recovery that comes after the flip is refused. -/
theorem canceled_absorbing_flipped : ∃ c d : Config writers,
    (Config.idle (M := writers) lapsedWorld).step (.disturb .flip) = some c ∧
    c.run (.start (0 : ℕ) recovered :: statements 4 ++ [.finish (0 : ℕ)]) = some d ∧
    d.world.status (.paddle, "sub") = some .canceled := by
  let start : Config writers := .idle lapsedWorld
  have run : (start.step (.disturb .flip)).any (fun c =>
      decide (c.world.status (.paddle, "sub") = some .canceled) &&
        (c.run (.start (0 : ℕ) recovered :: statements 4 ++ [.finish (0 : ℕ)])).isSome) = true := by
    decide
  obtain ⟨c, flipped, seen⟩ := (Option.any_eq_true _ _).mp run
  obtain ⟨canceled, later⟩ := (Bool.and_eq_true _ _).mp seen
  obtain ⟨d, later⟩ := Option.isSome_iff_exists.mp later
  have spared : Undisturbed lapsedWorld (.disturb Event.flip) := by
    intro _ _ _ _ read
    cases read
  have before : RunWhere Undisturbed start c := .step .refl spared flipped
  have onward : RunWhere Undisturbed c d := runWhere_of_run later (by simp [statements, Undisturbed])
  exact ⟨c, d, flipped, later, canceled_absorbing (fun _ => rfl) (fun _ => rfl) before onward
    (of_decide_eq_true canceled)⟩

/-- The flip lands between the reading and the writing of the row. -/
theorem canceled_revived : ∃ c d : Config writers,
    (Config.idle (M := writers) lapsedWorld).run (.start (0 : ℕ) recovered :: statements 3 ++ [.disturb .flip]) =
      some c ∧
    c.run (statements 4 ++ [.finish (0 : ℕ)]) = some d ∧
    c.world.status (.paddle, "sub") = some .canceled ∧
    d.world.status (.paddle, "sub") = some .active := by
  let start : Config writers := .idle lapsedWorld
  have run : (start.run (.start (0 : ℕ) recovered :: statements 3 ++ [.disturb .flip])).any (fun c =>
      (c.run (statements 4 ++ [.finish (0 : ℕ)])).any fun d => decide
        (c.world.status (.paddle, "sub") = some .canceled ∧
          d.world.status (.paddle, "sub") = some .active)) = true := by decide
  obtain ⟨c, flipped, later⟩ := (Option.any_eq_true _ _).mp run
  obtain ⟨d, later, seen⟩ := (Option.any_eq_true _ _).mp later
  exact ⟨c, d, flipped, later, of_decide_eq_true seen⟩

end Writers

end DeclutrMail.Billing
