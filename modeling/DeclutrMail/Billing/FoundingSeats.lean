import DeclutrMail.Billing.Events
import DeclutrMail.Interleaving.Transactions
import DeclutrMail.Interleaving.Triple

/-!
# Founding seats under concurrency

The transactions that take, keep and preserve Founding seats, statement by statement. A seat is
never lost, whatever rows are rewritten or deleted (`Store.Grows`), and the count and the claim
of a new seat are under one lock, so the cap holds (`Moves.bounded`).
-/

namespace DeclutrMail.Billing.Seats

open Interleaving Batches

/-- The ledger, the rows, and the identities whose claim was granted and committed. -/
structure Store where
  ledger : FoundingLedger
  db : Db
  seated : List SubscriptionKey

inductive Write where
  | redeem (key : SubscriptionKey)
  | upsert (row : Subscription)
  | deleteWorkspace (workspaceId : WorkspaceId)
  | seat (key : SubscriptionKey)
  deriving DecidableEq

def Store.apply (s : Store) : Write → Store
  | .redeem key => { s with ledger := recordFoundingRedemption s.ledger key }
  | .upsert row => { s with db := s.db.upsert row }
  | .deleteWorkspace v =>
    { s with db := { s.db with
        subscriptions := s.db.subscriptions.filter fun row => decide (row.workspaceId ≠ v) } }
  | .seat key => { s with seated := s.seated ++ [key] }

def Store.count (s : Store) : ℕ := foundingRedemptionCount s.ledger s.db.subscriptions

inductive Request where
  | lock
  | selectRedemption (key : SubscriptionKey)
  | selectFounding (key : SubscriptionKey)
  | countRedemptions
  | insertRedemption (key : SubscriptionKey)
  | note (key : SubscriptionKey) (granted : Bool)
  | selectFoundingRows (workspaceId : WorkspaceId)
  | upsert (row : Subscription)
  | deleteRows (workspaceId : WorkspaceId)
  | commit
  deriving DecidableEq

abbrev Request.Answer : Request → Type
  | .selectRedemption _ | .selectFounding _ => Bool
  | .countRedemptions => ℕ
  | .selectFoundingRows _ => List SubscriptionKey
  | _ => Unit

abbrev SeatSignature : Signature := ⟨Request, Request.Answer, BillingError⟩

abbrev SeatProgram (α : Type) := Program SeatSignature α

def ask (q : Request) : SeatProgram q.Answer := Program.perform (S := SeatSignature) q

/-! ## The transactions -/

def claimFoundingRedemption (maximum : ℕ) (key : SubscriptionKey) (canAllocate : Bool) :
    SeatProgram Bool := do
  ask .lock
  let durable ← ask (.selectRedemption key)
  let legacy ← ask (.selectFounding key)
  if durable || legacy then
    ask (.insertRedemption key)
    return true
  if !canAllocate then return false
  let count ← ask .countRedemptions
  if maximum ≤ count then return false
  ask (.insertRedemption key)
  return true

/-- A claim, and what it answers. -/
def claim (maximum : ℕ) (key : SubscriptionKey) (canAllocate : Bool) : SeatProgram Bool := do
  let granted ← claimFoundingRedemption maximum key canAllocate
  ask (.note key granted)
  return granted

/-- A claim, if the price has seats. -/
def allocate (maximum : ℕ) (key : SubscriptionKey) (founding canAllocate : Bool) :
    SeatProgram Bool := if founding then claim maximum key canAllocate else return false

/-- The row with the flag that the allocation answers. -/
def writeRow (maximum : ℕ) (row : Subscription) (founding canAllocate : Bool) :
    SeatProgram Unit := do
  let foundingMember ← allocate maximum row.key founding canAllocate
  ask (.upsert { row with foundingMember })
  ask .commit

/-- The Founding part of `applySubscription`, with the row that it writes. -/
def applySubscription (maximum : ℕ) (row : Subscription) (founding canAllocate : Bool) :
    SeatProgram Unit := do
  let current ← ask (.selectFounding row.key)
  Program.when current (ask (.insertRedemption row.key))
  writeRow maximum row founding canAllocate

def insertRedemptions : List SubscriptionKey → SeatProgram Unit
  | [] => return ()
  | key :: keys => do
    ask (.insertRedemption key)
    insertRedemptions keys

def preserveWorkspaceFoundingRedemptions (workspaceId : WorkspaceId) : SeatProgram Unit := do
  let keys ← ask (.selectFoundingRows workspaceId)
  insertRedemptions keys

/-- `withVerifiedStopped` around the deletion of a workspace. -/
def deleteWorkspace (workspaceId : WorkspaceId) : SeatProgram Unit := do
  preserveWorkspaceFoundingRedemptions workspaceId
  ask .commit
  ask (.deleteRows workspaceId)
  ask .commit

inductive Task where
  | claim (key : SubscriptionKey) (canAllocate : Bool)
  | applySubscription (row : Subscription) (founding canAllocate : Bool)
  | deleteWorkspace (workspaceId : WorkspaceId)

def Task.code (maximum : ℕ) : Task → SeatProgram Unit
  | .claim key canAllocate => do
    let _ ← Seats.claim maximum key canAllocate
    ask .commit
  | .applySubscription row founding canAllocate =>
    Seats.applySubscription maximum row founding canAllocate
  | .deleteWorkspace v => Seats.deleteWorkspace v

/-! ## The system -/

/-- `answers` remembers what the claims answered, in order, committed or not. -/
structure World where
  db : Transactions ℕ Store Write Unit
  answers : List (SubscriptionKey × Bool)

namespace World

def view (w : World) (t : ℕ) : Store := w.db.view Store.apply t

def write (w : World) (t : ℕ) (x : Write) : World := { w with db := w.db.write t x }

def rollback (w : World) (t : ℕ) : World := { w with db := w.db.rollback t }

def commit (w : World) (t : ℕ) : World := { w with db := w.db.commit Store.apply t }

/-- A granted claim counts once it is committed. -/
def note (w : World) (t : ℕ) (key : SubscriptionKey) (granted : Bool) : World :=
  { db := if granted then w.db.write t (.seat key) else w.db
    answers := w.answers ++ [(key, granted)] }

end World

/-- A statement of the transaction of thread `t`, as it takes effect. -/
def effect (t : ℕ) (w : World) : (q : Request) → Option (q.Answer × World)
  | .lock => (w.db.acquire t ()).map fun db => ((), { w with db })
  | .selectRedemption key => some (decide (key ∈ (w.view t).ledger), w)
  | .selectFounding key => some (((w.view t).db.subscription key).any (·.foundingMember), w)
  | .countRedemptions => some ((w.view t).count, w)
  | .insertRedemption key => some ((), w.write t (.redeem key))
  | .note key granted => some ((), w.note t key granted)
  | .selectFoundingRows v =>
    some (foundingKeys ((w.view t).db.subscriptions.filter (·.workspaceId = v)), w)
  | .upsert row => some ((), w.write t (.upsert row))
  | .deleteRows v => some ((), w.write t (.deleteWorkspace v))
  | .commit => some ((), w.commit t)

/-- A statement goes well, fails, or has its effect while the answer is lost. -/
inductive Fate where
  | go | lost | fail
  deriving DecidableEq

def answer (t : ℕ) (q : Request) (fate : Fate) (w : World) :
    Option (Except BillingError q.Answer × World) :=
  match fate with
  | .go => (effect t w q).map fun r => (.ok r.1, r.2)
  | .lost => (effect t w q).map fun r => (.error .database, r.2)
  | .fail => some (.error .database, w)

/-- Transactions on any number of threads. One that does not come to its end is rolled back. -/
def seats (maximum : ℕ) : System SeatSignature where
  World := World
  Thread := ℕ
  Task := Task
  Outcome := Unit
  Choice := Fate
  Event := Empty
  code := Task.code maximum
  accept _ _ w := some w
  answer := answer
  settle t _ w := some (w.rollback t)
  crash t w := some (w.rollback t)
  disturb e _ := e.elim

/-! ## What a write does to the seats -/

namespace Store

/-- The identity counts. -/
def Seat (s : Store) (key : SubscriptionKey) : Prop :=
  key ∈ foundingIdentities s.ledger s.db.subscriptions

/-- Rows are unique, and what was granted is in the ledger. -/
structure Valid (s : Store) : Prop where
  unique : (s.db.subscriptions.map (·.key)).Nodup
  seated : ∀ key ∈ s.seated, key ∈ s.ledger

/-- A row of the identity that is marked founding is in the ledger. -/
def Kept (s : Store) (key : SubscriptionKey) : Prop :=
  ∀ row ∈ s.db.subscriptions, row.key = key → row.foundingMember = true → key ∈ s.ledger

/-- The rows of the workspace that are marked founding are in the ledger. -/
def Preserved (s : Store) (v : WorkspaceId) : Prop :=
  ∀ row ∈ s.db.subscriptions, row.workspaceId = v → row.foundingMember = true → row.key ∈ s.ledger

/-- No seat is lost, and no row is marked without an entry in the ledger. -/
structure Grows (s s' : Store) : Prop where
  ledger : ∀ key ∈ s.ledger, key ∈ s'.ledger
  seats : ∀ key, s.Seat key → s'.Seat key
  marks : ∀ row ∈ s'.db.subscriptions, row.foundingMember = true →
    row.key ∈ s'.ledger ∨ row ∈ s.db.subscriptions
  seated : ∀ key ∈ s.seated, key ∈ s'.seated

/-- The write loses no seat. -/
def Allowed (s : Store) : Write → Prop
  | .redeem _ => True
  | .upsert row => s.Kept row.key ∧ (row.foundingMember = true → row.key ∈ s.ledger)
  | .deleteWorkspace v => s.Preserved v
  | .seat key => key ∈ s.ledger

def AllowedAll : Store → List Write → Prop
  | _, [] => True
  | s, x :: xs => s.Allowed x ∧ (s.apply x).AllowedAll xs

variable {s s' s'' : Store} {key : SubscriptionKey} {v : WorkspaceId}

theorem seat_iff : s.Seat key ↔ key ∈ s.ledger ∨
    ∃ row ∈ s.db.subscriptions, row.foundingMember = true ∧ row.key = key := by
  simp [Seat, foundingIdentities, foundingKeys, and_assoc]

theorem Grows.refl (s : Store) : s.Grows s :=
  ⟨fun _ h => h, fun _ h => h, fun _ mem _ => .inr mem, fun _ h => h⟩

theorem Grows.trans (h : s.Grows s') (h' : s'.Grows s'') : s.Grows s'' where
  ledger key mem := h'.ledger key (h.ledger key mem)
  seats key seat := h'.seats key (h.seats key seat)
  marks row mem marked :=
    (h'.marks row mem marked).elim .inl fun mem => (h.marks row mem marked).imp_left (h'.ledger _)
  seated key mem := h'.seated key (h.seated key mem)

theorem Kept.grows (h : s.Kept key) (grows : s.Grows s') : s'.Kept key := by
  rintro row mem rfl marked
  exact (grows.marks row mem marked).elim id fun old => grows.ledger _ (h row old rfl marked)

theorem Preserved.grows (h : s.Preserved v) (grows : s.Grows s') : s'.Preserved v :=
  fun row mem own marked => (grows.marks row mem marked).elim id fun old =>
    grows.ledger _ (h row old own marked)

theorem count_le (h : ∀ key, s'.Seat key → s.Seat key) : s'.count ≤ s.count :=
  (List.subperm_of_subset (nodup_distinct _) h).length_le

theorem count_le_succ (h : ∀ k, s'.Seat k → s.Seat k ∨ k = key) : s'.count ≤ s.count + 1 := by
  have sub : foundingIdentities s'.ledger s'.db.subscriptions ⊆
      key :: foundingIdentities s.ledger s.db.subscriptions := fun k seat =>
    List.mem_cons.mpr (h k seat).symm
  exact (List.subperm_of_subset (nodup_distinct _) sub).length_le

theorem subscription_of_mem {db : Db} (unique : (db.subscriptions.map (·.key)).Nodup)
    {row : Subscription} (mem : row ∈ db.subscriptions) : db.subscription row.key = some row := by
  have there : (db.subscription row.key).isSome = true := by
    rw [Db.subscription, List.find?_isSome]
    exact ⟨row, mem, decide_eq_true rfl⟩
  obtain ⟨first, found⟩ := Option.isSome_iff_exists.mp there
  obtain ⟨mem', same⟩ := mem_subscription found
  rw [found, List.inj_on_of_nodup_map unique mem' mem same]

theorem mem_upsert {db : Db} {row x : Subscription} (h : x ∈ (db.upsert row).subscriptions) :
    x = row ∨ x ∈ db.subscriptions ∧ x.key ≠ row.key := by
  unfold Db.upsert at h
  split_ifs at h with found
  · obtain ⟨old, mem, same⟩ := List.mem_map.mp h
    split_ifs at same with hit
    · exact .inl same.symm
    · exact .inr (same ▸ ⟨mem, hit⟩)
  · rcases List.mem_append.mp h with old | new
    · refine .inr ⟨old, fun same => found ?_⟩
      rw [Db.subscription, List.find?_isSome]
      exact ⟨x, old, decide_eq_true same⟩
    · exact .inl (List.mem_singleton.mp new)

theorem mem_upsert_of_ne {db : Db} {row x : Subscription} (mem : x ∈ db.subscriptions)
    (other : x.key ≠ row.key) : x ∈ (db.upsert row).subscriptions := by
  unfold Db.upsert
  split_ifs
  · exact List.mem_map.mpr ⟨x, mem, if_neg other⟩
  · exact List.mem_append_left _ mem

theorem keys_upsert (db : Db) (row : Subscription) (unique : (db.subscriptions.map (·.key)).Nodup) :
    ((db.upsert row).subscriptions.map (·.key)).Nodup := by
  unfold Db.upsert
  split_ifs with found
  · have same : ((db.update row.key fun _ => row).subscriptions.map (·.key)) =
        db.subscriptions.map (·.key) := by
      rw [Db.update, List.map_map]
      refine List.map_congr_left fun x _ => ?_
      dsimp only [Function.comp_apply]
      split_ifs with hit
      · exact hit.symm
      · rfl
    rwa [same]
  · rw [List.map_append]
    refine unique.append (List.nodup_singleton _) ?_
    intro k mem there
    obtain rfl := List.mem_singleton.mp there
    obtain ⟨x, old, hit⟩ := List.mem_map.mp mem
    refine found ?_
    rw [Db.subscription, List.find?_isSome]
    exact ⟨x, old, decide_eq_true hit⟩

/-- An allowed write loses no seat, and only a redemption adds one. -/
theorem grows_apply {x : Write} (h : s.Allowed x) : s.Grows (s.apply x) ∧
    (∀ k, (s.apply x).Seat k → s.Seat k ∨ x = .redeem k) ∧ (s.Valid → (s.apply x).Valid) := by
  cases x with
  | redeem key =>
    refine ⟨⟨fun k mem => mem_put.mpr (.inl mem), fun k seat => ?_, fun _ mem _ => .inr mem,
      fun _ mem => mem⟩, fun k seat => ?_, fun valid => ⟨valid.unique, fun k mem =>
        mem_put.mpr (.inl (valid.seated k mem))⟩⟩
    · exact seat_iff.mpr ((seat_iff.mp seat).imp_left fun mem => mem_put.mpr (.inl mem))
    · rcases seat_iff.mp seat with mem | marked
      · rcases mem_put.mp mem with old | rfl
        · exact .inl (seat_iff.mpr (.inl old))
        · exact .inr rfl
      · exact .inl (seat_iff.mpr (.inr marked))
  | upsert row =>
    obtain ⟨kept, flagged⟩ := h
    refine ⟨⟨fun _ mem => mem, fun k seat => ?_, fun x mem marked => ?_, fun _ mem => mem⟩,
      fun k seat => .inl ?_, fun valid => ⟨keys_upsert s.db row valid.unique, valid.seated⟩⟩
    · rcases seat_iff.mp seat with mem | ⟨x, mem, marked, rfl⟩
      · exact seat_iff.mpr (.inl mem)
      · by_cases same : x.key = row.key
        · exact seat_iff.mpr (.inl (same ▸ kept x mem same marked))
        · exact seat_iff.mpr (.inr ⟨x, mem_upsert_of_ne mem same, marked, rfl⟩)
    · rcases mem_upsert mem with rfl | ⟨old, -⟩
      · exact .inl (flagged marked)
      · exact .inr old
    · rcases seat_iff.mp seat with mem | ⟨x, mem, marked, rfl⟩
      · exact seat_iff.mpr (.inl mem)
      · rcases mem_upsert mem with rfl | ⟨old, -⟩
        · exact seat_iff.mpr (.inl (flagged marked))
        · exact seat_iff.mpr (.inr ⟨x, old, marked, rfl⟩)
  | deleteWorkspace v =>
    have remains : ∀ row, row ∈ (s.apply (.deleteWorkspace v)).db.subscriptions ↔
        row ∈ s.db.subscriptions ∧ row.workspaceId ≠ v := fun row => by simp [Store.apply]
    refine ⟨⟨fun _ mem => mem, fun k seat => ?_, fun x mem _ => .inr ((remains x).mp mem).1,
      fun _ mem => mem⟩, fun k seat => .inl ?_,
      fun valid => ⟨valid.unique.sublist (List.filter_sublist.map _), valid.seated⟩⟩
    · rcases seat_iff.mp seat with mem | ⟨x, mem, marked, rfl⟩
      · exact seat_iff.mpr (.inl mem)
      · by_cases own : x.workspaceId = v
        · exact seat_iff.mpr (.inl (h x mem own marked))
        · exact seat_iff.mpr (.inr ⟨x, (remains x).mpr ⟨mem, own⟩, marked, rfl⟩)
    · exact seat_iff.mpr ((seat_iff.mp seat).imp_right fun ⟨x, mem, marked⟩ =>
        ⟨x, ((remains x).mp mem).1, marked⟩)
  | seat key =>
    refine ⟨⟨fun _ mem => mem, fun _ seat => seat, fun _ mem _ => .inr mem,
      fun _ mem => List.mem_append_left _ mem⟩, fun _ seat => .inl seat,
      fun valid => ⟨valid.unique, fun k mem => ?_⟩⟩
    rcases List.mem_append.mp mem with old | new
    · exact valid.seated k old
    · obtain rfl := List.mem_singleton.mp new
      exact h

theorem grows_foldl {l : List Write} (h : s.AllowedAll l) : s.Grows (l.foldl apply s) ∧
    (∀ k, (l.foldl apply s).Seat k → s.Seat k ∨ .redeem k ∈ l) ∧
      (s.Valid → (l.foldl apply s).Valid) := by
  induction l generalizing s with
  | nil => exact ⟨.refl s, fun _ => .inl, id⟩
  | cons x l ih =>
    obtain ⟨grows, added, valid⟩ := grows_apply h.1
    obtain ⟨grows', added', valid'⟩ := ih h.2
    refine ⟨grows.trans grows', fun k seat => ?_, valid' ∘ valid⟩
    rcases added' k seat with seat | mem
    · exact (added k seat).imp_right fun hit => List.mem_cons.mpr (.inl hit.symm)
    · exact .inr (List.mem_cons_of_mem _ mem)

theorem seated_foldl {l : List Write} (h : ∀ k, .seat k ∉ l) :
    (l.foldl apply s).seated = s.seated := by
  induction l generalizing s with
  | nil => rfl
  | cons x l ih =>
    rw [List.foldl_cons, ih fun k mem => h k (List.mem_cons_of_mem _ mem)]
    cases x with
    | seat k => exact absurd List.mem_cons_self (h k)
    | redeem | upsert | deleteWorkspace => rfl

/-- Redemptions touch the ledger only. -/
theorem redeem_foldl (keys : List SubscriptionKey) (s : Store) :
    ((keys.map Write.redeem).foldl apply s).db = s.db ∧
      ∀ k, k ∈ ((keys.map Write.redeem).foldl apply s).ledger ↔ k ∈ s.ledger ∨ k ∈ keys := by
  induction keys generalizing s with
  | nil => simp
  | cons key keys ih =>
    obtain ⟨db, ledger⟩ := ih (s.apply (.redeem key))
    refine ⟨db, fun k => ?_⟩
    rw [List.map_cons, List.foldl_cons, ledger, List.mem_cons, ← or_assoc]
    exact or_congr_left mem_put

theorem allowedAll_redeem (keys : List SubscriptionKey) (s : Store) :
    s.AllowedAll (keys.map .redeem) := by
  induction keys generalizing s with
  | nil => trivial
  | cons key keys ih => exact ⟨trivial, ih _⟩

theorem kept_of_mem (mem : key ∈ s.ledger) : s.Kept key := fun _ _ _ _ => mem

end Store

/-! ## What a statement does to the world -/

section Moves

variable {maximum t : ℕ} {w w' : World} {key : SubscriptionKey}

/-- What a move of thread `t` may do. The cap is kept by the holder of the lock, and by all who
take no new seat. -/
structure Moves (maximum t : ℕ) (w w' : World) : Prop where
  frames : w.db.Frames t w'.db
  grows : w.db.store.Grows w'.db.store
  valid : w.db.store.Valid → w'.db.store.Valid
  bounded : (∀ key, w'.db.store.Seat key → w.db.store.Seat key) ∨
    w.db.holder () = some t ∧ w'.db.store.count ≤ maximum
  seated : w'.db.store.seated = w.db.store.seated ∨ w.db.holder () = some t
  answers : ∃ new, w'.answers = w.answers ++ new ∧
    ∀ key, (key, false) ∈ new → key ∉ w.db.store.seated

/-- A move that commits nothing. -/
theorem Moves.drafts (frames : w.db.Frames t w'.db) (store : w'.db.store = w.db.store)
    (answers : w'.answers = w.answers) : Moves maximum t w w' := by
  refine ⟨frames, ?_, ?_, .inl ?_, .inl ?_, [], by simp [answers], fun _ mem => by cases mem⟩ <;>
    rw [store]
  · exact .refl _
  · exact id
  · exact fun _ => id

theorem Moves.refl (w : World) : Moves maximum t w w := .drafts .refl rfl rfl

theorem Moves.commit (allowed : w.db.store.AllowedAll (w.db.draft t))
    (bounded : (∀ k, .redeem k ∈ w.db.draft t → w.db.store.Seat k) ∨
      w.db.holder () = some t ∧ w.db.store.count < maximum ∧
        ∀ k, .redeem k ∈ w.db.draft t → k = key)
    (seated : (∀ k, .seat k ∉ w.db.draft t) ∨ w.db.holder () = some t) :
    Moves maximum t w (w.commit t) := by
  obtain ⟨grows, added, valid⟩ := Store.grows_foldl allowed
  refine ⟨.commit, grows, valid, ?_, seated.imp_left Store.seated_foldl, [],
    by simp [World.commit], fun _ mem => by cases mem⟩
  rcases bounded with known | ⟨mine, room, only⟩
  · exact .inl fun k seat => (added k seat).elim id (known k)
  · have grown := Store.count_le_succ fun k seat => (added k seat).imp_right (only k)
    exact .inr ⟨mine, by exact grown.trans room⟩

/-- What the other threads do to what thread `t` knows. -/
abbrev Rely (maximum t : ℕ) (w w' : World) : Prop := ∃ x, x ≠ t ∧ Moves maximum x w w'

/-- Under the lock nothing of the others counts. -/
theorem Rely.of_holder (h : Rely maximum t w w') (mine : w.db.holder () = some t) :
    w'.db.holder () = some t ∧ w'.db.store.count ≤ w.db.store.count ∧
      w'.db.store.seated = w.db.store.seated := by
  obtain ⟨x, other, moves⟩ := h
  have free : w.db.holder () ≠ some x := by
    rw [mine]
    exact fun same => other (Option.some.inj same).symm
  refine ⟨(moves.frames.holder t other.symm ()).mpr mine, ?_, ?_⟩
  · exact Store.count_le (moves.bounded.resolve_right fun held => free held.1)
  · exact moves.seated.resolve_right free

end Moves

/-! ## What a transaction knows -/

section Knows

variable (maximum t : ℕ)

abbrev Knows := Assertion (Rely maximum t)

/-- The writes of the transaction so far. -/
def drafted (l : List Write) : Knows maximum t where
  holds w := w.db.store.Valid ∧ w.db.draft t = l
  stable := fun _ _ ⟨valid, mine⟩ ⟨_, other, moves⟩ =>
    ⟨moves.valid valid, (moves.frames.draft t other.symm).trans mine⟩

def seat (key : SubscriptionKey) : Knows maximum t where
  holds w := w.db.store.Seat key
  stable := fun _ _ seat ⟨_, _, moves⟩ => moves.grows.seats key seat

def kept (key : SubscriptionKey) : Knows maximum t where
  holds w := w.db.store.Kept key
  stable := fun _ _ kept ⟨_, _, moves⟩ => kept.grows moves.grows

def preserved (v : WorkspaceId) : Knows maximum t where
  holds w := w.db.store.Preserved v
  stable := fun _ _ preserved ⟨_, _, moves⟩ => preserved.grows moves.grows

/-- The lock is held. -/
def held : Knows maximum t where
  holds w := w.db.holder () = some t
  stable := fun _ _ mine rely => (rely.of_holder mine).1

/-- The lock is held, and there is room for one more seat. -/
def room : Knows maximum t where
  holds w := w.db.holder () = some t ∧ w.db.store.count < maximum
  stable := fun _ _ ⟨mine, room⟩ rely =>
    ⟨(rely.of_holder mine).1, (rely.of_holder mine).2.1.trans_lt room⟩

/-- The lock is held, and the identity has no claim that was granted. -/
def unseated (key : SubscriptionKey) : Knows maximum t where
  holds w := w.db.holder () = some t ∧ key ∉ w.db.store.seated
  stable := fun _ _ ⟨mine, fresh⟩ rely =>
    ⟨(rely.of_holder mine).1, by rwa [(rely.of_holder mine).2.2]⟩

end Knows

/-! ## The transactions keep to it -/

section Code

variable {maximum t : ℕ} {α β : Type} {A A' : Knows maximum t} {key : SubscriptionKey}

/-- `p` makes only moves that are allowed, and ends in `B` if it returns. -/
def Acts (A : Knows maximum t) (p : SeatProgram α) (B : α → Knows maximum t) : Prop :=
  @Triple SeatSignature (seats maximum) (Rely maximum) t α (Moves maximum) A p B fun _ => .fact True

namespace Acts

variable {B B' : α → Knows maximum t} {C : β → Knows maximum t}

theorem bind {p : SeatProgram α} {f : α → SeatProgram β} (first : Acts A p B)
    (rest : ∀ a, Acts (B a) (f a) C) : Acts A (p >>= f) C := Triple.bind first rest

theorem done {a : α} (le : ∀ w, A w → B a w) : Acts A (.ret a) B := Triple.done le

theorem pre {p : SeatProgram α} (h : Acts A' p B) (le : ∀ w, A w → A' w) : Acts A p B :=
  Triple.pre h le

theorem post {p : SeatProgram α} (h : Acts A p B') (le : ∀ a w, B' a w → B a w) : Acts A p B :=
  Triple.consequence h (fun _ h => h) le fun _ _ h => h

theorem of_ex {ι : Type} {A : ι → Knows maximum t} {p : SeatProgram α}
    (h : ∀ i, Acts (A i) p B) : Acts (.ex A) p B := Triple.of_ex h

theorem frame {p : SeatProgram α} {F : Knows maximum t} (h : Acts A p B)
    (kept : ∀ {w w'}, Moves maximum t w w' → F w → F w') :
    Acts (A.and F) p fun a => (B a).and F :=
  Triple.consequence (Triple.frame h kept) (fun _ h => h) (fun _ _ h => h) fun _ _ _ => trivial

/-- One statement. -/
theorem ask {q : Request} {B : q.Answer → Knows maximum t}
    (h : ∀ w, A w → ∀ a w', effect t w q = some (a, w') → Moves maximum t w w' ∧ B a w') :
    Acts A (Seats.ask q) B := by
  refine Triple.perform fun w hw fate r w' answered => ?_
  change answer t q fate w = some (r, w') at answered
  cases fate with
  | fail =>
    obtain ⟨rfl, rfl⟩ := Prod.mk.inj (Option.some.inj answered)
    exact ⟨.refl w, trivial⟩
  | go =>
    obtain ⟨⟨a, v⟩, did, same⟩ := Option.map_eq_some_iff.mp answered
    obtain ⟨rfl, rfl⟩ := Prod.mk.inj same
    exact h w hw a v did
  | lost =>
    obtain ⟨⟨a, v⟩, did, same⟩ := Option.map_eq_some_iff.mp answered
    obtain ⟨rfl, rfl⟩ := Prod.mk.inj same
    exact ⟨(h w hw a v did).1, trivial⟩

/-- A statement that only reads. -/
theorem reads {q : Request} {out : World → q.Answer} {B : q.Answer → Knows maximum t}
    (ran : ∀ w, effect t w q = some (out w, w)) (h : ∀ w, A w → B (out w) w) :
    Acts A (Seats.ask q) B := by
  refine ask fun w hw a w' did => ?_
  obtain ⟨rfl, rfl⟩ := Prod.mk.inj (Option.some.inj ((ran w).symm.trans did))
  exact ⟨.refl w, h w hw⟩

end Acts

/-- A write is one draft more. -/
theorem acts_write {l : List Write} {q : Request} {x : Write}
    (ran : ∀ w, ∃ a, effect t w q = some (a, w.write t x)) (keeps : ∀ w, A w → A (w.write t x)) :
    Acts ((drafted maximum t l).and A) (ask q) fun _ => (drafted maximum t (l ++ [x])).and A := by
  refine .ask fun w ⟨⟨valid, mine⟩, hw⟩ a w' did => ?_
  obtain ⟨b, ran⟩ := ran w
  obtain ⟨rfl, rfl⟩ := Prod.mk.inj (Option.some.inj (ran.symm.trans did))
  exact ⟨.drafts (.write x) rfl rfl, ⟨valid, by simp [World.write, mine]⟩, keeps w hw⟩

/-- What the transaction of an identity has written before a claim. -/
def begun (maximum t : ℕ) (key : SubscriptionKey) (l : List Write) : Knows maximum t :=
  (drafted maximum t l).and ((Assertion.fact (l = [])).or
    ((Assertion.fact (l = [.redeem key])).and (seat maximum t key)))

/-- Under the lock, the identity has a seat or may take one. -/
def entitled (maximum t : ℕ) (key : SubscriptionKey) : Knows maximum t :=
  ((held maximum t).and (seat maximum t key)).or (room maximum t)

theorem eq_redeem {l : List Write} {w : World} (h : (begun maximum t key l) w) :
    ∃ keys : List SubscriptionKey, l = keys.map .redeem := by
  obtain ⟨-, rfl | ⟨rfl, -⟩⟩ := h
  · exact ⟨[], rfl⟩
  · exact ⟨[key], rfl⟩

/-- Before a claim, the transaction sees the rows that are committed. -/
theorem db_view {l : List Write} {w : World} (h : (begun maximum t key l) w) :
    (w.view t).db = w.db.store.db := by
  obtain ⟨keys, rfl⟩ := eq_redeem h
  rw [World.view, Transactions.view, h.1.2]
  exact (Store.redeem_foldl keys _).1

/-- It sees every seat that is committed. -/
theorem grows_view {l : List Write} {w : World} (h : (begun maximum t key l) w) :
    w.db.store.Grows (w.view t) := by
  obtain ⟨keys, rfl⟩ := eq_redeem h
  rw [World.view, Transactions.view, h.1.2]
  exact (Store.grows_foldl (Store.allowedAll_redeem keys _)).1

/-- What a claim has found so far: the seat is there, or it was never granted. -/
def found (maximum t : ℕ) (key : SubscriptionKey) (l : List Write) (there : Bool) :
    Knows maximum t :=
  if there then (drafted maximum t l).and (entitled maximum t key)
  else (begun maximum t key l).and (unseated maximum t key)

theorem acts_lock {l : List Write} : Acts (begun maximum t key l) (ask .lock) fun _ =>
    (begun maximum t key l).and (held maximum t) := by
  refine .ask fun w ⟨⟨valid, mine⟩, seat⟩ a w' did => ?_
  obtain ⟨db, taken, same⟩ := Option.map_eq_some_iff.mp did
  obtain ⟨-, rfl⟩ := Prod.mk.inj same
  obtain ⟨store, draft, holds, frames⟩ := Transactions.acquire_eq_some taken
  refine ⟨.drafts frames store rfl, ⟨⟨?_, ?_⟩, ?_⟩, holds⟩
  · rwa [store]
  · rwa [draft]
  · simpa only [Assertion.or_holds, Assertion.and_holds, Assertion.fact_holds, Seats.seat, store]
      using seat

theorem acts_selectRedemption {l : List Write} :
    Acts ((begun maximum t key l).and (held maximum t)) (ask (.selectRedemption key))
      (found maximum t key l) := by
  refine .reads (fun _ => rfl) fun w ⟨hw, mine⟩ => ?_
  unfold found
  by_cases durable : key ∈ (w.view t).ledger
  · rw [if_pos (decide_eq_true durable)]
    refine ⟨hw.1, .inl ⟨mine, ?_⟩⟩
    rcases hw.2 with rfl | ⟨-, seat⟩
    · rw [World.view, Transactions.view, hw.1.2] at durable
      exact Store.seat_iff.mpr (.inl durable)
    · exact seat
  · rw [if_neg (by simpa using durable)]
    exact ⟨hw, mine, fun granted => durable ((grows_view hw).ledger key (hw.1.1.seated key granted))⟩

theorem acts_selectFounding {l : List Write} {durable : Bool} :
    Acts (found maximum t key l durable) (ask (.selectFounding key)) fun legacy =>
      found maximum t key l (durable || legacy) := by
  refine .reads (fun _ => rfl) fun w hw => ?_
  cases durable with
  | true => exact hw
  | false =>
    obtain ⟨begun, mine, fresh⟩ := hw
    rw [Bool.false_or, db_view begun]
    cases legacy : (w.db.store.db.subscription key).any (·.foundingMember) with
    | false => exact ⟨begun, mine, fresh⟩
    | true =>
      obtain ⟨row, there, marked⟩ := (Option.any_eq_true _ _).mp legacy
      obtain ⟨mem, same⟩ := mem_subscription there
      exact ⟨begun.1, .inl ⟨mine, Store.seat_iff.mpr (.inr ⟨row, mem, marked, same⟩)⟩⟩

theorem acts_countRedemptions {l : List Write} :
    Acts (found maximum t key l false) (ask .countRedemptions) fun count =>
      found maximum t key l (!decide (maximum ≤ count)) := by
  refine .reads (fun _ => rfl) fun w ⟨begun, mine, fresh⟩ => ?_
  by_cases full : maximum ≤ (w.view t).count
  · simp only [full, decide_true, Bool.not_true]
    exact ⟨begun, mine, fresh⟩
  · simp only [full, decide_false, Bool.not_false]
    have counted := Store.count_le (grows_view begun).seats
    exact ⟨begun.1, .inr ⟨mine, by omega⟩⟩

theorem acts_redeem {l : List Write} :
    Acts (found maximum t key l true) (ask (.insertRedemption key)) fun _ =>
      (drafted maximum t (l ++ [.redeem key])).and (entitled maximum t key) :=
  acts_write (A := entitled maximum t key) (fun _ => ⟨(), rfl⟩) fun _ h => h

/-- A claim is granted to who is entitled, and refused to who was never granted one. -/
theorem acts_claimFoundingRedemption (l : List Write) (canAllocate : Bool) :
    Acts (begun maximum t key l) (claimFoundingRedemption maximum key canAllocate) fun granted =>
      if granted then (drafted maximum t (l ++ [.redeem key])).and (entitled maximum t key)
      else found maximum t key l false := by
  have granted : Acts (found maximum t key l true)
      (do ask (.insertRedemption key); return true) fun granted =>
        if granted then (drafted maximum t (l ++ [.redeem key])).and (entitled maximum t key)
        else found maximum t key l false := acts_redeem.bind fun _ => .done fun _ h => h
  refine acts_lock.bind fun _ => acts_selectRedemption.bind fun durable =>
    acts_selectFounding.bind fun legacy => ?_
  cases durable || legacy with
  | true => exact granted
  | false =>
    cases canAllocate with
    | false => exact .done fun _ h => h
    | true =>
      refine acts_countRedemptions.bind fun count => ?_
      by_cases full : maximum ≤ count
      · simp only [full, decide_true, Bool.not_true, if_true]
        exact .done fun _ h => h
      · simp only [full, decide_false, Bool.not_false, if_false]
        exact granted

/-- What the transaction of an identity has written after a claim. -/
theorem acts_claim (l : List Write) (canAllocate : Bool) :
    Acts (begun maximum t key l) (claim maximum key canAllocate) fun granted =>
      if granted then
        (drafted maximum t (l ++ [.redeem key, .seat key])).and (entitled maximum t key)
      else begun maximum t key l := by
  refine (acts_claimFoundingRedemption l canAllocate).bind fun granted => .bind ?_ fun _ =>
    .done (A := if granted then (drafted maximum t (l ++ [.redeem key, .seat key])).and
      (entitled maximum t key) else begun maximum t key l) fun _ h => h
  refine .ask fun w hw a w' did => ?_
  obtain ⟨-, rfl⟩ := Prod.mk.inj (Option.some.inj did)
  cases granted with
  | true =>
    obtain ⟨⟨valid, mine⟩, entitled⟩ := hw
    refine ⟨?_, ⟨valid, ?_⟩, entitled⟩
    · refine ⟨.write _, .refl _, id, .inl fun _ => id, .inl rfl, [(key, true)], rfl, ?_⟩
      simp
    · simp [World.note, mine]
  | false =>
    obtain ⟨begun, -, fresh⟩ := hw
    refine ⟨⟨.refl, .refl _, id, .inl fun _ => id, .inl rfl, [(key, false)], rfl, ?_⟩, begun⟩
    intro k mem
    obtain ⟨rfl, -⟩ := Prod.mk.inj (List.mem_singleton.mp mem)
    exact fresh

/-- The writes are committed. -/
theorem acts_commit {l : List Write} (key : SubscriptionKey) {B : Knows maximum t}
    (h : ∀ w, w.db.draft t = l → A w → w.db.store.AllowedAll l ∧
      ((∀ k, .redeem k ∈ l → w.db.store.Seat k) ∨ w.db.holder () = some t ∧
        w.db.store.count < maximum ∧ ∀ k, .redeem k ∈ l → k = key) ∧
      ((∀ k, .seat k ∉ l) ∨ w.db.holder () = some t) ∧
      (Moves maximum t w (w.commit t) → B (w.commit t))) :
    Acts ((drafted maximum t l).and A) (ask .commit) fun _ => (drafted maximum t []).and B := by
  refine .ask fun w ⟨⟨valid, mine⟩, hw⟩ a w' did => ?_
  obtain ⟨-, rfl⟩ := Prod.mk.inj (Option.some.inj did)
  obtain ⟨allowed, bounded, seated, after⟩ := h w mine hw
  subst mine
  have moves := Moves.commit allowed bounded seated
  exact ⟨moves, ⟨moves.valid valid, by simp [World.commit]⟩, after moves⟩

/-- What is written before the row. -/
def claimed (key : SubscriptionKey) (l : List Write) : Bool → List Write
  | true => l ++ [.redeem key, .seat key]
  | false => l

/-- A row that is written loses no seat: it was marked by a claim, or its seat is in the ledger. -/
theorem acts_writeRow {l : List Write} (row : Subscription) (founding canAllocate : Bool)
    (hl : l = [] ∨ l = [.redeem row.key]) :
    Acts ((begun maximum t row.key l).and
        ((Assertion.fact (l ≠ [])).or (kept maximum t row.key)))
      (writeRow maximum row founding canAllocate) fun _ =>
        (drafted maximum t []).and (.fact True) := by
  let cautious : Knows maximum t := (Assertion.fact (l ≠ [])).or (kept maximum t row.key)
  let backed : Bool → Knows maximum t := fun granted =>
    if granted then entitled maximum t row.key
    else (Assertion.fact (l = [])).or (seat maximum t row.key)
  have allocated : Acts (begun maximum t row.key l)
      (allocate maximum row.key founding canAllocate) fun granted =>
        (drafted maximum t (claimed row.key l granted)).and (backed granted) := by
    have refused : ∀ w, (begun maximum t row.key l) w →
        ((drafted maximum t l).and (backed false)) w :=
      fun w ⟨mine, known⟩ => ⟨mine, known.imp_right And.right⟩
    unfold allocate
    split
    · refine (acts_claim l canAllocate).post fun granted w hw => ?_
      cases granted with
      | true => exact hw
      | false => exact refused w hw
    · exact .done refused
  refine (allocated.frame (F := cautious) fun moves =>
    Or.imp_right fun kept => kept.grows moves.grows).bind fun granted => ?_
  refine .bind (.pre (acts_write (A := (backed granted).and cautious) (fun _ => ⟨(), rfl⟩)
    fun w hw => by cases granted <;> exact hw) fun w hw => ⟨hw.1.1, hw.1.2, hw.2⟩) fun _ => acts_commit row.key ?_
  intro w _ ⟨backing, cautious⟩
  have redeemed : ∀ ledger : FoundingLedger, row.key ∈ recordFoundingRedemption ledger row.key :=
    fun ledger => mem_put.mpr (.inr rfl)
  refine ⟨?_, ?_, ?_, fun _ => trivial⟩
  · rcases hl with rfl | rfl <;> cases granted
    · exact ⟨⟨cautious.resolve_left (fun h => h rfl), fun marked => by cases marked⟩, trivial⟩
    · exact ⟨trivial, redeemed _, ⟨Store.kept_of_mem (redeemed _), fun _ => redeemed _⟩, trivial⟩
    · exact ⟨trivial, ⟨Store.kept_of_mem (redeemed _), fun marked => by cases marked⟩, trivial⟩
    · exact ⟨trivial, trivial, redeemed _,
        ⟨Store.kept_of_mem (redeemed _), fun _ => redeemed _⟩, trivial⟩
  · have only : ∀ k, Write.redeem k ∈ claimed row.key l granted ++
        [.upsert { row with foundingMember := granted }] → k = row.key ∧ (l = [] → granted) := by
      rcases hl with rfl | rfl <;> cases granted <;> simp [claimed]
    cases granted with
    | true =>
      rcases backing with ⟨-, seat⟩ | ⟨mine, room⟩
      · exact .inl fun k mem => (only k mem).1 ▸ seat
      · exact .inr ⟨mine, room, fun k mem => (only k mem).1⟩
    | false =>
      refine .inl fun k mem => ?_
      obtain ⟨rfl, empty⟩ := only k mem
      exact backing.resolve_left fun none => by cases empty none
  · cases granted with
    | true =>
      rcases backing with ⟨mine, -⟩ | ⟨mine, -⟩
      · exact .inr mine
      · exact .inr mine
    | false =>
      left
      rcases hl with rfl | rfl <;> simp [claimed]

theorem acts_applySubscription (row : Subscription) (founding canAllocate : Bool) :
    Acts (drafted maximum t []) (applySubscription maximum row founding canAllocate) fun _ =>
      (drafted maximum t []).and (.fact True) := by
  let read : Bool → Knows maximum t := fun current =>
    (drafted maximum t []).and (if current then seat maximum t row.key else kept maximum t row.key)
  refine .bind (B := read) (.reads (fun _ => rfl) fun w ⟨valid, mine⟩ => ?_) fun current => ?_
  · have view : (w.view t).db = w.db.store.db := by rw [World.view, Transactions.view, mine]; rfl
    rw [view]
    cases current : (w.db.store.db.subscription row.key).any (·.foundingMember) with
    | true =>
      obtain ⟨old, there, marked⟩ := (Option.any_eq_true _ _).mp current
      obtain ⟨mem, same⟩ := mem_subscription there
      exact ⟨⟨valid, mine⟩, Store.seat_iff.mpr (.inr ⟨old, mem, marked, same⟩)⟩
    | false =>
      refine ⟨⟨valid, mine⟩, fun old mem same marked => ?_⟩
      rw [← same, Store.subscription_of_mem valid.unique mem, Option.any_some, marked] at current
      cases current
  · cases current with
    | true =>
      refine .bind (acts_write (A := seat maximum t row.key) (fun _ => ⟨(), rfl⟩) fun _ h => h)
        fun _ => .pre (acts_writeRow row founding canAllocate (.inr rfl)) ?_
      exact fun w ⟨mine, seat⟩ => ⟨⟨mine, .inr ⟨rfl, seat⟩⟩, .inl (by simp)⟩
    | false =>
      refine .pre (acts_writeRow row founding canAllocate (.inl rfl)) ?_
      exact fun w ⟨mine, kept⟩ => ⟨⟨mine, .inl rfl⟩, .inr kept⟩

/-- The seats are in the ledger or among the keys. -/
def covered (maximum t : ℕ) (v : WorkspaceId) (keys : List SubscriptionKey) : Knows maximum t where
  holds w := (∀ key ∈ keys, w.db.store.Seat key) ∧ ∀ row ∈ w.db.store.db.subscriptions,
    row.workspaceId = v → row.foundingMember = true → row.key ∈ w.db.store.ledger ∨ row.key ∈ keys
  stable := fun _ _ ⟨seats, rows⟩ ⟨_, _, moves⟩ =>
    ⟨fun key mem => moves.grows.seats key (seats key mem), fun row mem own marked =>
      (moves.grows.marks row mem marked).elim .inl fun old =>
        (rows row old own marked).imp_left (moves.grows.ledger _)⟩

theorem acts_insertRedemptions {l : List Write} (keys : List SubscriptionKey)
    (keeps : ∀ w key, A w → A (w.write t (.redeem key))) :
    Acts ((drafted maximum t l).and A) (insertRedemptions keys) fun _ =>
      (drafted maximum t (l ++ keys.map .redeem)).and A := by
  induction keys generalizing l with
  | nil =>
    rw [List.map_nil, List.append_nil]
    exact .done fun _ h => h
  | cons key keys ih =>
    refine (acts_write (fun _ => ⟨(), rfl⟩) fun w hw => keeps w key hw).bind fun _ => ?_
    have shape : l ++ (key :: keys).map Write.redeem = l ++ [.redeem key] ++ keys.map .redeem := by
      simp
    rw [shape]
    exact ih

theorem acts_preserve (v : WorkspaceId) :
    Acts (drafted maximum t []) (preserveWorkspaceFoundingRedemptions v) fun _ =>
      .ex fun keys : List SubscriptionKey =>
        (drafted maximum t (keys.map .redeem)).and (covered maximum t v keys) := by
  refine .bind (B := fun keys => (drafted maximum t []).and (covered maximum t v keys))
    (.reads (fun _ => rfl) fun w ⟨valid, mine⟩ => ?_) fun keys => ?_
  · have view : (w.view t).db = w.db.store.db := by rw [World.view, Transactions.view, mine]; rfl
    rw [view]
    have listed : ∀ key, key ∈ foundingKeys (w.db.store.db.subscriptions.filter
        (·.workspaceId = v)) ↔ ∃ row ∈ w.db.store.db.subscriptions,
          row.foundingMember = true ∧ row.workspaceId = v ∧ row.key = key := by
      simp [foundingKeys, and_assoc]
    refine ⟨⟨valid, mine⟩, fun key mem => ?_, fun row mem own marked => ?_⟩
    · obtain ⟨row, mem, marked, -, same⟩ := (listed key).mp mem
      exact Store.seat_iff.mpr (.inr ⟨row, mem, marked, same⟩)
    · exact .inr ((listed row.key).mpr ⟨row, mem, marked, own, rfl⟩)
  · exact (acts_insertRedemptions keys fun _ _ h => h).post fun _ w hw => ⟨keys, hw⟩

theorem acts_deleteWorkspace (v : WorkspaceId) :
    Acts (drafted maximum t []) (deleteWorkspace v) fun _ =>
      (drafted maximum t []).and (.fact True) := by
  refine (acts_preserve v).bind fun _ => .bind (B := fun _ => (drafted maximum t []).and
    (preserved maximum t v)) (.of_ex fun keys => acts_commit (.paddle, "") ?_) fun _ => ?_
  · intro w mine ⟨seats, rows⟩
    have redeemed : ∀ k, Write.redeem k ∈ keys.map Write.redeem ↔ k ∈ keys := by simp
    refine ⟨Store.allowedAll_redeem keys _, .inl fun k mem => seats k ((redeemed k).mp mem),
      .inl (by simp), fun _ row mem own marked => ?_⟩
    obtain ⟨db, ledger⟩ := Store.redeem_foldl keys w.db.store
    change row ∈ ((w.db.draft t).foldl Store.apply w.db.store).db.subscriptions at mem
    change row.key ∈ ((w.db.draft t).foldl Store.apply w.db.store).ledger
    rw [mine] at mem ⊢
    rw [db] at mem
    exact (ledger row.key).mpr (rows row mem own marked)
  · refine .bind (acts_write (A := preserved maximum t v) (fun _ => ⟨(), rfl⟩) fun _ h => h)
      fun _ => acts_commit (.paddle, "") fun w _ safe => ?_
    exact ⟨⟨safe, trivial⟩, .inl (by simp), .inl (by simp), fun _ => trivial⟩

/-- Every transaction keeps to its moves. -/
theorem acts_code (k : Task) : Acts (drafted maximum t []) (k.code maximum) fun _ =>
    (drafted maximum t []).and (.fact True) := by
  cases k with
  | applySubscription row founding canAllocate => exact acts_applySubscription row founding canAllocate
  | deleteWorkspace v => exact acts_deleteWorkspace v
  | claim key canAllocate =>
    refine .bind (.pre (acts_claim [] canAllocate) fun w mine => ⟨mine, .inl rfl⟩) fun granted => ?_
    cases granted with
    | true =>
      refine acts_commit key fun w _ entitled => ?_
      have redeemed : key ∈ recordFoundingRedemption w.db.store.ledger key := mem_put.mpr (.inr rfl)
      refine ⟨⟨trivial, redeemed, trivial⟩, ?_, ?_, fun _ => trivial⟩
      · have only : ∀ k, Write.redeem k ∈ [Write.redeem key, .seat key] → k = key := by simp
        rcases entitled with ⟨-, seat⟩ | ⟨mine, room⟩
        · exact .inl fun k mem => only k mem ▸ seat
        · exact .inr ⟨mine, room, only⟩
      · exact .inr (entitled.elim And.left And.left)
    | false =>
      refine .pre (acts_commit key (A := .fact True) fun w _ _ => ?_)
        fun w hw => ⟨hw.1, trivial⟩
      exact ⟨trivial, .inl (by simp), .inl (by simp), fun _ => trivial⟩

end Code

/-! ## Every run -/

section Runs

variable {maximum : ℕ} {ok : World → Move (seats maximum) → Prop}

theorem verified (ok : World → Move (seats maximum) → Prop) : Verified (seats maximum) ok
    (Rely maximum) (Moves maximum) (fun w => w.db.store.Valid)
    (fun t w => w.db.draft t = []) fun _ _ _ => True where
  guarantee_rely ne _ moves := ⟨_, ne, moves⟩
  guarantee_inv valid moves := moves.valid valid
  idle_stable _ _ _ none := fun ⟨_, other, moves⟩ => (moves.frames.draft _ other.symm).trans none
  start := by
    intro t k w w' valid none accepted
    obtain rfl := Option.some.inj accepted
    exact ⟨.refl w, (acts_code k w ⟨valid, none⟩).mono fun _ _ _ => trivial⟩
  finish := by
    intro t r w w' _ _ settled
    obtain rfl := Option.some.inj settled
    exact ⟨.drafts .rollback rfl rfl, Transactions.draft_rollback⟩
  crash := by
    intro t w w' _ crashed
    obtain rfl := Option.some.inj crashed
    exact ⟨.drafts .rollback rfl rfl, Transactions.draft_rollback⟩
  disturb := by
    intro e
    exact e.elim

/-- What a run may do. -/
structure Progress (maximum : ℕ) (w w' : World) : Prop where
  grows : w.db.store.Grows w'.db.store
  bounded : w'.db.store.count ≤ max w.db.store.count maximum
  answers : ∃ new, w'.answers = w.answers ++ new ∧
    ∀ key, (key, false) ∈ new → key ∉ w.db.store.seated

theorem Moves.progress {t : ℕ} {w w' : World} (h : Moves maximum t w w') : Progress maximum w w' where
  grows := h.grows
  bounded := h.bounded.elim (fun within => (Store.count_le within).trans (le_max_left _ _))
    fun held => held.2.trans (le_max_right _ _)
  answers := h.answers

theorem Progress.trans {w w' w'' : World} (h : Progress maximum w w')
    (h' : Progress maximum w' w'') : Progress maximum w w'' := by
  obtain ⟨new, grown, granted⟩ := h.answers
  obtain ⟨new', grown', granted'⟩ := h'.answers
  refine ⟨h.grows.trans h'.grows, ?_, new ++ new', ?_, fun key mem => ?_⟩
  · have within := h.bounded
    have within' := h'.bounded
    omega
  · rw [grown', grown, List.append_assoc]
  · rcases List.mem_append.mp mem with mem | mem
    · exact granted key mem
    · exact fun seated => granted' key mem (h.grows.seated key seated)

theorem progress_of_reaches {w : World} {c d : Config (seats maximum)} (valid : w.db.store.Valid)
    (idle : ∀ t, w.db.draft t = []) (before : Reaches (Config.idle w) c) (h : Reaches c d) :
    Progress maximum c.world d.world := by
  induction h with
  | refl => exact (Moves.refl (t := 0) c.world).progress
  | step run _ taken ih =>
    refine ih.trans ?_
    have sound := (verified fun _ _ => True).sound valid idle (before.trans run)
    rcases ((verified fun _ _ => True).step_sound sound trivial taken).2 with
      ⟨_, moves⟩ | ⟨e, -, -⟩
    · exact moves.progress
    · exact e.elim

end Runs

/-- A canceled subscription of `w` with a seat that is not in the ledger. -/
def legacyRow : Subscription :=
  ⟨"w", .paddle, "old", .pro, .canceled, "pri", .annual, none, false, none, none, none, true, none⟩

def legacyWorld : World where
  db := ⟨⟨[], ⟨[], [], [legacyRow], []⟩, []⟩, fun _ => [], fun _ => none⟩
  answers := []

/-- The moves of a transaction of `n` statements that all go well. -/
def transaction {maximum : ℕ} (t : ℕ) (k : Task) (n : ℕ) : List (Move (seats maximum)) :=
  .start t k :: List.replicate n (.reply t .go) ++ [.finish t]

end DeclutrMail.Billing.Seats
