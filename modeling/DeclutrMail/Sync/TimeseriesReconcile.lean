import DeclutrMail.Sync.SenderIndex
import Mathlib.Data.List.Dedup

/-!
# The recount of `sender_timeseries`

`reconcileSenderTimeseries` rewrites the counts of existing months from the stored messages in two
statements: one joins the months that have mail, the other zeroes those that have none. Between
them every row in scope gets the counts of its month, and a scope only restricts which rows do.
-/

namespace DeclutrMail.Sync.Ingest.Timeseries

/-- A day: year, month and day of the month. -/
abbrev Day := (ℤ × ℤ) × ℤ

/-- A row of `sender_timeseries` -/
structure MonthRow where
  mailboxAccountId : String
  senderKey : Text
  yearMonth : Day
  volume : ℤ
  readCount : ℤ
  deriving DecidableEq

/-- A row of `mailbox_labels` -/
structure MailboxLabel where
  mailboxAccountId : String
  labelId : Label
  sweeperVendor : Option String

structure Database where
  messages : List MailMessage
  labels : List MailboxLabel
  timeseries : List MonthRow

def MonthRow.setCounts (st : MonthRow) (volume readCount : ℤ) : MonthRow :=
  { st with volume, readCount }

/-- `date_trunc('month', internal_date AT TIME ZONE 'UTC')::date` -/
def monthStart (internalDate : ℤ) : Day := (monthKey internalDate, 1)

section Reconcile

variable (db : Database) (mailboxAccountId : String) (senderKeys : Option (List Text))

def sweeperLabelIds : List Label :=
  (db.labels.filter fun l => l.mailboxAccountId = mailboxAccountId ∧ l.sweeperVendor ≠ none).map
    (·.labelId)

def readStateNotSweeperMarked (m : MailMessage) : Bool :=
  !m.labelIds.any fun label => (sweeperLabelIds db mailboxAccountId).contains label

/-- `AND sender_key = ANY(keys)`, if there is a scope. -/
def inScope (senderKey : Text) : Bool := senderKeys.all (·.contains senderKey)

/-- The messages that the first statement aggregates. -/
def scanned : List MailMessage :=
  db.messages.filter fun m => m.mailboxAccountId = mailboxAccountId ∧ m.isOutbound = false ∧
    inScope senderKeys m.senderKey

/-- The group of a message -/
def groupOf (m : MailMessage) : Text × Day := (m.senderKey, monthStart m.internalDate)

structure Group where
  senderKey : Text
  yearMonth : Day
  total : ℤ
  readTotal : ℤ

def groups : List Group :=
  let rows := scanned db mailboxAccountId senderKeys
  (rows.map groupOf).dedup.map fun group =>
    ⟨group.1, group.2, rows.countP (groupOf · = group),
      rows.countP fun m => groupOf m = group &&
        (!m.isUnread && readStateNotSweeperMarked db mailboxAccountId m)⟩

/-- The group that corrects a row. -/
def correction (st : MonthRow) : Option Group :=
  if st.mailboxAccountId = mailboxAccountId ∧ inScope senderKeys st.senderKey then
    (groups db mailboxAccountId senderKeys).find? fun sub =>
      st.senderKey = sub.senderKey ∧ st.yearMonth = sub.yearMonth ∧
        (st.volume ≠ sub.total ∨ st.readCount ≠ sub.readTotal)
  else none

def correct (st : MonthRow) : MonthRow :=
  match correction db mailboxAccountId senderKeys st with
  | some sub => st.setCounts sub.total sub.readTotal
  | none => st

/-- Whether the second statement zeroes a row: it counts something, but there is no mail. -/
def orphan (st : MonthRow) : Bool :=
  st.mailboxAccountId = mailboxAccountId && (st.volume ≠ 0 || st.readCount ≠ 0) &&
    inScope senderKeys st.senderKey &&
      !db.messages.any fun m => m.mailboxAccountId = st.mailboxAccountId &&
        m.senderKey = st.senderKey && !m.isOutbound && monthStart m.internalDate = st.yearMonth

def zero (st : MonthRow) : MonthRow :=
  if orphan db mailboxAccountId senderKeys st then st.setCounts 0 0 else st

structure ReconcileResult where
  corrected : ℕ
  zeroed : ℕ
  deriving DecidableEq

def reconcileSenderTimeseries : ReconcileResult × Database :=
  if senderKeys = some [] then (⟨0, 0⟩, db)
  else
    let corrected := db.timeseries.map (correct db mailboxAccountId senderKeys)
    (⟨db.timeseries.countP fun st => (correction db mailboxAccountId senderKeys st).isSome,
        corrected.countP (orphan db mailboxAccountId senderKeys)⟩,
      { db with timeseries := corrected.map (zero db mailboxAccountId senderKeys) })

/-! ## The recount -/

/-- A stored inbound message of the month of a row. -/
def counts (st : MonthRow) (m : MailMessage) : Bool :=
  m.mailboxAccountId = st.mailboxAccountId && !m.isOutbound && groupOf m = (st.senderKey, st.yearMonth)

def volumeOf (st : MonthRow) : ℕ := db.messages.countP (counts st)

/-- The messages of the month that are read, but not by a sweeper. -/
def readCountOf (st : MonthRow) : ℕ :=
  db.messages.countP fun m =>
    counts st m && (!m.isUnread && readStateNotSweeperMarked db st.mailboxAccountId m)

def recount (st : MonthRow) : MonthRow := st.setCounts (volumeOf db st) (readCountOf db st)

/-- What a run leaves of a row: its recount, if it is in scope. -/
def reconciled (st : MonthRow) : MonthRow :=
  if st.mailboxAccountId = mailboxAccountId ∧ inScope senderKeys st.senderKey then recount db st
  else st

end Reconcile

section Laws

variable {db : Database} {mailboxAccountId : String} {senderKeys : Option (List Text)}
  {st : MonthRow}

theorem readCountOf_le_volumeOf : readCountOf db st ≤ volumeOf db st :=
  List.countP_mono_left fun _ _ both => (Bool.and_eq_true_iff.mp both).1

/-- A group in scope counts the messages of its month. -/
theorem countP_scanned (mine : st.mailboxAccountId = mailboxAccountId)
    (within : inScope senderKeys st.senderKey = true) (p : MailMessage → Bool) :
    (scanned db mailboxAccountId senderKeys).countP
        (fun m => decide (groupOf m = (st.senderKey, st.yearMonth)) && p m) =
      db.messages.countP fun m => counts st m && p m := by
  rw [scanned, List.countP_filter]
  refine List.countP_congr fun m _ => ?_
  by_cases grouped : groupOf m = (st.senderKey, st.yearMonth)
  · have keyed : m.senderKey = st.senderKey := congrArg Prod.fst grouped
    simp [counts, grouped, keyed, within, mine, and_comm]
  · simp [counts, grouped]

theorem total_eq (mine : st.mailboxAccountId = mailboxAccountId)
    (within : inScope senderKeys st.senderKey = true) :
    (scanned db mailboxAccountId senderKeys).countP (groupOf · = (st.senderKey, st.yearMonth)) =
      volumeOf db st := by
  have total := @countP_scanned db mailboxAccountId senderKeys st mine within fun _ => true
  simpa only [Bool.and_true, volumeOf] using total

theorem readTotal_eq (mine : st.mailboxAccountId = mailboxAccountId)
    (within : inScope senderKeys st.senderKey = true) :
    (scanned db mailboxAccountId senderKeys).countP (fun m =>
        groupOf m = (st.senderKey, st.yearMonth) &&
          (!m.isUnread && readStateNotSweeperMarked db mailboxAccountId m)) =
      readCountOf db st := by
  rw [countP_scanned mine within, ← mine, readCountOf]

/-- The groups that a row joins: one if its month has mail. -/
theorem mem_groups_iff (mine : st.mailboxAccountId = mailboxAccountId)
    (within : inScope senderKeys st.senderKey = true) (sub : Group) :
    sub ∈ groups db mailboxAccountId senderKeys ∧ st.senderKey = sub.senderKey ∧
        st.yearMonth = sub.yearMonth ↔
      0 < volumeOf db st ∧
        sub = ⟨st.senderKey, st.yearMonth, volumeOf db st, readCountOf db st⟩ := by
  rw [← total_eq mine within, ← readTotal_eq mine within, List.countP_pos_iff]
  constructor
  · rintro ⟨here, keyed, month⟩
    obtain ⟨group, there, rfl⟩ := List.mem_map.mp here
    obtain rfl : group = (st.senderKey, st.yearMonth) := Prod.ext keyed.symm month.symm
    obtain ⟨m, stored, same⟩ := List.mem_map.mp (List.mem_dedup.mp there)
    exact ⟨⟨m, stored, decide_eq_true same⟩, rfl⟩
  · rintro ⟨⟨m, stored, same⟩, rfl⟩
    refine ⟨List.mem_map.mpr ⟨(st.senderKey, st.yearMonth), ?_, rfl⟩, rfl, rfl⟩
    exact List.mem_dedup.mpr (List.mem_map.mpr ⟨m, stored, of_decide_eq_true same⟩)

@[simp]
theorem setCounts_self : st.setCounts st.volume st.readCount = st := rfl

/-- The first statement corrects the months that have mail and other counts. -/
theorem correction_eq : correction db mailboxAccountId senderKeys st =
    if st.mailboxAccountId = mailboxAccountId ∧ inScope senderKeys st.senderKey ∧
        0 < volumeOf db st ∧ recount db st ≠ st then
      some ⟨st.senderKey, st.yearMonth, volumeOf db st, readCountOf db st⟩
    else none := by
  unfold correction
  by_cases within : st.mailboxAccountId = mailboxAccountId ∧ inScope senderKeys st.senderKey
  · rw [if_pos within]
    have joins := @mem_groups_iff db mailboxAccountId senderKeys st within.1 within.2
    have same : recount db st = st ↔ st.volume = volumeOf db st ∧
        st.readCount = readCountOf db st := by
      refine ⟨fun same => ?_, fun ⟨volume, read⟩ => ?_⟩
      · exact ⟨(congrArg MonthRow.volume same).symm, (congrArg MonthRow.readCount same).symm⟩
      · rw [recount, ← volume, ← read, setCounts_self]
    cases found : (groups db mailboxAccountId senderKeys).find? fun sub =>
        st.senderKey = sub.senderKey ∧ st.yearMonth = sub.yearMonth ∧
          (st.volume ≠ sub.total ∨ st.readCount ≠ sub.readTotal) with
    | none =>
      refine (if_neg ?_).symm
      rintro ⟨-, -, mail, differs⟩
      have stale := List.find?_eq_none.mp found _ ((joins _).mpr ⟨mail, rfl⟩).1
      refine differs (same.mpr ?_)
      simpa [not_or] using stale
    | some sub =>
      have joined := List.find?_some found
      obtain ⟨keyed, month, stale⟩ := of_decide_eq_true joined
      obtain ⟨mail, rfl⟩ := (joins sub).mp ⟨List.mem_of_find?_eq_some found, keyed, month⟩
      have differs : recount db st ≠ st := by
        intro equal
        obtain ⟨volume, read⟩ := same.mp equal
        exact stale.elim (absurd volume) (absurd read)
      exact (if_pos ⟨within.1, within.2, mail, differs⟩).symm
  · rw [if_neg within, if_neg fun all => within ⟨all.1, all.2.1⟩]

/-- The first statement rewrites the months that have mail. -/
theorem correct_eq : correct db mailboxAccountId senderKeys st =
    if st.mailboxAccountId = mailboxAccountId ∧ inScope senderKeys st.senderKey ∧
      0 < volumeOf db st then recount db st else st := by
  rw [correct, correction_eq]
  by_cases within : st.mailboxAccountId = mailboxAccountId ∧ inScope senderKeys st.senderKey ∧
      0 < volumeOf db st
  · rw [if_pos within]
    by_cases same : recount db st = st
    · rw [if_neg fun all => all.2.2.2 same, same]
    · rw [if_pos ⟨within.1, within.2.1, within.2.2, same⟩]
      rfl
  · rw [if_neg within, if_neg fun all => within ⟨all.1, all.2.1, all.2.2.1⟩]

theorem volumeOf_eq_zero : volumeOf db st = 0 ↔ db.messages.any (counts st) = false := by
  rw [volumeOf, List.countP_eq_zero, List.any_eq_false]

/-- A row is zeroed exactly if it counts something in a month without mail. -/
theorem orphan_iff : orphan db mailboxAccountId senderKeys st = true ↔
    (st.mailboxAccountId = mailboxAccountId ∧ inScope senderKeys st.senderKey) ∧
      (st.volume ≠ 0 ∨ st.readCount ≠ 0) ∧ volumeOf db st = 0 := by
  have mail : (fun m : MailMessage => (m.mailboxAccountId = st.mailboxAccountId &&
      m.senderKey = st.senderKey && !m.isOutbound && monthStart m.internalDate = st.yearMonth : Bool)) =
      counts st := by
    funext m
    simp only [counts, groupOf, Prod.mk.injEq]
    grind
  rw [volumeOf_eq_zero, ← mail]
  simp [orphan, and_assoc, and_left_comm]

theorem readCountOf_eq_zero (bare : volumeOf db st = 0) : readCountOf db st = 0 :=
  Nat.le_zero.mp (readCountOf_le_volumeOf.trans bare.le)

/-- After both statements a row is its recount, if it is in scope. -/
theorem zero_correct :
    zero db mailboxAccountId senderKeys (correct db mailboxAccountId senderKeys st) =
      reconciled db mailboxAccountId senderKeys st := by
  rw [correct_eq, reconciled]
  by_cases within : st.mailboxAccountId = mailboxAccountId ∧ inScope senderKeys st.senderKey
  · rw [if_pos within]
    by_cases mail : 0 < volumeOf db st
    · have kept : orphan db mailboxAccountId senderKeys (recount db st) ≠ true :=
        fun h => mail.ne' (orphan_iff.mp h).2.2
      rw [if_pos ⟨within.1, within.2, mail⟩, zero, if_neg kept]
    · have bare : volumeOf db st = 0 := Nat.eq_zero_of_not_pos mail
      rw [if_neg fun all => mail all.2.2, recount, bare, readCountOf_eq_zero bare, zero]
      by_cases counted : st.volume ≠ 0 ∨ st.readCount ≠ 0
      · rw [if_pos (orphan_iff.mpr ⟨within, counted, bare⟩)]
        rfl
      · rw [if_neg fun h => counted (orphan_iff.mp h).2.1]
        obtain ⟨volume, read⟩ := not_or.mp counted
        rw [not_not] at volume read
        exact (congrArg₂ st.setCounts volume read).trans rfl
  · rw [if_neg within, if_neg fun all => within ⟨all.1, all.2.1⟩, zero,
      if_neg fun h => within (orphan_iff.mp h).1]

theorem recount_reconciled :
    recount db (reconciled db mailboxAccountId senderKeys st) = recount db st := by
  unfold reconciled
  split_ifs <;> rfl

/-- A row that a run has left is not corrected by another run in the same scope. -/
theorem correction_reconciled : correction db mailboxAccountId senderKeys
    (reconciled db mailboxAccountId senderKeys st) = none := by
  rw [correction_eq, recount_reconciled]
  refine if_neg fun all => all.2.2.2 ?_
  unfold reconciled at all ⊢
  split_ifs at all ⊢ with within
  · rfl
  · exact absurd ⟨all.1, all.2.1⟩ within

theorem orphan_reconciled : orphan db mailboxAccountId senderKeys
    (reconciled db mailboxAccountId senderKeys st) = false := by
  refine Bool.eq_false_iff.mpr fun h => ?_
  obtain ⟨within, counted, bare⟩ := orphan_iff.mp h
  unfold reconciled at within counted bare
  split_ifs at within counted bare with here
  · have bare' : volumeOf db st = 0 := bare
    rw [recount, bare', readCountOf_eq_zero bare'] at counted
    exact counted.elim (absurd rfl) (absurd rfl)
  · exact here within

end Laws

section Runs

variable (db : Database) (mailboxAccountId : String) (senderKeys : Option (List Text))

/-- A run recounts the rows in scope and leaves the others. -/
theorem timeseries_eq :
    (reconcileSenderTimeseries db mailboxAccountId senderKeys).2 =
      { db with timeseries := db.timeseries.map (reconciled db mailboxAccountId senderKeys) } := by
  unfold reconcileSenderTimeseries
  split_ifs with empty
  · have kept : reconciled db mailboxAccountId (some []) = id := by
      funext st
      exact if_neg fun within => Bool.false_ne_true within.2
    rw [empty, kept, List.map_id]
  · dsimp only
    rw [List.map_map]
    refine congrArg (Database.mk _ _) (List.map_congr_left fun st _ => ?_)
    exact zero_correct

/-- A run over rows that are left by a run in the same scope -/
theorem reconcile_reconciled (rows : List MonthRow)
    (left : ∀ st ∈ rows, ∃ before, st = reconciled db mailboxAccountId senderKeys before) :
    reconcileSenderTimeseries { db with timeseries := rows } mailboxAccountId senderKeys =
      (⟨0, 0⟩, { db with timeseries := rows }) := by
  have uncorrected : ∀ st ∈ rows,
      correction { db with timeseries := rows } mailboxAccountId senderKeys st = none := by
    intro st here
    obtain ⟨before, rfl⟩ := left st here
    exact correction_reconciled
  have orphaned : ∀ st ∈ rows,
      orphan { db with timeseries := rows } mailboxAccountId senderKeys st = false := by
    intro st here
    obtain ⟨before, rfl⟩ := left st here
    exact orphan_reconciled
  have same : rows.map (correct { db with timeseries := rows } mailboxAccountId senderKeys) =
      rows := by
    refine (List.map_congr_left fun st here => ?_).trans (List.map_id' rows)
    rw [correct, uncorrected st here]
  have kept : rows.map (zero { db with timeseries := rows } mailboxAccountId senderKeys) =
      rows := by
    refine (List.map_congr_left fun st here => ?_).trans (List.map_id' rows)
    rw [zero, orphaned st here]
    rfl
  unfold reconcileSenderTimeseries
  split_ifs
  · rfl
  · dsimp only
    rw [same, kept, List.countP_eq_zero.mpr fun st here => by simp [uncorrected st here],
      List.countP_eq_zero.mpr fun st here => by simp [orphaned st here]]

/-- A second run in the same scope changes nothing and says so. -/
theorem reconcile_twice :
    let after := (reconcileSenderTimeseries db mailboxAccountId senderKeys).2
    reconcileSenderTimeseries after mailboxAccountId senderKeys = (⟨0, 0⟩, after) := by
  dsimp only
  rw [timeseries_eq]
  refine reconcile_reconciled db mailboxAccountId senderKeys _ fun st here => ?_
  obtain ⟨before, -, rfl⟩ := List.mem_map.mp here
  exact ⟨before, rfl⟩

end Runs

/-- An unscoped run recounts every row of the mailbox, and only once; a scope restricts it to the
rows of some senders. -/
theorem reconcile_recount (db : Database) (mailboxAccountId : String) :
    let after := (reconcileSenderTimeseries db mailboxAccountId none).2
    after.messages = db.messages ∧
      after.timeseries = db.timeseries.map (fun st =>
        if st.mailboxAccountId = mailboxAccountId then recount db st else st) ∧
      (∀ st ∈ after.timeseries, st.mailboxAccountId = mailboxAccountId →
        st.volume = volumeOf db st ∧ st.readCount = readCountOf db st ∧
          st.readCount ≤ st.volume) ∧
      reconcileSenderTimeseries after mailboxAccountId none = (⟨0, 0⟩, after) ∧
      (∀ senderKeys, (reconcileSenderTimeseries db mailboxAccountId (some senderKeys)).2 =
        { db with timeseries := db.timeseries.map (fun st =>
            if st.mailboxAccountId = mailboxAccountId ∧ st.senderKey ∈ senderKeys then
              recount db st
            else st) }) ∧
      reconcileSenderTimeseries db mailboxAccountId (some []) = (⟨0, 0⟩, db) := by
  have unscoped : reconciled db mailboxAccountId none = fun st =>
      if st.mailboxAccountId = mailboxAccountId then recount db st else st := by
    funext st
    simp [reconciled, inScope]
  refine ⟨by rw [timeseries_eq], by rw [timeseries_eq, unscoped], ?_,
    reconcile_twice db mailboxAccountId none, fun senderKeys => ?_, rfl⟩
  · intro st here mine
    rw [timeseries_eq, unscoped] at here
    obtain ⟨before, -, rfl⟩ := List.mem_map.mp here
    split_ifs at mine ⊢ with this
    · exact ⟨rfl, rfl, Int.ofNat_le.mpr readCountOf_le_volumeOf⟩
    · exact absurd mine this
  · rw [timeseries_eq]
    refine congrArg (Database.mk _ _) (List.map_congr_left fun st _ => ?_)
    simp [reconciled, inScope]

end DeclutrMail.Sync.Ingest.Timeseries
