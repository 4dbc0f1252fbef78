import Mathlib.Data.Prod.Lex
import Mathlib.Data.Int.Order.Basic
import DeclutrMail.Collections.Keyset

/-!
# The activity feed

`ActivityReadService` lists what has happened in a mailbox, newest first, from four tables. Each
table answers with its own first rows after the cursor, and the answers are merged. PostgreSQL
dates rows to the microsecond, while the cursor and the merge know milliseconds: every table is
ordered by the millisecond (`feedTime`), and within one the ids decide.

The rows of a table are those that meet the filters of the request. A snapshot has them as one
request reads them.
-/

namespace DeclutrMail.Listings

/-! ## Limits -/

structure LimitBounds where
  default : ℤ
  min : ℤ
  max : ℤ

/-- The number that the text of the parameter begins with, if any, put between the bounds. -/
def clampLimit (parsed : Option ℤ) (bounds : LimitBounds) : ℤ :=
  match parsed with
  | none => bounds.default
  | some limit => min bounds.max (max bounds.min limit)

def ACTIVITY_LIMIT : LimitBounds := ⟨25, 1, 100⟩

/-! ## Rows -/

variable {Id : Type*} [LinearOrder Id]

/-- A row of a table, dated in microseconds since 1970. -/
structure DatedRow (Id : Type*) where
  id : Id
  time : ℤ

/-- The millisecond of a `Date` that is read from a column. -/
def DatedRow.date (row : DatedRow Id) : ℤ := row.time / 1000

inductive FeedSource
  | persisted | execution | ruleReview | protectedSkip
  deriving DecidableEq

structure ActivityRow (Id : Type*) where
  id : Id
  occurredAt : ℤ
  source : FeedSource

def DatedRow.toActivity (source : FeedSource) (row : DatedRow Id) : ActivityRow Id :=
  ⟨row.id, row.date, source⟩

structure Snapshot (Id : Type*) where
  persisted : List (DatedRow Id)
  executions : List (DatedRow Id)
  ruleReviews : List (DatedRow Id)
  protectedSkips : List (DatedRow Id)

/-- The cursor of a page, with the millisecond of its last row. -/
structure Cursor (Id : Type*) where
  occurredAt : ℤ
  id : Id

/-! ## Queries -/

/-- `date_trunc('milliseconds', time)` -/
def feedTime (time : ℤ) : ℤ := time / 1000 * 1000

def afterCursor (cursor : Cursor Id) (row : DatedRow Id) : Bool :=
  let start := cursor.occurredAt * 1000
  let stop := (cursor.occurredAt + 1) * 1000
  row.time < start || (start ≤ row.time && row.time < stop && row.id < cursor.id)

/-- `ORDER BY feedTime(time) DESC, id DESC LIMIT limit` -/
def selectFeed (rows : List (DatedRow Id)) (cursor : Option (Cursor Id)) (limit : ℕ) :
    List (DatedRow Id) :=
  ((rows.filter fun row => cursor.all (afterCursor · row)).mergeSort fun a b =>
    feedTime b.time < feedTime a.time || (feedTime b.time = feedTime a.time && b.id ≤ a.id)).take
      limit

def isStrictlyAfterCursor (attempt : DatedRow Id) (cursor : Cursor Id) : Bool :=
  attempt.date < cursor.occurredAt || (attempt.date = cursor.occurredAt && attempt.id < cursor.id)

def projectExecutionRows (attempts : List (DatedRow Id)) (cursor : Option (Cursor Id)) :
    List (ActivityRow Id) :=
  (attempts.filter fun attempt => cursor.all (isStrictlyAfterCursor attempt)).map
    (DatedRow.toActivity .execution)

def compareActivityRowsNewestFirst (left right : ActivityRow Id) : ℤ :=
  let timeDelta := right.occurredAt - left.occurredAt
  if timeDelta ≠ 0 then timeDelta
  else if left.id < right.id then 1
  else if right.id < left.id then -1
  else 0

def sortRows (rows : List (ActivityRow Id)) : List (ActivityRow Id) :=
  rows.mergeSort fun a b => compareActivityRowsNewestFirst a b ≤ 0

/-- The first `limit + 1` rows after the cursor. -/
def loadActivityRows (s : Snapshot Id) (executionRows : List (ActivityRow Id))
    (cursor : Option (Cursor Id)) (limit : ℕ) : List (ActivityRow Id) :=
  let rows (source : FeedSource) (table : List (DatedRow Id)) :=
    (selectFeed table cursor (limit + 1)).map (DatedRow.toActivity source)
  (sortRows (rows .persisted s.persisted ++ executionRows ++ rows .ruleReview s.ruleReviews ++
    rows .protectedSkip s.protectedSkips)).take (limit + 1)

def listActivity (s : Snapshot Id) (cursor : Option (Cursor Id)) (limit : ℕ) :
    List (ActivityRow Id) :=
  loadActivityRows s (projectExecutionRows (selectFeed s.executions cursor (limit + 1)) cursor)
    cursor limit

/-- A page, and the cursor of the next one. -/
def takePage (rows : List (ActivityRow Id)) (limit : ℕ) :
    List (ActivityRow Id) × Option (Cursor Id) :=
  if rows.length ≤ limit then (rows, none)
  else
    let page := rows.take limit
    (page, page.getLast?.map fun lastVisible => ⟨lastVisible.occurredAt, lastVisible.id⟩)

/-- What the controller answers to a request for a page. -/
def activityPage (rawLimit : Option ℤ) (s : Snapshot Id) (cursor : Option (Cursor Id)) :
    List (ActivityRow Id) × Option (Cursor Id) :=
  let limit := (clampLimit rawLimit ACTIVITY_LIMIT).toNat
  takePage (listActivity s cursor limit) limit

/-! ## The order of the feed -/

def Snapshot.rows (s : Snapshot Id) : List (ActivityRow Id) :=
  [(FeedSource.persisted, s.persisted), (.execution, s.executions), (.ruleReview, s.ruleReviews),
    (.protectedSkip, s.protectedSkips)].flatMap fun table =>
      table.2.map (DatedRow.toActivity table.1)

/-- The snapshot without its executions. -/
def Snapshot.idle (s : Snapshot Id) : Snapshot Id := { s with executions := [] }

/-- The newer row has the greater key. -/
def ActivityRow.key (row : ActivityRow Id) : ℤ ×ₗ Id := toLex (row.occurredAt, row.id)

def ActivityRow.cursor (row : ActivityRow Id) : Cursor Id := ⟨row.occurredAt, row.id⟩

def Cursor.passes (cursor : Cursor Id) (row : ActivityRow Id) : Bool :=
  row.key < toLex (cursor.occurredAt, cursor.id)

theorem key_lt_iff {a b : ActivityRow Id} :
    a.key < b.key ↔ a.occurredAt < b.occurredAt ∨ a.occurredAt = b.occurredAt ∧ a.id < b.id :=
  Prod.Lex.toLex_lt_toLex

theorem key_le_iff {a b : ActivityRow Id} :
    a.key ≤ b.key ↔ a.occurredAt < b.occurredAt ∨ a.occurredAt = b.occurredAt ∧ a.id ≤ b.id :=
  Prod.Lex.toLex_le_toLex

theorem passes_iff {cursor : Cursor Id} {row : ActivityRow Id} : cursor.passes row ↔
    row.occurredAt < cursor.occurredAt ∨
      row.occurredAt = cursor.occurredAt ∧ row.id < cursor.id := by
  rw [Cursor.passes, decide_eq_true_iff]
  exact Prod.Lex.toLex_lt_toLex

/-- Both comparisons with a cursor say what the keys say. -/
theorem afterCursor_eq (source : FeedSource) (cursor : Cursor Id) (row : DatedRow Id) :
    afterCursor cursor row = cursor.passes (row.toActivity source) := by
  rw [Bool.eq_iff_iff, passes_iff]
  simp only [afterCursor, DatedRow.toActivity, DatedRow.date, Bool.or_eq_true, Bool.and_eq_true,
    decide_eq_true_eq]
  constructor
  · rintro (earlier | ⟨⟨start, stop⟩, lower⟩)
    · exact .inl (by omega)
    · exact .inr ⟨by omega, lower⟩
  · rintro (earlier | ⟨same, lower⟩)
    · exact .inl (by omega)
    · exact .inr ⟨⟨by omega, by omega⟩, lower⟩

theorem isStrictlyAfterCursor_eq (cursor : Cursor Id) (attempt : DatedRow Id) :
    isStrictlyAfterCursor attempt cursor = cursor.passes (attempt.toActivity .execution) := by
  rw [Bool.eq_iff_iff, passes_iff]
  simp [isStrictlyAfterCursor, DatedRow.toActivity]

theorem compare_nonpos_iff {a b : ActivityRow Id} :
    compareActivityRowsNewestFirst a b ≤ 0 ↔ b.key ≤ a.key := by
  rw [key_le_iff, compareActivityRowsNewestFirst]
  split_ifs with apart lower greater
  · constructor
    · exact fun le => .inl (by omega)
    · rintro (lt | ⟨same, -⟩) <;> omega
  · have same : b.occurredAt = a.occurredAt := by omega
    simp [same, not_le_of_gt lower]
  · have same : b.occurredAt = a.occurredAt := by omega
    simp [same, le_of_lt greater]
  · have same : b.occurredAt = a.occurredAt := by omega
    simp [same, le_of_not_gt lower]

theorem sortRows_eq (rows : List (ActivityRow Id)) :
    sortRows rows = Keyset.newestFirst ActivityRow.key rows := by
  simp only [sortRows, Keyset.newestFirst, compare_nonpos_iff]

/-! ## One page -/

open Keyset

/-- What a table answers with. -/
theorem map_selectFeed (source : FeedSource) (rows : List (DatedRow Id))
    (cursor : Option (Cursor Id)) (limit : ℕ) :
    (selectFeed rows cursor limit).map (DatedRow.toActivity source) =
      (newestFirst ActivityRow.key
        (after Cursor.passes cursor (rows.map (DatedRow.toActivity source)))).take limit := by
  have order (a b : DatedRow Id) : (feedTime b.time < feedTime a.time ||
      (feedTime b.time = feedTime a.time && b.id ≤ a.id) : Bool) =
        decide ((b.toActivity source).key ≤ (a.toActivity source).key) := by
    have earlier : feedTime b.time < feedTime a.time ↔ b.date < a.date := by
      simp only [feedTime, DatedRow.date]
      omega
    have same : feedTime b.time = feedTime a.time ↔ b.date = a.date := by
      simp only [feedTime, DatedRow.date]
      omega
    rw [Bool.eq_iff_iff, decide_eq_true_iff, key_le_iff]
    simp only [Bool.or_eq_true, Bool.and_eq_true, decide_eq_true_eq, earlier, same,
      DatedRow.toActivity]
  rw [selectFeed, List.map_take, List.map_mergeSort
    (s := fun a b : ActivityRow Id => decide (b.key ≤ a.key)) fun a _ b _ => order a b,
    newestFirst, after, List.filter_map]
  simp only [afterCursor_eq source, Function.comp_def]

/-- The second look at the cursor changes nothing. -/
theorem projectExecutionRows_selectFeed (rows : List (DatedRow Id)) (cursor : Option (Cursor Id))
    (limit : ℕ) : projectExecutionRows (selectFeed rows cursor limit) cursor =
      (selectFeed rows cursor limit).map (DatedRow.toActivity .execution) := by
  refine congrArg (List.map _) (List.filter_eq_self.mpr fun attempt mem => ?_)
  have passed := (List.mem_filter.mp (List.mem_mergeSort.mp (List.mem_of_mem_take mem))).2
  cases cursor with
  | none => rfl
  | some c => simpa [isStrictlyAfterCursor_eq, afterCursor_eq .execution] using passed

omit [LinearOrder Id] in
theorem nodup_key {rows : List (ActivityRow Id)} (distinct : (rows.map ActivityRow.id).Nodup) :
    (rows.map ActivityRow.key).Nodup := by
  refine List.Nodup.of_map (fun k => (ofLex k).2) ?_
  rw [List.map_map]
  exact distinct

/-- A request reads the first rows of all tables together. -/
theorem listActivity_eq {s : Snapshot Id} (distinct : (s.rows.map ActivityRow.key).Nodup)
    (cursor : Option (Cursor Id)) (limit : ℕ) : listActivity s cursor limit =
      (newestFirst ActivityRow.key (after Cursor.passes cursor s.rows)).take (limit + 1) := by
  have sources : after Cursor.passes cursor s.rows =
      [after Cursor.passes cursor (s.persisted.map (DatedRow.toActivity .persisted)),
        after Cursor.passes cursor (s.executions.map (DatedRow.toActivity .execution)),
        after Cursor.passes cursor (s.ruleReviews.map (DatedRow.toActivity .ruleReview)),
        after Cursor.passes cursor
          (s.protectedSkips.map (DatedRow.toActivity .protectedSkip))].flatten := by
    simp [after, Snapshot.rows]
  have distinct' := nodup_after Cursor.passes cursor distinct
  rw [sources] at distinct' ⊢
  rw [← take_newestFirst_flatMap distinct', listActivity, loadActivityRows,
    projectExecutionRows_selectFeed, sortRows_eq]
  simp only [map_selectFeed, List.flatMap_cons, List.flatMap_nil, List.append_nil,
    List.append_assoc]

theorem one_le_limit (rawLimit : Option ℤ) : 1 ≤ (clampLimit rawLimit ACTIVITY_LIMIT).toNat := by
  cases rawLimit with
  | none => decide
  | some limit =>
    simp only [clampLimit, ACTIVITY_LIMIT]
    omega

omit [LinearOrder Id] in
/-- The sentinel row tells whether another page follows. -/
theorem takePage_take (rows : List (ActivityRow Id)) (limit : ℕ) :
    takePage (rows.take (limit + 1)) limit =
      if rows.length ≤ limit then (rows, none)
      else (rows.take limit, (rows.take limit).getLast?.map ActivityRow.cursor) := by
  have short : (rows.take (limit + 1)).length ≤ limit ↔ rows.length ≤ limit := by
    rw [List.length_take]
    omega
  rw [takePage]
  simp only [short]
  split_ifs with le
  · rw [List.take_of_length_le (by omega)]
  · rw [List.take_take, Nat.min_eq_left (Nat.le_succ limit)]
    rfl

theorem pages_takePage {rows : List (ActivityRow Id)} {limit : ℕ} (pos : 1 ≤ limit)
    {read : Option (Cursor Id) → List (ActivityRow Id)}
    (reads : ∀ cursor, read cursor =
      (newestFirst ActivityRow.key (after Cursor.passes cursor rows)).take (limit + 1)) :
    Pages ActivityRow.key Cursor.passes ActivityRow.cursor rows
      fun cursor => takePage (read cursor) limit := by
  refine ⟨fun cursor => ?_, fun cursor => ?_, fun cursor c => ?_⟩ <;>
    simp only [reads, takePage_take] <;> split_ifs with short
  · exact List.prefix_rfl
  · exact List.take_prefix ..
  · exact fun _ => rfl
  · intro none
    rw [Option.map_eq_none_iff, List.getLast?_eq_none_iff, List.take_eq_nil_iff] at none
    rcases none with zero | nil
    · omega
    · simp [nil] at short
  · nofun
  · intro next
    obtain ⟨b, last, is⟩ := Option.map_eq_some_iff.mp next
    exact ⟨b, last, is.symm⟩

theorem pages_activityPage (rawLimit : Option ℤ) {s : Snapshot Id}
    (distinct : (s.rows.map ActivityRow.key).Nodup) :
    Pages ActivityRow.key Cursor.passes ActivityRow.cursor s.rows (activityPage rawLimit s) :=
  pages_takePage (one_le_limit rawLimit) fun cursor => listActivity_eq distinct cursor _

/-! ## All pages -/

theorem behind (b x : ActivityRow Id) (past : b.cursor.passes x) : x.key < b.key :=
  of_decide_eq_true past

theorem passes_of_lt (b x : ActivityRow Id) (lower : x.key < b.key) : b.cursor.passes x :=
  decide_eq_true lower

theorem chain (c : Cursor Id) (b x : ActivityRow Id) (first : c.passes b)
    (past : b.cursor.passes x) : c.passes x :=
  decide_eq_true (lt_trans (behind b x past) (of_decide_eq_true first))

/-- The pages that a client gets which follows the cursors, with what each request reads. -/
def activityPages (rawLimit : Option ℤ) (snapshots : List (Snapshot Id)) :
    List (List (ActivityRow Id)) × Bool := walk (activityPage rawLimit) none snapshots

/-- Whatever comes and goes between the requests, the feed is listed from the newest row down, no
row twice, and a row that is there at every request is listed once the pages have ended. -/
theorem activity_listed_once (rawLimit : Option ℤ) (snapshots : List (Snapshot Id))
    (distinct : ∀ s ∈ snapshots, (s.rows.map ActivityRow.id).Nodup) :
    (activityPages rawLimit snapshots).1.flatten.Pairwise (fun a b => b.key < a.key) ∧
      (∀ row ∈ (activityPages rawLimit snapshots).1.flatten, ∃ s ∈ snapshots, row ∈ s.rows) ∧
      ((activityPages rawLimit snapshots).2 → ∀ row, (∀ s ∈ snapshots, row ∈ s.rows) →
        row ∈ (activityPages rawLimit snapshots).1.flatten) := by
  have keys := fun s mem => nodup_key (distinct s mem)
  have paged := fun s mem => pages_activityPage rawLimit (keys s mem)
  refine ⟨(walk_falls behind paged keys).1, fun row mem => (passes_of_walk chain paged mem).1, ?_⟩
  intro ended row steady
  refine (mem_walk paged keys steady (fun c given => by cases given) ended).resolve_right ?_
  rintro ⟨b, -, lower, skipped⟩
  rw [Cursor.passes, decide_eq_false_iff_not] at skipped
  exact skipped lower

/-- A mailbox with an action, a rule that acts and a skip, two of them in one millisecond. -/
def busyDay : Snapshot ℕ :=
  ⟨[⟨1, 7_000_400⟩], [⟨2, 7_000_900⟩, ⟨3, 5_000_000⟩], [], [⟨4, 6_000_000⟩]⟩

theorem activity_listed_once_busyDay :
    (activityPages (some 1) [busyDay, busyDay.idle]).1.flatten.Pairwise
      (fun a b => b.key < a.key) :=
  (activity_listed_once (some 1) [busyDay, busyDay.idle] (by decide)).1

/-- Of a mailbox in which nothing happens, the pages are the whole feed. -/
theorem activity_listed_whole (rawLimit : Option ℤ) {s : Snapshot Id}
    (distinct : (s.rows.map ActivityRow.id).Nodup) {n : ℕ} (enough : s.rows.length < n) :
    (activityPages rawLimit (List.replicate n s)).2 ∧
      (activityPages rawLimit (List.replicate n s)).1.flatten =
        newestFirst ActivityRow.key s.rows :=
  walk_whole behind chain passes_of_lt
    (pages_activityPage rawLimit (nodup_key distinct)) (nodup_key distinct) enough

/-! ## The export -/

/-- A batch of `iteratePersistedActivity`: everything but the executions. -/
def persistedBatch (batchSize : ℕ) (s : Snapshot Id) (cursor : Option (Cursor Id)) :
    List (ActivityRow Id) × Option (Cursor Id) :=
  let rows := loadActivityRows s [] cursor batchSize
  let page := rows.take batchSize
  if rows.length ≤ batchSize ∨ page.length = 0 then (page, none)
  else (page, page.getLast?.map ActivityRow.cursor)

/-- A batch of `iterateExecutionActivity`, which asks for no sentinel row. -/
def executionBatch (batchSize : ℕ) (s : Snapshot Id) (cursor : Option (Cursor Id)) :
    List (ActivityRow Id) × Option (Cursor Id) :=
  let attempts := selectFeed s.executions cursor batchSize
  if attempts.length = 0 then ([], none)
  else
    let rows := projectExecutionRows attempts none
    if attempts.length < batchSize then (rows, none)
    else (rows, attempts.getLast?.map fun last => ⟨last.date, last.id⟩)

/-- The rows of both generators, merged: of two rows the newer one is yielded first. -/
def iterateActivity (batchSize : ℕ) (snapshots : List (Snapshot Id)) : List (ActivityRow Id) :=
  (walk (persistedBatch batchSize) none snapshots).1.flatten.merge
    (walk (executionBatch batchSize) none snapshots).1.flatten
    fun a b => compareActivityRowsNewestFirst a b ≤ 0

def Snapshot.executionRows (s : Snapshot Id) : List (ActivityRow Id) :=
  s.executions.map (DatedRow.toActivity .execution)

theorem persistedBatch_eq {batchSize : ℕ} (pos : 1 ≤ batchSize) (s : Snapshot Id)
    (cursor : Option (Cursor Id)) : persistedBatch batchSize s cursor =
      takePage (listActivity s.idle cursor batchSize) batchSize := by
  have same : listActivity s.idle cursor batchSize = loadActivityRows s [] cursor batchSize := by
    simp [listActivity, Snapshot.idle, selectFeed, projectExecutionRows, loadActivityRows]
  rw [same, persistedBatch, takePage]
  generalize loadActivityRows s [] cursor batchSize = rows
  have short : rows.length ≤ batchSize ∨ (rows.take batchSize).length = 0 ↔
      rows.length ≤ batchSize := by
    rw [List.length_take]
    omega
  simp only [short]
  split_ifs with le
  · rw [List.take_of_length_le le]
  · rfl

theorem pages_persistedBatch {batchSize : ℕ} (pos : 1 ≤ batchSize) {s : Snapshot Id}
    (distinct : (s.idle.rows.map ActivityRow.key).Nodup) :
    Pages ActivityRow.key Cursor.passes ActivityRow.cursor s.idle.rows
      (persistedBatch batchSize s) := by
  have pages := pages_takePage pos fun cursor => listActivity_eq distinct cursor batchSize
  simpa only [← persistedBatch_eq pos] using pages

theorem executionBatch_eq {batchSize : ℕ} (pos : 1 ≤ batchSize) (s : Snapshot Id)
    (cursor : Option (Cursor Id)) : executionBatch batchSize s cursor =
      let rows := (newestFirst ActivityRow.key
        (after Cursor.passes cursor s.executionRows)).take batchSize
      (rows, if rows.length < batchSize then none else rows.getLast?.map ActivityRow.cursor) := by
  have every (attempts : List (DatedRow Id)) : projectExecutionRows attempts none =
      attempts.map (DatedRow.toActivity .execution) :=
    congrArg (List.map _) (List.filter_eq_self.mpr fun _ _ => rfl)
  rw [Snapshot.executionRows, ← map_selectFeed, executionBatch]
  generalize selectFeed s.executions cursor batchSize = attempts
  simp only [every, List.length_map, List.getLast?_map, Option.map_map]
  split_ifs with zero short short
  · simp [List.length_eq_zero_iff.mp zero]
  · omega
  · rfl
  · rfl

theorem pages_executionBatch {batchSize : ℕ} (pos : 1 ≤ batchSize) (s : Snapshot Id) :
    Pages ActivityRow.key Cursor.passes ActivityRow.cursor s.executionRows
      (executionBatch batchSize s) :=
  pages_of_full pos (executionBatch_eq pos s)

end DeclutrMail.Listings
