import DeclutrMail.Listings.ActivityFeed

/-!
# The security log

`SecurityEventsReadService` lists the security events from the newest down. It orders them by the
microsecond, but the cursor that the controller makes of a page's last row has the millisecond. The
events of that millisecond are not all found again on the next page.
-/

namespace DeclutrMail.Listings

open Keyset

variable {Id : Type*} [LinearOrder Id]

inductive SecurityEventSeverity
  | info | warning | critical
  deriving DecidableEq

/-- `occurredAt` is in microseconds since 1970. -/
structure SecurityEventRow (Id : Type*) where
  id : Id
  eventType : String
  severity : SecurityEventSeverity
  occurredAt : ℤ

/-- The dates are in milliseconds. -/
structure ListSecurityEventsFilters where
  severity : Option SecurityEventSeverity
  eventType : Option String
  fromDate : Option ℤ
  toDate : Option ℤ

def SECURITY_EVENTS_LIMIT : LimitBounds := ⟨50, 1, 200⟩

def ListSecurityEventsFilters.meets (filters : ListSecurityEventsFilters)
    (row : SecurityEventRow Id) : Bool :=
  filters.severity.all (fun severity => row.severity = severity) &&
    filters.eventType.all (fun eventType => eventType = "" || row.eventType = eventType) &&
    filters.fromDate.all (fun date => date * 1000 ≤ row.occurredAt) &&
    filters.toDate.all fun date => row.occurredAt ≤ date * 1000

def beforeCursor (cursor : Cursor Id) (row : SecurityEventRow Id) : Bool :=
  let cursorTime := cursor.occurredAt * 1000
  row.occurredAt < cursorTime || (row.occurredAt = cursorTime && row.id < cursor.id)

/-- `ORDER BY occurred_at DESC, id DESC LIMIT limit` -/
def listSecurityEvents (log : List (SecurityEventRow Id)) (filters : ListSecurityEventsFilters)
    (limit : ℕ) (cursor : Option (Cursor Id)) : List (SecurityEventRow Id) :=
  ((log.filter fun row => filters.meets row && cursor.all (beforeCursor · row)).mergeSort
    fun a b => b.occurredAt < a.occurredAt || (b.occurredAt = a.occurredAt && b.id ≤ a.id)).take
      limit

def SecurityEventRow.cursor (row : SecurityEventRow Id) : Cursor Id :=
  ⟨row.occurredAt / 1000, row.id⟩

/-- What the controller answers to a request. A page that is full has a cursor. -/
def securityEventsPage (rawLimit : Option ℤ) (filters : ListSecurityEventsFilters)
    (log : List (SecurityEventRow Id)) (cursor : Option (Cursor Id)) :
    List (SecurityEventRow Id) × Option (Cursor Id) :=
  let clampedLimit := (clampLimit rawLimit SECURITY_EVENTS_LIMIT).toNat
  let rows := listSecurityEvents log filters clampedLimit cursor
  (rows, if rows.length < clampedLimit then none else rows.getLast?.map SecurityEventRow.cursor)

/-- The pages that an operator gets who follows the cursors, with the log as each request finds
it. -/
def securityEventsPages (rawLimit : Option ℤ) (filters : ListSecurityEventsFilters)
    (logs : List (List (SecurityEventRow Id))) : List (List (SecurityEventRow Id)) × Bool :=
  walk (securityEventsPage rawLimit filters) none logs

/-! ## The order of the log -/

def SecurityEventRow.key (row : SecurityEventRow Id) : ℤ ×ₗ Id := toLex (row.occurredAt, row.id)

theorem event_key_lt_iff {a b : SecurityEventRow Id} :
    a.key < b.key ↔ a.occurredAt < b.occurredAt ∨ a.occurredAt = b.occurredAt ∧ a.id < b.id :=
  Prod.Lex.toLex_lt_toLex

theorem event_key_le_iff {a b : SecurityEventRow Id} :
    a.key ≤ b.key ↔ a.occurredAt < b.occurredAt ∨ a.occurredAt = b.occurredAt ∧ a.id ≤ b.id :=
  Prod.Lex.toLex_le_toLex

theorem beforeCursor_iff {cursor : Cursor Id} {row : SecurityEventRow Id} :
    beforeCursor cursor row ↔ row.occurredAt < cursor.occurredAt * 1000 ∨
      row.occurredAt = cursor.occurredAt * 1000 ∧ row.id < cursor.id := by
  simp [beforeCursor]

theorem event_behind (b x : SecurityEventRow Id) (past : beforeCursor b.cursor x) :
    x.key < b.key := by
  rw [beforeCursor_iff] at past
  rw [event_key_lt_iff]
  simp only [SecurityEventRow.cursor] at past
  rcases past with earlier | ⟨same, lower⟩
  · exact .inl (by omega)
  · by_cases whole : b.occurredAt = b.occurredAt / 1000 * 1000
    · exact .inr ⟨by omega, lower⟩
    · exact .inl (by omega)

theorem event_chain (c : Cursor Id) (b x : SecurityEventRow Id) (first : beforeCursor c b)
    (past : beforeCursor b.cursor x) : beforeCursor c x := by
  rw [beforeCursor_iff] at first past ⊢
  simp only [SecurityEventRow.cursor] at past
  rcases first with earlier | ⟨same, lower⟩
  · exact .inl (by omega)
  · rcases past with before | ⟨level, below⟩
    · exact .inl (by omega)
    · exact .inr ⟨by omega, below.trans lower⟩

/-- The cursor of a row finds a row that comes after it unless it has lost it: the milliseconds of
the two are the same, and the row does not lie on it exactly with a smaller id. -/
theorem beforeCursor_cursor {b x : SecurityEventRow Id} (lower : x.key < b.key) :
    beforeCursor b.cursor x ↔
      (x.occurredAt / 1000 = b.occurredAt / 1000 → x.occurredAt % 1000 = 0 ∧ x.id < b.id) := by
  rw [event_key_lt_iff] at lower
  rw [beforeCursor_iff]
  simp only [SecurityEventRow.cursor]
  constructor
  · rintro (earlier | ⟨level, below⟩) same
    · omega
    · exact ⟨by omega, below⟩
  · intro found
    by_cases same : x.occurredAt / 1000 = b.occurredAt / 1000
    · exact .inr ⟨by have := (found same).1; omega, (found same).2⟩
    · exact .inl (by rcases lower with lower | lower <;> omega)

/-! ## Pages -/

theorem listSecurityEvents_eq (log : List (SecurityEventRow Id))
    (filters : ListSecurityEventsFilters) (limit : ℕ) (cursor : Option (Cursor Id)) :
    listSecurityEvents log filters limit cursor = (newestFirst SecurityEventRow.key
      (after beforeCursor cursor (log.filter filters.meets))).take limit := by
  have order (a b : SecurityEventRow Id) : (b.occurredAt < a.occurredAt ||
      (b.occurredAt = a.occurredAt && b.id ≤ a.id) : Bool) = decide (b.key ≤ a.key) := by
    rw [Bool.eq_iff_iff, decide_eq_true_iff, event_key_le_iff]
    simp
  simp only [listSecurityEvents, order, newestFirst, after, List.filter_filter, Bool.and_comm]

theorem pages_securityEventsPage (rawLimit : Option ℤ) (filters : ListSecurityEventsFilters)
    (log : List (SecurityEventRow Id)) :
    Pages SecurityEventRow.key beforeCursor SecurityEventRow.cursor (log.filter filters.meets)
      (securityEventsPage rawLimit filters log) := by
  have pos : 1 ≤ (clampLimit rawLimit SECURITY_EVENTS_LIMIT).toNat := by
    cases rawLimit with
    | none => decide
    | some limit =>
      simp only [clampLimit, SECURITY_EVENTS_LIMIT]
      omega
  refine pages_of_full pos fun cursor => ?_
  rw [securityEventsPage]
  simp only [listSecurityEvents_eq]

omit [LinearOrder Id] in
theorem nodup_event_key {log : List (SecurityEventRow Id)}
    (distinct : (log.map SecurityEventRow.id).Nodup) (filters : ListSecurityEventsFilters) :
    ((log.filter filters.meets).map SecurityEventRow.key).Nodup := by
  refine List.Nodup.of_map (fun k => (ofLex k).2) ?_
  rw [List.map_map]
  exact distinct.sublist (List.filter_sublist.map _)

/-- The log is listed from the newest event down, no event twice. Of the events that are there at
every request, those are listed which no page's last row shares the millisecond with, or which lie
on the millisecond exactly and have a smaller id: the others that follow such a row are lost. -/
theorem securityEvents_listed (rawLimit : Option ℤ) (filters : ListSecurityEventsFilters)
    (logs : List (List (SecurityEventRow Id)))
    (distinct : ∀ log ∈ logs, (log.map SecurityEventRow.id).Nodup) :
    (securityEventsPages rawLimit filters logs).1.flatten.Pairwise (fun a b => b.key < a.key) ∧
      (∀ row ∈ (securityEventsPages rawLimit filters logs).1.flatten,
        filters.meets row ∧ ∃ log ∈ logs, row ∈ log) ∧
      ((securityEventsPages rawLimit filters logs).2 →
        ∀ row, (∀ log ∈ logs, row ∈ log) → filters.meets row →
          (row ∈ (securityEventsPages rawLimit filters logs).1.flatten ↔
            ∀ b ∈ boundaries (securityEventsPages rawLimit filters logs).1, row.key < b.key →
              row.occurredAt / 1000 = b.occurredAt / 1000 →
                row.occurredAt % 1000 = 0 ∧ row.id < b.id)) := by
  have keys := fun log mem => nodup_event_key (distinct log mem) filters
  have paged := fun log (_ : log ∈ logs) => pages_securityEventsPage rawLimit filters log
  refine ⟨(walk_falls event_behind paged keys).1, fun row mem => ?_, fun ended row steady meets =>
    ⟨fun mem b bound lower => ?_, fun found => ?_⟩⟩
  · obtain ⟨log, of, there⟩ := (passes_of_walk event_chain paged mem).1
    exact ⟨(List.mem_filter.mp there).2, log, of, (List.mem_filter.mp there).1⟩
  · exact (beforeCursor_cursor lower).mp
      (passes_of_boundary event_behind event_chain paged keys mem bound lower)
  · refine (mem_walk paged keys (fun log mem => List.mem_filter.mpr ⟨steady log mem, meets⟩)
      (fun c given => by cases given) ended).resolve_right ?_
    rintro ⟨b, bound, lower, skipped⟩
    rw [(beforeCursor_cursor lower).mpr (found b bound lower)] at skipped
    cases skipped

/-- Two failed logins within one millisecond. -/
def failedLogins : List (SecurityEventRow ℕ) :=
  [⟨1, "login.failure", .warning, 7_000_400⟩, ⟨2, "login.failure", .warning, 7_000_900⟩]

theorem securityEvents_listed_failedLogins :
    (securityEventsPages (some 1) ⟨none, some "login.failure", none, none⟩
      [failedLogins, failedLogins]).1.flatten.Pairwise fun a b => b.key < a.key :=
  (securityEvents_listed (some 1) ⟨none, some "login.failure", none, none⟩
    [failedLogins, failedLogins] (by decide)).1

end DeclutrMail.Listings
