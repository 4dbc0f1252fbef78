import Mathlib.Data.Int.Order.Basic
import Mathlib.Logic.Relation
import DeclutrMail.Collections.InsertionMap

/-!
# The last use of a session

`SessionsService` writes `last_used_at` when a request comes with the session, but once in an
interval at most: `lastUsedWrites` has the time of the newest write of a session. Writes are not
waited for, and after one that has failed the next request writes again.
-/

namespace DeclutrMail.Auth.LastUsed

def LAST_USED_WRITE_INTERVAL_MS : ℤ := 5 * 60 * 1000

def LAST_USED_WRITE_CACHE_MAX : ℕ := 10000

abbrev LastUsedWrites := InsertionMap String ℤ

/-- Delete the sessions whose newest write is an interval old. -/
def sweep (m : LastUsedWrites) (nowMs : ℤ) : LastUsedWrites :=
  m.entries.foldl
    (fun m e => if LAST_USED_WRITE_INTERVAL_MS ≤ nowMs - e.2 then m.delete e.1 else m) m

/-- The session goes to the end of the map. -/
def refresh (m : LastUsedWrites) (sessionId : String) (nowMs : ℤ) : LastUsedWrites :=
  (m.delete sessionId).set sessionId nowMs

def recordLastUsedWrite (m : LastUsedWrites) (sessionId : String) (nowMs : ℤ) : LastUsedWrites :=
  let m := refresh m sessionId nowMs
  if m.entries.length ≤ LAST_USED_WRITE_CACHE_MAX then m
  else (sweep m nowMs).evict LAST_USED_WRITE_CACHE_MAX

def shouldWriteLastUsed (m : LastUsedWrites) (sessionId : String) (nowMs : ℤ) :
    Bool × LastUsedWrites :=
  if (m.get sessionId).any fun previous => nowMs - previous < LAST_USED_WRITE_INTERVAL_MS then
    (false, m)
  else (true, recordLastUsedWrite m sessionId nowMs)

/-! ## An instance of the service -/

/-- `pending` has the updates that are under way and `rotating` the sessions that were rotated and
not yet recorded. `written` and `rotated` have the times that have come into the column, `started`
those of all updates, the newest first, and `dropped` the sessions that the map has forgotten
within an interval. -/
structure Service where
  clock : ℤ
  lastUsedWrites : LastUsedWrites
  pending : List (String × ℤ)
  rotating : List String
  written : List (String × ℤ)
  rotated : List (String × ℤ)
  started : List (String × ℤ)
  dropped : List String

def Service.start : Service := ⟨0, .empty, [], [], [], [], [], []⟩

/-- The sessions that a write of another one has pushed out. -/
def pushedOut (m : LastUsedWrites) (sessionId : String) (nowMs : ℤ) : List String :=
  ((refresh m sessionId nowMs).entries.filter fun e =>
    nowMs - e.2 < LAST_USED_WRITE_INTERVAL_MS ∧
      (recordLastUsedWrite m sessionId nowMs).get e.1 = none).map Prod.fst

/-- The end of `lookupByJti`, for a row that is not revoked. -/
def Service.touch (s : Service) (sessionId : String) (touchedAt : ℤ) : Service :=
  match shouldWriteLastUsed s.lastUsedWrites sessionId touchedAt with
  | (false, lastUsedWrites) => { s with clock := touchedAt, lastUsedWrites }
  | (true, lastUsedWrites) =>
    { s with
      clock := touchedAt
      lastUsedWrites
      pending := (sessionId, touchedAt) :: s.pending
      started := (sessionId, touchedAt) :: s.started
      dropped := pushedOut s.lastUsedWrites sessionId touchedAt ++ s.dropped }

/-- The handler of an update that has failed. -/
def Service.failed (s : Service) (sessionId : String) (touchedAt : ℤ) : Service :=
  if s.lastUsedWrites.get sessionId = some touchedAt then
    { s with
      lastUsedWrites := s.lastUsedWrites.delete sessionId
      dropped := sessionId :: s.dropped }
  else s

/-- Requests overlap, and updates end in any order. One that fails may have been carried out. The
clock does not step back. -/
inductive Step : Service → Service → Prop
  | touch {s : Service} {now : ℤ} (later : s.clock ≤ now) (sessionId : String) :
    Step s (s.touch sessionId now)
  | land {s : Service} {sessionId : String} {touchedAt : ℤ} {others : List (String × ℤ)}
      (update : s.pending.Perm ((sessionId, touchedAt) :: others)) :
    Step s { s with pending := others, written := (sessionId, touchedAt) :: s.written }
  | fail {s : Service} {sessionId : String} {touchedAt : ℤ} {others : List (String × ℤ)}
      (update : s.pending.Perm ((sessionId, touchedAt) :: others)) (carriedOut : Bool) :
    Step s ({ s with
      pending := others
      written := if carriedOut then (sessionId, touchedAt) :: s.written
        else s.written }.failed sessionId touchedAt)
  | rotate (s : Service) (sessionId : String) (now : ℤ) :
    Step s { s with
      rotating := sessionId :: s.rotating
      written := (sessionId, now) :: s.written }
  | recordRotation {s : Service} {sessionId : String} {now : ℤ} {others : List String}
      (rotation : s.rotating.Perm (sessionId :: others)) (later : s.clock ≤ now) :
    Step s { s with
      clock := now
      lastUsedWrites := recordLastUsedWrite s.lastUsedWrites sessionId now
      rotating := others
      rotated := (sessionId, now) :: s.rotated
      dropped := pushedOut s.lastUsedWrites sessionId now ++ s.dropped }
  | revoke (s : Service) (sessionId : String) :
    Step s { s with
      lastUsedWrites := s.lastUsedWrites.delete sessionId
      dropped := sessionId :: s.dropped }

def Reachable (s : Service) : Prop := Relation.ReflTransGen Step Service.start s

/-- A time that an update under way is going to write, or that has been written. -/
def Service.Vouched (s : Service) (sessionId : String) (time : ℤ) : Prop :=
  (sessionId, time) ∈ s.pending ∨ (sessionId, time) ∈ s.written ∨ (sessionId, time) ∈ s.rotated

/-- The times of the updates of one session. -/
def times (started : List (String × ℤ)) (sessionId : String) : List ℤ :=
  (started.filter (·.1 = sessionId)).map Prod.snd

/-! ## The map -/

variable {m : LastUsedWrites} {sessionId k : String} {nowMs t : ℤ}

theorem sweep_sublist (m : LastUsedWrites) (nowMs : ℤ) :
    (sweep m nowMs).entries.Sublist m.entries := by
  have general (entries : List (String × ℤ)) (m : LastUsedWrites) : (entries.foldl
      (fun m e => if LAST_USED_WRITE_INTERVAL_MS ≤ nowMs - e.2 then m.delete e.1 else m)
      m).entries.Sublist m.entries := by
    induction entries generalizing m with
    | nil => exact List.Sublist.refl _
    | cons e entries ih =>
      refine (ih _).trans ?_
      dsimp only
      split_ifs
      · exact List.filter_sublist
      · exact List.Sublist.refl _
  exact general m.entries m

theorem record_sublist (m : LastUsedWrites) (sessionId : String) (nowMs : ℤ) :
    (recordLastUsedWrite m sessionId nowMs).entries.Sublist
      (refresh m sessionId nowMs).entries := by
  unfold recordLastUsedWrite
  dsimp only
  split_ifs
  · exact List.Sublist.refl _
  · exact (InsertionMap.evict_sublist ..).trans (sweep_sublist ..)

theorem length_record_le (m : LastUsedWrites) (sessionId : String) (nowMs : ℤ) :
    (recordLastUsedWrite m sessionId nowMs).entries.length ≤ LAST_USED_WRITE_CACHE_MAX := by
  unfold recordLastUsedWrite
  dsimp only
  split_ifs with few
  · exact few
  · exact InsertionMap.length_evict_le ..

@[simp] theorem get_refresh (m : LastUsedWrites) (sessionId k : String) (nowMs : ℤ) :
    (refresh m sessionId nowMs).get k = if sessionId = k then some nowMs else m.get k := by
  rw [refresh, InsertionMap.get_set, InsertionMap.get_delete]
  split_ifs <;> rfl

/-- What is in the map after a record is the record, or was there before. -/
theorem get_record (found : (recordLastUsedWrite m sessionId nowMs).get k = some t) :
    k = sessionId ∧ t = nowMs ∨ m.get k = some t := by
  have before := InsertionMap.get_of_sublist (record_sublist m sessionId nowMs) found
  rw [get_refresh] at before
  split_ifs at before with same
  · exact .inl ⟨same.symm, (Option.some.inj before).symm⟩
  · exact .inr before

/-- What is not pushed out stays, unless it is an interval old. -/
theorem record_keeps (kept : k ∉ pushedOut m sessionId nowMs)
    (found : (refresh m sessionId nowMs).get k = some t) :
    (recordLastUsedWrite m sessionId nowMs).get k = some t ∨
      t + LAST_USED_WRITE_INTERVAL_MS ≤ nowMs := by
  cases after : (recordLastUsedWrite m sessionId nowMs).get k with
  | some t' =>
    have before := InsertionMap.get_of_sublist (record_sublist m sessionId nowMs) after
    rw [found] at before
    exact .inl before.symm
  | none =>
    by_contra young
    rw [not_or, not_le] at young
    refine kept (List.mem_map.mpr ⟨(k, t), List.mem_filter.mpr ?_, rfl⟩)
    exact ⟨InsertionMap.mem_entries_iff.mpr found, decide_eq_true ⟨by omega, after⟩⟩

/-- A write is skipped for one that is less than an interval old. -/
theorem shouldWrite_cases (m : LastUsedWrites) (sessionId : String) (nowMs : ℤ) :
    shouldWriteLastUsed m sessionId nowMs = (false, m) ∧
        (∃ t, m.get sessionId = some t ∧ nowMs - t < LAST_USED_WRITE_INTERVAL_MS) ∨
      shouldWriteLastUsed m sessionId nowMs = (true, recordLastUsedWrite m sessionId nowMs) ∧
        ∀ t, m.get sessionId = some t → LAST_USED_WRITE_INTERVAL_MS ≤ nowMs - t := by
  unfold shouldWriteLastUsed
  split_ifs with young
  · simp only [Option.any_eq_true, decide_eq_true_eq] at young
    exact .inl ⟨rfl, young⟩
  · refine .inr ⟨rfl, fun t found => ?_⟩
    rw [found, Option.any_some, decide_eq_true_eq, not_lt] at young
    exact young

/-! ## Runs -/

structure Sound (s : Service) : Prop where
  few : s.lastUsedWrites.entries.length ≤ LAST_USED_WRITE_CACHE_MAX
  vouched : ∀ k t, s.lastUsedWrites.get k = some t → s.Vouched k t
  past : ∀ k t, (k, t) ∈ s.started → t ≤ s.clock
  paced : ∀ k t, k ∉ s.dropped → (k, t) ∈ s.started →
    (∃ t', s.lastUsedWrites.get k = some t' ∧ t ≤ t') ∨
      t + LAST_USED_WRITE_INTERVAL_MS ≤ s.clock
  apart : ∀ k, k ∉ s.dropped →
    (times s.started k).Pairwise fun later earlier => LAST_USED_WRITE_INTERVAL_MS ≤ later - earlier

variable {s s' : Service}

/-- A write that is recorded keeps the pace of all updates. -/
theorem Sound.paced_record (sound : Sound s) (later : s.clock ≤ nowMs)
    (kept : k ∉ pushedOut s.lastUsedWrites sessionId nowMs ++ s.dropped)
    (mem : (k, t) ∈ s.started) :
    (∃ t', (recordLastUsedWrite s.lastUsedWrites sessionId nowMs).get k = some t' ∧ t ≤ t') ∨
      t + LAST_USED_WRITE_INTERVAL_MS ≤ nowMs := by
  rw [List.mem_append, not_or] at kept
  have refreshed : (∃ t', (refresh s.lastUsedWrites sessionId nowMs).get k = some t' ∧ t ≤ t') ∨
      t + LAST_USED_WRITE_INTERVAL_MS ≤ s.clock := by
    rw [get_refresh]
    split_ifs with same
    · exact .inl ⟨nowMs, rfl, le_trans (sound.past k t mem) later⟩
    · exact sound.paced k t kept.2 mem
  rcases refreshed with ⟨t', found, le⟩ | old
  · rcases record_keeps kept.1 found with found | old
    · exact .inl ⟨t', found, le⟩
    · exact .inr (by omega)
  · exact .inr (by omega)

/-- A record keeps the invariant, if its time is vouched for. -/
theorem Sound.record (sound : Sound s) (later : s.clock ≤ nowMs) {pending rotated}
    {rotating : List String}
    (still : ∀ k t, s.Vouched k t → Service.Vouched { s with pending, rotated } k t)
    (own : Service.Vouched { s with pending, rotated } sessionId nowMs) :
    Sound { s with
      clock := nowMs
      lastUsedWrites := recordLastUsedWrite s.lastUsedWrites sessionId nowMs
      pending
      rotating
      rotated
      dropped := pushedOut s.lastUsedWrites sessionId nowMs ++ s.dropped } where
  few := length_record_le ..
  vouched k t found := by
    rcases get_record found with ⟨rfl, rfl⟩ | before
    · exact own
    · exact still k t (sound.vouched k t before)
  past k t mem := le_trans (sound.past k t mem) later
  paced k t kept mem := sound.paced_record later kept mem
  apart k kept := sound.apart k fun mem => kept (List.mem_append_right _ mem)

/-- A session that is deleted from the map may be written again at once. -/
theorem Sound.drop (sound : Sound s) (sessionId : String) :
    Sound { s with
      lastUsedWrites := s.lastUsedWrites.delete sessionId
      dropped := sessionId :: s.dropped } where
  few := Nat.le_trans (List.length_filter_le _ _) sound.few
  vouched k t found := by
    rw [InsertionMap.get_delete] at found
    split_ifs at found
    exact sound.vouched k t found
  past := sound.past
  paced k t kept mem := by
    rw [List.mem_cons, not_or] at kept
    dsimp only
    rw [InsertionMap.get_delete, if_neg (Ne.symm kept.1)]
    exact sound.paced k t kept.2 mem
  apart k kept := sound.apart k fun mem => kept (List.mem_cons_of_mem _ mem)

/-- An update that the map does not know may fail. -/
theorem Sound.lose (sound : Sound s) {others : List (String × ℤ)}
    (update : s.pending.Perm ((sessionId, t) :: others)) (carriedOut : Bool)
    (unknown : s.lastUsedWrites.get sessionId ≠ some t) :
    Sound { s with
      pending := others
      written := if carriedOut then (sessionId, t) :: s.written else s.written } := by
  refine { sound with vouched := fun k t' found => ?_ }
  rcases sound.vouched k t' found with pending | written | rotated
  · rcases List.mem_cons.mp (update.mem_iff.mp pending) with same | other
    · obtain ⟨rfl, rfl⟩ := Prod.mk.inj same
      exact absurd found unknown
    · exact .inl other
  · refine .inr (.inl ?_)
    cases carriedOut with
    | false => exact written
    | true => exact List.mem_cons_of_mem _ written
  · exact .inr (.inr rotated)

theorem times_cons (started : List (String × ℤ)) (sessionId k : String) (t : ℤ) :
    times ((sessionId, t) :: started) k =
      if sessionId = k then t :: times started k else times started k := by
  unfold times
  rw [List.filter_cons]
  split_ifs <;> simp_all

theorem mem_times {started : List (String × ℤ)} : t ∈ times started k ↔ (k, t) ∈ started := by
  simp [times]

theorem Sound.touch (sound : Sound s) (later : s.clock ≤ nowMs) (sessionId : String) :
    Sound (s.touch sessionId nowMs) := by
  rcases shouldWrite_cases s.lastUsedWrites sessionId nowMs with ⟨skip, -⟩ | ⟨write, gap⟩
  · rw [Service.touch, skip]
    refine { sound with
      past := fun k t mem => le_trans (sound.past k t mem) later
      paced := fun k t kept mem => ?_ }
    exact (sound.paced k t kept mem).imp_right fun old => le_trans old later
  · rw [Service.touch, write]
    have recorded : Sound { s with
        clock := nowMs
        lastUsedWrites := recordLastUsedWrite s.lastUsedWrites sessionId nowMs
        pending := (sessionId, nowMs) :: s.pending
        dropped := pushedOut s.lastUsedWrites sessionId nowMs ++ s.dropped } :=
      sound.record later (fun k t => Or.imp_left (List.mem_cons_of_mem _))
        (.inl List.mem_cons_self)
    refine { recorded with
      past := fun k t mem => ?_
      paced := fun k t kept mem => ?_
      apart := fun k kept => ?_ }
    · rcases List.mem_cons.mp mem with same | before
      · exact (Prod.mk.inj same).2.le
      · exact recorded.past k t before
    · rcases List.mem_cons.mp mem with same | before
      · obtain ⟨rfl, rfl⟩ := Prod.mk.inj same
        have refreshed : (refresh s.lastUsedWrites k t).get k = some t := by simp
        have kept := fun there => kept (List.mem_append_left s.dropped there)
        exact (record_keeps kept refreshed).imp_left fun found => ⟨t, found, le_rfl⟩
      · exact recorded.paced k t kept before
    · dsimp only
      rw [times_cons]
      split_ifs with same
      · subst same
        refine List.pairwise_cons.mpr ⟨fun earlier mem => ?_, recorded.apart sessionId kept⟩
        have kept := fun there => kept (List.mem_append_right _ there)
        rcases sound.paced sessionId earlier kept (mem_times.mp mem) with ⟨t', found, le⟩ | old
        · have := gap t' found
          omega
        · omega
      · exact recorded.apart k kept

theorem Sound.step (sound : Sound s) (step : Step s s') : Sound s' := by
  cases step with
  | touch later sessionId => exact sound.touch later sessionId
  | land update =>
    refine { sound with vouched := fun k t found => ?_ }
    rcases sound.vouched k t found with pending | written | rotated
    · rcases List.mem_cons.mp (update.mem_iff.mp pending) with same | other
      · exact .inr (.inl (same ▸ List.mem_cons_self))
      · exact .inl other
    · exact .inr (.inl (List.mem_cons_of_mem _ written))
    · exact .inr (.inr rotated)
  | @fail sessionId touchedAt others update carriedOut =>
    by_cases newest : s.lastUsedWrites.get sessionId = some touchedAt
    · rw [Service.failed, if_pos newest]
      refine (sound.drop sessionId).lose update carriedOut ?_
      simp
    · rw [Service.failed, if_neg newest]
      exact sound.lose update carriedOut newest
  | rotate sessionId now =>
    refine { sound with vouched := fun k t found => ?_ }
    exact (sound.vouched k t found).imp_right (Or.imp_left (List.mem_cons_of_mem _))
  | recordRotation rotation later =>
    exact sound.record later (fun k t => Or.imp_right (Or.imp_right (List.mem_cons_of_mem _)))
      (.inr (.inr List.mem_cons_self))
  | revoke sessionId => exact sound.drop sessionId

theorem sound_of_reachable (reachable : Reachable s) : Sound s := by
  induction reachable with
  | refl => exact ⟨Nat.zero_le _, nofun, nofun, nofun, fun _ _ => List.Pairwise.nil⟩
  | tail _ step ih => exact ih.step step

/-- A touch at any time leaves a write less than an interval older that is under way or done. -/
theorem Sound.vouched_touch (sound : Sound s) (sessionId : String) (nowMs : ℤ) : ∃ t,
    nowMs - t < LAST_USED_WRITE_INTERVAL_MS ∧ (s.touch sessionId nowMs).Vouched sessionId t := by
  rcases shouldWrite_cases s.lastUsedWrites sessionId nowMs with
    ⟨skip, t, found, young⟩ | ⟨write, -⟩
  · rw [Service.touch, skip]
    exact ⟨t, young, sound.vouched sessionId t found⟩
  · rw [Service.touch, write]
    exact ⟨nowMs, by rw [Int.sub_self]; decide, .inl List.mem_cons_self⟩

/-- However requests overlap and updates fail, the map stays within its bound, a touch is skipped
only for a write that is less than an interval old and under way or done, and the updates of a
session that the map has not forgotten are an interval apart. -/
theorem touches_of_reachable (reachable : Reachable s) :
    s.lastUsedWrites.entries.length ≤ LAST_USED_WRITE_CACHE_MAX ∧
      (∀ sessionId nowMs, ∃ t, nowMs - t < LAST_USED_WRITE_INTERVAL_MS ∧
        (s.touch sessionId nowMs).Vouched sessionId t) ∧
      ∀ sessionId, sessionId ∉ s.dropped → (times s.started sessionId).Pairwise
        fun later earlier => LAST_USED_WRITE_INTERVAL_MS ≤ later - earlier :=
  have sound := sound_of_reachable reachable
  ⟨sound.few, sound.vouched_touch, sound.apart⟩

/-- After the first request of a session. -/
def firstTouch : Service := Service.start.touch "a" 0

theorem touches_of_reachable_firstTouch : firstTouch.lastUsedWrites.entries.length ≤ 10000 ∧
    ∃ t, 1000 - t < LAST_USED_WRITE_INTERVAL_MS ∧ (firstTouch.touch "a" 1000).Vouched "a" t := by
  have reachable : Reachable firstTouch := Relation.ReflTransGen.single (.touch le_rfl "a")
  have touches := touches_of_reachable reachable
  exact ⟨touches.1, touches.2.1 "a" 1000⟩

end DeclutrMail.Auth.LastUsed
