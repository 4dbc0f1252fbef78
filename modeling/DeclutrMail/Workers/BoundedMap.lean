import Mathlib.Data.List.Perm.Basic
import Mathlib.Data.List.Range
import Mathlib.Data.Nat.Notation
import Mathlib.Tactic.SplitIfs

/-!
# Bounded fan-out

`boundedMap` runs loops that share the next index, a flag and a slot for the failure. A loop works
on one item at a time and looks at the flag whenever it has observed how its work settled; which
works settle next, and how, is not the loops' choice. All that happens is kept in a trace.

Whatever settles in whatever order, the map drains before it settles (`Sound.run`). It rejects with
the first rejection unless the slot is filled once more, which it is as long as it holds no more
than `null` or `undefined` (`run_rejects_first_iff`).
-/

namespace DeclutrMail.Workers.BoundedMap

/-! ## Values -/

/-- What a work rejects with. -/
inductive Value (E : Type*)
  | undefined
  | null
  | other (value : E)
  deriving DecidableEq

namespace Value

variable {E : Type*}

def isNullish : Value E → Bool
  | undefined | null => true
  | other _ => false

/-- `failure ??= error` -/
def assign (failure error : Value E) : Value E := if failure.isNullish then error else failure

/-- The slot keeps what is not nullish, and of nullish values the last. -/
theorem foldl_assign_of_not_nullish {failure : Value E} (h : failure.isNullish = false)
    (errors : List (Value E)) : errors.foldl assign failure = failure := by
  induction errors with
  | nil => rfl
  | cons error errors ih => simpa [assign, h] using ih

theorem foldl_assign_of_nullish (failure : Value E) (errors : List (Value E))
    (h : ∀ error ∈ failure :: errors, error.isNullish = true) :
    some (errors.foldl assign failure) = (failure :: errors).getLast? := by
  induction errors generalizing failure with
  | nil => rfl
  | cons error errors ih =>
    rw [List.foldl_cons, assign, if_pos (h failure List.mem_cons_self),
      ih _ fun e mem => h e (List.mem_cons_of_mem _ mem), List.getLast?_cons_cons]

theorem foldl_assign_not_nullish (failure : Value E) {errors : List (Value E)}
    (h : ∃ error ∈ errors, error.isNullish = false) :
    (errors.foldl assign failure).isNullish = false := by
  induction errors generalizing failure with
  | nil => simp at h
  | cons error errors ih =>
    rw [List.foldl_cons]
    by_cases later : ∃ error ∈ errors, error.isNullish = false
    · exact ih _ later
    · have here : error.isNullish = false := by grind
      have kept : (failure.assign error).isNullish = false := by
        unfold assign
        split_ifs with nullish
        · exact here
        · simpa using nullish
      rw [foldl_assign_of_not_nullish kept]
      exact kept

/-- When the slot ends with the first of the errors that are assigned to it. -/
theorem foldl_assign_eq_self_iff (first : Value E) (rest : List (Value E)) :
    rest.foldl assign first = first ↔ first.isNullish = false ∨
      (∀ error ∈ rest, error.isNullish = true) ∧ (first :: rest).getLast? = some first := by
  cases nullish : first.isNullish with
  | false => simp [foldl_assign_of_not_nullish nullish]
  | true =>
    by_cases all : ∀ error ∈ rest, error.isNullish = true
    · have last := foldl_assign_of_nullish first rest (by simpa [nullish])
      rw [← last]
      simpa using fun _ => all
    · have kept := foldl_assign_not_nullish first (by simpa using all)
      simp only [all, false_and, or_false, Bool.true_eq_false, iff_false]
      intro same
      rw [same, nullish] at kept
      cases kept

end Value

inductive Settlement (R E : Type*)
  | fulfilled (result : R)
  | rejected (error : Value E)
  deriving DecidableEq

/-- `settled` is when the loop observes it. -/
inductive Event (R E : Type*)
  | started (index : ℕ)
  | settled (index : ℕ) (settlement : Settlement R E)
  deriving DecidableEq

variable {R E : Type*}

namespace Event

def start? : Event R E → Option ℕ
  | started index => some index
  | settled .. => none

def settle? : Event R E → Option ℕ
  | started _ => none
  | settled index _ => some index

def error? : Event R E → Option (Value E)
  | settled _ (.rejected error) => some error
  | _ => none

end Event

/-- The items that are started, in order. -/
def starts (trace : List (Event R E)) : List ℕ := trace.filterMap Event.start?

def settles (trace : List (Event R E)) : List ℕ := trace.filterMap Event.settle?

def errors (trace : List (Event R E)) : List (Value E) := trace.filterMap Event.error?

def inFlight (trace : List (Event R E)) : ℕ := (starts trace).length - (settles trace).length

/-! ## The loops -/

/-- Each loop works on an item or is over. -/
structure State (R E : Type*) where
  next : ℕ
  failed : Bool
  failure : Value E
  results : List (Option R)
  loops : List (Option ℕ)
  trace : List (Event R E)
  deriving DecidableEq

/-- The loop takes the next item or ends. -/
def advance (count : ℕ) (s : State R E) (loop : ℕ) : State R E :=
  if !s.failed && s.next < count then
    { s with
      next := s.next + 1
      loops := s.loops.set loop (some s.next)
      trace := s.trace ++ [.started s.next] }
  else { s with loops := s.loops.set loop none }

/-- The loop after its work has settled. -/
def observe (s : State R E) (index : ℕ) : Settlement R E → State R E
  | .fulfilled result =>
    { s with
      results := s.results.set index (some result)
      trace := s.trace ++ [.settled index (.fulfilled result)] }
  | .rejected error =>
    { s with
      failed := true
      failure := s.failure.assign error
      trace := s.trace ++ [.settled index (.rejected error)] }

def step (count : ℕ) (s : State R E) (loop : ℕ) (settlement : Settlement R E) :
    Option (State R E) :=
  match s.loops[loop]? with
  | some (some index) => some (advance count (observe s index settlement) loop)
  | _ => none

/-- The loops start one after the other. -/
def startLoops (count : ℕ) (s : State R E) : ℕ → State R E
  | 0 => s
  | loops + 1 =>
    let s := startLoops count s loops
    advance count { s with loops := s.loops ++ [none] } loops

def start (concurrency count : ℕ) : State R E :=
  startLoops count ⟨0, false, .undefined, .replicate count none, [], []⟩ (min concurrency count)

def run (count : ℕ) : List (ℕ × Settlement R E) → State R E → Option (State R E)
  | [], s => some s
  | (loop, settlement) :: rest, s => (step count s loop settlement).bind (run count rest)

inductive Outcome (R E : Type*)
  | resolved (results : List (Option R))
  | rejected (failure : Value E)
  deriving DecidableEq

/-- How the returned promise settles, once every loop is over. -/
def outcome (s : State R E) : Option (Outcome R E) :=
  if s.loops.all Option.isNone then
    some (if s.failed then .rejected s.failure else .resolved s.results)
  else none

/-! ## What the loops keep -/

@[simp] theorem starts_append (trace trace' : List (Event R E)) :
    starts (trace ++ trace') = starts trace ++ starts trace' := List.filterMap_append

@[simp] theorem settles_append (trace trace' : List (Event R E)) :
    settles (trace ++ trace') = settles trace ++ settles trace' := List.filterMap_append

@[simp] theorem errors_append (trace trace' : List (Event R E)) :
    errors (trace ++ trace') = errors trace ++ errors trace' := List.filterMap_append

section Singleton

variable (index : ℕ) (settlement : Settlement R E)

@[simp] theorem starts_started : starts [(.started index : Event R E)] = [index] := rfl
@[simp] theorem starts_settled : starts [.settled index settlement] = [] := rfl
@[simp] theorem settles_started : settles [(.started index : Event R E)] = [] := rfl
@[simp] theorem settles_settled : settles [.settled index settlement] = [index] := rfl
@[simp] theorem errors_started : errors [(.started index : Event R E)] = [] := rfl

@[simp] theorem errors_fulfilled (result : R) :
    errors [(.settled index (.fulfilled result) : Event R E)] = [] := rfl

@[simp] theorem errors_rejected (error : Value E) :
    errors [(.settled index (.rejected error) : Event R E)] = [error] := rfl

end Singleton

theorem mem_settles {trace : List (Event R E)} {index : ℕ} :
    index ∈ settles trace ↔ ∃ settlement, .settled index settlement ∈ trace := by
  simp only [settles, List.mem_filterMap]
  constructor
  · rintro ⟨event, mem, eq⟩
    cases event with
    | started => cases eq
    | settled i settlement =>
      cases eq
      exact ⟨settlement, mem⟩
  · rintro ⟨settlement, mem⟩
    exact ⟨_, mem, rfl⟩

theorem mem_errors {trace : List (Event R E)} {error : Value E} :
    error ∈ errors trace ↔ ∃ index, .settled index (.rejected error) ∈ trace := by
  simp only [errors, List.mem_filterMap]
  constructor
  · rintro ⟨event, mem, eq⟩
    unfold Event.error? at eq
    split at eq
    · rename_i index other
      exact ⟨index, by cases eq; exact mem⟩
    · cases eq
  · rintro ⟨index, mem⟩
    exact ⟨_, mem, rfl⟩

/-- The items that the loops are working on. -/
def working (loops : List (Option ℕ)) : List ℕ := loops.filterMap id

theorem working_set {loops : List (Option ℕ)} {loop : ℕ} (idle : loops[loop]? = some none)
    (index : ℕ) : (working (loops.set loop (some index))).Perm (index :: working loops) := by
  induction loops generalizing loop with
  | nil => simp at idle
  | cons head loops ih =>
    cases loop with
    | zero =>
      obtain rfl : head = none := by simpa using idle
      simp [working]
    | succ loop =>
      have tail := ih (show loops[loop]? = some none by simpa using idle)
      cases head with
      | none => simpa [working] using tail
      | some other =>
        simp only [working, List.set_cons_succ, List.filterMap_cons, id] at tail ⊢
        exact (tail.cons other).trans (.swap ..)

theorem working_perm {loops : List (Option ℕ)} {loop index : ℕ}
    (busy : loops[loop]? = some (some index)) :
    (working loops).Perm (index :: working (loops.set loop none)) := by
  obtain ⟨lt, at_loop⟩ := List.getElem?_eq_some_iff.mp busy
  have back : (loops.set loop none).set loop (some index) = loops := by
    rw [List.set_set, ← at_loop, List.set_getElem_self]
  have idle : (loops.set loop none)[loop]? = some none := by simp [lt]
  have := working_set idle index
  rwa [back] at this

structure Sound (width count : ℕ) (s : State R E) : Prop where
  width_eq : s.loops.length = width
  next_le : s.next ≤ count
  started : starts s.trace = List.range s.next
  settled : (settles s.trace ++ working s.loops).Perm (List.range s.next)
  failed : s.failed = !(errors s.trace).isEmpty
  failure : s.failure = (errors s.trace).foldl Value.assign .undefined
  stops : s.trace.Pairwise fun before after => before.error?.isSome = true → after.start? = none
  results_length : s.results.length = count
  results : ∀ index result, .settled index (.fulfilled result) ∈ s.trace →
    s.results[index]? = some (some result)

/-- No loop ends while there is work for it. -/
def Over (count : ℕ) (s : State R E) (loop : ℕ) : Prop :=
  s.loops[loop]? = some none → s.failed = true ∨ s.next = count

section Steps

variable {width count loop index : ℕ} {s s' : State R E}

theorem advance_loops (loop : ℕ) : advance count { s with loops := s.loops.set loop none } loop =
    advance count s loop := by
  unfold advance
  split_ifs <;> simp

namespace Sound

variable (sound : Sound width count s)
include sound

theorem errors_eq_nil (fine : s.failed = false) : errors s.trace = [] := by
  simpa [sound.failed] using fine

/-- A loop that is free takes the next item, unless a rejection has been observed. -/
theorem advance (idle : s.loops[loop]? = some none) :
    Sound width count (BoundedMap.advance count s loop) := by
  unfold BoundedMap.advance
  split_ifs with starts
  · obtain ⟨fine, more⟩ : s.failed = false ∧ s.next < count := by simpa using starts
    have clean := sound.errors_eq_nil fine
    refine ⟨by simpa using sound.width_eq, more, ?_, ?_, ?_, ?_, ?_, sound.results_length, ?_⟩
    · rw [starts_append, sound.started, starts_started, List.range_succ]
    · rw [settles_append, settles_started, List.append_nil, List.range_succ]
      calc List.Perm (settles s.trace ++ working (s.loops.set loop (some s.next)))
            (settles s.trace ++ s.next :: working s.loops) :=
          (working_set idle s.next).append_left _
        List.Perm _ (s.next :: (settles s.trace ++ working s.loops)) := List.perm_middle
        List.Perm _ (s.next :: List.range s.next) := sound.settled.cons _
        List.Perm _ (List.range s.next ++ [s.next]) := (List.perm_append_singleton ..).symm
    · simpa using sound.failed
    · simpa using sound.failure
    · refine List.pairwise_append.mpr ⟨sound.stops, List.pairwise_singleton .., ?_⟩
      intro before mem _ _ rejected
      obtain ⟨error, is_error⟩ := Option.isSome_iff_exists.mp rejected
      have : error ∈ errors s.trace := List.mem_filterMap.mpr ⟨before, mem, is_error⟩
      simp [clean] at this
    · intro index result mem
      exact sound.results index result (by simpa using mem)
  · have same : s.loops.set loop none = s.loops := by
      obtain ⟨lt, at_loop⟩ := List.getElem?_eq_some_iff.mp idle
      rw [← at_loop, List.set_getElem_self]
    rw [same]
    exact sound

/-- A loop observes how its work settled. -/
theorem observe (busy : s.loops[loop]? = some (some index)) (settlement : Settlement R E) :
    Sound width count { BoundedMap.observe s index settlement with
      loops := s.loops.set loop none } := by
  have fresh : index ∉ settles s.trace := by
    have nodup := sound.settled.nodup_iff.mpr List.nodup_range
    have mem : index ∈ working s.loops := (working_perm busy).mem_iff.mpr List.mem_cons_self
    exact fun old => (List.nodup_append.mp nodup).2.2 index old index mem rfl
  have settled (trace : List (Event R E)) (eq : settles trace = settles s.trace ++ [index]) :
      (settles trace ++ working (s.loops.set loop none)).Perm (List.range s.next) := by
    rw [eq, List.append_assoc, List.singleton_append]
    exact ((working_perm busy).symm.append_left _).trans sound.settled
  have stops (settlement : Settlement R E) : (s.trace ++ [Event.settled index settlement]).Pairwise
      fun before after => before.error?.isSome = true → after.start? = none := by
    refine List.pairwise_append.mpr ⟨sound.stops, List.pairwise_singleton .., ?_⟩
    intro _ _ after mem _
    rw [List.mem_singleton.mp mem]
    rfl
  cases settlement with
  | fulfilled result =>
    refine ⟨by simpa using sound.width_eq, sound.next_le, ?_,
      settled _ (by simp [BoundedMap.observe]), ?_, ?_, stops _, ?_, ?_⟩
    · simpa [BoundedMap.observe] using sound.started
    · simpa [BoundedMap.observe] using sound.failed
    · simpa [BoundedMap.observe] using sound.failure
    · simpa [BoundedMap.observe] using sound.results_length
    · intro i r mem
      change (s.results.set index (some result))[i]? = some (some r)
      rcases List.mem_append.mp mem with old | new
      · have ne : index ≠ i := by
          rintro rfl
          exact fresh (mem_settles.mpr ⟨_, old⟩)
        rw [List.getElem?_set_ne ne]
        exact sound.results i r old
      · obtain ⟨rfl, same⟩ := (Event.settled.injEq ..).mp (List.mem_singleton.mp new)
        cases same
        have lt : i < s.results.length := by
          have mem : i ∈ List.range s.next := sound.settled.mem_iff.mp
            (List.mem_append_right _ ((working_perm busy).mem_iff.mpr List.mem_cons_self))
          rw [sound.results_length]
          exact (List.mem_range.mp mem).trans_le sound.next_le
        simp [lt]
  | rejected error =>
    refine ⟨by simpa using sound.width_eq, sound.next_le, ?_,
      settled _ (by simp [BoundedMap.observe]), ?_, ?_, stops _, sound.results_length, ?_⟩
    · simpa [BoundedMap.observe] using sound.started
    · simp [BoundedMap.observe]
    · simp [BoundedMap.observe, sound.failure]
    · intro i r mem
      exact sound.results i r (by simpa [BoundedMap.observe] using mem)

/-- One more loop, that has not taken an item yet. -/
theorem extend : Sound (width + 1) count { s with loops := s.loops ++ [none] } :=
  { sound with
    width_eq := by simp [sound.width_eq]
    settled := by simpa [working] using sound.settled }

theorem over_advance (idle : s.loops[loop]? = some none)
    (past : ∀ other, other ≠ loop → Over count s other) (other : ℕ) :
    Over count (BoundedMap.advance count s loop) other := by
  have most := sound.next_le
  unfold BoundedMap.advance Over
  split_ifs with starts
  · obtain ⟨fine, more⟩ : s.failed = false ∧ s.next < count := by simpa using starts
    intro ended
    have ne : other ≠ loop := by
      rintro rfl
      rw [List.getElem?_set_self (List.getElem?_eq_some_iff.mp idle).1] at ended
      cases ended
    rw [List.getElem?_set_ne ne.symm] at ended
    rcases past other ne ended with failed | whole
    · rw [fine] at failed
      cases failed
    · omega
  · intro ended
    have ends : s.failed = true ∨ s.next = count := by
      by_cases failed : s.failed = true
      · exact .inl failed
      · simp [failed] at starts
        omega
    exact ends

theorem step_over (past : ∀ other, Over count s other) {settlement : Settlement R E}
    (h : step count s loop settlement = some s') :
    Sound width count s' ∧ ∀ other, Over count s' other := by
  unfold step at h
  split at h
  · rename_i index busy
    rw [← advance_loops] at h
    obtain rfl := Option.some.inj h
    have observed := sound.observe busy settlement
    have loops : (BoundedMap.observe s index settlement).loops = s.loops := by
      cases settlement <;> rfl
    rw [loops]
    have idle : (s.loops.set loop none)[loop]? = some none := by
      simp [(List.getElem?_eq_some_iff.mp busy).1]
    refine ⟨observed.advance idle, observed.over_advance idle fun other ne ended => ?_⟩
    rw [List.getElem?_set_ne ne.symm] at ended
    rcases past other ended with failed | whole
    · cases settlement
      · exact .inl failed
      · exact .inl rfl
    · cases settlement <;> exact .inr whole
  · cases h

end Sound

theorem sound_startLoops (count loops : ℕ) :
    let s : State R E :=
      startLoops count ⟨0, false, .undefined, .replicate count none, [], []⟩ loops
    Sound loops count s ∧ ∀ other, Over count s other := by
  induction loops with
  | zero =>
    refine ⟨⟨rfl, Nat.zero_le _, rfl, .refl _, rfl, rfl, .nil, by simp [startLoops], nofun⟩, ?_⟩
    intro other ended
    simp [startLoops] at ended
  | succ loops ih =>
    obtain ⟨sound, past⟩ := ih
    have idle : ((startLoops count (⟨0, false, .undefined, .replicate count none, [], []⟩ :
        State R E) loops).loops ++ [none])[loops]? = some none := by
      rw [List.getElem?_append_right sound.width_eq.le, sound.width_eq, Nat.sub_self]
      rfl
    refine ⟨sound.extend.advance idle, sound.extend.over_advance idle fun other ne ended => ?_⟩
    refine past other ?_
    dsimp only at ended
    rcases lt_or_ge other loops with lt | ge
    · rwa [List.getElem?_append_left (by rw [sound.width_eq]; exact lt)] at ended
    · rw [List.getElem?_eq_none (by simp [sound.width_eq]; omega)] at ended
      cases ended

theorem sound_run {events : List (ℕ × Settlement R E)} (sound : Sound width count s)
    (past : ∀ other, Over count s other) (h : run count events s = some s') :
    Sound width count s' ∧ ∀ other, Over count s' other := by
  induction events generalizing s with
  | nil =>
    obtain rfl := Option.some.inj h
    exact ⟨sound, past⟩
  | cons event events ih =>
    obtain ⟨next, first, rest⟩ := Option.bind_eq_some_iff.mp h
    obtain ⟨sound', past'⟩ := sound.step_over past first
    exact ih sound' past' rest

end Steps

/-! ## The map -/

/-- All that the map promises but which failure it rejects with. -/
structure Drains (concurrency count : ℕ) (s : State R E) : Prop where
  bounded : inFlight s.trace ≤ concurrency
  ordered : ∃ next ≤ count, starts s.trace = List.range next
  stops : s.trace.Pairwise fun before after => before.error?.isSome = true → after.start? = none
  drained : ∀ settled, outcome s = some settled → inFlight s.trace = 0
  resolves : ∀ settled, outcome s = some settled →
    ((∃ results, settled = .resolved results) ↔ errors s.trace = [])
  results : ∀ results, outcome s = some (.resolved results) → results.length = count ∧
    ∀ index < count, ∃ result, results[index]? = some (some result) ∧
      .settled index (.fulfilled result) ∈ s.trace

section Map

variable {concurrency count : ℕ} {s : State R E}

theorem inFlight_eq {width : ℕ} (sound : Sound width count s) :
    inFlight s.trace = (working s.loops).length := by
  have := sound.settled.length_eq
  rw [List.length_append, List.length_range] at this
  rw [inFlight, sound.started, List.length_range]
  omega

theorem working_of_outcome {settled : Outcome R E} (h : outcome s = some settled) :
    working s.loops = [] ∧ (∀ loop ∈ s.loops, loop = none) ∧
      settled = if s.failed then .rejected s.failure else .resolved s.results := by
  unfold outcome at h
  by_cases past : s.loops.all Option.isNone = true
  · rw [if_pos past] at h
    have all : ∀ loop ∈ s.loops, loop = none := by simpa using past
    refine ⟨List.filterMap_eq_nil_iff.mpr fun loop mem => by rw [all loop mem]; rfl, all, ?_⟩
    exact (Option.some.inj h).symm
  · rw [if_neg past] at h
    cases h

variable (pos : 1 ≤ concurrency) (sound : Sound (min concurrency count) count s)
  (past : ∀ loop, Over count s loop)
include sound

theorem resolved_iff {settled : Outcome R E} (h : outcome s = some settled) :
    (∃ results, settled = .resolved results) ↔ errors s.trace = [] := by
  obtain ⟨-, -, rfl⟩ := working_of_outcome h
  rw [sound.failed]
  cases errors s.trace <;> simp

include pos past

/-- When every loop is over and none has failed, there is no item left. -/
theorem next_eq {settled : Outcome R E} (h : outcome s = some settled) (fine : s.failed = false) :
    s.next = count := by
  obtain ⟨-, all, -⟩ := working_of_outcome h
  have most := sound.next_le
  have width := sound.width_eq
  rcases Nat.eq_zero_or_pos count with empty | more
  · omega
  · have ended : s.loops[0]? = some none := by
      have lt : 0 < s.loops.length := by omega
      rw [List.getElem?_eq_getElem lt, all _ (List.getElem_mem lt)]
    rcases past 0 ended with failed | whole
    · rw [fine] at failed
      cases failed
    · exact whole

theorem drains : Drains concurrency count s where
  bounded := by
    have width := sound.width_eq
    have busy : (working s.loops).length ≤ s.loops.length := List.length_filterMap_le ..
    rw [inFlight_eq sound]
    omega
  ordered := ⟨s.next, sound.next_le, sound.started⟩
  stops := sound.stops
  drained settled h := by rw [inFlight_eq sound, (working_of_outcome h).1, List.length_nil]
  resolves settled h := resolved_iff sound h
  results results h := by
    have clean := (resolved_iff sound h).mp ⟨results, rfl⟩
    have fine : s.failed = false := by rw [sound.failed, clean]; rfl
    obtain ⟨idle, -, eq⟩ := working_of_outcome h
    rw [fine] at eq
    cases eq
    refine ⟨sound.results_length, fun index lt => ?_⟩
    have settled := sound.settled
    rw [idle, List.append_nil, next_eq pos sound past h fine] at settled
    obtain ⟨settlement, mem⟩ := mem_settles.mp (settled.mem_iff.mpr (List.mem_range.mpr lt))
    cases settlement with
    | fulfilled result => exact ⟨result, sound.results index result mem, mem⟩
    | rejected error =>
      have := mem_errors.mpr ⟨index, mem⟩
      simp [clean] at this

end Map

/-- Every run drains before it settles. It rejects with the first rejection iff that one is neither
`null` nor `undefined`, or all that follow are and the last is the same. -/
theorem run_rejects_first_iff {concurrency count : ℕ} (pos : 1 ≤ concurrency)
    {events : List (ℕ × Settlement R E)} {s : State R E}
    (ran : run count events (start concurrency count) = some s) :
    (Drains concurrency count s ∧ ∀ failure, outcome s = some (.rejected failure) →
      (errors s.trace).head? = some failure) ↔
    ((outcome s).isSome = true → ∀ first rest, errors s.trace = first :: rest →
      first.isNullish = false ∨
        (∀ error ∈ rest, error.isNullish = true) ∧ (first :: rest).getLast? = some first) := by
  obtain ⟨started, started_over⟩ := sound_startLoops (R := R) (E := E) count (min concurrency count)
  obtain ⟨sound, past⟩ := sound_run started started_over ran
  have kept (first rest) (rejections : errors s.trace = first :: rest) :
      s.failed = true ∧ s.failure = rest.foldl Value.assign first := by
    rw [sound.failed, sound.failure, rejections]
    exact ⟨rfl, rfl⟩
  constructor
  · rintro ⟨-, first_kept⟩ ended first rest rejections
    obtain ⟨failed, failure⟩ := kept first rest rejections
    obtain ⟨settled, h⟩ := Option.isSome_iff_exists.mp ended
    obtain ⟨-, -, rfl⟩ := working_of_outcome h
    rw [failed] at h
    have same := first_kept _ h
    rw [rejections, failure] at same
    exact (Value.foldl_assign_eq_self_iff first rest).mp (Option.some.inj same).symm
  · intro condition
    refine ⟨drains pos sound past, fun failure h => ?_⟩
    cases rejections : errors s.trace with
    | nil =>
      obtain ⟨results, same⟩ := (resolved_iff sound h).mpr rejections
      cases same
    | cons first rest =>
      obtain ⟨failed, slot⟩ := kept first rest rejections
      obtain ⟨-, -, eq⟩ := working_of_outcome h
      rw [failed] at eq
      cases eq
      rw [slot]
      have first_kept := (Value.foldl_assign_eq_self_iff first rest).mpr
        (condition (by rw [h]; rfl) first rest rejections)
      rw [first_kept]
      rfl

/-- Three items on two loops: the second work rejects first, so the third item is not started. -/
theorem run_rejects_first_iff_sample : ∃ s : State ℕ ℕ,
    run 3 [(1, .rejected (.other 7)), (0, .fulfilled 5)] (start 2 3) = some s ∧
    outcome s = some (.rejected (.other 7)) ∧
    ((Drains 2 3 s ∧ ∀ failure, outcome s = some (.rejected failure) →
      (errors s.trace).head? = some failure) ↔
    ((outcome s).isSome = true → ∀ first rest, errors s.trace = first :: rest →
      first.isNullish = false ∨
        (∀ error ∈ rest, error.isNullish = true) ∧ (first :: rest).getLast? = some first)) :=
  ⟨_, rfl, rfl, run_rejects_first_iff (by decide) (show run 3 [(1, .rejected (.other 7)),
    (0, .fulfilled 5)] (start 2 3) = some _ from rfl)⟩

/-- A first rejection with `undefined` gives way to the next. -/
theorem run_rejects_later :
    ¬ ∀ (concurrency count : ℕ) (events : List (ℕ × Settlement ℕ ℕ)) (s : State ℕ ℕ),
      1 ≤ concurrency → run count events (start concurrency count) = some s →
      Drains concurrency count s ∧ ∀ failure, outcome s = some (.rejected failure) →
        (errors s.trace).head? = some failure := by
  intro first
  have later := (first 2 2 [(0, .rejected .undefined), (1, .rejected (.other 7))] _ (by decide)
    rfl).2 (.other 7) rfl
  revert later
  decide

end DeclutrMail.Workers.BoundedMap
