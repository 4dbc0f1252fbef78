import Mathlib.Data.List.Range
import Mathlib.Data.Nat.Notation
import Mathlib.Logic.Function.Basic
import Mathlib.Tactic.SplitIfs
import Mathlib.Algebra.GroupWithZero.Nat

/-!
# The concurrency limiter

`createLimiter` starts a task at once while a slot is free, and puts it in a queue otherwise. A task
may submit others while it is being called, so the calls that are under way are a stack. Its promise
settles when the task chooses; that the caller's promise takes the outcome over and that the slot
is released are two callbacks, which run when no call is under way.

The slot is released by the promise of the task. A task that throws has none, and keeps its slot
(`run_keeps_slots_iff`).
-/

namespace DeclutrMail.Workers.Limiter

inductive Outcome (R E : Type*)
  | resolved (value : R)
  | rejected (error : E)
  deriving DecidableEq

/-- Who has called a task: the executor of the caller's promise, or the callback of another task. -/
inductive Caller
  | executor
  | next
  deriving DecidableEq

inductive Phase (R E : Type*)
  | waiting
  | calling
  | pending
  /-- The promise of the task has settled. -/
  | settled (outcome : Outcome R E)
  /-- The callback of `then` has run. -/
  | delivered (outcome : Outcome R E)
  /-- The callback of `finally` has run. -/
  | released (outcome : Outcome R E)
  | threw (error : E)
  deriving DecidableEq

variable {R E : Type*}

namespace Phase

/-- The task has started and not ended. -/
def isActive : Phase R E → Bool
  | calling | pending => true
  | _ => false

/-- The task has taken a slot and not released it. -/
def isOpen : Phase R E → Bool
  | waiting | released _ => false
  | _ => true

/-- The task has ended, and its callbacks have run. -/
def isOver : Phase R E → Bool
  | released _ | threw _ => true
  | _ => false

def outcome : Phase R E → Option (Outcome R E)
  | settled outcome | delivered outcome | released outcome => some outcome
  | threw error => some (.rejected error)
  | _ => none

/-- What the promise of the task has passed on. -/
def promised : Phase R E → Option (Outcome R E)
  | delivered outcome | released outcome => some outcome
  | _ => none

/-- How many events are left. -/
def remaining : Phase R E → ℕ
  | waiting => 5
  | calling => 4
  | pending => 3
  | settled _ => 2
  | delivered _ => 1
  | released _ | threw _ => 0

theorem isOpen_of_isActive {p : Phase R E} (h : p.isActive = true) : p.isOpen = true := by
  cases p with
  | calling | pending => rfl
  | _ => cases h

end Phase

/-- Tasks are named in the order of their submission. -/
structure State (R E : Type*) where
  active : ℕ
  queue : List ℕ
  submitted : ℕ
  /-- The tasks that have been called, in order. -/
  starts : List ℕ
  calls : List (ℕ × Caller)
  phase : ℕ → Phase R E
  /-- The promises that `limit` has returned. -/
  promise : ℕ → Option (Outcome R E)
  unhandled : List E

namespace State

variable (max : ℕ) (s : State R E)

def activeCount : ℕ := s.active

def run (caller : Caller) (id : ℕ) : State R E :=
  { s with
    active := s.active + 1
    starts := s.starts ++ [id]
    calls := (id, caller) :: s.calls
    phase := Function.update s.phase id .calling }

def next : State R E :=
  if max ≤ s.active then s
  else
    match s.queue with
    | [] => s
    | release :: queue => run { s with queue } .next release

/-- A task is submitted. -/
def limit : State R E :=
  if s.active < max then run { s with submitted := s.submitted + 1 } .executor s.submitted
  else { s with submitted := s.submitted + 1, queue := s.queue ++ [s.submitted] }

/-- An executor that throws rejects its promise, a callback that throws rejects one that nobody
handles. -/
def throw (id : ℕ) (error : E) : Caller → State R E
  | .executor => { s with promise := Function.update s.promise id (some (.rejected error)) }
  | .next => { s with unhandled := s.unhandled ++ [error] }

end State

def start : State R E := ⟨0, [], 0, [], [], fun _ => .waiting, fun _ => none, []⟩

def createLimiter (max : ℕ) : Except String (State R E) :=
  if max < 1 then .error s!"createLimiter: max must be >= 1 (got {max})" else .ok start

inductive Event (R E : Type*)
  | submit
  /-- The innermost call returns the promise of its task. -/
  | returned
  | threw (error : E)
  | settle (id : ℕ) (outcome : Outcome R E)
  | deliver (id : ℕ)
  | release (id : ℕ)
  deriving DecidableEq

def step (max : ℕ) (s : State R E) : Event R E → Option (State R E)
  | .submit => some (s.limit max)
  | .returned =>
    match s.calls with
    | (id, _) :: calls => some { s with calls, phase := Function.update s.phase id .pending }
    | [] => none
  | .threw error =>
    match s.calls with
    | (id, caller) :: calls =>
      let s := { s with calls, phase := Function.update s.phase id (.threw error) }
      some (s.throw id error caller)
    | [] => none
  | .settle id outcome =>
    match s.phase id with
    | .pending => some { s with phase := Function.update s.phase id (.settled outcome) }
    | _ => none
  | .deliver id =>
    match s.calls, s.phase id with
    | [], .settled outcome =>
      some { s with
        phase := Function.update s.phase id (.delivered outcome)
        promise := Function.update s.promise id (some outcome) }
    | _, _ => none
  | .release id =>
    match s.calls, s.phase id with
    | [], .delivered outcome =>
      let s := { s with
        active := s.active - 1
        phase := Function.update s.phase id (.released outcome) }
      some (s.next max)
    | _, _ => none

def run (max : ℕ) : List (Event R E) → State R E → Option (State R E)
  | [], s => some s
  | event :: events, s => (step max s event).bind (run max events)

/-! ## Slots -/

/-- A sum over tasks, when the phase of one of them changes. -/
theorem sum_update {ids : List ℕ} (nodup : ids.Nodup) {id : ℕ} (mem : id ∈ ids)
    (phase : ℕ → Phase R E) (p : Phase R E) (weight : Phase R E → ℕ) :
    (ids.map fun x => weight (Function.update phase id p x)).sum + weight (phase id) =
      (ids.map fun x => weight (phase x)).sum + weight p := by
  induction ids with
  | nil => cases mem
  | cons head ids ih =>
    obtain ⟨fresh, nodup⟩ := List.nodup_cons.mp nodup
    simp only [List.map_cons, List.sum_cons]
    by_cases here : head = id
    · subst here
      have rest : (ids.map fun x => weight (Function.update phase head p x)) =
          ids.map fun x => weight (phase x) := by
        refine List.map_congr_left fun x mem => ?_
        rw [Function.update_of_ne (ne_of_mem_of_not_mem mem fresh)]
      rw [rest, Function.update_self]
      omega
    · have later := ih nodup ((List.mem_cons.mp mem).resolve_left fun same => here same.symm)
      rw [Function.update_of_ne here]
      omega

theorem countP_eq_sum (ids : List ℕ) (is : ℕ → Bool) :
    ids.countP is = (ids.map fun id => if is id then 1 else 0).sum := by
  induction ids with
  | nil => rfl
  | cons id ids ih => rw [List.countP_cons, List.map_cons, List.sum_cons, ih, Nat.add_comm]

theorem countP_update {ids : List ℕ} (nodup : ids.Nodup) {id : ℕ} (mem : id ∈ ids)
    (phase : ℕ → Phase R E) (p : Phase R E) (is : Phase R E → Bool) :
    (ids.countP fun x => is (Function.update phase id p x)) + (if is (phase id) then 1 else 0) =
      (ids.countP fun x => is (phase x)) + if is p then 1 else 0 := by
  rw [countP_eq_sum, countP_eq_sum]
  exact sum_update nodup mem phase p fun p => if is p then 1 else 0

/-- What every moment keeps. -/
structure Sound (s : State R E) : Prop where
  /-- Tasks start in the order of their submission. -/
  order : s.starts ++ s.queue = List.range s.submitted
  slots : s.active = s.starts.countP fun id => (s.phase id).isOpen
  started : ∀ id, id ∈ s.starts ↔ s.phase id ≠ .waiting
  calls : ∀ id, id ∈ s.calls.map Prod.fst ↔ s.phase id = .calling
  once : (s.calls.map Prod.fst).Nodup
  promise : ∀ id, (∀ error, s.phase id ≠ .threw error) → s.promise id = (s.phase id).promised

/-- What holds between two events. -/
structure Inv (max : ℕ) (s : State R E) : Prop extends Sound s where
  capacity : s.active ≤ max
  /-- Nobody waits for a slot that is free. -/
  busy : s.queue ≠ [] → max ≤ s.active

variable {max : ℕ} {s s' : State R E}

namespace Sound

theorem nodup (sound : Sound s) : s.starts.Nodup :=
  (List.nodup_append.mp (sound.order ▸ List.nodup_range)).1

theorem starts_eq_range (sound : Sound s) : s.starts = List.range s.starts.length := by
  have front : s.starts <+: List.range s.submitted := sound.order ▸ List.prefix_append ..
  rw [List.prefix_iff_eq_take.mp front, List.take_range]
  simp

/-- A task that is next in line is called. -/
theorem run (sound : Sound s) {id submitted : ℕ} {queue : List ℕ} {caller : Caller}
    (order : s.starts ++ id :: queue = List.range submitted) :
    Sound (State.run { s with queue, submitted } caller id) := by
  have nodup : (s.starts ++ id :: queue).Nodup := order ▸ List.nodup_range
  have fresh : id ∉ s.starts := fun mem =>
    (List.nodup_append.mp nodup).2.2 id mem id List.mem_cons_self rfl
  have waiting : s.phase id = .waiting := by
    by_contra other
    exact fresh ((sound.started id).mpr other)
  refine ⟨?_, ?_, fun x => ?_, fun x => ?_, ?_, fun x unthrown => ?_⟩
  · simpa [State.run] using order
  · have before : (s.starts.countP fun x => (Function.update s.phase id .calling x).isOpen) =
        s.starts.countP fun x => (s.phase x).isOpen := by
      refine List.countP_congr fun x mem => ?_
      rw [Function.update_of_ne (ne_of_mem_of_not_mem mem fresh)]
    show s.active + 1 = _
    rw [sound.slots, State.run, List.countP_append, before]
    simp [Phase.isOpen]
  · show x ∈ s.starts ++ [id] ↔ Function.update s.phase id .calling x ≠ .waiting
    by_cases here : x = id
    · simp [here]
    · simp [here, sound.started x]
  · show x ∈ id :: s.calls.map Prod.fst ↔ Function.update s.phase id .calling x = .calling
    by_cases here : x = id
    · simp [here]
    · rw [Function.update_of_ne here, List.mem_cons, ← sound.calls x]
      simp [here]
  · refine List.nodup_cons.mpr ⟨fun mem => ?_, sound.once⟩
    rw [sound.calls id, waiting] at mem
    cases mem
  · show s.promise x = (Function.update s.phase id .calling x).promised
    by_cases here : x = id
    · subst here
      rw [Function.update_self, sound.promise x (by simp [waiting]), waiting]
      rfl
    · rw [Function.update_of_ne here]
      refine sound.promise x fun error => ?_
      simpa [State.run, here] using unthrown error

/-- A task that holds a slot goes on. -/
theorem move (sound : Sound s) {id : ℕ} {p : Phase R E} (here : (s.phase id).isOpen = true)
    (there : p.isOpen = true) (phase : s'.phase = Function.update s.phase id p)
    (starts : s'.starts = s.starts) (queue : s'.queue = s.queue)
    (submitted : s'.submitted = s.submitted) (active : s'.active = s.active)
    (calls : ∀ x, x ∈ s'.calls.map Prod.fst ↔ x ≠ id ∧ x ∈ s.calls.map Prod.fst)
    (uncalled : p ≠ .calling) (once : (s'.calls.map Prod.fst).Nodup)
    (others : ∀ x ≠ id, s'.promise x = s.promise x)
    (own : (∀ error, p ≠ .threw error) → s'.promise id = p.promised) : Sound s' := by
  have mem : id ∈ s.starts := by
    rw [sound.started]
    intro waiting
    rw [waiting] at here
    cases here
  refine ⟨?_, ?_, fun x => ?_, fun x => ?_, once, fun x unthrown => ?_⟩
  · rw [starts, queue, submitted]
    exact sound.order
  · have count := countP_update sound.nodup mem s.phase p Phase.isOpen
    rw [if_pos here, if_pos there] at count
    rw [active, starts, phase, sound.slots]
    omega
  · rw [starts, phase]
    by_cases same : x = id
    · subst same
      refine iff_of_true mem ?_
      rw [Function.update_self]
      rintro rfl
      cases there
    · rw [Function.update_of_ne same]
      exact sound.started x
  · rw [calls, phase]
    by_cases same : x = id
    · subst same
      simp [uncalled]
    · rw [Function.update_of_ne same, ← sound.calls x]
      simp [same]
  · rw [phase] at unthrown ⊢
    by_cases same : x = id
    · subst same
      rw [Function.update_self] at unthrown ⊢
      exact own unthrown
    · rw [Function.update_of_ne same] at unthrown ⊢
      rw [others x same]
      exact sound.promise x unthrown

/-- The slot of a task is released. -/
theorem release (sound : Sound s) {id : ℕ} {outcome : Outcome R E}
    (here : s.phase id = .delivered outcome) : Sound { s with
      active := s.active - 1
      phase := Function.update s.phase id (.released outcome) } := by
  have mem : id ∈ s.starts := by simp [sound.started, here]
  have uncalled : ∀ x, x ∈ s.calls.map Prod.fst → x ≠ id := by
    rintro x called rfl
    rw [sound.calls, here] at called
    cases called
  refine ⟨sound.order, ?_, fun x => ?_, fun x => ?_, sound.once, fun x unthrown => ?_⟩
  · have count := countP_update sound.nodup mem s.phase (.released outcome) Phase.isOpen
    rw [here, ← sound.slots] at count
    have held : (Phase.delivered outcome).isOpen = true := rfl
    have free : ¬(Phase.released outcome : Phase R E).isOpen = true := Bool.false_ne_true
    rw [if_pos held, if_neg free] at count
    show s.active - 1 =
      s.starts.countP fun x => (Function.update s.phase id (.released outcome) x).isOpen
    omega
  · show x ∈ s.starts ↔ Function.update s.phase id (.released outcome) x ≠ .waiting
    by_cases same : x = id
    · simp [same, mem]
    · simp [same, sound.started x]
  · show x ∈ s.calls.map Prod.fst ↔ Function.update s.phase id (.released outcome) x = .calling
    by_cases same : x = id
    · subst same
      exact iff_of_false (fun called => uncalled x called rfl) (by simp)
    · rw [Function.update_of_ne same]
      exact sound.calls x
  · show s.promise x = (Function.update s.phase id (.released outcome) x).promised
    by_cases same : x = id
    · subst same
      rw [Function.update_self, sound.promise x (by simp [here]), here]
      rfl
    · rw [Function.update_of_ne same]
      refine sound.promise x fun error => ?_
      simpa [same] using unthrown error

end Sound

/-! ## Steps -/

theorem Inv.created (created : createLimiter max = .ok s) : Inv max s := by
  unfold createLimiter at created
  split_ifs at created
  obtain rfl := Except.ok.inj created
  exact ⟨⟨rfl, rfl, by simp [start], by simp [start], List.nodup_nil, fun _ _ => rfl⟩,
    Nat.zero_le _, nofun⟩

theorem Inv.limit (inv : Inv max s) : Inv max (s.limit max) := by
  unfold State.limit
  split_ifs with free
  · have idle : s.queue = [] := by
      by_contra waiting
      exact Nat.not_le_of_lt free (inv.busy waiting)
    have order : s.starts ++ s.submitted :: s.queue = List.range (s.submitted + 1) := by
      rw [List.range_succ, ← inv.order, idle, List.append_nil]
    exact ⟨inv.run order, free, fun waiting => absurd idle waiting⟩
  · refine ⟨⟨?_, inv.slots, inv.started, inv.calls, inv.once, inv.promise⟩, inv.capacity,
      fun _ => Nat.le_of_not_lt free⟩
    rw [List.range_succ, ← inv.order, List.append_assoc]

/-- A slot has been released, and the next task takes it. -/
theorem Sound.next (sound : Sound s) (capacity : s.active ≤ max)
    (busy : s.queue ≠ [] → max ≤ s.active + 1) : Inv max (s.next max) := by
  unfold State.next
  split_ifs with full
  · exact ⟨sound, capacity, fun _ => full⟩
  · cases waiting : s.queue with
    | nil => exact ⟨sound, capacity, fun some => absurd waiting some⟩
    | cons release queue =>
      have order : s.starts ++ release :: queue = List.range s.submitted := by
        rw [← waiting]
        exact sound.order
      have most : max ≤ s.active + 1 := busy (by simp [waiting])
      exact ⟨sound.run order, Nat.lt_of_not_le full, fun _ => most⟩

/-- The innermost call ends. -/
theorem Inv.leave (inv : Inv max s) {id : ℕ} {caller : Caller} {calls : List (ℕ × Caller)}
    (innermost : s.calls = (id, caller) :: calls) :
    s.phase id = .calling ∧ (calls.map Prod.fst).Nodup ∧
      ∀ x, x ∈ calls.map Prod.fst ↔ x ≠ id ∧ x ∈ s.calls.map Prod.fst := by
  have once := inv.once
  rw [innermost] at once
  obtain ⟨fresh, nodup⟩ := List.nodup_cons.mp once
  refine ⟨(inv.calls id).mp (by simp [innermost]), nodup, fun x => ?_⟩
  rw [innermost]
  constructor
  · intro mem
    exact ⟨fun same => fresh (same ▸ mem), List.mem_cons_of_mem _ mem⟩
  · rintro ⟨other, mem⟩
    exact (List.mem_cons.mp mem).resolve_left other

/-- No call of a task is under way that has another phase. -/
theorem Inv.uncalled (inv : Inv max s) {id : ℕ} (other : s.phase id ≠ .calling) (x : ℕ) :
    x ∈ s.calls.map Prod.fst ↔ x ≠ id ∧ x ∈ s.calls.map Prod.fst := by
  refine ⟨fun mem => ⟨?_, mem⟩, And.right⟩
  rintro rfl
  exact other ((inv.calls x).mp mem)

theorem Inv.step (inv : Inv max s) {event : Event R E}
    (taken : Limiter.step max s event = some s') : Inv max s' := by
  unfold Limiter.step at taken
  cases event with
  | submit =>
    obtain rfl := Option.some.inj taken
    exact inv.limit
  | returned =>
    dsimp only at taken
    split at taken
    · next id caller calls innermost =>
      obtain ⟨calling, once, rest⟩ := inv.leave innermost
      obtain rfl := Option.some.inj taken
      have sound : Sound { s with calls, phase := Function.update s.phase id .pending } := by
        refine inv.move (p := .pending) (by rw [calling]; rfl) rfl rfl rfl rfl rfl rfl
          rest nofun once (fun _ _ => rfl) fun _ => ?_
        show s.promise id = none
        rw [inv.promise id (by simp [calling]), calling]
        rfl
      exact ⟨sound, inv.capacity, inv.busy⟩
    · cases taken
  | threw error =>
    dsimp only at taken
    split at taken
    · next id caller calls innermost =>
      obtain ⟨calling, once, rest⟩ := inv.leave innermost
      obtain rfl := Option.some.inj taken
      cases caller with
      | executor =>
        refine ⟨?_, inv.capacity, inv.busy⟩
        exact inv.move (p := .threw error) (by rw [calling]; rfl) rfl rfl rfl rfl rfl
          rfl rest nofun once (fun x other => Function.update_of_ne other ..)
          fun unthrown => absurd rfl (unthrown error)
      | next =>
        refine ⟨?_, inv.capacity, inv.busy⟩
        exact inv.move (p := .threw error) (by rw [calling]; rfl) rfl rfl rfl rfl rfl
          rfl rest nofun once (fun _ _ => rfl) fun unthrown => absurd rfl (unthrown error)
    · cases taken
  | settle id outcome =>
    dsimp only at taken
    split at taken
    · next pending =>
      obtain rfl := Option.some.inj taken
      refine ⟨?_, inv.capacity, inv.busy⟩
      refine inv.move (p := .settled outcome) (by rw [pending]; rfl) rfl rfl rfl rfl
        rfl rfl (inv.uncalled (by simp [pending])) nofun inv.once (fun _ _ => rfl) fun _ => ?_
      show s.promise id = none
      rw [inv.promise id (by simp [pending]), pending]
      rfl
    · cases taken
  | deliver id =>
    dsimp only at taken
    split at taken
    · next outcome idle settled =>
      obtain rfl := Option.some.inj taken
      refine ⟨?_, inv.capacity, inv.busy⟩
      exact inv.move (p := .delivered outcome) (by rw [settled]; rfl) rfl rfl rfl rfl
        rfl rfl (inv.uncalled (by simp [settled])) nofun inv.once
        (fun x other => Function.update_of_ne other ..) fun _ => Function.update_self ..
    · cases taken
  | release id =>
    dsimp only at taken
    split at taken
    · next outcome idle delivered =>
      obtain rfl := Option.some.inj taken
      refine (inv.release delivered).next (Nat.le_trans (Nat.sub_le ..) inv.capacity)
        fun waiting => ?_
      have busy : max ≤ s.active := inv.busy waiting
      show max ≤ s.active - 1 + 1
      omega
    · cases taken

theorem Inv.run (inv : Inv max s) {events : List (Event R E)}
    (ran : Limiter.run max events s = some s') : Inv max s' := by
  induction events generalizing s with
  | nil =>
    obtain rfl := Option.some.inj ran
    exact inv
  | cons event events ih =>
    obtain ⟨t, first, rest⟩ := Option.bind_eq_some_iff.mp ran
    exact ih (inv.step first) rest

/-! ## What the limiter promises -/

namespace State

/-- No task that has been called has thrown. -/
def Clean (s : State R E) : Prop := ∀ id error, s.phase id ≠ .threw error

/-- Every task that has started has ended. -/
def Quiet (s : State R E) : Prop := ∀ id ∈ s.starts, (s.phase id).isOver = true

structure Kept (max : ℕ) (s : State R E) : Prop where
  capped : (s.starts.countP fun id => (s.phase id).isActive) ≤ max
  fifo : s.starts = List.range s.starts.length
  returns : s.Quiet → s.activeCount = 0
  /-- A task starts once those before it have ended. -/
  starts : ∀ id < s.submitted, (∀ before < id, (s.phase before).isOver = true) → id ∈ s.starts
  /-- The promise of a task that has ended has its outcome. -/
  settles : ∀ id outcome, (s.phase id).isOver = true → (s.phase id).outcome = some outcome →
    s.promise id = some outcome

end State

section Kept

variable (inv : Inv max s)

theorem released_of_isOver (clean : s.Clean) {id : ℕ} (isOver : (s.phase id).isOver = true) :
    ∃ outcome, s.phase id = .released outcome := by
  cases phase : s.phase id with
  | released outcome => exact ⟨outcome, rfl⟩
  | threw error => exact absurd phase (clean id error)
  | _ =>
    rw [phase] at isOver
    cases isOver

include inv

/-- Where every task that has started is over, the open slots are those of tasks that threw. -/
theorem active_eq_zero (clean : s.Clean) (quiet : s.Quiet) : s.active = 0 := by
  rw [inv.slots, List.countP_eq_zero]
  intro id mem
  obtain ⟨outcome, released⟩ := released_of_isOver clean (quiet id mem)
  rw [released]
  exact Bool.false_ne_true

theorem clean_of_active_eq_zero (none : s.active = 0) : s.Clean := by
  intro id error threw
  have mem : id ∈ s.starts := by simp [inv.started, threw]
  rw [inv.slots, List.countP_eq_zero] at none
  exact none id mem (by rw [threw]; rfl)

theorem mem_starts (pos : 0 < max) (clean : s.Clean) {id : ℕ} (submitted : id < s.submitted)
    (before : ∀ x < id, (s.phase x).isOver = true) : id ∈ s.starts := by
  have mem : id ∈ s.starts ++ s.queue := by rw [inv.order]; exact List.mem_range.mpr submitted
  refine (List.mem_append.mp mem).resolve_right fun waits => ?_
  -- those that have started are all before it, so no slot is taken
  have quiet : s.Quiet := by
    intro x started
    refine before x (Nat.lt_of_not_le fun le => ?_)
    have earlier : id ∈ s.starts := by
      rw [inv.starts_eq_range] at started ⊢
      exact List.mem_range.mpr (Nat.lt_of_le_of_lt le (List.mem_range.mp started))
    have nodup : (s.starts ++ s.queue).Nodup := inv.order ▸ List.nodup_range
    exact (List.nodup_append.mp nodup).2.2 id earlier id waits rfl
  have full : max ≤ s.active := inv.busy (List.ne_nil_of_mem waits)
  have free : s.active = 0 := active_eq_zero inv clean quiet
  omega

theorem kept_of_clean (pos : 0 < max) (clean : s.Clean) : s.Kept max where
  capped := by
    refine Nat.le_trans ?_ inv.capacity
    rw [inv.slots]
    exact List.countP_mono_left fun _ _ => Phase.isOpen_of_isActive
  fifo := inv.starts_eq_range
  returns := active_eq_zero inv clean
  starts id submitted before := mem_starts inv pos clean submitted before
  settles id outcome isOver ended := by
    obtain ⟨own, released⟩ := released_of_isOver clean isOver
    rw [released] at ended
    rw [inv.promise id (clean id), released]
    exact ended

end Kept

/-! ## How a run ends -/

namespace State

/-- The events that the tasks submitted so far have before them. -/
def work (s : State R E) : ℕ := ((List.range s.submitted).map fun id => (s.phase id).remaining).sum

/-- No call is under way, and no callback is left to run. -/
def Idle (max : ℕ) (s : State R E) : Prop :=
  step max s .returned = none ∧ ∀ id, step max s (.deliver id) = none ∧
    step max s (.release id) = none

theorem work_update {id : ℕ} (submitted : id < s.submitted) {p : Phase R E}
    (less : p.remaining < (s.phase id).remaining) (phase : s'.phase = Function.update s.phase id p)
    (same : s'.submitted = s.submitted) : s'.work < s.work := by
  have sum := sum_update List.nodup_range (List.mem_range.mpr submitted) s.phase p Phase.remaining
  unfold work
  rw [same, phase]
  omega

end State

theorem Sound.lt_submitted (sound : Sound s) {id : ℕ} (started : s.phase id ≠ .waiting) :
    id < s.submitted := by
  have mem : id ∈ s.starts ++ s.queue := List.mem_append_left _ ((sound.started id).mpr started)
  rw [sound.order] at mem
  exact List.mem_range.mp mem

theorem Sound.work_next (sound : Sound s) : (s.next max).work ≤ s.work := by
  unfold State.next
  split_ifs with full
  · exact Nat.le_refl _
  · cases waiting : s.queue with
    | nil => exact Nat.le_refl _
    | cons release queue =>
      have mem : release ∈ s.starts ++ s.queue := by simp [waiting]
      have fresh : release ∉ s.starts := by
        have nodup : (s.starts ++ s.queue).Nodup := sound.order ▸ List.nodup_range
        exact fun started => (List.nodup_append.mp nodup).2.2 release started release
          (by simp [waiting]) rfl
      have phase : s.phase release = .waiting := by
        by_contra other
        exact fresh ((sound.started release).mpr other)
      rw [sound.order] at mem
      refine Nat.le_of_lt (State.work_update (List.mem_range.mp mem) (p := .calling) ?_ rfl rfl)
      rw [phase]
      exact Nat.lt_succ_self 4

/-- Apart from submissions, an event leaves less to do. -/
theorem Inv.step_work (inv : Inv max s) {event : Event R E} (other : event ≠ .submit)
    (taken : Limiter.step max s event = some s') : s'.work < s.work := by
  unfold Limiter.step at taken
  cases event with
  | submit => exact absurd rfl other
  | returned =>
    dsimp only at taken
    split at taken
    · next id caller calls innermost =>
      obtain ⟨calling, -⟩ := inv.leave innermost
      obtain rfl := Option.some.inj taken
      refine State.work_update (inv.lt_submitted (by simp [calling])) (p := .pending) ?_ rfl rfl
      rw [calling]
      exact Nat.lt_succ_self 3
    · cases taken
  | threw error =>
    dsimp only at taken
    split at taken
    · next id caller calls innermost =>
      obtain ⟨calling, -⟩ := inv.leave innermost
      obtain rfl := Option.some.inj taken
      have less : (Phase.threw error : Phase R E).remaining < (s.phase id).remaining := by
        rw [calling]
        exact Nat.zero_lt_succ 3
      cases caller <;>
        exact State.work_update (inv.lt_submitted (by simp [calling])) less rfl rfl
    · cases taken
  | settle id outcome =>
    dsimp only at taken
    split at taken
    · next pending =>
      obtain rfl := Option.some.inj taken
      refine State.work_update (inv.lt_submitted (by simp [pending])) (p := .settled outcome) ?_
        rfl rfl
      rw [pending]
      exact Nat.lt_succ_self 2
    · cases taken
  | deliver id =>
    dsimp only at taken
    split at taken
    · next outcome idle settled =>
      obtain rfl := Option.some.inj taken
      refine State.work_update (inv.lt_submitted (by simp [settled])) (p := .delivered outcome) ?_
        rfl rfl
      rw [settled]
      exact Nat.lt_succ_self 1
    · cases taken
  | release id =>
    dsimp only at taken
    split at taken
    · next outcome idle delivered =>
      obtain rfl := Option.some.inj taken
      refine Nat.lt_of_le_of_lt (inv.release delivered).work_next ?_
      refine State.work_update (inv.lt_submitted (by simp [delivered])) (p := .released outcome) ?_
        rfl rfl
      rw [delivered]
      exact Nat.zero_lt_one
    · cases taken

theorem Inv.run_work (inv : Inv max s) {events : List (Event R E)}
    (others : ∀ event ∈ events, event ≠ .submit) (ran : Limiter.run max events s = some s') :
    events.length + s'.work ≤ s.work := by
  induction events generalizing s with
  | nil =>
    obtain rfl := Option.some.inj ran
    simp
  | cons event events ih =>
    obtain ⟨t, first, rest⟩ := Option.bind_eq_some_iff.mp ran
    have less := inv.step_work (others event List.mem_cons_self) first
    have later := ih (inv.step first) (fun e mem => others e (List.mem_cons_of_mem _ mem)) rest
    rw [List.length_cons]
    omega

/-- What the limiter has to do for a task that has ended, it can do. -/
theorem Inv.over_or_pending (inv : Inv max s) (idle : s.Idle max) {id : ℕ} (mem : id ∈ s.starts) :
    (s.phase id).isOver = true ∨ s.phase id = .pending := by
  have none : s.calls = [] := by
    cases calls : s.calls with
    | nil => rfl
    | cons call calls =>
      have stuck := idle.1
      simp [Limiter.step, calls] at stuck
  cases phase : s.phase id with
  | waiting => exact absurd phase ((inv.started id).mp mem)
  | calling =>
    have called := (inv.calls id).mpr phase
    simp [none] at called
  | pending => exact .inr rfl
  | settled outcome =>
    have stuck := (idle.2 id).1
    simp [Limiter.step, none, phase] at stuck
  | delivered outcome =>
    have stuck := (idle.2 id).2
    simp [Limiter.step, none, phase] at stuck
  | released | threw => exact .inl rfl

/-- As long as no task throws, the limiter keeps its promises at every moment of every run, and
where every task that has started has ended it has kept them only then. Without further submissions
a run comes to an end, and what it leaves open then is for promises of tasks to settle. -/
theorem run_keeps_slots_iff {max : ℕ} {s₀ s : State R E} {events : List (Event R E)}
    (created : createLimiter max = .ok s₀) (ran : run max events s₀ = some s) :
    (s.Clean → s.Kept max) ∧ (s.Quiet → (s.Kept max ↔ s.Clean)) ∧
      ∀ more s', (∀ event ∈ more, event ≠ .submit) → run max more s = some s' →
        more.length ≤ s.work ∧ (s'.Idle max →
          ∀ id ∈ s'.starts, (s'.phase id).isOver = true ∨ s'.phase id = .pending) := by
  have pos : 0 < max := by
    unfold createLimiter at created
    split_ifs at created with low
    omega
  have inv : Inv max s := (Inv.created created).run ran
  refine ⟨kept_of_clean inv pos, fun quiet => ⟨fun kept => ?_, kept_of_clean inv pos⟩, ?_⟩
  · exact clean_of_active_eq_zero inv (kept.returns quiet)
  · intro more s' others onward
    refine ⟨?_, fun idle id mem => (inv.run onward).over_or_pending idle mem⟩
    have bound := inv.run_work others onward
    omega

/-- The second task starts in the slot of the first. -/
def handover : List (Event ℕ String) :=
  [.submit, .returned, .submit, .settle 0 (.rejected "late"), .deliver 0, .release 0, .returned,
    .settle 1 (.resolved 7), .deliver 1, .release 1]

theorem run_keeps_slots_handover : ∃ s, run 1 handover start = some s ∧ s.Kept 1 ∧
    s.activeCount = 0 ∧ s.promise 1 = some (.resolved 7) := by
  refine ⟨_, rfl, (@run_keeps_slots_iff _ _ 1 start _ handover rfl rfl).1 fun id => ?_, rfl, rfl⟩
  match id with
  | 0 | 1 | _ + 2 => nofun

/-- The second task throws when the slot is handed to it: its promise never settles, the limiter
counts it as active although it has ended, and the third task never starts. -/
theorem run_keeps_thrown : createLimiter 1 = .ok (start : State ℕ String) ∧ ∃ s : State ℕ String,
    run 1 [.submit, .returned, .submit, .settle 0 (.resolved 7), .deliver 0, .release 0,
      .threw "boom", .submit] start = some s ∧
    s.Quiet ∧ s.activeCount = 1 ∧ s.promise 1 = none ∧ s.queue = [2] ∧ ¬s.Kept 1 := by
  refine ⟨rfl, _, rfl, ?_, rfl, rfl, rfl, fun kept => ?_⟩
  · intro id mem
    have two : id ∈ [0, 1] := mem
    rcases List.mem_pair.mp two with rfl | rfl <;> rfl
  · have settled := kept.settles 1 (.rejected "boom") rfl rfl
    cases settled

end DeclutrMail.Workers.Limiter
