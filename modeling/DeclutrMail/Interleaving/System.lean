import DeclutrMail.Interleaving.Program

/-!
# Systems of interleaved programs

A `System` runs the programs of its tasks, one for each thread, against a shared world.
All nondeterminism is an explicit `Move`, so `Config.step` is a function: a run is a list
of moves, and a concrete run evaluates.

* `start` puts a task on an idle thread; `accept` says when, and what that writes.
* `reply` answers the request a thread waits at. `answer` is the atomic effect of one
  request, and the choice it takes selects among the answers the world may give.
* `finish` takes a thread off the system with its outcome, `crash` without one.
* `disturb` is an event of the environment.
-/

namespace Interleaving

structure System (S : Signature) where
  World : Type
  Thread : Type
  [decThread : DecidableEq Thread]
  Task : Type
  Outcome : Type
  Choice : Type
  Event : Type
  code : Task → Program S Outcome
  accept : Thread → Task → World → Option World
  answer : Thread → (q : S.Request) → Choice → World →
    Option (Except S.Error (S.Answer q) × World)
  settle : Thread → Except S.Error Outcome → World → Option World
  crash : Thread → World → Option World
  disturb : Event → World → Option World

attribute [instance] System.decThread

variable {S : Signature}

inductive Move (M : System S) where
  | start (t : M.Thread) (k : M.Task)
  | reply (t : M.Thread) (c : M.Choice)
  | finish (t : M.Thread)
  | crash (t : M.Thread)
  | disturb (e : M.Event)

/-- Who moves. -/
def Move.thread {M : System S} : Move M → Option M.Thread
  | .start t _ | .reply t _ | .finish t | .crash t => some t
  | .disturb _ => none

structure Config (M : System S) where
  world : M.World
  running : M.Thread → Option (Program S M.Outcome)

namespace Config

variable {M : System S}

/-- No thread runs. -/
def idle (w : M.World) : Config M := ⟨w, fun _ => none⟩

def put (c : Config M) (t : M.Thread) (w : M.World) (p : Option (Program S M.Outcome)) :
    Config M := ⟨w, Function.update c.running t p⟩

@[simp] theorem put_world (c : Config M) (t : M.Thread) (w : M.World)
    (p : Option (Program S M.Outcome)) : (c.put t w p).world = w := rfl

@[simp] theorem put_running (c : Config M) (t : M.Thread) (w : M.World)
    (p : Option (Program S M.Outcome)) :
    (c.put t w p).running = Function.update c.running t p := rfl

def step (c : Config M) : Move M → Option (Config M)
  | .start t k =>
    match c.running t with
    | none => (M.accept t k c.world).map fun w => c.put t w (some (M.code k))
    | some _ => none
  | .reply t ch =>
    match c.running t with
    | some (.request q next) =>
      (M.answer t q ch c.world).map fun r => c.put t r.2 (some (next r.1))
    | _ => none
  | .finish t =>
    match c.running t with
    | some (.ret a) => (M.settle t (.ok a) c.world).map fun w => c.put t w none
    | some (.raise e) => (M.settle t (.error e) c.world).map fun w => c.put t w none
    | _ => none
  | .crash t =>
    match c.running t with
    | some _ => (M.crash t c.world).map fun w => c.put t w none
    | none => none
  | .disturb e => (M.disturb e c.world).map fun w => { c with world := w }

/-- What a move does to the world. -/
theorem step_world {c d : Config M} {m : Move M} (taken : c.step m = some d) :
    match m with
    | .start t k => M.accept t k c.world = some d.world
    | .reply t ch => ∃ q r, M.answer t q ch c.world = some (r, d.world)
    | .finish t => ∃ r, M.settle t r c.world = some d.world
    | .crash t => M.crash t c.world = some d.world
    | .disturb e => M.disturb e c.world = some d.world := by
  cases m with
  | start t k =>
    cases running : c.running t with
    | none =>
      obtain ⟨w, accepted, rfl⟩ : ∃ w, M.accept t k c.world = some w ∧
          c.put t w (some (M.code k)) = d := by simpa [step, running] using taken
      exact accepted
    | some p => simp [step, running] at taken
  | reply t ch =>
    match running : c.running t with
    | none | some (.ret _) | some (.raise _) => simp [step, running] at taken
    | some (.request q next) =>
      obtain ⟨r, w, answered, rfl⟩ : ∃ r w, M.answer t q ch c.world = some (r, w) ∧
          c.put t w (some (next r)) = d := by simpa [step, running] using taken
      exact ⟨q, r, answered⟩
  | finish t =>
    match running : c.running t with
    | none | some (.request ..) => simp [step, running] at taken
    | some (.ret a) =>
      obtain ⟨w, settled, rfl⟩ : ∃ w, M.settle t (.ok a) c.world = some w ∧
          c.put t w none = d := by simpa [step, running] using taken
      exact ⟨.ok a, settled⟩
    | some (.raise e) =>
      obtain ⟨w, settled, rfl⟩ : ∃ w, M.settle t (.error e) c.world = some w ∧
          c.put t w none = d := by simpa [step, running] using taken
      exact ⟨.error e, settled⟩
  | crash t =>
    cases running : c.running t with
    | none => simp [step, running] at taken
    | some p =>
      obtain ⟨w, crashed, rfl⟩ : ∃ w, M.crash t c.world = some w ∧ c.put t w none = d := by
        simpa [step, running] using taken
      exact crashed
  | disturb e =>
    obtain ⟨w, disturbed, rfl⟩ : ∃ w, M.disturb e c.world = some w ∧
        { c with world := w } = d := by simpa [step] using taken
    exact disturbed

def run (c : Config M) : List (Move M) → Option (Config M)
  | [] => some c
  | m :: ms => (c.step m).bind fun d => d.run ms

/-- Run a list of moves, each of them checked where it is taken. -/
def runIf (ok : M.World → Move M → Prop) [∀ w m, Decidable (ok w m)] (c : Config M) :
    List (Move M) → Option (Config M)
  | [] => some c
  | m :: ms => if ok c.world m then (c.step m).bind fun d => d.runIf ok ms else none

end Config

variable {M : System S}

/-- The configurations a run from `c` reaches by moves that are each permitted where they
are taken. -/
inductive RunWhere (ok : M.World → Move M → Prop) (c : Config M) : Config M → Prop where
  | refl : RunWhere ok c c
  | step {d e : Config M} {m : Move M} :
      RunWhere ok c d → ok d.world m → d.step m = some e → RunWhere ok c e

/-- Reachable by any moves at all. -/
abbrev Reaches (c d : Config M) : Prop := RunWhere (fun _ _ => True) c d

theorem RunWhere.mono {ok ok' : M.World → Move M → Prop} {c d : Config M}
    (h : RunWhere ok c d) (le : ∀ w m, ok w m → ok' w m) : RunWhere ok' c d := by
  induction h with
  | refl => exact .refl
  | step _ permitted taken ih => exact .step ih (le _ _ permitted) taken

theorem RunWhere.trans {ok : M.World → Move M → Prop} {c d e : Config M}
    (h : RunWhere ok c d) (g : RunWhere ok d e) : RunWhere ok c e := by
  induction g with
  | refl => exact h
  | step _ permitted taken ih => exact .step ih permitted taken

/-- A list of moves that evaluates is a run, by moves that are permitted everywhere. -/
theorem runWhere_of_run {ok : M.World → Move M → Prop} {c d : Config M} {ms : List (Move M)}
    (h : c.run ms = some d) (permitted : ∀ m ∈ ms, ∀ w, ok w m) : RunWhere ok c d := by
  induction ms generalizing c with
  | nil =>
    obtain rfl : c = d := by simpa [Config.run] using h
    exact .refl
  | cons m ms ih =>
    obtain ⟨e, first, rest⟩ := Option.bind_eq_some_iff.mp h
    exact RunWhere.trans (.step .refl (permitted m (List.mem_cons_self ..) _) first)
      (ih rest fun m' mem => permitted m' (List.mem_cons_of_mem _ mem))

theorem runWhere_of_runIf {ok : M.World → Move M → Prop} [∀ w m, Decidable (ok w m)]
    {c d : Config M} {ms : List (Move M)} (h : c.runIf ok ms = some d) : RunWhere ok c d := by
  induction ms generalizing c with
  | nil =>
    obtain rfl : c = d := by simpa [Config.runIf] using h
    exact .refl
  | cons m ms ih =>
    obtain ⟨permitted, h⟩ : ok c.world m ∧ ((c.step m).bind fun d => d.runIf ok ms) = some d := by
      simpa [Config.runIf] using h
    obtain ⟨e, first, rest⟩ := Option.bind_eq_some_iff.mp h
    exact RunWhere.trans (.step .refl permitted first) (ih rest)

theorem reaches_of_run {c d : Config M} {ms : List (Move M)} (h : c.run ms = some d) :
    Reaches c d := runWhere_of_run h fun _ _ _ => trivial

/-- Evaluate a run and check its last configuration. -/
theorem exists_runWhere {A : M.World → Move M → Prop} {c : Config M} {l : List (Move M)}
    {p : Config M → Bool} (h : (c.run l).any p = true) (permitted : ∀ m ∈ l, ∀ w, A w m) :
    ∃ d, RunWhere A c d ∧ p d = true := by
  cases hr : c.run l with
  | none => simp [hr] at h
  | some d => exact ⟨d, runWhere_of_run hr permitted, by simpa [hr] using h⟩

theorem exists_reaches {c : Config M} {l : List (Move M)} {p : Config M → Bool}
    (h : (c.run l).any p = true) : ∃ d, Reaches c d ∧ p d = true :=
  exists_runWhere h fun _ _ _ => trivial

end Interleaving
