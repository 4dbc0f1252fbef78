import Mathlib.Init

/-!
# Contracts of fallible stateful programs

`Meets A m B E` says that `m`, run from a state that satisfies `A`, ends in `B` with a
value or in `E` with an error. The rules below follow the shape of the program.
-/

variable {σ ε α β : Type}

/-- The value or the error a program ended with, and the state it left. -/
def EStateM.Result.outcome : EStateM.Result ε σ α → Except ε α × σ
  | .ok a s => (.ok a, s)
  | .error e s => (.error e, s)

def Meets (A : σ → Prop) (m : EStateM ε σ α) (B : α → σ → Prop) (E : ε → σ → Prop) : Prop :=
  ∀ s, A s → match m s with
    | .ok a s' => B a s'
    | .error e s' => E e s'

namespace Meets

variable {A A' : σ → Prop} {B B' : α → σ → Prop} {C : β → σ → Prop} {E E' : ε → σ → Prop}

theorem ret {a : α} (h : ∀ s, A s → B a s) : Meets A (pure a) B E := fun s hs => h s hs

theorem raise {e : ε} (h : ∀ s, A s → E e s) : Meets A (throw e : EStateM ε σ α) B E :=
  fun s hs => h s hs

theorem bind {m : EStateM ε σ α} {f : α → EStateM ε σ β} (first : Meets A m B E)
    (rest : ∀ a, Meets (B a) (f a) C E) : Meets A (m >>= f) C E := by
  intro s hs
  have mid := first s hs
  change match EStateM.bind m f s with
    | .ok b s' => C b s'
    | .error e s' => E e s'
  unfold EStateM.bind
  cases ran : m s with
  | ok a s' =>
    rw [ran] at mid
    exact rest a s' mid
  | error e s' =>
    rw [ran] at mid
    exact mid

theorem modify {f : σ → σ} {B : Unit → σ → Prop} (h : ∀ s, A s → B () (f s)) :
    Meets A (modify f : EStateM ε σ PUnit) B E := fun s hs => h s hs

theorem get {B : σ → σ → Prop} (h : ∀ s, A s → B s s) :
    Meets A (get : EStateM ε σ σ) B E := fun s hs => h s hs

theorem mono {m : EStateM ε σ α} (h : Meets A' m B' E') (pre : ∀ s, A s → A' s)
    (post : ∀ a s, B' a s → B a s) (fails : ∀ e s, E' e s → E e s) : Meets A m B E := by
  intro s hs
  have kept := h s (pre s hs)
  split at kept
  · exact post _ _ kept
  · exact fails _ _ kept

theorem pre {m : EStateM ε σ α} (h : Meets A' m B E) (le : ∀ s, A s → A' s) : Meets A m B E :=
  h.mono le (fun _ _ => id) fun _ _ => id

theorem post {m : EStateM ε σ α} (h : Meets A m B' E) (le : ∀ a s, B' a s → B a s) :
    Meets A m B E := h.mono (fun _ => id) le fun _ _ => id

/-- The result of a run that meets its contract. -/
theorem outcome {m : EStateM ε σ α} {s : σ} (h : Meets A m B E) (hs : A s) :
    match (m s).outcome with
    | (.ok a, s') => B a s'
    | (.error e, s') => E e s' := by
  have run := h s hs
  split at run
  · rename_i a s' ran
    rw [ran]
    exact run
  · rename_i e s' ran
    rw [ran]
    exact run

end Meets
