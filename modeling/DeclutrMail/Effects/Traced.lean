import Mathlib.Data.Nat.Notation

/-!
# Programs that leave a trace

A run appends its events to a trace and ends with a value or with an error. The events before
an error stay. `attempt` is `try … catch`, and each law names the way its first part ended.
-/

namespace DeclutrMail

structure Traced (ε ω α : Type) where
  trace : List ω
  result : Except ε α

namespace Traced

variable {ε ω α β : Type}

def bind (m : Traced ε ω α) (f : α → Traced ε ω β) : Traced ε ω β :=
  match m.result with
  | .ok a => ⟨m.trace ++ (f a).trace, (f a).result⟩
  | .error e => ⟨m.trace, .error e⟩

instance : Monad (Traced ε ω) where
  pure a := ⟨[], .ok a⟩
  bind := bind

def emit (event : ω) : Traced ε ω Unit := ⟨[event], .ok ()⟩

def raise (error : ε) : Traced ε ω α := ⟨[], .error error⟩

/-- A call outside the model, of which only the answer is known. -/
def answer (result : Except ε α) : Traced ε ω α := ⟨[], result⟩

def attempt (m : Traced ε ω α) (handler : ε → Traced ε ω α) : Traced ε ω α :=
  match m.result with
  | .ok _ => m
  | .error e => ⟨m.trace ++ (handler e).trace, (handler e).result⟩

/-! ## Laws -/

variable {m : Traced ε ω α} {f : α → Traced ε ω β} {handler : ε → Traced ε ω α}

@[simp] theorem trace_pure (a : α) : (pure a : Traced ε ω α).trace = [] := rfl
@[simp] theorem result_pure (a : α) : (pure a : Traced ε ω α).result = .ok a := rfl
@[simp] theorem trace_emit (event : ω) : (emit event : Traced ε ω Unit).trace = [event] := rfl
@[simp] theorem result_emit (event : ω) : (emit event : Traced ε ω Unit).result = .ok () := rfl
@[simp] theorem trace_raise (e : ε) : (raise e : Traced ε ω α).trace = [] := rfl
@[simp] theorem result_raise (e : ε) : (raise e : Traced ε ω α).result = .error e := rfl
@[simp] theorem trace_answer (r : Except ε α) : (answer r : Traced ε ω α).trace = [] := rfl
@[simp] theorem result_answer (r : Except ε α) : (answer r : Traced ε ω α).result = r := rfl

theorem bind_of_ok {a : α} (ended : m.result = .ok a) :
    m >>= f = ⟨m.trace ++ (f a).trace, (f a).result⟩ := by
  change bind m f = _
  simp only [bind, ended]

theorem bind_of_error {e : ε} (ended : m.result = .error e) :
    m >>= f = ⟨m.trace, .error e⟩ := by
  change bind m f = _
  simp only [bind, ended]

theorem attempt_of_ok {a : α} (ended : m.result = .ok a) : attempt m handler = m := by
  simp only [attempt, ended]

theorem attempt_of_error {e : ε} (ended : m.result = .error e) :
    attempt m handler = ⟨m.trace ++ (handler e).trace, (handler e).result⟩ := by
  simp only [attempt, ended]

/-- A handler that returns makes the whole return. -/
theorem result_attempt {m : Traced ε ω Unit} {handler : ε → Traced ε ω Unit}
    (handled : ∀ e, (handler e).result = .ok ()) : (attempt m handler).result = .ok () := by
  cases ended : m.result with
  | ok a => rw [attempt_of_ok ended, ended]
  | error e => rw [attempt_of_error ended, handled]

end Traced
end DeclutrMail
