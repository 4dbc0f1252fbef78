import Mathlib.Logic.Function.Basic

/-!
# Programs of fallible requests

A `Program` is the code of one asynchronous task. It runs without interruption between
two requests and is suspended at each of them, until the world answers with a value or
with an error. Everything a task awaits (a statement, a call, a timer) is a request of
its `Signature`; everything it computes in between is an ordinary Lean function.

`raise` and `tryCatch` are the language's exceptions: a request answered with an error
raises it at the point where the task was waiting.
-/

namespace Interleaving

/-- The requests a family of programs may issue, with the type of each one's answer. -/
structure Signature where
  Request : Type
  Answer : Request → Type
  Error : Type

inductive Program (S : Signature) (α : Type) : Type where
  | ret (a : α)
  | raise (e : S.Error)
  | request (q : S.Request) (next : Except S.Error (S.Answer q) → Program S α)

namespace Program

variable {S : Signature} {α β : Type}

def bind : Program S α → (α → Program S β) → Program S β
  | .ret a, f => f a
  | .raise e, _ => .raise e
  | .request q next, f => .request q fun r => (next r).bind f

/-- Run `h` on the error of the first program, with the effects it already had. -/
def tryCatch : Program S α → (S.Error → Program S α) → Program S α
  | .ret a, _ => .ret a
  | .raise e, h => h e
  | .request q next, h => .request q fun r => (next r).tryCatch h

instance : Monad (Program S) where
  pure := .ret
  bind := bind

instance : MonadExcept S.Error (Program S) where
  throw := .raise
  tryCatch := tryCatch

/-- Issue one request and wait for its answer. -/
def perform (q : S.Request) : Program S (S.Answer q) :=
  .request q fun
    | .ok a => .ret a
    | .error e => .raise e

/-- Run `p` if `c` holds. -/
def when (c : Bool) (p : Program S Unit) : Program S Unit := if c then p else .ret ()

@[simp] theorem pure_eq (a : α) : (pure a : Program S α) = .ret a := rfl

@[simp] theorem throw_eq (e : S.Error) : (throw e : Program S α) = .raise e := rfl

@[simp] theorem ret_bind (a : α) (f : α → Program S β) : (Program.ret a >>= f) = f a := rfl

@[simp] theorem raise_bind (e : S.Error) (f : α → Program S β) :
    (Program.raise e >>= f) = .raise e := rfl

@[simp] theorem request_bind (q : S.Request) (next : Except S.Error (S.Answer q) → Program S α)
    (f : α → Program S β) :
    (Program.request q next >>= f) = .request q fun r => next r >>= f := rfl

end Program

end Interleaving
