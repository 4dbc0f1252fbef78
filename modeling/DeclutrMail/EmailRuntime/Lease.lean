import DeclutrMail.EmailRuntime.Registry
import DeclutrMail.Interleaving.Triple

/-!
# The lease of an email worker

`EmailRuntimeLease`: the calls that a worker makes on its own lease, any number of them under way
at a time. A call sends a script to the broker, which executes it later, if at all; the reply may
be lost, and a script whose caller has given up may still be executed. Others write the records of
other boot ids.
-/

namespace DeclutrMail.EmailRuntime

open Interleaving

/-! ## Programs -/

inductive Command
  | mutate (operation : Operation)
  | expire
  | remove
  deriving DecidableEq

inductive Request
  /-- What `mutate` does before it waits. -/
  | enter (operation : Operation)
  | await (command : ℕ)
  /-- What `mutate` does with the reply; `none` is an exception. -/
  | conclude (result : Option ℤ)
  | startTimer
  /-- The timer fires; nothing happens while a renewal is in flight. -/
  | beginRenew
  | endRenew
  | stopRenewing
  | onLost
  /-- What `invalidate` does before it waits. -/
  | fence
  | awaitRenew
  | deactivate
  /-- What `release` does before it waits. -/
  | retire
  | sendRemove

@[reducible]
def Request.Answer : Request → Type
  | .enter _ | .fence | .sendRemove => ℕ
  | .await _ => ℤ
  | .beginRenew => Bool
  | .conclude _ | .startTimer | .endRenew | .stopRenewing | .onLost | .awaitRenew | .deactivate
  | .retire => Unit

inductive LeaseError
  | refused (reason : Refusal)
  | connection
  deriving DecidableEq

@[reducible]
def leaseSignature : Signature := ⟨Request, Request.Answer, LeaseError⟩

abbrev LeaseProgram := Program leaseSignature

def run (q : Request) : LeaseProgram q.Answer := Program.perform (S := leaseSignature) q

def mutate (operation : Operation) : LeaseProgram Unit := do
  let command ← run (.enter operation)
  let result ← tryCatch (do
    let reply ← run (.await command)
    return some reply) fun _ => return none
  run (.conclude result)

/-- One firing of the renewal timer. -/
def tick : LeaseProgram Unit := do
  if ← run .beginRenew then
    tryCatch (mutate .renew) fun _ => do
      run .stopRenewing
      tryCatch (run .onLost) fun _ => return
    run .endRenew
  else return

def invalidate : LeaseProgram Unit := do
  let command ← run .fence
  let revoked ← run (.await command)
  tryCatch (run .awaitRenew) fun _ => return
  run .deactivate
  if revoked = 1 then return else throw (.refused .leaseLost)

def release : LeaseProgram Unit := do
  run .retire
  run .awaitRenew
  let command ← run .sendRemove
  let removed ← run (.await command)
  if removed = 1 then return else throw (.refused .runtimeRegistryMalformed)

inductive Call
  | mutate (operation : Operation)
  | startRenewing
  | tick
  | invalidate
  | release

def Call.code : Call → LeaseProgram Unit
  | .mutate operation => EmailRuntime.mutate operation
  | .startRenewing => run .startTimer
  | .tick => EmailRuntime.tick
  | .invalidate => EmailRuntime.invalidate
  | .release => EmailRuntime.release

/-! ## The system -/

structure World where
  /-- The broker's clock. -/
  now : ℤ
  registry : Registry
  active : Bool
  revoked : Bool
  registrationAttempted : Bool
  /-- `renewTimer` is set. -/
  timer : Bool
  /-- `renewInFlight` is set. -/
  renewing : Bool
  nextCommand : ℕ
  /-- The commands that have been sent and not executed. -/
  commands : List (ℕ × Command)
  /-- The replies of those that have been executed. -/
  replies : List (ℕ × ℤ)
  /-- The lease's record has been in the registry. -/
  registered : Bool
  /-- The record has been taken out of it. -/
  removed : Bool

section System

variable (lease : Identity)

def Command.execute (now : ℤ) (registry : Registry) : Command → ℤ × Registry
  | .mutate operation => lease.mutate operation now registry
  | .expire => lease.expire registry
  | .remove => lease.remove registry

namespace World

variable (w : World)

def send (command : Command) : World :=
  { w with
    nextCommand := w.nextCommand + 1
    commands := w.commands ++ [(w.nextCommand, command)] }

/-- The broker executes a command and holds its reply ready. -/
def execute (id : ℕ) (command : Command) : World :=
  let (reply, registry) := command.execute lease w.now w.registry
  { w with
    registry := registry
    commands := w.commands.erase (id, command)
    replies := w.replies ++ [(id, reply)]
    registered := w.registered || (registry.get lease.bootId).isSome
    removed := w.removed ||
      ((w.registry.get lease.bootId).isSome && (registry.get lease.bootId).isNone) }

def lose : World := { w with active := false, revoked := true }

end World

inductive Choice
  | ok
  | error

def lost : LeaseError := .refused .leaseLost

def answer (q : Request) (c : Choice) (w : World) :
    Option (Except LeaseError q.Answer × World) :=
  match q, c with
  | .enter operation, .ok =>
    if operation = .register then
      if w.registrationAttempted then some (.error lost, w)
      else if w.revoked then some (.error lost, { w with registrationAttempted := true })
      else some (.ok w.nextCommand,
        { w with registrationAttempted := true }.send (.mutate operation))
    else if w.revoked ∨ w.active = false then some (.error lost, w)
    else some (.ok w.nextCommand, w.send (.mutate operation))
  | .await command, .ok => (w.replies.lookup command).map fun reply => (.ok reply, w)
  | .await _, .error => some (.error .connection, w)
  | .conclude (some reply), .ok =>
    if w.revoked ∨ reply ≤ 0 then some (.error lost, w.lose)
    else some (.ok (), { w with active := true })
  | .conclude none, .ok => some (.error lost, w.lose)
  | .startTimer, .ok =>
    if w.active = false ∨ w.timer then some (.error lost, w)
    else some (.ok (), { w with timer := true })
  | .beginRenew, .ok =>
    if w.timer = false then none
    else if w.renewing then some (.ok false, w)
    else some (.ok true, { w with renewing := true })
  | .endRenew, .ok => some (.ok (), { w with renewing := false })
  | .stopRenewing, .ok => some (.ok (), { w with timer := false })
  | .onLost, .ok => some (.ok (), w)
  | .onLost, .error => some (.error .connection, w)
  | .fence, .ok =>
    some (.ok w.nextCommand, { w.lose with timer := false }.send .expire)
  | .awaitRenew, .ok => if w.renewing then none else some (.ok (), w)
  | .awaitRenew, .error => if w.renewing then none else some (.error .connection, w)
  | .deactivate, .ok => some (.ok (), { w with active := false })
  | .retire, .ok => some (.ok (), { w with revoked := true, timer := false })
  | .sendRemove, .ok => some (.ok w.nextCommand, { w with active := false }.send .remove)
  | _, .error => none

inductive Event
  | execute (id : ℕ) (command : Command)
  | elapse (ms : ℕ)
  | foreign (id : String) (record : Option Raw)

def disturb (e : Event) (w : World) : Option World :=
  match e with
  | .execute id command =>
    if (id, command) ∈ w.commands then some (w.execute lease id command) else none
  | .elapse ms => some { w with now := w.now + ms }
  | .foreign id record =>
    if id = lease.bootId then none
    else some { w with registry := match record with
      | some raw => w.registry.set id raw
      | none => w.registry.delete id }

/-- The calls on one lease, and what else happens to the registry. -/
@[reducible]
def leasing : System leaseSignature where
  World := World
  Thread := ℕ
  Task := Call
  Outcome := Unit
  Choice := Choice
  Event := Event
  code := Call.code
  accept _ _ w := some w
  answer _ := answer
  settle _ _ w := some w
  crash _ w := some w
  disturb := disturb lease

end System

end DeclutrMail.EmailRuntime
