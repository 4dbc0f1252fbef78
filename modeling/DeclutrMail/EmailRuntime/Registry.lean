import DeclutrMail.Collections.InsertionMap
import Mathlib.Data.Nat.Notation

/-!
# The registry of email workers

A hash of the broker with one record for each boot id, the scripts that change it, and the reader
that decides from it whether emails may be sent. Times are milliseconds of the broker's clock.
-/

namespace DeclutrMail.EmailRuntime

def emailRuntimeLeaseProtocol : String := "email-outbox-lease-v1"

def maxActors : ℕ := 100

/-! ## Records -/

/-- A value in a record, by its type in JSON. -/
inductive Field
  | bool (b : Bool)
  | integer (n : ℤ)
  | fraction
  | text (s : String)
  | other
  deriving DecidableEq

/-- A value of the hash, read as JSON. -/
inductive Raw
  | malformed
  | scalar
  | object (fields : List (String × Field))
  deriving DecidableEq

namespace Raw

def field (raw : Raw) (name : String) : Option Field :=
  match raw with
  | object fields => fields.lookup name
  | malformed | scalar => none

def text (raw : Raw) (name : String) : Option String :=
  match raw.field name with
  | some (.text s) => some s
  | _ => none

def bool (raw : Raw) (name : String) : Option Bool :=
  match raw.field name with
  | some (.bool b) => some b
  | _ => none

def integer (raw : Raw) (name : String) : Option ℤ :=
  match raw.field name with
  | some (.integer n) => some n
  | _ => none

end Raw

structure Actor where
  protocol : String
  revision : String
  source : String
  expiresAt : ℤ
  billingConsumer : Bool
  ready : Bool
  deriving DecidableEq

/-- `cjson.encode` -/
def Actor.encode (a : Actor) : Raw :=
  .object [("protocol", .text a.protocol), ("revision", .text a.revision),
    ("source", .text a.source), ("expiresAt", .integer a.expiresAt),
    ("billingConsumer", .bool a.billingConsumer), ("ready", .bool a.ready)]

/-! ## Names -/

def isLowerHex (c : Char) : Bool := c.isDigit || ('a' ≤ c && c ≤ 'f')

/-- `UUID`, and what the scripts check of a boot id. -/
def isUuid (id : String) : Bool :=
  let cs := id.toList
  cs.length = 36 && cs[8]? = some '-' && cs[13]? = some '-' && cs[18]? = some '-' &&
    cs[23]? = some '-' && (cs.filter (· ≠ '-')).length = 32 && (cs.filter (· ≠ '-')).all isLowerHex

def isSource (source : String) : Bool :=
  source.toList.length = 40 && source.toList.all isLowerHex

def isWorkerRevision (revision : String) : Bool :=
  let suffix := revision.toList.drop "declutrmail-worker-".toList.length
  "declutrmail-worker-".toList.isPrefixOf revision.toList && 1 ≤ suffix.length &&
    suffix.length ≤ 80 &&
      suffix.all fun c => c.isDigit || ('a' ≤ c && c ≤ 'z') || c = '-'

/-! ## The scripts -/

/-- `validEmailRuntimeActor` -/
def validEmailRuntimeActor (id : String) (a : Raw) (protocol : String) (now : ℤ) : Bool :=
  match a.text "revision", a.text "source", a.bool "ready", a.bool "billingConsumer",
    a.integer "expiresAt", a.text "protocol", a with
  | some revision, some source, some _, some _, some expiresAt, some ownProtocol, .object fields =>
    ownProtocol = protocol && isUuid id && isWorkerRevision revision && isSource source &&
      now < expiresAt && expiresAt ≤ now + 120000 && fields.length = 6
  | _, _, _, _, _, _, _ => false

abbrev Registry := InsertionMap String Raw

def validEmailRuntimeActors (registry : Registry) (protocol : String) (now : ℤ) : Bool :=
  registry.entries.length ≤ 100 &&
    registry.entries.all fun (id, a) => validEmailRuntimeActor id a protocol now

structure Identity where
  bootId : String
  revision : String
  source : String
  ttl : ℕ
  billingConsumer : Bool
  uuid : isUuid bootId = true
  worker : isWorkerRevision revision = true
  hash : isSource source = true
  bounds : 1000 ≤ ttl ∧ ttl ≤ 120000

inductive Operation
  | register
  | renew
  | admission
  | publish
  deriving DecidableEq

namespace Identity

variable (lease : Identity)

/-- The immutable part of a record is the lease's. -/
def owns (a : Raw) : Bool :=
  a.text "revision" = some lease.revision && a.text "source" = some lease.source &&
    a.bool "billingConsumer" = some lease.billingConsumer

def record (expiresAt : ℤ) (ready : Bool) : Raw :=
  Actor.encode ⟨emailRuntimeLeaseProtocol, lease.revision, lease.source, expiresAt,
    lease.billingConsumer, ready⟩

/-- The record that a renewal may extend. -/
def current (registry : Registry) (now : ℤ) : Option Raw :=
  (registry.get lease.bootId).filter fun old =>
    validEmailRuntimeActor lease.bootId old emailRuntimeLeaseProtocol now && lease.owns old

/-- `MUTATE`, its answer and the registry it leaves. -/
def mutate (operation : Operation) (now : ℤ) (registry : Registry) : ℤ × Registry :=
  let expires := now + lease.ttl
  match operation with
  | .register =>
    if (registry.get lease.bootId).isSome ∨ 100 ≤ registry.entries.length then (0, registry)
    else (expires, registry.set lease.bootId (lease.record expires false))
  | .admission =>
    match lease.current registry now with
    | none => (0, registry)
    | some old =>
      if validEmailRuntimeActors registry emailRuntimeLeaseProtocol now then
        ((old.integer "expiresAt").getD 0, registry)
      else (0, registry)
  | .renew =>
    match lease.current registry now with
    | none => (0, registry)
    | some old =>
      (expires, registry.set lease.bootId (lease.record expires (old.bool "ready" = some true)))
  | .publish =>
    match lease.current registry now with
    | none => (0, registry)
    | some _ => (expires, registry.set lease.bootId (lease.record expires true))

/-- What `invalidate` and `release` compare: the lease's own record, expired or not. -/
def recognises (old : Raw) : Bool :=
  old.text "protocol" = some emailRuntimeLeaseProtocol && lease.owns old

/-- The script of `invalidate`. -/
def expire (registry : Registry) : ℤ × Registry :=
  match registry.get lease.bootId with
  | none => (1, registry)
  | some (.object fields) =>
    if lease.recognises (.object fields) then
      (1, registry.set lease.bootId (.object (fields.map fun (name, value) =>
        (name, if name = "expiresAt" then .integer 0 else value))))
    else (0, registry)
  | some _ => (0, registry)

/-- The script of `release`. -/
def remove (registry : Registry) : ℤ × Registry :=
  match registry.get lease.bootId with
  | none => (1, registry)
  | some old => if lease.recognises old then (1, registry.delete lease.bootId) else (0, registry)

end Identity

/-! ## The reader -/

inductive Refusal
  | runtimeAdoptionUnverified
  | runtimeRegistryMalformed
  | noWorkers
  | incompatibleWorkers
  | leaseLost
  | runtimeSettlementUnverified
  deriving DecidableEq

/-- What the reader uses of a witness whose seal is verified. -/
structure Sealed where
  revisions : List (String × String)
  billingConsumerRequired : Bool
  deriving DecidableEq

def actorKeys : List String :=
  ["billingConsumer", "expiresAt", "protocol", "ready", "revision", "source"]

/-- `Number.isSafeInteger` -/
def isSafeInteger (n : ℤ) : Bool := -(2 ^ 53 - 1) ≤ n && n ≤ 2 ^ 53 - 1

/-- `actor`, which reads a record. -/
def actor (raw : Raw) : Except Refusal Actor :=
  match raw, raw.text "protocol", raw.text "revision", raw.text "source",
    raw.integer "expiresAt", raw.bool "billingConsumer", raw.bool "ready" with
  | .object fields, some protocol, some revision, some source, some expiresAt,
    some billingConsumer, some ready =>
    if (fields.map Prod.fst).isPerm actorKeys && isSafeInteger expiresAt then
      .ok ⟨protocol, revision, source, expiresAt, billingConsumer, ready⟩
    else .error .runtimeRegistryMalformed
  | _, _, _, _, _, _, _ => .error .runtimeRegistryMalformed

/-- The checks of one row. -/
def checkRow (proof : Sealed) (now : ℤ) (id : String) (raw : Raw) : Except Refusal Actor := do
  if ¬isUuid id then throw .runtimeRegistryMalformed
  let a ← actor raw
  if now + 120000 < a.expiresAt then throw .runtimeRegistryMalformed
  if a.protocol ≠ emailRuntimeLeaseProtocol ∨ (a.revision, a.source) ∉ proof.revisions then
    throw .incompatibleWorkers
  if a.expiresAt ≤ now then throw .runtimeSettlementUnverified
  return a

/-- The workers that are ready, and how many of them consume billing events. -/
def countRows (proof : Sealed) (now : ℤ) : List (String × Raw) → Except Refusal (ℕ × ℕ)
  | [] => return (0, 0)
  | (id, raw) :: rows => do
    let a ← checkRow proof now id raw
    let (workers, billingWorkers) ← countRows proof now rows
    return if a.ready then (workers + 1, billingWorkers + if a.billingConsumer then 1 else 0)
      else (workers, billingWorkers)

/-- The reader. `verify` is `verifySealedAdoptionWitness` at a time, `date` the reader's own clock
and `invalidated` what the broker has for the witness's digest. -/
def readEmailRuntimeLeases {Witness : Type} (verify : Witness → ℤ → Except Refusal Sealed)
    (witness : Witness) (date : ℤ) (invalidated : Bool) (now : ℤ) (registry : Registry) :
    Except Refusal ℕ := do
  let proof ← verify witness date
  if invalidated then throw .runtimeAdoptionUnverified
  if maxActors < registry.entries.length then throw .runtimeRegistryMalformed
  let _ ← verify witness now
  let (workers, billingWorkers) ← countRows proof now registry.entries
  if workers = 0 ∨ (proof.billingConsumerRequired ∧ billingWorkers = 0) then throw .noWorkers
  return workers

/-! ## What the reader accepts -/

/-- The record is an object with the six fields of `a` and no others. -/
structure WellFormed (raw : Raw) (a : Actor) : Prop where
  keys : ∃ fields, raw = .object fields ∧ (fields.map Prod.fst).Perm actorKeys
  protocol : raw.field "protocol" = some (.text a.protocol)
  revision : raw.field "revision" = some (.text a.revision)
  source : raw.field "source" = some (.text a.source)
  expiresAt : raw.field "expiresAt" = some (.integer a.expiresAt)
  billingConsumer : raw.field "billingConsumer" = some (.bool a.billingConsumer)
  ready : raw.field "ready" = some (.bool a.ready)

/-- A row that does not stand in the reader's way. -/
structure Settled (proof : Sealed) (now : ℤ) (id : String) (raw : Raw) : Prop where
  uuid : isUuid id = true
  actor : ∃ a, WellFormed raw a ∧ a.protocol = emailRuntimeLeaseProtocol ∧
    (a.revision, a.source) ∈ proof.revisions ∧ now < a.expiresAt ∧ a.expiresAt ≤ now + 120000

namespace Raw

variable {raw : Raw} {name s : String} {b : Bool} {n : ℤ}

theorem text_eq_some (h : raw.text name = some s) : raw.field name = some (.text s) := by
  unfold text at h
  split at h
  · next found => rw [found, Option.some.inj h]
  · cases h

theorem bool_eq_some (h : raw.bool name = some b) : raw.field name = some (.bool b) := by
  unfold bool at h
  split at h
  · next found => rw [found, Option.some.inj h]
  · cases h

theorem integer_eq_some (h : raw.integer name = some n) : raw.field name = some (.integer n) := by
  unfold integer at h
  split at h
  · next found => rw [found, Option.some.inj h]
  · cases h

end Raw

theorem actor_wellFormed {raw : Raw} {a : Actor} (h : actor raw = .ok a) : WellFormed raw a := by
  unfold actor at h
  split at h
  · next fields protocol revision source expiresAt billingConsumer ready p r s e b y =>
    split_ifs at h with keys
    obtain rfl := Except.ok.inj h
    have keys := (Bool.and_eq_true_iff.mp keys).1
    exact ⟨⟨fields, rfl, List.isPerm_iff.mp keys⟩, Raw.text_eq_some p, Raw.text_eq_some r,
      Raw.text_eq_some s, Raw.integer_eq_some e, Raw.bool_eq_some b, Raw.bool_eq_some y⟩
  · cases h

section Reader

variable {proof : Sealed} {now : ℤ}

theorem checkRow_settled {id : String} {raw : Raw} {a : Actor}
    (h : checkRow proof now id raw = .ok a) : Settled proof now id raw := by
  unfold checkRow at h
  simp only [bind, Except.bind, throw, throwThe, MonadExceptOf.throw, pure, Except.pure] at h
  split_ifs at h with uuid
  split at h
  · cases h
  · next a' parsed =>
    split_ifs at h with far other expired
    obtain ⟨protocol, revision⟩ := not_or.mp other
    exact ⟨uuid, a', actor_wellFormed parsed, not_not.mp protocol, not_not.mp revision, by omega,
      by omega⟩

theorem countRows_settled {rows : List (String × Raw)} {counts : ℕ × ℕ}
    (h : countRows proof now rows = .ok counts) :
    ∀ row ∈ rows, Settled proof now row.1 row.2 := by
  induction rows generalizing counts with
  | nil => simp
  | cons row rows ih =>
    obtain ⟨id, raw⟩ := row
    unfold countRows at h
    simp only [bind, Except.bind] at h
    split at h
    · cases h
    · next a checked =>
      split at h
      · cases h
      · next rest counted => exact List.forall_mem_cons.mpr ⟨checkRow_settled checked, ih counted⟩

/-- The reader succeeds only over settled rows, whatever the witness. -/
theorem read_settled {Witness : Type} {verify : Witness → ℤ → Except Refusal Sealed}
    {witness : Witness} {date : ℤ} {invalidated : Bool} {registry : Registry} {workers : ℕ}
    (h : readEmailRuntimeLeases verify witness date invalidated now registry = .ok workers) :
    ∃ proof, verify witness date = .ok proof ∧
      ∀ id raw, registry.get id = some raw → Settled proof now id raw := by
  unfold readEmailRuntimeLeases at h
  simp only [bind, Except.bind, throw, throwThe, MonadExceptOf.throw, pure, Except.pure] at h
  split at h
  · cases h
  · next proof verified =>
    split_ifs at h
    split at h
    · cases h
    · split at h
      · cases h
      · next counts counted =>
        exact ⟨proof, verified, fun id raw found =>
          countRows_settled counted (id, raw) (InsertionMap.mem_entries_iff.mpr found)⟩

end Reader

end DeclutrMail.EmailRuntime
