import Mathlib.Data.Int.Order.Basic
import Mathlib.Data.List.Basic
import Mathlib.Logic.Relation

/-!
# The circuit breaker

`LlmCircuitBreaker` pauses the calls to the language model after a refusal that will repeat. Both
adapters ask it before they call, and report to it what a call has thrown. Calls that are under way
when a pause starts are still refused one by one (`refusals_le_of_reachable`).
-/

namespace DeclutrMail.Adapters

/-! ## What the provider answers -/

inductive ProviderRejectionReason
  | credit_balance | spend_limit | tier_spend_cap | billing_error | auth | not_found | other
  deriving DecidableEq

def PAUSES : ProviderRejectionReason → Bool
  | .other => false
  | _ => true

/-- What is read of a thrown value; a field is `none` unless it has the type that is asked for. -/
structure ProviderError where
  status : Option ℤ
  /-- `type`, and `error.type` in the body -/
  directType : Option String
  bodyType : Option String
  /-- `error.details.error_code` and `error.message` in the body -/
  bodyErrorCode : Option String
  bodyMessage : Option String
  requestID : Option String
  bodyRequestId : Option String

structure ProviderRejection where
  reason : ProviderRejectionReason
  status : ℤ
  type : Option String
  errorCode : Option String
  requestId : Option String
  deriving DecidableEq

/-- `/^[a-z][a-z0-9_]{0,63}$/` -/
def PROVIDER_ID (value : String) : Bool :=
  match value.toList with
  | [] => false
  | c :: cs => c.isLower && cs.length ≤ 63 && cs.all fun d => d.isLower || d.isDigit || d = '_'

/-- `/^[A-Za-z0-9_-]{1,128}$/` -/
def REQUEST_ID (value : String) : Bool :=
  1 ≤ value.length && value.length ≤ 128 &&
    value.toList.all fun d => d.isAlphanum || d = '_' || d = '-'

/-- A value of the provider, if it has the shape of an identifier. -/
def identifier (value : Option String) (shape : String → Bool) : Option String :=
  value.filter shape

def errorType (err : ProviderError) : Option String := err.directType.or err.bodyType

def requestIdOf (err : ProviderError) : Option String :=
  identifier (err.requestID.or err.bodyRequestId) REQUEST_ID

/-- Whether a message starts with a sentence, in capital or small letters. -/
def startsWith (sentence message : String) : Bool :=
  (sentence.toList.map Char.toUpper).isPrefixOf (message.toList.map Char.toUpper)

def refusalReason (status : ℤ) (type errorCode : Option String) (message : String) :
    Option ProviderRejectionReason :=
  if errorCode = some "enforced_spend_limit_reached" then some .tier_spend_cap
  else if status = 402 ∨ type = some "billing_error" then some .billing_error
  else if startsWith "Your credit balance is too low" message then some .credit_balance
  else if startsWith "You have reached your specified API usage limits" message ||
      startsWith "You have reached your specified workspace API usage limits" message then
    some .spend_limit
  else if startsWith "You have reached your API usage limits" message then some .tier_spend_cap
  else if status = 429 then if errorCode = none then none else some .other
  else if status = 401 ∨ status = 403 then some .auth
  else if status = 404 then some .not_found
  else some .other

def classifyProviderRejection (err : ProviderError) : Option ProviderRejection := do
  let status ← err.status
  if status < 400 ∨ 500 ≤ status ∨ status = 408 ∨ status = 409 then none
  else
    let type := identifier (errorType err) PROVIDER_ID
    let errorCode := identifier err.bodyErrorCode PROVIDER_ID
    let reason ← refusalReason status type errorCode (err.bodyMessage.getD "")
    return ⟨reason, status, type, errorCode, requestIdOf err⟩

/-! ## The breaker -/

def DEFAULT_LLM_COOLDOWN_MS : ℤ := 15 * 60 * 1000

def isBlocked (pausedUntil now : ℤ) : Bool := now < pausedUntil

/-- The refusal, the new end of the pause, and whether `onTrip` is called. The clock is read for the
check and again for the pause. -/
def recordFailure (cooldownMs pausedUntil : ℤ) (err : ProviderError) (checkedAt pausedAt : ℤ) :
    Option ProviderRejection × ℤ × Bool :=
  match classifyProviderRejection err with
  | none => (none, pausedUntil, false)
  | some rejection =>
    let pauses := PAUSES rejection.reason
    let tripped := pauses && !isBlocked pausedUntil checkedAt
    (some rejection, if pauses then pausedAt + cooldownMs else pausedUntil, tripped)

/-! ## Calls -/

/-- `refusals` counts the calls that were refused with a pause, and `trips` has the clock of every
call of `onTrip`, the last one first. -/
structure Account where
  pausedUntil : ℤ
  clock : ℤ
  inFlight : ℕ
  refusals : ℕ
  trips : List ℤ

def Account.start : Account := ⟨0, 0, 0, 0, []⟩

variable (cooldownMs : ℤ) (slots : ℕ)

/-- An adapter calls in one of its slots unless the calls are paused, and a call comes back in any
order. The clock does not step back. -/
inductive Step : Account → Account → Prop
  | call {a : Account} {now : ℤ} (later : a.clock ≤ now) (free : a.inFlight < slots)
      (open_ : isBlocked a.pausedUntil now = false) :
    Step a { a with clock := now, inFlight := a.inFlight + 1 }
  | skip {a : Account} {now : ℤ} (later : a.clock ≤ now)
      (blocked : isBlocked a.pausedUntil now = true) : Step a { a with clock := now }
  | answer {a : Account} {n : ℕ} (busy : a.inFlight = n + 1) : Step a { a with inFlight := n }
  | failure {a : Account} {n : ℕ} {err : ProviderError} {checkedAt pausedAt : ℤ}
      {rejection : Option ProviderRejection} {pausedUntil : ℤ} {tripped : Bool}
      (busy : a.inFlight = n + 1) (later : a.clock ≤ checkedAt) (order : checkedAt ≤ pausedAt)
      (record : recordFailure cooldownMs a.pausedUntil err checkedAt pausedAt =
        (rejection, pausedUntil, tripped)) :
    Step a {
      pausedUntil
      clock := pausedAt
      inFlight := n
      refusals := a.refusals + if rejection.any (PAUSES ·.reason) then 1 else 0
      trips := if tripped then pausedAt :: a.trips else a.trips }

def Reachable (a : Account) : Prop := Relation.ReflTransGen (Step cooldownMs slots) Account.start a

/-- How a failure leaves the pause. -/
theorem recordFailure_cases {pausedUntil pausedUntil' checkedAt pausedAt : ℤ}
    {err : ProviderError} {rejection : Option ProviderRejection} {tripped : Bool}
    (record : recordFailure cooldownMs pausedUntil err checkedAt pausedAt =
      (rejection, pausedUntil', tripped)) :
    rejection.any (PAUSES ·.reason) = false ∧ pausedUntil' = pausedUntil ∧ tripped = false ∨
      rejection.any (PAUSES ·.reason) = true ∧ pausedUntil' = pausedAt + cooldownMs ∧
        (tripped = true ↔ pausedUntil ≤ checkedAt) := by
  unfold recordFailure at record
  split at record
  · obtain ⟨rfl, rfl, rfl⟩ := by simpa using record
    exact .inl ⟨rfl, rfl, rfl⟩
  · rename_i refusal _
    obtain ⟨rfl, rfl, rfl⟩ := by simpa using record
    by_cases pauses : PAUSES refusal.reason
    · exact .inr ⟨pauses, by simp [pauses], by simp [pauses, isBlocked]⟩
    · exact .inl (by simp [pauses])

/-- `since` refusals have come since the last trip. While a pause lasts no call goes out, so that
they and the calls under way fit into the slots. -/
structure Bounded (a : Account) (since : ℕ) : Prop where
  time : 0 ≤ a.clock
  calls : a.inFlight ≤ slots
  fit : since ≤ slots
  paused : a.clock < a.pausedUntil → since + a.inFlight ≤ slots
  untripped : a.trips = [] → a.pausedUntil = 0 ∧ since = 0
  total : a.refusals ≤ slots * a.trips.tail.length + since
  ended : ∀ trip ∈ a.trips, trip + cooldownMs ≤ a.pausedUntil
  past : ∀ trip ∈ a.trips, trip ≤ a.clock
  apart : a.trips.Pairwise fun later earlier => earlier + cooldownMs ≤ later

variable {cooldownMs slots} {a a' : Account}

theorem bounded_start : Bounded cooldownMs slots .start 0 :=
  ⟨le_rfl, Nat.zero_le _, Nat.zero_le _, fun _ => Nat.zero_le _, fun _ => ⟨rfl, rfl⟩,
    Nat.zero_le _, nofun, nofun, List.Pairwise.nil⟩

/-- Every trip accounts for a refusal in each slot. -/
theorem Bounded.refusals_le {since : ℕ} (bounded : Bounded cooldownMs slots a since) :
    a.refusals ≤ slots * a.trips.length := by
  have total := bounded.total
  have fit := bounded.fit
  cases trips : a.trips with
  | nil =>
    have none := (bounded.untripped trips).2
    rw [trips, none] at total
    exact total
  | cons trip trips' =>
    rw [trips, List.tail_cons] at total
    rw [List.length_cons, Nat.mul_succ]
    omega

/-- A refusal that starts a pause. -/
theorem Bounded.trip {since n : ℕ} (bounded : Bounded cooldownMs slots a since)
    (busy : a.inFlight = n + 1) {checkedAt pausedAt : ℤ} (later : a.clock ≤ checkedAt)
    (order : checkedAt ≤ pausedAt) (open_ : a.pausedUntil ≤ checkedAt) :
    Bounded cooldownMs slots
      ⟨pausedAt + cooldownMs, pausedAt, n, a.refusals + 1, pausedAt :: a.trips⟩ 1 := by
  have time := bounded.time
  have calls := bounded.calls
  have earlier (trip : ℤ) (mem : trip ∈ a.trips) : trip ≤ pausedAt :=
    le_trans (bounded.past trip mem) (le_trans later order)
  refine ⟨by dsimp; omega, by dsimp; omega, by omega, fun _ => by dsimp; omega, nofun,
    Nat.add_le_add_right bounded.refusals_le 1, ?_, ?_, ?_⟩
  · exact List.forall_mem_cons.mpr
      ⟨le_rfl, fun trip mem => Int.add_le_add_right (earlier trip mem) cooldownMs⟩
  · exact List.forall_mem_cons.mpr ⟨le_rfl, earlier⟩
  · refine List.pairwise_cons.mpr ⟨fun trip mem => ?_, bounded.apart⟩
    exact le_trans (bounded.ended trip mem) (le_trans open_ order)

/-- A refusal during a pause, which it prolongs. -/
theorem Bounded.again {since n : ℕ} (bounded : Bounded cooldownMs slots a since)
    (busy : a.inFlight = n + 1) {checkedAt pausedAt : ℤ} (later : a.clock ≤ checkedAt)
    (order : checkedAt ≤ pausedAt) (blocked : checkedAt < a.pausedUntil) :
    Bounded cooldownMs slots
      ⟨pausedAt + cooldownMs, pausedAt, n, a.refusals + 1, a.trips⟩ (since + 1) := by
  have time := bounded.time
  have calls := bounded.calls
  have room := bounded.paused (by omega)
  have total := bounded.total
  have earlier (trip : ℤ) (mem : trip ∈ a.trips) : trip ≤ pausedAt :=
    le_trans (bounded.past trip mem) (le_trans later order)
  refine ⟨by dsimp; omega, by dsimp; omega, by omega, fun _ => by dsimp; omega, fun none => ?_,
    by dsimp; omega, fun trip mem => Int.add_le_add_right (earlier trip mem) cooldownMs, earlier,
    bounded.apart⟩
  have := (bounded.untripped none).1
  omega

theorem Bounded.step {since : ℕ} (bounded : Bounded cooldownMs slots a since)
    (step : Step cooldownMs slots a a') : ∃ since', Bounded cooldownMs slots a' since' := by
  have time := bounded.time
  have calls := bounded.calls
  cases step with
  | @call now later free open_ =>
    have ended : a.pausedUntil ≤ now := by simpa [isBlocked] using open_
    exact ⟨since, { bounded with
      time := le_trans time later
      calls := free
      paused := fun early => absurd ended (not_le_of_gt early)
      past := fun trip mem => le_trans (bounded.past trip mem) later }⟩
  | @skip now later blocked =>
    have still : now < a.pausedUntil := by simpa [isBlocked] using blocked
    exact ⟨since, { bounded with
      time := le_trans time later
      paused := fun _ => bounded.paused (lt_of_le_of_lt later still)
      past := fun trip mem => le_trans (bounded.past trip mem) later }⟩
  | @answer n busy =>
    exact ⟨since, { bounded with
      calls := by dsimp; omega
      paused := fun early => by
        have := bounded.paused early
        dsimp
        omega }⟩
  | @failure n err checkedAt pausedAt rejection pausedUntil tripped busy later order record =>
    rcases recordFailure_cases cooldownMs record with
      ⟨harmless, rfl, rfl⟩ | ⟨pauses, rfl, trips⟩
    · rw [if_neg (by simp [harmless])]
      exact ⟨since, { bounded with
        time := le_trans time (le_trans later order)
        calls := by dsimp; omega
        paused := fun early => by
          have := bounded.paused (lt_of_le_of_lt (le_trans later order) early)
          dsimp
          omega
        past := fun trip mem =>
          le_trans (bounded.past trip mem) (le_trans later order) }⟩
    · rw [if_pos pauses]
      cases tripped with
      | true => exact ⟨1, bounded.trip busy later order (trips.mp rfl)⟩
      | false =>
        have blocked : checkedAt < a.pausedUntil := by
          by_contra ended
          cases trips.mpr (not_lt.mp ended)
        exact ⟨since + 1, bounded.again busy later order blocked⟩

theorem bounded_of_reachable (reachable : Reachable cooldownMs slots a) :
    ∃ since, Bounded cooldownMs slots a since := by
  induction reachable with
  | refl => exact ⟨0, bounded_start⟩
  | tail _ step ih =>
    obtain ⟨since, bounded⟩ := ih
    exact bounded.step step

/-- An account that keeps refusing costs at most one refused call for each slot and trip, and trips
are at least a cool-down apart. -/
theorem refusals_le_of_reachable (reachable : Reachable cooldownMs slots a) :
    a.refusals ≤ slots * a.trips.length ∧
      a.trips.Pairwise fun later earlier => earlier + cooldownMs ≤ later := by
  obtain ⟨since, bounded⟩ := bounded_of_reachable reachable
  exact ⟨bounded.refusals_le, bounded.apart⟩

/-- Two calls are under way when the balance runs out, and the first refusal starts the pause. -/
def outage : Account := ⟨6 + DEFAULT_LLM_COOLDOWN_MS, 6, 0, 2, [5]⟩

theorem refusals_le_of_reachable_outage :
    outage.refusals ≤ 2 * outage.trips.length := by
  let error : ProviderError := ⟨some 400, none, some "invalid_request_error", none,
    some "Your credit balance is too low to access the API.", none, none⟩
  let rejection : ProviderRejection :=
    ⟨.credit_balance, 400, some "invalid_request_error", none, none⟩
  have classified : classifyProviderRejection error = some rejection := by decide
  have call (n : ℕ) (free : n < 2) : Step DEFAULT_LLM_COOLDOWN_MS 2 ⟨0, 0, n, 0, []⟩
      ⟨0, 0, n + 1, 0, []⟩ := .call le_rfl free rfl
  have starts : recordFailure DEFAULT_LLM_COOLDOWN_MS 0 error 5 5 =
      (some rejection, 5 + DEFAULT_LLM_COOLDOWN_MS, true) := by
    rw [recordFailure, classified]
    rfl
  have prolongs : recordFailure DEFAULT_LLM_COOLDOWN_MS (5 + DEFAULT_LLM_COOLDOWN_MS) error 6 6 =
      (some rejection, 6 + DEFAULT_LLM_COOLDOWN_MS, false) := by
    rw [recordFailure, classified]
    rfl
  have first : Step DEFAULT_LLM_COOLDOWN_MS 2 ⟨0, 0, 2, 0, []⟩ _ :=
    .failure rfl (show (0 : ℤ) ≤ 5 by decide) le_rfl starts
  have second : Step DEFAULT_LLM_COOLDOWN_MS 2 ⟨5 + DEFAULT_LLM_COOLDOWN_MS, 5, 1, 1, [5]⟩ _ :=
    .failure rfl (show (5 : ℤ) ≤ 6 by decide) le_rfl prolongs
  exact (refusals_le_of_reachable ((((Relation.ReflTransGen.single (call 0 (by decide))).tail
    (call 1 (by decide))).tail first).tail second)).1

end DeclutrMail.Adapters
