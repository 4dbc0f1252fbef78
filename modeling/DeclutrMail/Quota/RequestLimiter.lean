import DeclutrMail.Quota.GmailQuotaLimiter

/-!
# The request limiter

`RedisTokenBucketStore` runs `TOKEN_BUCKET_SCRIPT` against the bucket of one key, with numbers
exact: a token a request, `limit` of them at most, and `limit / windowSec` earned each second of
the callers' own clocks. The bucket is that of the Gmail limiter (`tokenBucketScript_eq`), with its
backward clock. The key expires when it was idle for two windows, which fill the bucket anyway.
-/

namespace DeclutrMail.Quota

open TokenBucket

structure ResolvedRateLimit where
  limit : ℕ
  windowSec : ℕ
  limit_pos : 0 < limit
  window_pos : 0 < windowSec

namespace ResolvedRateLimit

variable (config : ResolvedRateLimit)

def refillPerSec : ℚ := config.limit / config.windowSec

def ttlSec : ℕ := max (2 * config.windowSec) 1

theorem refillPerSec_pos : 0 < config.refillPerSec :=
  div_pos (by exact_mod_cast config.limit_pos) (by exact_mod_cast config.window_pos)

/-- The same bucket, by the millisecond. -/
def limits : Limits where
  burstCapacity := config.limit
  refillPerMs := config.refillPerSec / 1000
  burst_nonneg := by positivity
  refill_pos := div_pos config.refillPerSec_pos (by norm_num)

end ResolvedRateLimit

/-! ## The script -/

structure ScriptReply where
  allowed : Bool
  remaining : ℤ
  retryAfterSec : ℤ
  deriving DecidableEq

/-- `TOKEN_BUCKET_SCRIPT`. A missing bucket is a full one, last refilled now. -/
def tokenBucketScript (capacity refillPerSec : ℚ) (bucket : Option Bucket) (nowMs : ℤ) :
    ScriptReply × Bucket :=
  let stored := bucket.getD ⟨capacity, nowMs⟩
  let elapsedMs := if nowMs - stored.lastMs < 0 then 0 else nowMs - stored.lastMs
  let refill := (elapsedMs / 1000 : ℚ) * refillPerSec
  let tokens := min capacity (stored.tokens + refill)
  if 1 ≤ tokens then (⟨true, ⌊tokens - 1⌋, 0⟩, ⟨tokens - 1, nowMs⟩)
  else
    let deficit := 1 - tokens
    let retryAfterSec := ⌈deficit / refillPerSec⌉
    (⟨false, ⌊tokens⌋, if retryAfterSec < 1 then 1 else retryAfterSec⟩, ⟨tokens, nowMs⟩)

inductive ConsumeResult
  | allowed (remaining : ℤ)
  | refused (retryAfterSec : ℤ)
  deriving DecidableEq

def ConsumeResult.isAllowed : ConsumeResult → Bool
  | allowed _ => true
  | refused _ => false

/-- The answer to the script's reply. -/
def ScriptReply.result (reply : ScriptReply) : ConsumeResult :=
  if reply.allowed then .allowed reply.remaining else .refused (max 1 reply.retryAfterSec)

/-- A token is one unit of the Gmail limiter's bucket. -/
theorem tokenBucketScript_eq (config : ResolvedRateLimit) (bucket : Option Bucket) (nowMs : ℤ) :
    (tokenBucketScript config.limit config.refillPerSec bucket nowMs).1.allowed =
        (gmailQuotaScript config.limits bucket nowMs 1).1.allowed ∧
      (tokenBucketScript config.limit config.refillPerSec bucket nowMs).2 =
        (gmailQuotaScript config.limits bucket nowMs 1).2 := by
  have rate (elapsedMs : ℤ) : (elapsedMs / 1000 : ℚ) * config.refillPerSec =
      elapsedMs * config.limits.refillPerMs := by
    simp only [ResolvedRateLimit.limits]
    ring
  unfold tokenBucketScript gmailQuotaScript
  dsimp only
  rw [rate]
  have same : (config.limit : ℚ) = config.limits.burstCapacity := rfl
  rw [same]
  split_ifs <;> exact ⟨rfl, rfl⟩

variable {config : ResolvedRateLimit}

/-! ## Crossing clocks -/

/-- The requests that a sequence of calls lets through, of a key that does not expire. -/
def allowedCount (config : ResolvedRateLimit) : Option Bucket → List ℤ → ℕ
  | _, [] => 0
  | bucket, now :: nows =>
    let ran := tokenBucketScript config.limit config.refillPerSec bucket now
    (if ran.1.allowed then 1 else 0) + allowedCount config (some ran.2) nows

theorem allowedCount_eq (bucket : Option Bucket) (nows : List ℤ) :
    (allowedCount config bucket nows : ℚ) =
      granted config.limits bucket (nows.map fun now => ⟨now, 1⟩) := by
  induction nows generalizing bucket with
  | nil => simp [allowedCount, granted]
  | cons now nows ih =>
    obtain ⟨allowed, left⟩ := tokenBucketScript_eq config bucket now
    simp only [allowedCount, List.map_cons, granted, NNRat.cast_one, allowed, left]
    push_cast
    rw [ih]

/-- The forward steps of the clocks, with the excess over a full bucket spilled, are within the
spread of the clocks. -/
def StepsWithinSpread (config : ResolvedRateLimit) (first : ℤ) (later : List ℤ) : Prop :=
  credits (config.limit : ℚ) (earnings config.limits first later) ≤
    config.refillPerSec * (latest first later - first) / 1000

theorem allowedCount_le {first : ℤ} {later : List ℤ}
    (within : StepsWithinSpread config first later) :
    (allowedCount config none (first :: later) : ℚ) ≤
      config.limit + config.refillPerSec * (latest first later - first) / 1000 := by
  rw [allowedCount_eq, List.map_cons]
  have bound := granted_le_credits (l := config.limits) ⟨first, 1⟩
    (later.map fun now => ⟨now, 1⟩)
  simp only [List.map_map, Function.comp_def, List.map_id'] at bound
  exact bound.trans (add_le_add_right within _)

/-! ## Expiry -/

/-- The hash of a key, and when the server wrote it. -/
structure Key where
  bucket : Bucket
  writtenMs : ℤ

/-- A call at the caller's clock `nowMs`, which the server executes at `serverMs`. -/
structure Request where
  nowMs : ℤ
  serverMs : ℤ
  /-- The key is found expired. -/
  expired : Bool

/-- `RedisTokenBucketStore.consume` -/
def consume (config : ResolvedRateLimit) (key : Option Key) (r : Request) : ConsumeResult × Key :=
  let found := if r.expired then none else key.map Key.bucket
  let ran := tokenBucketScript config.limit config.refillPerSec found r.nowMs
  (ran.1.result, ⟨ran.2, r.serverMs⟩)

def answers (config : ResolvedRateLimit) : Option Key → List Request → List ConsumeResult
  | _, [] => []
  | key, r :: rs => (consume config key r).1 :: answers config (some (consume config key r).2) rs

/-- A key expires only when it was idle for `ttlSec`. -/
def ExpiresIdle (config : ResolvedRateLimit) : Option Key → List Request → Prop
  | _, [] => True
  | key, r :: rs =>
    (r.expired = true → ∀ k ∈ key, config.ttlSec * 1000 ≤ r.serverMs - k.writtenMs) ∧
      ExpiresIdle config (some (consume config key r).2) rs

/-- The same call of a key that does not expire. -/
def Request.kept (r : Request) : Request := { r with expired := false }

/-- A key that was written by a caller whose clock is the server's. -/
def Key.Synchronous (k : Key) : Prop := k.bucket.lastMs = k.writtenMs ∧ 0 ≤ k.bucket.tokens

theorem tokens_nonneg {bucket : Option Bucket} (before : ∀ b ∈ bucket, 0 ≤ b.tokens) (now : ℤ) :
    0 ≤ (tokenBucketScript config.limit config.refillPerSec bucket now).2.tokens := by
  have stored (b : Bucket) (nonneg : 0 ≤ b.tokens) :
      0 ≤ (tokenBucketScript config.limit config.refillPerSec (some b) now).2.tokens := by
    rw [(tokenBucketScript_eq _ _ _).2, (gmailQuotaScript_some b now 1).2]
    refine leave_nonneg config.limits.burst_nonneg nonneg ?_
    exact mul_nonneg (by positivity) config.limits.refill_pos.le
  cases bucket with
  | none => exact stored ⟨config.limit, now⟩ config.limits.burst_nonneg
  | some b => exact stored b (before b rfl)

theorem lastMs_script (capacity refillPerSec : ℚ) (bucket : Option Bucket) (now : ℤ) :
    (tokenBucketScript capacity refillPerSec bucket now).2.lastMs = now := by
  unfold tokenBucketScript
  dsimp only
  split_ifs <;> rfl

theorem synchronous_consume {key : Option Key} {r : Request} (clock : r.nowMs = r.serverMs)
    (before : ∀ k ∈ key, k.Synchronous) : (consume config key r).2.Synchronous := by
  refine ⟨(lastMs_script ..).trans clock, tokens_nonneg (fun b found => ?_) _⟩
  split_ifs at found
  · cases found
  · obtain ⟨k, here, rfl⟩ := Option.map_eq_some_iff.mp found
    exact (before k here).2

/-- The tokens after the refill. -/
def filled (capacity refillPerSec : ℚ) (b : Bucket) (now : ℤ) : ℚ :=
  min capacity (b.tokens + ((max (now - b.lastMs) 0 : ℤ) / 1000 : ℚ) * refillPerSec)

theorem tokenBucketScript_congr {capacity refillPerSec : ℚ} {b b' : Bucket} {now : ℤ}
    (same : filled capacity refillPerSec b now = filled capacity refillPerSec b' now) :
    tokenBucketScript capacity refillPerSec (some b) now =
      tokenBucketScript capacity refillPerSec (some b') now := by
  unfold filled at same
  simp only [tokenBucketScript, Option.getD_some, elapsed_eq, same]

/-- Two idle windows fill the bucket. -/
theorem filled_idle {b : Bucket} {now : ℤ} (nonneg : 0 ≤ b.tokens)
    (idle : config.ttlSec * 1000 ≤ now - b.lastMs) :
    filled config.limit config.refillPerSec b now = config.limit := by
  have seconds : (2 * config.windowSec : ℚ) ≤ (max (now - b.lastMs) 0 : ℤ) / 1000 := by
    rw [le_div_iff₀ (by norm_num)]
    have ttl : 2 * config.windowSec ≤ config.ttlSec := le_max_left _ _
    have : ((2 * config.windowSec : ℕ) : ℤ) * 1000 ≤ max (now - b.lastMs) 0 := by omega
    exact_mod_cast this
  have window : (0 : ℚ) < config.windowSec := by exact_mod_cast config.window_pos
  have earned : (2 * config.windowSec : ℚ) * config.refillPerSec ≤
      ((max (now - b.lastMs) 0 : ℤ) / 1000 : ℚ) * config.refillPerSec :=
    mul_le_mul_of_nonneg_right seconds config.refillPerSec_pos.le
  have twice : (2 * config.windowSec : ℚ) * config.refillPerSec = 2 * config.limit := by
    unfold ResolvedRateLimit.refillPerSec
    field_simp
  have limit : (0 : ℚ) ≤ config.limit := by positivity
  exact min_eq_left (by linarith)

/-- A key that was idle for two windows answers as a missing one. -/
theorem consume_expired {key : Option Key} {r : Request} (clock : r.nowMs = r.serverMs)
    (synchronous : ∀ k ∈ key, k.Synchronous)
    (idle : r.expired = true → ∀ k ∈ key, config.ttlSec * 1000 ≤ r.serverMs - k.writtenMs) :
    consume config key r = consume config key r.kept := by
  cases expired : r.expired with
  | false => rw [show r.kept = r by rw [Request.kept, ← expired]]
  | true =>
    cases key with
    | none => simp [consume, Request.kept]
    | some k =>
      obtain ⟨written, nonneg⟩ := synchronous k rfl
      have full : tokenBucketScript config.limit config.refillPerSec none r.nowMs =
          tokenBucketScript config.limit config.refillPerSec (some k.bucket) r.nowMs := by
        refine tokenBucketScript_congr (b := ⟨config.limit, r.nowMs⟩) ?_
        rw [filled_idle nonneg (by rw [clock, written]; exact idle expired k rfl)]
        simp [filled]
      simp [consume, Request.kept, expired, full]

/-- Expiry changes no answer. -/
theorem answers_kept {key : Option Key} {rs : List Request}
    (clocks : ∀ r ∈ rs, r.nowMs = r.serverMs) (synchronous : ∀ k ∈ key, k.Synchronous)
    (idle : ExpiresIdle config key rs) :
    answers config key rs = answers config key (rs.map Request.kept) := by
  induction rs generalizing key with
  | nil => rfl
  | cons r rs ih =>
    obtain ⟨clock, later⟩ := List.forall_mem_cons.mp clocks
    have same := consume_expired clock synchronous idle.1
    have after : ∀ k ∈ some (consume config key r).2, k.Synchronous := by
      rintro k here
      obtain rfl := Option.some.inj here
      exact synchronous_consume clock synchronous
    simp only [answers, List.map_cons, ← same, ih later after idle.2]

/-! ## Retrying -/

theorem one_le_limit : (1 : ℚ) ≤ config.limit := by exact_mod_cast config.limit_pos

/-- A refused call leaves the tokens that its answer was computed from. -/
theorem script_refused {bucket : Option Bucket} {now : ℤ}
    (refused : (tokenBucketScript config.limit config.refillPerSec bucket now).1.allowed = false) :
    let ran := tokenBucketScript config.limit config.refillPerSec bucket now
    ⌈(1 - ran.2.tokens) / config.refillPerSec⌉ ≤ ran.1.retryAfterSec := by
  unfold tokenBucketScript at refused ⊢
  dsimp only at refused ⊢
  split_ifs at refused ⊢ <;> dsimp only at refused ⊢ <;> omega

/-- What the refused caller waits for is earned by then. -/
theorem filled_retry {b : Bucket} {seconds now : ℤ}
    (wait : ⌈(1 - b.tokens) / config.refillPerSec⌉ ≤ seconds)
    (waited : b.lastMs + 1000 * seconds ≤ now) :
    1 ≤ filled config.limit config.refillPerSec b now := by
  have rate := config.refillPerSec_pos
  have deficit : 1 - b.tokens ≤ seconds * config.refillPerSec := by
    rw [← div_le_iff₀ rate]
    exact (Int.le_ceil _).trans (by exact_mod_cast wait)
  have elapsed : (seconds : ℚ) ≤ (max (now - b.lastMs) 0 : ℤ) / 1000 := by
    rw [le_div_iff₀ (by norm_num)]
    have : seconds * 1000 ≤ max (now - b.lastMs) 0 := by omega
    exact_mod_cast this
  have earned := mul_le_mul_of_nonneg_right elapsed rate.le
  exact le_min one_le_limit (by linarith)

theorem script_allowed {b : Bucket} {now : ℤ}
    (full : 1 ≤ filled config.limit config.refillPerSec b now) :
    (tokenBucketScript config.limit config.refillPerSec (some b) now).1.allowed = true := by
  unfold filled at full
  simp only [tokenBucketScript, Option.getD_some, elapsed_eq, if_pos full]

theorem isAllowed_result (reply : ScriptReply) : reply.result.isAllowed = reply.allowed := by
  unfold ScriptReply.result
  cases reply.allowed <;> rfl

theorem result_refused {reply : ScriptReply} {seconds : ℤ}
    (refused : reply.result = .refused seconds) :
    reply.allowed = false ∧ reply.retryAfterSec ≤ seconds := by
  unfold ScriptReply.result at refused
  split_ifs at refused with allowed
  have wait := ConsumeResult.refused.inj refused
  exact ⟨Bool.not_eq_true _ ▸ allowed, by omega⟩

/-- A refused call is allowed when it is repeated after the wait it was told. -/
theorem consume_retry {key : Option Key} {r r' : Request} {retryAfterSec : ℤ}
    (refused : (consume config key r).1 = .refused retryAfterSec)
    (again : r'.nowMs = r.nowMs + 1000 * retryAfterSec) :
    (consume config (some (consume config key r).2) r').1.isAllowed = true := by
  simp only [consume] at refused ⊢
  rw [isAllowed_result]
  obtain ⟨none, told⟩ := result_refused refused
  cases r'.expired with
  | true =>
    have full : 1 ≤ filled config.limit config.refillPerSec ⟨config.limit, r'.nowMs⟩ r'.nowMs := by
      simpa [filled] using one_le_limit
    exact script_allowed full
  | false =>
    have wait := (script_refused none).trans told
    exact script_allowed (filled_retry wait (by rw [lastMs_script, again]))

/-! ## Both clauses -/

/-- A bucket that is called at these clocks, whatever they are, lets through its limit and what
the spread of the clocks earns; a bucket on the server's clock may expire, and its answers tell
when to come back. -/
theorem consume_bounds_and_informs (config : ResolvedRateLimit) (first : ℤ) (later : List ℤ)
    (within : StepsWithinSpread config first later) :
    (allowedCount config none (first :: later) : ℚ) ≤
        config.limit + config.refillPerSec * (latest first later - first) / 1000 ∧
      (∀ rs : List Request, (∀ r ∈ rs, r.nowMs = r.serverMs) → ExpiresIdle config none rs →
        answers config none rs = answers config none (rs.map Request.kept)) ∧
      ∀ (key : Option Key) (r r' : Request) (retryAfterSec : ℤ),
        (consume config key r).1 = .refused retryAfterSec →
        r'.nowMs = r.nowMs + 1000 * retryAfterSec →
        (consume config (some (consume config key r).2) r').1.isAllowed = true :=
  ⟨allowedCount_le within,
    fun _ clocks idle => answers_kept clocks (fun _ none => nomatch none) idle,
    fun _ _ _ _ refused again => consume_retry refused again⟩

/-- One request a second. -/
def oneASecond : ResolvedRateLimit := ⟨1, 1, by decide, by decide⟩

theorem consume_bounds_and_informs_sample :
    (allowedCount oneASecond none [0, 1000, 500, 500] : ℚ) ≤
        oneASecond.limit + oneASecond.refillPerSec * (latest 0 [1000, 500, 500] - 0) / 1000 ∧
      answers oneASecond none [⟨0, 0, false⟩, ⟨2000, 2000, true⟩] =
        answers oneASecond none [⟨0, 0, false⟩, ⟨2000, 2000, false⟩] ∧
      (consume oneASecond (some (consume oneASecond (some ⟨⟨0, 0⟩, 0⟩) ⟨100, 100, false⟩).2)
        ⟨1100, 1100, false⟩).1.isAllowed = true := by
  obtain ⟨bound, expiry, retry⟩ := consume_bounds_and_informs oneASecond 0 [1000, 500, 500]
    (by unfold StepsWithinSpread; decide +kernel)
  refine ⟨bound, expiry _ (by simp) ?_, retry _ _ _ 1 (by decide +kernel) rfl⟩
  simp [ExpiresIdle, oneASecond, ResolvedRateLimit.ttlSec, consume]

/-- Two callers, one of them a second behind: three requests pass within a spread that is worth
two. -/
theorem allowedCount_crossing_clocks :
    ¬ (allowedCount oneASecond none [0, 1000, 0, 1000] : ℚ) ≤
      oneASecond.limit + oneASecond.refillPerSec * (latest 0 [1000, 0, 1000] - 0) / 1000 := by
  decide +kernel

/-- A clock steps forward only when the one before it is the largest so far. -/
def ForwardFromLargest : ℤ → ℤ → List ℤ → Prop
  | _, _, [] => True
  | largest, last, now :: nows =>
    (now ≤ last ∨ last = largest) ∧ ForwardFromLargest (max largest now) now nows

/-- Such clocks are within their spread: no stretch is earned twice. -/
theorem stepsWithinSpread_of_forward {first : ℤ} {later : List ℤ}
    (forward : ForwardFromLargest first first later) : StepsWithinSpread config first later := by
  have rate := config.limits.refill_pos.le
  have general (largest last : ℤ) (nows : List ℤ) (before : last ≤ largest)
      (forward : ForwardFromLargest largest last nows) :
      credits (config.limit : ℚ) (earnings config.limits last nows) ≤
        config.limits.refillPerMs * (latest largest nows - largest) := by
    induction nows generalizing largest last with
    | nil => simp [earnings, credits, latest]
    | cons now nows ih =>
      have rest := ih (max largest now) now (le_max_right _ _) forward.2
      have spilled : credit (config.limit : ℚ)
          ((max (now - last) 0 : ℤ) * config.limits.refillPerMs) ≤
          (max (now - last) 0 : ℤ) * config.limits.refillPerMs := min_le_right _ _
      have moved : max (now - last) 0 = max largest now - largest := by
        rcases forward.1 with back | rfl <;> omega
      have same : latest largest (now :: nows) = latest (max largest now) nows := rfl
      rw [same]
      simp only [earnings, credits]
      rw [moved] at spilled ⊢
      push_cast at spilled rest ⊢
      linarith
  refine (general first first later le_rfl forward).trans (le_of_eq ?_)
  simp only [ResolvedRateLimit.limits]
  ring

end DeclutrMail.Quota
