import Mathlib.Algebra.Order.Archimedean.Basic
import Mathlib.Data.Rat.Floor
import Mathlib.Data.NNRat.Defs
import Mathlib.Tactic.Linarith
import Mathlib.Tactic.NormNum
import Mathlib.Tactic.Positivity
import Mathlib.Data.Rat.Star
import Mathlib.Algebra.Order.Ring.Star
import DeclutrMail.Metering.TokenBucket

/-!
# The Gmail quota limiter

`gmailQuotaScript` is the Lua script that every worker runs against the bucket of one
mailbox, with numbers exact. A caller passes its own clock as `nowMs`, and the clocks of
two workers need not agree.

The script never counts a backward step as elapsed time, but it stores the backward
clock. The next forward step then earns the same stretch again, so what a bucket grants
is bounded by the forward steps of its callers' clocks and not by their spread
(`granted_le_iff`).
-/

namespace DeclutrMail.Quota

open TokenBucket

/-- The arguments of the script that a limiter fixes when it is built. -/
structure Limits where
  burstCapacity : ℚ
  refillPerMs : ℚ
  burst_nonneg : 0 ≤ burstCapacity
  refill_pos : 0 < refillPerMs

/-- The two fields of the hash under `gmailQuotaKey`. -/
structure Bucket where
  tokens : ℚ
  lastMs : ℤ
  deriving DecidableEq

structure Reply where
  allowed : Bool
  waitMs : ℤ
  deriving DecidableEq

/-- `GMAIL_QUOTA_SCRIPT`. A missing bucket is a full one, last seen now. -/
def gmailQuotaScript (l : Limits) (bucket : Option Bucket) (nowMs : ℤ) (units : ℚ) :
    Reply × Bucket :=
  let stored := bucket.getD ⟨l.burstCapacity, nowMs⟩
  let elapsedMs := if nowMs - stored.lastMs < 0 then 0 else nowMs - stored.lastMs
  let tokens := min l.burstCapacity (stored.tokens + elapsedMs * l.refillPerMs)
  if units ≤ tokens then
    (⟨true, 0⟩, ⟨tokens - units, nowMs⟩)
  else
    let waitMs := ⌈(units - tokens) / l.refillPerMs⌉
    (⟨false, if waitMs < 1 then 1 else waitMs⟩, ⟨tokens, nowMs⟩)

/-- One execution of the script: the caller's clock and the cost of what it acquires. -/
structure Call where
  nowMs : ℤ
  units : ℚ≥0

/-- The units that a sequence of executions lets through. -/
def granted (l : Limits) : Option Bucket → List Call → ℚ
  | _, [] => 0
  | bucket, c :: cs =>
    let ran := gmailQuotaScript l bucket c.nowMs c.units
    (if ran.1.allowed then (c.units : ℚ) else 0) + granted l (some ran.2) cs

/-- The largest clock of a sequence that starts at `first`. -/
def latest (first : ℤ) (later : List ℤ) : ℤ := later.foldl max first

/-- What each clock is ahead of the one before it, in units of refill. -/
def earnings (l : Limits) : ℤ → List ℤ → List ℚ
  | _, [] => []
  | last, now :: nows => max (now - last) 0 * l.refillPerMs :: earnings l now nows

variable {l : Limits}

theorem earnings_nonneg (last : ℤ) (nows : List ℤ) : ∀ e ∈ earnings l last nows, 0 ≤ e := by
  induction nows generalizing last with
  | nil => simp [earnings]
  | cons now nows ih =>
    intro e he
    rcases List.mem_cons.mp he with rfl | he
    · exact mul_nonneg (by positivity) l.refill_pos.le
    · exact ih now e he

/-! ## The script as a visit to a bucket -/

/-- A sequence of executions, as visits to a bucket last seen at `last`. -/
def visits (l : Limits) : ℤ → List Call → List (Visit ℚ)
  | _, [] => []
  | last, c :: cs => ⟨max (c.nowMs - last) 0 * l.refillPerMs, c.units⟩ :: visits l c.nowMs cs

theorem visits_earned (last : ℤ) (cs : List Call) :
    (visits l last cs).map (·.earned) = earnings l last (cs.map (·.nowMs)) := by
  induction cs generalizing last with
  | nil => rfl
  | cons c cs ih => simp [visits, earnings, ih]

theorem elapsed_eq (now last : ℤ) :
    (if now - last < 0 then 0 else now - last) = max (now - last) 0 := by omega

/-- One execution fills the bucket and takes the units, or leaves it filled. -/
theorem gmailQuotaScript_some (b : Bucket) (now : ℤ) (units : ℚ) :
    (if (gmailQuotaScript l (some b) now units).1.allowed then units else 0) =
        grant (fill l.burstCapacity b.tokens (max (now - b.lastMs) 0 * l.refillPerMs)) units ∧
      (gmailQuotaScript l (some b) now units).2 =
        ⟨leave l.burstCapacity b.tokens ⟨max (now - b.lastMs) 0 * l.refillPerMs, units⟩, now⟩ := by
  simp only [gmailQuotaScript, Option.getD_some, elapsed_eq, leave, fill]
  generalize min l.burstCapacity _ = tokens
  by_cases fits : units ≤ tokens
  · simp [grant, fits]
  · simp [grant, fits]

theorem granted_some (b : Bucket) (cs : List Call) :
    granted l (some b) cs = spent l.burstCapacity b.tokens (visits l b.lastMs cs) := by
  induction cs generalizing b with
  | nil => rfl
  | cons c cs ih =>
    obtain ⟨given, left⟩ := gmailQuotaScript_some (l := l) b c.nowMs c.units
    simp only [granted, visits, spent, given, left, ih]

/-- A first execution finds the bucket full, whatever its clock. -/
theorem gmailQuotaScript_none (now : ℤ) (units : ℚ) :
    gmailQuotaScript l none now units =
      gmailQuotaScript l (some ⟨l.burstCapacity, now⟩) now units := rfl

theorem granted_none (c : Call) (cs : List Call) :
    granted l none (c :: cs) =
      spent l.burstCapacity l.burstCapacity (visits l c.nowMs (c :: cs)) := by
  rw [← granted_some ⟨l.burstCapacity, c.nowMs⟩]
  rfl

/-! ## What a sequence of clocks lets through -/

theorem granted_le_credits (c : Call) (cs : List Call) :
    granted l none (c :: cs) ≤
      l.burstCapacity + credits l.burstCapacity (earnings l c.nowMs (cs.map (·.nowMs))) := by
  have bound : granted l none (c :: cs) ≤ l.burstCapacity +
      credits l.burstCapacity ((visits l c.nowMs (c :: cs)).map (·.earned)) := by
    rw [granted_none]
    refine spent_le l.burst_nonneg l.burst_nonneg fun v hv => ?_
    refine earnings_nonneg (l := l) c.nowMs ((c :: cs).map (·.nowMs)) v.earned ?_
    rw [← visits_earned]
    exact List.mem_map_of_mem hv
  have still : credit l.burstCapacity 0 = 0 := min_eq_right l.burst_nonneg
  simpa [visits_earned, earnings, credits, still] using bound

/-- Each caller asks for exactly the units that the bucket has earned since `last`. -/
def drainCalls (l : Limits) : ℤ → List ℤ → List Call
  | _, [] => []
  | last, now :: nows =>
    ⟨now, (credit l.burstCapacity (max (now - last) 0 * l.refillPerMs)).toNNRat⟩ ::
      drainCalls l now nows

@[simp] theorem drainCalls_nowMs (last : ℤ) (nows : List ℤ) :
    (drainCalls l last nows).map (·.nowMs) = nows := by
  induction nows generalizing last with
  | nil => rfl
  | cons now nows ih => simp [drainCalls, ih]

theorem visits_drainCalls (last : ℤ) (nows : List ℤ) :
    visits l last (drainCalls l last nows) = drain l.burstCapacity (earnings l last nows) := by
  induction nows generalizing last with
  | nil => rfl
  | cons now nows ih =>
    have earned : 0 ≤ credit l.burstCapacity (max (now - last) 0 * l.refillPerMs) :=
      le_min l.burst_nonneg (earnings_nonneg (l := l) last (now :: nows) _ (by simp [earnings]))
    have rest := ih now
    simp only [drain] at rest
    simp only [drainCalls, visits, earnings, drain, List.map_cons, rest, Rat.coe_toNNRat _ earned]

/-- The callers can get as much as `granted_le_credits` allows. -/
theorem granted_drainCalls (first : ℤ) (later : List ℤ) :
    granted l none (⟨first, l.burstCapacity.toNNRat⟩ :: drainCalls l first later) =
      l.burstCapacity + credits l.burstCapacity (earnings l first later) := by
  rw [granted_none]
  simp [visits, spent, leave, visits_drainCalls, spent_drain, fill,
    Rat.coe_toNNRat _ l.burst_nonneg]

/-- What a bucket lets through stays within the burst and the spread of its callers'
clocks, whatever they ask for, exactly when the forward steps of these clocks do. -/
theorem granted_le_iff (l : Limits) (first : ℤ) (later : List ℤ) :
    (∀ c cs, c.nowMs = first → cs.map (·.nowMs) = later → granted l none (c :: cs) ≤
        l.burstCapacity + l.refillPerMs * (latest first later - first)) ↔
      credits l.burstCapacity (earnings l first later) ≤
        l.refillPerMs * (latest first later - first) := by
  constructor
  · intro bounded
    have greedy := bounded ⟨first, l.burstCapacity.toNNRat⟩ (drainCalls l first later) rfl
      (drainCalls_nowMs first later)
    rw [granted_drainCalls] at greedy
    exact le_of_add_le_add_left greedy
  · rintro within c cs rfl rfl
    exact (granted_le_credits c cs).trans (add_le_add_right within _)

/-- Two callers, one of them ten milliseconds behind: the bucket grants 30 units over a
spread that is worth 20. -/
theorem granted_crossing_clocks :
    let l : Limits := ⟨10, 1, by norm_num, by norm_num⟩
    let calls : List Call := [⟨0, 10⟩, ⟨10, 10⟩, ⟨0, 1⟩, ⟨10, 10⟩]
    ¬ granted l none calls ≤ l.burstCapacity + l.refillPerMs * (latest 0 [10, 0, 10] - 0) := by
  decide +kernel

/-- Clocks that never step back are within their spread. -/
theorem credits_le_of_chain {first : ℤ} {later : List ℤ}
    (h : List.IsChain (· ≤ ·) (first :: later)) :
    credits l.burstCapacity (earnings l first later) ≤
      l.refillPerMs * (latest first later - first) := by
  induction later generalizing first with
  | nil => simp [earnings, credits, latest]
  | cons now nows ih =>
    obtain ⟨forward, rest⟩ := List.isChain_cons_cons.mp h
    have step : max (now - first) 0 = now - first := max_eq_left (sub_nonneg.mpr forward)
    have same : latest first (now :: nows) = latest now nows := by
      simp [latest, max_eq_right forward]
    have kept : credit l.burstCapacity ((now - first : ℤ) * l.refillPerMs) ≤
        (now - first : ℤ) * l.refillPerMs := min_le_right _ _
    have tail := ih rest
    rw [same]
    simp only [earnings, credits, step]
    push_cast at kept ⊢
    linarith

end DeclutrMail.Quota
