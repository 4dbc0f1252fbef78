import Mathlib.Algebra.Order.Group.Int
import Mathlib.Tactic.SplitIfs

/-!
# Time zones

A zone is given by its offset from UTC at every instant, in milliseconds. What its clock reads at
an instant is written as the instant at which UTC reads the same. Where the offset changes the
clock jumps: forwards it skips readings, backwards it repeats them.
-/

structure Zone where
  offset : ℤ → ℤ

namespace Zone

def utc : Zone := ⟨fun _ => 0⟩

def reading (zone : Zone) (t : ℤ) : ℤ := t + zone.offset t

@[simp] theorem reading_utc (t : ℤ) : utc.reading t = t := by simp [reading, utc]

/-- Between `a` and `b` the offset is `old` before the instant `c` and `new` from it on. -/
def ChangesOnce (zone : Zone) (a b c old new : ℤ) : Prop :=
  ∀ t, a ≤ t → t ≤ b → zone.offset t = if t < c then old else new

/-- The clock jumps over a reading at `t`. -/
def SkipsAt (zone : Zone) (reading t : ℤ) : Prop :=
  zone.reading (t - 1) < reading ∧ reading < zone.reading t

section ChangesOnce

variable {zone : Zone} {a b c old new t reading : ℤ} (once : zone.ChangesOnce a b c old new)
include once

theorem ChangesOnce.mono {a' b' : ℤ} (low : a ≤ a') (high : b' ≤ b) :
    zone.ChangesOnce a' b' c old new :=
  fun t after before => once t (low.trans after) (before.trans high)

theorem ChangesOnce.offset_before (low : a ≤ t) (high : t ≤ b) (before : t < c) :
    zone.offset t = old := by
  rw [once t low high, if_pos before]

theorem ChangesOnce.offset_after (low : a ≤ t) (high : t ≤ b) (after : c ≤ t) :
    zone.offset t = new := by
  rw [once t low high, if_neg (not_lt.mpr after)]

/-- A reading is skipped at the change only, and only where the clock is put forward. -/
theorem ChangesOnce.skipsAt_iff (low : a < t) (high : t ≤ b) :
    zone.SkipsAt reading t ↔ t = c ∧ c + old ≤ reading ∧ reading < c + new := by
  have before := once (t - 1) (by omega) (by omega)
  have now := once t low.le high
  unfold SkipsAt Zone.reading
  rw [before, now]
  split_ifs <;> omega

end ChangesOnce

/-! ## The instant of a reading -/

/-- An instant put right by what the clock reads there. -/
def towards (zone : Zone) (target t : ℤ) : ℤ := t + (target - zone.reading t)

theorem towards_eq (zone : Zone) (target t : ℤ) :
    zone.towards target t = target - zone.offset t := by
  unfold towards reading
  omega

/-- Where four corrections lead from the target: with the offset found there, or with the other
one if the first leads to the other side of the change. -/
theorem ChangesOnce.iterate_towards {zone : Zone} {a b c old new target : ℤ}
    (once : zone.ChangesOnce a b c old new) (first : a ≤ target ∧ target ≤ b)
    (early : a ≤ target - old ∧ target - old ≤ b) (late : a ≤ target - new ∧ target - new ≤ b) :
    (zone.towards target)^[4] target =
      if target < c then if target - old < c then target - old else target - new
      else if c ≤ target - new then target - new else target - old := by
  have moves {t : ℤ} (low : a ≤ t) (high : t ≤ b) :
      zone.towards target t = if t < c then target - old else target - new := by
    rw [towards_eq, once t low high]
    split_ifs <;> rfl
  have start := moves first.1 first.2
  have from_early := moves early.1 early.2
  have from_late := moves late.1 late.2
  simp only [Function.iterate_succ, Function.iterate_zero, Function.comp_apply, id]
  rw [start]
  split_ifs at from_early from_late ⊢ <;> simp only [from_early, from_late] <;> omega

end Zone
