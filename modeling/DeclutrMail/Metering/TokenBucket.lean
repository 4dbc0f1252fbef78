import Mathlib.Algebra.Order.Group.MinMax
import Mathlib.Algebra.BigOperators.Group.List.Basic

/-!
# Token buckets

A bucket holds at most `capacity` tokens. A visit first adds the tokens that were earned
since the last one, with the excess spilled, and then takes what it asks for or nothing.

What a sequence of visits can spend is settled by the credits of its earnings: one visit
earns at most `credit capacity earned` that is not spilled (`spent_add_final_le`), and a
caller who always asks for the whole bucket spends all of it (`spent_drain`).
-/

namespace TokenBucket

variable {K : Type*} [AddCommGroup K] [LinearOrder K]

/-- The level after earning `earned` tokens. -/
def fill (capacity level earned : K) : K := min capacity (level + earned)

/-- The part of an earning that an empty bucket could keep. -/
def credit (capacity earned : K) : K := min capacity earned

/-- What a bucket gives to a caller who asks for `asked` tokens. -/
def grant (level asked : K) : K := if asked ≤ level then asked else 0

structure Visit (K : Type*) where
  earned : K
  asked : K

variable (capacity : K)

/-- The level a visit leaves behind. -/
def leave (level : K) (v : Visit K) : K :=
  fill capacity level v.earned - grant (fill capacity level v.earned) v.asked

/-- The tokens a sequence of visits is given. -/
def spent : K → List (Visit K) → K
  | _, [] => 0
  | level, v :: vs =>
    grant (fill capacity level v.earned) v.asked + spent (leave capacity level v) vs

/-- The level after a sequence of visits. -/
def final : K → List (Visit K) → K
  | level, [] => level
  | level, v :: vs => final (leave capacity level v) vs

/-- The credits of a sequence of earnings. -/
def credits : List K → K
  | [] => 0
  | e :: es => credit capacity e + credits es

variable {capacity}

@[simp] theorem fill_zero (earned : K) : fill capacity 0 earned = credit capacity earned := by
  simp [fill, credit]

@[simp] theorem grant_self (level : K) : grant level level = level := by simp [grant]

theorem grant_le {level : K} (hl : 0 ≤ level) (asked : K) : grant level asked ≤ level := by
  unfold grant
  split_ifs with fits
  · exact fits
  · exact hl

/-- Ask an empty bucket, at each visit, for all it has earned. -/
def drain (capacity : K) (earnings : List K) : List (Visit K) :=
  earnings.map fun e => ⟨e, credit capacity e⟩

/-- The whole of the credits can be spent. -/
theorem spent_drain (earnings : List K) :
    spent capacity 0 (drain capacity earnings) = credits capacity earnings := by
  induction earnings with
  | nil => rfl
  | cons e es ih => simpa [drain, spent, leave, credits] using ih

variable [IsOrderedAddMonoid K]

theorem fill_nonneg {level earned : K} (hc : 0 ≤ capacity) (hl : 0 ≤ level) (he : 0 ≤ earned) :
    0 ≤ fill capacity level earned := le_min hc (add_nonneg hl he)

/-- Filling a bucket is worth no more than filling an empty one. -/
theorem fill_le_add_credit {level : K} (hl : 0 ≤ level) (earned : K) :
    fill capacity level earned ≤ level + credit capacity earned := by
  unfold fill credit
  rw [← min_add_add_left]
  exact min_le_min_right _ (le_add_of_nonneg_left hl)

theorem leave_nonneg {level : K} {v : Visit K} (hc : 0 ≤ capacity) (hl : 0 ≤ level)
    (he : 0 ≤ v.earned) : 0 ≤ leave capacity level v :=
  sub_nonneg.mpr (grant_le (fill_nonneg hc hl he) v.asked)

/-- Nothing is spent that was neither there at the start nor credited since. -/
theorem spent_add_final_le {level : K} {vs : List (Visit K)} (hc : 0 ≤ capacity) (hl : 0 ≤ level)
    (he : ∀ v ∈ vs, 0 ≤ v.earned) :
    spent capacity level vs + final capacity level vs ≤
      level + credits capacity (vs.map (·.earned)) := by
  induction vs generalizing level with
  | nil => simp [spent, final, credits]
  | cons v vs ih =>
    have earned : 0 ≤ v.earned := he v (by simp)
    have rest := ih (leave_nonneg hc hl earned) fun u hu => he u (by simp [hu])
    have kept : grant (fill capacity level v.earned) v.asked + leave capacity level v
        = fill capacity level v.earned := by simp [leave]
    calc spent capacity level (v :: vs) + final capacity level (v :: vs)
        = grant (fill capacity level v.earned) v.asked +
            (spent capacity (leave capacity level v) vs +
              final capacity (leave capacity level v) vs) := by
          simp only [spent, final, add_assoc]
      _ ≤ grant (fill capacity level v.earned) v.asked +
            (leave capacity level v + credits capacity (vs.map (·.earned))) := by gcongr
      _ = fill capacity level v.earned + credits capacity (vs.map (·.earned)) := by
          rw [← add_assoc, kept]
      _ ≤ level + credit capacity v.earned + credits capacity (vs.map (·.earned)) := by
          gcongr
          exact fill_le_add_credit hl _
      _ = level + credits capacity ((v :: vs).map (·.earned)) := by
          simp only [List.map_cons, credits, add_assoc]

theorem final_nonneg {level : K} {vs : List (Visit K)} (hc : 0 ≤ capacity) (hl : 0 ≤ level)
    (he : ∀ v ∈ vs, 0 ≤ v.earned) : 0 ≤ final capacity level vs := by
  induction vs generalizing level with
  | nil => exact hl
  | cons v vs ih =>
    exact ih (leave_nonneg hc hl (he v (by simp))) fun u hu => he u (by simp [hu])

theorem spent_le {level : K} {vs : List (Visit K)} (hc : 0 ≤ capacity) (hl : 0 ≤ level)
    (he : ∀ v ∈ vs, 0 ≤ v.earned) :
    spent capacity level vs ≤ level + credits capacity (vs.map (·.earned)) :=
  le_of_add_le_of_nonneg_left (spent_add_final_le hc hl he) (final_nonneg hc hl he)

end TokenBucket
