import Mathlib.Algebra.Order.BigOperators.Group.List
import Mathlib.Algebra.Order.Group.Int
import Mathlib.Data.List.Infix
import Mathlib.Data.List.TakeWhile

/-!
# Sliding windows

Spends of units at instants, of which no span shorter than the window may hold more than the cap.
It is enough to look back from each new spend: whoever keeps the spends that have not expired, and
adds one only where it fits among them, keeps every span under the cap (`Capped.append`).
-/

namespace SlidingWindow

variable {K : Type*}

structure Spend (K : Type*) where
  time : ℤ
  units : K
  deriving DecidableEq

/-- The spends from the oldest one on that has not left the window. -/
def expire (window now : ℤ) (spends : List (Spend K)) : List (Spend K) :=
  spends.dropWhile fun spend => window ≤ now - spend.time

theorem expire_suffix (window now : ℤ) (spends : List (Spend K)) :
    expire window now spends <:+ spends := List.dropWhile_suffix _

/-- What expires is a number of the oldest spends. -/
theorem exists_expired (window now : ℤ) (spends : List (Spend K)) :
    ∃ expired, expired ++ expire window now spends = spends ∧
      ∀ spend ∈ expired, window ≤ now - spend.time := by
  refine ⟨_, List.takeWhile_append_dropWhile, fun spend mem => ?_⟩
  simpa using List.mem_takeWhile_imp mem

theorem not_expired_of_expire_eq_cons {window now : ℤ} {spends rest : List (Spend K)}
    {spend : Spend K} (h : expire window now spends = spend :: rest) :
    now - spend.time < window := by
  have := List.head?_dropWhile_not
    (fun spend : Spend K => decide (window ≤ now - spend.time)) spends
  rw [expire] at h
  simpa [h] using this

theorem length_expire_le (window now : ℤ) {kept spends : List (Spend K)}
    (suffix : kept <:+ spends) :
    (expire window now kept).length ≤ (expire window now spends).length := by
  induction spends with
  | nil => simp [List.suffix_nil.mp suffix]
  | cons spend spends ih =>
    rcases List.suffix_cons_iff.mp suffix with rfl | shorter
    · exact le_rfl
    · have within := ih shorter
      by_cases out : window ≤ now - spend.time
      · simpa [expire, out] using within
      · have := (expire_suffix window now kept).length_le
        have := shorter.length_le
        simp only [expire, out, decide_false, Bool.false_eq_true, not_false_eq_true,
          List.dropWhile_cons_of_neg, List.length_cons]
        unfold expire at *
        omega

/-- Once its oldest spend has expired a window holds less. -/
theorem length_expire_lt {window now : ℤ} {spend : Spend K} (rest : List (Spend K))
    (out : window ≤ now - spend.time) :
    (expire window now (spend :: rest)).length < (spend :: rest).length := by
  have := (expire_suffix window now rest).length_le
  unfold expire at *
  rw [List.dropWhile_cons_of_pos (by simpa using out), List.length_cons]
  omega

def within (first last : ℤ) (spends : List (Spend K)) : List (Spend K) :=
  spends.filter fun spend => first ≤ spend.time ∧ spend.time ≤ last

section Units

variable [AddCommMonoid K]

def total (spends : List (Spend K)) : K := (spends.map Spend.units).sum

@[simp] theorem total_append (spends spends' : List (Spend K)) :
    total (spends ++ spends') = total spends + total spends' := by
  simp [total]

@[simp] theorem total_nil : total ([] : List (Spend K)) = 0 := rfl

@[simp] theorem total_singleton (spend : Spend K) : total [spend] = spend.units := by
  simp [total]

variable [PartialOrder K]

/-- No span shorter than the window holds more than the cap. -/
def Capped (window : ℤ) (cap : K) (spends : List (Spend K)) : Prop :=
  ∀ first last, last - first < window → total (within first last spends) ≤ cap

variable [CanonicallyOrderedAdd K]

theorem capped_nil (window : ℤ) (cap : K) : Capped window cap [] := fun _ _ _ => zero_le

variable [IsOrderedAddMonoid K]

theorem total_within_le (first last : ℤ) (spends : List (Spend K)) :
    total (within first last spends) ≤ total spends :=
  (List.filter_sublist.map _).sum_le_sum fun _ _ => zero_le

/-- A spend that fits among those of which the rest has expired. -/
theorem Capped.append {window now : ℤ} {cap units : K} {expired kept : List (Spend K)}
    (capped : Capped window cap (expired ++ kept))
    (out : ∀ spend ∈ expired, window ≤ now - spend.time) (fits : total kept + units ≤ cap) :
    Capped window cap (expired ++ kept ++ [⟨now, units⟩]) := by
  intro first last short
  by_cases inside : first ≤ now ∧ now ≤ last
  · have empty : within first last expired = [] := by
      refine List.filter_eq_nil_iff.mpr fun spend mem => ?_
      have := out spend mem
      simp only [decide_eq_true_eq]
      omega
    have split : within first last (expired ++ kept ++ [⟨now, units⟩]) =
        within first last kept ++ [⟨now, units⟩] := by
      simp only [within, List.filter_append] at empty ⊢
      rw [empty]
      simp [inside]
    calc total (within first last (expired ++ kept ++ [⟨now, units⟩]))
        = total (within first last kept) + units := by rw [split, total_append, total_singleton]
      _ ≤ total kept + units := by gcongr; exact total_within_le first last kept
      _ ≤ cap := fits
  · have same : within first last (expired ++ kept ++ [⟨now, units⟩]) =
        within first last (expired ++ kept) := by
      simp only [within, List.filter_append]
      simp [inside]
    rw [same]
    exact capped first last short

end Units

end SlidingWindow
