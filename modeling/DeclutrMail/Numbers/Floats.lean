import Mathlib.Data.Prod.Lex

/-!
# The order of floating-point numbers

The comparisons of `Float` order all numbers but NaN, by sign, exponent and mantissa. `Float.place`
says where a number stands; two numbers compare as their places do, and the laws of a linear order
follow for those that have one.
-/

namespace Float

open Model

/-- Where a number stands among the others: its sign, its exponent and its mantissa. -/
def Model.UnpackedFloat.place : UnpackedFloat → Option (ℤ ×ₗ ℤ ×ₗ ℤ)
  | .notANumber => none
  | .infinity .positive => some (toLex (2, toLex (0, 0)))
  | .infinity .negative => some (toLex (-2, toLex (0, 0)))
  | .zero _ => some (toLex (0, toLex (0, 0)))
  | .finite .positive m e _ => some (toLex (1, toLex (e, m)))
  | .finite .negative m e _ => some (toLex (-1, toLex (-e, -m)))

def place (x : Float) : Option (ℤ ×ₗ ℤ ×ₗ ℤ) := x.toModel.unpack.place

section Pairs

variable {e e' : ℤ} {m m' : ℕ}

theorem compare_pair_le : ((compare e e').then (compare m m')).isLE = true ↔
    e < e' ∨ e = e' ∧ m ≤ m' := by
  rcases lt_trichotomy e e' with less | rfl | more
  · simp [compare_lt_iff_lt.mpr less, less]
  · simp [Std.isLE_compare]
  · simp [compare_gt_iff_gt.mpr more, more.not_gt, more.ne']

theorem compare_pair_ge : ((compare e e').then (compare m m')).isGE = true ↔
    e' < e ∨ e = e' ∧ m' ≤ m := by
  rcases lt_trichotomy e e' with less | rfl | more
  · simp [compare_lt_iff_lt.mpr less, less.not_gt, less.ne]
  · simp [Std.isGE_compare]
  · simp [compare_gt_iff_gt.mpr more, more]

theorem compare_pair_lt : (compare e e').then (compare m m') = .lt ↔
    e < e' ∨ e = e' ∧ m < m' := by
  rw [Ordering.then_eq_lt, compare_lt_iff_lt, compare_eq_iff_eq, compare_lt_iff_lt]

theorem compare_pair_gt : (compare e e').then (compare m m') = .gt ↔
    e' < e ∨ e = e' ∧ m' < m := by
  rw [Ordering.then_eq_gt, compare_gt_iff_gt, compare_eq_iff_eq, compare_gt_iff_gt]

end Pairs

theorem unpacked_le_iff (a b : UnpackedFloat) :
    a.le b = true ↔ ∃ x ∈ a.place, ∃ y ∈ b.place, x ≤ y := by
  rcases a with ⟨_ | _⟩ | _ | _ | ⟨_ | _, m, e, _⟩ <;>
    rcases b with ⟨_ | _⟩ | _ | _ | ⟨_ | _, m', e', _⟩ <;>
    dsimp only [UnpackedFloat.le, UnpackedFloat.compare, UnpackedFloat.place] <;>
    simp [Prod.Lex.toLex_le_toLex, compare_pair_le, compare_pair_ge]
  all_goals decide

theorem unpacked_lt_iff (a b : UnpackedFloat) :
    a.lt b = true ↔ ∃ x ∈ a.place, ∃ y ∈ b.place, x < y := by
  rcases a with ⟨_ | _⟩ | _ | _ | ⟨_ | _, m, e, _⟩ <;>
    rcases b with ⟨_ | _⟩ | _ | _ | ⟨_ | _, m', e', _⟩ <;>
    dsimp only [UnpackedFloat.lt, UnpackedFloat.compare, UnpackedFloat.place] <;>
    simp [Prod.Lex.toLex_lt_toLex, compare_pair_lt, compare_pair_gt]
  all_goals decide

variable {a b c : Float}

theorem le_iff : a ≤ b ↔ ∃ x ∈ a.place, ∃ y ∈ b.place, x ≤ y :=
  decide_eq_true_iff.trans (unpacked_le_iff _ _)

theorem lt_iff : a < b ↔ ∃ x ∈ a.place, ∃ y ∈ b.place, x < y :=
  decide_eq_true_iff.trans (unpacked_lt_iff _ _)

protected theorem le_trans (h : a ≤ b) (h' : b ≤ c) : a ≤ c := by
  obtain ⟨x, hx, y, hy, le⟩ := le_iff.mp h
  obtain ⟨y', hy', z, hz, le'⟩ := le_iff.mp h'
  obtain rfl := Option.mem_unique hy hy'
  exact le_iff.mpr ⟨x, hx, z, hz, le.trans le'⟩

protected theorem lt_of_le_of_lt (h : a ≤ b) (h' : b < c) : a < c := by
  obtain ⟨x, hx, y, hy, le⟩ := le_iff.mp h
  obtain ⟨y', hy', z, hz, less⟩ := lt_iff.mp h'
  obtain rfl := Option.mem_unique hy hy'
  exact lt_iff.mpr ⟨x, hx, z, hz, le.trans_lt less⟩

protected theorem lt_of_lt_of_le (h : a < b) (h' : b ≤ c) : a < c := by
  obtain ⟨x, hx, y, hy, less⟩ := lt_iff.mp h
  obtain ⟨y', hy', z, hz, le⟩ := le_iff.mp h'
  obtain rfl := Option.mem_unique hy hy'
  exact lt_iff.mpr ⟨x, hx, z, hz, less.trans_le le⟩

/-- Only NaN is not below itself. -/
protected theorem le_self_of_le (h : a ≤ b) : b ≤ b := by
  obtain ⟨x, hx, y, hy, le⟩ := le_iff.mp h
  exact le_iff.mpr ⟨y, hy, y, hy, le_rfl⟩

protected theorem not_lt_of_le (h : a ≤ b) : ¬b < a := by
  intro h'
  obtain ⟨x, hx, y, hy, le⟩ := le_iff.mp h
  obtain ⟨y', hy', x', hx', less⟩ := lt_iff.mp h'
  obtain rfl := Option.mem_unique hx hx'
  obtain rfl := Option.mem_unique hy hy'
  exact le.not_gt less

end Float
