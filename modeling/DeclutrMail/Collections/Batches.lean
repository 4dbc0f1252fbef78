import Mathlib.Data.List.Nodup
import Mathlib.Algebra.BigOperators.Group.List.Basic

/-!
# Batches and distinct elements of a list

`batches size xs` are the slices `xs[i, i + size)` for `i = 0, size, 2 * size, …`, and
`distinct xs` is `xs` without its repetitions, in the order of first occurrence.
-/

namespace Batches

variable {α β : Type*}

def slices (size : ℕ) : ℕ → List α → List (List α)
  | 0, _ => []
  | _, [] => []
  | fuel + 1, x :: xs =>
    (x :: xs).take size :: slices size fuel ((x :: xs).drop size)

/-- The consecutive slices of a list, all of `size` elements but the last one. -/
def batches (size : ℕ) (xs : List α) : List (List α) := slices size xs.length xs

theorem flatten_slices {size : ℕ} (pos : 0 < size) (fuel : ℕ) (xs : List α)
    (enough : xs.length ≤ fuel) : (slices size fuel xs).flatten = xs := by
  induction fuel generalizing xs with
  | zero => simp_all [slices]
  | succ fuel ih =>
    cases xs with
    | nil => rfl
    | cons x xs =>
      have shorter : ((x :: xs).drop size).length ≤ fuel := by
        simp only [List.length_drop]
        omega
      rw [slices, List.flatten_cons, ih _ shorter, List.take_append_drop]

theorem flatten_batches {size : ℕ} (pos : 0 < size) (xs : List α) :
    (batches size xs).flatten = xs := flatten_slices pos _ xs (Nat.le_refl _)

theorem length_le_of_mem_slices {size : ℕ} {fuel : ℕ} {xs batch : List α}
    (mem : batch ∈ slices size fuel xs) : batch.length ≤ size := by
  induction fuel generalizing xs with
  | zero => simp [slices] at mem
  | succ fuel ih =>
    cases xs with
    | nil => simp [slices] at mem
    | cons x xs =>
      rcases List.mem_cons.mp mem with rfl | mem
      · exact List.length_take_le size (x :: xs)
      · exact ih mem

/-- Each slice where it is cut out. -/
theorem getElem?_slices {size : ℕ} (pos : 0 < size) {fuel i : ℕ} {xs : List α}
    (enough : xs.length ≤ fuel) (within : i * size < xs.length) :
    (slices size fuel xs)[i]? = some ((xs.drop (i * size)).take size) := by
  induction fuel generalizing xs i with
  | zero => omega
  | succ fuel ih =>
    cases xs with
    | nil => simp at within
    | cons x xs =>
      rw [slices]
      cases i with
      | zero => simp
      | succ i =>
        have shift : (i + 1) * size = size + i * size := by rw [Nat.succ_mul, Nat.add_comm]
        rw [shift] at within
        have shorter : ((x :: xs).drop size).length ≤ fuel := by
          simp only [List.length_drop, List.length_cons] at enough ⊢
          omega
        rw [List.getElem?_cons_succ, ih shorter (by simp only [List.length_drop]; omega),
          List.drop_drop, shift]

variable [DecidableEq α]

/-- Add an element at the end, unless it is there. -/
def put (xs : List α) (x : α) : List α := if x ∈ xs then xs else xs ++ [x]

def distinct (xs : List α) : List α := xs.foldl put []

@[simp] theorem mem_put {xs : List α} {x y : α} : y ∈ put xs x ↔ y ∈ xs ∨ y = x := by
  unfold put
  split_ifs with there
  · constructor
    · exact Or.inl
    · rintro (h | rfl)
      · exact h
      · exact there
  · simp

theorem nodup_put {xs : List α} {x : α} (h : xs.Nodup) : (put xs x).Nodup := by
  unfold put
  split_ifs with there
  · exact h
  · refine h.append (List.nodup_singleton x) fun y hy hx => there ?_
    rwa [← List.mem_singleton.mp hx]

theorem mem_foldl_put {acc xs : List α} {y : α} : y ∈ xs.foldl put acc ↔ y ∈ acc ∨ y ∈ xs := by
  induction xs generalizing acc with
  | nil => simp
  | cons x xs ih =>
    rw [List.foldl_cons, ih, mem_put, List.mem_cons, or_assoc]

theorem nodup_foldl_put {acc xs : List α} (h : acc.Nodup) : (xs.foldl put acc).Nodup := by
  induction xs generalizing acc with
  | nil => exact h
  | cons x xs ih => exact ih (nodup_put h)

@[simp] theorem mem_distinct {xs : List α} {y : α} : y ∈ distinct xs ↔ y ∈ xs := by
  simp [distinct, mem_foldl_put]

theorem nodup_distinct (xs : List α) : (distinct xs).Nodup := nodup_foldl_put List.nodup_nil

theorem distinct_concat (xs : List α) (x : α) : distinct (xs ++ [x]) = put (distinct xs) x := by
  simp [distinct]

end Batches
