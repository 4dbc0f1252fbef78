import DeclutrMail.Billing.VerdictPass
import Mathlib.Data.Int.ModEq

/-!
# The buckets of the verdict pass

Where more rows are eligible than a pass should examine, it takes one bucket of them: the rows
whose hash has the residue that the run index names, modulo a number of buckets that each pass
computes from its own count. Consecutive passes come round to every row as long as their numbers
divide one that they have the time for (`examined_of_steady`). Where the number changes otherwise,
a row may be left out (`examined_changing`).
-/

namespace DeclutrMail.Billing

/-! ## One pass -/

/-- `BUCKET_TARGET_ROWS`. -/
def bucketTargetRows : ℕ := 60

variable {Id : Type}

/-- The predicate is nothing if the whole population fits in one pass. -/
structure BucketSlice (Id : Type) where
  predicate : Option (Id → Bool)
  buckets : ℕ
  total : ℕ

/-- `Math.max(1, Math.ceil(total / BUCKET_TARGET_ROWS))` -/
def bucketsOf (total : ℕ) : ℕ := max 1 ((total + bucketTargetRows - 1) / bucketTargetRows)

/-- The residue of a number of any sign: the remainder has the number's own. -/
def residue (n b : ℤ) : ℤ := (n.tmod b + b).tmod b

/-- The bucket that the run with this index owns of the eligible rows. -/
def bucketPredicate (hashtext : Id → ℤ) (eligible : List Id) (runIndex : ℤ) : BucketSlice Id :=
  let total := eligible.length
  let buckets := bucketsOf total
  if buckets = 1 then ⟨none, buckets, total⟩
  else
    let bucket := residue runIndex buckets
    ⟨some fun id => residue (hashtext id) buckets = bucket, buckets, total⟩

def BucketSlice.selects (slice : BucketSlice Id) (id : Id) : Bool :=
  match slice.predicate with
  | none => true
  | some predicate => predicate id

/-- The rows that a pass examines of a population in random order. -/
def examined (hashtext : Id → ℤ) (eligible : List Id) (runIndex : ℤ) : List Id :=
  (eligible.filter (bucketPredicate hashtext eligible runIndex).selects).take verdictPassMaxRows

theorem bucketsOf_pos (total : ℕ) : 0 < bucketsOf total := by
  unfold bucketsOf
  omega

theorem residue_eq (n : ℤ) {b : ℤ} (pos : 0 < b) : residue n b = n % b := by
  have low : -b < n.tmod b := by
    have := Int.lt_tmod_of_pos n pos
    omega
  unfold residue
  rw [Int.tmod_eq_emod_of_nonneg (by omega), Int.add_emod_right, Int.tmod_def]
  exact Int.sub_mul_emod_self_left ..

/-- A row is selected iff its hash is the run index up to a multiple of the number of buckets. -/
theorem selects_iff (hashtext : Id → ℤ) (eligible : List Id) (runIndex : ℤ) (id : Id) :
    (bucketPredicate hashtext eligible runIndex).selects id = true ↔
      (bucketsOf eligible.length : ℤ) ∣ runIndex - hashtext id := by
  have pos : (0 : ℤ) < bucketsOf eligible.length := by exact_mod_cast bucketsOf_pos _
  unfold bucketPredicate
  dsimp only
  split_ifs with one
  · simp [BucketSlice.selects, one]
  · simp only [BucketSlice.selects, decide_eq_true_eq, residue_eq _ pos]
    exact Int.modEq_iff_dvd

theorem examined_sublist (hashtext : Id → ℤ) (eligible : List Id) (runIndex : ℤ) :
    (examined hashtext eligible runIndex).Sublist eligible :=
  (List.take_sublist _ _).trans List.filter_sublist

theorem mem_examined {hashtext : Id → ℤ} {eligible : List Id} {runIndex : ℤ} {id : Id}
    (mem : id ∈ eligible)
    (uncapped : (eligible.filter (bucketPredicate hashtext eligible runIndex).selects).length ≤
      verdictPassMaxRows)
    (due : (bucketsOf eligible.length : ℤ) ∣ runIndex - hashtext id) :
    id ∈ examined hashtext eligible runIndex := by
  rw [examined, List.take_of_length_le uncapped]
  exact List.mem_filter.mpr ⟨mem, (selects_iff ..).mpr due⟩

/-! ## Consecutive passes -/

/-- One of so many consecutive numbers has a given residue. -/
theorem exists_dvd_add_sub (n h : ℤ) {b : ℕ} (pos : 0 < b) : ∃ k < b, (b : ℤ) ∣ n + k - h := by
  have low := Int.emod_nonneg (h - n) (show (b : ℤ) ≠ 0 by omega)
  have high := Int.emod_lt_of_pos (h - n) (show (0 : ℤ) < b by omega)
  refine ⟨((h - n) % b).toNat, by omega, ?_⟩
  rw [Int.toNat_of_nonneg low, show n + (h - n) % b - h = (h - n) % b - (h - n) by omega]
  exact Int.modEq_iff_dvd.mp (Int.mod_modEq ..).symm

/-- Among the `B` passes from `first` on there are `b` consecutive ones whose numbers of buckets
divide `b`. -/
def Steady (eligible : ℕ → List Id) (first B : ℕ) : Prop :=
  ∃ b s, 0 < b ∧ s + b ≤ B ∧ ∀ k < b, bucketsOf (eligible (first + s + k)).length ∣ b

/-- Every row that stays eligible is examined by one of the passes. -/
theorem examined_of_steady {hashtext : Id → ℤ} (eligible : ℕ → List Id) {runIndex : ℤ}
    {first B : ℕ} {id : Id}
    (uncapped : ∀ k < B, ((eligible (first + k)).filter (bucketPredicate hashtext
      (eligible (first + k)) (runIndex + (first + k : ℕ))).selects).length ≤ verdictPassMaxRows)
    (stays : ∀ k < B, id ∈ eligible (first + k)) (steady : Steady eligible first B) :
    ∃ k < B, id ∈ examined hashtext (eligible (first + k)) (runIndex + (first + k : ℕ)) := by
  obtain ⟨b, s, pos, within, divides⟩ := steady
  obtain ⟨k, lt, due⟩ := exists_dvd_add_sub (runIndex + (first + s : ℕ)) (hashtext id) pos
  refine ⟨s + k, by omega, mem_examined (stays _ (by omega)) (uncapped _ (by omega)) ?_⟩
  have buckets := divides k lt
  rw [← add_assoc first s k]
  have index : runIndex + ((first + s + k : ℕ) : ℤ) = runIndex + (first + s : ℕ) + k := by
    push_cast
    omega
  rw [index]
  exact (Int.natCast_dvd_natCast.mpr buckets).trans due

/-- Two passes over a hundred rows, of two buckets each. -/
theorem examined_of_steady_sample :
    ∃ k < 2, 7 ∈ examined (Int.ofNat) (List.range 100) (28934 + (0 + k : ℕ)) :=
  examined_of_steady (fun _ => List.range 100) (by decide +kernel) (by decide +kernel)
    ⟨2, 0, by decide, by decide, by decide +kernel⟩

/-- Three passes over 70, 130 and 70 rows have 2, 3 and 2 buckets and leave out the row whose hash
is 3. -/
theorem examined_changing :
    ¬ ∀ (hashtext : ℕ → ℤ) (eligible : ℕ → List ℕ) (runIndex : ℤ) (first B : ℕ) (id : ℕ),
      (∀ k < B, bucketsOf (eligible (first + k)).length ≤ B) →
      (∃ k < B, bucketsOf (eligible (first + k)).length = B) →
      (∀ k < B, ((eligible (first + k)).filter (bucketPredicate hashtext
        (eligible (first + k)) (runIndex + (first + k : ℕ))).selects).length ≤
          verdictPassMaxRows) →
      (∀ k < B, id ∈ eligible (first + k)) →
      ∃ k < B, id ∈ examined hashtext (eligible (first + k)) (runIndex + (first + k : ℕ)) := by
  intro covers
  have found := covers Int.ofNat (fun k => List.range (if k = 1 then 130 else 70)) 0 0 3 3
    (by decide +kernel) (by decide +kernel) (by decide +kernel) (by decide +kernel)
  revert found
  decide +kernel

end DeclutrMail.Billing
