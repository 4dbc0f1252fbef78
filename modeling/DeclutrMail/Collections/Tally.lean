import DeclutrMail.Collections.InsertionMap
import Mathlib.Data.List.Dedup
import Mathlib.Data.List.Count
import Mathlib.Data.List.Find
import Mathlib.Algebra.BigOperators.Group.List.Lemmas

/-!
# Counting and majorities

`Tally.tally` counts the items of a list in a map, `Tally.groups` with a group for each item, as a
grouped query does. An item is the majority if more than half of the list is that item; both
counts find the same one, in any order of the list.
-/

namespace Tally

variable {κ : Type*} [DecidableEq κ]

/-! ## Majorities -/

def IsMajority (items : List κ) (k : κ) : Prop := items.length < items.count k * 2

instance (items : List κ) : DecidablePred (IsMajority items) := fun _ => Nat.decLt _ _

theorem count_add_count_le {k k' : κ} (ne : k ≠ k') (items : List κ) :
    items.count k + items.count k' ≤ items.length := by
  induction items with
  | nil => simp
  | cons item items ih =>
    simp only [List.count_cons, List.length_cons, beq_iff_eq]
    split_ifs with left right
    · exact absurd (left.symm.trans right) ne
    all_goals omega

theorem IsMajority.unique {items : List κ} {k k' : κ} (h : IsMajority items k)
    (h' : IsMajority items k') : k = k' := by
  by_contra ne
  have le := count_add_count_le ne items
  unfold IsMajority at h h'
  omega

theorem IsMajority.mem {items : List κ} {k : κ} (h : IsMajority items k) : k ∈ items := by
  refine List.count_pos_iff.mp ?_
  unfold IsMajority at h
  omega

theorem isMajority_perm {items items' : List κ} (same : items.Perm items') (k : κ) :
    IsMajority items k ↔ IsMajority items' k := by
  rw [IsMajority, IsMajority, same.length_eq, same.count_eq]

/-- `winner` is the majority of the items, if there is one. -/
def Wins (items : List κ) (winner : Option κ) : Prop := ∀ k, winner = some k ↔ IsMajority items k

theorem Wins.unique {items : List κ} {winner winner' : Option κ} (h : Wins items winner)
    (h' : Wins items winner') : winner = winner' :=
  Option.ext fun k => (h k).trans (h' k).symm

theorem Wins.perm {items items' : List κ} (same : items.Perm items') {winner : Option κ}
    (h : Wins items winner) : Wins items' winner :=
  fun k => (h k).trans (isMajority_perm same k)

/-- The first of some candidates that has the majority, if all of the items stand among them. -/
theorem wins_find? {items candidates : List κ} (covered : ∀ k, IsMajority items k → k ∈ candidates) :
    Wins items (candidates.find? fun k => items.length < items.count k * 2) := by
  intro k
  constructor
  · intro found
    have most := List.find?_some found
    exact of_decide_eq_true most
  · intro most
    cases found : candidates.find? fun k => items.length < items.count k * 2 with
    | none => exact absurd (decide_eq_true most) (List.find?_eq_none.mp found k (covered k most))
    | some k' =>
      have most' := List.find?_some found
      rw [most.unique (of_decide_eq_true most')]

/-! ## A map of counts -/

def count (counts : InsertionMap κ ℕ) (k : κ) : InsertionMap κ ℕ :=
  counts.set k ((counts.get k).getD 0 + 1)

def tally (items : List κ) : InsertionMap κ ℕ := items.foldl count .empty

theorem get_foldl_count (counts : InsertionMap κ ℕ) (items : List κ) (k : κ) :
    ((items.foldl count counts).get k).getD 0 = (counts.get k).getD 0 + items.count k := by
  induction items generalizing counts with
  | nil => simp
  | cons item items ih =>
    rw [List.foldl_cons, ih, count, InsertionMap.get_set, List.count_cons]
    by_cases here : item = k
    · simp [here]
      omega
    · simp [here]

theorem sum_foldl_count (counts : InsertionMap κ ℕ) (items : List κ) :
    ((items.foldl count counts).entries.map (·.2)).sum =
      (counts.entries.map (·.2)).sum + items.length := by
  induction items generalizing counts with
  | nil => simp
  | cons item items ih =>
    have added := counts.sum_set (fun _ n => n) item ((counts.get item).getD 0 + 1)
    rw [Option.map_id'] at added
    rw [List.foldl_cons, ih, count, List.length_cons]
    omega

theorem get_tally (items : List κ) (k : κ) : ((tally items).get k).getD 0 = items.count k := by
  rw [tally, get_foldl_count]
  simp

theorem sum_tally (items : List κ) : ((tally items).entries.map (·.2)).sum = items.length := by
  rw [tally, sum_foldl_count]
  simp [InsertionMap.empty]

theorem snd_of_mem_tally {items : List κ} {entry : κ × ℕ} (here : entry ∈ (tally items).entries) :
    entry.2 = items.count entry.1 := by
  rw [← get_tally, InsertionMap.mem_entries_iff.mp here, Option.getD_some]

/-- The first entry that outweighs the rest. -/
def majority (counts : InsertionMap κ ℕ) : Option κ :=
  let total := (counts.entries.map (·.2)).sum
  (counts.entries.find? fun entry => entry.2 * 2 > total).map (·.1)

theorem wins_majority (items : List κ) : Wins items (majority (tally items)) := by
  have scanned : majority (tally items) =
      (tally items).keys.find? fun k => items.length < items.count k * 2 := by
    rw [majority, sum_tally, InsertionMap.keys, List.find?_map]
    refine congrArg _ (List.find?_congr fun entry here => ?_)
    rw [snd_of_mem_tally here]
    rfl
  rw [scanned]
  refine wins_find? fun k most => InsertionMap.mem_keys.mpr ?_
  have counted := get_tally items k
  cases found : (tally items).get k with
  | none =>
    rw [found, Option.getD_none] at counted
    exact absurd (List.count_pos_iff.mpr most.mem) (by omega)
  | some n => exact ⟨n, rfl⟩

/-! ## Groups of a keyed list -/

section Groups

variable {γ : Type*} [DecidableEq γ]

/-- How many rows are in the group of a row. -/
def size (rows : List γ) (row : γ) : ℕ := rows.count row

theorem size_cons (row row' : γ) (rows : List γ) :
    size (row :: rows) row' = size rows row' + if row = row' then 1 else 0 := by
  simp [size, List.count_cons]

/-- The sizes of the groups that satisfy a condition, added up. -/
def sizes (rows : List γ) (p : γ → Bool) : ℕ := ((rows.dedup.filter p).map (size rows)).sum

theorem sizes_eq (rows : List γ) (p : γ → Bool) : sizes rows p = (rows.filter p).length := by
  rw [← List.countP_eq_length_filter]
  exact List.sum_map_count_dedup_filter_eq_countP p rows

end Groups

variable {σ : Type*} [DecidableEq σ]

/-- The items under a key. -/
def under (rows : List (σ × κ)) (s : σ) : List κ := (rows.filter (·.1 = s)).map (·.2)

theorem count_under (rows : List (σ × κ)) (s : σ) (k : κ) :
    (under rows s).count k = size rows (s, k) := by
  induction rows with
  | nil => rfl
  | cons row rows ih =>
    obtain ⟨s', k'⟩ := row
    rw [size_cons, ← ih]
    by_cases here : s' = s
    · simp [under, here, List.count_cons]
    · simp [under, here]

/-- The groups that outweigh the other groups of their key. -/
def majorities (rows : List (σ × κ)) : List (σ × κ) :=
  rows.dedup.filter fun group => size rows group * 2 > sizes rows (·.1 = group.1)

theorem mem_majorities {rows : List (σ × κ)} {s : σ} {k : κ} :
    (s, k) ∈ majorities rows ↔ IsMajority (under rows s) k := by
  have weighed : size rows (s, k) * 2 > sizes rows (·.1 = s) ↔ IsMajority (under rows s) k := by
    rw [IsMajority, count_under, sizes_eq, under, List.length_map]
  rw [majorities, List.mem_filter, List.mem_dedup, decide_eq_true_iff, weighed]
  refine and_iff_right_of_imp fun most => ?_
  obtain ⟨row, here, rfl⟩ := List.mem_map.mp most.mem
  obtain ⟨stored, keyed⟩ := List.mem_filter.mp here
  rw [← of_decide_eq_true keyed]
  exact stored

end Tally
