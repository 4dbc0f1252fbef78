import Mathlib.Algebra.BigOperators.Group.List.Basic
import Mathlib.Data.List.Nodup
import Mathlib.Algebra.GroupWithZero.Nat

/-!
# Maps in insertion order

A finite map that remembers the order in which its keys were first set, as the `Map` of
JavaScript does: setting a present key keeps its place, a deleted key that is set again
goes to the end.
-/

structure InsertionMap (κ ν : Type*) [DecidableEq κ] where
  entries : List (κ × ν)
  nodup : (entries.map Prod.fst).Nodup

namespace InsertionMap

variable {κ ν : Type*} [DecidableEq κ]

def empty : InsertionMap κ ν := ⟨[], List.nodup_nil⟩

def keys (m : InsertionMap κ ν) : List κ := m.entries.map Prod.fst

/-- Look a key up in a list of entries. -/
def find (k : κ) : List (κ × ν) → Option ν
  | [] => none
  | (k', v) :: es => if k' = k then some v else find k es

@[simp] theorem find_nil (k : κ) : find k ([] : List (κ × ν)) = none := rfl

theorem find_cons (k k' : κ) (v : ν) (es : List (κ × ν)) :
    find k ((k', v) :: es) = if k' = k then some v else find k es := rfl

def get (m : InsertionMap κ ν) (k : κ) : Option ν := find k m.entries

/-- Replace the value of a key, or add the key at the end. -/
def insert (k : κ) (v : ν) : List (κ × ν) → List (κ × ν)
  | [] => [(k, v)]
  | (k', v') :: es => if k' = k then (k, v) :: es else (k', v') :: insert k v es

@[simp] theorem insert_nil (k : κ) (v : ν) : insert k v ([] : List (κ × ν)) = [(k, v)] := rfl

theorem insert_cons (k k' : κ) (v v' : ν) (es : List (κ × ν)) :
    insert k v ((k', v') :: es) = if k' = k then (k, v) :: es else (k', v') :: insert k v es := rfl

theorem mem_keys_insert {k x : κ} {v : ν} {es : List (κ × ν)} :
    x ∈ (insert k v es).map Prod.fst ↔ x = k ∨ x ∈ es.map Prod.fst := by
  induction es with
  | nil => simp
  | cons e es ih =>
    obtain ⟨k', v'⟩ := e
    rw [insert_cons]
    split_ifs with same
    · subst same
      simp
    · simp only [List.map_cons, List.mem_cons, ih]
      tauto

theorem nodup_insert {k : κ} {v : ν} {es : List (κ × ν)} (h : (es.map Prod.fst).Nodup) :
    ((insert k v es).map Prod.fst).Nodup := by
  induction es with
  | nil => simp
  | cons e es ih =>
    obtain ⟨k', v'⟩ := e
    obtain ⟨fresh, rest⟩ := List.nodup_cons.mp h
    rw [insert_cons]
    split_ifs with same
    · subst same
      exact h
    · refine List.nodup_cons.mpr ⟨fun there => ?_, ih rest⟩
      rw [mem_keys_insert] at there
      rcases there with rfl | there
      · exact same rfl
      · exact fresh there

def set (m : InsertionMap κ ν) (k : κ) (v : ν) : InsertionMap κ ν :=
  ⟨insert k v m.entries, nodup_insert m.nodup⟩

def delete (m : InsertionMap κ ν) (k : κ) : InsertionMap κ ν :=
  ⟨m.entries.filter (·.1 ≠ k), m.nodup.sublist (List.filter_sublist.map _)⟩

@[simp] theorem get_empty (k : κ) : (empty : InsertionMap κ ν).get k = none := rfl

theorem find_insert (k x : κ) (v : ν) (es : List (κ × ν)) :
    find x (insert k v es) = if k = x then some v else find x es := by
  induction es with
  | nil => rfl
  | cons e es ih =>
    obtain ⟨k', v'⟩ := e
    rw [insert_cons, find_cons]
    split_ifs <;> simp_all [find_cons]

theorem find_filter (k x : κ) (es : List (κ × ν)) :
    find x (es.filter (·.1 ≠ k)) = if k = x then none else find x es := by
  induction es with
  | nil => simp
  | cons e es ih =>
    obtain ⟨k', v'⟩ := e
    by_cases here : k' = k
    · subst here
      simp only [ne_eq, not_true_eq_false, decide_false, Bool.false_eq_true, not_false_eq_true,
        List.filter_cons_of_neg, find_cons] at ih ⊢
      grind
    · simp only [ne_eq, here, not_false_eq_true, decide_true, List.filter_cons_of_pos, find_cons] at ih ⊢
      grind

@[simp] theorem get_set (m : InsertionMap κ ν) (k x : κ) (v : ν) :
    (m.set k v).get x = if k = x then some v else m.get x := find_insert k x v m.entries

@[simp] theorem get_delete (m : InsertionMap κ ν) (k x : κ) :
    (m.delete k).get x = if k = x then none else m.get x := find_filter k x m.entries

theorem mem_keys {m : InsertionMap κ ν} {k : κ} : k ∈ m.keys ↔ ∃ v, m.get k = some v := by
  obtain ⟨es, nodup⟩ := m
  simp only [keys, get]
  clear nodup
  induction es with
  | nil => simp
  | cons e es ih =>
    obtain ⟨k', v'⟩ := e
    by_cases here : k' = k
    · simp [find_cons, here]
    · simp [find_cons, here, Ne.symm here, ← ih]

theorem find_eq_none {k : κ} {es : List (κ × ν)} :
    find k es = none ↔ k ∉ es.map Prod.fst := by
  induction es with
  | nil => simp
  | cons e es ih =>
    obtain ⟨k', v'⟩ := e
    by_cases here : k' = k
    · simp [find_cons, here]
    · simp [find_cons, here, Ne.symm here, ih]

theorem find_append (k : κ) (es fs : List (κ × ν)) :
    find k (es ++ fs) = (find k es).or (find k fs) := by
  induction es with
  | nil => rfl
  | cons e es ih =>
    obtain ⟨k', v'⟩ := e
    simp only [List.cons_append, find_cons, ih]
    split_ifs <;> rfl

theorem find_of_mem {k : κ} {v : ν} {es : List (κ × ν)} (nodup : (es.map Prod.fst).Nodup)
    (mem : (k, v) ∈ es) : find k es = some v := by
  induction es with
  | nil => simp at mem
  | cons e es ih =>
    obtain ⟨k', v'⟩ := e
    obtain ⟨fresh, rest⟩ := List.nodup_cons.mp nodup
    rcases List.mem_cons.mp mem with same | later
    · simp_all [find_cons]
    · have other : k' ≠ k := by
        rintro rfl
        exact fresh (List.mem_map.mpr ⟨_, later, rfl⟩)
      simp [find_cons, other, ih rest later]

theorem mem_of_find {k : κ} {v : ν} {es : List (κ × ν)} (h : find k es = some v) : (k, v) ∈ es := by
  induction es with
  | nil => simp at h
  | cons e es ih =>
    obtain ⟨k', v'⟩ := e
    rw [find_cons] at h
    split_ifs at h with here
    · obtain rfl := Option.some.inj h
      rw [here]
      exact List.mem_cons_self ..
    · exact List.mem_cons_of_mem _ (ih h)

theorem mem_entries_iff {m : InsertionMap κ ν} {k : κ} {v : ν} :
    (k, v) ∈ m.entries ↔ m.get k = some v := ⟨find_of_mem m.nodup, mem_of_find⟩

/-- A weight summed over the entries, when one key is set. -/
theorem sum_insert (weight : κ → ν → ℕ) (k : κ) (v : ν) {es : List (κ × ν)}
    (nodup : (es.map Prod.fst).Nodup) :
    ((insert k v es).map fun e => weight e.1 e.2).sum + ((find k es).map (weight k)).getD 0 =
      (es.map fun e => weight e.1 e.2).sum + weight k v := by
  induction es with
  | nil => simp
  | cons e es ih =>
    obtain ⟨k', v'⟩ := e
    obtain ⟨fresh, rest⟩ := List.nodup_cons.mp nodup
    by_cases here : k' = k
    · subst here
      simp only [insert_cons, find_cons, if_true, List.map_cons, List.sum_cons, Option.map_some,
        Option.getD_some]
      omega
    · have below := ih rest
      simp only [insert_cons, find_cons, here, if_false, List.map_cons, List.sum_cons] at below ⊢
      omega

theorem sum_set (weight : κ → ν → ℕ) (m : InsertionMap κ ν) (k : κ) (v : ν) :
    ((m.set k v).entries.map fun e => weight e.1 e.2).sum + ((m.get k).map (weight k)).getD 0 =
      (m.entries.map fun e => weight e.1 e.2).sum + weight k v := sum_insert weight k v m.nodup

/-- A weight summed over the entries, when one key is deleted. -/
theorem sum_delete (weight : κ → ν → ℕ) {m : InsertionMap κ ν} {k : κ} {v : ν}
    (found : m.get k = some v) :
    ((m.delete k).entries.map fun e => weight e.1 e.2).sum + weight k v =
      (m.entries.map fun e => weight e.1 e.2).sum := by
  obtain ⟨es, nodup⟩ := m
  simp only [get, delete] at found ⊢
  induction es with
  | nil => simp at found
  | cons e es ih =>
    obtain ⟨k', v'⟩ := e
    obtain ⟨fresh, rest⟩ := List.nodup_cons.mp nodup
    by_cases here : k' = k
    · subst here
      have others : es.filter (·.1 ≠ k') = es := List.filter_eq_self.mpr fun e mem =>
        decide_eq_true fun same => fresh (List.mem_map.mpr ⟨e, mem, same⟩)
      rw [find_cons, if_pos rfl] at found
      obtain rfl := Option.some.inj found
      rw [List.filter_cons_of_neg (by simp), others, List.map_cons, List.sum_cons, Nat.add_comm]
    · rw [find_cons, if_neg here] at found
      have below := ih rest found
      rw [List.filter_cons_of_pos (by simp [here]), List.map_cons, List.sum_cons, List.map_cons,
        List.sum_cons]
      omega

/-- Delete the oldest keys while there are more than `bound`. -/
def evict (bound : ℕ) (m : InsertionMap κ ν) : InsertionMap κ ν :=
  if bound < m.entries.length then
    match _first : m.entries with
    | [] => m
    | (oldest, _) :: _ => evict bound (m.delete oldest)
  else m
termination_by m.entries.length
decreasing_by
  have oldest_mem : (oldest, _) ∈ m.entries := _first ▸ List.mem_cons_self
  exact List.length_filter_lt_length_iff_exists.mpr ⟨_, oldest_mem, by simp⟩

theorem evict_sublist (bound : ℕ) (m : InsertionMap κ ν) :
    (m.evict bound).entries.Sublist m.entries := by
  fun_induction evict bound m with
  | case1 => exact List.Sublist.refl _
  | case2 m _ oldest _ _ _ ih => exact ih.trans List.filter_sublist
  | case3 => exact List.Sublist.refl _

theorem length_evict_le (bound : ℕ) (m : InsertionMap κ ν) :
    (m.evict bound).entries.length ≤ bound := by
  fun_induction evict bound m with
  | case1 m many nil => simp [nil] at many
  | case2 _ _ _ _ _ _ ih => exact ih
  | case3 m within => omega

theorem get_of_sublist {m m' : InsertionMap κ ν} (part : m'.entries.Sublist m.entries) {k : κ}
    {v : ν} (found : m'.get k = some v) : m.get k = some v :=
  mem_entries_iff.mp (part.subset (mem_entries_iff.mpr found))

end InsertionMap
