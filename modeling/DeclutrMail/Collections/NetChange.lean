import Mathlib.Data.Finset.SDiff
import Mathlib.Data.Finset.Basic

/-!
# Net changes of a finite set

A run of additions and removals is folded to one `NetChange`, in which the last edit that
names an element decides about it. Applying the net change is applying the run
(`apply_netOf`), and so it is for a flag that shadows one element of the set
(`flag_netOf`).
-/

inductive SetEdit (α : Type*) where
  | add (xs : Finset α)
  | remove (xs : Finset α)

namespace SetEdit

variable {α : Type*} [DecidableEq α]

def apply (s : Finset α) : SetEdit α → Finset α
  | .add xs => s ∪ xs
  | .remove xs => s \ xs

/-- What an edit does to a flag that shadows the element `x`. -/
def flag (x : α) (b : Bool) : SetEdit α → Bool
  | .add xs => if x ∈ xs then true else b
  | .remove xs => if x ∈ xs then false else b

/-- A flag that says whether `x` is there goes on saying it. -/
theorem flag_eq_decide (x : α) (s : Finset α) (e : SetEdit α) :
    flag x (decide (x ∈ s)) e = decide (x ∈ apply s e) := by
  cases e <;> simp only [flag, apply] <;> split_ifs with named <;> simp [named]

end SetEdit

@[ext]
structure NetChange (α : Type*) [DecidableEq α] where
  add : Finset α
  remove : Finset α
  disjoint : Disjoint add remove

namespace NetChange

variable {α : Type*} [DecidableEq α]

def none : NetChange α := ⟨∅, ∅, Finset.disjoint_empty_left _⟩

def apply (c : NetChange α) (s : Finset α) : Finset α := s \ c.remove ∪ c.add

def flag (c : NetChange α) (x : α) (b : Bool) : Bool :=
  if x ∈ c.add then true else if x ∈ c.remove then false else b

/-- Add one more edit to a net change. -/
def record (c : NetChange α) : SetEdit α → NetChange α
  | .add xs => ⟨c.add ∪ xs, c.remove \ xs,
      Finset.disjoint_union_left.mpr
        ⟨c.disjoint.mono_right Finset.sdiff_subset, Finset.disjoint_sdiff⟩⟩
  | .remove xs => ⟨c.add \ xs, c.remove ∪ xs,
      Finset.disjoint_union_right.mpr
        ⟨c.disjoint.mono_left Finset.sdiff_subset, Finset.sdiff_disjoint⟩⟩

def netOf (es : List (SetEdit α)) : NetChange α := es.foldl record none

@[simp] theorem apply_none (s : Finset α) : (none : NetChange α).apply s = s := by
  simp [none, apply]

@[simp] theorem flag_none (x : α) (b : Bool) : (none : NetChange α).flag x b = b := by
  simp [none, flag]

theorem not_mem_remove (c : NetChange α) {x : α} (h : x ∈ c.add) : x ∉ c.remove :=
  Finset.disjoint_left.mp c.disjoint h

theorem apply_record (c : NetChange α) (e : SetEdit α) (s : Finset α) :
    (c.record e).apply s = (e.apply (c.apply s)) := by
  have apart : ∀ x, x ∈ c.add → x ∉ c.remove := fun _ => c.not_mem_remove
  ext x
  cases e with
  | add xs =>
    simp only [record, apply, SetEdit.apply, Finset.mem_union, Finset.mem_sdiff]
    grind
  | remove xs =>
    simp only [record, apply, SetEdit.apply, Finset.mem_union, Finset.mem_sdiff]
    grind

theorem flag_record (c : NetChange α) (e : SetEdit α) (x : α) (b : Bool) :
    (c.record e).flag x b = SetEdit.flag x (c.flag x b) e := by
  have apart : x ∈ c.add → x ∉ c.remove := c.not_mem_remove
  cases e with
  | add xs =>
    simp only [record, flag, SetEdit.flag, Finset.mem_union, Finset.mem_sdiff]
    grind
  | remove xs =>
    simp only [record, flag, SetEdit.flag, Finset.mem_union, Finset.mem_sdiff]
    grind

theorem record_add_add (c : NetChange α) (xs ys : Finset α) :
    (c.record (.add xs)).record (.add ys) = c.record (.add (xs ∪ ys)) := by
  ext x
  · simp [record]
  · simp [record, and_assoc]

theorem record_remove_remove (c : NetChange α) (xs ys : Finset α) :
    (c.record (.remove xs)).record (.remove ys) = c.record (.remove (xs ∪ ys)) := by
  ext x
  · simp [record, and_assoc]
  · simp [record]

theorem netOf_concat (es : List (SetEdit α)) (e : SetEdit α) :
    netOf (es ++ [e]) = (netOf es).record e := by
  simp [netOf]

theorem apply_netOf (es : List (SetEdit α)) (s : Finset α) :
    (netOf es).apply s = es.foldl SetEdit.apply s := by
  induction es using List.reverseRecOn with
  | nil => simp [netOf]
  | append_singleton es e ih => rw [netOf_concat, apply_record, ih, List.foldl_concat]

theorem flag_netOf (es : List (SetEdit α)) (x : α) (b : Bool) :
    (netOf es).flag x b = es.foldl (SetEdit.flag x) b := by
  induction es using List.reverseRecOn with
  | nil => simp [netOf]
  | append_singleton es e ih => rw [netOf_concat, flag_record, ih, List.foldl_concat]

end NetChange
