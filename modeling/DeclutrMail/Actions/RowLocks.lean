import Mathlib.Data.List.Pairwise
import DeclutrMail.Actions.Rows
import DeclutrMail.Interleaving.UniqueKeys

/-!
# Locks on rows of `action_jobs`

Both the idempotency key and the id of a row are unique. A transaction that inserts a row holds
both until it ends, and one that updates a row holds its id. Some transactions also lock the row
of the workspace.
-/

namespace DeclutrMail.Actions

inductive RowLock
  | workspace
  | key (idempotencyKey : String)
  | id (id : ActionId)
  deriving DecidableEq

def ActionRow.locks (row : ActionRow) : List RowLock := [.key row.idempotencyKey, .id row.id]

theorem ActionRow.nodup_locks (row : ActionRow) : row.locks.Nodup := by simp [locks]

variable {ρ : Type} {f : ρ → ActionRow} {rows : List ρ} {a b : ρ}

/-- One row for an id, and one for a key. -/
theorem eq_of_locks (unique : (rows.flatMap fun row => (f row).locks).Nodup) (mem : a ∈ rows)
    (mem' : b ∈ rows)
    (same : (f a).id = (f b).id ∨ (f a).idempotencyKey = (f b).idempotencyKey) : a = b := by
  by_contra other
  obtain ⟨-, disjoint⟩ := List.nodup_flatMap.mp unique
  have symmetric : Std.Symm (Function.onFun List.Disjoint fun row => (f row).locks) :=
    ⟨fun _ _ apart => apart.symm⟩
  have apart : (f a).locks.Disjoint (f b).locks := disjoint.forall mem mem' other
  rcases same with same | same
  · exact apart (a := .id (f a).id) (by simp [ActionRow.locks]) (by simp [ActionRow.locks, same])
  · exact apart (a := .key (f a).idempotencyKey) (by simp [ActionRow.locks])
      (by simp [ActionRow.locks, same])

theorem nodup_keys (unique : (rows.flatMap fun row => (f row).locks).Nodup) :
    (rows.map fun row => (f row).idempotencyKey).Nodup := by
  refine List.Nodup.of_map RowLock.key (unique.sublist ?_)
  rw [List.map_map]
  clear unique
  induction rows with
  | nil => exact .slnil
  | cons row rows ih => exact .cons_cons _ (.cons _ ih)

/-- An update of chosen rows that keeps their ids and keys. -/
theorem locks_update {chosen : ρ → Bool} {change : ρ → ρ}
    (kept : ∀ row, (f (change row)).locks = (f row).locks) :
    ((rows.map fun row => if chosen row then change row else row).flatMap fun row => (f row).locks) =
      rows.flatMap fun row => (f row).locks := by
  rw [List.flatMap_map]
  congr 1
  funext row
  split_ifs
  · exact kept row
  · rfl

end DeclutrMail.Actions
