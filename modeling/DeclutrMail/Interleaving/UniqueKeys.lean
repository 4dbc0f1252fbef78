import Mathlib.Data.List.Nodup
import DeclutrMail.Interleaving.Transactions

/-!
# Unique keys

A unique index over what transactions write. An insert whose key is visible does nothing; any
other insert waits until no open transaction has inserted one of its keys, and holds them until
its own transaction ends. So the keys of a draft are its thread's own, nobody else has committed
them, and no key is ever listed twice.
-/

namespace Interleaving

/-- The keys of a store, and those that a write inserts. -/
structure UniqueIndex {σ ω : Type} (apply : σ → ω → σ) (κ : Type) where
  listed : σ → List κ
  keys : ω → List κ
  listed_apply (s : σ) (x : ω) : listed (apply s x) = listed s ++ keys x

namespace UniqueIndex

variable {τ σ ω κ : Type} {apply : σ → ω → σ} (I : UniqueIndex apply κ)
  {d d' : Transactions τ σ ω κ} {t x : τ} {k : κ} {row : ω}

theorem listed_foldl (s : σ) (xs : List ω) :
    I.listed (xs.foldl apply s) = I.listed s ++ xs.flatMap I.keys := by
  induction xs generalizing s with
  | nil => simp
  | cons x xs ih => simp [ih, I.listed_apply]

theorem listed_view : I.listed (d.view apply t) = I.listed d.store ++ (d.draft t).flatMap I.keys :=
  I.listed_foldl ..

/-- No key is listed twice, and the keys of the drafts are held by their threads and not
committed. -/
structure Reserved (d : Transactions τ σ ω κ) : Prop where
  nodup : (I.listed d.store).Nodup
  distinct : ∀ t, ((d.draft t).flatMap I.keys).Nodup
  held : ∀ t, ∀ x ∈ d.draft t, ∀ k ∈ I.keys x, d.holder k = some t
  absent : ∀ t, ∀ x ∈ d.draft t, ∀ k ∈ I.keys x, k ∉ I.listed d.store

variable {I}

theorem Reserved.nothing (nodup : (I.listed d.store).Nodup) (none : ∀ t, d.draft t = []) :
    I.Reserved d :=
  ⟨nodup, fun t => by simp [none], fun t _ mem => (List.not_mem_nil (none t ▸ mem)).elim,
    fun t _ mem => (List.not_mem_nil (none t ▸ mem)).elim⟩

/-- Other writes bring no key of a draft. -/
theorem Reserved.restore {store : σ} (h : I.Reserved d) (nodup : (I.listed store).Nodup)
    (fresh : ∀ k t, d.holder k = some t → k ∈ I.listed store → k ∈ I.listed d.store) :
    I.Reserved { d with store } :=
  ⟨nodup, h.distinct, h.held, fun t x mem k known there =>
    h.absent t x mem k known (fresh k t (h.held t x mem k known) there)⟩

theorem Reserved.view_nodup (h : I.Reserved d) (t : τ) : (I.listed (d.view apply t)).Nodup := by
  rw [I.listed_view, List.nodup_append']
  refine ⟨h.nodup, h.distinct t, fun k there drafted => ?_⟩
  obtain ⟨x, mem, known⟩ := List.mem_flatMap.mp drafted
  exact h.absent t x mem k known there

/-- What a lock changes. -/
theorem Reserved.locks (h : I.Reserved d) (store : d'.store = d.store) (draft : d'.draft = d.draft)
    (kept : ∀ k x, d.holder k = some x → d'.holder k = some x) : I.Reserved d' := by
  refine ⟨?_, fun t => ?_, fun t y mem k known => ?_, fun t y mem k known => ?_⟩
  · rw [store]
    exact h.nodup
  · rw [draft]
    exact h.distinct t
  · rw [draft] at mem
    exact kept k t (h.held t y mem k known)
  · rw [draft] at mem
    rw [store]
    exact h.absent t y mem k known

variable [DecidableEq τ]

theorem Reserved.acquire [DecidableEq κ] (h : I.Reserved d) (took : d.acquire t k = some d') :
    I.Reserved d' := by
  obtain ⟨store, draft, -, -⟩ := Transactions.acquire_eq_some took
  exact h.locks store draft fun k' x => Transactions.holder_acquire took

/-- A write whose keys are held and not visible. -/
theorem Reserved.write (h : I.Reserved d) (distinct : (I.keys row).Nodup)
    (held : ∀ k ∈ I.keys row, d.holder k = some t)
    (absent : ∀ k ∈ I.keys row, k ∉ I.listed (d.view apply t)) : I.Reserved (d.write t row) := by
  have cases : ∀ x, ∀ y ∈ (d.write t row).draft x, y ∈ d.draft x ∨ x = t ∧ y = row := by
    intro x y mem
    by_cases same : x = t
    · subst same
      rw [Transactions.draft_write] at mem
      exact (List.mem_append.mp mem).imp id fun mem => ⟨rfl, List.mem_singleton.mp mem⟩
    · rw [(Transactions.Frames.write row).draft x same] at mem
      exact .inl mem
  refine ⟨h.nodup, fun x => ?_, fun x y mem k known => ?_, fun x y mem k known => ?_⟩
  · by_cases same : x = t
    · subst same
      rw [Transactions.draft_write, List.flatMap_append, List.flatMap_singleton, List.nodup_append']
      refine ⟨h.distinct x, distinct, fun k before now => absent k now ?_⟩
      rw [I.listed_view]
      exact List.mem_append_right _ before
    · rw [(Transactions.Frames.write row).draft x same]
      exact h.distinct x
  · rcases cases x y mem with old | ⟨rfl, rfl⟩
    · exact h.held x y old k known
    · exact held k known
  · rcases cases x y mem with old | ⟨rfl, rfl⟩
    · exact h.absent x y old k known
    · intro there
      refine absent k known ?_
      rw [I.listed_view]
      exact List.mem_append_left _ there

theorem Reserved.rollback (h : I.Reserved d) : I.Reserved (d.rollback t) := by
  have others : ∀ x, ∀ y ∈ (d.rollback t).draft x, x ≠ t ∧ y ∈ d.draft x := by
    intro x y mem
    by_cases same : x = t
    · subst same
      rw [Transactions.draft_rollback] at mem
      cases mem
    · exact ⟨same, Transactions.Frames.rollback.draft x same ▸ mem⟩
  refine ⟨h.nodup, fun x => ?_, fun x y mem k known => ?_, fun x y mem k known => ?_⟩
  · by_cases same : x = t
    · subst same
      rw [Transactions.draft_rollback]
      exact List.nodup_nil
    · rw [Transactions.Frames.rollback.draft x same]
      exact h.distinct x
  · obtain ⟨other, mem⟩ := others x y mem
    exact (Transactions.Frames.rollback.holder x other k).mpr (h.held x y mem k known)
  · obtain ⟨-, mem⟩ := others x y mem
    exact h.absent x y mem k known

/-- A commit brings keys that no other draft has. -/
theorem Reserved.commit (h : I.Reserved d) : I.Reserved (d.commit apply t) := by
  refine (h.rollback (t := t)).restore (h.view_nodup t) fun k x holds there => ?_
  rw [I.listed_view] at there
  refine (List.mem_append.mp there).resolve_right fun drafted => ?_
  obtain ⟨y, mem, known⟩ := List.mem_flatMap.mp drafted
  have mine := h.held t y mem k known
  have other : x ≠ t := by
    rintro rfl
    exact Transactions.holder_rollback k holds
  have theirs := (Transactions.Frames.rollback.holder x other k).mp holds
  exact other (Option.some.inj (theirs.symm.trans mine))

variable [DecidableEq κ]

/-- `INSERT … ON CONFLICT (k) DO NOTHING`, and whether it inserts. The other keys of the row are
new. -/
def insert (I : UniqueIndex apply κ) (d : Transactions τ σ ω κ) (t : τ) (k : κ) (row : ω) :
    Option (Bool × Transactions τ σ ω κ) :=
  if k ∈ I.listed (d.view apply t) then some (false, d)
  else if ∀ k ∈ I.keys row, k ∉ I.listed (d.view apply t) then
    (d.acquireAll t (I.keys row)).map fun d => (true, d.write t row)
  else none

theorem insert_eq_some {inserted : Bool} (done : I.insert d t k row = some (inserted, d')) :
    inserted = false ∧ d' = d ∧ k ∈ I.listed (d.view apply t) ∨
      inserted = true ∧ (∀ k ∈ I.keys row, k ∉ I.listed (d.view apply t)) ∧
        ∃ mid, d.acquireAll t (I.keys row) = some mid ∧ d' = mid.write t row := by
  unfold insert at done
  split_ifs at done with there absent
  · obtain ⟨rfl, rfl⟩ := Prod.mk.inj (Option.some.inj done)
    exact .inl ⟨rfl, rfl, there⟩
  · obtain ⟨mid, took, same⟩ := Option.map_eq_some_iff.mp done
    obtain ⟨rfl, rfl⟩ := Prod.mk.inj same
    exact .inr ⟨rfl, absent, mid, took, rfl⟩

theorem Reserved.insert {inserted : Bool} (h : I.Reserved d) (distinct : (I.keys row).Nodup)
    (done : I.insert d t k row = some (inserted, d')) : I.Reserved d' := by
  rcases insert_eq_some done with ⟨-, rfl, -⟩ | ⟨-, absent, mid, took, rfl⟩
  · exact h
  · obtain ⟨store, draft, mine, kept, -⟩ := Transactions.acquireAll_eq_some took
    refine (h.locks store draft kept).write distinct mine fun k' known => ?_
    have same : mid.view apply t = d.view apply t := by
      rw [Transactions.view, Transactions.view, store, draft]
    rw [same]
    exact absent k' known

theorem holder_insert {inserted : Bool} (done : I.insert d t k row = some (inserted, d')) {k' : κ}
    (held : d.holder k' = some x) : d'.holder k' = some x := by
  rcases insert_eq_some done with ⟨-, rfl, -⟩ | ⟨-, -, mid, took, rfl⟩
  · exact held
  · obtain ⟨-, -, -, kept, -⟩ := Transactions.acquireAll_eq_some took
    exact kept k' x held

/-- An insert leaves the drafts and the locks of others. -/
theorem frames_insert {inserted : Bool} (done : I.insert d t k row = some (inserted, d')) :
    d.Frames t d' ∧ d'.store = d.store ∧
      d'.draft t = d.draft t ++ if inserted then [row] else [] := by
  rcases insert_eq_some done with ⟨rfl, rfl, -⟩ | ⟨rfl, -, mid, took, rfl⟩
  · exact ⟨.refl, rfl, by simp⟩
  · obtain ⟨store, draft, -, -, frames⟩ := Transactions.acquireAll_eq_some took
    refine ⟨frames.trans (.write row), store, ?_⟩
    rw [Transactions.draft_write, draft]
    rfl

end UniqueIndex

end Interleaving
