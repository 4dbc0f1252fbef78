import Mathlib.Logic.Function.Basic
import Mathlib.Tactic.SplitIfs

/-!
# Transactions that read what is committed

Every statement of a transaction sees what is committed when it runs, with the transaction's own
writes on top of it. The writes are drafts until the transaction commits, and a lock that it
takes, on a row or a name, is its own until it ends.
-/

namespace Interleaving

/-- What is committed, what each thread has written since it began, and who holds which lock. -/
structure Transactions (τ σ ω κ : Type) where
  store : σ
  draft : τ → List ω
  holder : κ → Option τ

namespace Transactions

variable {τ σ ω κ : Type}

/-- What a statement of `t` sees. -/
def view (apply : σ → ω → σ) (d : Transactions τ σ ω κ) (t : τ) : σ := (d.draft t).foldl apply d.store

/-- The drafts and the locks of other threads are theirs. -/
structure Frames (t : τ) (d d' : Transactions τ σ ω κ) : Prop where
  draft : ∀ x ≠ t, d'.draft x = d.draft x
  holder : ∀ x ≠ t, ∀ k, d'.holder k = some x ↔ d.holder k = some x

variable {d d' : Transactions τ σ ω κ} {t : τ}

theorem Frames.refl : d.Frames t d := ⟨fun _ _ => rfl, fun _ _ _ => Iff.rfl⟩

theorem Frames.trans {d'' : Transactions τ σ ω κ} (h : d.Frames t d') (h' : d'.Frames t d'') :
    d.Frames t d'' :=
  ⟨fun x other => (h'.draft x other).trans (h.draft x other), fun x other k =>
    (h'.holder x other k).trans (h.holder x other k)⟩

variable [DecidableEq τ]

/-- Take a lock, unless another thread holds it. -/
def acquire [DecidableEq κ] (d : Transactions τ σ ω κ) (t : τ) (k : κ) :
    Option (Transactions τ σ ω κ) :=
  if d.holder k = none ∨ d.holder k = some t then
    some { d with holder := Function.update d.holder k (some t) }
  else none

def write (d : Transactions τ σ ω κ) (t : τ) (x : ω) : Transactions τ σ ω κ :=
  { d with draft := Function.update d.draft t (d.draft t ++ [x]) }

/-- Take several locks at once, or none. -/
def acquireAll [DecidableEq κ] (d : Transactions τ σ ω κ) (t : τ) (ks : List κ) :
    Option (Transactions τ σ ω κ) := ks.foldlM (fun d k => d.acquire t k) d

def writeAll (d : Transactions τ σ ω κ) (t : τ) (xs : List ω) : Transactions τ σ ω κ :=
  { d with draft := Function.update d.draft t (d.draft t ++ xs) }

/-- End without the writes. -/
def rollback (d : Transactions τ σ ω κ) (t : τ) : Transactions τ σ ω κ :=
  { d with
    draft := Function.update d.draft t []
    holder := fun k => if d.holder k = some t then none else d.holder k }

/-- End with the writes. -/
def commit (apply : σ → ω → σ) (d : Transactions τ σ ω κ) (t : τ) : Transactions τ σ ω κ :=
  { d.rollback t with store := d.view apply t }

variable {apply : σ → ω → σ}

@[simp] theorem draft_write (x : ω) : (d.write t x).draft t = d.draft t ++ [x] := by simp [write]

@[simp] theorem store_write (x : ω) : (d.write t x).store = d.store := rfl

@[simp] theorem holder_write (x : ω) : (d.write t x).holder = d.holder := rfl

@[simp] theorem draft_writeAll (xs : List ω) : (d.writeAll t xs).draft t = d.draft t ++ xs := by
  simp [writeAll]

@[simp] theorem store_writeAll (xs : List ω) : (d.writeAll t xs).store = d.store := rfl

@[simp] theorem holder_writeAll (xs : List ω) : (d.writeAll t xs).holder = d.holder := rfl

@[simp] theorem draft_rollback : (d.rollback t).draft t = [] := by simp [rollback]

@[simp] theorem store_rollback : (d.rollback t).store = d.store := rfl

theorem holder_rollback (k : κ) : (d.rollback t).holder k ≠ some t := by
  unfold rollback
  dsimp only
  split_ifs with mine
  · simp
  · exact mine

@[simp] theorem draft_commit : (d.commit apply t).draft t = [] := draft_rollback

@[simp] theorem store_commit : (d.commit apply t).store = d.view apply t := rfl

theorem holder_commit (k : κ) : (d.commit apply t).holder k ≠ some t := holder_rollback k

theorem acquire_eq_some [DecidableEq κ] {k : κ} (h : d.acquire t k = some d') :
    d'.store = d.store ∧ d'.draft = d.draft ∧ d'.holder k = some t ∧ d.Frames t d' := by
  unfold acquire at h
  split_ifs at h with free
  obtain rfl := Option.some.inj h
  refine ⟨rfl, rfl, by simp, fun _ _ => rfl, fun x other k' => ?_⟩
  dsimp only
  by_cases same : k' = k
  · subst same
    rw [Function.update_self]
    rcases free with free | free <;> rw [free] <;> simp [other.symm]
  · rw [Function.update_of_ne same]

/-- Locks that are held stay held. -/
theorem holder_acquire [DecidableEq κ] {k k' : κ} {x : τ} (h : d.acquire t k = some d')
    (held : d.holder k' = some x) : d'.holder k' = some x := by
  unfold acquire at h
  split_ifs at h with free
  obtain rfl := Option.some.inj h
  dsimp only
  by_cases same : k' = k
  · subst same
    rw [Function.update_self]
    rw [held] at free
    exact (free.resolve_left (Option.some_ne_none x)).symm
  · rwa [Function.update_of_ne same]

theorem acquireAll_eq_some [DecidableEq κ] {ks : List κ} (h : d.acquireAll t ks = some d') :
    d'.store = d.store ∧ d'.draft = d.draft ∧ (∀ k ∈ ks, d'.holder k = some t) ∧
      (∀ k x, d.holder k = some x → d'.holder k = some x) ∧ d.Frames t d' := by
  induction ks generalizing d with
  | nil =>
    obtain rfl := Option.some.inj h
    exact ⟨rfl, rfl, by simp, fun _ _ => id, .refl⟩
  | cons k ks ih =>
    obtain ⟨mid, first, rest⟩ := Option.bind_eq_some_iff.mp h
    obtain ⟨store, draft, mine, frames⟩ := acquire_eq_some first
    obtain ⟨store', draft', all, kept, frames'⟩ := ih rest
    refine ⟨store'.trans store, draft'.trans draft, ?_, fun k x held =>
      kept k x (holder_acquire first held), frames.trans frames'⟩
    intro k' mem
    rcases List.mem_cons.mp mem with rfl | mem
    · exact kept k' t mine
    · exact all k' mem

theorem Frames.writeAll (xs : List ω) : d.Frames t (d.writeAll t xs) :=
  ⟨fun _ other => Function.update_of_ne other _ _, fun _ _ _ => Iff.rfl⟩

theorem Frames.write (x : ω) : d.Frames t (d.write t x) :=
  ⟨fun _ other => Function.update_of_ne other _ _, fun _ _ _ => Iff.rfl⟩

theorem Frames.rollback : d.Frames t (d.rollback t) := by
  refine ⟨fun x other => Function.update_of_ne other _ _, fun x other k => ?_⟩
  unfold Transactions.rollback
  dsimp only
  split_ifs with mine
  · simp [mine, other.symm]
  · rfl

theorem Frames.commit : d.Frames t (d.commit apply t) :=
  ⟨Frames.rollback.draft, Frames.rollback.holder⟩

end Transactions

end Interleaving
