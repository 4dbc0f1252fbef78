import DeclutrMail.Interleaving.Transactions

/-!
# Locks that are shared

A transaction may hold a lock for itself, or share it with others. What one of them holds is
shared by none of the others, so a row that is locked for share is written by nobody else.
-/

namespace Interleaving

/-- Transactions that may share a lock. -/
structure Sharing (τ σ ω κ : Type) extends Transactions τ σ ω κ where
  sharers : κ → List τ

namespace Sharing

variable {τ σ ω κ : Type}

/-- Take a lock, unless another thread holds or shares it. -/
def lock [DecidableEq τ] [DecidableEq κ] (d : Sharing τ σ ω κ) (t : τ) (k : κ) :
    Option (Sharing τ σ ω κ) :=
  if ∀ x ∈ d.sharers k, x = t then
    (d.acquire t k).map fun locked => { d with toTransactions := locked }
  else none

/-- Share a lock, unless another thread holds it. -/
def share [DecidableEq τ] [DecidableEq κ] (d : Sharing τ σ ω κ) (t : τ) (k : κ) :
    Option (Sharing τ σ ω κ) :=
  if d.holder k = none ∨ d.holder k = some t then
    some { d with sharers := Function.update d.sharers k (t :: d.sharers k) }
  else none

def draw [DecidableEq τ] (d : Sharing τ σ ω κ) (t : τ) (x : ω) : Sharing τ σ ω κ :=
  { d with toTransactions := d.write t x }

/-- End without the writes. -/
def abort [DecidableEq τ] (d : Sharing τ σ ω κ) (t : τ) : Sharing τ σ ω κ where
  toTransactions := d.rollback t
  sharers k := (d.sharers k).filter (· ≠ t)

/-- End with the writes. -/
def finish [DecidableEq τ] (apply : σ → ω → σ) (d : Sharing τ σ ω κ) (t : τ) : Sharing τ σ ω κ where
  toTransactions := d.commit apply t
  sharers k := (d.sharers k).filter (· ≠ t)

/-- The drafts and the locks of other threads are theirs. -/
structure Unmoved (t : τ) (d d' : Sharing τ σ ω κ) : Prop extends
    Transactions.Frames t d.toTransactions d'.toTransactions where
  sharers : ∀ x ≠ t, ∀ k, x ∈ d'.sharers k ↔ x ∈ d.sharers k

/-- What one thread holds, no other shares. -/
def Apart (d : Sharing τ σ ω κ) : Prop := ∀ k x, d.holder k = some x → ∀ y ∈ d.sharers k, y = x

variable {d d' : Sharing τ σ ω κ} {t : τ} {k : κ} {apply : σ → ω → σ}

theorem Unmoved.refl : d.Unmoved t d := ⟨.refl, fun _ _ _ => Iff.rfl⟩

variable [DecidableEq τ]

theorem draw_unmoved (x : ω) : d.Unmoved t (d.draw t x) := ⟨.write x, fun _ _ _ => Iff.rfl⟩

theorem mem_sharers_end {x : τ} : x ∈ (d.sharers k).filter (· ≠ t) ↔ x ∈ d.sharers k ∧ x ≠ t := by
  simp

theorem abort_unmoved : d.Unmoved t (d.abort t) :=
  ⟨.rollback, fun x other k => by simp [abort, other]⟩

theorem finish_unmoved : d.Unmoved t (d.finish apply t) :=
  ⟨.commit, fun x other k => by simp [finish, other]⟩

namespace Apart

theorem ended (apart : d.Apart) {e : Transactions τ σ ω κ}
    (frames : d.toTransactions.Frames t e) (free : ∀ k, e.holder k ≠ some t) :
    Apart { toTransactions := e, sharers := fun k => (d.sharers k).filter (· ≠ t) } := by
  intro k x held y shared
  obtain ⟨shared, -⟩ := mem_sharers_end.mp shared
  have other : x ≠ t := by
    rintro rfl
    exact free k held
  exact apart k x ((frames.holder x other k).mp held) y shared

theorem abort (apart : d.Apart) : (d.abort t).Apart :=
  apart.ended .rollback Transactions.holder_rollback

theorem finish (apart : d.Apart) : (d.finish apply t).Apart :=
  apart.ended .commit Transactions.holder_commit

end Apart

variable [DecidableEq κ]

theorem lock_eq_some (h : d.lock t k = some d') :
    (∀ x ∈ d.sharers k, x = t) ∧ d'.sharers = d.sharers ∧
      d.acquire t k = some d'.toTransactions := by
  unfold lock at h
  split_ifs at h with alone
  obtain ⟨locked, taken, rfl⟩ := Option.map_eq_some_iff.mp h
  exact ⟨alone, rfl, taken⟩

theorem share_eq_some (h : d.share t k = some d') :
    (d.holder k = none ∨ d.holder k = some t) ∧ d'.toTransactions = d.toTransactions ∧
      d'.sharers = Function.update d.sharers k (t :: d.sharers k) := by
  unfold share at h
  split_ifs at h with free
  obtain rfl := Option.some.inj h
  exact ⟨free, rfl, rfl⟩

/-- What a lock changes. -/
theorem lock_unmoved (h : d.lock t k = some d') : d'.store = d.store ∧ d'.draft = d.draft ∧
    d'.holder k = some t ∧ d.Unmoved t d' := by
  obtain ⟨-, sharers, taken⟩ := lock_eq_some h
  obtain ⟨store, draft, mine, frames⟩ := Transactions.acquire_eq_some taken
  exact ⟨store, draft, mine, frames, fun x _ k => by rw [sharers]⟩

theorem share_unmoved (h : d.share t k = some d') : t ∈ d'.sharers k ∧ d.Unmoved t d' := by
  obtain ⟨-, same, sharers⟩ := share_eq_some h
  refine ⟨by simp [sharers], by rw [same]; exact .refl, fun x other k' => ?_⟩
  rw [sharers]
  by_cases here : k' = k
  · subst here
    simp [other]
  · rw [Function.update_of_ne here]

namespace Apart

theorem lock (apart : d.Apart) (h : d.lock t k = some d') : d'.Apart := by
  obtain ⟨alone, sharers, taken⟩ := lock_eq_some h
  obtain ⟨-, -, mine, frames⟩ := Transactions.acquire_eq_some taken
  intro k' x held y shared
  rw [sharers] at shared
  by_cases new : x = t
  · subst new
    by_cases here : k' = k
    · subst here
      exact alone y shared
    · unfold Transactions.acquire at taken
      split_ifs at taken
      obtain same := Option.some.inj taken
      rw [← same] at held
      exact apart k' x (by simpa [here] using held) y shared
  · exact apart k' x ((frames.holder x new k').mp held) y shared

theorem share (apart : d.Apart) (h : d.share t k = some d') : d'.Apart := by
  obtain ⟨free, same, sharers⟩ := share_eq_some h
  intro k' x held y shared
  rw [same] at held
  rw [sharers] at shared
  by_cases here : k' = k
  · subst here
    rw [Function.update_self] at shared
    rcases List.mem_cons.mp shared with rfl | old
    · rcases free with free | free
      · rw [held] at free
        cases free
      · exact Option.some.inj (free.symm.trans held)
    · exact apart k' x held y old
  · rw [Function.update_of_ne here] at shared
    exact apart k' x held y shared

end Apart

end Sharing

end Interleaving
