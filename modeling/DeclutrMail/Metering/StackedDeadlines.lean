import Mathlib.Algebra.Order.Group.MinMax
import Mathlib.Data.List.Count

/-!
# Stacked deadlines

Purchases of one `span` of time each, where a purchase is added on top of what is left.
As long as every deadline rests on now or on an earlier deadline (`Stacked`), the time that is
left is at most one span for each deadline (`Stacked.remaining_le`).
-/

namespace StackedDeadlines

variable {K : Type*} [AddCommGroup K] [LinearOrder K]

/-- Each deadline is within a span of now, or of an earlier one. -/
def Stacked (span now : K) (deadlines : List K) : Prop :=
  ∀ e ∈ deadlines, e ≤ now + span ∨ ∃ e' ∈ deadlines, e' < e ∧ e ≤ e' + span

/-- The time left until the last deadline. -/
def remaining (deadlines : List K) (now : K) : K :=
  deadlines.foldr (fun e left => max (e - now) left) 0

/-- One predicate counts more than another if it also holds of a further element. -/
theorem countP_lt_countP {α : Type*} {p q : α → Bool} {xs : List α} {x : α}
    (le : ∀ x, p x = true → q x = true) (mem : x ∈ xs) (more : q x = true) (less : ¬ p x = true) :
    xs.countP p < xs.countP q := by
  obtain ⟨front, back, rfl⟩ := List.append_of_mem mem
  have before : front.countP p ≤ front.countP q := List.countP_mono_left fun y _ => le y
  have after : back.countP p ≤ back.countP q := List.countP_mono_left fun y _ => le y
  rw [List.countP_append, List.countP_append, List.countP_cons_of_neg less,
    List.countP_cons_of_pos more]
  omega

variable {span now now' e : K} {deadlines deadlines' : List K}

theorem Stacked.nil : Stacked span now [] := fun _ mem => absurd mem List.not_mem_nil

/-- A new deadline that rests on now or on one of the deadlines. -/
theorem Stacked.concat (h : Stacked span now deadlines)
    (rests : e ≤ now + span ∨ ∃ e' ∈ deadlines, e' < e ∧ e ≤ e' + span) :
    Stacked span now (deadlines ++ [e]) := by
  intro x mem
  have within : x ≤ now + span ∨ ∃ e' ∈ deadlines, e' < x ∧ x ≤ e' + span := by
    rcases List.mem_append.mp mem with mem | mem
    · exact h x mem
    · rw [List.mem_singleton.mp mem]
      exact rests
  exact within.imp_right fun ⟨e', mem', below⟩ => ⟨e', List.mem_append_left _ mem', below⟩

theorem remaining_le {bound : K} (nonneg : 0 ≤ bound)
    (within : ∀ e ∈ deadlines, e - now ≤ bound) : remaining deadlines now ≤ bound := by
  induction deadlines with
  | nil => exact nonneg
  | cons e deadlines ih =>
    exact max_le (within e List.mem_cons_self)
      (ih fun e' mem => within e' (List.mem_cons_of_mem _ mem))

variable [IsOrderedAddMonoid K]

theorem Stacked.later (h : Stacked span now deadlines) (le : now ≤ now') :
    Stacked span now' deadlines := fun e mem =>
  (h e mem).imp_left fun within => within.trans (add_le_add_left le span)

/-- Deadlines may go if they have passed, or if none that is kept comes after them. -/
theorem Stacked.drop (h : Stacked span now deadlines) (sub : deadlines' ⊆ deadlines)
    (gone : ∀ e ∈ deadlines, e ∈ deadlines' ∨ e ≤ now ∨ ∀ e' ∈ deadlines', e' ≤ e) :
    Stacked span now deadlines' := by
  intro e mem
  rcases h e (sub mem) with within | ⟨e', mem', below, within⟩
  · exact .inl within
  · rcases gone e' mem' with kept | passed | last
    · exact .inr ⟨e', kept, below, within⟩
    · exact .inl (within.trans (add_le_add_left passed span))
    · exact absurd (last e mem) (not_le.mpr below)

/-- A deadline is at most one span away for each deadline up to it. -/
theorem Stacked.le_count (h : Stacked span now deadlines) (nonneg : 0 ≤ span)
    (mem : e ∈ deadlines) : e ≤ now + deadlines.countP (· ≤ e) • span := by
  obtain ⟨n, counted⟩ : ∃ n, deadlines.countP (· ≤ e) = n := ⟨_, rfl⟩
  induction n using Nat.strong_induction_on generalizing e with
  | _ n ih =>
    have self : 0 < deadlines.countP (· ≤ e) := List.countP_pos_iff.mpr ⟨e, mem, by simp⟩
    rcases h e mem with within | ⟨e', mem', below, within⟩
    · calc e ≤ now + span := within
        _ = now + 1 • span := by rw [one_nsmul]
        _ ≤ now + deadlines.countP (· ≤ e) • span :=
          add_le_add_right (nsmul_le_nsmul_left nonneg self) now
    · -- the deadline it rests on counts fewer, as it does not count `e`
      have fewer : deadlines.countP (· ≤ e') < deadlines.countP (· ≤ e) :=
        countP_lt_countP (fun x le => by simpa using (of_decide_eq_true le).trans below.le)
          mem (by simp) (by simpa using below)
      calc e ≤ e' + span := within
        _ ≤ now + deadlines.countP (· ≤ e') • span + span :=
          add_le_add_left (ih _ (counted ▸ fewer) mem' rfl) span
        _ = now + (deadlines.countP (· ≤ e') + 1) • span := by rw [succ_nsmul, add_assoc]
        _ ≤ now + deadlines.countP (· ≤ e) • span :=
          add_le_add_right (nsmul_le_nsmul_left nonneg fewer) now

/-- The time left is at most one span for each deadline. -/
theorem Stacked.remaining_le (h : Stacked span now deadlines) (nonneg : 0 ≤ span) :
    remaining deadlines now ≤ deadlines.length • span := by
  refine StackedDeadlines.remaining_le (nsmul_nonneg nonneg _) fun e mem => ?_
  rw [sub_le_iff_le_add']
  exact (h.le_count nonneg mem).trans
    (add_le_add_right (nsmul_le_nsmul_left nonneg List.countP_le_length) now)

end StackedDeadlines
