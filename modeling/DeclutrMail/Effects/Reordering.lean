import Mathlib.Data.List.Basic
import Mathlib.Data.List.Pairwise

/-!
# Effects that come in another order

A history of effects may be applied in another order, and an effect more than once, so long as
effects that do not commute come in the order of the history. States are compared up to a
relation that the effects respect, so that what nobody observes may differ.

## Main results

* `Reordering.foldl_gather` — the effects that satisfy a predicate can be made first.
* `Reordering.foldl_rel` — both orders lead to related states.
-/

namespace Effects

variable {α σ : Type}

/-- Independent effects commute, and the second of two independent ones of one rank is enough. -/
structure Reordering (act : σ → α → σ) (R : σ → σ → Prop) (rank : α → ℕ)
    (Independent : α → α → Prop) : Prop where
  refl : ∀ s, R s s
  trans : ∀ {s s' s''}, R s s' → R s' s'' → R s s''
  congr : ∀ {s s'} a, R s s' → R (act s a) (act s' a)
  commute : ∀ {a b} s, Independent a b → R (act (act s a) b) (act (act s b) a)
  absorb : ∀ {a b} s, rank a = rank b → Independent a b → R (act (act s a) b) (act s b)

namespace Reordering

variable {act : σ → α → σ} {R : σ → σ → Prop} {rank : α → ℕ} {Independent : α → α → Prop}
  {a x : α} {l m : List α} {s s' : σ}

theorem foldl_congr (h : Reordering act R rank Independent) (l : List α) (related : R s s') :
    R (l.foldl act s) (l.foldl act s') := by
  induction l generalizing s s' with
  | nil => exact related
  | cons a l ih => exact ih (h.congr a related)

/-- An effect that is independent of those that follow may come last. -/
theorem foldl_push (h : Reordering act R rank Independent) (free : ∀ b ∈ m, Independent a b)
    (s : σ) : R (m.foldl act (act s a)) (act (m.foldl act s) a) := by
  induction m generalizing s with
  | nil => exact h.refl _
  | cons b m ih =>
    have swapped := h.foldl_congr m (h.commute s (free b List.mem_cons_self))
    exact h.trans swapped (ih (fun c mem => free c (List.mem_cons_of_mem _ mem)) (act s b))

theorem foldl_gather (h : Reordering act R rank Independent) (p : α → Bool)
    (order : l.Pairwise fun a b => p b = true → p a = false → Independent a b) (s : σ) :
    R (l.foldl act s) ((l.filter fun a => !p a).foldl act ((l.filter p).foldl act s)) := by
  induction l generalizing s with
  | nil => exact h.refl _
  | cons a l ih =>
    obtain ⟨first, rest⟩ := List.pairwise_cons.mp order
    have tail := ih rest (act s a)
    by_cases hit : p a = true
    · simpa [hit] using tail
    · replace hit : p a = false := by simpa using hit
      have free : ∀ b ∈ l.filter p, Independent a b := fun b mem =>
        first b (List.mem_of_mem_filter mem) (List.of_mem_filter mem) hit
      have pushed := h.foldl_congr (l.filter fun a => !p a) (h.foldl_push free s)
      simpa [hit] using h.trans tail pushed

/-- Effects of one rank that are independent are like one of them. -/
theorem foldl_collapse (h : Reordering act R rank Independent) (some_ : m ≠ [])
    (order : m.Pairwise fun a b => rank a = rank b ∧ Independent a b)
    (alike : ∀ a ∈ m, ∀ s, R (act s a) (act s x)) (s : σ) : R (m.foldl act s) (act s x) := by
  induction m with
  | nil => exact absurd rfl some_
  | cons a m ih =>
    cases m with
    | nil => exact alike a List.mem_cons_self s
    | cons b m =>
      obtain ⟨first, rest⟩ := List.pairwise_cons.mp order
      obtain ⟨same, free⟩ := first b List.mem_cons_self
      have absorbed := h.foldl_congr m (h.absorb s same free)
      exact h.trans absorbed (ih (List.cons_ne_nil _ _) rest fun c mem =>
        alike c (List.mem_cons_of_mem _ mem))

/-- `l` is the history, by rank, and `m` what was applied. -/
theorem foldl_rel (h : Reordering act R rank Independent)
    (sorted : l.Pairwise fun x y => rank x < rank y)
    (order : m.Pairwise fun a b => rank a < rank b ∨ Independent a b)
    (all : ∀ x ∈ l, ∃ a ∈ m, rank a = rank x)
    (of : ∀ a ∈ m, ∃ x ∈ l, rank a = rank x ∧ ∀ s, R (act s a) (act s x)) (s : σ) :
    R (m.foldl act s) (l.foldl act s) := by
  induction l generalizing m s with
  | nil =>
    cases m with
    | nil => exact h.refl s
    | cons a m => cases (of a List.mem_cons_self).choose_spec.1
  | cons x l ih =>
    obtain ⟨later, sorted⟩ := List.pairwise_cons.mp sorted
    let p : α → Bool := fun a => rank a = rank x
    -- What is not of the rank of `x` is of a later one.
    have behind : ∀ a ∈ m, p a = false → rank x < rank a ∧
        ∃ y ∈ l, rank a = rank y ∧ ∀ s, R (act s a) (act s y) := by
      intro a mem other
      obtain ⟨y, memy, same, alike⟩ := of a mem
      rcases List.mem_cons.mp memy with rfl | memy
      · simp [p, same] at other
      · exact ⟨same ▸ later y memy, y, memy, same, alike⟩
    have gathered := h.foldl_gather (l := m) p (order.imp_of_mem fun {a b} ha _ ordered hb hna => by
      have apart := (behind a ha hna).1
      have of_x : rank b = rank x := of_decide_eq_true hb
      exact ordered.resolve_left (by omega)) s
    refine h.trans gathered ?_
    have once : R ((m.filter p).foldl act s) (act s x) := by
      refine h.foldl_collapse ?_ ?_ ?_ s
      · obtain ⟨a, mem, same⟩ := all x List.mem_cons_self
        exact List.ne_nil_of_mem (List.mem_filter.mpr ⟨mem, decide_eq_true same⟩)
      · refine (order.filter p).imp_of_mem fun {a b} ha hb ordered => ?_
        have of_a : rank a = rank x := of_decide_eq_true (List.mem_filter.mp ha).2
        have of_b : rank b = rank x := of_decide_eq_true (List.mem_filter.mp hb).2
        exact ⟨of_a.trans of_b.symm, ordered.resolve_left (by omega)⟩
      · intro a ha
        obtain ⟨mem, hit⟩ := List.mem_filter.mp ha
        obtain ⟨y, memy, same, alike⟩ := of a mem
        rcases List.mem_cons.mp memy with rfl | memy
        · exact alike
        · have apart := later y memy
          have of_x : rank a = rank x := of_decide_eq_true hit
          omega
    refine h.trans (h.foldl_congr _ once) (ih sorted (order.filter _) ?_ ?_ (act s x))
    · intro y memy
      obtain ⟨a, mem, same⟩ := all y (List.mem_cons_of_mem _ memy)
      have apart := later y memy
      refine ⟨a, List.mem_filter.mpr ⟨mem, ?_⟩, same⟩
      simp only [p, Bool.not_eq_eq_eq_not, Bool.not_true, decide_eq_false_iff_not]
      omega
    · intro a ha
      obtain ⟨mem, other⟩ := List.mem_filter.mp ha
      exact (behind a mem (by simpa using other)).2

end Reordering

end Effects
