import Mathlib.Data.List.Pairwise
import DeclutrMail.Collections.NetChange

/-!
# A copy that lags behind its source

A source keeps a finite set for each of its keys and records every change in a log. A copy is read
at other times than the log that is replayed over it, so it may be older than some records and newer
than others. It `LagsAt` a key as long as every difference from the source is announced by a pending
record: replaying a record discharges it, whatever the copy has seen before, and the source may move
on meanwhile. Without pending records the two agree (`LagsAt.eq_of_nil`).

A key is never created twice, so a record of a removal is final.
-/

namespace SetEdit

variable {α : Type*} [DecidableEq α]

def elements : SetEdit α → Finset α
  | .add xs | .remove xs => xs

def adds : SetEdit α → Bool
  | .add _ => true
  | .remove _ => false

theorem mem_apply {x : α} {s : Finset α} {e : SetEdit α} :
    x ∈ e.apply s ↔ if x ∈ e.elements then e.adds = true else x ∈ s := by
  cases e <;> grind [apply, elements, adds]

end SetEdit

namespace Replication

variable {K α : Type*}

inductive Record (K α : Type*) where
  | created (k : K) (content : Finset α)
  | removed (k : K)
  | edited (k : K) (e : SetEdit α)

abbrev Contents (K α : Type*) := K → Option (Finset α)

namespace Record

def key : Record K α → K
  | .created k _ | .removed k | .edited k _ => k

variable [DecidableEq K] [DecidableEq α]

def apply (now : Contents K α) : Record K α → Contents K α
  | .created k content => fun x => if x = k then some content else now x
  | .removed k => fun x => if x = k then none else now x
  | .edited k e => fun x => if x = k then (now k).map e.apply else now x

/-- A change that the source can make. -/
def Possible (log : List (Record K α)) (now : Contents K α) : Record K α → Prop
  | .created k _ => now k = none ∧ ∀ r ∈ log, r.key ≠ k
  | .removed k | .edited k _ => (now k).isSome = true

/-- What a record tells of an element of a key. -/
def tells (k : K) (x : α) (before : Option Bool) : Record K α → Option Bool
  | .created k' content => if k' = k then some (decide (x ∈ content)) else before
  | .removed _ => before
  | .edited k' e => if k' = k ∧ x ∈ e.elements then some e.adds else before

end Record

/-- Every difference between the copy and the source is announced. -/
def LagsAt (k : K) (pending : List (Record K α)) : Option (Finset α) → Option (Finset α) → Prop
  | some _, none => .removed k ∈ pending
  | none, some _ => ∃ content, .created k content ∈ pending
  | some s, some t => ∀ x, (x ∈ s ↔ x ∈ t) ∨ ∃ e, .edited k e ∈ pending ∧ x ∈ e.elements
  | none, none => True

variable {log pending rest : List (Record K α)} {now : Contents K α} {k k' : K} {x : α}
  {a b : Option (Finset α)} {r : Record K α}

namespace LagsAt

theorem refl (k : K) (pending : List (Record K α)) (a : Option (Finset α)) :
    LagsAt k pending a a := by
  cases a <;> simp [LagsAt]

theorem mono (h : LagsAt k pending a b) (sub : pending ⊆ rest) : LagsAt k rest a b := by
  cases a <;> cases b <;> grind [LagsAt]

theorem eq_of_nil (h : LagsAt k [] a b) : a = b := by
  cases a <;> cases b <;> simp_all [LagsAt, Finset.ext_iff]

/-- A key's creation is replayed: the copy has the key, or misses it for a later reason. -/
theorem drop_created {content : Finset α} (h : LagsAt k (.created k' content :: pending) a b)
    (known : k = k' → a = none → LagsAt k pending none b) : LagsAt k pending a b := by
  cases a <;> cases b <;> grind [LagsAt]

end LagsAt

variable [DecidableEq K] [DecidableEq α]

/-- The last word of a log on an element. -/
def verdict (log : List (Record K α)) (k : K) (x : α) : Option Bool := log.foldl (Record.tells k x) none

/-- The log accounts for the source: what it has decided is so. -/
structure History (log : List (Record K α)) (now : Contents K α) : Prop where
  once : log.Pairwise fun earlier later => ∀ content, later ≠ .created earlier.key content
  gone : ∀ k, .removed k ∈ log → now k = none
  settled : ∀ k s x b, now k = some s → verdict log k x = some b → (x ∈ s ↔ b = true)

theorem History.start (now : Contents K α) : History [] now :=
  ⟨.nil, by simp, by simp [verdict]⟩

theorem verdict_append (log rest : List (Record K α)) (k : K) (x : α) :
    verdict (log ++ rest) k x = rest.foldl (Record.tells k x) (verdict log k x) :=
  List.foldl_append

/-- Removed keys stay removed. -/
theorem History.snoc (h : History log now) (possible : r.Possible log now) :
    History (log ++ [r]) (r.apply now) where
  once := by
    refine List.pairwise_append.mpr ⟨h.once, List.pairwise_singleton _ _, ?_⟩
    intro earlier mem later last content same
    rw [List.mem_singleton] at last
    subst last same
    exact possible.2 earlier mem rfl
  gone k mem := by
    rcases List.mem_append.mp mem with old | new
    · have absent := h.gone k old
      cases r with
      | created k' content =>
        have other : k ≠ k' := possible.2 _ old
        simp [Record.apply, other, absent]
      | removed k' => grind [Record.apply]
      | edited k' e => grind [Record.apply]
    · simp [← List.mem_singleton.mp new, Record.apply]
  settled k s x b there said := by
    have before := h.settled k
    rw [verdict_append] at said
    cases r with
    | created k' content => grind [Record.apply, Record.tells]
    | removed k' => grind [Record.apply, Record.tells]
    | edited k' e =>
      by_cases same : k = k'
      · obtain ⟨t, here, rfl⟩ : ∃ t, now k = some t ∧ e.apply t = s := by
          simpa [Record.apply, same] using there
        have kept := before t x b here
        grind [Record.tells, SetEdit.mem_apply]
      · have kept := before s x b
        grind [Record.apply, Record.tells]

namespace LagsAt

/-- The source makes another change. -/
theorem grow (h : LagsAt k pending a (now k)) (sub : pending ⊆ log)
    (possible : r.Possible log now) : LagsAt k (pending ++ [r]) a (r.apply now k) := by
  by_cases same : r.key = k
  · subst same
    cases r with
    | created k' content =>
      -- what is announced as removed is not created again
      cases a <;> cases there : now k' <;> grind [LagsAt, Record.apply, Record.Possible, Record.key]
    | removed k' => cases a <;> grind [LagsAt, Record.apply, Record.key]
    | edited k' e =>
      cases a <;> cases there : now k' <;>
        grind [LagsAt, Record.apply, Record.key, Record.Possible, SetEdit.mem_apply]
  · have other : r.apply now k = now k := by cases r <;> grind [Record.apply, Record.key]
    rw [other]
    exact h.mono (List.subset_append_left _ _)

/-- A removal is replayed. -/
theorem drop_removed (history : History log now) (mem : .removed k' ∈ log)
    (h : LagsAt k (.removed k' :: pending) a (now k)) :
    LagsAt k pending (if k = k' then none else a) (now k) := by
  have gone := history.gone k' mem
  split_ifs with same
  · subst same
    simp [gone, LagsAt]
  · cases a <;> cases there : now k <;> grind [LagsAt]

theorem drop_removals (history : History log now) {keys : List K}
    (mem : ∀ k' ∈ keys, .removed k' ∈ log)
    (h : LagsAt k (keys.map .removed ++ pending) a (now k)) :
    LagsAt k pending (if k ∈ keys then none else a) (now k) := by
  induction keys generalizing a with
  | nil => simpa using h
  | cons k' keys ih =>
    have next := drop_removed history (mem k' List.mem_cons_self) h
    have rest := ih (fun x there => mem x (List.mem_cons_of_mem _ there)) next
    grind

end LagsAt

/-! ## Replaying edits -/

/-- The edits of one key. -/
def editsAt (k : K) (run : List (K × SetEdit α)) : List (SetEdit α) :=
  (run.filter fun e => e.1 = k).map Prod.snd

def records (run : List (K × SetEdit α)) : List (Record K α) := run.map fun e => .edited e.1 e.2

/-- The last word of some edits on an element. -/
def decision (x : α) (edits : List (SetEdit α)) : Option Bool :=
  edits.foldl (fun before e => if x ∈ e.elements then some e.adds else before) none

theorem decision_concat (x : α) (edits : List (SetEdit α)) (e : SetEdit α) :
    decision x (edits ++ [e]) = if x ∈ e.elements then some e.adds else decision x edits := by
  simp [decision]

/-- An element is in the edited set as the last edit that names it says. -/
theorem mem_foldl_apply {s : Finset α} {edits : List (SetEdit α)} :
    x ∈ edits.foldl SetEdit.apply s ↔ match decision x edits with
      | some b => b = true
      | none => x ∈ s := by
  induction edits using List.reverseRecOn with
  | nil => simp [decision]
  | append_singleton edits e ih =>
    rw [List.foldl_concat, SetEdit.mem_apply, decision_concat]
    split_ifs with named
    · simp
    · exact ih

theorem named_of_decision {edits : List (SetEdit α)} (decided : decision x edits ≠ none) :
    ∃ e ∈ edits, x ∈ e.elements := by
  induction edits using List.reverseRecOn with
  | nil => simp [decision] at decided
  | append_singleton edits e ih =>
    rw [decision_concat] at decided
    split_ifs at decided with named
    · exact ⟨e, by simp, named⟩
    · obtain ⟨e', mem, named⟩ := ih decided
      exact ⟨e', List.mem_append_left _ mem, named⟩

theorem decision_of_named {edits : List (SetEdit α)} {e : SetEdit α} (mem : e ∈ edits)
    (named : x ∈ e.elements) : decision x edits ≠ none := by
  induction edits using List.reverseRecOn with
  | nil => simp at mem
  | append_singleton edits e' ih =>
    rw [decision_concat]
    grind

omit [DecidableEq α] in
theorem mem_records {run : List (K × SetEdit α)} {e : SetEdit α} :
    .edited k e ∈ records run ↔ e ∈ editsAt k run := by
  simp [records, editsAt]

theorem verdict_records (log : List (Record K α)) (run : List (K × SetEdit α)) (k : K) (x : α) :
    verdict (log ++ records run) k x = (decision x (editsAt k run)).or (verdict log k x) := by
  induction run using List.reverseRecOn with
  | nil => simp [records, editsAt, decision]
  | append_singleton run e ih =>
    have split : records (run ++ [e]) = records run ++ [.edited e.1 e.2] := by simp [records]
    have edits : editsAt k (run ++ [e]) = editsAt k run ++ if e.1 = k then [e.2] else [] := by
      unfold editsAt
      split_ifs with here <;> simp [here]
    rw [split, ← List.append_assoc, verdict_append, List.foldl_cons, List.foldl_nil, ih, edits]
    split_ifs with here
    · rw [decision_concat]
      split_ifs with named <;> simp [Record.tells, here, named]
    · simp [Record.tells, here]

/-- Records that do not name an element leave the last word on it. -/
theorem verdict_of_unnamed (fresh : ∀ content, .created k content ∉ rest)
    (unnamed : ∀ e, .edited k e ∈ rest → x ∉ e.elements) :
    verdict (log ++ rest) k x = verdict log k x := by
  induction rest using List.reverseRecOn with
  | nil => simp
  | append_singleton rest r ih =>
    rw [← List.append_assoc, verdict_append, List.foldl_cons, List.foldl_nil,
      ih (by grind) (by grind)]
    cases r with
    | created k' content => grind [Record.tells]
    | removed k' => rfl
    | edited k' e => grind [Record.tells]

/-- A run of edits is replayed. -/
theorem LagsAt.drop_edits {run : List (K × SetEdit α)} (history : History (log ++ records run ++ rest) now)
    (h : LagsAt k (records run ++ rest) a (now k)) :
    LagsAt k rest (a.map fun s => (editsAt k run).foldl SetEdit.apply s) (now k) := by
  have only : ∀ r, r ∈ records run → ∃ k' e, r = .edited k' e := by
    intro r mem
    obtain ⟨e, -, rfl⟩ := List.mem_map.mp mem
    exact ⟨e.1, e.2, rfl⟩
  cases a with
  | none => cases there : now k <;> grind [LagsAt]
  | some s =>
    cases there : now k with
    | none => grind [LagsAt]
    | some t =>
      intro x
      rw [there] at h
      by_cases later : ∃ e, .edited k e ∈ rest ∧ x ∈ e.elements
      · exact .inr later
      have unnamed : ∀ e, .edited k e ∈ rest → x ∉ e.elements := by grind
      refine .inl ?_
      rw [mem_foldl_apply]
      cases decided : decision x (editsAt k run) with
      | none =>
        have before := h x
        have silent : ∀ e, .edited k e ∈ records run → x ∉ e.elements := fun e mem named =>
          decision_of_named (mem_records.mp mem) named decided
        grind
      | some b =>
        have spoken : decision x (editsAt k run) ≠ none := by simp [decided]
        obtain ⟨e, mem, -⟩ := named_of_decision spoken
        -- the key has been edited, so it is not created later
        have fresh : ∀ content, .created k content ∉ rest := by
          have apart := (List.pairwise_append.mp history.once).2.2
          intro content created
          exact apart (.edited k e) (List.mem_append_right _ (mem_records.mpr mem)) _ created
            content rfl
        have said : verdict (log ++ records run ++ rest) k x = some b := by
          rw [verdict_of_unnamed fresh unnamed, verdict_records, decided]
          rfl
        exact (history.settled k t x b there said).symm

end Replication
