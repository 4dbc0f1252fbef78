import Mathlib.Data.List.DropRight
import Mathlib.Data.List.Infix
import Mathlib.Data.Nat.Notation
import Mathlib.Algebra.GroupWithZero.Nat

/-!
# Strings as sequences of characters

The string operations that a JavaScript program and a database column apply: trimming,
the last occurrence of a character, a cut by UTF-16 units, a column of bounded length.
Lower casing is a parameter with its laws (`LowerCase`), as its tables are not written out.
-/

namespace DeclutrMail

abbrev Text := List Char

/-- Texts are compared character by character wherever one is looked for in a list. -/
instance : LawfulBEq Text := inferInstanceAs (LawfulBEq (List Char))

namespace Text

/-! ## Trimming -/

/-- White space and line terminators of ECMAScript. -/
def isSpace (c : Char) : Bool :=
  (9 ≤ c.toNat && c.toNat ≤ 13) || c.toNat = 0x20 || c.toNat = 0xA0 || c.toNat = 0x1680 ||
    (0x2000 ≤ c.toNat && c.toNat ≤ 0x200A) || c.toNat = 0x2028 || c.toNat = 0x2029 ||
    c.toNat = 0x202F || c.toNat = 0x205F || c.toNat = 0x3000 || c.toNat = 0xFEFF

/-- A text is checked character by character. -/
theorem forall_of_all {p : Char → Prop} [DecidablePred p] {s : Text}
    (h : (s.all fun c => decide (p c)) = true) : ∀ c ∈ s, p c := by simpa using h

def trim (s : Text) : Text := (s.dropWhile isSpace).rdropWhile isSpace

/-- Neither end is white space. -/
structure Trimmed (s : Text) : Prop where
  head : ∀ c ∈ s.head?, isSpace c = false
  last : ∀ c ∈ s.getLast?, isSpace c = false

theorem trim_eq_self {s : Text} (h : Trimmed s) : trim s = s := by
  have front : s.dropWhile isSpace = s := by
    cases s with
    | nil => rfl
    | cons c s => simp [h.head c rfl]
  rw [trim, front, List.rdropWhile_eq_self_iff]
  intro ne
  simp [h.last _ (List.getLast?_eq_some_getLast ne)]

theorem trimmed_trim (s : Text) : Trimmed (trim s) where
  head c hc := by
    obtain ⟨rest, split⟩ : trim s <+: s.dropWhile isSpace := List.rdropWhile_prefix _ _
    have head : (s.dropWhile isSpace).head? = some c := by
      rw [← split, List.head?_append, Option.mem_def.mp hc, Option.some_or]
    have := List.head?_dropWhile_not isSpace s
    rw [head] at this
    simpa using this
  last c hc := by
    have ne : trim s ≠ [] := by rintro empty; simp [empty] at hc
    have := List.rdropWhile_last_not isSpace (s.dropWhile isSpace) ne
    rw [Option.mem_def, List.getLast?_eq_some_getLast ne, Option.some.injEq] at hc
    rw [← hc]
    simpa [trim] using this

@[simp] theorem trim_trim (s : Text) : trim (trim s) = trim s := trim_eq_self (trimmed_trim s)

/-! ## The last occurrence of a character -/

/-- What stands before and after the last `c`. -/
def splitLast (c : Char) : Text → Option (Text × Text)
  | [] => none
  | x :: xs =>
    match splitLast c xs with
    | some (before, after) => some (x :: before, after)
    | none => if x = c then some ([], xs) else none

theorem splitLast_eq_none {c : Char} {s : Text} : splitLast c s = none ↔ c ∉ s := by
  induction s with
  | nil => simp [splitLast]
  | cons x xs ih =>
    cases found : splitLast c xs with
    | none => have := ih.mp found; grind [splitLast]
    | some pair =>
      have : c ∈ xs := by
        by_contra h
        simp [ih.mpr h] at found
      simp [splitLast, found, this]

@[simp] theorem splitLast_append {c : Char} {before after : Text} (last : c ∉ after) :
    splitLast c (before ++ c :: after) = some (before, after) := by
  induction before with
  | nil => simp [splitLast, splitLast_eq_none.mpr last]
  | cons x xs ih => simp [splitLast, ih]

theorem splitLast_eq_some {c : Char} {s before after : Text}
    (h : splitLast c s = some (before, after)) : s = before ++ c :: after ∧ c ∉ after := by
  induction s generalizing before with
  | nil => simp [splitLast] at h
  | cons x xs ih =>
    cases found : splitLast c xs with
    | none =>
      simp only [splitLast, found, Option.ite_none_right_eq_some, Option.some.injEq,
        Prod.mk.injEq] at h
      obtain ⟨rfl, rfl, rfl⟩ := h
      exact ⟨rfl, splitLast_eq_none.mp found⟩
    | some pair =>
      simp only [splitLast, found, Option.some.injEq, Prod.mk.injEq] at h
      obtain ⟨rfl, rfl⟩ := h
      obtain ⟨rfl, last⟩ := ih found
      exact ⟨rfl, last⟩

/-! ## UTF-16 units -/

/-- A character outside the basic plane is a surrogate pair. -/
def units (c : Char) : ℕ := if c.toNat < 0x10000 then 1 else 2

theorem units_pos (c : Char) : 0 < units c := by
  unfold units
  split <;> omega

/-- `s.length` in JavaScript. -/
def utf16Length (s : Text) : ℕ := (s.map units).sum

@[simp] theorem utf16Length_nil : utf16Length [] = 0 := rfl

@[simp] theorem utf16Length_cons (c : Char) (s : Text) :
    utf16Length (c :: s) = units c + utf16Length s := by
  simp [utf16Length]

theorem length_le_utf16Length (s : Text) : s.length ≤ utf16Length s := by
  induction s with
  | nil => simp
  | cons c s ih =>
    have := units_pos c
    simp only [List.length_cons, utf16Length_cons]
    omega

/-- What UTF-8 writes for half of a surrogate pair. -/
def replacement : Char := Char.ofNat 0xFFFD

/-- `s.slice(0, n)`, as it is encoded: a pair that the cut divides leaves a replacement
character. -/
def slice : ℕ → Text → Text
  | 0, _ => []
  | _ + 1, [] => []
  | n + 1, c :: s => if units c ≤ n + 1 then c :: slice (n + 1 - units c) s else [replacement]

theorem utf16Length_slice_le (n : ℕ) (s : Text) : utf16Length (slice n s) ≤ n := by
  induction s generalizing n with
  | nil => cases n <;> simp [slice]
  | cons c s ih =>
    cases n with
    | zero => simp [slice]
    | succ n =>
      unfold slice
      split
      · have := ih (n + 1 - units c)
        simp only [utf16Length_cons]
        omega
      · have one : units replacement = 1 := by decide
        simp [one]

theorem length_slice_le (n : ℕ) (s : Text) : (slice n s).length ≤ n :=
  (length_le_utf16Length _).trans (utf16Length_slice_le n s)

/-- A beginning that fills the units, or is all there is, is what the cut leaves. -/
theorem slice_append {n : ℕ} {s rest : Text} (short : utf16Length s ≤ n)
    (full : rest = [] ∨ utf16Length s = n) : slice n (s ++ rest) = s := by
  induction s generalizing n with
  | nil =>
    rcases full with rfl | full
    · cases n <;> rfl
    · obtain rfl : n = 0 := full.symm
      exact slice.eq_1 _
  | cons c s ih =>
    have pos := units_pos c
    rw [utf16Length_cons] at short full
    cases n with
    | zero => omega
    | succ n =>
      have rest : slice (n + 1 - units c) (s ++ rest) = s :=
        ih (by omega) (full.imp id fun full => by omega)
      rw [List.cons_append, slice, if_pos (by omega), rest]

/-- The cut by units is the cut by characters when these have no more units than it
keeps. -/
theorem slice_eq_take {n : ℕ} {s : Text} (h : utf16Length (s.take n) ≤ n) :
    slice n s = s.take n := by
  have full : s.drop n = [] ∨ utf16Length (s.take n) = n := by
    by_cases short : s.length ≤ n
    · exact .inl (List.drop_eq_nil_of_le short)
    · have := length_le_utf16Length (s.take n)
      rw [List.length_take] at this
      right
      omega
  simpa only [List.take_append_drop] using slice_append h full

/-! ## Columns of bounded length -/

/-- What `varchar(n)` stores: a longer value is refused unless all that is cut is blanks. -/
def fitVarchar (n : ℕ) (s : Text) : Option Text :=
  if (s.drop n).all (· = ' ') then some (s.take n) else none

theorem fitVarchar_of_length_le {n : ℕ} {s : Text} (h : s.length ≤ n) :
    fitVarchar n s = some s := by
  simp [fitVarchar, List.drop_eq_nil_of_le h, List.take_of_length_le h]

theorem fitVarchar_slice (n : ℕ) (s : Text) : fitVarchar n (slice n s) = some (slice n s) :=
  fitVarchar_of_length_le (length_slice_le n s)

/-- The value cut by units is what the column makes of the whole value. -/
theorem fitVarchar_eq_slice_iff {n : ℕ} {s : Text} :
    fitVarchar n s = some (slice n s) ↔
      utf16Length (s.take n) ≤ n ∧ ∀ c ∈ s.drop n, c = ' ' := by
  constructor
  · intro fits
    simp only [fitVarchar, Option.ite_none_right_eq_some, Option.some.injEq, List.all_eq_true,
      decide_eq_true_eq] at fits
    exact ⟨fits.2 ▸ utf16Length_slice_le n s, fits.1⟩
  · rintro ⟨short, blanks⟩
    rw [slice_eq_take short, fitVarchar, if_pos (by simpa using blanks)]

/-! ## Lower casing -/

/-- Unicode's default lower casing. Every character of its result is its own lower case,
and neither white space nor `@` is part of a word, so that it works on each side of them
by itself. -/
structure LowerCase where
  lower : Text → Text
  lower_of_isPrefix : ∀ s t, t <+: lower s → lower t = t
  trim_lower : ∀ s, trim (lower s) = lower (trim s)
  lower_append : ∀ s t, lower (s ++ '@' :: t) = lower s ++ '@' :: lower t
  at_of_mem_lower : ∀ s, '@' ∈ lower s → '@' ∈ s

namespace LowerCase

variable (L : LowerCase)

@[simp] theorem lower_lower (s : Text) : L.lower (L.lower s) = L.lower s :=
  L.lower_of_isPrefix s _ (List.prefix_refl _)

end LowerCase

/-- An upper case letter moves by 32, every other character is kept. -/
theorem toLower_cases (c : Char) :
    c.toLower = c ∧ ¬ (65 ≤ c.toNat ∧ c.toNat ≤ 90) ∨
      65 ≤ c.toNat ∧ c.toNat ≤ 90 ∧ c.toLower.toNat = c.toNat + 32 := by
  unfold Char.toLower
  split
  case isTrue upper =>
    have low : 65 ≤ c.toNat := upper.1
    have high : c.toNat ≤ 90 := upper.2
    refine .inr ⟨low, high, ?_⟩
    change (c.val + 32).toNat = c.val.toNat + 32
    have : c.val.toNat ≤ 90 := high
    rw [UInt32.toNat_add]
    change (c.val.toNat + 32) % 2 ^ 32 = c.val.toNat + 32
    omega
  case isFalse upper => exact .inl ⟨rfl, fun range => upper range⟩

theorem toLower_toLower (c : Char) : c.toLower.toLower = c.toLower := by
  rcases toLower_cases c with ⟨same, -⟩ | ⟨low, high, moved⟩
  · rw [same, same]
  · rcases toLower_cases c.toLower with ⟨same, -⟩ | ⟨-, high', -⟩
    · exact same
    · omega

theorem isSpace_toLower (c : Char) : isSpace c.toLower = isSpace c := by
  rcases toLower_cases c with ⟨same, -⟩ | ⟨low, high, moved⟩
  · rw [same]
  · simp only [isSpace, moved]
    grind

theorem toLower_eq_at {c : Char} (h : c.toLower = '@') : c = '@' := by
  rcases toLower_cases c with ⟨same, -⟩ | ⟨low, high, moved⟩
  · rwa [same] at h
  · have : '@'.toNat = 64 := rfl
    rw [h] at moved
    omega

/-- Lower casing of ASCII letters only. -/
def asciiLowerCase : LowerCase where
  lower s := s.map Char.toLower
  lower_of_isPrefix s t h := by
    have fixed : ∀ c ∈ t, c.toLower = c := by
      intro c mem
      obtain ⟨d, -, rfl⟩ := List.mem_map.mp (h.subset mem)
      exact toLower_toLower d
    exact (List.map_congr_left fixed).trans (List.map_id' t)
  trim_lower s := by
    have same : isSpace ∘ Char.toLower = isSpace := funext isSpace_toLower
    simp only [trim, List.rdropWhile, List.dropWhile_map, ← List.map_reverse, same]
  lower_append s t := by simp
  at_of_mem_lower s h := by
    obtain ⟨c, mem, eq⟩ := List.mem_map.mp h
    exact toLower_eq_at eq ▸ mem

end Text
end DeclutrMail
