import Mathlib.Data.List.Forall2
import Mathlib.Data.Nat.Notation
import Mathlib.Tactic.IntervalCases
import Mathlib.Tactic.SplitIfs

/-!
# Texts of IP addresses

The texts that `isIP` of `node:net` accepts, and what they denote: four decimal octets, or eight
hexadecimal groups of which one run of zeros may be left out as `::` and the last two may be
written as an IPv4 address, with a zone behind.
-/

namespace DeclutrMail.Ip

inductive Address
  | v4 (a b c d : ℕ)
  | v6 (groups : List ℕ)
  deriving DecidableEq

/-! ## IPv4 -/

def decimal (cs : List Char) : ℕ := cs.foldl (fun n c => 10 * n + (c.toNat - 48)) 0

/-- Decimal digits without a leading zero. -/
def octet? (cs : List Char) : Option ℕ :=
  if cs ≠ [] ∧ cs.all Char.isDigit ∧ (cs.head? ≠ some '0' ∨ cs.length = 1) ∧ decimal cs ≤ 255 then
    some (decimal cs)
  else none

def octets? (cs : List Char) : Option (ℕ × ℕ × ℕ × ℕ) :=
  match (cs.splitOn '.').mapM octet? with
  | some [a, b, c, d] => some (a, b, c, d)
  | _ => none

/-! ## IPv6 -/

def hexDigit? (c : Char) : Option ℕ :=
  if '0' ≤ c ∧ c ≤ '9' then some (c.toNat - 48)
  else if 'a' ≤ c ∧ c ≤ 'f' then some (c.toNat - 87)
  else if 'A' ≤ c ∧ c ≤ 'F' then some (c.toNat - 55)
  else none

def hexGroup? (cs : List Char) : Option ℕ :=
  if cs = [] ∨ 4 < cs.length then none
  else (cs.mapM hexDigit?).map fun ds => ds.foldl (fun n d => 16 * n + d) 0

/-- Only the last piece may be an IPv4 address. -/
def pieces? (v4 : Bool) : List (List Char) → Option (List ℕ)
  | [] => some []
  | [cs] =>
    match hexGroup? cs with
    | some g => some [g]
    | none => if v4 then (octets? cs).map fun (a, b, c, d) => [256 * a + b, 256 * c + d] else none
  | cs :: rest => do
    let g ← hexGroup? cs
    let gs ← pieces? v4 rest
    return g :: gs

def side? (v4 : Bool) (cs : List Char) : Option (List ℕ) :=
  if cs = [] then some [] else pieces? v4 (cs.splitOn ':')

/-- What stands before and after the first `::`. -/
def cutDouble : List Char → Option (List Char × List Char)
  | [] => none
  | c :: cs =>
    if c = ':' ∧ cs.head? = some ':' then some ([], cs.tail)
    else (cutDouble cs).map fun (l, r) => (c :: l, r)

/-- The groups between the two sides of a `::`, which stands for one at least. -/
def filled (l r : List ℕ) : Option (List ℕ) :=
  if l.length + r.length ≤ 7 then some (l ++ List.replicate (8 - (l.length + r.length)) 0 ++ r)
  else none

def body? (cs : List Char) : Option (List ℕ) :=
  match cutDouble cs with
  | none => (side? true cs).filter (·.length = 8)
  | some (l, r) => do
    let left ← side? false l
    let right ← side? true r
    filled left right

def zoneChar (c : Char) : Bool := c.isAlphanum || c = '-' || c = '.' || c = ':'

/-- A zone begins with a percent sign, and is not empty. -/
def zoned (cs : List Char) : Bool :=
  match cs with
  | [] => true
  | _ :: zone => !zone.isEmpty && zone.all zoneChar

def groups? (cs : List Char) : Option (List ℕ) :=
  if zoned (cs.dropWhile (· ≠ '%')) then body? (cs.takeWhile (· ≠ '%')) else none

/-! ## Both -/

/-- What a text denotes. -/
def denote (cs : List Char) : Option Address :=
  match octets? cs with
  | some (a, b, c, d) => some (.v4 a b c d)
  | none => (groups? cs).map .v6

/-- `isIP` of `node:net` -/
def isIP (cs : List Char) : ℕ :=
  match denote cs with
  | some (.v4 ..) => 4
  | some (.v6 _) => 6
  | none => 0

example : denote "::ffff:7f00:1".toList = some (.v6 [0, 0, 0, 0, 0, 0xffff, 0x7f00, 1]) := by decide
example : isIP "1:2:3:4:5:6:7::".toList = 6 ∧ isIP "010.0.0.1".toList = 0 ∧ isIP ":::".toList = 0 ∧
  isIP "::ffff:10.0.0.1%eth0".toList = 6 := by decide

/-! ## Characters -/

/-- The lower-case digit of `n`. -/
def hexChar (n : ℕ) : Char := "0123456789abcdef".toList.getD n '0'

theorem char_eq_ofNat {c : Char} {n : ℕ} (h : c.toNat = n) : c = Char.ofNat n := by
  rw [← h, Char.ofNat_toNat]

theorem hexChar_inj {m n : ℕ} (hm : m < 16) (hn : n < 16) : hexChar m = hexChar n ↔ m = n := by
  refine ⟨fun same => ?_, fun same => same ▸ rfl⟩
  revert same
  interval_cases m <;> interval_cases n <;> decide

/-- Lower casing gives a letter where it changes a character. -/
theorem toLower_cases (c : Char) : c.toLower = c ∨ 97 ≤ c.toLower.toNat := by
  by_cases upper : 65 ≤ c.toNat ∧ c.toNat ≤ 90
  · obtain ⟨low, high⟩ := upper
    refine .inr ?_
    generalize same : c.toNat = k at *
    obtain rfl := char_eq_ofNat same
    clear same
    interval_cases k <;> decide
  · refine .inl ?_
    unfold Char.toLower
    exact dif_neg upper

theorem toLower_hexDigit {c : Char} {n : ℕ} (h : hexDigit? c = some n) :
    n < 16 ∧ c.toLower = hexChar n := by
  unfold hexDigit? at h
  have le_iff (a b : Char) : a ≤ b ↔ a.toNat ≤ b.toNat := Iff.rfl
  simp only [le_iff] at h
  split_ifs at h with digit lower upper
  · obtain rfl := Option.some.inj h
    obtain ⟨low, high⟩ := digit
    have low : 48 ≤ c.toNat := low
    have high : c.toNat ≤ 57 := high
    generalize same : c.toNat = k at *
    obtain rfl := char_eq_ofNat same
    interval_cases k <;> decide
  · obtain rfl := Option.some.inj h
    obtain ⟨low, high⟩ := lower
    have low : 97 ≤ c.toNat := low
    have high : c.toNat ≤ 102 := high
    generalize same : c.toNat = k at *
    obtain rfl := char_eq_ofNat same
    interval_cases k <;> decide
  · obtain rfl := Option.some.inj h
    obtain ⟨low, high⟩ := upper
    have low : 65 ≤ c.toNat := low
    have high : c.toNat ≤ 70 := high
    generalize same : c.toNat = k at *
    obtain rfl := char_eq_ofNat same
    interval_cases k <;> decide

theorem hexDigit_ne {c : Char} {n : ℕ} (h : hexDigit? c = some n) : c ≠ ':' ∧ c ≠ '%' := by
  constructor <;> rintro rfl <;> cases h

/-! ## Pieces -/

theorem forall₂_of_mapM {α β : Type} {f : α → Option β} {xs : List α} {ys : List β}
    (h : xs.mapM f = some ys) : List.Forall₂ (fun x y => f x = some y) xs ys := by
  induction xs generalizing ys with
  | nil =>
    obtain rfl := Option.some.inj h
    exact .nil
  | cons x xs ih =>
    simp only [List.mapM_cons, Option.bind_eq_bind, Option.bind_eq_some_iff] at h
    obtain ⟨y, first, zs, rest, same⟩ := h
    obtain rfl := Option.some.inj same
    exact .cons first (ih rest)

section Pieces

variable {cs p : List Char} {ps : List (List Char)} {gs : List ℕ} {g : ℕ} {v4 : Bool}

/-- The digits of a group, of which there are one to four. -/
theorem hexGroup_digits (h : hexGroup? p = some g) : ∃ ds : List ℕ, p.map Char.toLower = ds.map hexChar ∧
    (∀ d ∈ ds, d < 16) ∧ 1 ≤ ds.length ∧ ds.length ≤ 4 ∧
      g = ds.foldl (fun n d => 16 * n + d) 0 := by
  unfold hexGroup? at h
  split_ifs at h with bad
  obtain ⟨ds, digits, rfl⟩ := Option.map_eq_some_iff.mp h
  have each := forall₂_of_mapM digits
  have length := each.length_eq
  obtain ⟨filled, short⟩ := not_or.mp bad
  have long := List.length_pos_iff.mpr filled
  refine ⟨ds, ?_, ?_, by omega, by omega, rfl⟩
  · clear h bad filled short long length digits
    induction each with
    | nil => rfl
    | cons first _ ih => rw [List.map_cons, List.map_cons, ih, (toLower_hexDigit first).2]
  · clear h bad filled short long length digits
    induction each with
    | nil => simp
    | cons first _ ih => exact List.forall_mem_cons.mpr ⟨(toLower_hexDigit first).1, ih⟩

theorem hexGroup_chars (h : hexGroup? p = some g) : ':' ∉ p ∧ '%' ∉ p := by
  unfold hexGroup? at h
  split_ifs at h with bad
  obtain ⟨ds, digits, -⟩ := Option.map_eq_some_iff.mp h
  have each := forall₂_of_mapM digits
  clear h digits bad
  induction each with
  | nil => simp
  | cons first _ ih =>
    have ne := hexDigit_ne first
    simp [ih, Ne.symm ne.1, Ne.symm ne.2]

/-- The octets of a text, one for each of its pieces. -/
theorem octets_pieces {a b c d : ℕ} (h : octets? cs = some (a, b, c, d)) : ∃ p q r s,
    cs.splitOn '.' = [p, q, r, s] ∧ octet? p = some a ∧ octet? q = some b ∧ octet? r = some c ∧
      octet? s = some d := by
  unfold octets? at h
  split at h
  · next a' b' c' d' digits =>
    obtain ⟨rfl, rfl, rfl, rfl⟩ : a' = a ∧ b' = b ∧ c' = c ∧ d' = d := by simpa using h
    have each := forall₂_of_mapM digits
    generalize cs.splitOn '.' = ps at each
    rcases each with _ | ⟨first, _ | ⟨second, _ | ⟨third, _ | ⟨fourth, rest⟩⟩⟩⟩
    cases rest
    exact ⟨_, _, _, _, rfl, first, second, third, fourth⟩
  · cases h

theorem octet_digits {n : ℕ} (h : octet? p = some n) :
    p ≠ [] ∧ (∀ c ∈ p, c.isDigit = true) ∧ n = decimal p ∧ n ≤ 255 := by
  unfold octet? at h
  split_ifs at h with fits
  obtain rfl := Option.some.inj h
  exact ⟨fits.1, List.all_eq_true.mp fits.2.1, rfl, fits.2.2.2⟩

theorem octets_whole {a b c d : ℕ} (h : octets? cs = some (a, b, c, d)) : ∃ p q r s,
    cs = p ++ '.' :: (q ++ '.' :: (r ++ '.' :: s)) ∧ octet? p = some a ∧ octet? q = some b ∧
      octet? r = some c ∧ octet? s = some d := by
  obtain ⟨p, q, r, s, pieces, octets⟩ := octets_pieces h
  refine ⟨p, q, r, s, ?_, octets⟩
  have joined : ['.'].intercalate (cs.splitOn '.') = cs := List.intercalate_splitOn '.'
  rw [← joined, pieces]
  simp [List.intercalate, List.intersperse]

theorem octets_long {a b c d : ℕ} (h : octets? cs = some (a, b, c, d)) : 7 ≤ cs.length := by
  obtain ⟨p, q, r, s, rfl, hp, hq, hr, hs⟩ := octets_whole h
  have := List.length_pos_iff.mpr (octet_digits hp).1
  have := List.length_pos_iff.mpr (octet_digits hq).1
  have := List.length_pos_iff.mpr (octet_digits hr).1
  have := List.length_pos_iff.mpr (octet_digits hs).1
  simp only [List.length_append, List.length_cons]
  omega

/-- An IPv4 address has digits and dots only, and begins with a digit. -/
theorem octets_chars {a b c d : ℕ} (h : octets? cs = some (a, b, c, d)) :
    (∀ x ∈ cs, x.isDigit = true ∨ x = '.') ∧ ∃ x rest, cs = x :: rest ∧ x.isDigit = true := by
  obtain ⟨p, q, r, s, whole, hp, hq, hr, hs⟩ := octets_whole h
  constructor
  · intro x mem
    rw [whole] at mem
    simp only [List.mem_append, List.mem_cons] at mem
    rcases mem with mem | rfl | mem | rfl | mem | rfl | mem
    · exact .inl ((octet_digits hp).2.1 x mem)
    · exact .inr rfl
    · exact .inl ((octet_digits hq).2.1 x mem)
    · exact .inr rfl
    · exact .inl ((octet_digits hr).2.1 x mem)
    · exact .inr rfl
    · exact .inl ((octet_digits hs).2.1 x mem)
  · obtain ⟨filled, digits, -⟩ := octet_digits hp
    obtain ⟨x, p', rfl⟩ := List.exists_cons_of_ne_nil filled
    exact ⟨x, _, whole, digits x List.mem_cons_self⟩

theorem octets_le {a b c d : ℕ} (h : octets? cs = some (a, b, c, d)) :
    a ≤ 255 ∧ b ≤ 255 ∧ c ≤ 255 ∧ d ≤ 255 := by
  obtain ⟨p, q, r, s, -, hp, hq, hr, hs⟩ := octets_pieces h
  exact ⟨(octet_digits hp).2.2.2, (octet_digits hq).2.2.2, (octet_digits hr).2.2.2,
    (octet_digits hs).2.2.2⟩

theorem octets_ne {a b c d : ℕ} (h : octets? cs = some (a, b, c, d)) : ':' ∉ cs ∧ '%' ∉ cs := by
  obtain ⟨chars, -⟩ := octets_chars h
  constructor <;> intro mem <;> rcases chars _ mem with digit | dot
  · cases digit
  · cases dot
  · cases digit
  · cases dot

/-! ## The first group -/

/-- The text up to the first colon. -/
def firstGroup (cs : List Char) : List Char := cs.takeWhile (· ≠ ':')

theorem firstGroup_append (xs ys : List Char) :
    firstGroup (xs ++ ':' :: ys) = firstGroup xs := by
  unfold firstGroup
  rw [List.takeWhile_append]
  split_ifs with whole
  · have same := (List.takeWhile_prefix _).eq_of_length whole
    rw [List.takeWhile_cons_of_neg (by simp), List.append_nil, same]
  · rfl

theorem firstGroup_eq_self (h : ':' ∉ cs) : firstGroup cs = cs := by
  unfold firstGroup
  induction cs with
  | nil => rfl
  | cons c cs ih =>
    obtain ⟨first, later⟩ := not_or.mp (List.mem_cons.not.mp h)
    rw [List.takeWhile_cons_of_pos (by simpa using Ne.symm first), ih later]

theorem splitOn_first (cs : List Char) : ∃ rest, cs.splitOn ':' = firstGroup cs :: rest ∧
    (rest = [] ↔ ':' ∉ cs) := by
  by_cases colon : ':' ∈ cs
  · obtain ⟨xs, ys, rfl, first⟩ := List.eq_append_cons_of_mem colon
    refine ⟨ys.splitOn ':', ?_, by simp [List.splitOn_ne_nil]⟩
    rw [List.splitOn_append_cons_self_of_not_mem first, firstGroup_append, firstGroup_eq_self first]
  · exact ⟨[], by rw [List.splitOn_eq_singleton colon, firstGroup_eq_self colon], by simp [colon]⟩

/-- What begins a list of pieces. -/
theorem pieces_head (h : pieces? v4 (p :: ps) = some gs) :
    (∃ g rest, hexGroup? p = some g ∧ gs = g :: rest) ∨
      ps = [] ∧ v4 = true ∧ ∃ a b c d, octets? p = some (a, b, c, d) ∧
        gs = [256 * a + b, 256 * c + d] := by
  cases ps with
  | nil =>
    simp only [pieces?] at h
    split at h
    · next g group => exact .inl ⟨g, [], group, (Option.some.inj h).symm⟩
    · split_ifs at h with allowed
      obtain ⟨⟨a, b, c, d⟩, octets, rfl⟩ := Option.map_eq_some_iff.mp h
      exact .inr ⟨rfl, allowed, a, b, c, d, octets, rfl⟩
  | cons q ps =>
    simp only [pieces?, Option.bind_eq_bind, Option.bind_eq_some_iff] at h
    obtain ⟨g, group, rest, -, same⟩ := h
    exact .inl ⟨g, rest, group, (Option.some.inj same).symm⟩

theorem side_head (v4 : Bool) (filled : cs ≠ []) (h : side? v4 cs = some gs) :
    (∃ g rest, hexGroup? (firstGroup cs) = some g ∧ gs = g :: rest) ∨
      ':' ∉ cs ∧ v4 = true ∧ gs.length = 2 := by
  rw [side?, if_neg filled] at h
  obtain ⟨rest, pieces, alone⟩ := splitOn_first cs
  rw [pieces] at h
  rcases pieces_head h with first | ⟨none, allowed, a, b, c, d, -, rfl⟩
  · exact .inl first
  · exact .inr ⟨alone.mp none, allowed, rfl⟩

theorem cutDouble_eq {l r : List Char} (h : cutDouble cs = some (l, r)) :
    cs = l ++ ':' :: ':' :: r := by
  induction cs generalizing l with
  | nil => cases h
  | cons c cs ih =>
    unfold cutDouble at h
    split_ifs at h with double
    · obtain ⟨rfl, rfl⟩ := Prod.mk.inj (Option.some.inj h)
      obtain ⟨rfl, next⟩ := double
      cases cs with
      | nil => cases next
      | cons d cs =>
        obtain rfl := Option.some.inj next
        rfl
    · obtain ⟨⟨l', r'⟩, cut, same⟩ := Option.map_eq_some_iff.mp h
      obtain ⟨rfl, rfl⟩ := Prod.mk.inj same
      rw [ih cut]
      rfl

theorem filled_head {l r : List ℕ} (h : filled l r = some gs) :
    gs.length = 8 ∧ gs.head? = some (l.headD 0) := by
  unfold filled at h
  split_ifs at h with short
  obtain rfl := Option.some.inj h
  refine ⟨by simp; omega, ?_⟩
  cases l with
  | nil =>
    obtain ⟨n, more⟩ : ∃ n, 8 - (([] : List ℕ).length + r.length) = n + 1 :=
      Nat.exists_eq_succ_of_ne_zero (by omega)
    rw [more]
    rfl
  | cons g l => rfl

/-- The first group of a text is the first group of what it denotes, or left out as zero. -/
theorem body_head (h : body? cs = some gs) : gs.length = 8 ∧ ':' ∈ cs ∧
    (firstGroup cs = [] ∧ gs.head? = some 0 ∨
      ∃ g, hexGroup? (firstGroup cs) = some g ∧ gs.head? = some g) := by
  unfold body? at h
  split at h
  · obtain ⟨side, eight⟩ := Option.filter_eq_some_iff.mp h
    have eight : gs.length = 8 := of_decide_eq_true eight
    have some_chars : cs ≠ [] := by
      rintro rfl
      obtain rfl := Option.some.inj side
      cases eight
    rcases side_head true some_chars side with ⟨g, rest, group, rfl⟩ | ⟨-, -, two⟩
    · refine ⟨eight, ?_, .inr ⟨g, group, rfl⟩⟩
      by_contra colon
      rw [side?, if_neg some_chars, List.splitOn_eq_singleton colon] at side
      rcases pieces_head side with ⟨g', rest', group', same⟩ | ⟨-, -, a, b, c, d, -, same⟩
      · have alone : pieces? true [cs] = some [g'] := by simp [pieces?, group']
        rw [alone] at side
        rw [← Option.some.inj side] at eight
        cases eight
      · rw [same] at eight
        cases eight
    · rw [two] at eight
      cases eight
  · next l r cut =>
    simp only [Option.bind_eq_bind, Option.bind_eq_some_iff] at h
    obtain ⟨left, sideL, right, -, h⟩ := h
    obtain ⟨eight, head⟩ := filled_head h
    obtain rfl := cutDouble_eq cut
    refine ⟨eight, by simp, ?_⟩
    rw [firstGroup_append, head]
    by_cases none : l = []
    · subst none
      obtain rfl := Option.some.inj sideL
      exact .inl ⟨rfl, rfl⟩
    · rcases side_head false none sideL with ⟨g, rest, group, rfl⟩ | ⟨-, no, -⟩
      · exact .inr ⟨g, group, rfl⟩
      · cases no

/-- A zone does not change the first group. -/
theorem firstGroup_zone (colon : ':' ∈ cs.takeWhile (· ≠ '%')) :
    firstGroup cs = firstGroup (cs.takeWhile (· ≠ '%')) := by
  obtain ⟨xs, ys, cut, -⟩ := List.eq_append_cons_of_mem colon
  have whole : cs = xs ++ ':' :: (ys ++ cs.dropWhile (· ≠ '%')) := by
    have both := List.takeWhile_append_dropWhile (p := (· ≠ '%')) (l := cs)
    rw [cut, List.append_assoc, List.cons_append] at both
    exact both.symm
  rw [cut, firstGroup_append]
  conv_lhs => rw [whole]
  rw [firstGroup_append]

theorem groups_head (h : groups? cs = some gs) : gs.length = 8 ∧ ':' ∈ cs ∧
    (firstGroup cs = [] ∧ gs.head? = some 0 ∨
      ∃ g, hexGroup? (firstGroup cs) = some g ∧ gs.head? = some g) := by
  unfold groups? at h
  split_ifs at h
  obtain ⟨eight, colon, head⟩ := body_head h
  rw [firstGroup_zone colon]
  exact ⟨eight, (List.takeWhile_sublist _).subset colon, head⟩

/-! ## Mapped addresses -/

/-- Any spelling of the group that marks a mapped address. -/
theorem hexGroup_ffff (h : hexGroup? p = some g) (same : p.map Char.toLower = ['f', 'f', 'f', 'f']) :
    g = 0xffff := by
  obtain ⟨ds, digits, small, -, -, rfl⟩ := hexGroup_digits h
  rw [same] at digits
  obtain ⟨a, rest, rfl, ha, digits⟩ := List.map_eq_cons_iff.mp digits.symm
  obtain ⟨b, rest, rfl, hb, digits⟩ := List.map_eq_cons_iff.mp digits
  obtain ⟨c, rest, rfl, hc, digits⟩ := List.map_eq_cons_iff.mp digits
  obtain ⟨d, rest, rfl, hd, digits⟩ := List.map_eq_cons_iff.mp digits
  obtain rfl := List.map_eq_nil_iff.mp digits
  have fifteen {d : ℕ} (digit : d < 16) (same : hexChar d = 'f') : d = 15 :=
    (hexChar_inj digit (by decide)).mp same
  simp only [List.forall_mem_cons] at small
  obtain ⟨ba, bb, bc, bd, -⟩ := small
  rw [fifteen ba ha, fifteen bb hb, fifteen bc hc, fifteen bd hd]
  rfl

theorem pieces_cons (more : ps ≠ []) (h : pieces? v4 (p :: ps) = some gs) :
    ∃ g rest, hexGroup? p = some g ∧ pieces? v4 ps = some rest ∧ gs = g :: rest := by
  cases ps with
  | nil => exact absurd rfl more
  | cons q ps =>
    simp only [pieces?, Option.bind_eq_bind, Option.bind_eq_some_iff] at h
    obtain ⟨g, group, rest, pieces, same⟩ := h
    exact ⟨g, rest, group, pieces, (Option.some.inj same).symm⟩

/-- What follows `::ffff:` fills the address from behind. -/
theorem body_mapped {t : List Char} (same : p.map Char.toLower = ['f', 'f', 'f', 'f'])
    (plain : ':' ∉ p) (h : body? (':' :: ':' :: (p ++ ':' :: t)) = some gs) :
    ∃ rest, pieces? true (t.splitOn ':') = some rest ∧ rest.length ≤ 6 ∧
      gs = List.replicate (7 - rest.length) 0 ++ 0xffff :: rest := by
  have cut : cutDouble (':' :: ':' :: (p ++ ':' :: t)) = some ([], p ++ ':' :: t) := rfl
  unfold body? at h
  rw [cut] at h
  simp only [Option.bind_eq_bind, Option.bind_eq_some_iff] at h
  obtain ⟨left, sideL, right, sideR, h⟩ := h
  obtain rfl := Option.some.inj sideL
  rw [side?, if_neg (by simp), List.splitOn_append_cons_self_of_not_mem plain] at sideR
  obtain ⟨g, rest, group, pieces, rfl⟩ := pieces_cons (List.splitOn_ne_nil _ _) sideR
  obtain rfl := hexGroup_ffff group same
  unfold filled at h
  split_ifs at h with short
  obtain rfl := Option.some.inj h
  simp only [List.length_nil, List.length_cons, Nat.zero_add] at short
  refine ⟨rest, pieces, by omega, ?_⟩
  simp only [List.length_nil, List.length_cons, Nat.zero_add, List.nil_append]
  rw [show 8 - (rest.length + 1) = 7 - rest.length by omega]

theorem groups_mapped {t : List Char} (same : p.map Char.toLower = ['f', 'f', 'f', 'f'])
    (h : groups? (':' :: ':' :: (p ++ ':' :: t)) = some gs) :
    ∃ rest, pieces? true ((t.takeWhile (· ≠ '%')).splitOn ':') = some rest ∧ rest.length ≤ 6 ∧
      gs = List.replicate (7 - rest.length) 0 ++ 0xffff :: rest := by
  have letter (c : Char) (mem : c ∈ p) : c.toLower = 'f' := by
    have := List.mem_map_of_mem (f := Char.toLower) mem
    rw [same] at this
    simpa using this
  have plain : ':' ∉ p := fun mem => absurd (letter _ mem) (by decide)
  have keep (c : Char) (mem : c ∈ p) : decide (c ≠ '%') = true := by
    rw [decide_eq_true_eq]
    rintro rfl
    exact absurd (letter _ mem) (by decide)
  unfold groups? at h
  split_ifs at h
  rw [List.takeWhile_cons_of_pos (by decide), List.takeWhile_cons_of_pos (by decide),
    List.takeWhile_append_of_pos keep, List.takeWhile_cons_of_pos (by decide)] at h
  exact body_mapped same plain h

/-- A list of pieces that is a single IPv4 address, or two groups. -/
theorem octets_group {a b c d : ℕ} (h : octets? cs = some (a, b, c, d)) :
    pieces? true (cs.splitOn ':') = some [256 * a + b, 256 * c + d] := by
  have long := octets_long h
  rw [List.splitOn_eq_singleton (octets_ne h).1]
  have group : hexGroup? cs = none := if_pos (.inr (by omega))
  simp [pieces?, group, h]

end Pieces

end DeclutrMail.Ip
