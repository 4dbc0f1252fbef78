import DeclutrMail.Text.Addresses
import Mathlib.Data.List.TakeWhile

/-!
# The SSRF guard

`classifyAddress` of `ssrf-guard.ts`, which reads the text of an address, and `validateTarget` of
the unsubscribe worker, which pins the first of the addresses that it has passed. The guard
takes the hexadecimal spellings of a mapped address for public, and such is the spelling that a
URL gives a mapped host.
-/

namespace DeclutrMail.SsrfGuard

open Ip

/-! ## The code -/

inductive Classification
  | publicAddress | loopback | privateAddress
  deriving DecidableEq

def lower (cs : List Char) : List Char := cs.map Char.toLower

def mappedPrefix : List Char := [':', ':', 'f', 'f', 'f', 'f', ':']

/-- `address.toLowerCase().startsWith('::ffff:')` -/
def startsMapped (address : List Char) : Bool := mappedPrefix.isPrefixOf (lower address)

def normalized (address : List Char) : List Char :=
  if startsMapped address then address.drop 7 else address

/-- `Number.parseInt(o, 10)` of a text that begins with a digit -/
def parseInt (cs : List Char) : ℕ := decimal (cs.takeWhile Char.isDigit)

def classifyOctets (a b : ℕ) : Classification :=
  if a = 127 then .loopback
  else if a = 0 then .privateAddress
  else if a = 10 then .privateAddress
  else if a = 172 ∧ 16 ≤ b ∧ b ≤ 31 then .privateAddress
  else if a = 192 ∧ b = 168 then .privateAddress
  else if a = 169 ∧ b = 254 then .privateAddress
  else if a = 100 ∧ 64 ≤ b ∧ b ≤ 127 then .privateAddress
  else .publicAddress

def startsUniqueLocal (group : List Char) : Bool :=
  ['f', 'c'].isPrefixOf group || ['f', 'd'].isPrefixOf group

/-- `/^fe[89ab]/` -/
def startsLinkLocal : List Char → Bool
  | 'f' :: 'e' :: c :: _ => c = '8' || c = '9' || c = 'a' || c = 'b'
  | _ => false

def classifyGroups (low : List Char) : Classification :=
  if low = [':', ':', '1'] then .loopback
  else if low = [':', ':'] then .privateAddress
  else if startsUniqueLocal (firstGroup low) then .privateAddress
  else if startsLinkLocal (firstGroup low) then .privateAddress
  else .publicAddress

def classifyAddress (address : List Char) : Classification :=
  if isIP (normalized address) = 4 then
    let octets := ((normalized address).splitOn '.').map parseInt
    classifyOctets (octets.getD 0 0) (octets.getD 1 0)
  else classifyGroups (lower (normalized address))

/-- What `validateTarget` reads of a URL. -/
structure Url where
  protocol : List Char
  hostname : List Char

inductive TargetError
  | UNSUB_INVALID_URL | UNSUB_INSECURE_SCHEME | UNSUB_DNS_FAILURE | UNSUB_PRIVATE_TARGET
  deriving DecidableEq

structure Pin where
  pinnedAddress : List Char
  family : ℕ
  deriving DecidableEq

/-- `hostname.replace(/^\[|\]$/g, '')` -/
def stripBrackets (hostname : List Char) : List Char :=
  let front := if hostname.head? = some '[' then hostname.tail else hostname
  if front.getLast? = some ']' then front.dropLast else front

def passes (allowInsecure : Bool) (address : List Char) : Bool :=
  classifyAddress address = .publicAddress ||
    (classifyAddress address = .loopback && allowInsecure)

/-- The addresses of a host; `none` is an exception of the resolver. -/
def addresses (resolveHost : List Char → Option (List (List Char))) (hostname : List Char) :
    Option (List (List Char)) :=
  if isIP hostname ≠ 0 then some [hostname] else resolveHost hostname

def pinFirst (allowInsecure : Bool) : Option (List (List Char)) → Except TargetError Pin
  | none => .error .UNSUB_DNS_FAILURE
  | some [] => .error .UNSUB_DNS_FAILURE
  | some (first :: rest) =>
    if (first :: rest).all (passes allowInsecure) then
      .ok ⟨first, if isIP first = 6 then 6 else 4⟩
    else .error .UNSUB_PRIVATE_TARGET

/-- The URL parser and the resolver are parameters; `allowInsecure` is off in production. -/
def validateTarget (parseUrl : List Char → Option Url)
    (resolveHost : List Char → Option (List (List Char))) (allowInsecure : Bool)
    (rawUrl : List Char) : Except TargetError Pin :=
  match parseUrl rawUrl with
  | none => .error .UNSUB_INVALID_URL
  | some url =>
    if url.protocol ≠ "https:".toList ∧ ¬(allowInsecure = true ∧ url.protocol = "http:".toList) then
      .error .UNSUB_INSECURE_SCHEME
    else pinFirst allowInsecure (addresses resolveHost (stripBrackets url.hostname))

/-! ## What must not be dialled -/

/-- An IPv4-mapped IPv6 address is the IPv4 address behind it. -/
def unmap : Address → Address
  | .v6 [0, 0, 0, 0, 0, 0xffff, hi, lo] => .v4 (hi / 256) (hi % 256) (lo / 256) (lo % 256)
  | address => address

/-- The IPv4 blocks of loopback, private and link-local addresses. -/
def reservedOctets (a b : ℕ) : Prop :=
  a = 0 ∨ a = 10 ∨ a = 127 ∨ (a = 169 ∧ b = 254) ∨ (a = 172 ∧ 16 ≤ b ∧ b ≤ 31) ∨
    (a = 192 ∧ b = 168) ∨ (a = 100 ∧ 64 ≤ b ∧ b ≤ 127)

instance (a b : ℕ) : Decidable (reservedOctets a b) := by unfold reservedOctets; infer_instance

def unspecified : List ℕ := [0, 0, 0, 0, 0, 0, 0, 0]
def loopback6 : List ℕ := [0, 0, 0, 0, 0, 0, 0, 1]

/-- fc00::/7 and fe80::/10. -/
def reservedBlock (groups : List ℕ) : Prop :=
  (0xfc00 ≤ groups.headD 0 ∧ groups.headD 0 ≤ 0xfdff) ∨
    (0xfe80 ≤ groups.headD 0 ∧ groups.headD 0 ≤ 0xfebf)

def Reserved : Address → Prop
  | .v4 a b _ _ => reservedOctets a b
  | .v6 groups => groups = unspecified ∨ groups = loopback6 ∨ reservedBlock groups

/-- Written as IPv6, and reserved without its first group showing it. -/
def Hidden : Address → Prop
  | .v4 .. => False
  | .v6 groups => Reserved (unmap (.v6 groups)) ∧ ¬reservedBlock groups

/-- The spellings of a hidden address that the guard looks for. -/
def Recognised (address : List Char) : Prop :=
  address = [':', ':'] ∨ address = [':', ':', '1'] ∨
    (startsMapped address = true ∧ (isIP (address.drop 7) = 4 ∨
      startsUniqueLocal (firstGroup (lower (address.drop 7))) = true))

/-! ## Octets -/

theorem classifyOctets_public (a b : ℕ) :
    classifyOctets a b = .publicAddress ↔ ¬reservedOctets a b := by
  unfold classifyOctets reservedOctets
  split_ifs <;> simp <;> omega

theorem digit_toLower {c : Char} (h : c.isDigit = true) : c.toLower ≠ ':' ∧ c.toLower ≠ 'f' := by
  obtain ⟨low, high⟩ : 48 ≤ c.toNat ∧ c.toNat ≤ 57 := by
    unfold Char.isDigit at h
    exact of_decide_eq_true (by rwa [Bool.decide_and])
  generalize same : c.toNat = k at *
  obtain rfl := char_eq_ofNat same
  interval_cases k <;> decide

section Octets

variable {cs : List Char} {a b c d : ℕ}

theorem parseInt_octet {p : List Char} {n : ℕ} (h : octet? p = some n) : parseInt p = n := by
  obtain ⟨-, digits, rfl, -⟩ := octet_digits h
  rw [parseInt, List.takeWhile_eq_self_iff.mpr digits]

theorem isIP_octets (h : octets? cs = some (a, b, c, d)) : isIP cs = 4 := by
  simp [isIP, denote, h]

theorem octets_of_isIP (h : isIP cs = 4) : ∃ a b c d, octets? cs = some (a, b, c, d) := by
  unfold isIP denote at h
  cases octets : octets? cs with
  | some found => exact ⟨_, _, _, _, rfl⟩
  | none =>
    rw [octets] at h
    cases groups : groups? cs with
    | none => simp [groups] at h
    | some gs => simp [groups] at h

/-- The dotted branch, on the octets themselves. -/
theorem classify_octets (h : octets? (normalized cs) = some (a, b, c, d)) :
    classifyAddress cs = classifyOctets a b := by
  obtain ⟨p, q, r, s, pieces, hp, hq, -, -⟩ := octets_pieces h
  unfold classifyAddress
  rw [if_pos (isIP_octets h), pieces]
  simp only [List.map_cons, List.getD_cons_zero, List.getD_cons_succ, parseInt_octet hp,
    parseInt_octet hq]

theorem not_startsMapped (h : octets? cs = some (a, b, c, d)) : startsMapped cs = false := by
  obtain ⟨-, x, rest, rfl, digit⟩ := octets_chars h
  by_contra mapped
  obtain ⟨tail, same⟩ := List.isPrefixOf_iff_prefix.mp (Bool.not_eq_false _ ▸ mapped)
  have first : ':' = x.toLower := (List.cons.inj same).1
  exact (digit_toLower digit).1 first.symm

end Octets

/-! ## Groups -/

theorem eq_of_lower {cs s : List Char} (plain : ∀ c ∈ s, c.toNat < 97) (h : lower cs = s) :
    cs = s := by
  induction cs generalizing s with
  | nil => exact h
  | cons c cs ih =>
    obtain rfl := h
    obtain ⟨low, rest⟩ := List.forall_mem_cons.mp plain
    have first : c.toLower = c := (toLower_cases c).resolve_right (by omega)
    have others : cs = lower cs := ih rest rfl
    exact congrArg₂ _ first.symm others

theorem toLower_colon (c : Char) : c.toLower = ':' ↔ c = ':' := by
  constructor
  · intro same
    have unchanged := (toLower_cases c).resolve_right (by rw [same]; decide)
    rw [← unchanged, same]
  · rintro rfl
    rfl

theorem firstGroup_lower (cs : List Char) : firstGroup (lower cs) = lower (firstGroup cs) := by
  unfold firstGroup lower
  rw [List.takeWhile_map]
  congr 2
  funext c
  simp [toLower_colon]

section Groups

variable {p : List Char} {g : ℕ} {ds : List ℕ}

theorem hexChar_f {d : ℕ} (h : d < 16) : 'f' = hexChar d ↔ d = 15 := by
  interval_cases d <;> decide

theorem uniqueLocal_digits (small : ∀ d ∈ ds, d < 16) :
    startsUniqueLocal (ds.map hexChar) = true ↔
      ds.getD 0 0 = 15 ∧ (ds.getD 1 0 = 12 ∨ ds.getD 1 0 = 13) := by
  rcases ds with _ | ⟨a, _ | ⟨b, ds⟩⟩
  · decide
  · simp [startsUniqueLocal, List.isPrefixOf]
  · have first : a < 16 := small a (by simp)
    have second : b < 16 := small b (by simp)
    have c : 'c' = hexChar b ↔ b = 12 := by interval_cases b <;> decide
    have d : 'd' = hexChar b ↔ b = 13 := by interval_cases b <;> decide
    simp [startsUniqueLocal, List.isPrefixOf, hexChar_f first, c, d, and_or_left]

theorem linkLocal_digits (small : ∀ d ∈ ds, d < 16) :
    startsLinkLocal (ds.map hexChar) = true ↔
      ds.getD 0 0 = 15 ∧ ds.getD 1 0 = 14 ∧ 8 ≤ ds.getD 2 0 ∧ ds.getD 2 0 ≤ 11 := by
  have cut (x y : Char) (l : List Char) : startsLinkLocal (x :: y :: l) = true ↔
      'f' = x ∧ 'e' = y ∧ ∃ z, l.head? = some z ∧ (z = '8' ∨ z = '9' ∨ z = 'a' ∨ z = 'b') := by
    unfold startsLinkLocal
    split
    · next c _ same =>
      obtain ⟨rfl, rest⟩ := List.cons.inj same
      obtain ⟨rfl, rfl⟩ := List.cons.inj rest
      simp [or_assoc]
    · next other =>
      refine iff_of_false Bool.false_ne_true ?_
      rintro ⟨rfl, rfl, z, head, -⟩
      obtain ⟨l', rfl⟩ := List.head?_eq_some_iff.mp head
      exact other _ _ rfl
  rcases ds with _ | ⟨a, _ | ⟨b, ds⟩⟩
  · decide
  · simp [startsLinkLocal]
  · have first : a < 16 := small a (by simp)
    have second : b < 16 := small b (by simp)
    have e : 'e' = hexChar b ↔ b = 14 := by interval_cases b <;> decide
    rw [List.map_cons, List.map_cons, cut, hexChar_f first, e]
    rcases ds with _ | ⟨c, ds⟩
    · simp
    · have third : c < 16 := small c (by simp)
      have low : hexChar c = '8' ∨ hexChar c = '9' ∨ hexChar c = 'a' ∨ hexChar c = 'b' ↔
          8 ≤ c ∧ c ≤ 11 := by interval_cases c <;> decide
      simp [low]

/-- The blocks of fc00::/7 and fe80::/10 show in the digits of the first group. A short group may
look like one of fe80::/10. -/
theorem group_starts (h : hexGroup? p = some g) :
    (startsUniqueLocal (lower p) = true → g ≠ 0) ∧
    (startsLinkLocal (lower p) = true → g / 256 = 15 ∨ g / 256 = 254) ∧
    (0xfc00 ≤ g ∧ g ≤ 0xfdff → startsUniqueLocal (lower p) = true) ∧
    (0xfe80 ≤ g ∧ g ≤ 0xfebf → startsLinkLocal (lower p) = true) := by
  obtain ⟨ds, digits, small, long, short, rfl⟩ := hexGroup_digits h
  have same : lower p = ds.map hexChar := digits
  rw [same, uniqueLocal_digits small, linkLocal_digits small]
  rcases ds with _ | ⟨a, _ | ⟨b, _ | ⟨c, _ | ⟨d, _ | ⟨e, ds⟩⟩⟩⟩⟩
  · cases long
  all_goals simp only [List.forall_mem_cons, List.length_cons] at small short
  all_goals simp only [List.foldl_cons, List.foldl_nil, List.getD_cons_zero, List.getD_cons_succ,
    List.getD_nil]
  all_goals omega

end Groups

/-! ## What the guard keeps out -/

/-- The claim on one text and what it denotes. -/
def Guarded (address : List Char) (addr : Address) : Prop :=
  classifyAddress address = .publicAddress → ¬Reserved (unmap addr)

section Guarded

variable {cs : List Char} {a b c d : ℕ} {gs : List ℕ}

theorem guarded_octets (h : octets? cs = some (a, b, c, d)) : Guarded cs (.v4 a b c d) := by
  have plain : normalized cs = cs := by rw [normalized, not_startsMapped h]; rfl
  intro isPublic
  rw [classify_octets (plain.symm ▸ h), classifyOctets_public] at isPublic
  exact isPublic

/-- The other branch, as a condition on the text behind a mapped prefix. -/
theorem classify_groups (h : isIP (normalized cs) ≠ 4) : classifyAddress cs = .publicAddress ↔
    normalized cs ≠ [':', ':', '1'] ∧ normalized cs ≠ [':', ':'] ∧
      startsUniqueLocal (lower (firstGroup (normalized cs))) = false ∧
      startsLinkLocal (lower (firstGroup (normalized cs))) = false := by
  have plain (s : List Char) (digits : ∀ c ∈ s, c.toNat < 97) (fixed : lower s = s) :
      lower (normalized cs) = s ↔ normalized cs = s :=
    ⟨eq_of_lower digits, fun same => same ▸ fixed⟩
  unfold classifyAddress classifyGroups
  rw [if_neg h, firstGroup_lower, ne_eq, ne_eq, ← plain [':', ':', '1'] (by simp) (by decide),
    ← plain [':', ':'] (by simp) (by decide)]
  split_ifs <;> simp [*]

theorem unmap_v6 (gs : List ℕ) : (∃ hi lo, gs = [0, 0, 0, 0, 0, 0xffff, hi, lo]) ∨
    unmap (.v6 gs) = .v6 gs := by
  unfold unmap
  split
  · next hi lo same => exact .inl ⟨hi, lo, Address.v6.inj same⟩
  · exact .inr rfl

/-- A hidden address begins with a zero group. -/
theorem hidden_head (h : Hidden (.v6 gs)) : gs.head? = some 0 := by
  obtain ⟨reserved, shown⟩ := h
  rcases unmap_v6 gs with ⟨hi, lo, rfl⟩ | same
  · rfl
  · rw [same] at reserved
    rcases reserved with rfl | rfl | block
    · rfl
    · rfl
    · exact absurd block shown

/-- What is reserved is hidden, or in one of the two blocks. -/
theorem reserved_v6 (h : Reserved (unmap (.v6 gs))) : Hidden (.v6 gs) ∨ reservedBlock gs := by
  by_cases shown : reservedBlock gs
  · exact .inr shown
  · exact .inl ⟨h, shown⟩

/-- A zero group shows nothing. -/
theorem zero_starts (h : groups? cs = some gs) (zero : gs.head? = some 0) :
    startsUniqueLocal (lower (firstGroup cs)) = false ∧
      startsLinkLocal (lower (firstGroup cs)) = false := by
  obtain ⟨-, -, ⟨empty, -⟩ | ⟨g, group, first⟩⟩ := groups_head h
  · rw [empty]
    decide
  · obtain rfl : g = 0 := Option.some.inj (first.symm.trans zero)
    obtain ⟨unique, link, -⟩ := group_starts group
    rw [Bool.eq_false_iff, Bool.eq_false_iff]
    exact ⟨fun starts => unique starts rfl, fun starts => by have := link starts; omega⟩

/-- A text that is no mapped one by its beginning. -/
theorem guarded_groups (h : groups? cs = some gs) (plain : startsMapped cs = false)
    (no : isIP cs ≠ 4) : Guarded cs (.v6 gs) ↔ (Hidden (.v6 gs) → Recognised cs) := by
  have same : normalized cs = cs := by rw [normalized, plain]; rfl
  obtain ⟨-, -, head⟩ := groups_head h
  have texts := classify_groups (same.symm ▸ no)
  rw [same] at texts
  constructor
  · intro guarded hidden
    have refused := mt texts.mpr fun isPublic => guarded isPublic hidden.1
    by_contra unseen
    obtain ⟨zeros, unseen⟩ := not_or.mp unseen
    obtain ⟨one, -⟩ := not_or.mp unseen
    exact refused ⟨one, zeros, zero_starts h (hidden_head hidden)⟩
  · intro seen isPublic reserved
    obtain ⟨one, zeros, unique, link⟩ := texts.mp isPublic
    rcases reserved_v6 reserved with hidden | block
    · rcases seen hidden with same | same | ⟨mapped, -⟩
      · exact zeros same
      · exact one same
      · exact absurd mapped (plain ▸ Bool.false_ne_true)
    · rcases head with ⟨-, zero⟩ | ⟨g, group, first⟩
      · unfold reservedBlock at block
        rw [List.headD_eq_head?_getD, zero] at block
        simp at block
      · obtain ⟨-, -, inUnique, inLink⟩ := group_starts group
        unfold reservedBlock at block
        rw [List.headD_eq_head?_getD, first, Option.getD_some] at block
        rcases block with block | block
        · exact absurd (inUnique block) (unique ▸ Bool.false_ne_true)
        · exact absurd (inLink block) (link ▸ Bool.false_ne_true)

/-! ## Mapped texts -/

theorem startsMapped_split (h : startsMapped cs = true) :
    ∃ p, cs = ':' :: ':' :: (p ++ ':' :: cs.drop 7) ∧
      p.map Char.toLower = ['f', 'f', 'f', 'f'] := by
  obtain ⟨tail, same⟩ := List.isPrefixOf_iff_prefix.mp h
  obtain ⟨m, t, rfl, front, -⟩ := List.map_eq_append_iff.mp same.symm
  obtain ⟨c₁, m, rfl, h₁, front⟩ := List.map_eq_cons_iff.mp front
  obtain ⟨c₂, m, rfl, h₂, front⟩ := List.map_eq_cons_iff.mp front
  obtain ⟨f₁, m, rfl, hf₁, front⟩ := List.map_eq_cons_iff.mp front
  obtain ⟨f₂, m, rfl, hf₂, front⟩ := List.map_eq_cons_iff.mp front
  obtain ⟨f₃, m, rfl, hf₃, front⟩ := List.map_eq_cons_iff.mp front
  obtain ⟨f₄, m, rfl, hf₄, front⟩ := List.map_eq_cons_iff.mp front
  obtain ⟨c₃, m, rfl, h₃, front⟩ := List.map_eq_cons_iff.mp front
  obtain rfl := List.map_eq_nil_iff.mp front
  obtain rfl := (toLower_colon _).mp h₁
  obtain rfl := (toLower_colon _).mp h₂
  obtain rfl := (toLower_colon _).mp h₃
  exact ⟨[f₁, f₂, f₃, f₄], rfl, by simp [hf₁, hf₂, hf₃, hf₄]⟩

/-- Of what begins with `::ffff:`, only a mapped address can be reserved. -/
theorem mapped_reserved {rest : List ℕ} (short : rest.length ≤ 6)
    (h : Reserved (unmap (.v6 (List.replicate (7 - rest.length) 0 ++ 0xffff :: rest)))) :
    ∃ hi lo, rest = [hi, lo] ∧ reservedOctets (hi / 256) (hi % 256) := by
  rcases unmap_v6 (List.replicate (7 - rest.length) 0 ++ 0xffff :: rest) with ⟨hi, lo, same⟩ | same
  · rw [same] at h
    have two : rest.length = 2 := by
      generalize rest.length = n at same short
      interval_cases n <;> simp [List.replicate] at same ⊢
    rw [two] at same
    have pair : rest = [hi, lo] := by simpa [List.replicate] using same
    exact ⟨hi, lo, pair, h⟩
  · rw [same] at h
    obtain ⟨n, more⟩ : ∃ n, 7 - rest.length = n + 1 := Nat.exists_eq_succ_of_ne_zero (by omega)
    rw [more, List.replicate_succ, List.cons_append] at h
    rcases h with zeros | one | block
    · have mem : 0xffff ∈ unspecified := zeros ▸ by simp
      exact absurd mem (by decide)
    · have mem : 0xffff ∈ loopback6 := one ▸ by simp
      exact absurd mem (by decide)
    · simp [reservedBlock] at block

/-- Two groups behind the prefix begin with the first group of the text there. -/
theorem mapped_group {t : List Char} {hi lo : ℕ}
    (pieces : pieces? true ((t.takeWhile (· ≠ '%')).splitOn ':') = some [hi, lo])
    (reserved : reservedOctets (hi / 256) (hi % 256)) :
    t ≠ [':', ':', '1'] ∧ t ≠ [':', ':'] ∧ startsLinkLocal (lower (firstGroup t)) = false := by
  obtain ⟨ps, split, alone⟩ := splitOn_first (t.takeWhile (· ≠ '%'))
  rw [split] at pieces
  rcases pieces_head pieces with ⟨g, rest, group, same⟩ | ⟨single, -, a, b, c, d, octets, -⟩
  · obtain ⟨rfl, rfl⟩ := List.cons.inj same
    have colon : ':' ∈ t.takeWhile (· ≠ '%') := by
      by_contra colon
      rw [alone.mpr colon] at pieces
      simp only [pieces?] at pieces
      rw [group] at pieces
      cases pieces
    rw [← firstGroup_zone colon] at group
    refine ⟨?_, ?_, ?_⟩
    · rintro rfl
      cases group
    · rintro rfl
      cases group
    · rw [Bool.eq_false_iff]
      intro link
      have high := (group_starts group).2.1 link
      unfold reservedOctets at reserved
      omega
  · rw [firstGroup_eq_self (alone.mp single)] at octets
    obtain ⟨-, x, rest, same, digit⟩ := octets_chars octets
    have whole := List.takeWhile_append_dropWhile (p := (· ≠ '%')) (l := t)
    rw [same] at whole
    obtain ⟨colon, f⟩ := digit_toLower digit
    have first : x ≠ ':' := by
      rintro rfl
      exact colon rfl
    rw [← whole]
    refine ⟨?_, ?_, ?_⟩
    · exact fun same => first (List.cons.inj same).1
    · exact fun same => first (List.cons.inj same).1
    · unfold firstGroup
      rw [List.cons_append, List.takeWhile_cons_of_pos (by simpa using first)]
      unfold lower startsLinkLocal
      rw [List.map_cons]
      split
      · next same => exact absurd (List.cons.inj same).1 f
      · rfl

/-- A text that begins with `::ffff:` and has groups behind. -/
theorem guarded_mapped (h : groups? cs = some gs) (mapped : startsMapped cs = true)
    (no : isIP (cs.drop 7) ≠ 4) : Guarded cs (.v6 gs) ↔ (Hidden (.v6 gs) → Recognised cs) := by
  have same : normalized cs = cs.drop 7 := if_pos mapped
  have texts := classify_groups (same.symm ▸ no)
  rw [same] at texts
  obtain ⟨p, whole, letters⟩ := startsMapped_split mapped
  rw [whole] at h
  obtain ⟨rest, pieces, short, rfl⟩ := groups_mapped letters h
  constructor
  · intro guarded hidden
    have refused := mt texts.mpr fun isPublic => guarded isPublic hidden.1
    obtain ⟨hi, lo, rfl, reserved⟩ := mapped_reserved short hidden.1
    obtain ⟨one, zeros, link⟩ := mapped_group pieces reserved
    refine .inr (.inr ⟨mapped, .inr ?_⟩)
    rw [firstGroup_lower]
    by_contra unique
    exact refused ⟨one, zeros, Bool.not_eq_true _ ▸ unique, link⟩
  · intro seen isPublic reserved
    obtain ⟨-, -, unique, -⟩ := texts.mp isPublic
    obtain ⟨hi, lo, rfl, -⟩ := mapped_reserved short reserved
    have hidden : Hidden (.v6 (List.replicate (7 - [hi, lo].length) 0 ++ 0xffff :: [hi, lo])) :=
      (reserved_v6 reserved).resolve_right (by simp [reservedBlock])
    rcases seen hidden with rfl | rfl | ⟨-, dotted | starts⟩
    · exact absurd mapped (by decide)
    · exact absurd mapped (by decide)
    · exact no dotted
    · rw [firstGroup_lower, unique] at starts
      cases starts

/-- A mapped address in its dotted spelling. -/
theorem guarded_dotted (h : groups? cs = some gs) (mapped : startsMapped cs = true)
    (dotted : isIP (cs.drop 7) = 4) : Guarded cs (.v6 gs) := by
  obtain ⟨a, b, c, d, octets⟩ := octets_of_isIP dotted
  obtain ⟨p, whole, letters⟩ := startsMapped_split mapped
  rw [whole] at h
  obtain ⟨rest, pieces, short, rfl⟩ := groups_mapped letters h
  have plain : (cs.drop 7).takeWhile (· ≠ '%') = cs.drop 7 :=
    List.takeWhile_eq_self_iff.mpr fun x mem => decide_eq_true fun same =>
      (octets_ne octets).2 (same ▸ mem)
  rw [plain, octets_group octets] at pieces
  obtain rfl := Option.some.inj pieces
  have same : normalized cs = cs.drop 7 := if_pos mapped
  rintro isPublic reserved
  rw [classify_octets (same.symm ▸ octets), classifyOctets_public] at isPublic
  obtain ⟨hi, lo, pair, block⟩ := mapped_reserved (by simp) reserved
  obtain ⟨first, -⟩ := List.cons.inj pair
  have bounds := octets_le octets
  refine isPublic ?_
  rw [← first] at block
  rwa [show (256 * a + b) / 256 = a by omega, show (256 * a + b) % 256 = b by omega] at block

/-- The guard keeps a text out, or lets it pass rightly, unless it hides its address in a spelling
that the guard does not look for. -/
theorem guarded_iff {addr : Address} (h : denote cs = some addr) :
    Guarded cs addr ↔ (Hidden addr → Recognised cs) := by
  unfold denote at h
  split at h
  · next octets =>
    obtain rfl := Option.some.inj h
    exact iff_of_true (guarded_octets octets) fun hidden => hidden.elim
  · next none =>
    obtain ⟨gs, groups, rfl⟩ := Option.map_eq_some_iff.mp h
    cases mapped : startsMapped cs with
    | false =>
      have no : isIP cs ≠ 4 := by simp [isIP, denote, none, groups]
      exact guarded_groups groups mapped no
    | true =>
      by_cases dotted : isIP (cs.drop 7) = 4
      · exact iff_of_true (guarded_dotted groups mapped dotted) fun _ =>
          .inr (.inr ⟨mapped, .inl dotted⟩)
      · exact guarded_mapped groups mapped dotted

end Guarded

/-! ## What is pinned -/

section Pin

variable {parseUrl : List Char → Option Url} {resolveHost : List Char → Option (List (List Char))}
  {rawUrl : List Char} {pin : Pin}

/-- What is pinned has passed as public. -/
theorem pinFirst_public {found : Option (List (List Char))} (h : pinFirst false found = .ok pin) :
    classifyAddress pin.pinnedAddress = .publicAddress := by
  unfold pinFirst at h
  split at h
  · cases h
  · cases h
  · next first rest =>
    by_cases all : (first :: rest).all (passes false) = true
    · rw [if_pos all] at h
      obtain rfl := Except.ok.inj h
      rw [List.all_cons, Bool.and_eq_true] at all
      simpa [passes] using all.1
    · rw [if_neg all] at h
      cases h

theorem pinned_public (h : validateTarget parseUrl resolveHost false rawUrl = .ok pin) :
    classifyAddress pin.pinnedAddress = .publicAddress := by
  unfold validateTarget at h
  split at h
  · cases h
  · split at h
    · cases h
    · exact pinFirst_public h

/-- Of a text that node takes for an address, `classifyAddress` answers `public` rightly if and
only if it looks for the spelling or the address is not hidden in it, and `validateTarget` pins
nothing else wrong. -/
theorem public_is_outside (address : List Char) (addr : Address) (h : denote address = some addr) :
    ((classifyAddress address = .publicAddress → ¬Reserved (unmap addr)) ↔
      (Hidden addr → Recognised address)) ∧
    ∀ (parseUrl : List Char → Option Url) (resolveHost : List Char → Option (List (List Char)))
      (rawUrl : List Char) (family : ℕ),
      validateTarget parseUrl resolveHost false rawUrl = .ok ⟨address, family⟩ →
      (¬Reserved (unmap addr) ↔ (Hidden addr → Recognised address)) := by
  refine ⟨guarded_iff h, fun parseUrl resolveHost rawUrl family ok => ?_⟩
  have isPublic := pinned_public ok
  rw [← guarded_iff h]
  exact ⟨fun outside _ => outside, fun guarded => guarded isPublic⟩

theorem public_is_outside_dotted :
    denote "::ffff:10.0.0.1".toList = some (.v6 [0, 0, 0, 0, 0, 0xffff, 0xa00, 1]) ∧
    ((classifyAddress "::ffff:10.0.0.1".toList = .publicAddress →
        ¬Reserved (unmap (.v6 [0, 0, 0, 0, 0, 0xffff, 0xa00, 1]))) ↔
      (Hidden (.v6 [0, 0, 0, 0, 0, 0xffff, 0xa00, 1]) → Recognised "::ffff:10.0.0.1".toList)) :=
  ⟨by decide, (public_is_outside "::ffff:10.0.0.1".toList _ (by decide)).1⟩

/-- A URL spells the host `[::ffff:127.0.0.1]` as `[::ffff:7f00:1]`. -/
theorem hexadecimal_loopback :
    denote "::ffff:7f00:1".toList = some (.v6 [0, 0, 0, 0, 0, 0xffff, 0x7f00, 1]) ∧
    classifyAddress "::ffff:7f00:1".toList = .publicAddress ∧
    Reserved (unmap (.v6 [0, 0, 0, 0, 0, 0xffff, 0x7f00, 1])) ∧
    validateTarget (fun _ => some ⟨"https:".toList, "[::ffff:7f00:1]".toList⟩) (fun _ => none) false
      "https://[::ffff:127.0.0.1]/".toList = .ok ⟨"::ffff:7f00:1".toList, 6⟩ ∧
    ¬∀ address addr, denote address = some addr →
      classifyAddress address = .publicAddress → ¬Reserved (unmap addr) := by
  have denoted : denote "::ffff:7f00:1".toList =
      some (.v6 [0, 0, 0, 0, 0, 0xffff, 0x7f00, 1]) := by decide
  have isPublic : classifyAddress "::ffff:7f00:1".toList = .publicAddress := by decide
  have reserved : Reserved (unmap (.v6 [0, 0, 0, 0, 0, 0xffff, 0x7f00, 1])) :=
    .inr (.inr (.inl rfl))
  have pinned : validateTarget (fun _ => some ⟨"https:".toList, "[::ffff:7f00:1]".toList⟩)
      (fun _ => none) false "https://[::ffff:127.0.0.1]/".toList =
        .ok ⟨"::ffff:7f00:1".toList, 6⟩ := by decide
  exact ⟨denoted, isPublic, reserved, pinned, fun sound =>
    sound _ _ denoted isPublic reserved⟩

end Pin

end DeclutrMail.SsrfGuard
