import DeclutrMail.Sync.Headers

/-!
# Mailboxes read from headers

What `parseFromHeader` and `parseRecipients` read of mailboxes written as RFC 5322 has them:
`"name" <address>`, `name <address>`, or the address alone. Within quotes any character may
stand. The list is cut with respect to the quotes (`splitAddressListFrom_quoted`), but neither
the count of open brackets nor the search for the address looks at them, so that a `<` in a
quoted name is taken for the address's.
-/

namespace DeclutrMail.Sync

open Batches Text

/-! ## Mailboxes -/

/-- A character that neither opens nor closes nor separates. -/
def isOrdinary (c : Char) : Bool := c ≠ '<' && c ≠ '>' && c ≠ '"' && c ≠ ','

structure Address where
  text : Text
  hasAt : '@' ∈ text
  ordinary : ∀ c ∈ text, isOrdinary c = true
  dense : ∀ c ∈ text, isSpace c = false

inductive DisplayName
  | absent
  | atoms (phrase : Text) (ordinary : ∀ c ∈ phrase, isOrdinary c = true)
  | quoted (content : Text) (noQuote : '"' ∉ content)

structure Mailbox where
  name : DisplayName
  address : Address

namespace DisplayName

def text : DisplayName → Text
  | absent => []
  | atoms phrase _ => trim phrase
  | quoted content _ => trim content

/-- No quoted bracket opens, and no line ends within the quotes. -/
def Legible : DisplayName → Prop
  | absent | atoms .. => True
  | quoted content _ => '<' ∉ content ∧ ¬ content.any isLineTerminator

end DisplayName

/-- The address in brackets. -/
def Address.bracketed (a : Address) : Text := '<' :: (a.text ++ ['>'])

def Mailbox.render (m : Mailbox) : Text :=
  match m.name with
  | .absent => m.address.text
  | .atoms phrase _ => phrase ++ ' ' :: m.address.bracketed
  | .quoted content _ => '"' :: (content ++ '"' :: ' ' :: m.address.bracketed)

/-! ## Spaces at the ends -/

section Trim

variable {s blank : Text}

theorem trim_append_left (spaces : ∀ c ∈ blank, isSpace c = true) :
    trim (blank ++ s) = trim s := by
  rw [trim, List.dropWhile_append_of_pos spaces, trim]

theorem trim_append_right (spaces : ∀ c ∈ blank, isSpace c = true) :
    trim (s ++ blank) = trim s := by
  have cut (s : Text) : (s ++ blank).rdropWhile isSpace = s.rdropWhile isSpace := by
    have spaces' : ∀ c ∈ blank.reverse, isSpace c = true := by simpa using spaces
    simp only [List.rdropWhile, List.reverse_append, List.dropWhile_append_of_pos spaces']
  rw [trim, List.dropWhile_append]
  split_ifs with empty
  · rw [trim, List.isEmpty_iff.mp empty, List.dropWhile_eq_nil_iff.mpr spaces]
  · rw [cut, trim]

theorem trim_dropWhile (s : Text) : trim (s.dropWhile isSpace) = trim s := by
  rw [trim, List.dropWhile_idempotent, trim]

theorem mem_of_mem_trim {c : Char} (mem : c ∈ trim s) : c ∈ s :=
  (List.dropWhile_suffix _).subset ((List.rdropWhile_prefix _ _).subset mem)

theorem trim_ne_nil {c : Char} (mem : c ∈ s) (printed : isSpace c = false) : trim s ≠ [] := by
  intro empty
  rw [trim, List.rdropWhile_eq_nil_iff] at empty
  have blank : s.dropWhile isSpace = [] := by
    cases front : s.dropWhile isSpace with
    | nil => rfl
    | cons d rest =>
      have head := List.head?_dropWhile_not isSpace s
      simp only [front, List.head?_cons] at head
      rw [empty d (by simp [front])] at head
      cases head
  rw [List.dropWhile_eq_nil_iff.mp blank c mem] at printed
  cases printed

end Trim

/-! ## One mailbox -/

theorem anglesFrom_none {c : Char} (ne : c ≠ '<') (rest : Text) :
    anglesFrom none (c :: rest) = anglesFrom none rest := by simp [anglesFrom, ne]

theorem anglesFrom_some {c : Char} (ordinary : isOrdinary c = true) (read rest : Text) :
    anglesFrom (some read) (c :: rest) = anglesFrom (some (read ++ [c])) rest := by
  simp only [isOrdinary, Bool.and_eq_true, decide_eq_true_eq] at ordinary
  simp [anglesFrom, ordinary]

theorem anglesFrom_append {before : Text} (none_open : '<' ∉ before) (rest : Text) :
    anglesFrom none (before ++ rest) = anglesFrom none rest := by
  induction before with
  | nil => rfl
  | cons c before ih =>
    obtain ⟨first, later⟩ := not_or.mp (List.mem_cons.not.mp none_open)
    rw [List.cons_append, anglesFrom_none (Ne.symm first), ih later]

theorem anglesFrom_body {body : Text} (ordinary : ∀ c ∈ body, isOrdinary c = true)
    (read rest : Text) :
    anglesFrom (some read) (body ++ rest) = anglesFrom (some (read ++ body)) rest := by
  induction body generalizing read with
  | nil => simp
  | cons c body ih =>
    obtain ⟨first, later⟩ := List.forall_mem_cons.mp ordinary
    rw [List.cons_append, anglesFrom_some first, ih later, List.append_assoc,
      List.singleton_append]

variable {a : Address} {before : Text}

theorem Address.ne_nil (a : Address) : a.text ≠ [] := List.ne_nil_of_mem a.hasAt

theorem Address.trimmed (a : Address) : Trimmed a.text where
  head c mem := a.dense c (List.mem_of_mem_head? mem)
  last c mem := a.dense c (List.mem_of_mem_getLast? mem)

/-- Brackets around an address are a match. -/
theorem anglesFrom_bracketed (rest : Text) :
    anglesFrom none (a.bracketed ++ rest) = a.text :: anglesFrom none rest := by
  have opened : anglesFrom none (a.bracketed ++ rest) =
      anglesFrom (some []) (a.text ++ '>' :: rest) := by
    simp [Address.bracketed, anglesFrom]
  rw [opened, anglesFrom_body a.ordinary, List.nil_append]
  obtain ⟨c, body, text⟩ := List.exists_cons_of_ne_nil a.ne_nil
  rw [text]
  simp [anglesFrom]

theorem trim_bracketed (before : Text) :
    trim (before ++ a.bracketed) = before.dropWhile isSpace ++ a.bracketed := by
  have front : a.bracketed.dropWhile isSpace = a.bracketed := rfl
  have whole : (before ++ a.bracketed).dropWhile isSpace =
      before.dropWhile isSpace ++ a.bracketed := by
    rw [List.dropWhile_append, front]
    split_ifs with empty
    · rw [List.isEmpty_iff.mp empty, List.nil_append]
    · rfl
  rw [trim, whole, Address.bracketed, ← List.cons_append, ← List.append_assoc]
  exact List.rdropWhile_concat_neg _ _ _ (by decide)

/-- The address stands behind the first bracket, and the name before it. -/
theorem parseFromHeader_bracketed (none_open : '<' ∉ before) :
    parseFromHeader (some (before ++ a.bracketed)) =
      some ⟨trim (unquote (trim before)), a.text⟩ := by
  have closed : '<' ∉ before.dropWhile isSpace := fun mem =>
    none_open ((List.dropWhile_suffix _).subset mem)
  have found : angles (trim (before ++ a.bracketed)) = [a.text] := by
    have match_ := anglesFrom_bracketed (a := a) []
    rw [trim_bracketed, angles, anglesFrom_append closed]
    rwa [List.append_nil] at match_
  have name : (trim (before ++ a.bracketed)).takeWhile (· ≠ '<') = before.dropWhile isSpace := by
    rw [trim_bracketed, List.takeWhile_append_of_pos, Address.bracketed,
      List.takeWhile_cons_of_neg (by simp), List.append_nil]
    intro c mem
    rw [decide_eq_true_eq]
    rintro rfl
    exact closed mem
  obtain ⟨c, rest, value⟩ := List.exists_cons_of_ne_nil
    (show before ++ a.bracketed ≠ [] by simp [Address.bracketed])
  rw [value] at found name ⊢
  simp only [parseFromHeader, found, name, trim_eq_self a.trimmed, if_pos a.hasAt, trim_dropWhile]

/-! ## Quoted names -/

section Quoted

variable {content : Text}

/-- A text that begins with a printed character keeps its beginning. -/
theorem trim_cons {c : Char} (printed : isSpace c = false) (s : Text) :
    ∃ rest, trim (c :: s) = c :: rest ∧ rest <+: s := by
  have front : (c :: s).dropWhile isSpace = c :: s := by simp [printed]
  have start : trim (c :: s) <+: c :: s := by
    rw [trim, front]
    exact List.rdropWhile_prefix _ _
  have ne : trim (c :: s) ≠ [] := by
    rw [trim, front, Ne, List.rdropWhile_eq_nil_iff]
    intro spaces
    rw [spaces c List.mem_cons_self] at printed
    cases printed
  obtain ⟨d, rest, eq⟩ := List.exists_cons_of_ne_nil ne
  rw [eq, List.cons_prefix_cons] at start
  obtain ⟨rfl, start⟩ := start
  exact ⟨rest, eq, start⟩

theorem unquote_quoted (content : Text) : unquote ('"' :: (content ++ ['"'])) =
    if content.any isLineTerminator then '"' :: (content ++ ['"']) else content := by
  simp only [unquote, List.getLast?_append, List.getLast?_singleton, Option.some_or,
    List.dropLast_concat, true_and, ite_not]

/-- A quote that is not closed stays. -/
theorem unquote_open (noQuote : '"' ∉ content) : unquote ('"' :: content) = '"' :: content := by
  refine if_neg fun both => noQuote ?_
  exact List.mem_of_mem_getLast? both.1

theorem trim_quoted (content : Text) :
    trim ('"' :: (content ++ ['"', ' '])) = '"' :: (content ++ ['"']) := by
  have split : '"' :: (content ++ ['"', ' ']) = ('"' :: (content ++ ['"'])) ++ [' '] := by simp
  have spaces : ∀ c ∈ [' '], isSpace c = true := forall_of_all (by decide)
  rw [split, trim_append_right spaces]
  refine trim_eq_self ⟨fun c mem => ?_, fun c mem => ?_⟩
  · obtain rfl := Option.some.inj mem
    rfl
  · rw [List.getLast?_cons, List.getLast?_append] at mem
    obtain rfl := Option.some.inj mem
    rfl

theorem trim_unquoted_ne (noQuote : '"' ∉ content) {name : Text} (mem : '"' ∈ name) :
    name ≠ trim content := by
  rintro rfl
  exact noQuote (mem_of_mem_trim mem)

/-- An open bracket in the quotes cuts the name before they close. -/
theorem quote_of_parseFromHeader (noQuote : '"' ∉ content) (opened : '<' ∈ content)
    {sender : ParsedSender}
    (parsed : parseFromHeader (some ('"' :: (content ++ ['"', ' ']) ++ a.bracketed)) = some sender) :
    '"' ∈ sender.displayName ∨ '"' ∈ sender.email := by
  obtain ⟨c₁, c₂, rfl, first⟩ := List.eq_append_cons_of_mem opened
  have value : trim ('"' :: (c₁ ++ '<' :: c₂ ++ ['"', ' ']) ++ a.bracketed) =
      '"' :: (c₁ ++ '<' :: (c₂ ++ ['"', ' '] ++ a.bracketed)) := by
    rw [trim_bracketed, List.dropWhile_cons_of_neg (by decide)]
    simp
  have name : ('"' :: (c₁ ++ '<' :: (c₂ ++ ['"', ' '] ++ a.bracketed))).takeWhile (· ≠ '<') =
      '"' :: c₁ := by
    rw [List.takeWhile_cons_of_pos (by decide), List.takeWhile_append_of_pos,
      List.takeWhile_cons_of_neg (by decide), List.append_nil]
    intro c mem
    rw [decide_eq_true_eq]
    rintro rfl
    exact first mem
  simp only [parseFromHeader, List.cons_append] at parsed value
  rw [value] at parsed
  split at parsed
  · obtain ⟨-, same⟩ := Option.ite_none_right_eq_some.mp parsed
    obtain rfl := Option.some.inj same
    obtain ⟨c, trimmed, start⟩ := trim_cons (c := '"') rfl c₁
    have noQuote' : '"' ∉ c := fun mem => noQuote (by simp [start.subset mem])
    obtain ⟨c', trimmed', -⟩ := trim_cons (c := '"') rfl c
    left
    rw [name, trimmed, unquote_open noQuote', trimmed']
    exact List.mem_cons_self
  · obtain ⟨-, same⟩ := Option.ite_none_right_eq_some.mp parsed
    obtain rfl := Option.some.inj same
    exact .inr List.mem_cons_self

end Quoted

theorem ne_of_ordinary {c : Char} (ordinary : isOrdinary c = true) :
    c ≠ '<' ∧ c ≠ '>' ∧ c ≠ '"' ∧ c ≠ ',' := by
  simpa [isOrdinary, and_assoc] using ordinary

theorem Address.noQuote (a : Address) : '"' ∉ a.text := fun mem =>
  (ne_of_ordinary (a.ordinary _ mem)).2.2.1 rfl

theorem parseFromHeader_address (a : Address) :
    parseFromHeader (some a.text) = some ⟨[], a.text⟩ := by
  have none_open : '<' ∉ a.text := fun mem => (ne_of_ordinary (a.ordinary _ mem)).1 rfl
  have found : angles a.text = [] := by
    have := anglesFrom_append none_open []
    rwa [List.append_nil] at this
  have trimmed := trim_eq_self a.trimmed
  obtain ⟨c, rest, value⟩ := List.exists_cons_of_ne_nil a.ne_nil
  have hasAt := a.hasAt
  rw [value] at found trimmed hasAt ⊢
  simp only [parseFromHeader, trimmed, found, if_pos hasAt]

theorem parseFromHeader_quoted {content : Text} (closed : '<' ∉ content) (a : Address) :
    parseFromHeader (some ('"' :: (content ++ ['"', ' ']) ++ a.bracketed)) =
      some ⟨trim (if content.any isLineTerminator then '"' :: (content ++ ['"']) else content),
        a.text⟩ := by
  rw [parseFromHeader_bracketed, trim_quoted, unquote_quoted]
  simp [closed]

/-- The address and the name are read exactly if the name is legible. -/
theorem parseFromHeader_render_iff (m : Mailbox) :
    parseFromHeader (some m.render) = some ⟨m.name.text, m.address.text⟩ ↔ m.name.Legible := by
  obtain ⟨name, a⟩ := m
  cases name with
  | absent => exact iff_of_true (parseFromHeader_address a) trivial
  | atoms phrase ordinary =>
    refine iff_of_true ?_ trivial
    have written : (Mailbox.mk (.atoms phrase ordinary) a).render =
        (phrase ++ [' ']) ++ a.bracketed := by simp [Mailbox.render]
    have none_open : '<' ∉ phrase ++ [' '] := by
      intro mem
      rcases List.mem_append.mp mem with mem | mem
      · exact (ne_of_ordinary (ordinary _ mem)).1 rfl
      · simp at mem
    have noQuote : '"' ∉ trim phrase := fun mem =>
      (ne_of_ordinary (ordinary _ (mem_of_mem_trim mem))).2.2.1 rfl
    have plain : unquote (trim phrase) = trim phrase := by
      unfold unquote
      split
      · next rest same => simp [same] at noQuote
      · rfl
    rw [written, parseFromHeader_bracketed none_open, trim_append_right (forall_of_all (by decide)),
      plain, trim_trim]
    rfl
  | quoted content noQuote =>
    have written : (Mailbox.mk (.quoted content noQuote) a).render =
        '"' :: (content ++ ['"', ' ']) ++ a.bracketed := by simp [Mailbox.render]
    rw [written]
    by_cases closed : '<' ∉ content
    · rw [parseFromHeader_quoted closed]
      by_cases lines : content.any isLineTerminator = true
      · refine iff_of_false (fun same => ?_) fun legible => legible.2 lines
        have name := congrArg ParsedSender.displayName (Option.some.inj same)
        rw [if_pos lines] at name
        obtain ⟨rest, trimmed, -⟩ := trim_cons (c := '"') rfl (content ++ ['"'])
        refine trim_unquoted_ne noQuote ?_ name
        simp [trimmed]
      · rw [if_neg lines]
        exact iff_of_true rfl ⟨closed, lines⟩
    · refine iff_of_false (fun parsed => ?_) fun legible => closed legible.1
      rcases quote_of_parseFromHeader noQuote (not_not.mp closed) parsed with mem | mem
      · exact trim_unquoted_ne noQuote mem rfl
      · exact a.noQuote mem

/-! ## A list of mailboxes -/

/-- A mailbox of a list, with the white space around it. -/
structure Entry where
  left : Text
  mailbox : Mailbox
  right : Text
  leftSpaces : ∀ c ∈ left, isSpace c = true
  rightSpaces : ∀ c ∈ right, isSpace c = true

def Entry.render (e : Entry) : Text := e.left ++ e.mailbox.render ++ e.right

/-- The mailboxes joined by commas. -/
def joined : List Entry → Text
  | [] => []
  | [e] => e.render
  | e :: rest => e.render ++ ',' :: joined rest

section Split

variable (out : List Text) (buf rest : Text)

theorem splitAddressListFrom_ordinary {s : Text} (ordinary : ∀ c ∈ s, isOrdinary c = true)
    (inQuote : Bool) (inAngle : ℕ) :
    splitAddressListFrom out buf inQuote inAngle (s ++ rest) =
      splitAddressListFrom out (buf ++ s) inQuote inAngle rest := by
  induction s generalizing buf with
  | nil => simp
  | cons c s ih =>
    obtain ⟨first, later⟩ := List.forall_mem_cons.mp ordinary
    have ne := ne_of_ordinary first
    simp [splitAddressListFrom, ne, ih _ later]

/-- Between quotes nothing is cut, and only an opening bracket is counted. -/
theorem splitAddressListFrom_quoted {s : Text} (noQuote : '"' ∉ s) (closed : '<' ∉ s) :
    splitAddressListFrom out buf true 0 (s ++ rest) =
      splitAddressListFrom out (buf ++ s) true 0 rest := by
  induction s generalizing buf with
  | nil => simp
  | cons c s ih =>
    simp only [List.mem_cons, not_or] at noQuote closed
    have := ih (buf ++ [c]) noQuote.2 closed.2
    by_cases close : c = '>'
    · subst close
      simpa [splitAddressListFrom] using this
    · simpa [splitAddressListFrom, Ne.symm noQuote.1, Ne.symm closed.1, close] using this

theorem splitAddressListFrom_bracketed :
    splitAddressListFrom out buf false 0 (a.bracketed ++ rest) =
      splitAddressListFrom out (buf ++ a.bracketed) false 0 rest := by
  have opened : splitAddressListFrom out buf false 0 (a.bracketed ++ rest) =
      splitAddressListFrom out (buf ++ ['<']) false 1 (a.text ++ '>' :: rest) := by
    simp [Address.bracketed, splitAddressListFrom]
  rw [opened, splitAddressListFrom_ordinary _ _ _ a.ordinary]
  simp [Address.bracketed, splitAddressListFrom]

theorem splitAddressListFrom_render {m : Mailbox} (legible : m.name.Legible) :
    splitAddressListFrom out buf false 0 (m.render ++ rest) =
      splitAddressListFrom out (buf ++ m.render) false 0 rest := by
  obtain ⟨name, a⟩ := m
  have spaced (buf : Text) : splitAddressListFrom out buf false 0 (' ' :: a.bracketed ++ rest) =
      splitAddressListFrom out (buf ++ ' ' :: a.bracketed) false 0 rest := by
    have := splitAddressListFrom_bracketed (a := a) out (buf ++ [' ']) rest
    simpa [splitAddressListFrom] using this
  cases name with
  | absent => exact splitAddressListFrom_ordinary out buf rest a.ordinary false 0
  | atoms phrase ordinary =>
    simp only [Mailbox.render, List.append_assoc]
    rw [splitAddressListFrom_ordinary _ _ _ ordinary, spaced, List.append_assoc]
  | quoted content noQuote =>
    have opened (s : Text) : splitAddressListFrom out buf false 0 ('"' :: s) =
        splitAddressListFrom out (buf ++ ['"']) true 0 s := by simp [splitAddressListFrom]
    have closes (buf s : Text) : splitAddressListFrom out buf true 0 ('"' :: s) =
        splitAddressListFrom out (buf ++ ['"']) false 0 s := by simp [splitAddressListFrom]
    simp only [Mailbox.render, List.cons_append, List.append_assoc] at spaced ⊢
    rw [opened, splitAddressListFrom_quoted _ _ _ noQuote legible.1, closes, spaced]
    simp

end Split

theorem ordinary_of_isSpace {c : Char} (space : isSpace c = true) : isOrdinary c = true := by
  have ne (d : Char) (printed : isSpace d = false) : c ≠ d := by
    rintro rfl
    rw [space] at printed
    cases printed
  simp [isOrdinary, ne '<' rfl, ne '>' rfl, ne '"' rfl, ne ',' rfl]

namespace Entry

variable (e : Entry)

theorem trim_render : trim e.render = trim e.mailbox.render := by
  rw [render, List.append_assoc, trim_append_left e.leftSpaces, trim_append_right e.rightSpaces]

theorem split_render (legible : e.mailbox.name.Legible) (out : List Text) (rest : Text) :
    splitAddressListFrom out [] false 0 (e.render ++ rest) =
      splitAddressListFrom out e.render false 0 rest := by
  have left := fun c mem => ordinary_of_isSpace (e.leftSpaces c mem)
  have right := fun c mem => ordinary_of_isSpace (e.rightSpaces c mem)
  simp only [render, List.append_assoc]
  rw [splitAddressListFrom_ordinary _ _ _ left, splitAddressListFrom_render _ _ _ legible,
    splitAddressListFrom_ordinary _ _ _ right]
  simp

end Entry

theorem Mailbox.trim_render_ne_nil (m : Mailbox) : trim m.render ≠ [] := by
  obtain ⟨name, a⟩ := m
  refine trim_ne_nil (c := '@') ?_ rfl
  have hasAt := a.hasAt
  cases name <;> simp [Mailbox.render, Address.bracketed, hasAt]

theorem parseFromHeader_trim {value : Text} (printed : trim value ≠ []) :
    parseFromHeader (some (trim value)) = parseFromHeader (some value) := by
  have ne : value ≠ [] := by
    rintro rfl
    exact printed rfl
  obtain ⟨c, rest, trimmed⟩ := List.exists_cons_of_ne_nil printed
  obtain ⟨d, rest', whole⟩ := List.exists_cons_of_ne_nil ne
  have again : trim (c :: rest) = c :: rest := by rw [← trimmed, trim_trim]
  rw [trimmed, whole]
  rw [whole] at trimmed
  simp only [parseFromHeader, again, trimmed]

/-- A list of legible mailboxes is cut at the commas between them. -/
theorem splitAddressList_joined {entries : List Entry}
    (legible : ∀ e ∈ entries, e.mailbox.name.Legible) (out : List Text) :
    splitAddressListFrom out [] false 0 (joined entries) =
      out ++ entries.map fun e => trim e.mailbox.render := by
  fun_induction joined entries generalizing out with
  | case1 => simp [splitAddressListFrom, trim]
  | case2 e =>
    have first := e.split_render (legible e List.mem_cons_self) out []
    rw [List.append_nil] at first
    rw [first]
    simp [splitAddressListFrom, e.trim_render, e.mailbox.trim_render_ne_nil]
  | case3 e rest more ih =>
    obtain ⟨first, later⟩ := List.forall_mem_cons.mp legible
    rw [e.split_render first]
    simp [splitAddressListFrom, e.trim_render, e.mailbox.trim_render_ne_nil, ih later]

/-- Each mailbox of a list is read, with its name and its address, and the list gives their
addresses, in lower case, each once and in the order of their first occurrences. -/
def ReadsRight (L : LowerCase) (entries : List Entry) : Prop :=
  (∀ e ∈ entries, parseFromHeader (some e.mailbox.render) =
      some ⟨e.mailbox.name.text, e.mailbox.address.text⟩) ∧
    parseRecipients L (some (joined entries)) =
      distinct (entries.map fun e => L.lower e.mailbox.address.text)

/-- Mailboxes are read right exactly if no quoted name opens a bracket or breaks a line. -/
theorem reads_right_iff (L : LowerCase) (entries : List Entry) :
    ReadsRight L entries ↔ ∀ e ∈ entries, e.mailbox.name.Legible := by
  refine ⟨fun reads e mem => (parseFromHeader_render_iff _).mp (reads.1 e mem), fun legible => ?_⟩
  have each (e : Entry) (mem : e ∈ entries) :=
    (parseFromHeader_render_iff e.mailbox).mpr (legible e mem)
  refine ⟨each, ?_⟩
  have pieces : splitAddressList (joined entries) =
      entries.map fun e => trim e.mailbox.render := splitAddressList_joined legible []
  simp only [parseRecipients, pieces, List.filterMap_map]
  congr 1
  rw [← List.filterMap_eq_map]
  refine List.filterMap_congr fun e mem => ?_
  have read := (parseFromHeader_trim e.mailbox.trim_render_ne_nil).trans (each e mem)
  simp [read, trim_eq_self e.mailbox.address.trimmed]

/-! ## An address in a name -/

def sampleAddress (s : String) (hasAt : '@' ∈ s.toList)
    (ordinary : ∀ c ∈ s.toList, isOrdinary c = true)
    (dense : ∀ c ∈ s.toList, isSpace c = false) : Address := ⟨s.toList, hasAt, ordinary, dense⟩

def bank : Address :=
  sampleAddress "service@bank.example" (by decide) (forall_of_all (by decide))
    (forall_of_all (by decide))

def ann : Address :=
  sampleAddress "ann@x.org" (by decide) (forall_of_all (by decide)) (forall_of_all (by decide))

/-- The name is an address in brackets. -/
def disguised : Mailbox where
  name := .quoted "<service@bank.example>".toList (by decide)
  address := sampleAddress "mallory@evil.example" (by decide) (forall_of_all (by decide))
    (forall_of_all (by decide))

/-- The name compares. -/
def comparing : Mailbox where
  name := .quoted "1 < 2".toList (by decide)
  address := bank

def entryOf (m : Mailbox) : Entry := ⟨[], m, [], by simp, by simp⟩

/-- Mail of `mallory@evil.example` is read as mail of the bank, and the recipient behind an
open bracket is lost. -/
theorem reads_wrong_sample :
    parseFromHeader (some disguised.render) = some ⟨['"'], "service@bank.example".toList⟩ ∧
      parseRecipients asciiLowerCase
          (some (joined [entryOf comparing, entryOf ⟨.absent, ann⟩])) =
        ["service@bank.example".toList] ∧
      ¬ ReadsRight asciiLowerCase [entryOf disguised] := by
  refine ⟨by decide, by decide, fun reads => ?_⟩
  have := reads.1 _ List.mem_cons_self
  revert this
  decide

end DeclutrMail.Sync
