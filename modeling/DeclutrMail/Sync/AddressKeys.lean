import DeclutrMail.Sync.Ingest
import DeclutrMail.Sync.MailboxLists

/-!
# Addresses in SQL

Migration 0063 normalises an address in SQL, so that the recipients of outbound mail are joined
with the senders without a digest (`recomputeWroteToCount`). `dm_normalize_email` finds the last
`@` in the reversed text, with positions that count from 1, and `normalizeEmail` with
`lastIndexOf`. On every text without white space at its ends they agree wherever the two lower
casings do (`dmNormalizeEmail_eq`), which they do on ASCII.
-/

namespace DeclutrMail.Sync.Ingest

open Text

/-! ## Text functions of PostgreSQL -/

namespace Sql

/-- Only the blank is removed. -/
def btrim (s : Text) : Text := (s.dropWhile (· = ' ')).rdropWhile (· = ' ')

/-- On ASCII. -/
def lower (s : Text) : Text := s.map Char.toLower

/-- The position of the first occurrence, counted from 1, or 0. -/
def strpos (s : Text) (c : Char) : ℤ := if c ∈ s then s.idxOf c + 1 else 0

/-- A negative count leaves out as many at the end. -/
def left (s : Text) (n : ℤ) : Text :=
  if 0 ≤ n then s.take n.toNat else s.take (s.length - n.natAbs)

def substr (s : Text) (start : ℤ) : Text := s.drop (start - 1).toNat

end Sql

open Sql in
def dmNormalizeEmail (raw : Text) : Text :=
  let l := lower (btrim raw)
  let at0 : ℤ :=
    if strpos l.reverse '@' = 0 then -1 else l.length - strpos l.reverse '@'
  if at0 ≤ 0 then l
  else
    let localPart := left l at0
    let domainPart := substr l (at0 + 1)
    if strpos localPart '+' - 1 ≤ 0 then l
    else left localPart (strpos localPart '+' - 1) ++ domainPart

example : dmNormalizeEmail " Ann+news@x@Shop.org".toList = "ann@shop.org".toList ∧
    dmNormalizeEmail "+a@b+c".toList = "+a@b+c".toList ∧
    dmNormalizeEmail "@b+c".toList = "@b+c".toList := by decide

namespace Sql

theorem strpos_eq_zero {s : Text} {c : Char} : strpos s c = 0 ↔ c ∉ s := by
  unfold strpos
  split_ifs with mem
  · refine iff_of_false ?_ (not_not.mpr mem)
    omega
  · exact iff_of_true rfl mem

theorem strpos_of_mem {s : Text} {c : Char} (mem : c ∈ s) : strpos s c - 1 = s.idxOf c := by
  rw [strpos, if_pos mem]
  omega

theorem left_natCast (s : Text) (n : ℕ) : left s n = s.take n := by simp [left]

theorem substr_succ (s : Text) (n : ℕ) : substr s ((n : ℤ) + 1) = s.drop n := by simp [substr]

/-- The last occurrence, seen from the end. -/
theorem strpos_reverse {before after : Text} {c : Char} (last : c ∉ after) :
    ((before ++ c :: after).length : ℤ) - strpos (before ++ c :: after).reverse c =
      before.length := by
  have turned : (before ++ c :: after).reverse = after.reverse ++ c :: before.reverse := by simp
  have first : c ∉ after.reverse := by simpa using last
  have found : (after.reverse ++ c :: before.reverse).idxOf c = after.length := by
    rw [List.idxOf_append_of_notMem first, List.idxOf_cons_self]
    simp
  rw [turned, strpos, if_pos (by simp), found, List.length_append, List.length_cons]
  omega

theorem take_idxOf (s : Text) (c : Char) : s.take (s.idxOf c) = s.takeWhile (· ≠ c) := by
  induction s with
  | nil => rfl
  | cons d s ih =>
    by_cases same : d = c
    · subst same
      simp
    · simp [List.idxOf_cons_ne _ same, same, ih]

theorem idxOf_eq_zero {s : Text} {c : Char} (mem : c ∈ s) : s.idxOf c = 0 ↔ s.head? = some c := by
  cases s with
  | nil => cases mem
  | cons d s => by_cases same : d = c <;> simp [same]

/-- No alias to strip: no `+`, or it begins the local part. -/
theorem strpos_plus_le {s : Text} : strpos s '+' - 1 ≤ 0 ↔ '+' ∉ s ∨ s.head? = some '+' := by
  by_cases mem : '+' ∈ s
  · rw [strpos_of_mem mem, ← idxOf_eq_zero mem]
    simp only [mem, not_true_eq_false, false_or]
    omega
  · rw [strpos_eq_zero.mpr mem]
    exact iff_of_true (by omega) (.inl mem)

theorem btrim_eq_self {s : Text} (h : Trimmed s) : btrim s = s := by
  have blank {c : Char} (printed : isSpace c = false) : ¬ (c = ' ') := by
    rintro rfl
    cases printed
  have front : s.dropWhile (· = ' ') = s := by
    cases s with
    | nil => rfl
    | cons c s => simp [blank (h.head c rfl)]
  rw [btrim, front, List.rdropWhile_eq_self_iff]
  intro ne
  simpa using blank (h.last _ (List.getLast?_eq_some_getLast ne))

end Sql

/-! ## Agreement -/

/-- The two normal forms agree wherever the two lower casings do. -/
theorem dmNormalizeEmail_eq (L : LowerCase) {s : Text} (trimmed : Trimmed s)
    (lowers : L.lower s = Sql.lower s) : dmNormalizeEmail s = normalizeEmail L s := by
  unfold dmNormalizeEmail normalizeEmail
  rw [trim_eq_self trimmed, Sql.btrim_eq_self trimmed, ← lowers]
  generalize L.lower s = l
  cases split : splitLast '@' l with
  | none =>
    have absent : Sql.strpos l.reverse '@' = 0 := by
      rw [Sql.strpos_eq_zero, List.mem_reverse]
      exact splitLast_eq_none.mp split
    simp only [absent, if_true, if_pos (show (-1 : ℤ) ≤ 0 by omega), split]
  | some parts =>
    obtain ⟨localPart, domain⟩ := parts
    obtain ⟨rfl, last⟩ := splitLast_eq_some split
    have there : ¬ Sql.strpos (localPart ++ '@' :: domain).reverse '@' = 0 := by
      simp [Sql.strpos_eq_zero]
    simp only [if_neg there, Sql.strpos_reverse last, split]
    cases localPart with
    | nil => rfl
    | cons c rest =>
      have inside : ¬ (((c :: rest).length : ℤ) ≤ 0) := by
        rw [List.length_cons]
        omega
      simp only [if_neg inside, Sql.left_natCast, Sql.substr_succ, List.take_left',
        List.drop_left', Sql.strpos_plus_le]
      split_ifs with plain
      · rfl
      · have mem : '+' ∈ c :: rest := not_not.mp (not_or.mp plain).1
        rw [Sql.strpos_of_mem mem, Sql.left_natCast, Sql.take_idxOf]

theorem trimmed_normalizeEmail (L : LowerCase) (s : Text) : Trimmed (normalizeEmail L s) := by
  have trimmed := trim_lower_trim L s
  cases split : splitLast '@' (L.lower (trim s)) with
  | none =>
    have same : normalizeEmail L s = L.lower (trim s) := by simp only [normalizeEmail, split]
    rwa [same]
  | some parts =>
    obtain ⟨localPart, domain⟩ := parts
    obtain ⟨lowered, last⟩ := splitLast_eq_some split
    obtain ⟨kept, normal, -, head, -⟩ := normalizeEmail_of_lower L lowered last
    rw [lowered] at trimmed
    rw [normal]
    refine ⟨fun c mem => trimmed.head c ?_, fun c mem => trimmed.last c ?_⟩
    · rwa [List.head?_append, head, ← List.head?_append] at mem
    · rw [List.getLast?_append] at mem ⊢
      exact mem

def IsAscii (s : Text) : Prop := ∀ c ∈ s, c.toNat < 128

instance (s : Text) : Decidable (IsAscii s) :=
  List.decidableBAll (fun c : Char => c.toNat < 128) s

/-- `toLowerCase` moves the 26 letters of ASCII, and no other character of it. -/
def LowersAscii (L : LowerCase) : Prop := ∀ s, IsAscii s → L.lower s = s.map Char.toLower

/-- The addresses that the columns `email` and `recipient_emails` hold. -/
inductive StoredAddress (L : LowerCase) : Text → Prop
  | sender {value : Option Text} {parsed : ParsedSender}
      (read : parseFromHeader value = some parsed) : StoredAddress L parsed.email
  | normal {value : Option Text} {parsed : ParsedSender}
      (read : parseFromHeader value = some parsed) : StoredAddress L (normalizeEmail L parsed.email)
  | recipient {value : Option Text} {address : Text} (read : address ∈ parseRecipients L value) :
      StoredAddress L address

theorem StoredAddress.trimmed {L : LowerCase} {s : Text} (stored : StoredAddress L s) : Trimmed s := by
  cases stored with
  | sender read => exact trimmed_of_parseFromHeader read
  | normal read => exact trimmed_normalizeEmail L _
  | @recipient value _ read =>
    cases value with
    | none => cases read
    | some value =>
      obtain ⟨piece, -, lowered⟩ := List.mem_filterMap.mp (Batches.mem_distinct.mp read)
      obtain ⟨parsed, -, rfl⟩ := Option.map_eq_some_iff.mp lowered
      exact trim_lower_trim L _

/-! ## The join -/

/-- The columns of `senders` that the recount reads and writes. -/
structure SenderRow where
  mailboxAccountId : String
  senderKey : Text
  email : Text
  wroteToCount : ℕ
  deriving DecidableEq

/-- The condition of the join on the two addresses. -/
def SenderRow.joins (s : SenderRow) (addr : Text) : Bool :=
  dmNormalizeEmail s.email = dmNormalizeEmail addr

section Recount

variable (messages : List MailMessage) (mailboxAccountId : String) (senderKeys : List Text)

/-- `sub.cnt` of the group of a key. -/
def credited (senders : List SenderRow) (key : Text) : ℕ :=
  messages.countP fun m =>
    m.mailboxAccountId = mailboxAccountId && m.isOutbound &&
      (m.recipientEmails.getD []).any fun addr => senders.any fun s₂ =>
        s₂.mailboxAccountId = m.mailboxAccountId && s₂.joins addr && s₂.senderKey ∈ senderKeys &&
          s₂.senderKey = key

/-- The first update. -/
def zeroed (s : SenderRow) : SenderRow :=
  if s.mailboxAccountId = mailboxAccountId ∧ s.senderKey ∈ senderKeys ∧ s.wroteToCount ≠ 0 then
    { s with wroteToCount := 0 }
  else s

def recomputeWroteToCount (senders : List SenderRow) : List SenderRow :=
  if senderKeys = [] then senders
  else
    -- Zero first: the second update reaches no sender without a group.
    let zeroed := senders.map (zeroed mailboxAccountId senderKeys)
    zeroed.map fun s =>
      if s.mailboxAccountId = mailboxAccountId ∧
          0 < credited messages mailboxAccountId senderKeys zeroed s.senderKey then
        { s with
          wroteToCount := credited messages mailboxAccountId senderKeys zeroed s.senderKey }
      else s

end Recount

section Laws

variable {messages : List MailMessage} {mailboxAccountId : String} {senderKeys : List Text}
  {senders : List SenderRow}

/-- The join reads no count. -/
theorem credited_congr {senders' : List SenderRow}
    (same : senders'.map (fun s => (s.mailboxAccountId, s.senderKey, s.email)) =
      senders.map fun s => (s.mailboxAccountId, s.senderKey, s.email)) (key : Text) :
    credited messages mailboxAccountId senderKeys senders' key =
      credited messages mailboxAccountId senderKeys senders key := by
  have any (p : String × Text × Text → Bool) :
      (senders'.any fun s => p (s.mailboxAccountId, s.senderKey, s.email)) =
        senders.any fun s => p (s.mailboxAccountId, s.senderKey, s.email) := by
    have (senders : List SenderRow) :
        (senders.any fun s => p (s.mailboxAccountId, s.senderKey, s.email)) =
          (senders.map fun s => (s.mailboxAccountId, s.senderKey, s.email)).any p := by
      rw [List.any_map]
      rfl
    rw [this, this, same]
  unfold credited
  congr 1
  funext m
  congr 2
  funext addr
  exact any fun (account, senderKey, email) => account = m.mailboxAccountId &&
    decide (dmNormalizeEmail email = dmNormalizeEmail addr) && senderKey ∈ senderKeys &&
      senderKey = key

theorem credited_of_notMem {key : Text} (out : key ∉ senderKeys) :
    credited messages mailboxAccountId senderKeys senders key = 0 := by
  rw [credited, List.countP_eq_zero]
  intro m _ counted
  simp only [Bool.and_eq_true, List.any_eq_true, decide_eq_true_eq] at counted
  obtain ⟨-, addr, -, s₂, -, ⟨-, within⟩, rfl⟩ := counted
  exact out within

theorem zeroed_identity (s : SenderRow) :
    (zeroed mailboxAccountId senderKeys s).mailboxAccountId = s.mailboxAccountId ∧
      (zeroed mailboxAccountId senderKeys s).senderKey = s.senderKey ∧
      (zeroed mailboxAccountId senderKeys s).email = s.email := by
  unfold zeroed
  split_ifs <;> exact ⟨rfl, rfl, rfl⟩

/-- Every sender in scope gets the count of its group, which may be empty, and no other row
changes. -/
theorem recomputeWroteToCount_eq :
    recomputeWroteToCount messages mailboxAccountId senderKeys senders =
      senders.map fun s =>
        if s.mailboxAccountId = mailboxAccountId ∧ s.senderKey ∈ senderKeys then
          { s with
            wroteToCount := credited messages mailboxAccountId senderKeys senders s.senderKey }
        else s := by
  unfold recomputeWroteToCount
  split_ifs with none
  · subst none
    simp
  have same : (senders.map (zeroed mailboxAccountId senderKeys)).map
      (fun s => (s.mailboxAccountId, s.senderKey, s.email)) =
        senders.map fun s => (s.mailboxAccountId, s.senderKey, s.email) := by
    rw [List.map_map]
    refine List.map_congr_left fun s _ => ?_
    obtain ⟨account, key, email⟩ := @zeroed_identity mailboxAccountId senderKeys s
    simp only [Function.comp_apply, account, key, email]
  simp only [credited_congr same, List.map_map]
  refine List.map_congr_left fun s _ => ?_
  obtain ⟨account, key, -⟩ := @zeroed_identity mailboxAccountId senderKeys s
  have out (outside : s.senderKey ∉ senderKeys) :
      credited messages mailboxAccountId senderKeys senders s.senderKey = 0 :=
    credited_of_notMem outside
  simp only [Function.comp_apply, account, key]
  generalize credited messages mailboxAccountId senderKeys senders s.senderKey = cnt at out ⊢
  unfold zeroed
  by_cases within : s.mailboxAccountId = mailboxAccountId ∧ s.senderKey ∈ senderKeys
  · rw [if_pos within]
    obtain ⟨account, key, email, count⟩ := s
    grind
  · grind

end Laws

/-- The digest does not send the two normal forms to one key unless they are equal. -/
def NoCollision (R : Runtime) (s t : Text) : Prop :=
  let preimage (email : Text) := "v1|".toList ++ normalizeEmail R.lowerCase email
  R.sha256Hex (preimage s) = R.sha256Hex (preimage t) → preimage s = preimage t

theorem deriveSenderKey_eq_iff {R : Runtime} {s t : Text} (apart : NoCollision R s t) :
    deriveSenderKey R s = deriveSenderKey R t ↔
      normalizeEmail R.lowerCase s = normalizeEmail R.lowerCase t :=
  ⟨fun same => List.append_cancel_left (apart same),
    fun same => by rw [deriveSenderKey, same, deriveSenderKey]⟩

/-- SQL and TypeScript normalise alike, once or twice, and two stored addresses join exactly if
they have one key. -/
theorem normalizations_agree (R : Runtime) (ascii : LowersAscii R.lowerCase) :
    (∀ s, IsAscii s → StoredAddress R.lowerCase s →
      dmNormalizeEmail s = normalizeEmail R.lowerCase s) ∧
    (∀ s, normalizeEmail R.lowerCase (normalizeEmail R.lowerCase s) =
      normalizeEmail R.lowerCase s) ∧
    ∀ (s : SenderRow) (addr : Text), IsAscii s.email → StoredAddress R.lowerCase s.email →
      IsAscii addr → StoredAddress R.lowerCase addr → NoCollision R s.email addr →
      (s.joins addr = true ↔ deriveSenderKey R s.email = deriveSenderKey R addr) := by
  have agree (s : Text) (letters : IsAscii s) (stored : StoredAddress R.lowerCase s) :
      dmNormalizeEmail s = normalizeEmail R.lowerCase s :=
    dmNormalizeEmail_eq _ stored.trimmed (ascii s letters)
  refine ⟨agree, normalizeEmail_idem _, fun s addr here stored there stored' apart => ?_⟩
  rw [SenderRow.joins, decide_eq_true_eq, agree _ here stored, agree _ there stored',
    deriveSenderKey_eq_iff apart]

theorem normalizations_agree_sample :
    (SenderRow.mk "box" [] "Ann+News@Shop.org".toList 0).joins "ann@shop.org".toList = true := by
  have sender : StoredAddress asciiLowerCase "Ann+News@Shop.org".toList :=
    @StoredAddress.sender _ (some "Ann <Ann+News@Shop.org>".toList)
      ⟨"Ann".toList, "Ann+News@Shop.org".toList⟩ (by decide)
  have recipient : StoredAddress asciiLowerCase "ann@shop.org".toList :=
    @StoredAddress.recipient _ (some "ann@shop.org".toList) _ (by decide)
  exact ((normalizations_agree sampleRuntime fun _ _ => rfl).2.2 ⟨"box", [], _, 0⟩ _ (by decide)
    sender (by decide) recipient fun _ => by decide).mpr (by decide)

/-! ## The recount -/

/-- The rows are keyed by their addresses, which are ASCII, and no two of them collide. -/
structure Keyed (R : Runtime) (mailboxAccountId : String) (messages : List MailMessage)
    (senders : List SenderRow) : Prop where
  key : ∀ s ∈ senders, s.mailboxAccountId = mailboxAccountId →
    s.senderKey = deriveSenderKey R s.email
  sender : ∀ s ∈ senders, IsAscii s.email ∧ StoredAddress R.lowerCase s.email
  recipient : ∀ m ∈ messages, ∀ addr ∈ m.recipientEmails.getD [],
    IsAscii addr ∧ StoredAddress R.lowerCase addr
  apart : ∀ s ∈ senders, ∀ m ∈ messages, ∀ addr ∈ m.recipientEmails.getD [],
    NoCollision R s.email addr

/-- A sender in scope is credited with the outbound messages that have a recipient of its key. -/
theorem credited_eq {R : Runtime} {mailboxAccountId : String} {messages : List MailMessage}
    {senders : List SenderRow} {senderKeys : List Text} {s : SenderRow}
    (ascii : LowersAscii R.lowerCase) (keyed : Keyed R mailboxAccountId messages senders)
    (here : s ∈ senders) (mine : s.mailboxAccountId = mailboxAccountId)
    (within : s.senderKey ∈ senderKeys) :
    credited messages mailboxAccountId senderKeys senders s.senderKey =
      messages.countP fun m => m.mailboxAccountId = mailboxAccountId && m.isOutbound &&
        (m.recipientEmails.getD []).any fun addr => deriveSenderKey R addr = s.senderKey := by
  have joins (s₂ : SenderRow) (there : s₂ ∈ senders) (m : MailMessage) (mem : m ∈ messages)
      (addr : Text) (told : addr ∈ m.recipientEmails.getD []) :
      s₂.joins addr = true ↔ deriveSenderKey R s₂.email = deriveSenderKey R addr := by
    obtain ⟨letters, stored⟩ := keyed.sender s₂ there
    obtain ⟨letters', stored'⟩ := keyed.recipient m mem addr told
    rw [SenderRow.joins, decide_eq_true_eq,
      dmNormalizeEmail_eq _ stored.trimmed (ascii _ letters),
      dmNormalizeEmail_eq _ stored'.trimmed (ascii _ letters'),
      deriveSenderKey_eq_iff (keyed.apart s₂ there m mem addr told)]
  refine List.countP_congr fun m mem => ?_
  simp only [Bool.and_eq_true, decide_eq_true_eq, List.any_eq_true]
  refine and_congr_right fun ⟨account, _⟩ => ⟨?_, ?_⟩
  · rintro ⟨addr, told, s₂, there, ⟨⟨mine₂, joined⟩, -⟩, same⟩
    refine ⟨addr, told, ?_⟩
    rw [← same, keyed.key s₂ there (mine₂.trans account)]
    exact ((joins s₂ there m mem addr told).mp joined).symm
  · rintro ⟨addr, told, same⟩
    refine ⟨addr, told, s, here, ⟨⟨mine.trans account.symm, ?_⟩, within⟩, rfl⟩
    rw [joins s here m mem addr told, ← keyed.key s here mine, same]

/-- The recount gives each sender in scope the number of outbound messages addressed to its key. -/
theorem recomputeWroteToCount_counts {R : Runtime} {mailboxAccountId : String}
    {messages : List MailMessage} {senders : List SenderRow} {senderKeys : List Text}
    (ascii : LowersAscii R.lowerCase) (keyed : Keyed R mailboxAccountId messages senders) :
    recomputeWroteToCount messages mailboxAccountId senderKeys senders =
      senders.map fun s =>
        if s.mailboxAccountId = mailboxAccountId ∧ s.senderKey ∈ senderKeys then
          { s with
            wroteToCount := messages.countP fun m =>
              m.mailboxAccountId = mailboxAccountId && m.isOutbound &&
                (m.recipientEmails.getD []).any fun addr =>
                  deriveSenderKey R addr = s.senderKey }
        else s := by
  rw [recomputeWroteToCount_eq]
  refine List.map_congr_left fun s here => ?_
  by_cases within : s.mailboxAccountId = mailboxAccountId ∧ s.senderKey ∈ senderKeys
  · rw [if_pos within, if_pos within, credited_eq ascii keyed here within.1 within.2]
  · rw [if_neg within, if_neg within]

end DeclutrMail.Sync.Ingest
