import DeclutrMail.Collections.Batches
import DeclutrMail.Text.Strings

/-!
# Mail headers

The parsers of the header values that a sync reads: the address of `From` with the key
that a sender has, the recipients of `To` and `Cc`, the channels of `List-Unsubscribe`.
A sender's address is normalised once or twice, with the same key (`normalizeEmail_idem`)
and the same domain (`emailDomain_normalizeEmail`).
-/

namespace DeclutrMail.Sync

open Batches Text

/-! ## Angle brackets -/

/-- Every match of `/<([^<>]+)>/g`, with the text since the last `<` in `current`. -/
def anglesFrom : Option Text → Text → List Text
  | _, [] => []
  | current, c :: rest =>
    if c = '<' then anglesFrom (some []) rest
    else if c = '>' then
      match current with
      | some (x :: found) => (x :: found) :: anglesFrom none rest
      | _ => anglesFrom none rest
    else anglesFrom (current.map (· ++ [c])) rest

def angles (value : Text) : List Text := anglesFrom none value

/-! ## Addresses -/

structure ParsedSender where
  displayName : Text
  email : Text
  deriving DecidableEq

def isLineTerminator (c : Char) : Bool :=
  c = '\n' || c = '\r' || c.toNat = 0x2028 || c.toNat = 0x2029

/-- `.replace(/^"(.*)"$/, '$1')` -/
def unquote (name : Text) : Text :=
  match name with
  | '"' :: rest =>
    if rest.getLast? = some '"' ∧ ¬ rest.dropLast.any isLineTerminator then rest.dropLast else name
  | _ => name

def parseFromHeader (value : Option Text) : Option ParsedSender :=
  match value with
  | none | some [] => none
  | some value =>
    let trimmed := trim value
    match angles trimmed with
    | found :: _ =>
      let email := trim found
      if '@' ∈ email then
        some ⟨trim (unquote (trim (trimmed.takeWhile (· ≠ '<')))), email⟩
      else none
    | [] => if '@' ∈ trimmed then some ⟨[], trimmed⟩ else none

theorem trimmed_of_parseFromHeader {value : Option Text} {sender : ParsedSender}
    (h : parseFromHeader value = some sender) : Trimmed sender.email := by
  unfold parseFromHeader at h
  split at h
  case h_1 => contradiction
  case h_2 => contradiction
  case h_3 value _ _ =>
    dsimp only at h
    split at h
    · simp only [Option.ite_none_right_eq_some, Option.some.injEq] at h
      exact h.2 ▸ trimmed_trim _
    · simp only [Option.ite_none_right_eq_some, Option.some.injEq] at h
      exact h.2 ▸ trimmed_trim _

section
variable (L : LowerCase)

def normalizeEmail (raw : Text) : Text :=
  let lowered := L.lower (trim raw)
  match splitLast '@' lowered with
  | none | some ([], _) => lowered
  | some (localPart, domain) =>
    -- `plus <= 0`
    if '+' ∉ localPart ∨ localPart.head? = some '+' then lowered
    else localPart.takeWhile (· ≠ '+') ++ '@' :: domain

def emailDomain (email : Text) : Text :=
  match splitLast '@' email with
  | none => []
  | some (_, domain) => L.lower (trim domain)

/-- What is left of the local part starts as it does, and has no alias to strip. -/
theorem normalizeEmail_of_lower {raw localPart domain : Text}
    (lowered : L.lower (trim raw) = localPart ++ '@' :: domain) (last : '@' ∉ domain) :
    ∃ kept, normalizeEmail L raw = kept ++ '@' :: domain ∧ kept <+: localPart ∧
      kept.head? = localPart.head? ∧ ('+' ∉ kept ∨ kept.head? = some '+') := by
  have split : splitLast '@' (L.lower (trim raw)) = some (localPart, domain) := by
    rw [lowered, splitLast_append last]
  cases localPart with
  | nil =>
    refine ⟨[], ?_, List.prefix_refl _, rfl, by simp⟩
    simp only [normalizeEmail, split]
    exact lowered
  | cons c rest =>
    by_cases plain : '+' ∉ c :: rest ∨ (c :: rest).head? = some '+'
    · refine ⟨c :: rest, ?_, List.prefix_refl _, rfl, plain⟩
      simp only [normalizeEmail, split]
      rw [if_pos plain, lowered]
    · refine ⟨(c :: rest).takeWhile (· ≠ '+'), ?_, List.takeWhile_prefix _, ?_, .inl ?_⟩
      · simp only [normalizeEmail, split]
        rw [if_neg plain]
      · have : c ≠ '+' := fun h => plain (.inr (by simp [h]))
        simp [this]
      · intro mem
        simpa using List.mem_takeWhile_imp mem

theorem normalizeEmail_of_no_at {raw : Text} (h : '@' ∉ trim raw) :
    normalizeEmail L raw = L.lower (trim raw) := by
  have : splitLast '@' (L.lower (trim raw)) = none :=
    splitLast_eq_none.mpr fun mem => h (L.at_of_mem_lower _ mem)
  simp [normalizeEmail, this]

/-- An address in lower case without an alias is normal. -/
theorem normalizeEmail_eq_self {localPart domain : Text} (last : '@' ∉ domain)
    (trimmed : Trimmed (localPart ++ '@' :: domain))
    (lower : L.lower (localPart ++ '@' :: domain) = localPart ++ '@' :: domain)
    (stripped : '+' ∉ localPart ∨ localPart.head? = some '+') :
    normalizeEmail L (localPart ++ '@' :: domain) = localPart ++ '@' :: domain := by
  have lowered : L.lower (trim (localPart ++ '@' :: domain)) = localPart ++ '@' :: domain := by
    rw [trim_eq_self trimmed, lower]
  cases localPart with
  | nil => simp only [normalizeEmail, lowered, splitLast_append last]
  | cons c rest =>
    simp only [normalizeEmail, lowered, splitLast_append last]
    rw [if_pos stripped]

theorem trim_lower_trim (s : Text) : Trimmed (L.lower (trim s)) := by
  rw [← L.trim_lower]
  exact trimmed_trim _

/-- The key derived from a normalised address is the key derived from the address. -/
theorem normalizeEmail_idem (raw : Text) :
    normalizeEmail L (normalizeEmail L raw) = normalizeEmail L raw := by
  have trimmed := trim_lower_trim L raw
  cases split : splitLast '@' (L.lower (trim raw)) with
  | none =>
    have noAt : normalizeEmail L raw = L.lower (trim raw) := by simp [normalizeEmail, split]
    rw [noAt, normalizeEmail_of_no_at L, trim_eq_self trimmed, L.lower_lower]
    rw [trim_eq_self trimmed]
    exact splitLast_eq_none.mp split
  | some parts =>
    obtain ⟨localPart, domain⟩ := parts
    obtain ⟨lowered, last⟩ := splitLast_eq_some split
    obtain ⟨kept, normal, start, head, stripped⟩ := normalizeEmail_of_lower L lowered last
    have lowerStart : ∀ t, t <+: localPart → L.lower t = t := fun t h =>
      L.lower_of_isPrefix _ _ (h.trans ⟨_, lowered.symm⟩)
    have lowerDomain : L.lower domain = domain := by
      have := L.lower_lower (trim raw)
      rw [lowered, L.lower_append, lowerStart _ (List.prefix_refl _)] at this
      exact (List.cons.inj (List.append_cancel_left this)).2
    rw [normal]
    refine normalizeEmail_eq_self L last ⟨?_, ?_⟩ ?_ stripped
    · have := trimmed.head
      rw [lowered, List.head?_append] at this
      rwa [List.head?_append, head]
    · have := trimmed.last
      rw [lowered, List.getLast?_append] at this
      rwa [List.getLast?_append]
    · rw [L.lower_append, lowerStart _ start, lowerDomain]

theorem emailDomain_normalizeEmail {email : Text} (h : Trimmed email) :
    emailDomain L (normalizeEmail L email) = emailDomain L email := by
  cases split : splitLast '@' email with
  | none =>
    have noAt := splitLast_eq_none.mp split
    rw [normalizeEmail_of_no_at L (by rwa [trim_eq_self h]), trim_eq_self h]
    have : splitLast '@' (L.lower email) = none :=
      splitLast_eq_none.mpr fun mem => noAt (L.at_of_mem_lower _ mem)
    simp [emailDomain, split, this]
  | some parts =>
    obtain ⟨localPart, domain⟩ := parts
    obtain ⟨rfl, last⟩ := splitLast_eq_some split
    have lowered : L.lower (trim (localPart ++ '@' :: domain)) =
        L.lower localPart ++ '@' :: L.lower domain := by
      rw [trim_eq_self h, L.lower_append]
    have last' : '@' ∉ L.lower domain := fun mem => last (L.at_of_mem_lower _ mem)
    obtain ⟨kept, normal, -⟩ := normalizeEmail_of_lower L lowered last'
    rw [normal, emailDomain, emailDomain, splitLast_append last', splitLast_append last]
    dsimp only
    rw [L.trim_lower, L.lower_lower]

/-- The pieces of a list of addresses, cut at each comma outside quotes and brackets. -/
def splitAddressListFrom (out : List Text) (buf : Text) (inQuote : Bool) (inAngle : ℕ) :
    Text → List Text
  | [] => if trim buf = [] then out else out ++ [trim buf]
  | ch :: value =>
    if ch = '"' then splitAddressListFrom out (buf ++ [ch]) (!inQuote) inAngle value
    else if ch = '<' then splitAddressListFrom out (buf ++ [ch]) inQuote (inAngle + 1) value
    else if ch = '>' then splitAddressListFrom out (buf ++ [ch]) inQuote (inAngle - 1) value
    else if ch = ',' ∧ inQuote = false ∧ inAngle = 0 then
      splitAddressListFrom (if trim buf = [] then out else out ++ [trim buf]) [] inQuote inAngle
        value
    else splitAddressListFrom out (buf ++ [ch]) inQuote inAngle value

def splitAddressList (value : Text) : List Text := splitAddressListFrom [] [] false 0 value

def parseRecipients (headerValue : Option Text) : List Text :=
  match headerValue with
  | none => []
  | some value =>
    distinct ((splitAddressList value).filterMap fun piece =>
      (parseFromHeader (some piece)).map fun parsed => L.lower (trim parsed.email))

end

/-! ## Unsubscribe channels -/

structure UnsubscribeChannels where
  httpsUrl : Option Text
  mailtoUrl : Option Text
  oneClick : Bool
  deriving DecidableEq

/-- `scheme` in lower case, compared without case. -/
def hasScheme (scheme : String) (url : Text) : Bool :=
  scheme.toList.isPrefixOf (url.map Char.toLower)

def mentionsOneClick (value : Text) : Bool :=
  decide ("one-click".toList <:+: value.map Char.toLower)

def extractBracketedUrls (value : Text) : List Text := ((angles value).map trim).filter (· ≠ [])

def parseListUnsubscribe (headerValue postHeaderValue : Option Text) : UnsubscribeChannels :=
  match headerValue with
  | none => ⟨none, none, false⟩
  | some value =>
    let urls := extractBracketedUrls value
    let httpsUrl := urls.find? (hasScheme "https:")
    let mailtoUrl := urls.find? (hasScheme "mailto:")
    ⟨httpsUrl, mailtoUrl, httpsUrl.isSome && postHeaderValue.any mentionsOneClick⟩

end DeclutrMail.Sync
