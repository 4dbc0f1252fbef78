import DeclutrMail.Sync.SenderIndex

/-!
# Agreement of the sender index

What the index says of a sender is a function of the evidence of its messages: the least
and greatest date, the count, the best channel. `Summary` holds of both computations, so
they agree for any order. The URL is that of the last arrival for the upsert
(`Carries.latest`), that of the first message in the scan among the newest for the fold
(`newest_cons_of_le`).
-/

namespace DeclutrMail.Sync.Ingest

/-- What one message says of its sender. -/
structure Evidence where
  date : ℤ
  oneClickUrl : Option Text
  mailtoUrl : Option Text

def evidence (row : MailMessage) : Evidence where
  date := row.internalDate
  oneClickUrl := if row.unsubscribeOneClick then row.unsubscribeUrl else none
  mailtoUrl := row.unsubscribeMailtoUrl

namespace Evidence

def url (e : Evidence) : UnsubscribeMethod → Option Text
  | .oneClick => e.oneClickUrl
  | .mailto => e.mailtoUrl
  | .none => none

def method (e : Evidence) : UnsubscribeMethod :=
  if e.oneClickUrl.isSome then .oneClick else if e.mailtoUrl.isSome then .mailto else .none

def dated (m : UnsubscribeMethod) (e : Evidence) : Option DatedUrl :=
  (e.url m).map (⟨·, e.date⟩)

end Evidence

theorem senderUnsub_eq (row : MailMessage) :
    senderUnsub row = ((evidence row).method, (evidence row).url (evidence row).method) := by
  unfold senderUnsub Evidence.method evidence
  cases row.unsubscribeOneClick <;> cases row.unsubscribeUrl <;>
    cases row.unsubscribeMailtoUrl <;> rfl

/-- The dates of messages. -/
def dates (es : List Evidence) : Set ℤ := {date | ∃ e ∈ es, e.date = date}

/-- The strongest channel of messages. -/
def bestMethod (es : List Evidence) : UnsubscribeMethod :=
  if es.any (·.oneClickUrl.isSome) then .oneClick
  else if es.any (·.mailtoUrl.isSome) then .mailto else .none

/-- The dated URLs of one channel. -/
def datedUrls (m : UnsubscribeMethod) (es : List Evidence) : List DatedUrl :=
  es.filterMap (Evidence.dated m)

theorem datedUrls_concat (m : UnsubscribeMethod) (es : List Evidence) (e : Evidence) :
    datedUrls m (es ++ [e]) = datedUrls m es ++ (e.dated m).toList := by
  cases h : e.dated m <;> simp [datedUrls, h]

theorem bestMethod_perm {es es' : List Evidence} (h : es.Perm es') :
    bestMethod es = bestMethod es' := by
  simp only [bestMethod, List.any_eq_true, h.mem_iff]

theorem dates_perm {es es' : List Evidence} (h : es.Perm es') : dates es = dates es' := by
  simp only [dates, h.mem_iff]

/-- One more message strengthens the method when its own channel is stronger. -/
theorem bestMethod_concat (es : List Evidence) (e : Evidence) :
    bestMethod (es ++ [e]) =
      if unsubRank (some e.method) > unsubRank (some (bestMethod es)) then e.method
      else bestMethod es := by
  unfold bestMethod Evidence.method
  simp only [List.any_append, List.any_cons, List.any_nil, Bool.or_false]
  cases es.any (·.oneClickUrl.isSome) <;> cases es.any (·.mailtoUrl.isSome) <;>
    cases e.oneClickUrl <;> cases e.mailtoUrl <;> rfl

theorem dated_eq_none {e : Evidence} {m : UnsubscribeMethod}
    (h : unsubRank (some e.method) < unsubRank (some m)) : e.dated m = none := by
  unfold Evidence.method at h
  cases m <;> cases found : e.oneClickUrl <;> cases found' : e.mailtoUrl <;>
    simp_all [unsubRank, Evidence.dated, Evidence.url]

theorem method_le_bestMethod {es : List Evidence} {e : Evidence} (mem : e ∈ es) :
    unsubRank (some e.method) ≤ unsubRank (some (bestMethod es)) := by
  obtain ⟨before, after, rfl⟩ := List.append_of_mem mem
  have perm : (before ++ e :: after).Perm ((before ++ after) ++ [e]) :=
    List.perm_middle.trans (List.perm_append_singleton _ _).symm
  rw [bestMethod_perm perm, bestMethod_concat]
  split
  · exact le_rfl
  · omega

/-- No message has a URL on a channel that is stronger than the best. -/
theorem datedUrls_eq_nil {es : List Evidence} {m : UnsubscribeMethod}
    (h : unsubRank (some (bestMethod es)) < unsubRank (some m)) : datedUrls m es = [] := by
  refine List.filterMap_eq_nil_iff.mpr fun e mem => dated_eq_none ?_
  have := method_le_bestMethod mem
  omega

theorem unsubRank_inj {m m' : UnsubscribeMethod} (h : unsubRank (some m) = unsubRank (some m')) :
    m = m' := by
  cases m <;> cases m' <;> simp_all [unsubRank]

theorem bestMethod_singleton (e : Evidence) : bestMethod [e] = e.method := by
  simp [bestMethod, Evidence.method]

/-- A message without a channel is the only one without a URL on its channel. -/
theorem url_method_eq_none {e : Evidence} : e.url e.method = none ↔ e.method = .none := by
  unfold Evidence.method
  cases h : e.oneClickUrl <;> cases h' : e.mailtoUrl <;> simp_all [Evidence.url]

@[simp] theorem datedUrls_none (es : List Evidence) : datedUrls .none es = [] := by
  simp [datedUrls, Evidence.dated, Evidence.url]

/-! ## The newest URL -/

/-- `newerUrl` over the URLs of a channel. -/
def newest (us : List DatedUrl) : Option DatedUrl :=
  us.foldl (fun found u => some (newerUrl found u.url u.date)) none

theorem newest_concat (us : List DatedUrl) (u : DatedUrl) :
    newest (us ++ [u]) = some (newerUrl (newest us) u.url u.date) := by
  simp [newest]

theorem newest_eq_none {us : List DatedUrl} : newest us = none ↔ us = [] := by
  induction us using List.reverseRecOn with
  | nil => simp [newest]
  | append_singleton us u _ => simp [newest_concat]

theorem newest_spec {us : List DatedUrl} {u : DatedUrl} (h : newest us = some u) :
    u ∈ us ∧ ∀ v ∈ us, v.date ≤ u.date := by
  induction us using List.reverseRecOn generalizing u with
  | nil => simp [newest] at h
  | append_singleton us v ih =>
    rw [newest_concat, Option.some.injEq] at h
    cases found : newest us with
    | none =>
      obtain rfl := newest_eq_none.mp found
      rw [found] at h
      obtain rfl : v = u := h
      simp
    | some w =>
      obtain ⟨mem, above⟩ := ih found
      rw [found, newerUrl] at h
      split at h
      · subst h
        grind
      · obtain rfl : v = u := h
        grind

/-- The incumbent stays when no URL is newer. -/
theorem newest_cons_of_le {us : List DatedUrl} {u : DatedUrl} (h : ∀ v ∈ us, v.date ≤ u.date) :
    newest (u :: us) = some u := by
  induction us using List.reverseRecOn with
  | nil => rfl
  | append_singleton us v ih =>
    have first : newest (u :: us) = some u := ih fun w mem => h w (by simp [mem])
    rw [← List.cons_append, newest_concat, first, newerUrl, if_pos (h v (by simp))]

/-! ## Summaries -/

/-- What the index says of the sender of messages. -/
structure Summary (es : List Evidence) (s : Sender) : Prop where
  first : IsLeast (dates es) s.firstSeenAt
  last : IsGreatest (dates es) s.lastSeenAt
  total : s.totalReceived = es.length
  method : s.unsubscribeMethod = some (bestMethod es)

/-- Which URL the upserts leave. -/
structure Carries (es : List Evidence) (s : Sender) : Prop where
  seen : ∀ date ∈ s.urlFrom, date ≤ s.lastSeenAt
  ranked : s.urlFrom.isSome = true → bestMethod es ≠ .none
  latest : es.Pairwise (·.date ≤ ·.date) →
    s.unsubscribeUrl = (datedUrls (bestMethod es) es).getLast?.map (·.url)

/-- Two summaries of the same messages, in any orders, agree. -/
theorem Summary.agree {es es' : List Evidence} {s s' : Sender} (h : Summary es s)
    (h' : Summary es' s') (perm : es.Perm es') :
    s.firstSeenAt = s'.firstSeenAt ∧ s.lastSeenAt = s'.lastSeenAt ∧
      s.totalReceived = s'.totalReceived ∧ s.unsubscribeMethod = s'.unsubscribeMethod := by
  have dates := dates_perm perm
  refine ⟨h.first.unique (dates ▸ h'.first), h.last.unique (dates ▸ h'.last), ?_, ?_⟩
  · rw [h.total, h'.total, perm.length_eq]
  · rw [h.method, h'.method, bestMethod_perm perm]

/-! ## The upsert -/

theorem isLeast_concat {es : List Evidence} {e : Evidence} {first : ℤ}
    (h : IsLeast (dates es) first) : IsLeast (dates (es ++ [e])) (min first e.date) := by
  obtain ⟨⟨f, mem, rfl⟩, below⟩ := h
  constructor
  · rcases le_total f.date e.date with le | le
    · exact ⟨f, by simp [mem], by rw [min_eq_left le]⟩
    · exact ⟨e, by simp, by rw [min_eq_right le]⟩
  · rintro _ ⟨g, mem', rfl⟩
    rcases List.mem_append.mp mem' with mem' | mem'
    · exact (min_le_left _ _).trans (below ⟨g, mem', rfl⟩)
    · rw [List.mem_singleton.mp mem']
      exact min_le_right _ _

theorem isGreatest_concat {es : List Evidence} {e : Evidence} {last : ℤ}
    (h : IsGreatest (dates es) last) : IsGreatest (dates (es ++ [e])) (max last e.date) := by
  obtain ⟨⟨f, mem, rfl⟩, above⟩ := h
  constructor
  · rcases le_total f.date e.date with le | le
    · exact ⟨e, by simp, by rw [max_eq_right le]⟩
    · exact ⟨f, by simp [mem], by rw [max_eq_left le]⟩
  · rintro _ ⟨g, mem', rfl⟩
    rcases List.mem_append.mp mem' with mem' | mem'
    · exact (above ⟨g, mem', rfl⟩).trans (le_max_left _ _)
    · rw [List.mem_singleton.mp mem']
      exact le_max_right _ _

/-- The identity that a message brings carries its date. -/
structure Dated (who : SenderIdentity) (row : MailMessage) : Prop where
  key : who.senderKey = row.senderKey
  first : who.firstSeenAt = row.internalDate
  last : who.lastSeenAt = row.internalDate

variable {who : SenderIdentity} {row : MailMessage} {es : List Evidence} {s : Sender}

theorem summary_start (h : Dated who row) :
    Summary [evidence row] (upsertSender who (senderUnsub row) none) where
  first := by
    simp [upsertSender, h.first, dates, evidence, IsLeast, lowerBounds]
  last := by
    simp [upsertSender, h.last, dates, evidence, IsGreatest, upperBounds]
  total := rfl
  method := by
    simp [upsertSender, senderUnsub_eq, bestMethod_singleton]

theorem summary_upsert (h : Dated who row) (summary : Summary es s) :
    Summary (es ++ [evidence row]) (upsertSender who (senderUnsub row) (some s)) where
  first := by
    have : who.firstSeenAt = (evidence row).date := h.first
    simpa only [upsertSender, this] using isLeast_concat summary.first
  last := by
    have : who.lastSeenAt = (evidence row).date := h.last
    simpa only [upsertSender, this] using isGreatest_concat summary.last
  total := by simp [upsertSender, summary.total]
  method := by
    simp only [upsertSender, senderUnsub_eq, summary.method, bestMethod_concat]
    split <;> rfl

theorem carries_start :
    Carries [evidence row] (upsertSender who (senderUnsub row) none) where
  seen date mem := by
    simp only [upsertSender, Option.mem_def, Option.map_eq_some_iff] at mem ⊢
    obtain ⟨_, -, rfl⟩ := mem
    exact le_rfl
  ranked some := by
    rw [bestMethod_singleton]
    intro absent
    have noUrl := url_method_eq_none.mpr absent
    simp [upsertSender, senderUnsub_eq, noUrl] at some
  latest _ := by
    simp [upsertSender, senderUnsub_eq, bestMethod_singleton, datedUrls, Evidence.dated]
    cases (evidence row).url (evidence row).method <;> rfl

/-- The URL that one more message leaves on the best channel when it is not older. -/
theorem latest_concat {e : Evidence} {url : Option Text}
    (latest : url = (datedUrls (bestMethod es) es).getLast?.map (·.url)) :
    (if unsubRank (some e.method) ≥ unsubRank (some (bestMethod es)) then e.url e.method
      else url) = (datedUrls (bestMethod (es ++ [e])) (es ++ [e])).getLast?.map (·.url) := by
  rw [datedUrls_concat, bestMethod_concat]
  rcases lt_trichotomy (unsubRank (some (bestMethod es))) (unsubRank (some e.method))
    with lt | eq | gt
  · rw [if_pos (le_of_lt lt), if_pos lt, datedUrls_eq_nil lt, Evidence.dated]
    cases e.url e.method <;> rfl
  · rw [if_pos (le_of_eq eq), if_neg (by omega), unsubRank_inj eq, Evidence.dated]
    cases found : e.url e.method with
    | none => simp [url_method_eq_none.mp found]
    | some u => simp
  · rw [if_neg (by omega), if_neg (by omega), dated_eq_none gt, latest]
    simp

theorem carries_upsert (h : Dated who row) (summary : Summary es s) (carries : Carries es s) :
    Carries (es ++ [evidence row]) (upsertSender who (senderUnsub row) (some s)) where
  seen date mem := by
    simp only [upsertSender, Option.mem_def] at mem ⊢
    split at mem
    · obtain ⟨_, -, rfl⟩ := Option.map_eq_some_iff.mp mem
      exact le_max_right _ _
    · exact (carries.seen date mem).trans (le_max_left _ _)
  ranked found := by
    rw [bestMethod_concat]
    simp only [upsertSender, senderUnsub_eq, summary.method] at found
    split at found
    case isTrue refresh =>
      intro absent
      have own : (evidence row).method = .none := by
        split at absent
        · exact absent
        · rw [← absent]
          exact unsubRank_inj (refresh.resolve_left ‹_›).1
      simp [url_method_eq_none.mpr own] at found
    case isFalse keep =>
      rw [if_neg fun gt => keep (.inl gt)]
      exact carries.ranked found
  latest sorted := by
    obtain ⟨before, -, older⟩ := List.pairwise_append.mp sorted
    obtain ⟨e, mem, last⟩ := summary.last.1
    have date : who.lastSeenAt = (evidence row).date := h.last
    have newer : who.lastSeenAt ≥ s.lastSeenAt := by
      rw [date, ← last]
      exact older e mem _ (by simp)
    rw [← latest_concat (carries.latest before)]
    simp only [upsertSender, senderUnsub_eq, summary.method, newer, and_true]
    congr 1
    grind

/-! ## The stored messages -/

/-- The rows of a sender, which are inbound. -/
def ofSender (key : Text) (rows : List MailMessage) : List MailMessage :=
  rows.filter fun row => !row.isOutbound && decide (row.senderKey = key)

def evidenceOf (key : Text) (rows : List MailMessage) : List Evidence :=
  (ofSender key rows).map evidence

@[simp] theorem evidenceOf_refresh (message : MailMessage) (rows : List MailMessage)
    (key : Text) : evidenceOf key (rows.map (refresh message)) = evidenceOf key rows := by
  have same row : (refresh message row).isOutbound = row.isOutbound ∧
      (refresh message row).senderKey = row.senderKey ∧
      evidence (refresh message row) = evidence row := by
    unfold refresh
    split <;> exact ⟨rfl, rfl, rfl⟩
  simp [evidenceOf, ofSender, List.filter_map, Function.comp_def, same]

theorem evidenceOf_concat_self {rows : List MailMessage} {message : MailMessage}
    (inbound : message.isOutbound = false) :
    evidenceOf message.senderKey (rows ++ [message]) =
      evidenceOf message.senderKey rows ++ [evidence message] := by
  simp [evidenceOf, ofSender, inbound]

theorem evidenceOf_concat_other {rows : List MailMessage} {message : MailMessage} {key : Text}
    (h : message.isOutbound = true ∨ message.senderKey ≠ key) :
    evidenceOf key (rows ++ [message]) = evidenceOf key rows := by
  rcases h with outbound | other
  · simp [evidenceOf, ofSender, outbound]
  · simp [evidenceOf, ofSender, other]

/-- What `handleMessageAdded` stores is mail; inbound mail comes with the identity of its
sender unless its `From` has no address. -/
structure Stored.Accepted (stored : Stored) : Prop where
  mail : isNonMail stored.message.labelIds = false
  anonymous : stored.sender = none →
    stored.message.isOutbound = true ∨ stored.message.senderKey = []
  identified : ∀ who ∈ stored.sender, stored.message.isOutbound = false ∧
    stored.message.senderKey ≠ [] ∧ Dated who stored.message

theorem deriveSenderKey_ne_nil (R : Runtime) (email : Text) : deriveSenderKey R email ≠ [] := by
  intro empty
  have := R.length_sha256Hex ("v1|".toList ++ normalizeEmail R.lowerCase email)
  rw [← deriveSenderKey, empty] at this
  contradiction

theorem accepted_of_handleMessageAdded {R : Runtime} {mailboxAccountId : String}
    {payload : GmailMessageMetadata} {stored : Stored}
    (h : handleMessageAdded R mailboxAccountId payload = some stored) : stored.Accepted := by
  simp only [handleMessageAdded, insertMessage_addedRow] at h
  split at h
  case isTrue => contradiction
  case isFalse notNonMail =>
    obtain ⟨message, inserted, rfl⟩ := Option.map_eq_some_iff.mp h
    split at inserted
    case isFalse => contradiction
    case isTrue =>
      obtain ⟨snippet, -, rfl⟩ := Option.map_eq_some_iff.mp inserted
      have mail : isNonMail payload.labelIds = false := by simpa using notNonMail
      by_cases outbound : "SENT" ∈ payload.labelIds
      · exact ⟨mail, fun _ => .inl (by simpa [MailMessage.setSnippet, addedRow] using outbound),
          by simp [outbound]⟩
      cases parse : parseFromHeader payload.sender with
      | none => exact ⟨mail, fun _ => .inr rfl, by simp [outbound]⟩
      | some parsed =>
        refine ⟨mail, by simp [outbound], fun who identified => ?_⟩
        obtain rfl : addedSender R mailboxAccountId payload (deriveSenderKey R parsed.email)
            parsed = who := by simpa [outbound] using identified
        refine ⟨by simpa [MailMessage.setSnippet, addedRow] using outbound, ?_, ⟨rfl, rfl, rfl⟩⟩
        exact deriveSenderKey_ne_nil R parsed.email

/-- What the index says of every sender follows from the messages it stores. -/
structure Indexes (messages : List MailMessage) (senders : Text → Option Sender) : Prop where
  mail : ∀ row ∈ messages, isNonMail row.labelIds = false
  unknown : ∀ key, senders key = none → key = [] ∨ evidenceOf key messages = []
  known : ∀ key s, senders key = some s → key ≠ [] ∧ s.senderKey = key ∧
    Summary (evidenceOf key messages) s ∧ Carries (evidenceOf key messages) s

namespace Indexes

variable {messages : List MailMessage} {senders : Text → Option Sender} {message : MailMessage}

theorem empty : Indexes [] fun _ => none where
  mail := by simp
  unknown _ _ := .inr rfl
  known _ _ h := by contradiction

theorem refresh (h : Indexes messages senders) (mail : isNonMail message.labelIds = false) :
    Indexes (messages.map (refresh message)) senders where
  mail row mem := by
    obtain ⟨old, stays, rfl⟩ := List.mem_map.mp mem
    unfold Ingest.refresh
    split
    · exact mail
    · exact h.mail old stays
  unknown key none := by simpa using h.unknown key none
  known key s some := by simpa using h.known key s some

theorem mail_concat (h : Indexes messages senders) (mail : isNonMail message.labelIds = false) :
    ∀ row ∈ messages ++ [message], isNonMail row.labelIds = false := by
  intro row mem
  rcases List.mem_append.mp mem with mem | mem
  · exact h.mail row mem
  · rwa [List.mem_singleton.mp mem]

/-- A message without a sender, whose key no sender has. -/
theorem add_anonymous (h : Indexes messages senders) (mail : isNonMail message.labelIds = false)
    (anonymous : message.isOutbound = true ∨ message.senderKey = []) :
    Indexes (messages ++ [message]) senders := by
  have same key (named : key ≠ []) :
      evidenceOf key (messages ++ [message]) = evidenceOf key messages :=
    evidenceOf_concat_other (anonymous.imp id fun unnamed eq => named (eq ▸ unnamed))
  refine ⟨h.mail_concat mail, fun key unknown => ?_, fun key s known => ?_⟩
  · by_cases named : key = []
    · exact .inl named
    · rw [same key named]
      exact h.unknown key unknown
  · rw [same key (h.known key s known).1]
    exact h.known key s known

/-- A message of a sender, with its upsert. -/
theorem add_identified {who : SenderIdentity} (h : Indexes messages senders)
    (mail : isNonMail message.labelIds = false) (inbound : message.isOutbound = false)
    (named : message.senderKey ≠ []) (dated : Dated who message) :
    Indexes (messages ++ [message]) (Function.update senders message.senderKey
      (some (upsertSender who (senderUnsub message) (senders message.senderKey)))) := by
  refine ⟨h.mail_concat mail, fun key unknown => ?_, fun key s known => ?_⟩
  · by_cases own : key = message.senderKey
    · simp [own] at unknown
    · rw [Function.update_of_ne own] at unknown
      rw [evidenceOf_concat_other (.inr (Ne.symm own))]
      exact h.unknown key unknown
  · by_cases own : key = message.senderKey
    · subst own
      rw [Function.update_self, Option.some.injEq] at known
      rw [evidenceOf_concat_self inbound, ← known]
      cases before : senders message.senderKey with
      | none =>
        rw [(h.unknown _ before).resolve_left named, List.nil_append]
        exact ⟨named, dated.key, summary_start dated, carries_start⟩
      | some current =>
        obtain ⟨-, key, summary, carries⟩ := h.known _ current before
        exact ⟨named, key, summary_upsert dated summary, carries_upsert dated summary carries⟩
    · rw [Function.update_of_ne own] at known
      rw [evidenceOf_concat_other (.inr (Ne.symm own))]
      exact h.known key s known

end Indexes

theorem Index.indexes_write {index : Index} (h : Indexes index.messages index.senders)
    {stored : Stored} (accepted : stored.Accepted) :
    Indexes (index.write stored).messages (index.write stored).senders := by
  unfold Index.write
  split
  case isTrue => exact h.refresh accepted.mail
  case isFalse =>
    dsimp only
    split
    case h_1 anonymous => exact h.add_anonymous accepted.mail (accepted.anonymous anonymous)
    case h_2 who identified =>
      obtain ⟨inbound, named, dated⟩ := accepted.identified who identified
      rw [dated.key]
      exact h.add_identified accepted.mail inbound named dated

theorem indexes_arrive {R : Runtime} {mailboxAccountId : String} {index : Index}
    (h : Indexes index.messages index.senders) (payload : GmailMessageMetadata) :
    Indexes (arrive R mailboxAccountId index payload).messages
      (arrive R mailboxAccountId index payload).senders := by
  unfold arrive
  split
  case h_1 => exact h
  case h_2 stored found => exact Index.indexes_write h (accepted_of_handleMessageAdded found)

theorem indexes_incremental (R : Runtime) (mailboxAccountId : String)
    (arrivals : List GmailMessageMetadata) :
    Indexes (incremental R mailboxAccountId arrivals).messages
      (incremental R mailboxAccountId arrivals).senders := by
  induction arrivals using List.reverseRecOn with
  | nil => exact Indexes.empty
  | append_singleton arrivals payload ih =>
    rw [incremental, List.foldl_concat]
    exact indexes_arrive ih payload

/-! ## The rebuild -/

/-- What the fold holds of the messages of one sender. -/
structure Aggregates (es : List Evidence) (agg : SenderAggregate) : Prop where
  first : IsLeast (dates es) agg.firstSeen
  last : IsGreatest (dates es) agg.lastSeen
  total : agg.totalReceived = es.length
  oneClick : agg.oneClickUrl = newest (datedUrls .oneClick es)
  mailto : agg.mailtoUrl = newest (datedUrls .mailto es)

/-- A URL of a channel, when the message has one, replaces what it is newer than. -/
theorem newest_datedUrls_concat (m : UnsubscribeMethod) (es : List Evidence) (e : Evidence) :
    newest (datedUrls m (es ++ [e])) =
      match e.url m with
      | some url => some (newerUrl (newest (datedUrls m es)) url e.date)
      | none => newest (datedUrls m es) := by
  rw [datedUrls_concat, Evidence.dated]
  cases e.url m with
  | none => simp
  | some url => exact newest_concat _ _

theorem aggregates_start (row : MailMessage) :
    Aggregates [evidence row] ((SenderAggregate.start row.internalDate).fold row) where
  first := by simp [SenderAggregate.fold, SenderAggregate.start, dates, evidence, IsLeast,
    lowerBounds]
  last := by simp [SenderAggregate.fold, SenderAggregate.start, dates, evidence, IsGreatest,
    upperBounds]
  total := rfl
  oneClick := by
    rw [← List.nil_append [evidence row], newest_datedUrls_concat]
    cases h : row.unsubscribeOneClick <;> cases h' : row.unsubscribeUrl <;>
      simp [SenderAggregate.fold, SenderAggregate.start, Evidence.url, evidence, h, h'] <;> rfl
  mailto := by
    rw [← List.nil_append [evidence row], newest_datedUrls_concat]
    cases h : row.unsubscribeMailtoUrl <;>
      simp [SenderAggregate.fold, SenderAggregate.start, Evidence.url, evidence, h] <;> rfl

theorem aggregates_fold {es : List Evidence} {agg : SenderAggregate} (h : Aggregates es agg)
    (row : MailMessage) : Aggregates (es ++ [evidence row]) (agg.fold row) where
  first := by
    have : (agg.fold row).firstSeen = min agg.firstSeen (evidence row).date := by
      simp only [SenderAggregate.fold, evidence]
      split <;> omega
    exact this ▸ isLeast_concat h.first
  last := by
    have : (agg.fold row).lastSeen = max agg.lastSeen (evidence row).date := by
      simp only [SenderAggregate.fold, evidence]
      split <;> omega
    exact this ▸ isGreatest_concat h.last
  total := by simp [SenderAggregate.fold, h.total]
  oneClick := by
    rw [newest_datedUrls_concat, ← h.oneClick]
    cases h : row.unsubscribeOneClick <;> cases h' : row.unsubscribeUrl <;>
      simp [SenderAggregate.fold, Evidence.url, evidence, h, h']
  mailto := by
    rw [newest_datedUrls_concat, ← h.mailto]
    cases h : row.unsubscribeMailtoUrl <;>
      simp [SenderAggregate.fold, Evidence.url, evidence, h]

/-- The aggregates of a scan of inbound messages are those of each sender's messages. -/
theorem foldl_foldMessage {scan : List MailMessage}
    (inbound : ∀ row ∈ scan, row.isOutbound = false) (key : Text) :
    (scan.foldl foldMessage (fun _ => none) key = none → evidenceOf key scan = []) ∧
      ∀ agg, scan.foldl foldMessage (fun _ => none) key = some agg →
        Aggregates (evidenceOf key scan) agg := by
  induction scan using List.reverseRecOn with
  | nil => simp [evidenceOf, ofSender]
  | append_singleton scan row ih =>
    obtain ⟨absent, present⟩ := ih fun row mem => inbound row (by simp [mem])
    have inboundRow := inbound row (by simp)
    rw [List.foldl_concat, foldMessage]
    by_cases own : key = row.senderKey
    · subst own
      rw [Function.update_self, evidenceOf_concat_self inboundRow]
      refine ⟨by simp, fun agg folded => ?_⟩
      rw [Option.some.injEq] at folded
      cases before : scan.foldl foldMessage (fun _ => none) row.senderKey with
      | none =>
        rw [before] at folded
        rw [absent before, ← folded]
        exact aggregates_start row
      | some agg' =>
        rw [before] at folded
        rw [← folded]
        exact aggregates_fold (present agg' before) row
    · rw [Function.update_of_ne own, evidenceOf_concat_other (.inr (Ne.symm own))]
      exact ⟨absent, present⟩

theorem isSome_newest_datedUrls (m : UnsubscribeMethod) (es : List Evidence) :
    (newest (datedUrls m es)).isSome = es.any fun e => (e.url m).isSome := by
  induction es using List.reverseRecOn with
  | nil => rfl
  | append_singleton es e ih =>
    rw [newest_datedUrls_concat, List.any_append, ← ih]
    cases found : e.url m <;> simp [found]

/-- What the rebuild derives is the best channel with its newest URL. -/
theorem deriveUnsubscribe_eq {es : List Evidence} {agg : SenderAggregate}
    (h : Aggregates es agg) :
    deriveUnsubscribe agg = (bestMethod es, newest (datedUrls (bestMethod es) es)) := by
  have oneClick := isSome_newest_datedUrls .oneClick es
  have mailto := isSome_newest_datedUrls .mailto es
  rw [← h.oneClick] at oneClick
  rw [← h.mailto] at mailto
  simp only [Evidence.url] at oneClick mailto
  simp only [deriveUnsubscribe, bestMethod, ← oneClick, ← mailto]
  cases found : agg.oneClickUrl with
  | some u => simp [← h.oneClick, found]
  | none =>
    cases found' : agg.mailtoUrl with
    | some u => simp [← h.mailto, found']
    | none => simp [newest]

theorem min?_dates {es : List Evidence} {first : ℤ} (h : IsLeast (dates es) first) :
    (es.map (·.date)).min? = some first := by
  obtain ⟨⟨e, mem, eq⟩, below⟩ := h
  refine List.min?_eq_some_iff.mpr ⟨List.mem_map.mpr ⟨e, mem, eq⟩, fun date listed => ?_⟩
  obtain ⟨f, mem', rfl⟩ := List.mem_map.mp listed
  exact below ⟨f, mem', rfl⟩

theorem max?_dates {es : List Evidence} {last : ℤ} (h : IsGreatest (dates es) last) :
    (es.map (·.date)).max? = some last := by
  obtain ⟨⟨e, mem, eq⟩, above⟩ := h
  refine List.max?_eq_some_iff.mpr ⟨List.mem_map.mpr ⟨e, mem, eq⟩, fun date listed => ?_⟩
  obtain ⟨f, mem', rfl⟩ := List.mem_map.mp listed
  exact above ⟨f, mem', rfl⟩

/-- The SQL pass writes the dates that the fold has found. -/
theorem seenPass_eq {scan : List MailMessage} (inbound : ∀ row ∈ scan, row.isOutbound = false)
    {s : Sender} (first : IsLeast (dates (evidenceOf s.senderKey scan)) s.firstSeenAt)
    (last : IsGreatest (dates (evidenceOf s.senderKey scan)) s.lastSeenAt) :
    seenPass scan s = s := by
  have scanned : (scan.filter fun row => row.senderKey = s.senderKey).map (·.internalDate) =
      (evidenceOf s.senderKey scan).map (·.date) := by
    rw [evidenceOf, List.map_map]
    refine congrArg _ (List.filter_congr fun row mem => ?_)
    rw [inbound row mem]
    rfl
  rw [seenPass, scanned, min?_dates first, max?_dates last]
  rfl

/-- A rebuilt row summarises the sender's messages, with the newest URL of its channel. -/
theorem buildSenderIndex_spec {R : Runtime} {identity : Text → Option Sender}
    {scan : List MailMessage} (inbound : ∀ row ∈ scan, row.isOutbound = false) {key : Text}
    {who : Sender} (known : identity key = some who) (own : who.senderKey = key)
    (mail : evidenceOf key scan ≠ []) :
    ∃ s, buildSenderIndex R identity scan key = some s ∧ Summary (evidenceOf key scan) s ∧
      s.unsubscribeUrl =
        (newest (datedUrls (bestMethod (evidenceOf key scan)) (evidenceOf key scan))).map
          (·.url) := by
  obtain ⟨absent, present⟩ := foldl_foldMessage inbound key
  cases folded : scan.foldl foldMessage (fun _ => none) key with
  | none => exact absurd (absent folded) mail
  | some agg =>
    have aggregates := present agg folded
    have unsub := deriveUnsubscribe_eq aggregates
    subst own
    have seen : seenPass scan (rebuiltSender R agg who) = rebuiltSender R agg who :=
      seenPass_eq inbound aggregates.first aggregates.last
    refine ⟨rebuiltSender R agg who, ?_, ⟨aggregates.first, aggregates.last, aggregates.total, ?_⟩,
      ?_⟩
    · rw [buildSenderIndex, folded, known]
      exact congrArg some seen
    · simp [rebuiltSender, unsub]
    · simp [rebuiltSender, unsub]

/-! ## Agreement -/

/-- The columns that do not depend on any order. -/
def SameTotals (s s' : Sender) : Prop :=
  s.firstSeenAt = s'.firstSeenAt ∧ s.lastSeenAt = s'.lastSeenAt ∧
    s.totalReceived = s'.totalReceived ∧ s.unsubscribeMethod = s'.unsubscribeMethod

/-- The sender's messages arrived in the order of their dates. -/
def InDateOrder (index : Index) (key : Text) : Prop :=
  (ofSender key index.messages).Pairwise (·.internalDate ≤ ·.internalDate)

/-- The dated URLs of the sender's channel, in the order of arrival. -/
def channelUrls (index : Index) (key : Text) : List DatedUrl :=
  let es := evidenceOf key index.messages
  datedUrls (bestMethod es) es

/-- No URL of the list is newer. -/
def Newest (us : List DatedUrl) (u : DatedUrl) : Prop := u ∈ us ∧ ∀ v ∈ us, v.date ≤ u.date

/-- The sender's newest messages on its channel have one URL. -/
def OneUrl (index : Index) (key : Text) : Prop :=
  ∀ u u', Newest (channelUrls index key) u → Newest (channelUrls index key) u' → u.url = u'.url

/-- The method is at least as strong, and on the same channel the URL is not from an older
message. -/
structure Grows (s s' : Sender) : Prop where
  method : unsubRank s.unsubscribeMethod ≤ unsubRank s'.unsubscribeMethod
  url : unsubRank s.unsubscribeMethod = unsubRank s'.unsubscribeMethod →
    ∀ date ∈ s.urlFrom, ∃ date' ∈ s'.urlFrom, date ≤ date'

theorem Grows.refl (s : Sender) : Grows s s := ⟨le_rfl, fun _ date mem => ⟨date, mem, le_rfl⟩⟩

theorem Grows.trans {s s' s'' : Sender} (h : Grows s s') (h' : Grows s' s'') : Grows s s'' where
  method := h.method.trans h'.method
  url same date mem := by
    have first := h.method
    have second := h'.method
    obtain ⟨date', mem', le⟩ := h.url (by omega) date mem
    obtain ⟨date'', mem'', le'⟩ := h'.url (by omega) date' mem'
    exact ⟨date'', mem'', le.trans le'⟩

theorem grows_upsert (summary : Summary es s) (carries : Carries es s) :
    Grows s (upsertSender who (senderUnsub row) (some s)) where
  method := by
    simp only [upsertSender]
    split <;> omega
  url same date mem := by
    simp only [upsertSender, senderUnsub_eq, summary.method] at same ⊢
    split
    case isFalse => exact ⟨date, mem, le_rfl⟩
    case isTrue refresh =>
      rcases refresh with stronger | ⟨equal, newer⟩
      · rw [if_pos stronger] at same
        omega
      · have channel : (evidence row).method ≠ .none := by
          rw [unsubRank_inj equal]
          exact carries.ranked (Option.isSome_of_mem mem)
        obtain ⟨url, found⟩ := Option.ne_none_iff_exists'.mp fun absent =>
          channel (url_method_eq_none.mp absent)
        exact ⟨who.lastSeenAt, by simp [found], (carries.seen date mem).trans newer⟩

/-- The rebuild of the mailbox agrees with what the arrivals left, and on the way there the
method never weakens nor the stored URL gets older. -/
structure IndexAgrees (R : Runtime) (mailboxAccountId : String)
    (arrivals : List GmailMessageMetadata) : Prop where
  totals : let index := incremental R mailboxAccountId arrivals
    ∀ scan, index.IsScan scan → ∀ key,
      Option.Rel SameTotals (index.senders key) (buildSenderIndex R index.senders scan key)
  url : let index := incremental R mailboxAccountId arrivals
    ∀ key, InDateOrder index key → ∀ scan, index.IsScan scan →
      (index.senders key).map (·.unsubscribeUrl) =
        (buildSenderIndex R index.senders scan key).map (·.unsubscribeUrl)
  grows : ∀ earlier later, arrivals = earlier ++ later →
    ∀ key s, (incremental R mailboxAccountId earlier).senders key = some s →
      ∃ s', (incremental R mailboxAccountId arrivals).senders key = some s' ∧ Grows s s'

section
variable {R : Runtime} {index : Index} (h : Indexes index.messages index.senders)
include h

/-- A scan meets the sender's messages in some order. -/
theorem evidenceOf_perm {scan : List MailMessage} (isScan : index.IsScan scan) (key : Text) :
    (evidenceOf key scan).Perm (evidenceOf key index.messages) := by
  have purged : index.purged = index.messages :=
    List.filter_eq_self.mpr fun row mem => by simp [h.mail row mem]
  rw [Index.IsScan, purged] at isScan
  have perm := (isScan.filter fun row => !row.isOutbound && decide (row.senderKey = key)).map
    evidence
  rw [List.filter_filter] at perm
  refine perm.trans (List.Perm.of_eq (congrArg _ (List.filter_congr fun row _ => ?_)))
  cases row.isOutbound <;> simp

omit h in
theorem inbound_of_isScan {scan : List MailMessage} (isScan : index.IsScan scan) :
    ∀ row ∈ scan, row.isOutbound = false := by
  intro row mem
  have := (List.mem_filter.mp (isScan.mem_iff.mp mem)).2
  simpa using this

/-- The rebuild of a sender that the upserts know. -/
theorem rebuild_of_known {scan : List MailMessage} (isScan : index.IsScan scan) {key : Text}
    {s : Sender} (known : index.senders key = some s) :
    ∃ s' us, buildSenderIndex R index.senders scan key = some s' ∧ SameTotals s s' ∧
      us = datedUrls (bestMethod (evidenceOf key index.messages)) (evidenceOf key scan) ∧
      us.Perm (channelUrls index key) ∧ s'.unsubscribeUrl = (newest us).map (·.url) := by
  obtain ⟨-, own, summary, -⟩ := h.known key s known
  have perm := evidenceOf_perm h isScan key
  have mail : evidenceOf key scan ≠ [] := by
    intro nothing
    rw [nothing] at perm
    obtain ⟨e, mem, -⟩ := summary.first.1
    simp [perm.symm.eq_nil] at mem
  obtain ⟨s', built, summary', url⟩ :=
    buildSenderIndex_spec (R := R) (inbound_of_isScan isScan) known own mail
  rw [bestMethod_perm perm] at url
  exact ⟨s', _, built, summary.agree summary' perm.symm, rfl, perm.filterMap _, url⟩

omit h in
/-- A sender without a row gets none. -/
theorem rebuild_of_unknown {scan : List MailMessage} {key : Text}
    (unknown : index.senders key = none) :
    buildSenderIndex R index.senders scan key = none := by
  rw [buildSenderIndex, unknown]
  split <;> first | rfl | contradiction

theorem totals_agree {scan : List MailMessage} (isScan : index.IsScan scan) (key : Text) :
    Option.Rel SameTotals (index.senders key) (buildSenderIndex R index.senders scan key) := by
  cases known : index.senders key with
  | none =>
    rw [rebuild_of_unknown known]
    exact .none
  | some s =>
    obtain ⟨s', _, built, same, -⟩ := rebuild_of_known h isScan known
    rw [built]
    exact .some same

/-- Any of the sender's messages can be the first that a scan meets. -/
theorem exists_scan {key : Text} {e : Evidence} (mem : e ∈ evidenceOf key index.messages) :
    ∃ scan rest, index.IsScan scan ∧ evidenceOf key scan = e :: rest := by
  obtain ⟨row, ofKey, rfl⟩ := List.mem_map.mp mem
  obtain ⟨stored, own⟩ := List.mem_filter.mp ofKey
  have inbound : row.isOutbound = false ∧ row.senderKey = key := by simpa using own
  have listed : row ∈ index.purged.filter fun row => ¬ row.isOutbound := by
    simp [Index.purged, stored, h.mail row stored, inbound.1]
  exact ⟨_, _, (List.perm_cons_erase listed).symm, by
    rw [evidenceOf, ofSender, List.filter_cons, if_pos own, List.map_cons]⟩

/-- Each newest URL is what the rebuild takes when the scan meets its message first. -/
theorem url_of_newest {key : Text} {s : Sender} (known : index.senders key = some s)
    (agree : ∀ scan, index.IsScan scan → (index.senders key).map (·.unsubscribeUrl) =
      (buildSenderIndex R index.senders scan key).map (·.unsubscribeUrl))
    {u : DatedUrl} (newestUrl : Newest (channelUrls index key) u) :
    s.unsubscribeUrl = some u.url := by
  obtain ⟨e, mem, dated⟩ := List.mem_filterMap.mp newestUrl.1
  obtain ⟨scan, rest, isScan, first⟩ := exists_scan h mem
  obtain ⟨s', us, built, -, scanned, perm, url⟩ := rebuild_of_known (R := R) h isScan known
  have head : us = u :: datedUrls (bestMethod (evidenceOf key index.messages)) rest := by
    rw [scanned, first]
    exact List.filterMap_cons_some dated
  have same := agree scan isScan
  rw [known, built, Option.map_some, Option.map_some, Option.some.injEq, url, head,
    newest_cons_of_le] at same
  · exact same
  · intro v mem
    exact newestUrl.2 v (perm.subset (head ▸ List.mem_cons_of_mem u mem))

/-- In date order the upserts leave one of the newest URLs. -/
theorem newest_of_upserts {key : Text} {s : Sender} (known : index.senders key = some s)
    (order : InDateOrder index key) :
    (channelUrls index key = [] ∧ s.unsubscribeUrl = none) ∨
      ∃ u, Newest (channelUrls index key) u ∧ s.unsubscribeUrl = some u.url := by
  have sorted : (evidenceOf key index.messages).Pairwise (·.date ≤ ·.date) :=
    List.pairwise_map.mpr order
  have sortedUrls : (channelUrls index key).Pairwise (·.date ≤ ·.date) := by
    refine sorted.filterMap _ fun e e' le u dated u' dated' => ?_
    obtain ⟨_, -, rfl⟩ := Option.map_eq_some_iff.mp dated
    obtain ⟨_, -, rfl⟩ := Option.map_eq_some_iff.mp dated'
    exact le
  have url : s.unsubscribeUrl = (channelUrls index key).getLast?.map (·.url) :=
    (h.known key s known).2.2.2.latest sorted
  rcases List.eq_nil_or_concat (channelUrls index key) with nothing | ⟨before, u, split⟩
  · exact .inl ⟨nothing, by rw [url, nothing]; rfl⟩
  · rw [List.concat_eq_append] at split
    rw [split] at sortedUrls url ⊢
    refine .inr ⟨u, ⟨by simp, fun v mem => ?_⟩, by simpa using url⟩
    rcases List.mem_append.mp mem with mem | mem
    · exact (List.pairwise_append.mp sortedUrls).2.2 v mem u (by simp)
    · rw [List.mem_singleton.mp mem]

/-- In date order the upserts leave the URL of the last message on the channel, and the
rebuild takes one of the newest, the first of them in its scan. -/
theorem urls_agree_iff {key : Text} {s : Sender} (known : index.senders key = some s)
    (order : InDateOrder index key) :
    (∀ scan, index.IsScan scan → (index.senders key).map (·.unsubscribeUrl) =
      (buildSenderIndex R index.senders scan key).map (·.unsubscribeUrl)) ↔
      OneUrl index key := by
  constructor
  · intro agree u u' newestUrl newestUrl'
    have first := url_of_newest h known agree newestUrl
    have second := url_of_newest h known agree newestUrl'
    exact Option.some.inj (first.symm.trans second)
  · intro one scan isScan
    obtain ⟨s', us, built, -, -, perm, url⟩ := rebuild_of_known (R := R) h isScan known
    rw [known, built, Option.map_some, Option.map_some, Option.some.injEq, url]
    rcases newest_of_upserts h known order with ⟨nothing, url'⟩ | ⟨u, newestUrl, url'⟩
    · rw [nothing] at perm
      rw [url', perm.eq_nil]
      rfl
    · cases found : newest us with
      | none =>
        have := newestUrl.1
        rw [newest_eq_none.mp found] at perm
        simp [← perm.nil_eq] at this
      | some v =>
        obtain ⟨mem, above⟩ := newest_spec found
        have newestUrl' : Newest (channelUrls index key) v :=
          ⟨perm.subset mem, fun w mem => above w (perm.symm.subset mem)⟩
        rw [url', Option.map_some, one u v newestUrl newestUrl']

/-- No record shrinks what the index says of a sender. -/
theorem grows_write (stored : Stored) {key : Text} {s : Sender}
    (known : index.senders key = some s) :
    ∃ s', (index.write stored).senders key = some s' ∧ Grows s s' := by
  unfold Index.write
  split
  case isTrue => exact ⟨s, known, .refl s⟩
  case isFalse =>
    dsimp only
    split
    case h_1 => exact ⟨s, known, .refl s⟩
    case h_2 who _ =>
      by_cases own : key = who.senderKey
      · obtain ⟨-, -, summary, carries⟩ := h.known key s known
        subst own
        refine ⟨upsertSender who (senderUnsub stored.message) (some s), ?_,
          grows_upsert summary carries⟩
        exact (Function.update_self _ _ _).trans (by rw [known])
      · exact ⟨s, (Function.update_of_ne own _ _).trans known, .refl s⟩

end

theorem grows_incremental (R : Runtime) (mailboxAccountId : String)
    (earlier later : List GmailMessageMetadata) {key : Text} {s : Sender}
    (known : (incremental R mailboxAccountId earlier).senders key = some s) :
    ∃ s', (incremental R mailboxAccountId (earlier ++ later)).senders key = some s' ∧
      Grows s s' := by
  induction later using List.reverseRecOn with
  | nil => exact ⟨s, by rwa [List.append_nil], .refl s⟩
  | append_singleton later payload ih =>
    obtain ⟨s', known', grows⟩ := ih
    have h := indexes_incremental R mailboxAccountId (earlier ++ later)
    rw [← List.append_assoc, incremental, List.foldl_concat, ← incremental, arrive]
    split
    case h_1 => exact ⟨s', known', grows⟩
    case h_2 stored _ =>
      obtain ⟨s'', known'', grows'⟩ := grows_write h stored known'
      exact ⟨s'', known'', grows.trans grows'⟩

/-- The rebuild agrees with the upserts exactly when each sender whose messages arrived in
date order has one URL among its newest messages. -/
theorem indexAgrees_iff (R : Runtime) (mailboxAccountId : String)
    (arrivals : List GmailMessageMetadata) :
    IndexAgrees R mailboxAccountId arrivals ↔
      ∀ key s, (incremental R mailboxAccountId arrivals).senders key = some s →
        InDateOrder (incremental R mailboxAccountId arrivals) key →
        OneUrl (incremental R mailboxAccountId arrivals) key := by
  have h := indexes_incremental R mailboxAccountId arrivals
  constructor
  · intro agrees key s known order
    exact (urls_agree_iff h known order).mp (agrees.url key order)
  · intro one
    refine ⟨fun scan isScan key => totals_agree h isScan key, fun key order => ?_, ?_⟩
    · cases known : (incremental R mailboxAccountId arrivals).senders key with
      | none =>
        intro scan _
        rw [rebuild_of_unknown known]
      | some s =>
        rw [← known]
        exact (urls_agree_iff h known order).mpr (one key s known order)
    · rintro earlier later rfl key s known
      exact grows_incremental R mailboxAccountId earlier later known

/-- Two messages of one date, each with a one-click URL of its own. -/
def sampleOneClick (id url : String) : GmailMessageMetadata :=
  { sampleMessage "shop@x.org" with
    id
    listUnsubscribe := some url.toList
    listUnsubscribePost := some "List-Unsubscribe=One-Click".toList }

def sampleArrivals : List GmailMessageMetadata :=
  [sampleOneClick "a" "<https://x.org/1>", sampleOneClick "b" "<https://x.org/2>"]

/-- The upserts leave the URL of the last of them, and the rebuild keeps the one it meets
first. -/
theorem not_indexAgrees_sample : ¬ IndexAgrees sampleRuntime "box" sampleArrivals := by
  intro agrees
  have same := agrees.url (deriveSenderKey sampleRuntime "shop@x.org".toList)
    (by unfold InDateOrder; decide +kernel)
    ((incremental sampleRuntime "box" sampleArrivals).purged.filter fun row => ¬ row.isOutbound)
    (List.Perm.refl _)
  revert same
  decide +kernel

end DeclutrMail.Sync.Ingest
