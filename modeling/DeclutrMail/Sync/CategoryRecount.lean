import DeclutrMail.Collections.Tally
import DeclutrMail.Sync.SenderIndex

/-!
# The tab of a sender, in two languages

The rebuild folds the labels of a sender's messages into a map of counts and scans it for a
majority (`senderGmailCategory`). The sweep recounts a whole mailbox in one statement
(`reconcileSenderCategories`). Both find the tab that more than half of the labelled messages carry.
-/

namespace DeclutrMail.Sync.Ingest.Recount

open Tally

/-! ## The fold -/

/-- `categoryCounts` of the rebuild, after some messages. -/
def countCategory (counts : InsertionMap GmailCategory ℕ) (row : MailMessage) :
    InsertionMap GmailCategory ℕ :=
  match messageGmailCategory row.labelIds with
  | some category => counts.set category ((counts.get category).getD 0 + 1)
  | none => counts

def categoryCounts (rows : List MailMessage) : InsertionMap GmailCategory ℕ :=
  rows.foldl countCategory .empty

/-- The tab of more than half of the labelled messages: the first entry that outweighs the rest. -/
def senderGmailCategory (counts : InsertionMap GmailCategory ℕ) : GmailCategory :=
  (majority counts).getD .unknown

/-! ## The statement -/

/-- `CASE WHEN label = ANY(m.label_ids) THEN category … END` -/
def perMessage : List (Label × GmailCategory) → List Label → Option GmailCategory
  | [], _ => none
  | (label, category) :: whens, labelIds =>
    if labelIds.any (label == ·) then some category else perMessage whens labelIds

section Recount

variable (messages : List MailMessage) (mailboxAccountId : String)

def inbound : List MailMessage :=
  messages.filter fun m => m.mailboxAccountId = mailboxAccountId ∧ m.isOutbound = false

/-- The rows of `labelled` with a category -/
def labelled : List (Text × GmailCategory) :=
  (inbound messages mailboxAccountId).filterMap fun m =>
    (perMessage categoryLabels m.labelIds).map fun category => (m.senderKey, category)

/-- The row of `target` for a sender, once for each row of `majority` that it joins. -/
def targetOf (majority : List (Text × GmailCategory)) (s : Sender) :
    List (Text × GmailCategory) :=
  let joined := majority.filter (·.1 = s.senderKey)
  if joined.isEmpty then [(s.senderKey, .unknown)] else joined

def target (senders : List Sender) : List (Text × GmailCategory) :=
  (senders.filter (·.mailboxAccountId = mailboxAccountId)).flatMap
    (targetOf (majorities (labelled messages mailboxAccountId)))

/-- The row of `target` that updates a sender. -/
def update (senders : List Sender) (s : Sender) : Option (Text × GmailCategory) :=
  if s.mailboxAccountId = mailboxAccountId then
    (target messages mailboxAccountId senders).find? fun t =>
      s.senderKey = t.1 ∧ s.gmailCategory ≠ t.2
  else none

def setCategory (s : Sender) (category : GmailCategory) : Sender :=
  { s with gmailCategory := category }

structure Result where
  senders : List Sender
  /-- The keys of the senders whose category changed -/
  changed : List Text

def reconcileSenderCategories (senders : List Sender) : Result where
  senders := senders.map fun s =>
    match update messages mailboxAccountId senders s with
    | some t => setCategory s t.2
    | none => s
  changed := (senders.filter fun s => (update messages mailboxAccountId senders s).isSome).map
    (·.senderKey)

end Recount

/-! ## The same rule -/

theorem perMessage_eq (whens : List (Label × GmailCategory)) (labelIds : List Label) :
    perMessage whens labelIds =
      (whens.find? fun entry => decide (entry.1 ∈ labelIds)).map Prod.snd := by
  induction whens with
  | nil => rfl
  | cons entry whens ih =>
    obtain ⟨label, category⟩ := entry
    have same : labelIds.any (label == ·) = decide (label ∈ labelIds) := by
      rw [List.any_beq, List.contains_eq_mem]
    rw [perMessage, ih, same, List.find?_cons]
    cases decide (label ∈ labelIds) <;> rfl

/-- The tabs of some messages, as far as they have one. -/
def tabs (rows : List MailMessage) : List GmailCategory :=
  rows.filterMap fun row => messageGmailCategory row.labelIds

theorem categoryCounts_eq (rows : List MailMessage) : categoryCounts rows = tally (tabs rows) := by
  rw [categoryCounts, tally, tabs, List.foldl_filterMap]
  refine congrFun (congrFun (congrArg _ (funext fun counts => funext fun row => ?_)) _) _
  rw [countCategory]
  cases messageGmailCategory row.labelIds <;> rfl

/-- The fold finds the majority of the tabs, in any order of the messages. -/
theorem senderGmailCategory_categoryCounts {rows rows' : List MailMessage}
    (same : rows.Perm rows') {winner : Option GmailCategory} (wins : Wins (tabs rows') winner) :
    senderGmailCategory (categoryCounts rows) = winner.getD .unknown := by
  have scanned := (wins_majority (tabs rows)).perm (same.filterMap _)
  rw [senderGmailCategory, categoryCounts_eq, scanned.unique wins]

theorem ne_unknown_of_mem_tabs {rows : List MailMessage} {category : GmailCategory}
    (here : category ∈ tabs rows) : category ≠ .unknown := by
  obtain ⟨row, -, tab⟩ := List.mem_filterMap.mp here
  obtain ⟨entry, found, rfl⟩ := Option.map_eq_some_iff.mp tab
  have all : ∀ entry ∈ categoryLabels, entry.2 ≠ .unknown := by decide
  exact all entry (List.mem_of_find?_eq_some found)

theorem sum_count {items : List GmailCategory} (labelled : ∀ category ∈ items, category ≠ .unknown) :
    ((categoryLabels.map Prod.snd).map items.count).sum = items.length := by
  induction items with
  | nil => rfl
  | cons category items ih =>
    have rest := ih fun category here => labelled category (List.mem_cons_of_mem _ here)
    have this := labelled category List.mem_cons_self
    cases category <;> simp_all [categoryLabels, List.count_cons] <;> omega

/-- The scan in the order of the map finds what the scan in the order of the labels finds. -/
theorem senderGmailCategory_eq (rows : List MailMessage) :
    senderGmailCategory (categoryCounts rows) = Ingest.senderGmailCategory (tabs rows).count := by
  have labelled : ∀ category ∈ tabs rows, category ≠ .unknown := fun _ => ne_unknown_of_mem_tabs
  have covered (category : GmailCategory) (most : IsMajority (tabs rows) category) :
      category ∈ categoryLabels.map Prod.snd := by
    have this := labelled category most.mem
    cases category <;> simp_all [categoryLabels]
  rw [senderGmailCategory_categoryCounts (List.Perm.refl _) (wins_find? covered),
    Ingest.senderGmailCategory, sum_count labelled]

variable {messages : List MailMessage} {mailboxAccountId : String}

def messagesOf (messages : List MailMessage) (mailboxAccountId : String) (key : Text) :
    List MailMessage := (inbound messages mailboxAccountId).filter (·.senderKey = key)

theorem under_labelled (key : Text) : under (labelled messages mailboxAccountId) key =
    tabs (messagesOf messages mailboxAccountId key) := by
  unfold messagesOf labelled
  induction inbound messages mailboxAccountId with
  | nil => rfl
  | cons m ms ih =>
    have read : perMessage categoryLabels m.labelIds = messageGmailCategory m.labelIds :=
      perMessage_eq _ _
    unfold under tabs at ih ⊢
    cases tab : messageGmailCategory m.labelIds with
    | none =>
      by_cases here : m.senderKey = key <;> simp [read, tab, here, ih]
    | some category =>
      by_cases here : m.senderKey = key <;> simp [read, tab, here, ih]

/-- A sender joins one row of `target`, that of its majority. -/
theorem mem_targetOf {rows : List (Text × GmailCategory)} {s : Sender}
    {winner : Option GmailCategory} (wins : Wins (under rows s.senderKey) winner)
    (t : Text × GmailCategory) :
    t ∈ targetOf (majorities rows) s ↔ t = (s.senderKey, winner.getD .unknown) := by
  obtain ⟨key, category⟩ := t
  have joins : (key, category) ∈ (majorities rows).filter (·.1 = s.senderKey) ↔
      key = s.senderKey ∧ winner = some category := by
    rw [List.mem_filter, decide_eq_true_iff, and_comm]
    refine and_congr_right fun here => ?_
    obtain rfl : key = s.senderKey := here
    rw [mem_majorities]
    exact (wins category).symm
  unfold targetOf
  cases winner with
  | none =>
    have empty : (majorities rows).filter (·.1 = s.senderKey) = [] := by
      refine List.eq_nil_iff_forall_not_mem.mpr fun ⟨key', category'⟩ here => ?_
      obtain ⟨most, keyed⟩ := List.mem_filter.mp here
      obtain rfl : key' = s.senderKey := of_decide_eq_true keyed
      exact nomatch (wins category').mpr (mem_majorities.mp most)
    rw [empty]
    simp
  | some found =>
    have there : (s.senderKey, found) ∈ (majorities rows).filter (·.1 = s.senderKey) :=
      List.mem_filter.mpr ⟨mem_majorities.mpr ((wins found).mp rfl), decide_eq_true rfl⟩
    rw [if_neg fun none => by simp [List.isEmpty_iff.mp none] at there, joins]
    simp [eq_comm]

section Rule

variable {winner : Text → Option GmailCategory}
  (wins : ∀ key, Wins (tabs (messagesOf messages mailboxAccountId key)) (winner key))
include wins

theorem mem_target {senders : List Sender} {t : Text × GmailCategory} :
    t ∈ target messages mailboxAccountId senders ↔
      ∃ s ∈ senders, s.mailboxAccountId = mailboxAccountId ∧
        t = (s.senderKey, (winner s.senderKey).getD .unknown) := by
  have joins (s : Sender) : t ∈ targetOf (majorities (labelled messages mailboxAccountId)) s ↔
      t = (s.senderKey, (winner s.senderKey).getD .unknown) :=
    mem_targetOf (by rw [under_labelled]; exact wins _) t
  simp [target, List.mem_flatMap, joins, and_assoc]

/-- A sender of the mailbox is updated exactly if its category is not that of the rule. -/
theorem update_eq {senders : List Sender} {s : Sender} (here : s ∈ senders) :
    update messages mailboxAccountId senders s =
      if s.mailboxAccountId = mailboxAccountId ∧
          s.gmailCategory ≠ (winner s.senderKey).getD .unknown then
        some (s.senderKey, (winner s.senderKey).getD .unknown)
      else none := by
  unfold update
  by_cases mine : s.mailboxAccountId = mailboxAccountId
  · rw [if_pos mine]
    have there := (mem_target wins).mpr ⟨s, here, mine, rfl⟩
    cases found : (target messages mailboxAccountId senders).find? fun t =>
        s.senderKey = t.1 ∧ s.gmailCategory ≠ t.2 with
    | none =>
      have same := List.find?_eq_none.mp found _ there
      rw [decide_eq_true_iff, not_and, not_not] at same
      rw [if_neg fun differs => differs.2 (same rfl)]
    | some t =>
      have differs := List.find?_some found
      obtain ⟨s', -, -, rfl⟩ := (mem_target wins).mp (List.mem_of_find?_eq_some found)
      obtain ⟨same, ne⟩ := of_decide_eq_true differs
      dsimp only at same ne
      rw [← same] at ne ⊢
      rw [if_pos ⟨mine, ne⟩]
  · rw [if_neg mine, if_neg fun both => mine both.1]

/-- A recount leaves every sender of the mailbox with the tab of the rule, and names those that
had another. -/
theorem reconcile_eq (senders : List Sender) :
    (reconcileSenderCategories messages mailboxAccountId senders).senders =
        senders.map (fun s => if s.mailboxAccountId = mailboxAccountId then
          setCategory s ((winner s.senderKey).getD .unknown) else s) ∧
      (reconcileSenderCategories messages mailboxAccountId senders).changed =
        (senders.filter fun s => s.mailboxAccountId = mailboxAccountId ∧
          s.gmailCategory ≠ (winner s.senderKey).getD .unknown).map (·.senderKey) := by
  constructor
  · refine List.map_congr_left fun s here => ?_
    rw [update_eq wins here]
    by_cases mine : s.mailboxAccountId = mailboxAccountId
    · by_cases same : s.gmailCategory = (winner s.senderKey).getD .unknown
      · rw [if_neg fun differs => differs.2 same, if_pos mine, ← same]
        rfl
      · rw [if_pos ⟨mine, same⟩, if_pos mine]
    · simp [mine]
  · refine congrArg _ (List.filter_congr fun s here => ?_)
    rw [update_eq wins here]
    split_ifs with differs <;> simp [differs]

theorem changed_of_reconciled (senders : List Sender) :
    (reconcileSenderCategories messages mailboxAccountId
      (reconcileSenderCategories messages mailboxAccountId senders).senders).changed = [] := by
  rw [(reconcile_eq wins _).2, (reconcile_eq wins senders).1, List.map_eq_nil_iff,
    List.filter_eq_nil_iff]
  intro s here
  obtain ⟨before, -, rfl⟩ := List.mem_map.mp here
  split_ifs with mine
  · simp [setCategory]
  · simp [mine]

end Rule

/-- The statement assigns what the fold does over the same messages, in whatever order they are
folded, and a second run changes nothing. -/
theorem recount_eq_fold (messages : List MailMessage) (mailboxAccountId : String)
    (folded : Text → List MailMessage)
    (same : ∀ key, (folded key).Perm (messagesOf messages mailboxAccountId key))
    (senders : List Sender) :
    let rule := fun s : Sender => senderGmailCategory (categoryCounts (folded s.senderKey))
    let result := reconcileSenderCategories messages mailboxAccountId senders
    result.senders = senders.map (fun s =>
        if s.mailboxAccountId = mailboxAccountId then setCategory s (rule s) else s) ∧
      result.changed = (senders.filter fun s =>
        s.mailboxAccountId = mailboxAccountId ∧ s.gmailCategory ≠ rule s).map (·.senderKey) ∧
      (reconcileSenderCategories messages mailboxAccountId result.senders).changed = [] := by
  have wins (key : Text) :=
    wins_majority (tabs (messagesOf messages mailboxAccountId key))
  have ruled (key : Text) := senderGmailCategory_categoryCounts (same key) (wins key)
  obtain ⟨kept, named⟩ := reconcile_eq wins senders
  simp only [ruled]
  exact ⟨kept, named, changed_of_reconciled wins senders⟩

/-! ## A sample -/

/-- A message of the sender `a`, with some labels. -/
def sampleMessage (labelIds : List Label) : MailMessage where
  mailboxAccountId := "m"
  providerMessageId := "1"
  providerThreadId := "1"
  senderKey := "a".toList
  subject := []
  snippet := []
  internalDate := 0
  labelIds := labelIds
  isUnread := false
  isOutbound := false
  recipientEmails := none
  unsubscribeUrl := none
  unsubscribeMailtoUrl := none
  unsubscribeOneClick := false
  sizeBytes := none

/-- Two labelled messages, one of them with two tabs, and one without a label -/
def sampleMessages : List MailMessage :=
  [sampleMessage ["CATEGORY_SOCIAL", "CATEGORY_PROMOTIONS"], sampleMessage ["INBOX"],
    sampleMessage ["CATEGORY_PROMOTIONS", "INBOX"]]

/-- The sender, still without a tab -/
def sampleSender : Sender where
  id := []
  mailboxAccountId := "m"
  senderKey := "a".toList
  displayName := []
  email := []
  domain := []
  gmailCategory := .unknown
  firstSeenAt := 0
  lastSeenAt := 0
  totalReceived := 3
  unsubscribeMethod := none
  unsubscribeUrl := none
  urlFrom := none

theorem recount_eq_fold_sample :
    let result := reconcileSenderCategories sampleMessages "m" [sampleSender]
    result.changed = ["a".toList] ∧
      result.senders.map (·.gmailCategory) = [.promotions] ∧
      (reconcileSenderCategories sampleMessages "m" result.senders).changed = [] :=
  ⟨by decide, by decide,
    (recount_eq_fold sampleMessages "m" (fun key => (messagesOf sampleMessages "m" key).reverse)
      (fun _ => List.reverse_perm _) [sampleSender]).2.2⟩

end DeclutrMail.Sync.Ingest.Recount
