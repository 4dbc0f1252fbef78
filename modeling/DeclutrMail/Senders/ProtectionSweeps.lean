import DeclutrMail.Senders.AutomaticProtection

/-!
# What a sweep leaves

A sweep changes each policy by itself (`policies_apply`), from its own row and the current
reason of its sender (`sweptRow`). So a scoped sweep agrees with a full one on its scope, a row
at rest stays at rest, and what the user decided is not touched. A protection whose sender is
gone is beyond every sweep.
-/

namespace DeclutrMail.Senders

open Batches

variable {yearAgo : ℤ → ℤ} {db : Tables} {scope : Scope} {now now' : ℤ} {key : SenderKey}
  {current : Current} {policy policy' : SenderPolicy} {row : Option SenderPolicy}

/-! ## One row -/

/-- What a sweep makes of the row of one sender. -/
def sweptRow (current : Option Current) (now : ℤ) (row : Option SenderPolicy) :
    Option SenderPolicy :=
  match current with
  | none => row
  | some current =>
    let row := row.map (·.reconciled current now)
    match current.reason with
    | none => row
    | some reason => some (.upserted reason now row)

theorem sweptRow_eq_none (unsupported : current.reason = none) :
    sweptRow (some current) now row = row.map (·.reconciled current now) := by
  simp [sweptRow, unsupported]

theorem sweptRow_eq_some {reason : ProtectionReason} (supported : current.reason = some reason) :
    sweptRow (some current) now row =
      some (.upserted reason now (row.map (·.reconciled current now))) := by
  simp [sweptRow, supported]

/-- Protected by the user, or pinned by a reason that the user overrode. -/
def SenderPolicy.UserOwned (policy : SenderPolicy) : Prop :=
  policy.protectionReason = some .userDefined ∨
    policy.isProtected = false ∧ policy.protectionReason ≠ none

theorem not_demotes_of_userOwned (owned : policy.UserOwned) : policy.demotes current = false := by
  unfold SenderPolicy.demotes
  rcases owned with user | ⟨unprotected, -⟩
  · simp [user, automaticProtectionReasons]
  · simp [unprotected]

theorem not_grantable_of_userOwned (owned : policy.UserOwned) : policy.grantable = false := by
  unfold SenderPolicy.grantable
  rcases owned with user | ⟨-, pinned⟩
  · simp [user]
  · simp [pinned]

theorem sweptRow_of_userOwned (owned : policy.UserOwned) (current : Option Current) :
    sweptRow current now (some policy) = some policy := by
  unfold sweptRow
  cases current with
  | none => rfl
  | some current =>
    simp only [Option.map_some, SenderPolicy.reconciled, not_demotes_of_userOwned owned,
      Bool.false_eq_true, if_false]
    cases current.reason with
    | none => rfl
    | some reason => simp [SenderPolicy.upserted, not_grantable_of_userOwned owned]

/-- A row that a sweep with these signals leaves alone. -/
structure AtRest (current : Current) (row : Option SenderPolicy) : Prop where
  kept : ∀ policy, row = some policy → policy.demotes current = false
  known : current.reason ≠ none → ∃ policy, row = some policy ∧ policy.grantable = false

theorem AtRest.sweptRow_eq (rest : AtRest current row) : sweptRow (some current) now row = row := by
  have unchanged : row.map (·.reconciled current now) = row := by
    cases row with
    | none => rfl
    | some policy => simp [SenderPolicy.reconciled, rest.kept policy rfl]
  unfold sweptRow
  simp only [unchanged]
  cases reason : current.reason with
  | none => rfl
  | some _ =>
    obtain ⟨policy, rfl, refused⟩ := rest.known (by simp [reason])
    simp [SenderPolicy.upserted, refused]

/-- A row that is demoted is released, or stands on importance from then on. -/
theorem demoted_cases (current : Current) (now : ℤ) (policy : SenderPolicy) :
    (current.reason = none ∧ current.keepsImportance = true ∧
      (policy.demoted current now).isProtected = true ∧
      (policy.demoted current now).protectionReason = some .gmailImportant) ∨
    (¬(current.reason = none ∧ current.keepsImportance = true) ∧
      (policy.demoted current now).isProtected = false ∧
      (policy.demoted current now).protectionReason = none) := by
  unfold SenderPolicy.demoted
  split_ifs with falls
  · exact .inl ⟨falls.1, falls.2, rfl, rfl⟩
  · exact .inr ⟨falls, rfl, rfl⟩

/-- What is left of a row by the first statement is not demoted again. -/
theorem not_demotes_reconciled (current : Current) (now : ℤ) (policy : SenderPolicy) :
    (policy.reconciled current now).demotes current = false := by
  unfold SenderPolicy.reconciled
  split_ifs with demotes
  · rcases demoted_cases current now policy with ⟨none, keeps, -, reason⟩ | ⟨-, unprotected, -⟩
    · simp [SenderPolicy.demotes, reason, none, keeps]
    · simp [SenderPolicy.demotes, unprotected]
  · simpa using demotes

theorem not_grantable_granted (reason : ProtectionReason) (now : ℤ) (policy : SenderPolicy) :
    (policy.granted reason now).grantable = false := by
  simp [SenderPolicy.grantable, SenderPolicy.granted]

theorem atRest_sweptRow (current : Current) (now : ℤ) (row : Option SenderPolicy) :
    AtRest current (sweptRow (some current) now row) := by
  cases reason : current.reason with
  | none =>
    rw [sweptRow_eq_none reason]
    refine ⟨fun policy left => ?_, fun absurd => (absurd reason).elim⟩
    obtain ⟨before, -, rfl⟩ := Option.map_eq_some_iff.mp left
    exact not_demotes_reconciled current now before
  | some r =>
    rw [sweptRow_eq_some reason]
    suffices settled : (SenderPolicy.upserted r now (row.map (·.reconciled current now))).demotes
        current = false ∧
        (SenderPolicy.upserted r now (row.map (·.reconciled current now))).grantable = false from
      ⟨fun policy left => Option.some.inj left ▸ settled.1, fun _ => ⟨_, rfl, settled.2⟩⟩
    cases row with
    | none => simp [SenderPolicy.upserted, SenderPolicy.inserted, SenderPolicy.demotes,
        SenderPolicy.grantable, reason]
    | some before =>
      simp only [Option.map_some, SenderPolicy.upserted]
      split_ifs with grantable
      · refine ⟨?_, not_grantable_granted r now _⟩
        have empty : (before.reconciled current now).protectionReason = none := by
          simp only [SenderPolicy.grantable, Bool.and_eq_true, decide_eq_true_eq] at grantable
          exact grantable.2
        simp [SenderPolicy.demotes, SenderPolicy.granted, reason, empty]
      · exact ⟨not_demotes_reconciled current now before, by simpa using grantable⟩

/-- The reason of a protection that a sweep gave is the current one, or importance that still
stands. -/
theorem reason_of_automatic {reason : ProtectionReason} (rest : AtRest current (some policy))
    (automatic : policy.Automatic) (stored : policy.protectionReason = some reason) :
    current.reason = some reason ∨
      (current.keepsImportance = true ∧ reason = .gmailImportant) := by
  obtain ⟨isProtected, reason', mem, stored'⟩ := automatic
  obtain rfl := Option.some.inj (stored.symm.trans stored')
  have kept := rest.kept policy rfl
  simp only [SenderPolicy.demotes, isProtected, stored, Option.any_some, mem] at kept
  grind

/-! ## All rows -/

theorem senderSignals_mailIn (covered : scope.covers key = true) (since : ℤ) :
    senderSignals (db.mailIn scope) since key = senderSignals db.mail since key := by
  have same : (db.mailIn scope).filter (fun m => m.senderKey = key && !m.isOutbound) =
      db.mail.filter fun m => m.senderKey = key && !m.isOutbound := by
    unfold Tables.mailIn
    rw [List.filter_filter]
    refine List.filter_congr fun m _ => ?_
    by_cases here : m.senderKey = key
    · simp [here, covered]
    · simp [here]
  unfold senderSignals
  rw [same]

theorem currentOf_scope {sender : Sender} (covered : scope.covers sender.senderKey = true) :
    db.currentOf yearAgo scope now sender = db.currentOf yearAgo none now sender := by
  have whole : Scope.covers none sender.senderKey = true := rfl
  simp only [Tables.currentOf, senderSignals_mailIn covered, senderSignals_mailIn whole]

/-- The current reason of a sender in scope is the one of the whole mailbox. -/
theorem currentAt_eq :
    db.currentAt yearAgo scope now key =
      if scope.covers key = true then (db.sender key).map (db.currentOf yearAgo none now)
      else none := by
  unfold Tables.currentAt Tables.current Tables.sender
  rw [List.find?_map, List.find?_filter]
  have key_of (sender : Sender) :
      ((db.currentOf yearAgo scope now sender).sender.senderKey = key) ↔ sender.senderKey = key :=
    Iff.rfl
  split_ifs with covered
  · have same : (fun sender => decide (scope.covers sender.senderKey = true ∧
        decide ((db.currentOf yearAgo scope now sender).sender.senderKey = key) = true)) =
        fun sender : Sender => decide (sender.senderKey = key) := by
      funext sender
      by_cases here : sender.senderKey = key
      · simp [key_of, here, covered]
      · simp [key_of, here]
    simp only [Function.comp_apply, same]
    cases found : db.senders.find? fun sender => decide (sender.senderKey = key) with
    | none => rfl
    | some sender =>
      have here : sender.senderKey = key := by simpa using List.find?_some found
      simp only [Option.map_some]
      rw [currentOf_scope (here ▸ covered)]
  · rw [Option.map_eq_none_iff, List.find?_eq_none]
    intro sender _
    by_cases here : sender.senderKey = key
    · simp [key_of, here, covered]
    · simp [key_of, here]

theorem policies_apply (yearAgo : ℤ → ℤ) (db : Tables) (scope : Scope) (now : ℤ) (key : SenderKey) :
    (applyAutomaticProtection yearAgo db scope now).db.policies key =
      sweptRow (db.currentAt yearAgo scope now key) now (db.policies key) := by
  unfold applyAutomaticProtection
  split_ifs with nobody
  · rw [currentAt_eq, if_neg (by simp [nobody, Scope.covers])]
    rfl
  · have same : (db.reconcile yearAgo scope now).currentAt yearAgo scope now key =
        db.currentAt yearAgo scope now key := rfl
    simp only [Tables.upsert, same]
    unfold Tables.reconcile
    cases found : db.currentAt yearAgo scope now key with
    | none => simp [found, sweptRow]
    | some current => cases reason : current.reason <;> simp [found, sweptRow, reason]

theorem senders_apply (yearAgo : ℤ → ℤ) (db : Tables) (scope : Scope) (now : ℤ) :
    (applyAutomaticProtection yearAgo db scope now).db.senders = db.senders ∧
      (applyAutomaticProtection yearAgo db scope now).db.mail = db.mail := by
  unfold applyAutomaticProtection
  split_ifs <;> exact ⟨rfl, rfl⟩

/-- The tables with other policies. -/
theorem tables_ext {db db' : Tables} (senders : db.senders = db'.senders) (mail : db.mail = db'.mail)
    (policies : db.policies = db'.policies) : db = db' := by
  cases db
  cases db'
  simp_all

/-- The messages of the tables are as recent at one instant as at the other. -/
def SameRecency (yearAgo : ℤ → ℤ) (db : Tables) (now now' : ℤ) : Prop :=
  ∀ m ∈ db.mail, yearAgo now ≤ m.internalDate ↔ yearAgo now' ≤ m.internalDate

theorem senderSignals_congr {mail : List MailMessage} {since since' : ℤ}
    (same : ∀ m ∈ mail, since ≤ m.internalDate ↔ since' ≤ m.internalDate) :
    senderSignals mail since key = senderSignals mail since' key := by
  simp only [senderSignals]
  split_ifs
  · rfl
  · have recent : ∀ m ∈ mail.filter (fun m => m.senderKey = key && !m.isOutbound),
        decide (since ≤ m.internalDate) = decide (since' ≤ m.internalDate) :=
      fun m mem => decide_eq_decide.mpr (same m (List.mem_of_mem_filter mem))
    congr 2
    · rw [Bool.eq_iff_iff, List.any_eq_true, List.any_eq_true]
      exact exists_congr fun m => and_congr_right fun mem => by rw [recent m mem]
    · exact congrArg List.length (List.filter_congr fun m mem => by rw [recent m mem])

theorem currentAt_congr (same : SameRecency yearAgo db now now') :
    db.currentAt yearAgo scope now' key = db.currentAt yearAgo scope now key := by
  have signals (since : SenderKey) : senderSignals (db.mailIn none) (yearAgo now') since =
      senderSignals (db.mailIn none) (yearAgo now) since :=
    senderSignals_congr fun m mem => (same m (List.mem_of_mem_filter mem)).symm
  have whole : db.currentOf yearAgo none now' = db.currentOf yearAgo none now := by
    funext sender
    simp only [Tables.currentOf, signals]
  simp only [currentAt_eq, whole]

/-- A sender of a list with unique keys is the one found by its key. -/
theorem sender_of_mem {sender : Sender} (mem : sender ∈ db.senders) :
    db.sender sender.senderKey = some sender := by
  unfold Tables.sender
  cases found : db.senders.find? (·.senderKey = sender.senderKey) with
  | none => simpa using List.find?_eq_none.mp found sender mem
  | some other =>
    have here : other.senderKey = sender.senderKey := by simpa using List.find?_some found
    rw [List.inj_on_of_nodup_map db.unique (List.mem_of_find?_eq_some found) mem here]

theorem currentAt_of_mem (mem : current ∈ db.current yearAgo scope now) :
    db.currentAt yearAgo scope now current.sender.senderKey = some current := by
  obtain ⟨sender, there, rfl⟩ := List.mem_map.mp mem
  obtain ⟨there, covered⟩ := List.mem_filter.mp there
  have here : (db.currentOf yearAgo scope now sender).sender = sender := rfl
  rw [currentAt_eq, here, if_pos covered, sender_of_mem there, Option.map_some,
    currentOf_scope covered]

/-- Every row in scope is at rest. -/
def Rests (yearAgo : ℤ → ℤ) (db : Tables) (scope : Scope) (now : ℤ) : Prop :=
  ∀ current ∈ db.current yearAgo scope now, AtRest current (db.policies current.sender.senderKey)

/-- A sweep of tables at rest changes nothing and reports nothing. -/
theorem Rests.apply (rests : Rests yearAgo db scope now) :
    applyAutomaticProtection yearAgo db scope now = ⟨db, [], []⟩ := by
  have policies : (applyAutomaticProtection yearAgo db scope now).db = db := by
    obtain ⟨senders, mail⟩ := senders_apply yearAgo db scope now
    refine tables_ext senders mail (funext fun key => ?_)
    rw [policies_apply]
    cases found : db.currentAt yearAgo scope now key with
    | none => rfl
    | some current =>
      have mem := List.mem_of_find?_eq_some found
      have here : current.sender.senderKey = key := by simpa using List.find?_some found
      exact (here ▸ rests current mem).sweptRow_eq
  have kept : db.demotedRows yearAgo scope now = [] := by
    refine List.filterMap_eq_nil_iff.mpr fun current mem => ?_
    cases row : db.policies current.sender.senderKey with
    | none => rfl
    | some policy => simp [Option.filter, (rests current mem).kept policy row]
  have same : db.reconcile yearAgo scope now = db := by
    refine tables_ext rfl rfl (funext fun key => ?_)
    simp only [Tables.reconcile]
    cases found : db.currentAt yearAgo scope now key with
    | none => rfl
    | some current =>
      have here : current.sender.senderKey = key := by simpa using List.find?_some found
      have rest := rests current (List.mem_of_find?_eq_some found)
      cases row : db.policies key with
      | none => rfl
      | some policy => simp [SenderPolicy.reconciled, rest.kept policy (here ▸ row)]
  have known : (db.reconcile yearAgo scope now).grantedKeys yearAgo scope now = [] := by
    rw [same]
    refine List.filterMap_eq_nil_iff.mpr fun current mem => ?_
    cases reason : current.reason with
    | none => simp
    | some r =>
      obtain ⟨policy, row, refused⟩ := (rests current mem).known (by simp [reason])
      simp [row, refused]
  have fields : ∀ swept : Swept, swept.db = db → swept.released = [] → swept.stale = [] →
      swept = ⟨db, [], []⟩ := by
    rintro ⟨_, _, _⟩ rfl rfl rfl
    rfl
  refine fields _ policies ?_ ?_
  · unfold applyAutomaticProtection
    split_ifs
    · rfl
    · simp [kept]
  · unfold applyAutomaticProtection
    split_ifs
    · rfl
    · simp [kept, known, distinct]

/-- A sweep leaves its scope at rest, for as long as no message ages past the year. -/
theorem rests_apply (same : SameRecency yearAgo db now now') :
    Rests yearAgo (applyAutomaticProtection yearAgo db scope now).db scope now' := by
  obtain ⟨senders, mail⟩ := senders_apply yearAgo db scope now
  have unchanged : (applyAutomaticProtection yearAgo db scope now).db.current yearAgo scope now' =
      db.current yearAgo scope now' := by
    unfold Tables.current Tables.currentOf Tables.mailIn
    rw [senders, mail]
  intro current mem
  rw [unchanged] at mem
  rw [policies_apply, ← currentAt_congr same, currentAt_of_mem mem]
  exact atRest_sweptRow current now _

/-! ## Evidence -/

/-- What stands behind a reason: what the user decided needs nothing more. -/
def Evidence (db : Tables) (since : ℤ) (key : SenderKey) : ProtectionReason → Prop
  | .userDefined => True
  | .replied =>
    (∃ sender ∈ db.senders, sender.senderKey = key ∧ 3 ≤ sender.wroteToCount) ∧
      ∃ m ∈ db.mail, m.senderKey = key ∧ m.isOutbound = false
  | .starred =>
    ∃ m ∈ db.mail, m.senderKey = key ∧ m.isOutbound = false ∧ "STARRED" ∈ m.labelIds ∧
      since ≤ m.internalDate
  | .gmailImportant =>
    3 ≤ (db.mail.filter fun m => m.senderKey = key && !m.isOutbound &&
        ("IMPORTANT" ∈ m.labelIds && since ≤ m.internalDate)).length ∧
      ((∃ sender ∈ db.senders, sender.senderKey = key ∧ sender.gmailCategory = .primary) ∨
        ∃ m ∈ db.mail, m.senderKey = key ∧ m.isOutbound = false ∧
          "CATEGORY_PERSONAL" ∈ m.labelIds)

theorem senderSignals_eq_some {signals : SenderSignals} {since : ℤ}
    (found : senderSignals (db.mailIn none) since key = some signals) :
    (∃ m ∈ db.mail, m.senderKey = key ∧ m.isOutbound = false) ∧
      (signals.hasRecentStar = true → Evidence db since key .starred) ∧
      (db.mail.filter fun m => m.senderKey = key && !m.isOutbound &&
        ("IMPORTANT" ∈ m.labelIds && since ≤ m.internalDate)).length =
        signals.recentImportantCount ∧
      (signals.hasPrimaryLabel = true →
        ∃ m ∈ db.mail, m.senderKey = key ∧ m.isOutbound = false ∧
          "CATEGORY_PERSONAL" ∈ m.labelIds) := by
  have whole : senderSignals (db.mailIn none) since key = senderSignals db.mail since key :=
    senderSignals_mailIn rfl since
  rw [whole] at found
  simp only [senderSignals] at found
  split_ifs at found with inbound
  obtain rfl := Option.some.inj found
  obtain ⟨m, mem⟩ := List.exists_mem_of_ne_nil _ inbound
  refine ⟨⟨m, by simpa using mem⟩, fun star => ?_, ?_, fun label => ?_⟩
  · obtain ⟨m, mem, star⟩ := List.any_eq_true.mp star
    simp only [List.mem_filter, Bool.and_eq_true, decide_eq_true_eq, Bool.not_eq_true'] at mem star
    exact ⟨m, mem.1, mem.2.1, mem.2.2, star.1, star.2⟩
  · rw [List.filter_filter]
    congr 2
    funext m
    simp only [Bool.and_comm, Bool.decide_eq_true]
  · obtain ⟨m, mem, label⟩ := List.any_eq_true.mp label
    simp only [List.mem_filter, Bool.and_eq_true, decide_eq_true_eq, Bool.not_eq_true'] at mem label
    exact ⟨m, mem.1, mem.2.1, mem.2.2, label⟩

/-- The current reason of a sender, and importance that keeps a protection, have evidence. -/
theorem evidence_of_current {reason : ProtectionReason} {sender : Sender} (mem : sender ∈ db.senders)
    (supported : (db.currentOf yearAgo none now sender).reason = some reason ∨
      (db.currentOf yearAgo none now sender).keepsImportance = true ∧ reason = .gmailImportant) :
    Evidence db (yearAgo now) sender.senderKey reason := by
  simp only [Tables.currentOf, currentReason, keepsImportance] at supported
  cases found : senderSignals (db.mailIn none) (yearAgo now) sender.senderKey with
  | none => simp [found] at supported
  | some signals =>
    obtain ⟨inbound, star, count, label⟩ := senderSignals_eq_some found
    simp only [found, Option.isSome_some, and_true, Option.any_some, Option.map_some,
      Option.getD_some] at supported
    have counted : 3 ≤ signals.recentImportantCount → 3 ≤ (db.mail.filter fun m =>
        m.senderKey = sender.senderKey && !m.isOutbound &&
          ("IMPORTANT" ∈ m.labelIds && yearAgo now ≤ m.internalDate)).length := fun enough =>
      count ▸ enough
    rcases supported with reason | ⟨keeps, rfl⟩
    · split_ifs at reason with wrote starred important
      · obtain rfl := Option.some.inj reason
        exact ⟨⟨sender, mem, rfl, wrote⟩, inbound⟩
      · obtain rfl := Option.some.inj reason
        exact star starred
      · obtain rfl := Option.some.inj reason
        exact ⟨counted important.2, .inl ⟨sender, mem, rfl, important.1⟩⟩
    · simp only [Bool.and_eq_true, decide_eq_true_eq, Bool.or_eq_true] at keeps
      refine ⟨counted keeps.1, keeps.2.imp (fun primary => ⟨sender, mem, rfl, primary⟩) label⟩

/-- Each protection that a sweep gave has its evidence. -/
def AllEvident (db : Tables) (since : ℤ) : Prop :=
  ∀ key policy, db.policies key = some policy → policy.Automatic →
    ∀ reason, policy.protectionReason = some reason → Evidence db since key reason

/-- The same of those whose sender is not in the index. -/
def StraysEvident (db : Tables) (since : ℤ) : Prop :=
  ∀ key policy, db.sender key = none → db.policies key = some policy → policy.Automatic →
    ∀ reason, policy.protectionReason = some reason → Evidence db since key reason

theorem allEvident_iff :
    AllEvident (applyAutomaticProtection yearAgo db none now).db (yearAgo now) ↔
      StraysEvident db (yearAgo now) := by
  obtain ⟨senders, mail⟩ := senders_apply yearAgo db none now
  have evidence (key : SenderKey) (reason : ProtectionReason) :
      Evidence (applyAutomaticProtection yearAgo db none now).db (yearAgo now) key reason ↔
        Evidence db (yearAgo now) key reason := by
    cases reason <;> simp only [Evidence, senders, mail]
  have whole (key : SenderKey) : db.currentAt yearAgo none now key =
      (db.sender key).map (db.currentOf yearAgo none now) := by
    rw [currentAt_eq, if_pos (show Scope.covers none key = true from rfl)]
  constructor
  · intro all key policy gone row automatic reason stored
    refine (evidence key reason).mp (all key policy ?_ automatic reason stored)
    rw [policies_apply, whole, gone]
    exact row
  · intro strays key policy row automatic reason stored
    refine (evidence key reason).mpr ?_
    rw [policies_apply, whole] at row
    cases found : db.sender key with
    | none =>
      rw [found] at row
      exact strays key policy found row automatic reason stored
    | some sender =>
      obtain rfl : sender.senderKey = key := by simpa using List.find?_some found
      rw [found, Option.map_some] at row
      refine evidence_of_current (List.mem_of_find?_eq_some found) ?_
      refine reason_of_automatic ?_ automatic stored
      exact row ▸ atRest_sweptRow _ now _

/-! ## What the user decided -/

/-- The row shows the last decision of the user. -/
def Stands (row : Option SenderPolicy) : Option AuditAction → Prop
  | some .markedProtected =>
    ∃ policy, row = some policy ∧ policy.isProtected = true ∧
      policy.protectionReason = some .userDefined
  | some .unmarkedProtected =>
    ∃ policy, row = some policy ∧ policy.isProtected = false ∧ policy.protectionReason ≠ none
  | _ => True

def World.Inv (world : World) : Prop :=
  ∀ key, Stands (world.db.policies key) (world.lastToggle key)

theorem lastToggle_ne_keep (world : World) (key : SenderKey) :
    world.lastToggle key ≠ some .keep := by
  intro last
  obtain ⟨row, found, keep⟩ := Option.map_eq_some_iff.mp last
  simpa [keep] using List.find?_some found

/-- A row that shows a decision is the user's own. -/
theorem Stands.userOwned {toggle : AuditAction} (stands : Stands row (some toggle))
    (decided : toggle ≠ .keep) : ∃ policy, row = some policy ∧ policy.UserOwned := by
  cases toggle with
  | keep => exact (decided rfl).elim
  | markedProtected =>
    obtain ⟨policy, there, -, reason⟩ := stands
    exact ⟨policy, there, .inl reason⟩
  | unmarkedProtected =>
    obtain ⟨policy, there, unprotected, pinned⟩ := stands
    exact ⟨policy, there, .inr ⟨unprotected, pinned⟩⟩

theorem Stands.sweptRow {toggle : Option AuditAction} (stands : Stands row toggle)
    (current : Option Current) : Stands (sweptRow current now row) toggle := by
  match toggle with
  | none => trivial
  | some .keep => trivial
  | some .markedProtected | some .unmarkedProtected =>
    obtain ⟨policy, rfl, owned⟩ := stands.userOwned (by simp)
    rwa [sweptRow_of_userOwned owned]

/-- The last toggle after more rows of the log. -/
theorem lastToggle_append (db db' : Tables) (rows more : List (SenderKey × AuditAction))
    (key : SenderKey) :
    (World.mk db (rows ++ more)).lastToggle key =
      ((World.mk db' more).lastToggle key).or ((World.mk db' rows).lastToggle key) := by
  simp only [World.lastToggle, List.reverse_append, List.find?_append]
  cases more.reverse.find? fun row => row.1 = key && row.2 ≠ .keep <;> rfl

/-- The toggle that a patch records. -/
theorem lastToggle_auditValues (db : Tables) (key key' : SenderKey) (patch : SenderPolicyPatch)
    (existing : Option SenderPolicy) :
    (World.mk db (auditValues key patch existing)).lastToggle key' =
      if key = key' ∧ SenderPolicy.protectChange patch existing = true then
        some (if patch.isProtected = some true then .markedProtected else .unmarkedProtected)
      else none := by
  simp only [World.lastToggle, auditValues]
  split_ifs <;> simp_all

/-- The row after a patch shows its decision, or, if it decides nothing, the one before. -/
theorem stands_set {toggle : Option AuditAction} (stands : Stands row toggle)
    (patch : SenderPolicyPatch) (now : ℤ) :
    Stands (some (SenderPolicy.set patch now row))
      (if SenderPolicy.protectChange patch row = true then
        some (if patch.isProtected = some true then .markedProtected else .unmarkedProtected)
      else toggle) := by
  cases row with
  | none =>
    split_ifs with change protects
    · exact ⟨_, rfl, by simp [SenderPolicy.set, SenderPolicy.ofPatch, protects],
        by simp [SenderPolicy.set, SenderPolicy.ofPatch, protects]⟩
    · simp only [SenderPolicy.protectChange, Option.map_none, Option.getD_none,
        Option.any_eq_true] at change
      obtain ⟨target, is, differs⟩ := change
      simp_all
    · rcases toggle with _ | toggle
      · trivial
      · cases toggle with
        | keep => trivial
        | markedProtected | unmarkedProtected =>
          obtain ⟨policy, absurd, -⟩ := stands.userOwned (by simp)
          cases absurd
  | some existing =>
    split_ifs with change protects
    · exact ⟨_, rfl, by simp [SenderPolicy.set, SenderPolicy.patched, change, protects],
        by simp [SenderPolicy.set, SenderPolicy.patched, change, protects]⟩
    · refine ⟨_, rfl, by simp [SenderPolicy.set, SenderPolicy.patched, change, protects], ?_⟩
      have was : existing.isProtected = true := by
        simp only [SenderPolicy.protectChange, Option.map_some, Option.getD_some,
          Option.any_eq_true] at change
        obtain ⟨target, is, differs⟩ := change
        cases target <;> simp_all
      simpa [SenderPolicy.set, SenderPolicy.patched, change, protects] using
        existing.reasonWhenProtected was
    · have same : (existing.patched patch now).isProtected = existing.isProtected ∧
          (existing.patched patch now).protectionReason = existing.protectionReason := by
        simp [SenderPolicy.patched, change]
      rcases toggle with _ | toggle
      · trivial
      · cases toggle with
        | keep => trivial
        | markedProtected =>
          obtain ⟨policy, there, rest⟩ := stands
          obtain rfl := Option.some.inj there
          exact ⟨_, rfl, same.1.trans rest.1, same.2.trans rest.2⟩
        | unmarkedProtected =>
          obtain ⟨policy, there, rest⟩ := stands
          obtain rfl := Option.some.inj there
          exact ⟨_, rfl, same.1.trans rest.1, same.2 ▸ rest.2⟩

theorem World.Inv.setPolicy {world : World} (inv : world.Inv) (senderId : String)
    (patch : SenderPolicyPatch) (now : ℤ) : (setPolicy world senderId patch now).Inv := by
  unfold Senders.setPolicy
  split
  · exact inv
  next sender _ =>
  simp only
  split_ifs with unchanged
  · exact inv
  · intro key
    rw [lastToggle_append _ world.db, lastToggle_auditValues]
    by_cases here : sender.senderKey = key
    · subst here
      have set := stands_set (inv sender.senderKey) patch now
      simp only [Function.update_self, true_and]
      split_ifs at set ⊢
      · exact set
      · exact set
      · simpa using set
    · simpa [here, Function.update_of_ne (Ne.symm here)] using inv key

theorem World.Inv.step {world : World} (inv : world.Inv) (action : Action) :
    (act yearAgo world action).Inv := by
  cases action with
  | sweep scope now =>
    intro key
    rw [Senders.act, policies_apply]
    exact (inv key).sweptRow _
  | setPolicy senderId patch now => exact inv.setPolicy senderId patch now
  | evidence senders mail unique => exact inv

theorem World.Inv.run {start : World} (inv : start.Inv) (actions : List Action) :
    (actions.foldl (act yearAgo) start).Inv := by
  induction actions generalizing start with
  | nil => exact inv
  | cons action actions ih => exact ih (inv.step action)

theorem inv_of_fresh {start : World} (fresh : start.activity = []) : start.Inv := by
  intro key
  simp [World.lastToggle, fresh, Stands]

/-! ## Histories -/

/-- The user protected the sender, or decided on its protection under way. -/
def World.UserDecided (world : World) (key : SenderKey) : Prop :=
  world.lastToggle key ≠ none ∨
    ∃ policy, world.db.policies key = some policy ∧ policy.isProtected = true ∧
      policy.protectionReason = some .userDefined

/-- What a sweep owes at a moment, its evidence apart. -/
structure Respects (yearAgo : ℤ → ℤ) (world : World) (now : ℤ) : Prop where
  /-- Nothing that the user decided changes. -/
  user : ∀ scope key, world.UserDecided key →
    (applyAutomaticProtection yearAgo world.db scope now).db.policies key = world.db.policies key
  /-- What the user took away stays off. -/
  pinned : ∀ scope key, world.lastToggle key = some .unmarkedProtected →
    ∃ policy, (applyAutomaticProtection yearAgo world.db scope now).db.policies key = some policy ∧
      policy.isProtected = false
  /-- A second sweep of the same state, at an instant with the same recent mail, changes no row
  and reports nothing. -/
  again : ∀ scope now', SameRecency yearAgo world.db now now' →
    applyAutomaticProtection yearAgo (applyAutomaticProtection yearAgo world.db scope now).db scope
      now' = ⟨(applyAutomaticProtection yearAgo world.db scope now).db, [], []⟩
  /-- A scoped sweep is the full one on its scope, and nothing outside. -/
  narrow : ∀ keys key,
    (applyAutomaticProtection yearAgo world.db (some keys) now).db.policies key =
      if key ∈ keys then (applyAutomaticProtection yearAgo world.db none now).db.policies key
      else world.db.policies key

theorem World.Inv.respects {world : World} (inv : world.Inv) (now : ℤ) :
    Respects yearAgo world now where
  user := fun scope key decided => by
    obtain ⟨policy, row, owned⟩ : ∃ policy, world.db.policies key = some policy ∧
        policy.UserOwned := by
      rcases decided with toggled | ⟨policy, row, -, reason⟩
      · obtain ⟨toggle, last⟩ := Option.ne_none_iff_exists'.mp toggled
        refine Stands.userOwned (last ▸ inv key) ?_
        rintro rfl
        exact lastToggle_ne_keep world key last
      · exact ⟨policy, row, .inl reason⟩
    rw [policies_apply, row, sweptRow_of_userOwned owned]
  pinned := fun scope key last => by
    have stands : Stands (sweptRow (world.db.currentAt yearAgo scope now key) now
        (world.db.policies key)) (some .unmarkedProtected) := (last ▸ inv key : Stands _ _).sweptRow _
    obtain ⟨policy, row, unprotected, -⟩ := stands
    exact ⟨policy, (policies_apply yearAgo world.db scope now key).trans row, unprotected⟩
  again := fun scope now' same => (rests_apply same).apply
  narrow := fun keys key => by
    simp only [policies_apply, currentAt_eq, Scope.covers, Option.all_some, Option.all_none,
      decide_eq_true_eq, if_true]
    split_ifs <;> rfl

/-- **In every history, a sweep respects the user, is idempotent and agrees with the full one on
its scope; and a full sweep leaves only protections with evidence exactly when those whose
sender is no longer in the index have theirs.** -/
theorem sweeps_respect_user (yearAgo : ℤ → ℤ) (start : World) (fresh : start.activity = [])
    (actions : List Action) (now : ℤ) :
    let world := actions.foldl (act yearAgo) start
    Respects yearAgo world now ∧
      (AllEvident (applyAutomaticProtection yearAgo world.db none now).db (yearAgo now) ↔
        StraysEvident world.db (yearAgo now)) :=
  ⟨(World.Inv.run (inv_of_fresh fresh) actions).respects now, allEvident_iff⟩

/-! ### A sender that goes -/

def correspondent : Sender := ⟨"s1", "k1", 3, .unknown⟩

def emptyWorld : World := ⟨⟨[], [], fun _ => none, List.nodup_nil⟩, []⟩

/-- A sender the user wrote to three times is protected, unprotected by the user and swept. -/
theorem sweeps_respect_user_unprotected :
    let world := [Action.evidence [correspondent] [⟨"k1", ["INBOX"], 5, false⟩] (by decide),
      .sweep none 6, .setPolicy "s1" ⟨false, some false, by decide⟩ 7].foldl (act (· - 365)) emptyWorld
    Respects (· - 365) world 8 ∧
      (applyAutomaticProtection (· - 365) world.db none 8).db.policies "k1" =
        some ⟨some .keep, false, some .replied, none, 7, by decide⟩ :=
  ⟨(sweeps_respect_user (· - 365) emptyWorld rfl _ 8).1, rfl⟩

/-- The sender is protected as replied-to; then its mail and with it its row in `senders` go.
The next full sweep leaves the protection, whose reason has no evidence. -/
theorem stray_protection_kept :
    let world := [Action.evidence [correspondent] [⟨"k1", ["INBOX"], 5, false⟩] (by decide),
      .sweep none 6, .evidence [] [] List.nodup_nil].foldl (act (· - 365)) emptyWorld
    (applyAutomaticProtection (· - 365) world.db none 7).db.policies "k1" =
        some ⟨some .keep, true, some .replied, some 6, 6, by decide⟩ ∧
      ¬AllEvident (applyAutomaticProtection (· - 365) world.db none 7).db (7 - 365) := by
  intro world
  have row : (applyAutomaticProtection (· - 365) world.db none 7).db.policies "k1" =
      some ⟨some .keep, true, some .replied, some 6, 6, by decide⟩ := rfl
  refine ⟨row, fun all => ?_⟩
  obtain ⟨-, m, mem, -⟩ := all "k1" _ row ⟨rfl, .replied, by decide, rfl⟩ .replied rfl
  cases mem

end DeclutrMail.Senders
