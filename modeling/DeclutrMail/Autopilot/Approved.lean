import DeclutrMail.Autopilot.RuleCalls

/-!
# Passes, stops and approvals

The calls that insert matches, stop rules or approve suggestions: each of them is ready when it
commits. No match is inserted for a rule that has changed, and a suggestion is approved only while
its rule can start work, unless the call has been overtaken.
-/

namespace DeclutrMail.Autopilot

open Interleaving

variable {t : ℕ} {w w' : World}

/-! ## Reading a draft -/

section Draft

variable {s : Store} {xs : List Write} {id : ℕ}

theorem mem_of_rules {r : Rule} (h : (xs.foldl Store.apply s).rules.get id = some r) :
    s.rules.get id = some r ∨ .rule id r ∈ xs := by
  induction xs generalizing s with
  | nil => exact .inl h
  | cons x xs ih =>
    rcases ih h with first | rest
    · rw [Store.rules_apply] at first
      cases x with
      | suggestion id' row => exact .inl first
      | rule id' row =>
        dsimp only at first
        split_ifs at first with same
        · obtain rfl := Option.some.inj first
          subst same
          exact .inr List.mem_cons_self
        · exact .inl first
    · exact .inr (List.mem_cons_of_mem _ rest)

theorem mem_of_matchLog {m : Match} (h : (xs.foldl Store.apply s).matchLog.get id = some m) :
    s.matchLog.get id = some m ∨ .suggestion id m ∈ xs := by
  induction xs generalizing s with
  | nil => exact .inl h
  | cons x xs ih =>
    rcases ih h with first | rest
    · rw [Store.matchLog_apply] at first
      cases x with
      | rule id' row => exact .inl first
      | suggestion id' row =>
        dsimp only at first
        split_ifs at first with same
        · obtain rfl := Option.some.inj first
          subst same
          exact .inr List.mem_cons_self
        · exact .inl first
    · exact .inr (List.mem_cons_of_mem _ rest)

end Draft

theorem mem_matching {s : Store} {p : Store → MatchId → Match → Bool} {id : MatchId} :
    id ∈ s.matching p ↔ ∃ m, s.matchLog.get id = some m ∧ p s id m = true := by
  unfold Store.matching
  simp only [List.mem_map, List.mem_filter, Prod.exists, exists_and_right, exists_eq_right,
    InsertionMap.mem_entries_iff]

theorem seen_of_idle (h : (Fact.idle : Fact t) w) : w.seen t = w.db.store := by
  have none : w.db.draft t = [] := List.eq_nil_iff_forall_not_mem.mpr h
  rw [World.seen, Database.seen, Transactions.view, none, List.foldl_nil]

section Wrote

variable {P P' : RuleId → Rule → Rule → Prop} {Q Q' : MatchId → Option Match → Match → Prop}

theorem Fact.wrote_of_idle (h : (Fact.idle : Fact t) w) : (Fact.wrote P Q : Fact t) w :=
  fun x mem => (h x mem).elim

theorem Fact.wrote_mono (h : (Fact.wrote P Q : Fact t) w)
    (rules : ∀ id r row, P id r row → P' id r row)
    (rows : ∀ id before row, Q id before row → Q' id before row) :
    (Fact.wrote P' Q' : Fact t) w := by
  intro x mem
  have before := h x mem
  cases x with
  | rule id row =>
    obtain ⟨r, found, holds⟩ := before
    exact ⟨r, found, rules id r row holds⟩
  | suggestion id row => exact rows id _ row before

/-- The draft grows by a row that is locked. -/
theorem Fact.wrote_draw {d : Database} {x : Write} (h : (Fact.wrote P Q : Fact t) w)
    (locks : Database.Locks t w.db d)
    (new : match x with
      | .rule id row => ∃ r, w.db.store.rules.get id = some r ∧ P id r row
      | .suggestion id row => Q id (w.db.store.matchLog.get id) row) :
    (Fact.wrote P Q : Fact t) { w with db := d.draw t x } := by
  have store : (d.draw t x).store = w.db.store := locks.store
  intro y mem
  rcases List.mem_append.mp (Database.draft_draw ▸ mem) with old | last
  · have before := h y (locks.draft ▸ old)
    cases y with
    | rule id row => exact store ▸ before
    | suggestion id row => exact store ▸ before
  · obtain rfl := List.mem_singleton.mp last
    cases y with
    | rule id row => exact store ▸ new
    | suggestion id row => exact store ▸ new

/-- A row that the thread sees is committed or written. -/
theorem Fact.wrote_seen {id : MatchId} {m : Match} (h : (Fact.wrote P Q : Fact t) w)
    (seen : (w.seen t).matchLog.get id = some m) :
    w.db.store.matchLog.get id = some m ∨ Q id (w.db.store.matchLog.get id) m :=
  (mem_of_matchLog seen).imp_right (h _)

theorem Fact.wrote_rule {id : RuleId} {row : Rule} (h : (Fact.wrote P Q : Fact t) w)
    (seen : (w.seen t).rules.get id = some row) :
    w.db.store.rules.get id = some row ∨ ∃ r, w.db.store.rules.get id = some r ∧ P id r row :=
  (mem_of_rules seen).imp_right (h _)

/-- A transaction that changes no criteria leaves nothing behind. -/
theorem Ready.settled_of_wrote
    (h : (Fact.wrote (fun _ r row => row.toCriteria = r.toCriteria) Q : Fact t) w) :
    ∀ rule r r', w.db.store.rules.get rule = some r → (w.seen t).rules.get rule = some r' →
      r'.toCriteria = r.toCriteria := by
  intro rule r r' found seen
  rcases Fact.wrote_rule h seen with same | ⟨r₀, found', same⟩
  · obtain rfl := Option.some.inj (found.symm.trans same)
    rfl
  · obtain rfl := Option.some.inj (found.symm.trans found')
    exact same

/-- A transaction that changes no criteria and approves nothing. -/
theorem Ready.of_wrote (h : (Fact.wrote (fun _ r row => row.toCriteria = r.toCriteria)
      (fun _ before row => row.resolution = .approved → ∀ m, before = some m →
        m.resolution ≠ .pending) : Fact t) w) : Ready t w := by
  refine ⟨fun rule r r' found seen changed => ?_, fun _ id m m' found pending seen approved => ?_⟩
  · exact absurd (Ready.settled_of_wrote h rule r r' found seen) changed
  · rcases Fact.wrote_seen h seen with same | written
    · obtain rfl := Option.some.inj (found.symm.trans same)
      rw [pending] at approved
      cases approved
    · exact absurd pending (written approved m found)

/-- A transaction that writes matches only, and approves those of rules that can start work. -/
theorem Ready.of_approvals (inv : w.Inv) (h : (Fact.wrote (fun _ _ _ => False) Q : Fact t) w)
    (starts : w.overtaken = false → ∀ id m row, w.db.store.matchLog.get id = some m →
      Follows m row → Q id (some m) row → w.db.store.ruleCanStart m = true) : Ready t w := by
  have unwritten : ∀ rule, (w.seen t).rules.get rule = w.db.store.rules.get rule := by
    refine fun rule => rules_unwritten fun x mem here => ?_
    have none := h x mem
    cases x with
    | rule rule' row =>
      obtain ⟨-, -, none⟩ := none
      exact none
    | suggestion id row => cases here
  refine ⟨fun rule r r' found seen changed => ?_, fun fine id m m' found pending seen approved => ?_⟩
  · obtain rfl := Option.some.inj (found.symm.trans ((unwritten rule).symm.trans seen))
    exact absurd rfl changed
  · obtain ⟨row, seen', follows⟩ := (inv.conforms t).old id m found
    obtain rfl := Option.some.inj (seen'.symm.trans seen)
    rw [Store.ruleCanStart, unwritten, follows.ruleId]
    rcases Fact.wrote_seen h seen with same | written
    · obtain rfl := Option.some.inj (found.symm.trans same)
      rw [pending] at approved
      cases approved
    · exact starts fine id m row found follows (found ▸ written)

theorem Ready.of_idle (h : (Fact.idle : Fact t) w) : Ready t w := .of_wrote (Fact.wrote_of_idle h)

end Wrote

theorem sane_of {A : Fact t} (w : World) (_ : w.Inv) (_ : A w) : (Fact.sane : Fact t) w := trivial

/-! ## Calls that stop rules -/

/-- Rules are written with the criteria they have. -/
def rewrites : Fact t := .wrote (fun _ r row => row.toCriteria = r.toCriteria) fun _ _ _ => False

theorem Ready.of_rewrites (h : (rewrites : Fact t) w) : Ready t w :=
  .of_wrote (Fact.wrote_mono h (fun _ _ _ same => same) fun _ _ _ none => none.elim)

/-- A rule is stopped, whatever it was. -/
structure Stops (f : Rule → Rule) : Prop where
  version (r : Rule) : (f r).version = r.version + 1
  criteria (r : Rule) : (f r).toCriteria = r.toCriteria

theorem Stops.newer {f : Rule → Rule} (stops : Stops f) (r : Rule) : Newer r (f r) :=
  ⟨by rw [stops.version]; omega, fun _ => stops.criteria r⟩

theorem stops_pause : Stops pause := ⟨fun _ => rfl, fun _ => rfl⟩

theorem stops_retire : Stops Rule.retire := ⟨fun _ => rfl, fun _ => rfl⟩

theorem stop_does {f : Rule → Rule} (stops : Stops f) (id : RuleId) (p : Rule → Bool) :
    Does t rewrites (run (.updateRule id p f)) (fun _ => rewrites) .sane := by
  refine Does.updateRule sane_of (fun r _ => stops.newer r) (fun _ _ h => h)
    fun w d r inv h seen _ locks _ => Fact.wrote_draw h locks ?_
  rcases Fact.wrote_rule h seen with found | ⟨r₀, found, same⟩
  · exact ⟨r, found, stops.criteria r⟩
  · exact ⟨r₀, found, (stops.criteria r).trans same⟩

theorem updateRules_does {f : Rule → Rule} (stops : Stops f) (p : Rule → Bool)
    (ids : List RuleId) : Does t rewrites (updateRules p f ids) (fun _ => rewrites) .sane := by
  induction ids with
  | nil => exact Does.returns fun _ _ h => h
  | cons id ids ih =>
    exact Does.bind (stop_does stops id p) fun _ => Does.bind ih fun _ => Does.returns fun _ _ h => h

theorem rewrites_of_idle (w : World) (_ : w.Inv) (h : (Fact.idle : Fact t) w) :
    (rewrites : Fact t) w := Fact.wrote_of_idle h

theorem pauseAll_does : Does t .idle pauseAll (fun _ => .idle) .idle := by
  refine Does.transaction (B := fun _ => rewrites) ?_ fun _ _ _ h => .of_rewrites h
  refine Does.bind (B := fun _ => .idle) (Does.reads sane_of rfl) fun rows => ?_
  exact (updateRules_does stops_pause _ _).ends rewrites_of_idle (fun _ _ _ h => h) fun _ _ h => h

theorem retire_does (id : RuleId) (version : ℕ) :
    Does t .idle (retire id version) (fun _ => .idle) .idle := by
  have idle (w : World) (_ : w.Inv) (h : (Fact.idle : Fact t) w) : (Fact.idle : Fact t) w := h
  refine Does.bind (B := fun _ => .idle) (Does.reads idle rfl) fun current => ?_
  cases current with
  | none => exact Does.throws idle
  | some current =>
    refine Does.bind (Does.refuses idle) fun _ => Does.bind (Does.refuses idle) fun _ => ?_
    refine Does.bind (Does.transaction (B := fun _ => rewrites) ?_ fun _ _ _ h => .of_rewrites h)
      fun row => ?_
    · exact (stop_does stops_retire id _).ends rewrites_of_idle (fun _ _ _ h => h) fun _ _ h => h
    · cases row with
      | none => exact Does.throws idle
      | some row => exact Does.returns idle

/-! ## The pass -/

/-- New matches of the rule that is shared. -/
def inserting (id : RuleId) (rule : Rule) : Fact t :=
  (Fact.sharesRule id rule).and (.wrote (fun _ _ _ => False) fun _ before _ => before = none)

theorem Ready.of_inserting {id : RuleId} {rule : Rule} (h : (inserting id rule : Fact t) w) :
    Ready t w := by
  refine .of_wrote (Fact.wrote_mono h.2 (fun _ _ _ none => none.elim) ?_)
  intro _ before row new _ m found
  rw [new] at found
  cases found

theorem absent_of_unseen {id : MatchId} (inv : w.Inv) (unseen : (w.seen t).matchLog.get id = none) :
    w.db.store.matchLog.get id = none := by
  cases found : w.db.store.matchLog.get id with
  | none => rfl
  | some m =>
    obtain ⟨m', seen, -⟩ := (inv.conforms t).old id m found
    exact absurd (unseen.symm.trans seen) nofun

theorem insertMatches_does {id : RuleId} {rule : Rule} {rows : List Match}
    (own : ∀ row ∈ rows, row.ruleId = id ∧ rule.toCriteria = row.evaluated) :
    Does t (inserting id rule) (insertMatches rows) (fun _ => inserting id rule) .sane := by
  induction rows with
  | nil => exact Does.returns fun _ _ h => h
  | cons row rows ih =>
    obtain ⟨⟨same, criteria⟩, rest⟩ := List.forall_mem_cons.mp own
    refine Does.bind (B := fun _ => inserting id rule) ?_ fun _ =>
      Does.bind (ih rest) fun _ => Does.returns fun _ _ h => h
    refine Does.insertMatch sane_of (fun w _ h => ?_) (fun _ _ h => h)
      fun w d id' inv h unseen locks _ => ⟨⟨locks.sharers _ h.1.1, ?_⟩, Fact.wrote_draw h.2 locks
        (absent_of_unseen inv unseen)⟩
    · rw [same]
      exact ⟨h.1.1, rule, h.1.2, criteria⟩
    · exact (congrArg (fun s : Store => s.rules.get id) locks.store).trans h.1.2

theorem recordMatches_does {id : RuleId} {rule : Rule} {stamp : Option ℤ} {rows : List Match}
    (own : ∀ row ∈ rows, row.ruleId = id ∧ row.evaluated = rule.toCriteria) :
    Does t (Fact.idle.and (.known id rule)) (transaction (recordMatches id rule stamp rows))
      (fun _ => .idle) .idle := by
  refine Does.transaction (B := fun _ => .wrote (fun _ _ _ => False)
    fun _ before _ => before = none) ?_ fun _ w _ h => ?_
  · have nothing (w : World) (_ : w.Inv) (h : (Fact.idle.and (.known id rule) : Fact t) w) :
        (Fact.wrote (fun _ _ _ => False) fun _ before _ => before = none : Fact t) w :=
      Fact.wrote_of_idle h.1
    refine Does.bind (B := fun _ => Fact.idle.and (.known id rule))
      (Does.lockSenderIndex sane_of fun w d _ h locks => ⟨?_, ?_⟩) fun _ => ?_
    · exact fun x mem => h.1 x (locks.draft ▸ mem)
    · obtain ⟨r, found, newer⟩ := h.2
      exact ⟨r, (congrArg (fun s : Store => s.rules.get id) locks.store).trans found, newer⟩
    refine Does.bind (B := fun _ => Fact.idle.and (.known id rule)) (Does.reads sane_of rfl)
      fun current => ?_
    split_ifs
    · exact Does.returns nothing
    refine Does.bind (B := fun current => current.elim (Fact.idle.and (.known id rule))
        fun current => (Fact.idle.and (.known id rule)).and (.sharesRule id current))
      (Does.shareRule sane_of (fun _ _ h => h) fun w d current _ h seen locks shared => ?_)
      fun current => ?_
    · have store : ∀ id', d.store.rules.get id' = w.db.store.rules.get id' :=
        fun id' => congrArg (fun s : Store => s.rules.get id') locks.store
      refine ⟨⟨fun x mem => h.1 x (locks.draft ▸ mem), ?_⟩, shared, ?_⟩
      · obtain ⟨r, found, newer⟩ := h.2
        exact ⟨r, (store id).trans found, newer⟩
      · rw [seen_of_idle h.1] at seen
        exact (store id).trans seen
    · cases current with
      | none => exact Does.returns nothing
      | some current =>
        dsimp only
        split_ifs with stale
        · exact Does.returns fun w inv h => nothing w inv h.1
        · -- the rule has the version that was read, and so its criteria
          push Not at stale
          have criteria (w : World) (_ : w.Inv)
              (h : ((Fact.idle.and (.known id rule)).and (.sharesRule id current) : Fact t) w) :
              current.toCriteria = rule.toCriteria := by
            obtain ⟨r, found, newer⟩ := h.1.2
            obtain rfl := Option.some.inj (found.symm.trans h.2.2)
            exact newer.criteria stale.1
          refine Does.since criteria fun same => Does.bind (B := fun _ => inserting id current)
            ((insertMatches_does fun row mem => ?_).ends
              (fun w _ h => ⟨h.2, Fact.wrote_of_idle h.1.1⟩) (fun _ _ _ h => h) fun _ _ h => h)
            fun _ => Does.returns fun w _ h => h.2
          exact ⟨(own row mem).1, same.trans (own row mem).2.symm⟩
  · refine .of_wrote (Fact.wrote_mono h (fun _ _ _ none => none.elim) ?_)
    intro _ before row new _ m found
    rw [new] at found
    cases found

/-- The rules that the pass has loaded. -/
def loaded (rules : List (RuleId × Rule)) : Fact t :=
  ⟨fun w => ∀ x ∈ rules, (Fact.known x.1 x.2 : Fact t) w,
    fun inv h kept x mem => (Fact.known x.1 x.2).kept inv (h x mem) kept⟩

theorem loaded_of_advances {rules : List (RuleId × Rule)} (allowed : Guarantee t w w')
    (h : (loaded rules : Fact t) w) : (loaded rules : Fact t) w' := by
  intro x mem
  obtain ⟨r, found, newer⟩ := h x mem
  obtain ⟨r', found', newer'⟩ := allowed.advances.rules x.1 r found
  exact ⟨r', found', newer.trans newer'⟩

theorem withoutQueued_does {A E : Fact t} (fails : ∀ w, w.Inv → A w → E w) (id : RuleId)
    (rule : Rule) (senderKeys : List String) :
    Does t A (withoutQueued id rule senderKeys) (fun _ => A) E := by
  unfold withoutQueued
  split_ifs
  · exact Does.bind (Does.reads fails rfl) fun _ => Does.returns fun _ _ h => h
  · exact Does.returns fun _ _ h => h

theorem applyRule_does (now : ℤ) (stamp : Option ℤ) (eligible : List AutopilotSignalRow)
    (id : RuleId) (rule : Rule) :
    Does t (Fact.idle.and (.known id rule)) (applyRule now stamp eligible id rule)
      (fun _ => .idle) .idle := by
  have idle (w : World) (_ : w.Inv) (h : (Fact.idle.and (.known id rule) : Fact t) w) :
      (Fact.idle : Fact t) w := h.1
  unfold applyRule
  split
  · exact Does.returns idle
  · next key _ =>
    split_ifs
    · exact Does.returns idle
    refine Does.tryCatch ?_ fun _ => Does.returns fun _ _ h => h
    refine Does.bind (withoutQueued_does idle id rule _) fun senderKeys => ?_
    split_ifs
    · exact Does.returns idle
    · refine Does.bind (recordMatches_does fun row mem => ?_) fun _ =>
        Does.returns fun _ _ h => h
      obtain ⟨senderKey, -, rfl⟩ := List.mem_map.mp mem
      exact ⟨rfl, rfl⟩

theorem applyRules_does (now : ℤ) (stamp : Option ℤ) (eligible : List AutopilotSignalRow)
    (rules : List (RuleId × Rule)) :
    Does t (Fact.idle.and (loaded rules)) (applyRules now stamp eligible rules)
      (fun _ => .idle) .idle := by
  induction rules with
  | nil => exact Does.returns fun _ _ h => h.1
  | cons x rest ih =>
    obtain ⟨id, rule⟩ := x
    refine Does.bind (B := fun _ => Fact.idle.and (loaded rest)) ?_ fun goesOn =>
      Does.when (fun _ => ih) fun _ _ _ h => h.1
    refine (Does.frame (F := loaded rest) (applyRule_does now stamp eligible id rule)
      loaded_of_advances).ends (fun w _ h => ?_) (fun _ _ _ h => h) fun _ _ h => h.1
    exact ⟨⟨h.1, h.2 _ List.mem_cons_self⟩, fun x mem => h.2 x (List.mem_cons_of_mem _ mem)⟩

theorem loadEnabledRules_does : Does t .idle loadEnabledRules
    (fun rules => Fact.idle.and (loaded rules)) .idle := by
  have idle (w : World) (_ : w.Inv) (h : (Fact.idle : Fact t) w) : (Fact.idle : Fact t) w := h
  refine Does.bind (B := fun _ => .idle) (Does.reads idle rfl) fun tier => ?_
  split
  · refine Does.selectRules idle fun w _ h => ⟨h, fun x mem => ?_⟩
    obtain ⟨mem, -⟩ := List.mem_filter.mp mem
    rw [seen_of_idle h] at mem
    exact ⟨x.2, InsertionMap.mem_entries_iff.mp mem, .refl _⟩
  · exact Does.returns fun w _ h => ⟨h, by simp [loaded]⟩

theorem applyPass_does : Does t .idle applyPass (fun _ => .idle) .idle := by
  have idle (w : World) (_ : w.Inv) (h : (Fact.idle : Fact t) w) : (Fact.idle : Fact t) w := h
  refine Does.bind (B := fun _ => .idle) (Does.reads idle rfl) fun now => ?_
  refine Does.bind loadEnabledRules_does fun rules => ?_
  have out (w : World) (_ : w.Inv) (h : (Fact.idle.and (loaded rules) : Fact t) w) :
      (Fact.idle : Fact t) w := h.1
  refine Does.when (fun _ => ?_) fun _ => out
  refine Does.bind (Does.reads out rfl) fun stamp => ?_
  exact Does.bind (Does.reads out rfl) fun rows => applyRules_does now stamp _ rules

/-! ## Approvals -/

/-- What approves a pending suggestion. -/
theorem follows_of_observed {p : Match → Bool} (observed : ∀ m, p m = true → m.observed = true)
    (m : Match) (h : p m = true) : Follows m m.approve := .approve (observed m h)

theorem enqueueIfApproved_does (count : ℕ) :
    Does t .idle (enqueueIfApproved count) (fun _ => .idle) .idle := by
  unfold enqueueIfApproved
  split_ifs
  · exact Does.bind (Does.reads (fun _ _ h => h) rfl) fun _ => Does.returns fun _ _ h => h
  · exact Does.returns fun _ _ h => h

/-- Suggestions of a rule that is shared, and that can start work, are approved. -/
def approving (id : RuleId) (rule : Rule) : Fact t :=
  (Fact.sharesRule id rule).and (.wrote (fun _ _ _ => False) fun _ _ row => row.ruleId = id)

theorem Ready.of_approving {id : RuleId} {rule : Rule} (starts : rule.canStart = true)
    (inv : w.Inv) (h : (approving id rule : Fact t) w) : Ready t w := by
  refine .of_approvals inv h.2 fun _ _ m row _ follows mine => ?_
  rw [Store.ruleCanStart, ← follows.ruleId, mine, h.1.2, Option.any_some, starts]

/-- The suggestions of the rule are approved, if anything has been written. -/
def approved (id : RuleId) : Fact t where
  holds w := ∀ x, x ∈ w.db.draft t →
    ∃ rule : Rule, rule.canStart = true ∧ (approving id rule : Fact t) w
  kept inv h kept x mem := by
    obtain ⟨rule, starts, holds⟩ := h x (kept.shields.draft ▸ mem)
    exact ⟨rule, starts, (approving id rule).kept inv holds kept⟩

theorem Ready.of_approved {id : RuleId} (inv : w.Inv) (h : (approved id : Fact t) w) :
    Ready t w := by
  by_cases nothing : ∀ x, x ∉ w.db.draft t
  · exact .of_idle fun x mem => nothing x mem
  · push Not at nothing
    obtain ⟨x, mem⟩ := nothing
    obtain ⟨rule, starts, holds⟩ := h x mem
    exact .of_approving starts inv holds

theorem approveMatch_does (id : RuleId) (rule : Rule) (matchId : MatchId) :
    Does t (approving id rule) (run (.updateMatch matchId
      (fun row => row.ruleId = id && row.observed) Match.approve)) (fun _ => approving id rule)
      .sane := by
  refine Does.updateMatch sane_of (follows_of_observed fun m h => (Bool.and_eq_true_iff.mp h).2)
    (fun _ _ h _ => h) fun w d m _ h _ mine locks _ => ⟨⟨locks.sharers _ h.1.1, ?_⟩, ?_⟩
  · exact (congrArg (fun s : Store => s.rules.get id) locks.store).trans h.1.2
  · exact Fact.wrote_draw h.2 locks (of_decide_eq_true (Bool.and_eq_true_iff.mp mine).1)

theorem approveRule_does (id : RuleId) (scope : Option ApproveScope) :
    Does t .idle (transaction (approveRule id scope)) (fun _ => .idle) .idle := by
  refine Does.transaction (B := fun _ => approved id) ?_ fun _ w inv h => .of_approved inv h
  have nothing (w : World) (_ : w.Inv) (h : (Fact.idle : Fact t) w) :
      (approved id : Fact t) w := fun x mem => (h x mem).elim
  refine Does.bind (B := fun current => current.elim .idle fun rule =>
      Fact.idle.and (.sharesRule id rule))
    (Does.shareRule sane_of (fun _ _ h => h) fun w d rule _ h seen locks shared => ?_) fun current => ?_
  · refine ⟨fun x mem => h x (locks.draft ▸ mem), shared, ?_⟩
    rw [seen_of_idle h] at seen
    exact (congrArg (fun s : Store => s.rules.get id) locks.store).trans seen
  · cases current with
    | none => exact Does.returns nothing
    | some rule =>
      refine Does.bind (Does.refuses sane_of) fun _ => Does.bind (Does.refuses sane_of) fun _ => ?_
      refine Does.guarded sane_of fun starts => ?_
      have starts : rule.canStart = true := by simpa using starts
      refine Does.bind (B := fun _ => approving id rule) ?_ fun _ => Does.bind
        (B := fun _ => approving id rule) (Does.reads sane_of rfl) fun _ =>
          Does.returns fun _ _ h _ _ => ⟨rule, starts, h⟩
      refine Does.bind (Does.reads sane_of rfl) fun ids => ?_
      exact (Does.updateEach (A := fun _ _ => approving id rule)
        (fun matchId _ _ => approveMatch_does id rule matchId) ids []).ends
          (fun _ _ h => ⟨h.2, Fact.wrote_of_idle h.1⟩) (fun _ _ _ h => h) fun _ _ h => h

theorem approveAllForRule_does (queue : Bool) (id : RuleId) (scope : Option ApproveScope) :
    Does t .idle (approveAllForRule queue id scope) (fun _ => .idle) .idle := by
  refine Does.guarded (fun _ _ h => h) fun _ => Does.bind (approveRule_does id scope) fun counts => ?_
  cases counts with
  | none => exact Does.returns fun _ _ h => h
  | some counts =>
    exact Does.bind (enqueueIfApproved_does counts.1) fun _ => Does.returns fun _ _ h => h

section Hidden

variable {s s' : Store} {id : MatchId} {m' : Match}

/-- A change that does not expose a suggestion leaves its rule running. -/
theorem ruleCanStart_of_hidden (hidden : exposes s s' id = false)
    (found : s'.matchLog.get id = some m') (observed : m'.observed = true)
    (before : s.ruleCanStart m' = true) : s'.ruleCanStart m' = true := by
  unfold exposes at hidden
  rw [found, Option.any_some, observed, before] at hidden
  simpa using hidden

/-- A suggestion of a rule that is stopped has been one already. -/
theorem pending_of_hidden (hidden : exposes s s' id = false)
    (found : s'.matchLog.get id = some m') (pending : s'.isPendingSuggestion m' = true)
    (stopped : s'.ruleCanStart m' = false) :
    ∃ m, s.matchLog.get id = some m ∧ s.isPendingSuggestion m = true := by
  have observed : m'.observed = true := (Bool.and_eq_true_iff.mp pending).1
  unfold exposes at hidden
  rw [found, Option.any_some, observed, stopped, pending] at hidden
  simp only [Bool.not_false, Bool.true_and, Bool.or_eq_false_iff, Bool.not_eq_false'] at hidden
  exact (Option.any_eq_true _ _).mp hidden.2

end Hidden

theorem World.Kept.before (kept : World.Kept t w w') (fine : w'.overtaken = false) :
    w.overtaken = false := by
  by_contra past
  have past := kept.overtaken (Bool.eq_true_of_not_eq_false past)
  rw [fine] at past
  cases past

/-- `approveMatches` has found no pending suggestion of a rule that is stopped. -/
def cleared (ids : List MatchId) : Fact t where
  holds w := w.overtaken = false → (t, ids) ∈ w.checked ∧ ∀ id ∈ ids, ∀ m,
    w.db.store.matchLog.get id = some m → w.db.store.isPendingSuggestion m = true →
      w.db.store.ruleCanStart m = true
  kept := by
    intro w w' _ h kept fine
    obtain ⟨mem, starts⟩ := h (kept.before fine)
    refine ⟨kept.checked ids mem, fun id here m' found pending => ?_⟩
    have hidden := kept.exposed fine ids mem id here
    by_contra stopped
    obtain ⟨m, before, was⟩ := pending_of_hidden hidden found pending
      (Bool.eq_false_iff.mpr stopped)
    obtain ⟨row, after, follows⟩ := kept.advances.rows id m before
    obtain rfl := Option.some.inj (after.symm.trans found)
    have running : w.db.store.ruleCanStart row = true := by
      rw [Store.ruleCanStart, follows.ruleId]
      exact starts id here m before was
    exact stopped (ruleCanStart_of_hidden hidden found (Bool.and_eq_true_iff.mp pending).1 running)

/-- Of those that were checked, the ones that the update has found. -/
def scanned (ids found : List MatchId) : Fact t where
  holds w := w.overtaken = false → (t, ids) ∈ w.checked ∧ ∀ id ∈ found, id ∈ ids ∧
    ∃ m, w.db.store.matchLog.get id = some m ∧
      (m.observed = true → w.db.store.ruleCanStart m = true)
  kept := by
    intro w w' _ h kept fine
    obtain ⟨mem, starts⟩ := h (kept.before fine)
    refine ⟨kept.checked ids mem, fun id here => ?_⟩
    obtain ⟨known, m, before, running⟩ := starts id here
    obtain ⟨m', after, follows⟩ := kept.advances.rows id m before
    refine ⟨known, m', after, fun observed => ?_⟩
    have hidden := kept.exposed fine ids mem id known
    refine ruleCanStart_of_hidden hidden after observed ?_
    rw [Store.ruleCanStart, follows.ruleId]
    exact running (follows.observed observed)

theorem cleared_of_unblocked {ids : List MatchId} (idle : (Fact.idle : Fact t) w)
    (none : (w.seen t).blocked ids = []) :
    (cleared ids : Fact t) { w with checked := (t, ids) :: w.checked } := by
  refine fun _ => ⟨List.mem_cons_self, fun id mem m found pending => ?_⟩
  by_contra stopped
  have blocked : id ∈ (w.seen t).blocked ids := by
    rw [seen_of_idle idle]
    refine mem_matching.mpr ⟨m, found, ?_⟩
    rw [Bool.and_eq_true_iff, Bool.and_eq_true_iff]
    exact ⟨⟨List.contains_iff_mem.mpr mem, pending⟩, by simpa using stopped⟩
  rw [none] at blocked
  cases blocked

theorem scanned_of_cleared {ids : List MatchId} (idle : (Fact.idle : Fact t) w)
    (h : (cleared ids : Fact t) w) :
    (scanned ids ((w.seen t).matching fun s id row => ids.contains id && s.isOfferable row) :
      Fact t) w := by
  intro fine
  obtain ⟨mem, starts⟩ := h fine
  refine ⟨mem, fun id here => ?_⟩
  rw [seen_of_idle idle] at here
  obtain ⟨m, found, offered⟩ := mem_matching.mp here
  obtain ⟨known, offered⟩ := Bool.and_eq_true_iff.mp offered
  have known := List.contains_iff_mem.mp known
  have pending : w.db.store.isPendingSuggestion m = true := by
    unfold Store.isOfferable at offered
    exact (Bool.and_eq_true_iff.mp (Bool.and_eq_true_iff.mp offered).1).1
  exact ⟨known, m, found, fun _ => starts id known m found pending⟩

/-- Observed suggestions among those found are approved. -/
def approvingFound (ids found : List MatchId) : Fact t :=
  (scanned ids found).and (.wrote (fun _ _ _ => False) fun id before _ => id ∈ found ∧
    ∀ m, before = some m → m.observed = true)

theorem Ready.of_approvingFound {ids found : List MatchId} (inv : w.Inv)
    (h : (approvingFound ids found : Fact t) w) : Ready t w := by
  refine .of_approvals inv h.2 fun fine id m row before _ written => ?_
  obtain ⟨-, m', found', running⟩ := (h.1 fine).2 id written.1
  obtain rfl := Option.some.inj (before.symm.trans found')
  exact running (written.2 m rfl)

theorem approveFound_does {ids found : List MatchId} {id : MatchId} (mem : id ∈ found) :
    Does t (approvingFound ids found) (run (.updateMatch id Match.observed Match.approve))
      (fun _ => approvingFound ids found) .sane := by
  refine Does.updateMatch sane_of (follows_of_observed fun _ h => h) (fun _ _ h _ => h)
    fun w d m _ h seen observed locks _ => ⟨?_, Fact.wrote_draw h.2 locks ⟨mem, ?_⟩⟩
  · intro fine
    have store : (d.draw t (.suggestion id m.approve)).store = w.db.store := locks.store
    obtain ⟨known, starts⟩ := h.1 fine
    refine ⟨known, fun id here => ?_⟩
    dsimp only
    rw [store]
    exact starts id here
  · intro m' before
    rcases Fact.wrote_seen h.2 seen with same | written
    · obtain rfl := Option.some.inj (before.symm.trans same)
      exact observed
    · exact written.2 m' before

/-- The `UPDATE` of `approveMatches`. -/
theorem approveOffered_does (ids : List MatchId) :
    Does t (Fact.idle.and (cleared ids)) (updateMatches
      (fun s id row => ids.contains id && s.isOfferable row) Match.observed Match.approve)
      (fun _ => .ex fun found => approvingFound ids found) .sane := by
  refine Does.bind (B := fun found => approvingFound ids found) (Does.scan sane_of fun w _ h => ?_)
    fun found => ?_
  · exact ⟨scanned_of_cleared h.1 h.2, Fact.wrote_of_idle h.1⟩
  · refine (Does.updateEach (A := fun left _ => (approvingFound ids found).and
      (.fact (left ⊆ found))) (fun id left _ => ?_) found []).ends
        (fun _ _ h => ⟨h, List.Subset.refl _⟩) (fun _ _ _ h => ⟨found, h.1⟩) fun _ _ h => h
    refine Does.since (fun _ _ h => h.2) fun (within : id :: left ⊆ found) => ?_
    refine (approveFound_does (within List.mem_cons_self)).ends (fun _ _ h => h.1)
      (fun _ _ _ h => ⟨h, ?_⟩) fun _ _ h => h
    exact (List.cons_subset.mp within).2

theorem approveMatches_does (queue : Bool) (ids : List MatchId) :
    Does t .idle (approveMatches queue ids) (fun _ => .idle) .idle := by
  have idle (w : World) (_ : w.Inv) (h : (Fact.idle : Fact t) w) : (Fact.idle : Fact t) w := h
  refine Does.guarded idle fun _ => Does.bind (Does.reads idle rfl) fun deletes => ?_
  refine Does.guarded idle fun _ => Does.bind (B := fun n => match n with
      | 0 => Fact.idle.and (cleared ids)
      | _ => .idle) (Does.countBlocked idle ?_ ?_) fun blocked => ?_
  · rintro (_ | n) w _ h more
    · omega
    · exact h
  · exact fun w _ h none => ⟨h, cleared_of_unblocked h none⟩
  cases blocked with
  | succ n => exact Does.throws idle
  | zero =>
    refine Does.guarded (fun _ _ h => h.1) fun _ => Does.bind (B := fun _ => .idle) ?_ fun updated => ?_
    · refine Does.transaction (B := fun _ => .ex fun found => approvingFound ids found) ?_
        fun _ w inv ⟨found, h⟩ => .of_approvingFound inv h
      exact approveOffered_does ids
    refine Does.bind (Does.reads idle rfl) fun _ => Does.bind (Does.reads idle rfl) fun _ => ?_
    exact Does.bind (enqueueIfApproved_does _) fun _ => Does.returns idle

end DeclutrMail.Autopilot
