import DeclutrMail.Autopilot.Approved

/-!
# What a saved rule leaves behind

`patchRule` holds the rule from its first write on, so no match of the rule is inserted until it
ends. A material change locks every match that is outstanding, refuses if one of them is approved
and dismisses the rest.
-/

namespace DeclutrMail.Autopilot

open Interleaving

variable {t : ℕ} {w w' : World} {id : RuleId} {patch : RulePatch} {old : Rule}

theorem RulePatch.newer (patch : RulePatch) (r : Rule) : Newer r (patch.set r) := by
  refine ⟨patch.version_le_set, fun same => patch.criteria_of_not_material ?_⟩
  by_contra material
  have next : (patch.set r).version = r.version + 1 :=
    patch.version_of_material (Bool.eq_true_of_not_eq_false material)
  omega

/-- The rule is locked, and its matches are not approved. -/
def saving (id : RuleId) (patch : RulePatch) (old : Rule) : Fact t :=
  (Fact.holdsRule id old).and (.wrote (fun rule r row => rule = id ∧ row = patch.set r)
    fun _ before row => ∃ m, before = some m ∧
      (row.resolution = .approved → m.resolution ≠ .pending))

theorem saving_draw {d : Database} {x : MatchId} {row : Match}
    (h : (saving id patch old : Fact t) w) (locks : Database.Locks t w.db d)
    (new : ∃ m, w.db.store.matchLog.get x = some m ∧
      (row.resolution = .approved → m.resolution ≠ .pending)) :
    (saving id patch old : Fact t) { w with db := d.draw t (.suggestion x row) } := by
  refine ⟨⟨locks.holder _ h.1.1, ?_⟩, Fact.wrote_draw h.2 locks new⟩
  exact (congrArg (fun s : Store => s.rules.get id) locks.store).trans h.1.2

/-- A match that the transaction sees has a row. -/
theorem saving_seen {x : MatchId} {v : Match} (h : (saving id patch old : Fact t) w)
    (seen : (w.seen t).matchLog.get x = some v) :
    ∃ m, w.db.store.matchLog.get x = some m ∧
      (v.resolution = .approved → m.resolution ≠ .pending) := by
  rcases Fact.wrote_seen h.2 seen with same | written
  · refine ⟨v, same, fun approved => ?_⟩
    rw [approved]
    decide
  · exact written

/-- Of the outstanding matches of the rule, those that are not in `ids` are locked and satisfy
`R`. -/
def rest (id : RuleId) (ids : List MatchId) (R : MatchId → Match → Prop) : Fact t where
  holds w := w.db.holder (.rule id) = some t ∧ ∀ x m v, w.db.store.matchLog.get x = some m →
    (w.seen t).matchLog.get x = some v → m.ruleId = id → m.outstanding = true →
      x ∈ ids ∨ w.db.holder (.suggestion x) = some t ∧ R x v
  kept := by
    intro w w' inv ⟨held, h⟩ kept
    refine ⟨(kept.shields.holder _).mpr held, fun x m' v after seen same out => ?_⟩
    obtain ⟨m, before⟩ := kept.outstanding id held x m' after same out
    obtain ⟨row, after', follows⟩ := kept.advances.rows x m before
    obtain rfl := Option.some.inj (after.symm.trans after')
    obtain ⟨u, seen', -⟩ := (inv.conforms t).old x m before
    rcases h x m u before seen' (follows.ruleId ▸ same) (follows.outstanding out) with
      listed | ⟨mine, holds⟩
    · exact .inl listed
    · refine .inr ⟨(kept.shields.holder _).mpr mine, ?_⟩
      have same : (w'.seen t).matchLog.get x = (w.seen t).matchLog.get x := by
        unfold World.seen Database.seen Transactions.view
        rw [kept.shields.draft]
        exact matchLog_congr (kept.shields.rows x mine)
      obtain rfl := Option.some.inj (seen'.symm.trans (same.symm.trans seen))
      exact holds

variable {ids ids' : List MatchId} {R R' : MatchId → Match → Prop}

theorem rest_mono (h : (rest id ids R : Fact t) w)
    (le : ∀ x m v, w.db.store.matchLog.get x = some m → (w.seen t).matchLog.get x = some v →
      m.ruleId = id → m.outstanding = true →
        x ∈ ids ∨ w.db.holder (.suggestion x) = some t ∧ R x v →
          x ∈ ids' ∨ w.db.holder (.suggestion x) = some t ∧ R' x v) :
    (rest id ids' R' : Fact t) w :=
  ⟨h.1, fun x m v found seen same out => le x m v found seen same out (h.2 x m v found seen same out)⟩

/-- A match is locked and written. -/
theorem rest_draw {d : Database} {x : MatchId} {row : Match}
    (h : (rest id ids R : Fact t) w) (locks : Database.Locks t w.db d)
    (mine : d.holder (.suggestion x) = some t) (this : R' x row)
    (others : ∀ y v, y ≠ x → y ∈ ids ∨ w.db.holder (.suggestion y) = some t ∧ R y v →
      y ∈ ids' ∨ w.db.holder (.suggestion y) = some t ∧ R' y v) :
    (rest id ids' R' : Fact t) { w with db := d.draw t (.suggestion x row) } := by
  have store : (d.draw t (.suggestion x row)).store = w.db.store := locks.store
  refine ⟨locks.holder _ h.1, fun y m v found seen same out => ?_⟩
  dsimp only [World.seen] at found seen ⊢
  rw [store] at found
  rw [Database.seen_draw, locks.seen, Store.matchLog_apply] at seen
  dsimp only at seen
  split_ifs at seen with here
  · subst here
    obtain rfl := Option.some.inj seen
    exact .inr ⟨mine, this⟩
  · rcases others y v (Ne.symm here) (h.2 y m v found seen same out) with listed | ⟨held, holds⟩
    · exact .inl listed
    · exact .inr ⟨locks.holder _ held, holds⟩

/-! ## The sweep -/

/-- A match that is no longer what it is committed as is locked. -/
theorem held_of_changed {x : MatchId} {m v : Match} (inv : w.Inv)
    (found : w.db.store.matchLog.get x = some m) (seen : (w.seen t).matchLog.get x = some v)
    (changed : v ≠ m) : w.db.holder (.suggestion x) = some t := by
  rcases mem_of_matchLog seen with same | written
  · exact absurd (Option.some.inj (same.symm.trans found)) changed
  · exact (inv.conforms t).held _ written

theorem ruleId_of_seen {x : MatchId} {m v : Match} (inv : w.Inv)
    (found : w.db.store.matchLog.get x = some m) (seen : (w.seen t).matchLog.get x = some v) :
    v.ruleId = m.ruleId := by
  obtain ⟨row, seen', follows⟩ := (inv.conforms t).old x m found
  obtain rfl := Option.some.inj (seen.symm.trans seen')
  exact follows.ruleId

/-- The matches in `ids` are still to be locked, and `rows` are those that are outstanding. -/
def locking (id : RuleId) (patch : RulePatch) (old : Rule) (ids : List MatchId)
    (rows : List Match) : Fact t :=
  (saving id patch old).and (rest id ids fun _ v => v.outstanding = true → v ∈ rows)

/-- The matches in `ids` are pending and still to be dismissed. -/
def dismissing (id : RuleId) (patch : RulePatch) (old : Rule) (ids : List MatchId) : Fact t :=
  (saving id patch old).and (rest id [] fun x v =>
    v.outstanding = true → v.resolution = .pending ∧ x ∈ ids)

/-- No match of the rule is outstanding. -/
def swept (id : RuleId) (patch : RulePatch) (old : Rule) : Fact t :=
  (saving id patch old).and (rest id [] fun _ v => v.outstanding = false)

theorem lockMatch_does (x : MatchId) (ids : List MatchId) (rows : List Match) :
    Does t (locking id patch old (x :: ids) rows)
      (run (.updateMatch x (outstandingOf id) fun row => row))
      (fun row => locking id patch old ids (rows ++ row.toList)) .sane := by
  refine Does.updateMatch sane_of (fun m _ => .refl m) (fun w inv h gone => ⟨h.1, ?_⟩)
    fun w d m inv h seen here locks mine => ⟨?_, ?_⟩
  · refine rest_mono h.2 fun y m v found seen same out known => ?_
    rw [Option.toList_none, List.append_nil]
    rcases known with listed | held
    · rcases List.mem_cons.mp listed with rfl | listed
      · have past := gone v seen
        rw [outstandingOf, ruleId_of_seen inv found seen, same, decide_eq_true rfl,
          Bool.true_and] at past
        refine .inr ⟨held_of_changed inv found seen ?_, fun still => ?_⟩
        · rintro rfl
          rw [out] at past
          cases past
        · rw [past] at still
          cases still
      · exact .inl listed
    · exact .inr held
  · exact saving_draw h.1 locks (saving_seen h.1 seen)
  · refine rest_draw h.2 locks mine (fun _ => by simp) fun y v other known => ?_
    rcases known with listed | ⟨held, holds⟩
    · exact .inl ((List.mem_cons.mp listed).resolve_left other)
    · exact .inr ⟨held, fun out => List.mem_append_left _ (holds out)⟩

theorem lockMatches_does : Does t (saving id patch old)
    (updateMatches (fun _ _ row => outstandingOf id row) (outstandingOf id) fun row => row)
    (locking id patch old []) .sane := by
  refine Does.bind (B := fun ids => locking id patch old ids [])
    (Does.scan sane_of fun w inv h => ⟨h, h.1.1, fun x m v found seen same out => ?_⟩) fun ids => ?_
  · cases still : v.outstanding with
    | false =>
      refine .inr ⟨held_of_changed inv found seen ?_, fun out' =>
        absurd (still.symm.trans out') Bool.false_ne_true⟩
      rintro rfl
      rw [out] at still
      cases still
    | true =>
      refine .inl (mem_matching.mpr ⟨v, seen, ?_⟩)
      simp [outstandingOf, ruleId_of_seen inv found seen, same, still]
  · exact (Does.updateEach lockMatch_does ids []).ends (fun _ _ h => h) (fun _ _ _ h => h)
      fun _ _ h => h

theorem outstanding_dismiss (m : Match) : m.dismiss.outstanding = false := by
  simp [Match.outstanding, Match.dismiss]

theorem dismissed_new {x : MatchId} {m : Match} (h : (saving id patch old : Fact t) w)
    (seen : (w.seen t).matchLog.get x = some m) : ∃ m₀, w.db.store.matchLog.get x = some m₀ ∧
      (m.dismiss.resolution = .approved → m₀.resolution ≠ .pending) := by
  obtain ⟨m₀, found, -⟩ := saving_seen h seen
  exact ⟨m₀, found, nofun⟩

theorem dismissMatch_does (x : MatchId) (ids : List MatchId) :
    Does t (dismissing id patch old (x :: ids))
      (run (.updateMatch x (pendingOf id) Match.dismiss))
      (fun _ => dismissing id patch old ids) .sane := by
  refine Does.updateMatch sane_of (fun m _ => .dismiss m) (fun w inv h gone => ⟨h.1, ?_⟩)
    fun w d m inv h seen here locks mine => ⟨?_, ?_⟩
  · refine rest_mono h.2 fun y m v found seen same out known => known.imp_right fun held => ?_
    refine ⟨held.1, fun still => ?_⟩
    obtain ⟨pending, listed⟩ := held.2 still
    refine ⟨pending, (List.mem_cons.mp listed).resolve_left ?_⟩
    rintro rfl
    have applied : v.intentApplied = false := by
      simpa using (Bool.and_eq_true_iff.mp still).2
    have past := gone v seen
    simp [pendingOf, ruleId_of_seen inv found seen, same, pending, applied] at past
  · exact saving_draw h.1 locks (dismissed_new h.1 seen)
  · refine rest_draw h.2 locks mine (fun out => ?_) fun y v other => Or.imp_right fun held => ?_
    · rw [outstanding_dismiss] at out
      cases out
    · refine ⟨held.1, fun out => ?_⟩
      obtain ⟨pending, listed⟩ := held.2 out
      exact ⟨pending, (List.mem_cons.mp listed).resolve_left other⟩

/-- More dismissals leave it so. -/
theorem dismissSwept_does (x : MatchId) (p : Match → Bool) :
    Does t (swept id patch old) (run (.updateMatch x p Match.dismiss))
      (fun _ => swept id patch old) .sane := by
  refine Does.updateMatch sane_of (fun m _ => .dismiss m) (fun w inv h _ => h)
    fun w d m inv h seen _ locks mine => ⟨saving_draw h.1 locks (dismissed_new h.1 seen), ?_⟩
  exact rest_draw h.2 locks mine (outstanding_dismiss m) fun y v _ held => held

theorem supersede_does : Does t (saving id patch old) (supersede id)
    (fun _ => swept id patch old) .sane := by
  refine Does.bind (Does.reads sane_of rfl) fun frozen => Does.guarded sane_of fun _ => ?_
  refine Does.bind lockMatches_does fun rows => Does.guarded sane_of fun none => ?_
  refine Does.bind (B := fun _ => swept id patch old) ?_ fun _ => Does.returns fun _ _ h => h
  refine Does.bind (B := fun ids => dismissing id patch old ids)
    (Does.scan sane_of fun w inv h => ⟨h.1, ?_⟩) fun ids => ?_
  · refine rest_mono h.2 fun x m v found seen same out known => known.imp_right fun held => ?_
    refine ⟨held.1, fun still => ?_⟩
    have listed := held.2 still
    have applied : v.intentApplied = false := by
      simpa using (Bool.and_eq_true_iff.mp still).2
    have pending : v.resolution = .pending := by
      have undismissed : v.resolution ≠ .dismissed := by
        simpa using (Bool.and_eq_true_iff.mp still).1
      have unapproved : v.resolution ≠ .approved := by
        simpa using List.any_eq_false.mp none v listed
      cases here : v.resolution with
      | pending => rfl
      | approved => exact absurd here unapproved
      | dismissed => exact absurd here undismissed
    refine ⟨pending, mem_matching.mpr ⟨v, seen, ?_⟩⟩
    simp [pendingOf, ruleId_of_seen inv found seen, same, pending, applied]
  · refine (Does.updateEach (A := fun ids _ => dismissing id patch old ids)
      (fun x ids _ => dismissMatch_does x ids) ids []).ends (fun _ _ h => h) (fun _ w _ h => ⟨h.1, ?_⟩)
      fun _ _ h => h
    refine rest_mono h.2 fun x m v _ _ _ _ known => known.imp_right fun held => ⟨held.1, ?_⟩
    by_contra still
    cases (held.2 (Bool.eq_true_of_not_eq_false still)).2

/-! ## The call -/

/-- A change of the criteria has left no match outstanding. -/
def closing (id : RuleId) (patch : RulePatch) (old : Rule) : Fact t where
  holds w := (saving id patch old : Fact t) w ∧
    (patch.material = true → (swept id patch old : Fact t) w)
  kept inv h kept := ⟨(saving id patch old).kept inv h.1 kept,
    fun material => (swept id patch old).kept inv (h.2 material) kept⟩

theorem Ready.of_closing (inv : w.Inv) (h : (closing id patch old : Fact t) w) : Ready t w := by
  refine ⟨fun rule r r' found seen changed x v there mine => ?_,
    fun _ x m v found pending seen approved => ?_⟩
  · rcases Fact.wrote_rule h.1.2 seen with same | ⟨r₀, found', rfl, rfl⟩
    · obtain rfl := Option.some.inj (found.symm.trans same)
      exact absurd rfl changed
    · obtain rfl := Option.some.inj (found.symm.trans found')
      have material : patch.material = true := by
        by_contra other
        exact changed (patch.criteria_of_not_material (Bool.eq_false_iff.mpr other))
      obtain ⟨m, before, -⟩ := saving_seen h.1 there
      by_contra still
      obtain ⟨row, seen', follows⟩ := (inv.conforms t).old x m before
      obtain rfl := Option.some.inj (there.symm.trans seen')
      have out := follows.outstanding (Bool.eq_true_of_not_eq_false still)
      rcases (h.2 material).2.2 x m v before there (follows.ruleId ▸ mine) out with none | ⟨-, past⟩
      · cases none
      · exact still past
  · obtain ⟨m', found', unapproved⟩ := saving_seen h.1 seen
    obtain rfl := Option.some.inj (found.symm.trans found')
    exact absurd pending (unapproved approved)

theorem supersedeObserved_does : Does t (closing id patch old) (supersedeObserved id)
    (fun _ => closing id patch old) .sane := by
  refine Does.bind (B := fun _ => closing id patch old) ?_ fun _ => Does.returns fun _ _ h => h
  refine Does.bind (Does.reads sane_of rfl) fun ids => ?_
  refine (Does.updateEach (A := fun _ _ => closing id patch old) (fun x _ _ => ?_) ids []).ends
    (fun _ _ h => h) (fun _ _ _ h => h) fun _ _ h => h
  refine Does.updateMatch sane_of (fun m _ => .dismiss m) (fun w _ h _ => h)
    fun w d m inv h seen _ locks mine => ?_
  have drawn := saving_draw h.1 locks (dismissed_new h.1 seen)
  exact ⟨drawn, fun material => ⟨drawn, rest_draw (h.2 material).2 locks mine
    (outstanding_dismiss m) fun _ _ _ held => held⟩⟩

theorem check_does {A : Fact t} (patch : RulePatch) (row : Rule) :
    Does t A (patch.check row) (fun _ => A) .sane := by
  refine Does.guarded sane_of fun _ => Does.guarded sane_of fun _ => ?_
  exact Does.guarded sane_of fun _ => Does.refuses sane_of

/-- What a save has left, if it has found its rule. -/
def saved (id : RuleId) (patch : RulePatch) : Option Rule → Fact t
  | none => .idle
  | some _ => .ex (closing id patch)

/-- What the update of the rule has left, if it has found its rule. -/
def began (id : RuleId) (patch : RulePatch) : Option Rule → Fact t
  | none => .idle
  | some _ => .ex (saving id patch)

theorem saveRule_does (id : RuleId) (patch : RulePatch) :
    Does t .idle (saveRule id patch) (saved id patch) .sane := by
  refine Does.bind (B := began id patch) (Does.updateRule sane_of (fun r _ => patch.newer r)
    (fun _ _ h => h) fun w d r inv h seen _ locks mine => ⟨r, ⟨mine, ?_⟩, ?_⟩) fun row => ?_
  · rw [seen_of_idle h] at seen
    exact (congrArg (fun s : Store => s.rules.get id) locks.store).trans seen
  · rw [seen_of_idle h] at seen
    exact Fact.wrote_draw (Fact.wrote_of_idle h) locks ⟨r, seen, rfl, rfl⟩
  cases row with
  | none =>
    refine Does.bind (Does.reads sane_of rfl) fun existing => Does.guarded sane_of fun _ => ?_
    exact Does.returns fun _ _ h => h
  | some row =>
    refine fun w ⟨inv, old, h⟩ => ?_
    suffices Does t (saving id patch old) (do
        patch.check row
        .when patch.material (supersede id)
        .when (patch.startsWork row && row.mode = .active) (supersedeObserved id)
        return some row) (saved id patch) .sane from this w ⟨inv, h⟩
    refine Does.bind (check_does patch row) fun _ => ?_
    refine Does.bind (B := fun _ => closing id patch old) (Does.when (fun _ => ?_) ?_) fun _ => ?_
    · exact supersede_does.ends (fun _ _ h => h) (fun _ _ _ h => ⟨h.1, fun _ => h⟩) fun _ _ h => h
    · exact fun immaterial w _ h => ⟨h, fun material => absurd (immaterial.symm.trans material)
        Bool.false_ne_true⟩
    · refine Does.bind (B := fun _ => closing id patch old)
        (Does.when (fun _ => supersedeObserved_does) fun _ _ _ h => h) fun _ => ?_
      exact Does.returns fun _ _ h => ⟨old, h⟩

theorem assertMayBeActive_does (id : RuleId) (patch : RulePatch) :
    Does t .idle (assertMayBeActive id patch) (fun _ => .idle) .idle := by
  have idle (w : World) (_ : w.Inv) (h : (Fact.idle : Fact t) w) : (Fact.idle : Fact t) w := h
  unfold assertMayBeActive
  split_ifs
  · refine Does.bind (Does.reads idle rfl) fun target => Does.guarded idle fun _ => ?_
    exact Does.guarded idle fun _ => Does.refuses idle
  · exact Does.returns idle

theorem patchRule_does (id : RuleId) (patch : RulePatch) :
    Does t .idle (patchRule id patch) (fun _ => .idle) .idle := by
  have idle (w : World) (_ : w.Inv) (h : (Fact.idle : Fact t) w) : (Fact.idle : Fact t) w := h
  refine Does.guarded idle fun _ => Does.guarded idle fun _ => Does.guarded idle fun _ => ?_
  refine Does.guarded idle fun _ => Does.bind (assertMayBeActive_does id patch) fun _ => ?_
  refine Does.tryCatch (Does.transaction (saveRule_does id patch) fun row w inv h => ?_)
    fun e => Does.throws idle
  cases row with
  | none => exact .of_idle h
  | some row =>
    obtain ⟨old, h⟩ := h
    exact .of_closing inv h

end DeclutrMail.Autopilot
