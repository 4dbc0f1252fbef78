import DeclutrMail.Autopilot.RuleLocks

/-!
# What the statements on rules do

One rule for each kind of statement: what a call may know before it and after it, while the others
do what their locks allow.
-/

namespace DeclutrMail.Autopilot

open Interleaving

variable {t : ℕ} {w w' : World}

/-! ## Facts -/

/-- What a thread may know, whatever the others do. -/
structure Fact (t : ℕ) where
  holds : World → Prop
  kept : ∀ {w w'}, w.Inv → holds w → World.Kept t w w' → holds w'

namespace Fact

instance : CoeFun (Fact t) (fun _ => World → Prop) := ⟨holds⟩

abbrev assertion (A : Fact t) : Assertion (W := World) (Rely t) where
  holds w := w.Inv ∧ A w
  stable _ _ h r := ⟨r.1, A.kept h.1 h.2 r.2⟩

def and (A B : Fact t) : Fact t :=
  ⟨fun w => A w ∧ B w, fun inv h kept => ⟨A.kept inv h.1 kept, B.kept inv h.2 kept⟩⟩

/-- What no world changes. -/
def fact (φ : Prop) : Fact t := ⟨fun _ => φ, fun _ h _ => h⟩

def ex {ι : Type} (A : ι → Fact t) : Fact t :=
  ⟨fun w => ∃ i, A i w, fun inv ⟨i, h⟩ kept => ⟨i, (A i).kept inv h kept⟩⟩

/-- Nothing is known. -/
def sane : Fact t := ⟨fun _ => True, fun _ _ _ => trivial⟩

/-- All that the thread has written satisfies `P`. -/
def drafts (P : Write → Prop) : Fact t :=
  ⟨fun w => ∀ x ∈ w.db.draft t, P x, fun _ h kept x mem => h x (kept.shields.draft ▸ mem)⟩

/-- The thread has written nothing. -/
def idle : Fact t := drafts fun _ => False

/-- A rule that the thread has locked for itself, as it is committed. -/
def holdsRule (id : RuleId) (row : Rule) : Fact t where
  holds w := w.db.holder (.rule id) = some t ∧ w.db.store.rules.get id = some row
  kept _ h kept :=
    ⟨(kept.shields.holder _).mpr h.1, (kept.shields.rules id (.inl h.1)).trans h.2⟩

/-- A rule that the thread has locked for share. -/
def sharesRule (id : RuleId) (row : Rule) : Fact t where
  holds w := t ∈ w.db.sharers (.rule id) ∧ w.db.store.rules.get id = some row
  kept _ h kept :=
    ⟨(kept.shields.sharers _).mpr h.1, (kept.shields.rules id (.inr h.1)).trans h.2⟩

/-- A rule that the thread has read. -/
def known (id : RuleId) (row : Rule) : Fact t where
  holds w := ∃ r, w.db.store.rules.get id = some r ∧ Newer row r
  kept := by
    rintro w w' - ⟨r, found, newer⟩ kept
    obtain ⟨r', found', newer'⟩ := kept.advances.rules id r found
    exact ⟨r', found', newer.trans newer'⟩

/-- The rule of every row that is written was read with the criteria it is committed with. -/
def wrote (P : RuleId → Rule → Rule → Prop) (Q : MatchId → Option Match → Match → Prop) :
    Fact t where
  holds w := ∀ x ∈ w.db.draft t,
    match x with
    | .rule id row => ∃ r, w.db.store.rules.get id = some r ∧ P id r row
    | .suggestion id row => Q id (w.db.store.matchLog.get id) row
  kept := by
    intro w w' inv h kept x mem
    rw [kept.shields.draft] at mem
    have held := (inv.conforms t).held x mem
    have before := h x mem
    cases x with
    | rule id row =>
      obtain ⟨r, found, holds⟩ := before
      exact ⟨r, (kept.shields.rules id (.inl held)).trans found, holds⟩
    | suggestion id row =>
      have same := kept.shields.rows id held
      dsimp only at before ⊢
      rwa [same]

end Fact

/-! ## Triples -/

abbrev Does {α : Type} (t : ℕ) (A : Fact t) (p : RuleProgram α) (B : α → Fact t) (E : Fact t) :
    Prop :=
  @Triple RuleSignature ruling Rely t α Guarantee A.assertion p (fun a => (B a).assertion)
    fun _ => E.assertion

namespace Does

variable {α β : Type} {A A' E E' : Fact t}

theorem bind {p : RuleProgram α} {f : α → RuleProgram β} {B : α → Fact t} {C : β → Fact t}
    (first : Does t A p B E) (rest : ∀ a, Does t (B a) (f a) C E) : Does t A (p >>= f) C E :=
  Triple.bind first rest

theorem tryCatch {p : RuleProgram α} {handler : ApiError → RuleProgram α} {B : α → Fact t}
    {F : Fact t} (first : Does t A p B F) (rest : ∀ e, Does t F (handler e) B E) :
    Does t A (tryCatch p handler) B E := Triple.tryCatch first rest

theorem returns {a : α} {B : α → Fact t} (le : ∀ w, w.Inv → A w → B a w) :
    Does t A (pure a) B E := Triple.done fun w h => ⟨h.1, le w h.1 h.2⟩

theorem throws {e : ApiError} {B : α → Fact t} (le : ∀ w, w.Inv → A w → E w) :
    Does t A (throw e) B E := Triple.failed fun w h => ⟨h.1, le w h.1 h.2⟩

theorem ends {p : RuleProgram α} {B B' : α → Fact t} (h : Does t A' p B' E')
    (pre : ∀ w, w.Inv → A w → A' w) (le : ∀ a w, w.Inv → B' a w → B a w)
    (fails : ∀ w, w.Inv → E' w → E w) : Does t A p B E :=
  Triple.consequence h (fun w h => ⟨h.1, pre w h.1 h.2⟩) (fun a w h => ⟨h.1, le a w h.1 h.2⟩)
    fun _ w h => ⟨h.1, fails w h.1 h.2⟩

/-- What the precondition says of the program itself. -/
theorem since {φ : Prop} {p : RuleProgram α} {B : α → Fact t} (known : ∀ w, w.Inv → A w → φ)
    (h : φ → Does t A p B E) : Does t A p B E := fun w hw => h (known w hw.1 hw.2) w hw

/-- A refusal under a condition. -/
theorem refuses {c : Bool} {e : ApiError} (fails : ∀ w, w.Inv → A w → E w) :
    Does t A (.when c (throw e)) (fun _ => A) E :=
  Triple.when (fun _ => throws fails) fun _ _ h => h

/-- What follows a refusal follows from its condition too. -/
theorem guarded {c : Bool} {e : ApiError} {f : Unit → RuleProgram α} {B : α → Fact t}
    (fails : ∀ w, w.Inv → A w → E w) (rest : c = false → Does t A (f ()) B E) :
    Does t A (.when c (throw e) >>= f) B E := by
  cases c with
  | true => exact throws fails
  | false => exact rest rfl

theorem when {c : Bool} {p : RuleProgram Unit} {B : Fact t}
    (yes : c = true → Does t A p (fun _ => B) E) (no : c = false → ∀ w, w.Inv → A w → B w) :
    Does t A (.when c p) (fun _ => B) E :=
  Triple.when yes fun none w h => ⟨h.1, no none w h.1 h.2⟩

theorem perform {q : Statement} {B : q.Answer → Fact t}
    (h : ∀ w, w.Inv → A w → ∀ c r w', answer t q c w = some (r, w') → Guarantee t w w' ∧
      match r with
      | .ok a => B a w'
      | .error _ => E w') : Does t A (run q) B E := by
  refine Triple.perform fun w hw c r w' answered => ?_
  obtain ⟨allowed, owed⟩ := h w hw.1 hw.2 c r w' answered
  refine ⟨allowed, ?_⟩
  cases r with
  | ok a => exact ⟨allowed.inv, owed⟩
  | error e => exact ⟨allowed.inv, owed⟩

/-- What the thread itself does not take away. -/
theorem frame {p : RuleProgram α} {B : α → Fact t} {F : Fact t} (h : Does t A p B E)
    (own : ∀ {w w'}, Guarantee t w w' → F w → F w') :
    Does t (A.and F) p (fun a => (B a).and F) (E.and F) := by
  refine Triple.consequence (Triple.frame (F := F.assertion) h ?_) ?_ ?_ ?_
  · exact fun allowed h => ⟨allowed.inv, own allowed h.2⟩
  · exact fun _ h => ⟨⟨h.1, h.2.1⟩, h.1, h.2.2⟩
  · exact fun _ _ h => ⟨h.1.1, h.1.2, h.2.2⟩
  · exact fun _ _ h => ⟨h.1.1, h.1.2, h.2.2⟩

end Does

/-! ## Statements that read -/

/-- The statement changes nothing. -/
def Statement.reads : Statement → Bool
  | .now | .selectTier | .materializeSignals | .countMatches _ | .queuedSenderKeys ..
  | .scanMatches _ | .selectRules _ | .selectRule .. | .hasBatch _ | .senderIndexStamp
  | .enqueueActionSweep => true
  | _ => false

section Answers

variable {q : Statement} {c : Choice} {e : ApiError}

theorem answer_reads {r : Except ApiError q.Answer} (reads : q.reads = true)
    (answered : answer t q c w = some (r, w')) : w' = w := by
  cases q with
  | now | selectTier | materializeSignals | countMatches p | queuedSenderKeys ruleId senderKeys
  | scanMatches p | selectRules p | selectRule id p | hasBatch ruleId | senderIndexStamp
  | enqueueActionSweep =>
    cases c <;> first
      | exact (Prod.mk.inj (Option.some.inj answered)).2.symm
      | cases answered
  | _ => cases reads

/-- A statement that fails changes nothing. -/
theorem answer_error (other : q ≠ .commit) (answered : answer t q c w = some (.error e, w')) :
    w' = w := by
  cases q with
  | commit => exact absurd rfl other
  | _ =>
    cases c <;> first
      | exact (Prod.mk.inj (Option.some.inj answered)).2.symm
      | cases answered
      | simp [answer] at answered

end Answers

namespace Does

variable {A E : Fact t} (fails : ∀ w, w.Inv → A w → E w)

include fails

theorem takes {q : Statement} {B : q.Answer → Fact t} (other : q ≠ .commit)
    (done : ∀ w, w.Inv → A w → ∀ c a w', answer t q c w = some (.ok a, w') →
      Guarantee t w w' ∧ B a w') : Does t A (run q) B E := by
  refine perform fun w inv h c r w' answered => ?_
  cases r with
  | ok a => exact done w inv h c a w' answered
  | error e =>
    obtain rfl := answer_error other answered
    exact ⟨.refl inv, fails _ inv h⟩

theorem reads {q : Statement} (reads : q.reads = true) : Does t A (run q) (fun _ => A) E := by
  refine takes fails (by rintro rfl; cases reads) fun w inv h c a w' answered => ?_
  obtain rfl := answer_reads reads answered
  exact ⟨.refl inv, h⟩

theorem scan {p : Store → MatchId → Match → Bool} {B : List MatchId → Fact t}
    (found : ∀ w, w.Inv → A w → B ((w.seen t).matching p) w) :
    Does t A (run (.scanMatches p)) B E := by
  refine takes fails nofun fun w inv h c a w' answered => ?_
  cases c with
  | ok =>
    cases answered
    exact ⟨.refl inv, found w inv h⟩
  | _ => cases answered

theorem selectRules {p : Rule → Bool} {B : List (RuleId × Rule) → Fact t}
    (found : ∀ w, w.Inv → A w → B ((w.seen t).rules.entries.filter fun (_, row) => p row) w) :
    Does t A (run (.selectRules p)) B E := by
  refine takes fails nofun fun w inv h c a w' answered => ?_
  cases c with
  | ok =>
    cases answered
    exact ⟨.refl inv, found w inv h⟩
  | _ => cases answered

/-- The check for stopped rules; a suggestion of none is checked. -/
theorem countBlocked {matchIds : List MatchId} {B : ℕ → Fact t}
    (stopped : ∀ n w, w.Inv → A w → 0 < n → B n w)
    (clear : ∀ w, w.Inv → A w → (w.seen t).blocked matchIds = [] →
      B 0 { w with checked := (t, matchIds) :: w.checked }) :
    Does t A (run (.countBlocked matchIds)) B E := by
  refine takes fails nofun fun w inv h c a w' answered => ?_
  cases c with
  | ok =>
    obtain ⟨same, rfl⟩ := Prod.mk.inj (Option.some.inj answered)
    obtain rfl := Except.ok.inj same
    split_ifs with none
    · refine ⟨?_, none ▸ clear w inv h (List.length_eq_zero_iff.mp none)⟩
      exact .drafts (d := w.db) inv rfl .refl inv.apart (inv.conforms t) fun _ _ _ mem =>
        List.mem_cons_of_mem _ mem
    · exact ⟨.refl inv, stopped _ w inv h (Nat.pos_of_ne_zero none)⟩
  | _ => cases answered

/-! ## Statements that lock and write -/

theorem shareRule {id : RuleId} {B : Option Rule → Fact t}
    (skips : ∀ w, w.Inv → A w → B none w)
    (writes : ∀ w d row, w.Inv → A w → (w.seen t).rules.get id = some row →
      Database.Locks t w.db d → t ∈ d.sharers (.rule id) → B (some row) { w with db := d }) :
    Does t A (run (.shareRule id)) B E := by
  refine takes fails nofun fun w inv h c a w' answered => ?_
  cases c with
  | ok =>
    obtain ⟨⟨a', v⟩, shared, same⟩ := Option.map_eq_some_iff.mp answered
    cases same
    unfold Autopilot.shareRule at shared
    split at shared
    · cases shared
      exact ⟨.refl inv, skips w inv h⟩
    · next row found =>
      obtain ⟨d, taken, same⟩ := Option.map_eq_some_iff.mp shared
      cases same
      obtain ⟨locks, mine⟩ := Database.Locks.share taken
      exact ⟨.drafts inv locks.store locks.unmoved (locks.apart inv.apart)
        (locks.conforms (inv.conforms t)) fun _ _ _ mem => mem,
        writes w d row inv h found locks mine⟩
  | _ => cases answered

theorem lockSenderIndex {B : Fact t}
    (done : ∀ w d, w.Inv → A w → Database.Locks t w.db d → B { w with db := d }) :
    Does t A (run .lockSenderIndex) (fun _ => B) E := by
  refine takes fails nofun fun w inv h c a w' answered => ?_
  cases c with
  | ok =>
    obtain ⟨d, taken, same⟩ := Option.map_eq_some_iff.mp answered
    cases same
    obtain ⟨locks, -⟩ := Database.Locks.lock taken
    exact ⟨.drafts inv locks.store locks.unmoved (locks.apart inv.apart)
      (locks.conforms (inv.conforms t)) fun _ _ _ mem => mem, done w d inv h locks⟩
  | _ => cases answered

omit fails in
/-- A row is written under its lock. -/
theorem written {d : Database} {x : Write} (inv : w.Inv) (locks : Database.Locks t w.db d)
    (held : d.holder x.lock = some t) (fits : d.Fits t x) :
    Guarantee t w { w with db := d.draw t x } := by
  have unmoved : Sharing.Unmoved t d (d.draw t x) := Sharing.draw_unmoved x
  exact .drafts (d := d.draw t x) inv locks.store
    ⟨locks.unmoved.toFrames.trans unmoved.toFrames, fun y other k =>
      (unmoved.sharers y other k).trans (locks.unmoved.sharers y other k)⟩
    (locks.apart inv.apart) ((locks.conforms (inv.conforms t)).draw held fits)
    fun _ _ _ mem => mem

theorem updateMatch {id : MatchId} {p : Match → Bool} {f : Match → Match}
    {B : Option Match → Fact t} (follows : ∀ m, p m = true → Follows m (f m))
    (skips : ∀ w, w.Inv → A w → (∀ m, (w.seen t).matchLog.get id = some m → p m = false) →
      B none w)
    (writes : ∀ w d m, w.Inv → A w → (w.seen t).matchLog.get id = some m → p m = true →
      Database.Locks t w.db d → d.holder (.suggestion id) = some t →
        B (some (f m)) { w with db := d.draw t (.suggestion id (f m)) }) :
    Does t A (run (.updateMatch id p f)) B E := by
  refine takes fails nofun fun w inv h c a w' answered => ?_
  cases c with
  | ok =>
    obtain ⟨⟨a', v⟩, updated, same⟩ := Option.map_eq_some_iff.mp answered
    cases same
    unfold Autopilot.updateMatch at updated
    split at updated
    · next absent =>
      cases updated
      refine ⟨.refl inv, skips w inv h fun m found => ?_⟩
      rw [absent] at found
      cases found
    · next m found =>
      split_ifs at updated with here
      · obtain ⟨d, taken, same⟩ := Option.map_eq_some_iff.mp updated
        cases same
        obtain ⟨locks, mine⟩ := Database.Locks.lock taken
        refine ⟨written inv locks mine ?_, writes w d m inv h found here locks mine⟩
        rw [Database.Fits, locks.seen]
        simpa only [World.seen] using found ▸ follows m here
      · cases updated
        refine ⟨.refl inv, skips w inv h fun m' found' => ?_⟩
        obtain rfl := Option.some.inj (found.symm.trans found')
        exact Bool.eq_false_iff.mpr here
  | _ => cases answered

theorem updateRule {id : RuleId} {p : Rule → Bool} {f : Rule → Rule} {B : Option Rule → Fact t}
    (newer : ∀ r, p r = true → Newer r (f r)) (skips : ∀ w, w.Inv → A w → B none w)
    (writes : ∀ w d r, w.Inv → A w → (w.seen t).rules.get id = some r → p r = true →
      Database.Locks t w.db d → d.holder (.rule id) = some t →
        B (some (f r)) { w with db := d.draw t (.rule id (f r)) }) :
    Does t A (run (.updateRule id p f)) B E := by
  refine takes fails nofun fun w inv h c a w' answered => ?_
  cases c with
  | ok =>
    obtain ⟨⟨a', v⟩, updated, same⟩ := Option.map_eq_some_iff.mp answered
    cases same
    unfold Autopilot.updateRule at updated
    split at updated
    · cases updated
      exact ⟨.refl inv, skips w inv h⟩
    · next r found =>
      split_ifs at updated with here
      · obtain ⟨d, taken, same⟩ := Option.map_eq_some_iff.mp updated
        cases same
        obtain ⟨locks, mine⟩ := Database.Locks.lock taken
        refine ⟨written inv locks mine fun r' found' => ?_, writes w d r inv h found here locks mine⟩
        rw [locks.seen] at found'
        obtain rfl := Option.some.inj (found.symm.trans found')
        exact newer r here
      · cases updated
        exact ⟨.refl inv, skips w inv h⟩
  | _ => cases answered

/-- A match may be inserted for a rule that the thread shares, if it has the rule's criteria. -/
theorem insertMatch {row : Match} {B : Option MatchId → Fact t}
    (rule : ∀ w, w.Inv → A w → t ∈ w.db.sharers (.rule row.ruleId) ∧
      ∃ r, w.db.store.rules.get row.ruleId = some r ∧ r.toCriteria = row.evaluated)
    (skips : ∀ w, w.Inv → A w → B none w)
    (writes : ∀ w d id, w.Inv → A w → (w.seen t).matchLog.get id = none →
      Database.Locks t w.db d → d.holder (.suggestion id) = some t →
        B (some id) { w with db := d.draw t (.suggestion id row) }) :
    Does t A (run (.insertMatch row)) B E := by
  refine takes fails nofun fun w inv h c a w' answered => ?_
  cases c with
  | id id =>
    obtain ⟨⟨a', v⟩, inserted, same⟩ := Option.map_eq_some_iff.mp answered
    cases same
    unfold Autopilot.insertMatch at inserted
    split_ifs at inserted with conflict there
    · cases inserted
      exact ⟨.refl inv, skips w inv h⟩
    · have absent : (w.seen t).matchLog.get id = none := by simpa using there
      obtain ⟨d', first, inserted⟩ := Option.bind_eq_some_iff.mp inserted
      obtain ⟨d, second, inserted⟩ := Option.bind_eq_some_iff.mp inserted
      cases inserted
      obtain ⟨locks, mine⟩ := Database.Locks.lock second
      have locks := (Database.Locks.lock first).1.trans locks
      refine ⟨written inv locks mine ?_, writes w d id inv h absent locks mine⟩
      obtain ⟨shared, criteria⟩ := rule w inv h
      rw [Database.Fits, locks.seen, locks.store]
      simpa only [World.seen] using absent ▸ ⟨locks.sharers _ shared, criteria⟩
  | _ => cases answered

/-! ## Transactions -/

omit fails

theorem commit (ready : ∀ w, w.Inv → A w → Ready t w) :
    Does t A (run .commit) (fun _ => .idle) .idle := by
  refine perform fun w inv h c r w' answered => ?_
  cases c with
  | ok =>
    cases answered
    refine ⟨.commit inv (ready w inv h), fun x mem => ?_⟩
    have none : (w.commit t).db.draft t = [] := Transactions.draft_commit
    rw [none] at mem
    cases mem
  | fails =>
    cases answered
    refine ⟨.rollback inv, fun x mem => ?_⟩
    have none : (w.rollback t).db.draft t = [] := Transactions.draft_rollback
    rw [none] at mem
    cases mem
  | _ => cases answered

theorem rollback : Does t A (run .rollback) (fun _ => .idle) E := by
  refine perform fun w inv h c r w' answered => ?_
  cases c with
  | ok =>
    cases answered
    refine ⟨.rollback inv, fun x mem => ?_⟩
    have none : (w.rollback t).db.draft t = [] := Transactions.draft_rollback
    rw [none] at mem
    cases mem
  | _ => cases answered

theorem transaction {α : Type} {body : RuleProgram α} {B : α → Fact t}
    (h : Does t A body B .sane) (ready : ∀ a w, w.Inv → B a w → Ready t w) :
    Does t A (transaction body) (fun _ => .idle) .idle := by
  refine bind (tryCatch h fun e => bind rollback fun _ => throws fun _ _ h => h) fun a => ?_
  exact bind (commit (ready a)) fun _ => returns fun _ _ h => h

/-- The rows of an `UPDATE`, one by one: `A ids rows` holds when `ids` are left. -/
theorem updateEach {p : Match → Bool} {f : Match → Match} {A : List MatchId → List Match → Fact t}
    (step : ∀ id ids rows, Does t (A (id :: ids) rows) (run (.updateMatch id p f))
      (fun row => A ids (rows ++ row.toList)) E) (ids : List MatchId) (rows : List Match) :
    Does t (A ids rows) (updateEach p f ids) (fun more => A [] (rows ++ more)) E := by
  induction ids generalizing rows with
  | nil => exact returns fun _ _ h => (List.append_nil rows).symm ▸ h
  | cons id ids ih =>
    refine bind (step id ids rows) fun row => bind (ih (rows ++ row.toList)) fun more => ?_
    exact returns fun _ _ h => (List.append_assoc rows row.toList more) ▸ h

end Does

end DeclutrMail.Autopilot
