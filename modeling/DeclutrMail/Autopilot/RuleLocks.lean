import DeclutrMail.Autopilot.RuleSystem

/-!
# What the locks on rules and matches keep

A transaction writes the rows that it holds (`Conforms`), and what it has seen of rows that it
holds or shares stays true (`Kept`). A commit that changes the criteria of a rule leaves no match
of the rule outstanding, so every outstanding match is one of the criteria its rule has.
-/

namespace DeclutrMail.Autopilot

open Interleaving

/-! ## Rows -/

/-- A later row of the same rule: another version if its criteria have changed. -/
structure Newer (r r' : Rule) : Prop where
  version : r.version ≤ r'.version
  criteria : r'.version = r.version → r'.toCriteria = r.toCriteria

theorem Newer.refl (r : Rule) : Newer r r := ⟨le_refl _, fun _ => rfl⟩

theorem Newer.trans {r r' r'' : Rule} (h : Newer r r') (h' : Newer r' r'') : Newer r r'' := by
  refine ⟨h.version.trans h'.version, fun same => ?_⟩
  have first := h.version
  have second := h'.version
  exact (h'.criteria (by omega)).trans (h.criteria (by omega))

/-- A later row of the same match: it does not come back. -/
structure Follows (m m' : Match) : Prop where
  ruleId : m'.ruleId = m.ruleId
  evaluated : m'.evaluated = m.evaluated
  outstanding : m'.outstanding = true → m.outstanding = true
  observed : m'.observed = true → m.observed = true

theorem Follows.refl (m : Match) : Follows m m := ⟨rfl, rfl, id, id⟩

theorem Follows.trans {m m' m'' : Match} (h : Follows m m') (h' : Follows m' m'') :
    Follows m m'' :=
  ⟨h'.ruleId.trans h.ruleId, h'.evaluated.trans h.evaluated, fun out => h.outstanding (h'.outstanding out),
    fun out => h.observed (h'.observed out)⟩

theorem Follows.dismiss (m : Match) : Follows m m.dismiss :=
  ⟨rfl, rfl, by simp [Match.outstanding, Match.dismiss], by simp [Match.observed, Match.dismiss]⟩

theorem Follows.applied (m : Match) : Follows m { m with intentApplied := true } :=
  ⟨rfl, rfl, by simp [Match.outstanding], id⟩

theorem Follows.approve {m : Match} (pending : m.observed = true) : Follows m m.approve := by
  refine ⟨rfl, rfl, ?_, by simp [Match.observed, Match.approve]⟩
  simp_all [Match.outstanding, Match.observed, Match.approve]

/-! ## Drafts -/

namespace Store

variable {s : Store} {x : Write} {xs : List Write} {rule : RuleId} {id : MatchId}

theorem rules_apply : (s.apply x).rules.get rule =
    match x with
    | .rule rule' row => if rule' = rule then some row else s.rules.get rule
    | .suggestion .. => s.rules.get rule := by
  cases x with
  | rule rule' row => exact InsertionMap.get_set ..
  | suggestion id row => rfl

theorem matchLog_apply : (s.apply x).matchLog.get id =
    match x with
    | .suggestion id' row => if id' = id then some row else s.matchLog.get id
    | .rule .. => s.matchLog.get id := by
  cases x with
  | suggestion id' row => exact InsertionMap.get_set ..
  | rule rule row => rfl

end Store

/-- The lock on the row that is written. -/
def Write.lock : Write → RowLock
  | .rule id _ => .rule id
  | .suggestion id _ => .suggestion id

section Draft

variable {s s' : Store} {xs : List Write} {rule : RuleId} {id : MatchId}

theorem rules_unwritten (h : ∀ x ∈ xs, x.lock ≠ .rule rule) :
    (xs.foldl Store.apply s).rules.get rule = s.rules.get rule := by
  induction xs generalizing s with
  | nil => rfl
  | cons x xs ih =>
    obtain ⟨first, rest⟩ := List.forall_mem_cons.mp h
    rw [List.foldl_cons, ih rest, Store.rules_apply]
    cases x with
    | rule rule' row => exact if_neg fun same => first (congrArg _ same)
    | suggestion id row => rfl

theorem matchLog_unwritten (h : ∀ x ∈ xs, x.lock ≠ .suggestion id) :
    (xs.foldl Store.apply s).matchLog.get id = s.matchLog.get id := by
  induction xs generalizing s with
  | nil => rfl
  | cons x xs ih =>
    obtain ⟨first, rest⟩ := List.forall_mem_cons.mp h
    rw [List.foldl_cons, ih rest, Store.matchLog_apply]
    cases x with
    | suggestion id' row => exact if_neg fun same => first (congrArg _ same)
    | rule rule row => rfl

/-- A draft leaves the same of the same row. -/
theorem rules_congr (h : s'.rules.get rule = s.rules.get rule) :
    (xs.foldl Store.apply s').rules.get rule = (xs.foldl Store.apply s).rules.get rule := by
  induction xs generalizing s s' with
  | nil => exact h
  | cons x xs ih =>
    refine ih ?_
    rw [Store.rules_apply, Store.rules_apply]
    cases x with
    | rule rule' row =>
      dsimp only
      split_ifs <;> [rfl; exact h]
    | suggestion id row => exact h

theorem matchLog_congr (h : s'.matchLog.get id = s.matchLog.get id) :
    (xs.foldl Store.apply s').matchLog.get id = (xs.foldl Store.apply s).matchLog.get id := by
  induction xs generalizing s s' with
  | nil => exact h
  | cons x xs ih =>
    refine ih ?_
    rw [Store.matchLog_apply, Store.matchLog_apply]
    cases x with
    | suggestion id' row =>
      dsimp only
      split_ifs <;> [rfl; exact h]
    | rule rule row => exact h

end Draft

namespace Database

variable {d d' : Database} {t : ℕ}

/-- What a transaction has written, and how. -/
structure Conforms (d : Database) (t : ℕ) : Prop where
  held : ∀ x ∈ d.draft t, d.holder x.lock = some t
  rules : ∀ rule r, d.store.rules.get rule = some r →
    ∃ r', (d.seen t).rules.get rule = some r' ∧ Newer r r'
  old : ∀ id m, d.store.matchLog.get id = some m →
    ∃ m', (d.seen t).matchLog.get id = some m' ∧ Follows m m'
  new : ∀ id m', d.store.matchLog.get id = none → (d.seen t).matchLog.get id = some m' →
    t ∈ d.sharers (.rule m'.ruleId) ∧
      ∃ r, d.store.rules.get m'.ruleId = some r ∧ r.toCriteria = m'.evaluated

/-- What the locks of `t` keep when others commit. -/
structure Shields (t : ℕ) (d d' : Database) : Prop where
  draft : d'.draft t = d.draft t
  holder : ∀ k, d'.holder k = some t ↔ d.holder k = some t
  sharers : ∀ k, t ∈ d'.sharers k ↔ t ∈ d.sharers k
  rows : ∀ id, d.holder (.suggestion id) = some t →
    d'.store.matchLog.get id = d.store.matchLog.get id
  rules : ∀ rule, d.holder (.rule rule) = some t ∨ t ∈ d.sharers (.rule rule) →
    d'.store.rules.get rule = d.store.rules.get rule

theorem Shields.refl : Shields t d d :=
  ⟨rfl, fun _ => Iff.rfl, fun _ => Iff.rfl, fun _ _ => rfl, fun _ _ => rfl⟩

/-- A row that `t` has written is as `t` has left it; any other is as it is committed. -/
theorem Shields.matchLog (shields : Shields t d d') (conforms : d.Conforms t) (id : MatchId) :
    (d'.seen t).matchLog.get id = (d.seen t).matchLog.get id ∧
      d'.store.matchLog.get id = d.store.matchLog.get id ∨
    (d'.seen t).matchLog.get id = d'.store.matchLog.get id ∧
      ∀ x ∈ d.draft t, x.lock ≠ .suggestion id := by
  unfold seen Transactions.view
  rw [shields.draft]
  by_cases written : ∃ x ∈ d.draft t, x.lock = .suggestion id
  · obtain ⟨x, mem, here⟩ := written
    have same := shields.rows id (here ▸ conforms.held x mem)
    exact .inl ⟨matchLog_congr same, same⟩
  · push Not at written
    exact .inr ⟨matchLog_unwritten written, written⟩

theorem Shields.ruleRows (shields : Shields t d d') (conforms : d.Conforms t) (rule : RuleId) :
    (d'.seen t).rules.get rule = (d.seen t).rules.get rule ∧
      d'.store.rules.get rule = d.store.rules.get rule ∨
    (d'.seen t).rules.get rule = d'.store.rules.get rule ∧
      ∀ x ∈ d.draft t, x.lock ≠ .rule rule := by
  unfold seen Transactions.view
  rw [shields.draft]
  by_cases written : ∃ x ∈ d.draft t, x.lock = .rule rule
  · obtain ⟨x, mem, here⟩ := written
    have same := shields.rules rule (.inl (here ▸ conforms.held x mem))
    exact .inl ⟨rules_congr same, same⟩
  · push Not at written
    exact .inr ⟨rules_unwritten written, written⟩

/-- Others do not disturb a transaction that conforms. -/
theorem Conforms.shielded (conforms : d.Conforms t) (shields : Shields t d d') :
    d'.Conforms t := by
  refine ⟨fun x mem => ?_, fun rule r found => ?_, fun id m found => ?_, fun id m' absent found => ?_⟩
  · exact (shields.holder _).mpr (conforms.held x (shields.draft ▸ mem))
  · rcases shields.ruleRows conforms rule with ⟨seen, same⟩ | ⟨seen, -⟩
    · rw [seen]
      exact conforms.rules rule r (same ▸ found)
    · exact ⟨r, seen.trans found, .refl r⟩
  · rcases shields.matchLog conforms id with ⟨seen, same⟩ | ⟨seen, -⟩
    · rw [seen]
      exact conforms.old id m (same ▸ found)
    · exact ⟨m, seen.trans found, .refl m⟩
  · rcases shields.matchLog conforms id with ⟨seen, same⟩ | ⟨seen, -⟩
    · obtain ⟨shared, r, rule, criteria⟩ := conforms.new id m' (same ▸ absent) (seen ▸ found)
      exact ⟨(shields.sharers _).mpr shared, r, (shields.rules _ (.inr shared)).trans rule, criteria⟩
    · rw [seen, absent] at found
      cases found

theorem Conforms.nothing (none : d.draft t = []) : d.Conforms t := by
  have seen : d.seen t = d.store := by rw [seen, Transactions.view, none, List.foldl_nil]
  refine ⟨by simp [none], fun rule r found => ⟨r, seen ▸ found, .refl r⟩,
    fun id m found => ⟨m, seen ▸ found, .refl m⟩, fun id m' absent found => ?_⟩
  rw [seen, absent] at found
  cases found

/-- The thread takes locks. -/
structure Locks (t : ℕ) (d d' : Database) : Prop where
  store : d'.store = d.store
  draft : d'.draft = d.draft
  holder : ∀ k, d.holder k = some t → d'.holder k = some t
  sharers : ∀ k, t ∈ d.sharers k → t ∈ d'.sharers k
  unmoved : d.Unmoved t d'
  apart : d.Apart → d'.Apart

theorem Locks.lock {k : RowLock} (h : d.lock t k = some d') :
    Locks t d d' ∧ d'.holder k = some t := by
  obtain ⟨store, draft, mine, unmoved⟩ := Sharing.lock_unmoved h
  obtain ⟨-, sharers, taken⟩ := Sharing.lock_eq_some h
  exact ⟨⟨store, draft, fun k' held => Transactions.holder_acquire taken held,
    fun k' shared => sharers ▸ shared, unmoved, fun apart => apart.lock h⟩, mine⟩

theorem Locks.share {k : RowLock} (h : d.share t k = some d') :
    Locks t d d' ∧ t ∈ d'.sharers k := by
  obtain ⟨mine, unmoved⟩ := Sharing.share_unmoved h
  obtain ⟨-, same, sharers⟩ := Sharing.share_eq_some h
  refine ⟨⟨by rw [same], by rw [same], fun k' held => by rwa [same], fun k' shared => ?_, unmoved,
    fun apart => apart.share h⟩, mine⟩
  rw [sharers]
  by_cases here : k' = k
  · subst here
    simp
  · rwa [Function.update_of_ne here]

theorem Locks.trans {d'' : Database} (h : Locks t d d') (h' : Locks t d' d'') : Locks t d d'' where
  store := h'.store.trans h.store
  draft := h'.draft.trans h.draft
  holder k held := h'.holder k (h.holder k held)
  sharers k shared := h'.sharers k (h.sharers k shared)
  unmoved := ⟨h.unmoved.toFrames.trans h'.unmoved.toFrames, fun x other k =>
    (h'.unmoved.sharers x other k).trans (h.unmoved.sharers x other k)⟩
  apart apart := h'.apart (h.apart apart)

theorem Locks.seen (locks : Locks t d d') : d'.seen t = d.seen t := by
  rw [Database.seen, Database.seen, Transactions.view, Transactions.view, locks.store, locks.draft]

theorem Locks.conforms (locks : Locks t d d') (conforms : d.Conforms t) : d'.Conforms t := by
  refine ⟨fun x mem => locks.holder _ (conforms.held x (locks.draft ▸ mem)), ?_, ?_, ?_⟩
  · rw [locks.seen, locks.store]
    exact conforms.rules
  · rw [locks.seen, locks.store]
    exact conforms.old
  · intro id m' absent found
    rw [locks.seen] at found
    rw [locks.store] at absent ⊢
    obtain ⟨shared, criteria⟩ := conforms.new id m' absent found
    exact ⟨locks.sharers _ shared, criteria⟩

theorem draft_draw {x : Write} : (d.draw t x).draft t = d.draft t ++ [x] :=
  Transactions.draft_write x

theorem seen_draw {x : Write} : seen (d.draw t x) t = (d.seen t).apply x := by
  simp [seen, Transactions.view, Sharing.draw]

/-- A row that the thread may write. -/
def Fits (d : Database) (t : ℕ) : Write → Prop
  | .rule id row => ∀ r, (d.seen t).rules.get id = some r → Newer r row
  | .suggestion id row =>
    match (d.seen t).matchLog.get id with
    | some m => Follows m row
    | none => t ∈ d.sharers (.rule row.ruleId) ∧
        ∃ r, d.store.rules.get row.ruleId = some r ∧ r.toCriteria = row.evaluated

theorem Conforms.draw {x : Write} (conforms : d.Conforms t) (held : d.holder x.lock = some t)
    (fits : d.Fits t x) : Conforms (d.draw t x) t := by
  refine ⟨fun y mem => ?_, fun rule r found => ?_, fun id m found => ?_,
    fun id m' absent found => ?_⟩
  · rcases List.mem_append.mp (draft_draw ▸ mem) with old | new
    · exact conforms.held y old
    · exact List.mem_singleton.mp new ▸ held
  · obtain ⟨r', seen, newer⟩ := conforms.rules rule r found
    rw [seen_draw, Store.rules_apply]
    cases x with
    | suggestion id row => exact ⟨r', seen, newer⟩
    | rule rule' row =>
      dsimp only
      split_ifs with same
      · subst same
        exact ⟨row, rfl, newer.trans (fits r' seen)⟩
      · exact ⟨r', seen, newer⟩
  · obtain ⟨m', seen, follows⟩ := conforms.old id m found
    rw [seen_draw, Store.matchLog_apply]
    cases x with
    | rule rule row => exact ⟨m', seen, follows⟩
    | suggestion id' row =>
      dsimp only
      split_ifs with same
      · subst same
        rw [Fits, seen] at fits
        exact ⟨row, rfl, follows.trans fits⟩
      · exact ⟨m', seen, follows⟩
  · rw [seen_draw, Store.matchLog_apply] at found
    cases x with
    | rule rule row => exact conforms.new id m' absent found
    | suggestion id' row =>
      dsimp only at found
      split_ifs at found with same
      · subst same
        obtain rfl := Option.some.inj found
        rw [Fits] at fits
        split at fits
        · next m seen =>
          rw [fits.ruleId, fits.evaluated]
          exact conforms.new id' m absent seen
        · exact fits
      · exact conforms.new id m' absent found

end Database

/-! ## What every move keeps -/

/-- Every outstanding match is one of the criteria that its rule has. -/
def Store.Current (s : Store) : Prop := ∀ id m, s.matchLog.get id = some m →
  m.outstanding = true → ∃ r, s.rules.get m.ruleId = some r ∧ r.toCriteria = m.evaluated

/-- Rules get newer rows, and matches do not come back. -/
structure Store.Advances (s s' : Store) : Prop where
  rules : ∀ rule r, s.rules.get rule = some r → ∃ r', s'.rules.get rule = some r' ∧ Newer r r'
  rows : ∀ id m, s.matchLog.get id = some m → ∃ m', s'.matchLog.get id = some m' ∧ Follows m m'

theorem Store.Advances.refl (s : Store) : s.Advances s :=
  ⟨fun _ r found => ⟨r, found, .refl r⟩, fun _ m found => ⟨m, found, .refl m⟩⟩

namespace World

structure Inv (w : World) : Prop where
  apart : w.db.Apart
  conforms : ∀ t, w.db.Conforms t
  current : w.db.store.Current
  flips : w.overtaken = false → ∀ flip ∈ w.flips, flip.2 = true

/-- What others leave to `t`. -/
structure Kept (t : ℕ) (w w' : World) : Prop where
  shields : w.db.Shields t w'.db
  advances : w.db.store.Advances w'.db.store
  outstanding : ∀ rule, w.db.holder (.rule rule) = some t → ∀ id m',
    w'.db.store.matchLog.get id = some m' → m'.ruleId = rule → m'.outstanding = true →
      ∃ m, w.db.store.matchLog.get id = some m
  checked : ∀ ids, (t, ids) ∈ w.checked → (t, ids) ∈ w'.checked
  overtaken : w.overtaken = true → w'.overtaken = true
  exposed : w'.overtaken = false → ∀ ids, (t, ids) ∈ w.checked → ∀ id ∈ ids,
    exposes w.db.store w'.db.store id = false

end World

def Rely (t : ℕ) (w w' : World) : Prop := w'.Inv ∧ World.Kept t w w'

structure Guarantee (t : ℕ) (w w' : World) : Prop where
  inv : w'.Inv
  others : ∀ x ≠ t, World.Kept x w w'
  advances : w.db.store.Advances w'.db.store
  overtaken : w.overtaken = true → w'.overtaken = true

theorem exposes_self (s : Store) (id : MatchId) : exposes s s id = false := by
  unfold exposes
  cases found : s.matchLog.get id with
  | none => rfl
  | some row =>
    cases start : s.ruleCanStart row <;> cases pending : s.isPendingSuggestion row <;>
      simp [start, pending]

section Moves

variable {w : World} {t : ℕ}

theorem Guarantee.refl (inv : w.Inv) : Guarantee t w w :=
  ⟨inv, fun _ _ => ⟨.refl, .refl _, fun _ _ _ m' found _ _ => ⟨m', found⟩, fun _ h => h,
    fun h => h, fun _ _ _ id _ => exposes_self _ id⟩, .refl _, fun h => h⟩

/-- A thread drafts or locks. -/
theorem Database.Shields.of_unmoved {d d' : Database} {x : ℕ} (unmoved : d.Unmoved t d')
    (store : d'.store = d.store) (other : x ≠ t) : d.Shields x d' :=
  ⟨unmoved.draft x other, unmoved.holder x other, unmoved.sharers x other,
    fun _ _ => by rw [store], fun _ _ => by rw [store]⟩

theorem Guarantee.drafts {d : Database} (inv : w.Inv) (store : d.store = w.db.store)
    (unmoved : w.db.Unmoved t d) (apart : d.Apart) (conforms : d.Conforms t)
    {checked : List (ℕ × List MatchId)}
    (kept : ∀ x ≠ t, ∀ ids, (x, ids) ∈ w.checked → (x, ids) ∈ checked) :
    Guarantee t w { w with db := d, checked := checked } := by
  have shields : ∀ x ≠ t, w.db.Shields x d := fun x other => .of_unmoved unmoved store other
  refine ⟨⟨apart, fun x => ?_, ?_, inv.flips⟩, fun x other => ⟨shields x other, ?_, ?_,
    kept x other, fun h => h, fun _ _ _ id _ => ?_⟩, ?_, fun h => h⟩
  · by_cases same : x = t
    · exact same ▸ conforms
    · exact (inv.conforms x).shielded (shields x same)
  · exact store ▸ inv.current
  · exact store ▸ .refl _
  · intro rule _ id m' found _ _
    exact ⟨m', store ▸ found⟩
  · exact store ▸ exposes_self _ id
  · exact store ▸ .refl _

theorem mem_forget {x : ℕ} {ids : List MatchId} (other : x ≠ t) (mem : (x, ids) ∈ w.checked) :
    (x, ids) ∈ w.forget t := List.mem_filter.mpr ⟨mem, by simpa using other⟩

theorem Guarantee.rollback (inv : w.Inv) : Guarantee t w (w.rollback t) :=
  .drafts (d := w.db.abort t) inv rfl Sharing.abort_unmoved inv.apart.abort
    (.nothing Transactions.draft_rollback) fun _ other _ mem => mem_forget other mem

/-- What a transaction owes when it commits. -/
structure Ready (t : ℕ) (w : World) : Prop where
  /-- A rule whose criteria change has no outstanding matches. -/
  settled : ∀ rule r r', w.db.store.rules.get rule = some r → (w.seen t).rules.get rule = some r' →
    r'.toCriteria ≠ r.toCriteria → ∀ id m, (w.seen t).matchLog.get id = some m →
      m.ruleId = rule → m.outstanding = false
  /-- The rule of a suggestion that is approved can start work. -/
  starts : w.overtaken = false → ∀ id m m', w.db.store.matchLog.get id = some m →
    m.resolution = .pending → (w.seen t).matchLog.get id = some m' →
      m'.resolution = .approved → (w.seen t).ruleCanStart m' = true

/-- The rows that others hold or share are not written. -/
theorem Database.Shields.finish {d : Database} {x : ℕ} (apart : d.Apart) (conforms : d.Conforms t)
    (other : x ≠ t) : d.Shields x (d.finish Store.apply t) := by
  have unmoved : d.Unmoved t (d.finish Store.apply t) := Sharing.finish_unmoved
  refine ⟨unmoved.draft x other, unmoved.holder x other, unmoved.sharers x other,
    fun id held => matchLog_unwritten fun y mem here => ?_,
    fun rule held => rules_unwritten fun y mem here => ?_⟩
  · have mine := conforms.held y mem
    rw [here, held] at mine
    exact other (Option.some.inj mine)
  · have mine := conforms.held y mem
    rw [here] at mine
    rcases held with held | shared
    · exact other (Option.some.inj (held.symm.trans mine))
    · exact other (apart _ t mine x shared)

theorem Ready.current (ready : Ready t w) (inv : w.Inv) : (w.seen t).Current := by
  have conforms := inv.conforms t
  intro id m' found out
  -- the rule had the criteria of the match, and has them still unless it leaves none outstanding
  have had : ∃ r, w.db.store.rules.get m'.ruleId = some r ∧ r.toCriteria = m'.evaluated := by
    cases before : w.db.store.matchLog.get id with
    | none => exact (conforms.new id m' before found).2
    | some m =>
      obtain ⟨row, seen, follows⟩ := conforms.old id m before
      obtain rfl := Option.some.inj (seen.symm.trans found)
      rw [follows.ruleId, follows.evaluated]
      exact inv.current id m before (follows.outstanding out)
  obtain ⟨r, rule, criteria⟩ := had
  obtain ⟨r', rule', -⟩ := conforms.rules m'.ruleId r rule
  refine ⟨r', rule', ?_⟩
  by_contra changed
  have none := ready.settled _ r r' rule rule' (fun same => changed (same.trans criteria)) id m'
    found rfl
  rw [out] at none
  cases none

theorem Ready.flips (ready : Ready t w) (fine : w.overtaken = false) :
    ∀ flip ∈ w.approves t, flip.2 = true := by
  intro flip mem
  obtain ⟨x, -, here⟩ := List.mem_filterMap.mp mem
  cases x with
  | rule rule row => cases here
  | suggestion id row =>
    dsimp only at here
    split at here
    · next before m found seen =>
      split_ifs at here with approved
      obtain rfl := Option.some.inj here
      exact ready.starts fine id before m found approved.1 seen approved.2
    · cases here

theorem Guarantee.commit (inv : w.Inv) (ready : Ready t w) : Guarantee t w (w.commit t) := by
  have conforms := inv.conforms t
  have shields : ∀ x ≠ t, w.db.Shields x (w.commit t).db := fun x other =>
    .finish inv.apart conforms other
  have advances : w.db.store.Advances (w.seen t) := ⟨conforms.rules, conforms.old⟩
  have past : w.overtaken = true → (w.commit t).overtaken = true := by
    intro before
    simp [World.commit, before]
  refine ⟨⟨inv.apart.finish, fun x => ?_, ready.current inv, fun fine flip mem => ?_⟩,
    fun x other => ⟨shields x other, advances, ?_, fun ids => mem_forget other, past, ?_⟩,
    advances, past⟩
  · by_cases same : x = t
    · subst same
      exact .nothing Transactions.draft_commit
    · exact (inv.conforms x).shielded (shields x same)
  · obtain ⟨fine, -⟩ := Bool.or_eq_false_iff.mp fine
    rcases List.mem_append.mp mem with old | new
    · exact inv.flips fine flip old
    · exact ready.flips fine flip new
  · intro rule held id m' found same out
    cases before : w.db.store.matchLog.get id with
    | some m => exact ⟨m, rfl⟩
    | none =>
      obtain ⟨shared, -⟩ := conforms.new id m' before found
      exact absurd (inv.apart _ x held t (same ▸ shared)) other.symm
  · intro fine ids mem id known
    obtain ⟨-, fine⟩ := Bool.or_eq_false_iff.mp fine
    by_contra exposed
    have past : w.overtakes t (w.seen t) = true := by
      refine List.any_eq_true.mpr ⟨(x, ids), mem, ?_⟩
      simpa [other] using ⟨id, known, Bool.eq_true_of_not_eq_false exposed⟩
    rw [fine] at past
    cases past

/-- Another writer commits a change of rows that nobody holds. -/
theorem World.Inv.put {s : Store} (inv : w.Inv) (rules : s.rules = w.db.store.rules)
    (rows : ∀ id m, w.db.store.matchLog.get id = some m →
      ∃ m', s.matchLog.get id = some m' ∧ Follows m m')
    (back : ∀ id m', s.matchLog.get id = some m' → ∃ m, w.db.store.matchLog.get id = some m)
    (free : ∀ id, w.db.holder (.suggestion id) ≠ none →
      s.matchLog.get id = w.db.store.matchLog.get id) :
    (w.put s).Inv ∧ ∀ x, World.Kept x w (w.put s) := by
  have shields : ∀ x, w.db.Shields x (w.put s).db := fun x =>
    ⟨rfl, fun _ => Iff.rfl, fun _ => Iff.rfl, fun id held => free id (by simp [held]), fun rule _ => by
      show s.rules.get rule = _
      rw [rules]⟩
  have advances : w.db.store.Advances s := ⟨fun rule r found => ⟨r, rules ▸ found, .refl r⟩, rows⟩
  refine ⟨⟨inv.apart, fun x => (inv.conforms x).shielded (shields x), ?_, fun fine => ?_⟩,
    fun x => ⟨shields x, advances, fun rule _ id m' found _ _ => back id m' found, fun _ h => h,
      ?_, ?_⟩⟩
  · intro id m' found out
    obtain ⟨m, before⟩ := back id m' found
    obtain ⟨row, seen, follows⟩ := rows id m before
    obtain rfl := Option.some.inj (seen.symm.trans found)
    obtain ⟨r, rule, criteria⟩ := inv.current id m before (follows.outstanding out)
    refine ⟨r, ?_, criteria.trans follows.evaluated.symm⟩
    show s.rules.get row.ruleId = _
    rw [rules, follows.ruleId]
    exact rule
  · exact inv.flips (Bool.or_eq_false_iff.mp fine).1
  · intro past
    simp [World.put, past]
  · intro fine ids mem id known
    obtain ⟨-, fine⟩ := Bool.or_eq_false_iff.mp fine
    by_contra exposed
    refine List.any_eq_false.mp fine (x, ids) mem (List.any_eq_true.mpr ?_)
    exact ⟨id, known, Bool.eq_true_of_not_eq_false exposed⟩

theorem World.Inv.rewrite {w' : World} {id : MatchId} {f : Match → Match} (inv : w.Inv)
    (follows : ∀ m, Follows m (f m)) (done : w.rewrite id f = some w') :
    w'.Inv ∧ ∀ x, World.Kept x w w' := by
  unfold World.rewrite at done
  split at done
  · cases done
  · next row found =>
    split_ifs at done with free
    obtain rfl := Option.some.inj done
    have get (id' : MatchId) : (w.db.store.matchLog.set id (f row)).get id' =
        if id = id' then some (f row) else w.db.store.matchLog.get id' := InsertionMap.get_set ..
    refine inv.put rfl (fun id' m before => ?_) (fun id' m' after => ?_) fun id' held => ?_
    · dsimp only
      rw [get]
      split_ifs with same
      · subst same
        obtain rfl := Option.some.inj (found.symm.trans before)
        exact ⟨_, rfl, follows row⟩
      · exact ⟨m, before, .refl m⟩
    · dsimp only at after
      rw [get] at after
      split_ifs at after with same
      · exact ⟨row, same ▸ found⟩
      · exact ⟨m', after⟩
    · dsimp only
      rw [get]
      split_ifs with same
      · exact absurd (same ▸ free) held
      · rfl

theorem World.Inv.disturb {w' : World} {e : Event} (inv : w.Inv)
    (happened : Autopilot.disturb e w = some w') : w'.Inv ∧ ∀ x, World.Kept x w w' := by
  have others {s : Store} (rules : s.rules = w.db.store.rules)
      (rows : s.matchLog = w.db.store.matchLog) : (w.put s).Inv ∧ ∀ x, World.Kept x w (w.put s) :=
    inv.put rules (fun id m found => ⟨m, rows ▸ found, .refl m⟩)
      (fun id m' found => ⟨m', rows ▸ found⟩) fun _ _ => by rw [rows]
  cases e with
  | senders senders | policies policies | jobs claims batches =>
    obtain rfl := Option.some.inj happened
    exact others rfl rfl
  | dismissed id => exact inv.rewrite Follows.dismiss happened
  | applied id => exact inv.rewrite Follows.applied happened

end Moves

end DeclutrMail.Autopilot
