import DeclutrMail.Senders.KeepUndo

/-!
# What an undo is final about

The rows that are reverted are those below `undone`, unless an undo has left one standing. Under
the action lock of the mailbox this tells a projection whether the Keep it has read was recorded
before the last undo.
-/

namespace DeclutrMail.Senders.KeepUndo

open Interleaving

variable {w w' : World} {t : ℕ}

/-! ## The log -/

section Log

variable {log : List KeepRow} {n i j : KeepId} {row later : KeepRow} {p : KeepRow → Bool}

theorem revertBefore_zero : revertBefore 0 log = log := by
  simp [revertBefore, List.ext_getElem?_iff]

theorem length_revertBefore : (revertBefore n log).length = log.length := by simp [revertBefore]

theorem getElem?_revertBefore : (revertBefore n log)[i]? =
    (log[i]?).map fun row => if i < n then { row with reverted := true } else row := by
  simp [revertBefore]

/-- Every Keep from `n` on is dated after those below. -/
theorem occurredAt_lt (ordered : disordered log n = false) (below : i < n) (above : n ≤ j)
    (first : log[i]? = some row) (second : log[j]? = some later) :
    row.occurredAt < later.occurredAt := by
  have mem : row ∈ log.take n := by
    refine List.mem_of_getElem? (i := i) ?_
    rw [List.getElem?_take, if_pos below, first]
  have mem' : later ∈ log.drop n := by
    refine List.mem_of_getElem? (i := j - n) ?_
    rw [List.getElem?_drop, Nat.add_sub_cancel' above, second]
  have not := List.any_eq_false.mp ordered later mem'
  rw [Bool.not_eq_true] at not
  simpa using List.any_eq_false.mp not row mem

theorem of_isLatest (latest : isLatest log p i = true) : ∃ row, log[i]? = some row ∧
    p row = true ∧ ∀ (j : KeepId) (other : KeepRow), log[j]? = some other → p other = true →
      other.occurredAt ≤ row.occurredAt := by
  obtain ⟨row, found, here⟩ := (Option.any_eq_true _ _).mp latest
  obtain ⟨holds, all⟩ := Bool.and_eq_true_iff.mp here
  refine ⟨row, found, holds, fun j other there also => ?_⟩
  have ordered := List.all_eq_true.mp all other (List.mem_of_getElem? there)
  simpa [also] using ordered

end Log

/-! ## The invariant -/

/-- The Keep that a delivery lands is the one it has decided from, and none that was undone. The
event of a Keep that was recorded after the last undo lands one. -/
structure Projection.Final (p : Projection) : Prop where
  before : p.wrote = true → p.undone ≤ p.decided
  after : p.undone ≤ p.keep → p.wrote = true

/-- Nothing but a Keep is to be written. -/
def Draft.Plain (d : Draft) : Prop := { d with inserted := none } = Draft.empty

structure Inv (w : World) : Prop where
  within : w.undone ≤ w.log.length
  reverted : ∀ i row, w.log[i]? = some row → row.reverted = true → i < w.undone
  undone : w.amiss = false → ∀ i row, i < w.undone → w.log[i]? = some row → row.reverted = true
  ordered : w.amiss = false → disordered w.log w.undone = false
  final : w.amiss = false → ∀ p ∈ w.projections, p.Final
  plain : ∀ t, w.lock ≠ some t → (w.draft t).Plain
  delivers : ∀ t, w.delivers t < w.log.length ∨ w.delivers t = 0

/-- What a transaction may do when it commits. -/
structure Fits (t : ℕ) (w : World) : Prop where
  found : ∀ n, (w.draft t).found = some n → w.undone ≤ n ∧ n ≤ w.log.length
  reverts : (w.draft t).reverts ≤ w.committedUndone t
  settled : w.amiss = false → (w.draft t).overlooks = false → ∀ n, (w.draft t).found = some n →
    ∀ i row, (w.draft t).reverts ≤ i → i < n → w.log[i]? = some row → row.reverted = true
  projected : w.amiss = false → ∀ p ∈ w.projected t, p.Final

theorem Fits.of_plain (plain : (w.draft t).Plain) : Fits t w := by
  generalize here : w.draft t = d at plain
  obtain ⟨inserted, policyType, reverts, found, overlooks, decided⟩ := d
  simp only [Draft.Plain, Draft.empty, Draft.mk.injEq, true_and] at plain
  obtain ⟨rfl, rfl, rfl, rfl, rfl⟩ := plain
  refine ⟨?_, ?_, ?_, ?_⟩ <;> simp [here, World.projected]

theorem getElem?_committedLog {i : KeepId} {row : KeepRow}
    (found : (w.committedLog t)[i]? = some row) :
    (∃ old, w.log[i]? = some old ∧
        row = if i < (w.draft t).reverts then { old with reverted := true } else old) ∨
      w.log.length ≤ i ∧ row.reverted = false := by
  unfold World.committedLog at found
  rcases Nat.lt_or_ge i w.log.length with small | large
  · rw [List.getElem?_append_left (by rwa [length_revertBefore]), getElem?_revertBefore] at found
    obtain ⟨old, there, rfl⟩ := Option.map_eq_some_iff.mp found
    exact .inl ⟨old, there, rfl⟩
  · rw [List.getElem?_append_right (by rwa [length_revertBefore])] at found
    have mem := List.mem_of_getElem? found
    obtain ⟨now, -, rfl⟩ := List.mem_map.mp mem
    exact .inr ⟨large, rfl⟩

theorem length_le_committedLog : w.log.length ≤ (w.committedLog t).length := by
  simp [World.committedLog, length_revertBefore]

theorem plain_rollback (plain : ∀ x, w.lock ≠ some x → (w.draft x).Plain) (x : ℕ)
    (free : (w.rollback t).lock ≠ some x) : ((w.rollback t).draft x).Plain := by
  unfold World.rollback
  dsimp only
  by_cases mine : x = t
  · subst mine
    rw [Function.update_self]
    rfl
  · rw [Function.update_of_ne mine]
    refine plain x fun held => free ?_
    have other : w.lock ≠ some t := by
      rw [held]
      exact fun same => mine (Option.some.inj same)
    unfold World.rollback
    rw [if_neg other, held]

theorem Inv.rollback (inv : Inv w) (t : ℕ) : Inv (w.rollback t) :=
  ⟨inv.within, inv.reverted, inv.undone, inv.ordered, inv.final, plain_rollback inv.plain,
    inv.delivers⟩

theorem Fits.later (fits : Fits t w) : w.undone ≤ w.committedUndone t := by
  unfold World.committedUndone
  cases here : (w.draft t).found with
  | none => exact Nat.le_refl _
  | some n => exact (fits.found n here).1

theorem Inv.commit (inv : Inv w) (fits : Fits t w) : Inv (w.commit t) := by
  have length := length_le_committedLog (w := w) (t := t)
  have later := fits.later
  refine ⟨Nat.le_trans ?_ length, fun i row found reverted => ?_,
    fun fine i row below found => ?_, fun fine => (Bool.or_eq_false_iff.mp fine).2,
    fun fine p mem => ?_, plain_rollback inv.plain, fun x => ?_⟩
  · show (w.draft t).found.getD w.undone ≤ _
    cases here : (w.draft t).found with
    | none => exact inv.within
    | some n => exact (fits.found n here).2
  · rcases getElem?_committedLog found with ⟨old, there, rfl⟩ | ⟨-, none⟩
    · split_ifs at reverted with new
      · exact Nat.lt_of_lt_of_le new fits.reverts
      · exact Nat.lt_of_lt_of_le (inv.reverted i old there reverted) later
    · rw [none] at reverted
      cases reverted
  · obtain ⟨fine, kept⟩ := Bool.or_eq_false_iff.mp (Bool.or_eq_false_iff.mp fine).1
    have below : i < (w.draft t).found.getD w.undone := below
    rcases getElem?_committedLog found with ⟨old, there, rfl⟩ | ⟨large, -⟩
    · split_ifs with new
      · rfl
      · cases here : (w.draft t).found with
        | none =>
          rw [here] at below
          exact inv.undone fine i old below there
        | some n =>
          rw [here] at below
          exact fits.settled fine kept n here i old (Nat.le_of_not_lt new) below there
    · cases here : (w.draft t).found with
      | none =>
        rw [here] at below
        exact absurd below (Nat.not_lt.mpr (Nat.le_trans inv.within large))
      | some n =>
        rw [here] at below
        exact absurd below (Nat.not_lt.mpr (Nat.le_trans (fits.found n here).2 large))
  · obtain ⟨fine, -⟩ := Bool.or_eq_false_iff.mp (Bool.or_eq_false_iff.mp fine).1
    rcases List.mem_append.mp mem with old | new
    · exact inv.final fine p old
    · exact fits.projected fine p new
  · exact (inv.delivers x).imp_left fun within => Nat.lt_of_lt_of_le within length

/-! ## Under the lock -/

/-- What others do while a transaction holds the lock. -/
structure Background (w w' : World) : Prop where
  lock : w'.lock = w.lock
  draft : ∀ t, w.lock = some t → w'.draft t = w.draft t
  delivers : ∀ t, w.lock = some t → w'.delivers t = w.delivers t
  undone : w'.undone = w.undone
  log : w.log <+: w'.log
  amiss : w.amiss = true → w'.amiss = true

theorem Background.refl (w : World) : Background w w :=
  ⟨rfl, fun _ _ => rfl, fun _ _ => rfl, rfl, List.prefix_rfl, id⟩

theorem Background.fine (b : Background w w') (fine : w'.amiss = false) : w.amiss = false := by
  cases past : w.amiss with
  | false => rfl
  | true =>
    have past := b.amiss past
    rw [fine] at past
    cases past

theorem Background.getElem? (b : Background w w') {i : KeepId} {row : KeepRow}
    (small : i < w.log.length) (found : w'.log[i]? = some row) : w.log[i]? = some row := by
  obtain ⟨rest, same⟩ := b.log
  rwa [← same, List.getElem?_append_left small] at found

theorem Fits.background (fits : Fits t w) (b : Background w w') (mine : w.lock = some t) :
    Fits t w' := by
  have draft := b.draft t mine
  have undone : w'.committedUndone t = w.committedUndone t := by
    rw [World.committedUndone, World.committedUndone, draft, b.undone]
  have projected : w'.projected t = w.projected t := by
    rw [World.projected, World.projected, draft, b.undone, b.delivers t mine]
  refine ⟨fun n here => ?_, ?_, fun fine kept n here i row above below found => ?_, fun fine => ?_⟩
  · obtain ⟨le, bound⟩ := fits.found n (draft ▸ here)
    exact ⟨b.undone ▸ le, Nat.le_trans bound b.log.length_le⟩
  · rw [undone, draft]
    exact fits.reverts
  · rw [draft] at here kept above
    have small : i < w.log.length := Nat.lt_of_lt_of_le below (fits.found n here).2
    exact fits.settled (b.fine fine) kept n here i row above below (b.getElem? small found)
  · rw [projected]
    exact fits.projected (b.fine fine)

@[reducible]
def underLock : Discipline keeping where
  owner w := w.lock
  inv := Inv
  kept _ _ := True
  background := Background
  owner_background b := b.lock
  kept_refl _ := trivial
  kept_trans _ _ := trivial

/-- Nothing is written but perhaps a Keep. -/
def starting (t : ℕ) : underLock.Local where
  holds w := w.lock = some t ∧ (w.draft t).Plain
  stable _ _ h b := ⟨b.lock.trans h.1, b.draft t h.1 ▸ h.2⟩

/-- The transaction may commit. -/
def fitting (t : ℕ) : underLock.Local where
  holds w := w.lock = some t ∧ Fits t w
  stable _ _ h b := ⟨b.lock.trans h.1, h.2.background b h.1⟩

/-- The undo may commit. -/
def undoing (t : ℕ) : underLock.Local where
  holds w := (w.lock = some t ∧ Fits t w) ∧ (w.draft t).decided = none
  stable _ _ h b := ⟨(fitting t).stable h.1 b, b.draft t h.1.1 ▸ h.2⟩

/-- The projection has read a row that stands. -/
def projecting (t : ℕ) : underLock.Local where
  holds w := w.lock = some t ∧ ({ w.draft t with decided := none } : Draft).Plain ∧
    ∃ i, (w.draft t).decided = some i ∧ (w.amiss = false → w.undone ≤ i)
  stable := by
    rintro w w' ⟨mine, plain, i, here, standing⟩ b
    have draft := b.draft t mine
    refine ⟨b.lock.trans mine, draft ▸ plain, i, draft ▸ here, fun fine => ?_⟩
    rw [b.undone]
    exact standing (b.fine fine)

def held (t : ℕ) : underLock.Local where
  holds w := w.lock = some t
  stable _ _ h b := b.lock.trans h

/-- A statement that fails changes nothing. -/
theorem answer_error {q : Statement} {c : Choice} {e : Failure} (other : q ≠ .commit)
    (answered : answer t q c w = some (.error e, w')) : w' = w := by
  unfold answer at answered
  dsimp only at answered
  split at answered
  all_goals first
    | exact absurd rfl other
    | (cases answered; try rfl)
    | (split_ifs at answered <;> cases answered)

theorem own {q : Statement} {P : underLock.Local} {B : q.Answer → underLock.Local}
    (other : q ≠ .commit)
    (done : ∀ w, Inv w → w.lock = some t → P w → ∀ c a w',
      answer t q c w = some (.ok a, w') → w'.lock = some t ∧ Inv w' ∧ B a w') :
    underLock.Does t P (run q) B fun _ => held t := by
  refine underLock.own fun w inv mine h c r w' answered => ?_
  cases r with
  | ok a =>
    obtain ⟨mine, inv, post⟩ := done w inv mine h c a w' answered
    exact ⟨mine, inv, trivial, post⟩
  | error e =>
    obtain rfl := answer_error other answered
    exact ⟨mine, inv, trivial, mine⟩

theorem Inv.draws (inv : Inv w) (mine : w.lock = some t) (d : Draft) (r : Option ℕ) :
    Inv { w.write t d with rowLock := r } := by
  refine ⟨inv.within, inv.reverted, inv.undone, inv.ordered, inv.final, fun x free => ?_,
    inv.delivers⟩
  have other : x ≠ t := by
    rintro rfl
    exact free mine
  show ((Function.update w.draft t d) x).Plain
  rw [Function.update_of_ne other]
  exact inv.plain x free

theorem draft_write {d : Draft} : (w.write t d).draft t = d := Function.update_self ..

/-- The transaction may commit with what it has drafted. -/
theorem fits_write {d : Draft} {r : Option ℕ}
    (found : ∀ n, d.found = some n → w.undone ≤ n ∧ n ≤ w.log.length)
    (reverts : d.reverts ≤ d.found.getD w.undone)
    (settled : w.amiss = false → d.overlooks = false → ∀ n, d.found = some n →
      ∀ i row, d.reverts ≤ i → i < n → w.log[i]? = some row → row.reverted = true)
    (projected : w.amiss = false → ∀ i, d.decided = some i →
      Projection.Final ⟨w.delivers t, i, d.policyType = some (some .keep), w.undone⟩) :
    Fits t { w.write t d with rowLock := r } := by
  have draft : ({ w.write t d with rowLock := r } : World).draft t = d := draft_write
  refine ⟨fun n => ?_, ?_, fun fine => ?_, fun fine p mem => ?_⟩
  · rw [draft]
    exact found n
  · rw [World.committedUndone, draft]
    exact reverts
  · rw [draft]
    exact settled fine
  · rw [World.projected, draft, Option.mem_toList, Option.map_eq_some_iff] at mem
    obtain ⟨i, here, rfl⟩ := mem
    exact projected fine i here

theorem Draft.Plain.eq {d : Draft} (plain : d.Plain) : d = { Draft.empty with inserted := d.inserted } := by
  obtain ⟨inserted, policyType, reverts, found, overlooks, decided⟩ := d
  simp only [Draft.Plain, Draft.empty, Draft.mk.injEq, true_and] at plain ⊢
  exact plain

theorem selectPolicy_does : underLock.Does t (starting t) (run .selectPolicy)
    (fun _ => undoing t) fun _ => held t := by
  refine own nofun fun w inv mine ⟨_, plain⟩ c a w' answered => ?_
  have decided : (w.draft t).decided = none := by rw [plain.eq]; rfl
  cases c with
  | ok =>
    unfold answer at answered
    dsimp only at answered
    split_ifs at answered
    · cases answered
      exact ⟨mine, inv, ⟨mine, .of_plain plain⟩, decided⟩
    · cases answered
      refine ⟨mine, inv.draws mine _ _, ⟨mine, ?_⟩, ?_⟩
      · have fits : Fits t w := .of_plain plain
        have zero : (w.draft t).reverts = 0 := by
          rw [plain.eq]
          rfl
        have unread (i : KeepId) (here : (w.draft t).decided = some i) : False := by
          rw [decided] at here
          cases here
        unfold World.readPolicy
        split
        · exact fits_write fits.found fits.reverts fits.settled fun _ i here => (unread i here).elim
        · exact fits_write fits.found fits.reverts fits.settled fun _ i here => (unread i here).elim
        · refine fits_write (fun n here => ?_) ?_ (fun _ kept n here i row _ _ there => ?_)
            fun _ i here => (unread i here).elim
          · obtain rfl := Option.some.inj here
            exact ⟨inv.within, Nat.le_refl _⟩
          · exact zero ▸ Nat.zero_le _
          · simpa using List.any_eq_false.mp kept row (List.mem_of_getElem? there)
      · show ((w.write t (w.readPolicy t)).draft t).decided = none
        rw [draft_write, World.readPolicy]
        split <;> exact decided
  | _ => cases answered

theorem neutralize_does : underLock.Does t (undoing t) (run .neutralize)
    (fun _ => undoing t) fun _ => held t := by
  refine own nofun fun w inv mine ⟨⟨_, fits⟩, decided⟩ c a w' answered => ?_
  cases c with
  | ok =>
    unfold answer at answered
    dsimp only at answered
    split_ifs at answered
    cases answered
    refine ⟨mine, inv.draws mine _ _, ⟨mine, ?_⟩, ?_⟩
    · refine fits_write fits.found fits.reverts fits.settled fun _ i here => ?_
      rw [decided] at here
      cases here
    · exact (congrArg Draft.decided draft_write).trans decided
  | _ => cases answered

theorem revertKeeps_does : underLock.Does t (undoing t) (run .revertKeeps)
    (fun _ => undoing t) fun _ => held t := by
  refine own nofun fun w inv mine ⟨⟨_, fits⟩, decided⟩ c a w' answered => ?_
  cases c with
  | ok =>
    cases answered
    refine ⟨mine, inv.draws mine _ _, ⟨mine, ?_⟩, ?_⟩
    · refine fits_write (fun n here => ?_) (Nat.le_refl _) (fun _ _ n here i row above below _ => ?_)
        fun _ i here => ?_
      · obtain rfl := Option.some.inj here
        exact ⟨inv.within, Nat.le_refl _⟩
      · obtain rfl := Option.some.inj here
        exact absurd below (Nat.not_lt.mpr above)
      · rw [decided] at here
        cases here
    · exact (congrArg Draft.decided draft_write).trans decided
  | _ => cases answered

/-- What the projection knows once it has read the log. -/
def read (t : ℕ) : Option Bool → underLock.Local
  | none => starting t
  | some true => fitting t
  | some false => projecting t

theorem selectLatestKeep_does : underLock.Does t (starting t) (run .selectLatestKeep) (read t)
    fun _ => held t := by
  refine own nofun fun w inv mine ⟨_, plain⟩ c a w' answered => ?_
  cases c with
  | row i =>
    cases i with
    | none =>
      unfold answer at answered
      dsimp only at answered
      split_ifs at answered
      cases answered
      exact ⟨mine, inv, mine, plain⟩
    | some i =>
      unfold answer at answered
      dsimp only at answered
      split_ifs at answered with latest
      obtain ⟨row, here, -, all⟩ := of_isLatest latest
      have fits : Fits t w := .of_plain plain
      cases reverted : row.reverted with
      | true =>
        rw [here, Option.map_some, reverted] at answered
        cases answered
        refine ⟨mine, inv.draws mine _ w.rowLock, mine, fits_write (r := w.rowLock) fits.found
          fits.reverts fits.settled fun fine j found => ?_⟩
        obtain rfl := Option.some.inj found
        have unwritten : (w.draft t).policyType = none := by
          rw [plain.eq]
          rfl
        refine ⟨fun wrote => ?_, fun later => ?_⟩
        · simp [unwritten] at wrote
        · -- the row of the event is dated after the row that was read
          have nonempty := (List.getElem?_eq_some_iff.mp here).1
          have within : w.delivers t < w.log.length :=
            (inv.delivers t).elim id fun zero => zero ▸ Nat.lt_of_le_of_lt (Nat.zero_le _) nonempty
          have there := List.getElem?_eq_getElem within
          have dated := occurredAt_lt (inv.ordered fine) (inv.reverted i row here reverted) later
            here there
          exact absurd (all _ _ there rfl) (by omega)
      | false =>
        rw [here, Option.map_some, reverted] at answered
        cases answered
        refine ⟨mine, inv.draws mine _ w.rowLock, mine, ?_, i,
          congrArg Draft.decided draft_write, fun fine => ?_⟩
        · rw [draft_write]
          rw [plain.eq]
          rfl
        · by_contra before
          have past := inv.undone fine i row (Nat.lt_of_not_le before) here
          rw [reverted] at past
          cases past
  | _ => cases answered

/-- What the projection writes when it has not read that Keep is undone. -/
theorem fits_upsert {r : Option ℕ} (plain : ({ w.draft t with decided := none } : Draft).Plain)
    (standing : ∀ i, (w.draft t).decided = some i → w.amiss = false → w.undone ≤ i) :
    Fits t { w.write t { w.draft t with policyType := some (some .keep) } with rowLock := r } := by
  have zero : (w.draft t).reverts = 0 := congrArg Draft.reverts plain.eq
  have unfound : (w.draft t).found = none := congrArg Draft.found plain.eq
  refine fits_write (fun n here => ?_) ?_ (fun _ _ n here => ?_) fun fine i here => ?_
  · cases unfound.symm.trans here
  · exact zero ▸ Nat.zero_le _
  · cases unfound.symm.trans here
  · exact ⟨fun _ => standing i here fine, fun _ => by simp⟩

theorem upsertKeep_does {P : underLock.Local} (le : ∀ w, P w → (starting t) w ∨ (projecting t) w) :
    underLock.Does t P (run .upsertKeep) (fun _ => fitting t) fun _ => held t := by
  refine own nofun fun w inv mine h c a w' answered => ?_
  cases c with
  | ok =>
    unfold answer at answered
    dsimp only at answered
    split_ifs at answered
    cases answered
    refine ⟨mine, inv.draws mine _ _, mine, ?_⟩
    rcases le w h with ⟨-, plain⟩ | ⟨-, plain, i, here, standing⟩
    · refine fits_upsert ?_ fun i here => ?_
      · rw [plain.eq]
        rfl
      · rw [plain.eq] at here
        cases here
    · refine fits_upsert plain fun j there => ?_
      obtain rfl := Option.some.inj (here.symm.trans there)
      exact standing
  | _ => cases answered

/-! ## Transactions -/

abbrev Allowed := underLock.Guarantee

/-- The transaction may commit, with the lock or without it. -/
def ended (t : ℕ) : Assertion (underLock.Rely t) :=
  (underLock.outside t).or (underLock.owned t (fitting t))

def abandoned (t : ℕ) : Assertion (underLock.Rely t) :=
  (underLock.outside t).or (underLock.owned t (held t))

theorem lock_rollback (t : ℕ) : (w.rollback t).lock ≠ some t := by
  unfold World.rollback
  dsimp only
  split_ifs with mine
  · exact nofun
  · exact mine

theorem released (mine : w.lock = some t) : (w.rollback t).lock = none := if_pos mine

/-- A transaction that does not hold the lock ends behind the back of the one that does. -/
theorem background_of_end {t x : ℕ} (free : w.lock ≠ some t) (other : w.lock = some x) :
    Function.update w.draft t Draft.empty x = w.draft x := by
  refine Function.update_of_ne ?_ _ _
  rintro rfl
  exact free other

theorem background_rollback (free : w.lock ≠ some t) : Background w (w.rollback t) :=
  ⟨if_neg free, fun _ there => background_of_end free there, fun _ _ => rfl, rfl,
    List.prefix_rfl, id⟩

theorem background_commit (plain : (w.draft t).Plain) (free : w.lock ≠ some t) :
    Background w (w.commit t) := by
  refine ⟨if_neg free, fun _ there => background_of_end free there, fun _ _ => rfl, ?_, ?_,
    fun past => ?_⟩
  · show (w.draft t).found.getD w.undone = w.undone
    rw [plain.eq]
    rfl
  · have zero : (w.draft t).reverts = 0 := congrArg Draft.reverts plain.eq
    show w.log <+: w.committedLog t
    rw [World.committedLog, zero, revertBefore_zero]
    exact List.prefix_append ..
  · show (w.amiss || _ || _) = true
    rw [past]
    rfl

theorem commit_does : Triple Allowed (ended t) (run .commit) (fun _ => underLock.outside t)
    fun _ => underLock.outside t := by
  have ends (w : World) (c : Choice) (r : Except Failure Unit) (w' : World)
      (answered : answer t .commit c w = some (r, w')) : w' = w.commit t ∨ w' = w.rollback t := by
    cases c with
    | ok =>
      cases answered
      exact .inl rfl
    | fails e =>
      cases answered
      exact .inr rfl
    | _ => cases answered
  rintro w (⟨inv, free⟩ | ⟨inv, mine, -, fits⟩)
  · refine (underLock.aside fun w inv free c r w' answered => ?_) w ⟨inv, free⟩
    have plain := inv.plain t free
    rcases ends w c r w' answered with rfl | rfl
    · exact ⟨inv.commit (.of_plain plain), trivial, background_commit plain free⟩
    · exact ⟨inv.rollback t, trivial, background_rollback free⟩
  · refine (underLock.leave (P := fitting t) fun w inv mine ⟨_, fits⟩ c r w' answered => ?_) w
      ⟨inv, mine, mine, fits⟩
    rcases ends w c r w' answered with rfl | rfl
    · exact ⟨inv.commit fits, trivial, released mine⟩
    · exact ⟨inv.rollback t, trivial, released mine⟩

theorem rollback_does : Triple Allowed (abandoned t) (run .rollback)
    (fun _ => underLock.outside t) fun _ => underLock.outside t := by
  have ends (w : World) (c : Choice) (r : Except Failure Unit) (w' : World)
      (answered : answer t .rollback c w = some (r, w')) : w' = w.rollback t := by
    cases c with
    | ok =>
      cases answered
      rfl
    | _ => cases answered
  rintro w (⟨inv, free⟩ | ⟨inv, mine, still⟩)
  · refine (underLock.aside fun w inv free c r w' answered => ?_) w ⟨inv, free⟩
    obtain rfl := ends w c r w' answered
    exact ⟨inv.rollback t, trivial, background_rollback free⟩
  · refine (underLock.leave (P := held t) fun w inv mine _ c r w' answered => ?_) w ⟨inv, mine, still⟩
    obtain rfl := ends w c r w' answered
    exact ⟨inv.rollback t, trivial, released mine⟩

theorem transaction_does {α : Type} {body : KeepProgram α}
    (h : Triple Allowed (underLock.outside t) body (fun _ => ended t) fun _ => abandoned t) :
    Triple Allowed (underLock.outside t) (transaction body) (fun _ => underLock.outside t)
      fun _ => underLock.outside t := by
  refine (Triple.tryCatch h fun e => rollback_does.bind fun _ => .failed fun _ h => h).bind
    fun a => ?_
  exact commit_does.bind fun _ => .done fun _ h => h

/-- A statement outside of the lock that changes nothing. -/
theorem aside_does {q : Statement} (reads : ∀ w c a w',
      answer t q c w = some (.ok a, w') → w' = w) (other : q ≠ .commit) :
    Triple Allowed (underLock.outside t) (run q) (fun _ => underLock.outside t)
      fun _ => underLock.outside t := by
  refine underLock.aside fun w inv free c r w' answered => ?_
  have same : w' = w := by
    cases r with
    | ok a => exact reads w c a w' answered
    | error e => exact answer_error other answered
  subst same
  exact ⟨inv, trivial, .refl _⟩

/-! ## The calls -/

theorem lockMailbox_does : Triple Allowed (underLock.outside t) (run .lockMailbox)
    (fun _ => underLock.owned t (starting t)) fun _ => abandoned t := by
  refine Triple.consequence (underLock.take (P := starting t) fun w inv free c r w' answered => ?_)
    (fun _ h => h) (fun _ _ h => h) fun _ _ h => .inl h
  cases r with
  | error e =>
    obtain rfl := answer_error (q := .lockMailbox) nofun answered
    exact ⟨inv, trivial, .refl _⟩
  | ok a =>
    change answer t .lockMailbox c w = _ at answered
    cases c with
    | ok =>
      unfold answer at answered
      dsimp only at answered
      split_ifs at answered with idle
      cases answered
      refine ⟨⟨inv.within, inv.reverted, inv.undone, inv.ordered, inv.final, fun x other => ?_,
        inv.delivers⟩, trivial, idle, rfl, rfl, inv.plain t (by simp [idle])⟩
      exact inv.plain x (by simp [idle])
    | _ => cases answered

/-- What the holder of the lock does in its transaction. -/
theorem of_does {α : Type} {P : underLock.Local} {p : KeepProgram α}
    (h : underLock.Does t P p (fun _ => fitting t) fun _ => held t) :
    Triple Allowed (underLock.owned t P) p (fun _ => ended t) fun _ => abandoned t :=
  Triple.consequence h (fun _ h => h) (fun _ _ h => .inr h) fun _ _ h => .inr h

theorem undoStanding_does : Triple Allowed (underLock.outside t) undoStanding (fun _ => ended t)
    fun _ => abandoned t := by
  have fits (w : World) (_ : Inv w) (h : (undoing t) w) : (fitting t) w := h.1
  refine lockMailbox_does.bind fun _ => of_does ?_
  refine selectPolicy_does.bind fun existing => ?_
  refine Discipline.Does.bind (B := fun _ => undoing t) (Discipline.Does.when
    (fun _ => Discipline.Does.failed fun _ _ h => h.1.1) fun _ _ _ h => h) fun _ => ?_
  split
  · refine neutralize_does.bind fun row => revertKeeps_does.bind fun _ => ?_
    exact Discipline.Does.done fits
  · exact Discipline.Does.done fits
  · exact revertKeeps_does.bind fun reverted => Discipline.Does.done fits

theorem selectSender_does : Triple Allowed (underLock.outside t) (run .selectSender)
    (fun _ => underLock.outside t) fun _ => underLock.outside t := by
  refine aside_does (fun w c a w' answered => ?_) nofun
  cases c <;> cases answered
  rfl

theorem undoKeep_does : Triple Allowed (underLock.outside t) undoKeep
    (fun _ => underLock.outside t) fun _ => underLock.outside t := by
  refine selectSender_does.bind fun sender => Triple.bind (B := fun _ => underLock.outside t)
    (Triple.when (fun _ => Triple.failed fun _ h => h) fun _ _ h => h) fun _ => ?_
  exact (transaction_does undoStanding_does).tryCatch fun e => .failed fun _ h => h

theorem projectKeep_does : Triple Allowed (underLock.outside t) projectKeep
    (fun _ => underLock.outside t) fun _ => underLock.outside t := by
  refine transaction_does (lockMailbox_does.bind fun _ => of_does ?_)
  refine selectLatestKeep_does.bind fun latestKeep => Discipline.Does.when (fun stands => ?_)
    fun reverted w _ h => ?_
  · refine upsertKeep_does fun w h => ?_
    rcases latestKeep with _ | _ | _
    · exact .inl h
    · exact .inr h
    · cases stands
  · have undone : latestKeep = some true := by simpa using reverted
    subst undone
    exact h

theorem handleTriageVerdictApplied_does (verdict : SenderPolicyType) :
    Triple Allowed (underLock.outside t) (handleTriageVerdictApplied verdict)
      (fun _ => underLock.outside t) fun _ => underLock.outside t := by
  refine Triple.when (fun _ => projectKeep_does.tryCatch fun e => ?_) fun _ _ h => h
  split_ifs
  · exact projectKeep_does.tryCatch fun e => .failed fun _ h => h
  · exact .failed fun _ h => h

/-- A Keep is drafted without the lock. -/
theorem insertKeep_does : Triple Allowed (underLock.outside t) (run .insertKeep)
    (fun _ => ended t) fun _ => abandoned t := by
  refine Triple.consequence (underLock.aside fun w inv free c r w' answered => ?_)
    (fun _ h => h) (fun _ _ h => .inl h) fun _ _ h => .inl h
  cases r with
  | error e =>
    obtain rfl := answer_error (q := .insertKeep) nofun answered
    exact ⟨inv, trivial, .refl _⟩
  | ok a =>
    cases c with
    | time now =>
      cases answered
      have plain : (w.draft t).Plain := inv.plain t free
      refine ⟨⟨inv.within, inv.reverted, inv.undone, inv.ordered, inv.final, fun x other => ?_,
        inv.delivers⟩, trivial, rfl, fun x there => ?_, fun _ _ => rfl, rfl, List.prefix_rfl, id⟩
      · show ((Function.update w.draft t _) x).Plain
        by_cases mine : x = t
        · subst mine
          rw [Function.update_self]
          exact plain
        · rw [Function.update_of_ne mine]
          exact inv.plain x other
      · refine Function.update_of_ne ?_ _ _
        rintro rfl
        exact free there
    | _ => cases answered

theorem recordKeepIntent_does (windowStart : ℤ) :
    Triple Allowed (underLock.outside t) (recordKeepIntent windowStart)
      (fun _ => underLock.outside t) fun _ => underLock.outside t := by
  refine selectSender_does.bind fun sender => Triple.bind (B := fun _ => underLock.outside t)
    (Triple.when (fun _ => Triple.failed fun _ h => h) fun _ _ h => h) fun _ => ?_
  refine (aside_does (q := .selectRecentKeep windowStart) (fun w c a w' answered => ?_) nofun).bind
    fun recent => ?_
  · cases c with
    | row i =>
      cases i <;> unfold answer at answered <;> dsimp only at answered <;>
        split_ifs at answered <;> cases answered <;> rfl
    | _ => cases answered
  · cases recent with
    | some occurredAt => exact Triple.done fun _ h => h
    | none =>
      exact transaction_does insertKeep_does

theorem code_does (task : Task) : Triple Allowed (underLock.outside t) task.code
    (fun _ => underLock.outside t) fun _ => underLock.outside t := by
  cases task with
  | undoKeep => exact undoKeep_does.bind fun _ => .done fun _ h => h
  | deliver keep => exact handleTriageVerdictApplied_does .keep
  | recordKeepIntent windowStart =>
    exact (recordKeepIntent_does windowStart).bind fun _ => .done fun _ h => h

/-- Another writer commits; it may record a Keep. -/
theorem Inv.disturb {e : Event} (inv : Inv w) (happened : KeepUndo.disturb e w = some w') :
    Inv w' ∧ Background w w' := by
  unfold KeepUndo.disturb at happened
  split_ifs at happened
  cases e with
  | policy row =>
    cases happened
    exact ⟨⟨inv.within, inv.reverted, inv.undone, inv.ordered, inv.final, inv.plain, inv.delivers⟩,
      rfl, fun _ _ => rfl, fun _ _ => rfl, rfl, List.prefix_rfl, id⟩
  | setKeep now =>
    cases happened
    have grown : w.log.length ≤ (w.log ++ [(⟨now, false⟩ : KeepRow)]).length := by simp
    have old {i : KeepId} {row : KeepRow} (found : (w.log ++ [⟨now, false⟩])[i]? = some row) :
        w.log[i]? = some row ∨ w.log.length ≤ i ∧ row.reverted = false := by
      rcases Nat.lt_or_ge i w.log.length with small | large
      · rw [List.getElem?_append_left small] at found
        exact .inl found
      · rw [List.getElem?_append_right large] at found
        rw [List.mem_singleton.mp (List.mem_of_getElem? found)]
        exact .inr ⟨large, rfl⟩
    refine ⟨⟨Nat.le_trans inv.within grown, fun i row found reverted => ?_,
      fun fine i row below found => ?_, fun fine => (Bool.or_eq_false_iff.mp fine).2,
      fun fine => inv.final (Bool.or_eq_false_iff.mp fine).1, inv.plain, fun x => ?_⟩,
      rfl, fun _ _ => rfl, fun _ _ => rfl, rfl, List.prefix_append .., fun past => ?_⟩
    · rcases old found with there | ⟨-, stands⟩
      · exact inv.reverted i row there reverted
      · rw [stands] at reverted
        cases reverted
    · rcases old found with there | ⟨large, -⟩
      · exact inv.undone (Bool.or_eq_false_iff.mp fine).1 i row below there
      · exact absurd below (Nat.not_lt.mpr (Nat.le_trans inv.within large))
    · exact (inv.delivers x).imp_left fun within => Nat.lt_of_lt_of_le within grown
    · show (w.amiss || _) = true
      rw [past]
      rfl

theorem keeping_followed : Discipline.Followed underLock fun _ _ => True where
  accept := by
    intro t task w w' inv accepted
    cases task with
    | deliver keep =>
      change (if _ then some _ else none) = some w' at accepted
      split_ifs at accepted with ready
      cases accepted
      refine ⟨⟨inv.within, inv.reverted, inv.undone, inv.ordered, inv.final, inv.plain,
        fun x => ?_⟩, trivial, rfl, fun _ _ => rfl, fun x held => ?_, rfl, List.prefix_rfl, id⟩
      · by_cases mine : x = t
        · subst mine
          exact .inl (by simpa using ready.1)
        · simpa [Function.update_of_ne mine] using inv.delivers x
      · refine Function.update_of_ne ?_ _ _
        rintro rfl
        exact ready.2 held
    | undoKeep | recordKeepIntent windowStart =>
      cases accepted
      exact ⟨inv, trivial, .refl _⟩
  code _ := code_does _
  settle := by
    intro t r w w' inv settled
    cases settled
    exact ⟨inv, trivial, .refl _⟩
  crash := by
    intro t w w' inv crashed
    cases crashed
    exact ⟨inv.rollback t, trivial, lock_rollback t, released, background_rollback⟩
  disturb := by
    intro e w w' inv _ happened
    obtain ⟨inv', b⟩ := inv.disturb happened
    exact ⟨inv', trivial, b⟩

/-! ## The last word of an undo -/

/-- No Keep has been recorded, whatever the policy is. -/
def unkept (policy : Option Policy) : World where
  policy := policy
  log := []
  lock := none
  rowLock := none
  draft := fun _ => .empty
  delivers := fun _ => 0
  undone := 0
  projections := []
  amiss := false

theorem unkept_inv (policy : Option Policy) : Inv (unkept policy) := by
  refine ⟨Nat.le_refl _, ?_, ?_, ?_, ?_, fun _ _ => rfl, fun _ => .inr rfl⟩ <;> simp [unkept, disordered]

/-- A projection lands no Keep that was recorded before the last undo, and lands those that were
recorded after it. -/
theorem keep_undone_finally {policy : Option Policy} {c : Config keeping}
    (run : Reaches (.idle (unkept policy)) c) (fine : c.world.amiss = false) :
    ∀ p ∈ c.world.projections, p.Final :=
  (keeping_followed.inv (unkept_inv policy) rfl run).final fine

def proceeds (t n : ℕ) : List (Interleaving.Move keeping) := List.replicate n (.reply t .ok)

/-- A Keep is recorded at a time. -/
def records (t : ℕ) (now : ℤ) : List (Interleaving.Move keeping) :=
  [.start t (.recordKeepIntent 0), .reply t (.sender true), .reply t (.row none),
    .reply t (.time now), .reply t .ok, .finish t]

/-- The event of a Keep is delivered, and the latest row is the one given. -/
def delivers (t : ℕ) (keep latest : KeepId) (n : ℕ) : List (Interleaving.Move keeping) :=
  [.start t (.deliver keep), .reply t .ok, .reply t (.row (some latest))] ++ proceeds t n ++
    [.finish t]

/-- An undo that runs before the projection, and a Keep after it. -/
theorem keep_undone_finally_sample : ∃ c : Config keeping, Reaches (.idle (unkept none)) c ∧
    c.world.amiss = false ∧ c.world.projections = [⟨0, 0, false, 1⟩, ⟨1, 1, true, 1⟩] ∧
      ∀ p ∈ c.world.projections, p.Final := by
  obtain ⟨c, run, ended⟩ := exists_reaches (M := keeping) (c := .idle (unkept none))
    (l := records 0 10 ++ [.start 1 .undoKeep, .reply 1 (.sender true)] ++ proceeds 1 4 ++
      [.finish 1] ++ delivers 2 0 0 1 ++ records 0 20 ++ delivers 2 1 1 2)
    (p := fun c => decide (c.world.amiss = false ∧
      c.world.projections = [⟨0, 0, false, 1⟩, ⟨1, 1, true, 1⟩])) (by decide +kernel)
  obtain ⟨fine, projections⟩ := of_decide_eq_true ended
  exact ⟨c, run, fine, projections, keep_undone_finally run fine⟩

/-- The undo ends at another standing decision, and the projection then lands the Keep. -/
theorem keep_lands_after_undo : ¬∀ (policy : Option Policy) (c : Config keeping),
    Reaches (.idle (unkept policy)) c → ∀ p ∈ c.world.projections, p.Final := by
  intro always
  obtain ⟨c, run, ended⟩ := exists_reaches (M := keeping)
    (c := .idle (unkept (some ⟨some .unsubscribe, false⟩)))
    (l := records 0 10 ++ [.start 1 .undoKeep, .reply 1 (.sender true)] ++ proceeds 1 3 ++
      [.finish 1] ++ delivers 2 0 0 2)
    (p := fun c => decide (⟨0, 0, true, 1⟩ ∈ c.world.projections)) (by decide +kernel)
  have final := always _ c run _ (of_decide_eq_true ended)
  exact absurd (final.before rfl) (by decide)

end DeclutrMail.Senders.KeepUndo
