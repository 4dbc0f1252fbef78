import DeclutrMail.Interleaving.Ownership

/-!
# Programs that run one at a time

`System.restrict` takes out of a system the moves that a condition forbids, so that a run by
permitted moves is a run of the restricted system.

Where a program owns the system from its start to its end, `Discipline.Turns` says what has to be
shown: the program itself is verified as if it ran alone.
-/

namespace Interleaving

variable {S : Signature}

section Restrict

variable (M : System S) (ok : M.World → Move M → Prop) [∀ w m, Decidable (ok w m)]

/-- The system without the moves that `ok` forbids. -/
def System.restrict : System S where
  World := M.World
  Thread := M.Thread
  decThread := M.decThread
  Task := M.Task
  Outcome := M.Outcome
  Choice := M.Choice
  Event := M.Event
  code := M.code
  accept t k w := if ok w (.start t k) then M.accept t k w else none
  answer t q c w := if ok w (.reply t c) then M.answer t q c w else none
  settle t r w := if ok w (.finish t) then M.settle t r w else none
  crash t w := if ok w (.crash t) then M.crash t w else none
  disturb e w := if ok w (.disturb e) then M.disturb e w else none

variable {M ok}

section Moves

variable {t : M.Thread} {w w' : M.World}

theorem System.restrict_accept {k : M.Task} (h : (M.restrict ok).accept t k w = some w') :
    ok w (.start t k) ∧ M.accept t k w = some w' := Option.ite_none_right_eq_some.mp h

theorem System.restrict_answer {q : S.Request} {c : M.Choice} {r : Except S.Error (S.Answer q)}
    (h : (M.restrict ok).answer t q c w = some (r, w')) :
    ok w (.reply t c) ∧ M.answer t q c w = some (r, w') := Option.ite_none_right_eq_some.mp h

theorem System.restrict_settle {r : Except S.Error M.Outcome}
    (h : (M.restrict ok).settle t r w = some w') :
    ok w (.finish t) ∧ M.settle t r w = some w' := Option.ite_none_right_eq_some.mp h

theorem System.restrict_crash (h : (M.restrict ok).crash t w = some w') :
    ok w (.crash t) ∧ M.crash t w = some w' := Option.ite_none_right_eq_some.mp h

theorem System.restrict_disturb {e : M.Event} (h : (M.restrict ok).disturb e w = some w') :
    ok w (.disturb e) ∧ M.disturb e w = some w' := Option.ite_none_right_eq_some.mp h

end Moves

def Move.restrict : Move M → Move (M.restrict ok)
  | .start t k => .start t k
  | .reply t c => .reply t c
  | .finish t => .finish t
  | .crash t => .crash t
  | .disturb e => .disturb e

def Config.restrict (c : Config M) : Config (M.restrict ok) := ⟨c.world, c.running⟩

theorem Config.step_restrict {c d : Config M} {m : Move M} (permitted : ok c.world m)
    (taken : c.step m = some d) :
    (c.restrict : Config (M.restrict ok)).step m.restrict = some d.restrict := by
  cases m with
  | start t k =>
    cases running : c.running t with
    | some p => simp [Config.step, running] at taken
    | none =>
      obtain ⟨w, accepted, rfl⟩ : ∃ w, M.accept t k c.world = some w ∧
          c.put t w (some (M.code k)) = d := by simpa [Config.step, running] using taken
      simp [Config.step, Config.restrict, Move.restrict, System.restrict, running, permitted,
        accepted]
      rfl
  | reply t ch =>
    cases running : c.running t with
    | none => simp [Config.step, running] at taken
    | some p =>
      cases p with
      | ret | raise => simp [Config.step, running] at taken
      | request q next =>
        obtain ⟨r, w, answered, rfl⟩ : ∃ r w, M.answer t q ch c.world = some (r, w) ∧
            c.put t w (some (next r)) = d := by simpa [Config.step, running] using taken
        simp [Config.step, Config.restrict, Move.restrict, System.restrict, running, permitted,
          answered]
        rfl
  | finish t =>
    cases running : c.running t with
    | none => simp [Config.step, running] at taken
    | some p =>
      cases p with
      | request => simp [Config.step, running] at taken
      | ret | raise =>
        obtain ⟨w, settled, rfl⟩ :=
          Option.map_eq_some_iff.mp (by simpa [Config.step, running] using taken)
        simp [Config.step, Config.restrict, Move.restrict, System.restrict, running, permitted,
          settled]
        rfl
  | crash t =>
    cases running : c.running t with
    | none => simp [Config.step, running] at taken
    | some p =>
      obtain ⟨w, crashed, rfl⟩ : ∃ w, M.crash t c.world = some w ∧ c.put t w none = d := by
        simpa [Config.step, running] using taken
      simp [Config.step, Config.restrict, Move.restrict, System.restrict, running, permitted,
        crashed]
      rfl
  | disturb e =>
    obtain ⟨w, disturbed, rfl⟩ : ∃ w, M.disturb e c.world = some w ∧
        { c with world := w } = d := by simpa [Config.step] using taken
    simp [Config.step, Config.restrict, Move.restrict, System.restrict, permitted, disturbed]

/-- A permitted run is a run of the restricted system. -/
theorem RunWhere.restrict {c d : Config M} (h : RunWhere ok c d) :
    Reaches (c.restrict : Config (M.restrict ok)) d.restrict := by
  induction h with
  | refl => exact .refl
  | step _ permitted taken ih => exact .step ih trivial (Config.step_restrict permitted taken)

end Restrict

namespace Discipline

variable {M : System S}

/-- What has to be shown of a system whose programs own it from start to end. -/
structure Turns (D : Discipline M) (begun : M.Task → D.Local)
    (ended : Except S.Error M.Outcome → D.Local) : Prop where
  accept {t : M.Thread} {k : M.Task} {w w' : M.World} : D.inv w → M.accept t k w = some w' →
    D.inv w' ∧ D.kept w w' ∧ D.owner w = none ∧ D.owner w' = some t ∧ begun k w'
  code (t : M.Thread) (k : M.Task) :
    D.Does t (begun k) (M.code k) (fun a => ended (.ok a)) fun e => ended (.error e)
  settle {t : M.Thread} {r : Except S.Error M.Outcome} {w w' : M.World} : D.inv w →
    D.owner w = some t → ended r w → M.settle t r w = some w' →
      D.inv w' ∧ D.kept w w' ∧ D.owner w' = none
  crash {t : M.Thread} {w w' : M.World} : D.inv w → M.crash t w = some w' →
    D.inv w' ∧ D.kept w w' ∧ D.owner w' ≠ some t ∧
      (D.owner w = some t → D.owner w' = none) ∧ (D.owner w ≠ some t → D.background w w')
  disturb {e : M.Event} {w w' : M.World} : D.inv w → M.disturb e w = some w' →
    D.inv w' ∧ D.kept w w' ∧ D.background w w'

variable {D : Discipline M} {begun : M.Task → D.Local} {ended : Except S.Error M.Outcome → D.Local}

theorem Turns.verified (T : D.Turns begun ended) :
    Verified M (fun _ _ => True) D.Rely D.Guarantee D.inv (fun t w => D.owner w ≠ some t)
      fun t r w => D.owned t (ended r) w where
  guarantee_rely ne _ allowed := allowed.rely ne
  guarantee_inv _ allowed := allowed.inv
  idle_stable t _ _ free relied := relied.others free
  start := by
    intro t k w w' inv free accepted
    obtain ⟨inv', kept, idle, taken, hw'⟩ := T.accept inv accepted
    refine ⟨⟨inv', kept, fun mine => absurd mine free, fun _ => .inr ⟨idle, taken⟩⟩, ?_⟩
    refine (T.code t k w' ⟨inv', taken, hw'⟩).mono fun r v h => ?_
    cases r with
    | ok _ => exact h
    | error _ => exact h
  finish := by
    intro t r w w' inv owned settled
    obtain ⟨inv', kept, idle⟩ := T.settle inv owned.2.1 owned.2.2 settled
    exact ⟨⟨inv', kept, fun _ => .inr idle, fun other => absurd owned.2.1 other⟩, by simp [idle]⟩
  crash := by
    intro t w w' inv crashed
    obtain ⟨inv', kept, free, mine, others⟩ := T.crash inv crashed
    exact ⟨⟨inv', kept, fun held => .inr (mine held), fun other => .inl (others other)⟩, free⟩
  disturb := by
    intro e w w' inv _ disturbed
    obtain ⟨inv', kept, b⟩ := T.disturb inv disturbed
    exact ⟨inv', fun t => ⟨inv', fun _ => b, fun free => by rwa [D.owner_background b]⟩⟩

theorem Turns.inv (T : D.Turns begun ended) {w : M.World} {c : Config M} (start : D.inv w)
    (free : D.owner w = none) (h : Reaches (Config.idle w) c) : D.inv c.world :=
  (T.verified.sound start (fun t => by simp [free]) h).inv

end Discipline

end Interleaving
