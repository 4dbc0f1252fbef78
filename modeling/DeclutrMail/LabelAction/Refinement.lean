import DeclutrMail.LabelAction.Forward
import DeclutrMail.LabelAction.Revert

/-!
# The system refines the protocol

`refines`: whatever the interleaving of deliveries, crashes, failing requests and outside
events, the world of the system moves by steps of the protocol only.
-/

namespace DeclutrMail.LabelAction

open Interleaving Discipline

variable {u : UserLabels} {S : Scope} {root job : ActionJob} {t : Delivery} {w w' : World}

/-! ## One delivery -/

/-- What a delivery knows of the row it has read. -/
def selected (job : ActionJob) : Local u S root :=
  .or (.fact (isFinal job = true))
    (.or ((Assertion.fact (job.direction = .forward ∧ SameJob root job)).and (begun job))
      ((Assertion.fact (job.direction = .reverse)).and (reverting job)))

theorem Inv.begun (h : Inv root w) (notFinal : isFinal w.forward = false) :
    (begun w.forward : Local u S root) w := by
  have quiet : w.activityLog = [] := by
    by_contra logged
    rw [h.committed logged] at notFinal
    cases notFinal
  refine ⟨⟨⟨fun done => ?_, quiet⟩, rfl, rfl, fun reached => ?_⟩, fun never applied => ?_⟩
  · rw [isFinal_of_done done] at notFinal
    cases notFinal
  · exact h.marked (executing_of_open h.forward notFinal reached)
  · rw [h.untouched applied] at never
    cases never

theorem Inv.selected (h : Inv root w) {direction : Direction} (there : w.job direction = some job) :
    (selected job : Local u S root) w := by
  cases direction with
  | forward =>
    obtain rfl : w.forward = job := Option.some.inj there
    cases final : isFinal w.forward with
    | true => exact .inl final
    | false => exact .inr (.inl ⟨⟨h.forward, h.same⟩, h.begun final⟩)
  | reverse => exact .inr (.inr ⟨(h.reverse job there).direction, job, there, .refl job⟩)

theorem does_executeJob (job : ActionJob) :
    Does u S root t (selected job) (executeJob job S.confirmed) (fun _ => anything)
      fun _ => anything := by
  unfold executeJob
  split_ifs with final
  · exact Does.done fun _ _ _ => trivial
  · cases direction : job.direction with
    | reverse =>
      refine does_executeReverse.pre fun w _ h => ?_
      rcases h with done | ⟨⟨forward, -⟩, -⟩ | ⟨-, known⟩
      · exact absurd done final
      · rw [direction] at forward
        cases forward
      · exact known
    | forward =>
      refine Does.of_fact (K := SameJob root job) (fun w _ h => ?_) fun same => ?_
      · rcases h with done | ⟨⟨-, same⟩, -⟩ | ⟨reverse, -⟩
        · exact absurd done final
        · exact same
        · rw [Assertion.fact_holds, direction] at reverse
          cases reverse
      · refine Does.tryCatch ((does_executeForward same).pre fun w _ h => ?_) does_forwardFailed
        rcases h with done | ⟨-, known⟩ | ⟨reverse, -⟩
        · exact absurd done final
        · exact known
        · rw [Assertion.fact_holds, direction] at reverse
          cases reverse

theorem does_execute (direction : Direction) :
    Does u S root t anything (execute S.confirmed direction) (fun _ => anything)
      fun _ => anything := by
  refine Does.bind (B := fun found => found.elim anything selected) ?_ fun found => ?_
  · refine reads (fun _ _ => rfl) (fun w inv _ f a w' took => ?_) fun _ _ _ _ _ => trivial
    obtain ⟨rfl, rfl⟩ := Prod.mk.inj (Option.some.inj took)
    refine ⟨rfl, ?_⟩
    cases there : w.job direction with
    | none => trivial
    | some job => exact inv.selected there
  · cases found with
    | none => exact Does.failed fun _ _ _ => trivial
    | some job => exact does_executeJob job

theorem acquires (t : Delivery) :
    Triple (discipline u S root).Guarantee ((discipline u S root).outside t) (await .acquireLock)
      (fun _ => (discipline u S root).owned t anything)
      fun _ => (discipline u S root).outside t := by
  refine take fun w inv free ch r w' answered => ?_
  cases ch with
  | go f =>
    obtain ⟨⟨a, v⟩, took, same⟩ := Option.map_eq_some_iff.mp answered
    obtain ⟨rfl, rfl⟩ := Prod.mk.inj same
    simp only [effect] at took
    split_ifs at took with idle
    obtain ⟨-, rfl⟩ := Prod.mk.inj (Option.some.inj took)
    have act : Act u S w { w with lock := some t } := .setLock w _
    exact ⟨inv.act act, .single act, idle, rfl, trivial⟩
  | lost f e => simp [system, answer, Request.mayLose] at answered
  | fail e =>
    simp only [system, answer] at answered
    split_ifs at answered
    obtain ⟨rfl, rfl⟩ := Prod.mk.inj (Option.some.inj answered)
    exact ⟨inv, .refl, Background.refl S w⟩

theorem releases (t : Delivery) :
    Triple (discipline u S root).Guarantee ((discipline u S root).owned t anything)
      (await .releaseLock) (fun _ => (discipline u S root).outside t)
      fun _ => (discipline u S root).outside t := by
  refine leave fun w inv mine _ ch r w' answered => ?_
  cases ch with
  | go f =>
    obtain ⟨⟨a, v⟩, took, same⟩ := Option.map_eq_some_iff.mp answered
    obtain ⟨rfl, rfl⟩ := Prod.mk.inj same
    simp only [effect] at took
    split_ifs at took with held
    obtain ⟨-, rfl⟩ := Prod.mk.inj (Option.some.inj took)
    have act : Act u S w { w with lock := none } := .setLock w _
    exact ⟨inv.act act, .single act, rfl⟩
  | lost f e => simp [system, answer, Request.mayLose] at answered
  | fail e => simp [system, answer, Request.mayFail] at answered

theorem runs_processJob (t : Delivery) (direction : Direction) :
    Triple (discipline u S root).Guarantee ((discipline u S root).outside t)
      (processJob S.confirmed direction) (fun _ => (discipline u S root).outside t)
      fun _ => (discipline u S root).outside t :=
  (acquires t).bind fun _ =>
    Triple.ensure (does_execute direction) (fun _ => releases t) fun _ => releases t

/-! ## Everything else -/

/-- What the events of a run may be. -/
def PermitsEvent (S : Scope) (w : World) : Event → Prop
  | .relabel m _ _ => ¬S.calm m
  | .terminalFailure .forward _ => S.spared → w.forward.status ≠ .done
  | _ => True

def Permits (S : Scope) (w : World) (m : Move (system u S.confirmed)) : Prop :=
  match m with
  | .disturb e => PermitsEvent S w e
  | _ => True

theorem background_undo {token : UndoToken} (issued : w.forward.undoToken = some token) :
    Background S w (w.undo token) := by
  unfold World.undo
  cases there : w.reverse with
  | none =>
    exact { Background.refl S w with reverse := by rw [there]; exact .clicked token issued }
  | some job =>
    simp only
    split_ifs
    · exact .refl S w
    · exact { Background.refl S w with
        reverse := by rw [there]; exact .same ⟨rfl, rfl, rfl, rfl, rfl⟩ }

theorem background_disturb {e : Event} (permitted : PermitsEvent S w e)
    (disturbed : disturb w e = some w') : Background S w w' := by
  cases e with
  | protect senderKey isProtected =>
    obtain rfl := Option.some.inj disturbed
    exact { Background.refl S w with }
  | relabel m labels row =>
    obtain rfl := Option.some.inj disturbed
    have others : ∀ m', S.calm m' → m' ≠ m := by
      rintro m' calm rfl
      exact permitted calm
    exact { Background.refl S w with
      gmail := fun m' calm => Function.update_of_ne (others m' calm) _ _
      mailMessages := fun m' calm => Function.update_of_ne (others m' calm) _ _ }
  | enqueueFailed =>
    simp only [disturb] at disturbed
    split_ifs at disturbed with queued
    obtain rfl := Option.some.inj disturbed
    exact { Background.refl S w with forward := .enqueueFailed queued }
  | terminalFailure direction e =>
    simp only [disturb] at disturbed
    split_ifs at disturbed with pending
    obtain rfl := Option.some.inj disturbed
    cases direction with
    | forward => exact { Background.refl S w with forward := .terminalFailure e permitted }
    | reverse =>
      refine { Background.refl S w with reverse := ?_ }
      simp only [World.terminalFailure, World.setReverse]
      cases w.reverse with
      | none => exact .none
      | some job => exact .same ⟨rfl, rfl, rfl, rfl, rfl⟩
  | undo =>
    obtain ⟨token, issued, rfl⟩ := Option.map_eq_some_iff.mp disturbed
    exact background_undo issued

theorem followed : Followed (discipline u S root) (Permits S) where
  accept := by
    intro t k w w' inv accepted
    simp only [system] at accepted
    split_ifs at accepted
    obtain rfl := Option.some.inj accepted
    exact ⟨inv, .refl, Background.refl S w⟩
  code := by
    intro t k w _
    exact runs_processJob t k
  settle := by
    intro t r w w' inv settled
    have b : Background S w w' := by
      cases r with
      | ok _ =>
        obtain rfl := Option.some.inj settled
        exact .refl S w
      | error e =>
        obtain rfl := Option.some.inj settled
        exact { Background.refl S w with }
    exact ⟨inv.background b, .single (.background b), b⟩
  crash := by
    intro (t : Delivery) (w : World) w' inv crashed
    obtain rfl := Option.some.inj crashed
    have act : Act u S w { w with lock := if w.lock = some t then none else w.lock } :=
      .setLock w _
    refine ⟨inv.act act, .single act, ?_, fun mine => if_pos mine, fun other => ?_⟩
    · show (if w.lock = some t then none else w.lock) ≠ some t
      split_ifs with mine
      · simp
      · exact mine
    · have same : (if w.lock = some t then none else w.lock) = w.lock := if_neg other
      exact { Background.refl S w with lock := same }
  disturb := by
    intro e w w' inv permitted disturbed
    have b := background_disturb permitted disturbed
    exact ⟨inv.background b, .single (.background b), b⟩

/-! ## Runs -/

/-- The steps of the protocol between two worlds of a run. -/
abbrev Acts (u : UserLabels) (S : Scope) : World → World → Prop := Relation.ReflTransGen (Act u S)

/-- A run of the system from a freshly enqueued job is a run of the protocol. -/
theorem refines {isProtected : SenderKey → Bool} {gmail : MessageId → Finset Label}
    {mail : MessageId → Option MailMessage} {c : Config (system u S.confirmed)}
    (enqueued : Enqueued root)
    (run : RunWhere (Permits S) (.idle (World.enqueued root isProtected gmail mail)) c) :
    Inv root c.world ∧ Acts u S (World.enqueued root isProtected gmail mail) c.world :=
  ⟨followed.inv (.enqueued enqueued isProtected gmail mail) rfl run,
    followed.kept (.enqueued enqueued isProtected gmail mail) rfl .refl run⟩

/-- So is every later part of it. -/
theorem refines_onward {isProtected : SenderKey → Bool} {gmail : MessageId → Finset Label}
    {mail : MessageId → Option MailMessage} {c d : Config (system u S.confirmed)}
    (enqueued : Enqueued root)
    (run : RunWhere (Permits S) (.idle (World.enqueued root isProtected gmail mail)) c)
    (onward : RunWhere (Permits S) c d) : Acts u S c.world d.world :=
  followed.kept (.enqueued enqueued isProtected gmail mail) rfl run onward

/-- What the steps keep, along with `Inv`, holds wherever they lead. -/
theorem Acts.induct {P : World → Prop} (h : Acts u S w w') (inv : Inv root w) (start : P w)
    (step : ∀ ⦃v v'⦄, Inv root v → P v → Act u S v v' → P v') : P w' := by
  have both : Inv root w' ∧ P w' := by
    induction h with
    | refl => exact ⟨inv, start⟩
    | tail _ last ih => exact ⟨ih.1.act last, step ih.1 ih.2 last⟩
  exact both.2

end DeclutrMail.LabelAction
