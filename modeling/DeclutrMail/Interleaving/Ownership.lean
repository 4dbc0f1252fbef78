import DeclutrMail.Interleaving.Triple

/-!
# One owner at a time

Many systems have something that one thread holds at a time: a lock, a turn, a lease. A
`Discipline` says what it is, what the other threads and the environment may do meanwhile
(`background`), the invariant of every world and the relation that every step keeps.

A thread that owns it reasons with assertions that only `background` can touch (`Does`),
and has to keep the invariant at each of its requests (`Discipline.own`).
`Discipline.verified` turns this into the obligations of a whole system.
-/

namespace Interleaving

variable {S : Signature} {M : System S} {α β : Type}

structure Discipline (M : System S) where
  owner : M.World → Option M.Thread
  inv : M.World → Prop
  kept : M.World → M.World → Prop
  background : M.World → M.World → Prop
  owner_background {w w' : M.World} : background w w' → owner w' = owner w
  kept_refl (w : M.World) : kept w w
  kept_trans {w w' w'' : M.World} : kept w w' → kept w' w'' → kept w w''

namespace Discipline

variable (D : Discipline M) {t t' : M.Thread} {w w' : M.World}

structure Guarantee (t : M.Thread) (w w' : M.World) : Prop where
  inv : D.inv w'
  kept : D.kept w w'
  mine : D.owner w = some t → D.owner w' = some t ∨ D.owner w' = none
  others : D.owner w ≠ some t → D.background w w' ∨ D.owner w = none ∧ D.owner w' = some t

structure Rely (t : M.Thread) (w w' : M.World) : Prop where
  inv : D.inv w'
  mine : D.owner w = some t → D.background w w'
  others : D.owner w ≠ some t → D.owner w' ≠ some t

variable {D}

theorem Guarantee.rely (h : D.Guarantee t w w') (ne : t ≠ t') : D.Rely t' w w' := by
  refine ⟨h.inv, fun mine => ?_, fun free => ?_⟩
  · have other : D.owner w ≠ some t := by
      rw [mine]
      exact fun same => ne (Option.some.inj same).symm
    rcases h.others other with b | ⟨idle, -⟩
    · exact b
    · simp [mine] at idle
  · by_cases held : D.owner w = some t
    · rcases h.mine held with kept | left
      · rw [kept]
        exact fun same => ne (Option.some.inj same)
      · simp [left]
    · rcases h.others held with b | ⟨-, taken⟩
      · rwa [D.owner_background b]
      · rw [taken]
        exact fun same => ne (Option.some.inj same)

variable (D)

/-- What the owner knows: the rest of the system keeps it. -/
abbrev Local := Assertion D.background

def owned (t : M.Thread) (P : D.Local) : Assertion (D.Rely t) where
  holds := fun w => D.inv w ∧ D.owner w = some t ∧ P w
  stable := fun _ _ ⟨_, mine, h⟩ r =>
    ⟨r.inv, (D.owner_background (r.mine mine)).trans mine, P.stable h (r.mine mine)⟩

/-- What a thread knows that is not the owner. -/
def outside (t : M.Thread) : Assertion (D.Rely t) where
  holds := fun w => D.inv w ∧ D.owner w ≠ some t
  stable := fun _ _ ⟨_, free⟩ r => ⟨r.inv, r.others free⟩

/-- A part of the owner's program. -/
abbrev Does (t : M.Thread) (P : D.Local) (p : Program S α) (B : α → D.Local)
    (E : S.Error → D.Local) : Prop :=
  Triple D.Guarantee (D.owned t P) p (fun a => D.owned t (B a)) fun e => D.owned t (E e)

variable {D}

theorem owned_mono {P P' : D.Local} (h : ∀ w, D.inv w → P w → P' w) (w : M.World)
    (hw : D.owned t P w) : D.owned t P' w := ⟨hw.1, hw.2.1, h w hw.1 hw.2.2⟩

namespace Does

variable {P P' : D.Local} {B B' : α → D.Local} {C : β → D.Local} {E E' : S.Error → D.Local}

theorem bind {p : Program S α} {f : α → Program S β} (first : D.Does t P p B E)
    (rest : ∀ a, D.Does t (B a) (f a) C E) : D.Does t P (p >>= f) C E := Triple.bind first rest

theorem done {a : α} (le : ∀ w, D.inv w → P w → B a w) : D.Does t P (.ret a) B E :=
  Triple.done (owned_mono le)

theorem failed {e : S.Error} (le : ∀ w, D.inv w → P w → E e w) :
    D.Does t P (.raise e : Program S α) B E := Triple.failed (owned_mono le)

theorem consequence {p : Program S α} (h : D.Does t P' p B' E')
    (pre : ∀ w, D.inv w → P w → P' w) (post : ∀ a w, D.inv w → B' a w → B a w)
    (fails : ∀ e w, D.inv w → E' e w → E e w) : D.Does t P p B E :=
  Triple.consequence h (owned_mono pre) (fun a => owned_mono (post a))
    fun e => owned_mono (fails e)

theorem pre {p : Program S α} (h : D.Does t P' p B E) (le : ∀ w, D.inv w → P w → P' w) :
    D.Does t P p B E := Triple.pre h (owned_mono le)

theorem post {p : Program S α} (h : D.Does t P p B' E) (le : ∀ a w, D.inv w → B' a w → B a w) :
    D.Does t P p B E := h.consequence (fun _ _ h => h) le fun _ _ _ h => h

theorem fails {p : Program S α} (h : D.Does t P p B E') (le : ∀ e w, D.inv w → E' e w → E e w) :
    D.Does t P p B E := h.consequence (fun _ _ h => h) (fun _ _ _ h => h) le

/-- A fact that the precondition implies may be used. -/
theorem of_fact {p : Program S α} {K : Prop} (known : ∀ w, D.inv w → P w → K)
    (h : K → D.Does t P p B E) : D.Does t P p B E :=
  fun w hw => h (known w hw.1 hw.2.2) w hw

theorem of_ex {ι : Sort*} {P : ι → D.Local} {p : Program S α} (h : ∀ i, D.Does t (P i) p B E) :
    D.Does t (.ex P) p B E := fun w ⟨inv, mine, i, hw⟩ => h i w ⟨inv, mine, hw⟩

theorem tryCatch {F : S.Error → D.Local} {p : Program S α} {handler : S.Error → Program S α}
    (first : D.Does t P p B F) (rest : ∀ e, D.Does t (F e) (handler e) B E) :
    D.Does t P (tryCatch p handler) B E := Triple.tryCatch first rest

theorem when {c : Bool} {p : Program S Unit} {B : Unit → D.Local}
    (yes : c = true → D.Does t P p B E) (no : c = false → ∀ w, D.inv w → P w → B () w) :
    D.Does t P (.when c p) B E := Triple.when yes fun none => owned_mono (no none)

end Does

/-- One request of the owner. -/
theorem own {q : S.Request} {P : D.Local} {B : S.Answer q → D.Local} {E : S.Error → D.Local}
    (h : ∀ w, D.inv w → D.owner w = some t → P w → ∀ ch r w', M.answer t q ch w = some (r, w') →
      D.owner w' = some t ∧ D.inv w' ∧ D.kept w w' ∧
        match r with
        | .ok a => B a w'
        | .error e => E e w') :
    D.Does t P (Program.perform q) B E := by
  refine Triple.perform fun w ⟨inv, mine, hw⟩ ch r w' answered => ?_
  obtain ⟨still, inv', kept, owed⟩ := h w inv mine hw ch r w' answered
  refine ⟨⟨inv', kept, fun _ => .inl still, fun free => absurd mine free⟩, ?_⟩
  cases r with
  | ok a => exact ⟨inv', still, owed⟩
  | error e => exact ⟨inv', still, owed⟩

/-- The request that makes a thread the owner. -/
theorem take {q : S.Request} {P : D.Local}
    (h : ∀ w, D.inv w → D.owner w ≠ some t → ∀ ch r w', M.answer t q ch w = some (r, w') →
      D.inv w' ∧ D.kept w w' ∧
        match r with
        | .ok _ => D.owner w = none ∧ D.owner w' = some t ∧ P w'
        | .error _ => D.background w w') :
    Triple D.Guarantee (D.outside t) (Program.perform q) (fun _ => D.owned t P)
      fun _ => D.outside t := by
  refine Triple.perform fun w ⟨inv, free⟩ ch r w' answered => ?_
  obtain ⟨inv', kept, owed⟩ := h w inv free ch r w' answered
  cases r with
  | ok a =>
    obtain ⟨idle, taken, hw'⟩ := owed
    exact ⟨⟨inv', kept, fun mine => absurd mine free, fun _ => .inr ⟨idle, taken⟩⟩,
      inv', taken, hw'⟩
  | error e =>
    refine ⟨⟨inv', kept, fun mine => absurd mine free, fun _ => .inl owed⟩, inv', ?_⟩
    rwa [D.owner_background owed]

/-- The request by which a thread stops being the owner. -/
theorem leave {q : S.Request} {P : D.Local}
    (h : ∀ w, D.inv w → D.owner w = some t → P w → ∀ ch r w', M.answer t q ch w = some (r, w') →
      D.inv w' ∧ D.kept w w' ∧ D.owner w' = none) :
    Triple D.Guarantee (D.owned t P) (Program.perform q) (fun _ => D.outside t)
      fun _ => D.outside t := by
  refine Triple.perform fun w ⟨inv, mine, hw⟩ ch r w' answered => ?_
  obtain ⟨inv', kept, left⟩ := h w inv mine hw ch r w' answered
  have out : D.owner w' ≠ some t := by simp [left]
  refine ⟨⟨inv', kept, fun _ => .inr left, fun free => absurd mine free⟩, ?_⟩
  cases r <;> exact ⟨inv', out⟩

/-- A request of a thread that is not the owner and does not become it. -/
theorem aside {q : S.Request}
    (h : ∀ w, D.inv w → D.owner w ≠ some t → ∀ ch r w', M.answer t q ch w = some (r, w') →
      D.inv w' ∧ D.kept w w' ∧ D.background w w') :
    Triple D.Guarantee (D.outside t) (Program.perform q) (fun _ => D.outside t)
      fun _ => D.outside t := by
  refine Triple.perform fun w ⟨inv, free⟩ ch r w' answered => ?_
  obtain ⟨inv', kept, b⟩ := h w inv free ch r w' answered
  refine ⟨⟨inv', kept, fun mine => absurd mine free, fun _ => .inl b⟩, ?_⟩
  cases r <;> exact ⟨inv', by rwa [D.owner_background b]⟩

/-! ## Whole systems -/

/-- What has to be shown of a system that follows the discipline: `code` of its programs,
the others of the moves around them. -/
structure Followed (D : Discipline M) (ok : M.World → Move M → Prop) : Prop where
  accept {t : M.Thread} {k : M.Task} {w w' : M.World} : D.inv w → M.accept t k w = some w' →
    D.inv w' ∧ D.kept w w' ∧ D.background w w'
  code {t : M.Thread} {k : M.Task} {w : M.World} : M.accept t k w ≠ none →
    Triple D.Guarantee (D.outside t) (M.code k) (fun _ => D.outside t) fun _ => D.outside t
  settle {t : M.Thread} {r : Except S.Error M.Outcome} {w w' : M.World} : D.inv w →
    M.settle t r w = some w' → D.inv w' ∧ D.kept w w' ∧ D.background w w'
  crash {t : M.Thread} {w w' : M.World} : D.inv w → M.crash t w = some w' →
    D.inv w' ∧ D.kept w w' ∧ D.owner w' ≠ some t ∧
      (D.owner w = some t → D.owner w' = none) ∧ (D.owner w ≠ some t → D.background w w')
  disturb {e : M.Event} {w w' : M.World} : D.inv w → ok w (.disturb e) →
    M.disturb e w = some w' → D.inv w' ∧ D.kept w w' ∧ D.background w w'

variable {ok : M.World → Move M → Prop}

theorem Guarantee.of_background (inv : D.inv w') (kept : D.kept w w') (b : D.background w w') :
    D.Guarantee t w w' :=
  ⟨inv, kept, fun mine => .inl (by rwa [D.owner_background b]), fun _ => .inl b⟩

theorem Followed.verified (F : Followed D ok) :
    Verified M ok D.Rely D.Guarantee D.inv (fun t w => D.owner w ≠ some t)
      fun t _ w => D.owner w ≠ some t where
  guarantee_rely ne _ allowed := allowed.rely ne
  guarantee_inv _ allowed := allowed.inv
  idle_stable t _ _ free relied := relied.others free
  start := by
    intro t k w w' inv free accepted
    obtain ⟨inv', kept, b⟩ := F.accept inv accepted
    refine ⟨.of_background inv' kept b, ?_⟩
    have out : D.owner w' ≠ some t := by rwa [D.owner_background b]
    refine (F.code (k := k) (w := w) (by simp [accepted]) w' ⟨inv', out⟩).mono fun r v h => ?_
    cases r with
    | ok _ => exact h.2
    | error _ => exact h.2
  finish := by
    intro t r w w' inv free settled
    obtain ⟨inv', kept, b⟩ := F.settle inv settled
    exact ⟨.of_background inv' kept b, by rwa [D.owner_background b]⟩
  crash := by
    intro t w w' inv crashed
    obtain ⟨inv', kept, free, mine, others⟩ := F.crash inv crashed
    exact ⟨⟨inv', kept, fun held => .inr (mine held), fun other => .inl (others other)⟩, free⟩
  disturb := by
    intro e w w' inv permitted disturbed
    obtain ⟨inv', kept, b⟩ := F.disturb inv permitted disturbed
    exact ⟨inv', fun t => ⟨inv', fun _ => b, fun free => by rwa [D.owner_background b]⟩⟩

theorem Followed.inv (F : Followed D ok) {c : Config M} (start : D.inv w)
    (free : D.owner w = none) (h : RunWhere ok (Config.idle w) c) : D.inv c.world :=
  (F.verified.sound start (fun t => by simp [free]) h).inv

/-- Every step of a run keeps the relation, so the whole run does. -/
theorem Followed.kept (F : Followed D ok) {c d : Config M} (start : D.inv w)
    (free : D.owner w = none) (h : RunWhere ok (Config.idle w) c) (onward : RunWhere ok c d) :
    D.kept c.world d.world := by
  induction onward with
  | refl => exact D.kept_refl _
  | step before permitted taken ih =>
    refine D.kept_trans ih ?_
    have sound := F.verified.sound start (fun t => by simp [free]) (h.trans before)
    rcases (F.verified.step_sound sound permitted taken).2 with ⟨t, allowed⟩ | ⟨e, rfl, disturbed⟩
    · exact allowed.kept
    · exact (F.disturb sound.inv permitted disturbed).2.1

end Discipline

end Interleaving
