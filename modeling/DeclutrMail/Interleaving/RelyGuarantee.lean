import Mathlib.Logic.Relation
import DeclutrMail.Interleaving.System

/-!
# Rely and guarantee

`Safe` is the correctness of one thread's program at one world. At every request the rest
of the system may first act any number of times, as its `rely` allows; the answer's own
effect must then be one the thread's `guarantee` allows, and the program must be safe from
there. The definition quantifies over the interference, so a proof names an assertion that
holds at the request and that `rely` preserves (`Safe.request_of_stable`).

`Verified` collects what has to be shown of a system, once for each kind of move, and
`Verified.sound` is the induction over its runs.
-/

namespace Interleaving

variable {S : Signature} {M : System S} {α β : Type}

/-- `A` survives every action that `R` allows. -/
def Stable {W : Type} (R : W → W → Prop) (A : W → Prop) : Prop :=
  ∀ ⦃w w'⦄, A w → R w w' → A w'

theorem Stable.star {W : Type} {R : W → W → Prop} {A : W → Prop} (h : Stable R A) {w w' : W}
    (hw : A w) (hs : Relation.ReflTransGen R w w') : A w' := by
  induction hs with
  | refl => exact hw
  | tail _ last ih => exact h ih last

theorem Stable.and {W : Type} {R : W → W → Prop} {A B : W → Prop} (hA : Stable R A)
    (hB : Stable R B) : Stable R fun w => A w ∧ B w :=
  fun _ _ h r => ⟨hA h.1 r, hB h.2 r⟩

/-- The worlds `rely` may lead to before a thread acts again. -/
abbrev Interfered (rely : M.Thread → M.World → M.World → Prop) (t : M.Thread)
    (w w' : M.World) : Prop := Relation.ReflTransGen (rely t) w w'

def Safe (M : System S) (rely guarantee : M.Thread → M.World → M.World → Prop) (t : M.Thread)
    (post : Except S.Error α → M.World → Prop) : Program S α → M.World → Prop
  | .ret a, w => ∀ w', Interfered rely t w w' → post (.ok a) w'
  | .raise e, w => ∀ w', Interfered rely t w w' → post (.error e) w'
  | .request q next, w => ∀ w', Interfered rely t w w' → ∀ ch r w'',
      M.answer t q ch w' = some (r, w'') →
        guarantee t w' w'' ∧ Safe M rely guarantee t post (next r) w''

variable {rely guarantee : M.Thread → M.World → M.World → Prop} {t : M.Thread}

theorem Safe.interfered {post : Except S.Error α → M.World → Prop} {p : Program S α}
    {w w' : M.World} (h : Safe M rely guarantee t post p w) (hw : Interfered rely t w w') :
    Safe M rely guarantee t post p w' := by
  cases p with
  | ret a => exact fun v hv => h v (hw.trans hv)
  | raise e => exact fun v hv => h v (hw.trans hv)
  | request q next => exact fun v hv => h v (hw.trans hv)

theorem Safe.mono {post post' : Except S.Error α → M.World → Prop} {p : Program S α}
    {w : M.World} (h : Safe M rely guarantee t post p w)
    (le : ∀ r w, post r w → post' r w) : Safe M rely guarantee t post' p w := by
  induction p generalizing w with
  | ret a => exact fun v hv => le _ _ (h v hv)
  | raise e => exact fun v hv => le _ _ (h v hv)
  | request q next ih =>
    intro v hv ch r w'' answered
    obtain ⟨allowed, rest⟩ := h v hv ch r w'' answered
    exact ⟨allowed, ih r rest⟩

/-- A thread that keeps a guarantee keeps a weaker one. -/
theorem Safe.weaken {guarantee' : M.Thread → M.World → M.World → Prop}
    {post : Except S.Error α → M.World → Prop} {p : Program S α} {w : M.World}
    (le : ∀ {w w'}, guarantee t w w' → guarantee' t w w')
    (h : Safe M rely guarantee t post p w) : Safe M rely guarantee' t post p w := by
  induction p generalizing w with
  | ret a => exact h
  | raise e => exact h
  | request q next ih =>
    intro v hv ch r w'' answered
    obtain ⟨allowed, rest⟩ := h v hv ch r w'' answered
    exact ⟨le allowed, ih r rest⟩

/-- What nobody takes away is still there at the end. -/
theorem Safe.frame {post : Except S.Error α → M.World → Prop} {F : M.World → Prop}
    {p : Program S α} {w : M.World} (stable : Stable (rely t) F)
    (kept : ∀ {w w'}, guarantee t w w' → F w → F w') (h : Safe M rely guarantee t post p w)
    (hF : F w) : Safe M rely guarantee t (fun r w => post r w ∧ F w) p w := by
  induction p generalizing w with
  | ret a => exact fun v hv => ⟨h v hv, stable.star hF hv⟩
  | raise e => exact fun v hv => ⟨h v hv, stable.star hF hv⟩
  | request q next ih =>
    intro v hv ch r w'' answered
    obtain ⟨allowed, rest⟩ := h v hv ch r w'' answered
    exact ⟨allowed, ih r rest (kept allowed (stable.star hF hv))⟩

/-! ## Rules for the program constructors -/

theorem Safe.ret_of_stable {post : Except S.Error α → M.World → Prop} {a : α} {w : M.World}
    (A : M.World → Prop) (hw : A w) (stable : Stable (rely t) A)
    (h : ∀ w, A w → post (.ok a) w) : Safe M rely guarantee t post (.ret a) w :=
  fun _ hv => h _ (stable.star hw hv)

theorem Safe.raise_of_stable {post : Except S.Error α → M.World → Prop} {e : S.Error}
    {w : M.World} (A : M.World → Prop) (hw : A w) (stable : Stable (rely t) A)
    (h : ∀ w, A w → post (.error e) w) : Safe M rely guarantee t post (.raise e) w :=
  fun _ hv => h _ (stable.star hw hv)

theorem Safe.request_of_stable {post : Except S.Error α → M.World → Prop} {q : S.Request}
    {next : Except S.Error (S.Answer q) → Program S α} {w : M.World} (A : M.World → Prop)
    (hw : A w) (stable : Stable (rely t) A)
    (h : ∀ w, A w → ∀ ch r w', M.answer t q ch w = some (r, w') →
      guarantee t w w' ∧ Safe M rely guarantee t post (next r) w') :
    Safe M rely guarantee t post (.request q next) w :=
  fun _ hv ch r w'' answered => h _ (stable.star hw hv) ch r w'' answered

/-- One request, with the continuation left to `post`. -/
theorem Safe.perform {q : S.Request} {post : Except S.Error (S.Answer q) → M.World → Prop}
    {w : M.World} (A : M.World → Prop) (hw : A w) (stable : Stable (rely t) A)
    (h : ∀ w, A w → ∀ ch r w', M.answer t q ch w = some (r, w') →
      guarantee t w w' ∧ ∀ w'', Interfered rely t w' w'' → post r w'') :
    Safe M rely guarantee t post (Program.perform q) w := by
  refine Safe.request_of_stable A hw stable fun v hv ch r w' answered => ?_
  obtain ⟨allowed, rest⟩ := h v hv ch r w' answered
  refine ⟨allowed, ?_⟩
  cases r with
  | ok a => exact rest
  | error e => exact rest

theorem Safe.bind {post : Except S.Error β → M.World → Prop} {p : Program S α}
    {f : α → Program S β} {w : M.World}
    (h : Safe M rely guarantee t
      (fun r w => match r with
        | .ok a => Safe M rely guarantee t post (f a) w
        | .error e => post (.error e) w) p w) :
    Safe M rely guarantee t post (p >>= f) w := by
  induction p generalizing w with
  | ret a => exact h w .refl
  | raise e => exact h
  | request q next ih =>
    intro v hv ch r w'' answered
    obtain ⟨allowed, rest⟩ := h v hv ch r w'' answered
    exact ⟨allowed, ih r rest⟩

theorem Safe.tryCatch {post : Except S.Error α → M.World → Prop} {p : Program S α}
    {handler : S.Error → Program S α} {w : M.World}
    (h : Safe M rely guarantee t
      (fun r w => match r with
        | .ok a => post (.ok a) w
        | .error e => Safe M rely guarantee t post (handler e) w) p w) :
    Safe M rely guarantee t post (tryCatch p handler) w := by
  induction p generalizing w with
  | ret a => exact h
  | raise e => exact h w .refl
  | request q next ih =>
    intro v hv ch r w'' answered
    obtain ⟨allowed, rest⟩ := h v hv ch r w'' answered
    exact ⟨allowed, ih r rest⟩

/-! ## Whole systems -/

/-- The proof obligations of a system, one for each kind of move. `idle t` holds while
thread `t` runs nothing, `post t` when its program has ended. -/
structure Verified (M : System S) (ok : M.World → Move M → Prop)
    (rely guarantee : M.Thread → M.World → M.World → Prop) (inv : M.World → Prop)
    (idle : M.Thread → M.World → Prop)
    (post : M.Thread → Except S.Error M.Outcome → M.World → Prop) : Prop where
  guarantee_rely {t t' : M.Thread} {w w' : M.World} :
    t ≠ t' → inv w → guarantee t w w' → rely t' w w'
  guarantee_inv {t : M.Thread} {w w' : M.World} : inv w → guarantee t w w' → inv w'
  idle_stable (t : M.Thread) : Stable (rely t) (idle t)
  start {t : M.Thread} {k : M.Task} {w w' : M.World} : inv w → idle t w →
    M.accept t k w = some w' →
      guarantee t w w' ∧ Safe M rely guarantee t (post t) (M.code k) w'
  finish {t : M.Thread} {r : Except S.Error M.Outcome} {w w' : M.World} : inv w →
    post t r w → M.settle t r w = some w' → guarantee t w w' ∧ idle t w'
  crash {t : M.Thread} {w w' : M.World} : inv w → M.crash t w = some w' →
    guarantee t w w' ∧ idle t w'
  disturb {e : M.Event} {w w' : M.World} : inv w → ok w (.disturb e) →
    M.disturb e w = some w' → inv w' ∧ ∀ t, rely t w w'

/-- What `Verified` maintains: the invariant, and a safe program on every busy thread. -/
structure Config.Sound (c : Config M) (rely guarantee : M.Thread → M.World → M.World → Prop)
    (inv : M.World → Prop) (idle : M.Thread → M.World → Prop)
    (post : M.Thread → Except S.Error M.Outcome → M.World → Prop) : Prop where
  inv : inv c.world
  idle (t : M.Thread) : c.running t = none → idle t c.world
  safe (t : M.Thread) (p : Program S M.Outcome) : c.running t = some p →
    Safe M rely guarantee t (post t) p c.world

variable {ok : M.World → Move M → Prop} {inv : M.World → Prop} {idle : M.Thread → M.World → Prop}
  {post : M.Thread → Except S.Error M.Outcome → M.World → Prop}

namespace Verified

/-- A thread's own action: the others keep their assertions by `rely`. -/
theorem put_sound (V : Verified M ok rely guarantee inv idle post) {c : Config M}
    (h : c.Sound rely guarantee inv idle post) {t : M.Thread} {w : M.World}
    {p : Option (Program S M.Outcome)} (allowed : guarantee t c.world w)
    (hp : match p with
      | none => idle t w
      | some p => Safe M rely guarantee t (post t) p w) :
    (c.put t w p).Sound rely guarantee inv idle post := by
  have others : ∀ t', t' ≠ t → rely t' c.world w := fun t' ne =>
    V.guarantee_rely ne.symm h.inv allowed
  refine ⟨V.guarantee_inv h.inv allowed, fun t' hnone => ?_, fun t' p' hsome => ?_⟩
  · by_cases same : t' = t
    · subst same
      obtain rfl : p = none := by simpa using hnone
      exact hp
    · have before : c.running t' = none := by simpa [same] using hnone
      exact V.idle_stable t' (h.idle t' before) (others t' same)
  · by_cases same : t' = t
    · subst same
      obtain rfl : p = some p' := by simpa using hsome
      exact hp
    · have before : c.running t' = some p' := by simpa [same] using hsome
      exact (h.safe t' p' before).interfered (.single (others t' same))

/-- Every permitted move keeps a configuration sound, and acts within the guarantee of the
thread that moved. -/
theorem step_acts (V : Verified M ok rely guarantee inv idle post) {c d : Config M}
    {m : Move M} (h : c.Sound rely guarantee inv idle post) (permitted : ok c.world m)
    (taken : c.step m = some d) :
    d.Sound rely guarantee inv idle post ∧
      ((∃ t, m.thread = some t ∧ guarantee t c.world d.world) ∨
        ∃ e, m = .disturb e ∧ M.disturb e c.world = some d.world) := by
  cases m with
  | start t k =>
    cases running : c.running t with
    | some p => simp [Config.step, running] at taken
    | none =>
      obtain ⟨w, admitted, rfl⟩ : ∃ w, M.accept t k c.world = some w ∧
          c.put t w (some (M.code k)) = d := by simpa [Config.step, running] using taken
      obtain ⟨allowed, safe⟩ := V.start h.inv (h.idle t running) admitted
      exact ⟨V.put_sound h allowed safe, .inl ⟨t, rfl, allowed⟩⟩
  | reply t ch =>
    cases running : c.running t with
    | none => simp [Config.step, running] at taken
    | some p =>
      cases p with
      | ret a => simp [Config.step, running] at taken
      | raise e => simp [Config.step, running] at taken
      | request q next =>
        obtain ⟨r, w, answered, rfl⟩ : ∃ r w, M.answer t q ch c.world = some (r, w) ∧
            c.put t w (some (next r)) = d := by simpa [Config.step, running] using taken
        obtain ⟨allowed, safe⟩ := h.safe t _ running c.world .refl ch r w answered
        exact ⟨V.put_sound h allowed safe, .inl ⟨t, rfl, allowed⟩⟩
  | finish t =>
    cases running : c.running t with
    | none => simp [Config.step, running] at taken
    | some p =>
      cases p with
      | request q next => simp [Config.step, running] at taken
      | ret a =>
        obtain ⟨w, settled, rfl⟩ : ∃ w, M.settle t (.ok a) c.world = some w ∧
            c.put t w none = d := by simpa [Config.step, running] using taken
        obtain ⟨allowed, rest⟩ := V.finish h.inv (h.safe t _ running c.world .refl) settled
        exact ⟨V.put_sound h allowed rest, .inl ⟨t, rfl, allowed⟩⟩
      | raise e =>
        obtain ⟨w, settled, rfl⟩ : ∃ w, M.settle t (.error e) c.world = some w ∧
            c.put t w none = d := by simpa [Config.step, running] using taken
        obtain ⟨allowed, rest⟩ := V.finish h.inv (h.safe t _ running c.world .refl) settled
        exact ⟨V.put_sound h allowed rest, .inl ⟨t, rfl, allowed⟩⟩
  | crash t =>
    cases running : c.running t with
    | none => simp [Config.step, running] at taken
    | some p =>
      obtain ⟨w, crashed, rfl⟩ : ∃ w, M.crash t c.world = some w ∧ c.put t w none = d := by
        simpa [Config.step, running] using taken
      obtain ⟨allowed, rest⟩ := V.crash h.inv crashed
      exact ⟨V.put_sound h allowed rest, .inl ⟨t, rfl, allowed⟩⟩
  | disturb e =>
    obtain ⟨w, disturbed, rfl⟩ : ∃ w, M.disturb e c.world = some w ∧
        { c with world := w } = d := by simpa [Config.step] using taken
    obtain ⟨kept, relied⟩ := V.disturb h.inv permitted disturbed
    refine ⟨⟨kept, fun t none => V.idle_stable t (h.idle t none) (relied t), fun t p some => ?_⟩,
      .inr ⟨e, rfl, disturbed⟩⟩
    exact (h.safe t p some).interfered (.single (relied t))

theorem step_sound (V : Verified M ok rely guarantee inv idle post) {c d : Config M}
    {m : Move M} (h : c.Sound rely guarantee inv idle post) (permitted : ok c.world m)
    (taken : c.step m = some d) :
    d.Sound rely guarantee inv idle post ∧
      ((∃ t, guarantee t c.world d.world) ∨
        ∃ e, m = .disturb e ∧ M.disturb e c.world = some d.world) := by
  obtain ⟨sound, acted⟩ := V.step_acts h permitted taken
  exact ⟨sound, acted.imp_left fun ⟨t, _, allowed⟩ => ⟨t, allowed⟩⟩

/-- Every configuration of a permitted run is sound. -/
theorem sound (V : Verified M ok rely guarantee inv idle post) {w : M.World} {c : Config M}
    (hinv : inv w) (hidle : ∀ t, idle t w) (h : RunWhere ok (Config.idle w) c) :
    c.Sound rely guarantee inv idle post := by
  induction h with
  | refl => exact ⟨hinv, fun t _ => hidle t, fun t p hp => by simp [Config.idle] at hp⟩
  | step _ permitted taken ih => exact (V.step_sound ih permitted taken).1

end Verified

end Interleaving
