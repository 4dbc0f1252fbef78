import DeclutrMail.Interleaving.Ownership

/-!
# Programs by the requests they issue

`Only φ p` says that every request that `p` may issue satisfies `φ`, whatever the answers.
What each such request keeps, the whole program keeps.
-/

namespace Interleaving

variable {S : Signature} {M : System S} {α β : Type} {φ ψ : S.Request → Prop}

namespace Program

def Only (φ : S.Request → Prop) : Program S α → Prop
  | .ret _ => True
  | .raise _ => True
  | .request q next => φ q ∧ ∀ r, (next r).Only φ

@[simp] theorem only_ret (a : α) : (Program.ret a : Program S α).Only φ := trivial

@[simp] theorem only_raise (e : S.Error) : (Program.raise e : Program S α).Only φ := trivial

@[simp] theorem only_perform {q : S.Request} : (perform q).Only φ ↔ φ q := by
  refine ⟨fun h => h.1, fun h => ⟨h, fun r => ?_⟩⟩
  cases r <;> trivial

theorem Only.mono {p : Program S α} (h : p.Only φ) (le : ∀ q, φ q → ψ q) : p.Only ψ := by
  induction p with
  | ret | raise => trivial
  | request q next ih => exact ⟨le q h.1, fun r => ih r (h.2 r)⟩

theorem Only.bind {p : Program S α} {f : α → Program S β} (h : p.Only φ)
    (rest : ∀ a, (f a).Only φ) : (p >>= f).Only φ := by
  induction p with
  | ret a => exact rest a
  | raise => trivial
  | request q next ih => exact ⟨h.1, fun r => ih r (h.2 r)⟩

theorem Only.tryCatch {p : Program S α} {handler : S.Error → Program S α} (h : p.Only φ)
    (rest : ∀ e, (handler e).Only φ) : Only φ (MonadExcept.tryCatch p handler) := by
  induction p with
  | ret => trivial
  | raise e => exact rest e
  | request q next ih => exact ⟨h.1, fun r => ih r (h.2 r)⟩

theorem Only.when {c : Bool} {p : Program S Unit} (h : p.Only φ) : (when c p).Only φ := by
  cases c
  · trivial
  · exact h

end Program

/-- What every request of a program keeps. -/
theorem Triple.only {rely guarantee : M.Thread → M.World → M.World → Prop} {t : M.Thread}
    {A : Assertion (rely t)} {p : Program S α}
    (one : ∀ q, φ q → Triple guarantee A (Program.perform q) (fun _ => A) fun _ => A)
    (h : p.Only φ) : Triple guarantee A p (fun _ => A) fun _ => A := by
  induction p with
  | ret a => exact Triple.done fun _ h => h
  | raise e => exact Triple.failed fun _ h => h
  | request q next ih =>
    intro w hw
    refine Safe.request_of_stable A hw A.stable fun v hv ch r w' answered => ?_
    obtain ⟨allowed, rest⟩ := one q h.1 v hv v .refl ch r w' answered
    refine ⟨allowed, ih r (h.2 r) w' ?_⟩
    cases r with
    | ok a => exact rest w' .refl
    | error e => exact rest w' .refl

theorem Discipline.Does.only {D : Discipline M} {t : M.Thread} {P : D.Local} {p : Program S α}
    (one : ∀ q, φ q → D.Does t P (Program.perform q) (fun _ => P) fun _ => P) (h : p.Only φ) :
    D.Does t P p (fun _ => P) fun _ => P := Triple.only one h

end Interleaving
