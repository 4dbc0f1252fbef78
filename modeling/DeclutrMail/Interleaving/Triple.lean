import DeclutrMail.Interleaving.RelyGuarantee

/-!
# Triples

`Triple A p B E` says that thread `t` may run `p` from any world that satisfies `A`: it
keeps its guarantee, and ends in `B` with a value or in `E` with an error. The assertions
are stable under the thread's rely by construction, so the rules below have no side
conditions about interference.
-/

namespace Interleaving

/-- A predicate that survives what `R` allows. -/
structure Assertion {W : Type} (R : W → W → Prop) where
  holds : W → Prop
  stable : Stable R holds

namespace Assertion

variable {W : Type} {R : W → W → Prop}

instance : CoeFun (Assertion R) (fun _ => W → Prop) := ⟨holds⟩

/-- A fact that no world can change. -/
def fact (φ : Prop) : Assertion R := ⟨fun _ => φ, fun _ _ h _ => h⟩

def and (A B : Assertion R) : Assertion R := ⟨fun w => A w ∧ B w, A.stable.and B.stable⟩

def or (A B : Assertion R) : Assertion R :=
  ⟨fun w => A w ∨ B w, fun _ _ h r => h.imp (A.stable · r) (B.stable · r)⟩

def ex {ι : Sort*} (A : ι → Assertion R) : Assertion R :=
  ⟨fun w => ∃ i, A i w, fun _ _ ⟨i, h⟩ r => ⟨i, (A i).stable h r⟩⟩

@[simp] theorem fact_holds (φ : Prop) (w : W) : (fact φ : Assertion R) w ↔ φ := Iff.rfl

@[simp] theorem and_holds (A B : Assertion R) (w : W) : A.and B w ↔ A w ∧ B w := Iff.rfl

@[simp] theorem or_holds (A B : Assertion R) (w : W) : A.or B w ↔ A w ∨ B w := Iff.rfl

@[simp] theorem ex_holds {ι : Sort*} (A : ι → Assertion R) (w : W) : ex A w ↔ ∃ i, A i w :=
  Iff.rfl

end Assertion

variable {S : Signature} {M : System S} {rely guarantee : M.Thread → M.World → M.World → Prop}
  {t : M.Thread} {α β : Type}

def Triple (guarantee : M.Thread → M.World → M.World → Prop) (A : Assertion (rely t))
    (p : Program S α) (B : α → Assertion (rely t)) (E : S.Error → Assertion (rely t)) : Prop :=
  ∀ w, A w → Safe M rely guarantee t
    (fun r w => match r with
      | .ok a => B a w
      | .error e => E e w) p w

namespace Triple

variable {A A' : Assertion (rely t)} {B B' : α → Assertion (rely t)}
  {C : β → Assertion (rely t)} {E E' : S.Error → Assertion (rely t)}

theorem ret (a : α) : Triple guarantee (B a) (.ret a) B E :=
  fun _ h => Safe.ret_of_stable (B a) h (B a).stable fun _ h => h

theorem raise (e : S.Error) : Triple guarantee (E e) (.raise e : Program S α) B E :=
  fun _ h => Safe.raise_of_stable (E e) h (E e).stable fun _ h => h

theorem bind {p : Program S α} {f : α → Program S β} (first : Triple guarantee A p B E)
    (rest : ∀ a, Triple guarantee (B a) (f a) C E) : Triple guarantee A (p >>= f) C E := by
  intro w h
  refine Safe.bind ((first w h).mono fun r v hv => ?_)
  cases r with
  | ok a => exact rest a v hv
  | error e => exact hv

theorem tryCatch {F : S.Error → Assertion (rely t)} {p : Program S α}
    {handler : S.Error → Program S α} (first : Triple guarantee A p B F)
    (rest : ∀ e, Triple guarantee (F e) (handler e) B E) :
    Triple guarantee A (tryCatch p handler) B E := by
  intro w h
  refine Safe.tryCatch ((first w h).mono fun r v hv => ?_)
  cases r with
  | ok a => exact hv
  | error e => exact rest e v hv

/-- The answer decides which of the two postconditions is owed. -/
theorem perform {q : S.Request} {B : S.Answer q → Assertion (rely t)}
    (h : ∀ w, A w → ∀ ch r w', M.answer t q ch w = some (r, w') → guarantee t w w' ∧
      match r with
      | .ok a => B a w'
      | .error e => E e w') :
    Triple guarantee A (Program.perform q) B E := by
  intro w hw
  refine Safe.perform A hw A.stable fun v hv ch r w' answered => ?_
  obtain ⟨allowed, owed⟩ := h v hv ch r w' answered
  refine ⟨allowed, fun w'' interfered => ?_⟩
  cases r with
  | ok a => exact (B a).stable.star owed interfered
  | error e => exact (E e).stable.star owed interfered

theorem consequence {p : Program S α} (h : Triple guarantee A' p B' E')
    (pre : ∀ w, A w → A' w) (post : ∀ a w, B' a w → B a w) (fails : ∀ e w, E' e w → E e w) :
    Triple guarantee A p B E := by
  intro w hw
  refine (h w (pre w hw)).mono fun r v hv => ?_
  cases r with
  | ok a => exact post a v hv
  | error e => exact fails e v hv

theorem pre {p : Program S α} (h : Triple guarantee A' p B E) (le : ∀ w, A w → A' w) :
    Triple guarantee A p B E := fun w hw => h w (le w hw)

theorem weaken {guarantee' : M.Thread → M.World → M.World → Prop} {p : Program S α}
    (le : ∀ {w w'}, guarantee t w w' → guarantee' t w w') (h : Triple guarantee A p B E) :
    Triple guarantee' A p B E := fun w hw => (h w hw).weaken le

theorem frame {p : Program S α} {F : Assertion (rely t)} (h : Triple guarantee A p B E)
    (kept : ∀ {w w'}, guarantee t w w' → F w → F w') :
    Triple guarantee (A.and F) p (fun a => (B a).and F) fun e => (E e).and F := by
  intro w ⟨hw, hF⟩
  refine (Safe.frame F.stable kept (h w hw) hF).mono fun r v hv => ?_
  cases r with
  | ok a => exact hv
  | error e => exact hv

/-- A program that is already at its end. -/
theorem done {a : α} (le : ∀ w, A w → B a w) : Triple guarantee A (.ret a) B E :=
  (ret a).pre le

theorem failed {e : S.Error} (le : ∀ w, A w → E e w) :
    Triple guarantee A (.raise e : Program S α) B E := (raise e).pre le

theorem when {c : Bool} {p : Program S Unit} {B : Unit → Assertion (rely t)}
    (yes : c = true → Triple guarantee A p B E) (no : c = false → ∀ w, A w → B () w) :
    Triple guarantee A (.when c p) B E := by
  cases c with
  | true => exact yes rfl
  | false => exact done (no rfl)

theorem of_ex {ι : Sort*} {p : Program S α} {A : ι → Assertion (rely t)}
    (h : ∀ i, Triple guarantee (A i) p B E) : Triple guarantee (.ex A) p B E :=
  fun w ⟨i, hw⟩ => h i w hw

end Triple

/-- Run `cleanup` after `p`, whether `p` returns or raises. -/
def Program.ensure (p : Program S α) (cleanup : Program S Unit) : Program S α := do
  let a ← tryCatch p fun e => do
    cleanup
    throw e
  cleanup
  return a

theorem Triple.ensure {A : Assertion (rely t)} {B C : α → Assertion (rely t)}
    {E E' : S.Error → Assertion (rely t)} {p : Program S α} {cleanup : Program S Unit}
    (body : Triple guarantee A p B E')
    (ok : ∀ a, Triple guarantee (B a) cleanup (fun _ => C a) E)
    (err : ∀ e, Triple guarantee (E' e) cleanup (fun _ => E e) E) :
    Triple guarantee A (p.ensure cleanup) C E :=
  (body.tryCatch fun e => (err e).bind fun _ => .raise e).bind
    fun a => (ok a).bind fun _ => .ret a

end Interleaving
