import DeclutrMail.Interleaving.System

/-!
# One thread alone

`Ends p w r w'` says that a thread that runs `p` from `w`, while nothing else moves, may end with
the result `r` at `w'`. The rules take such a run apart along the program.
-/

namespace Interleaving

variable {S : Signature} {α β : Type}

inductive Ends (M : System S) (t : M.Thread) :
    Program S α → M.World → Except S.Error α → M.World → Prop where
  | ret (a : α) (w : M.World) : Ends M t (.ret a) w (.ok a) w
  | raise (e : S.Error) (w : M.World) : Ends M t (.raise e) w (.error e) w
  | request {q : S.Request} {next : Except S.Error (S.Answer q) → Program S α} {c : M.Choice}
    {a : Except S.Error (S.Answer q)} {w v w' : M.World} {r : Except S.Error α}
    (answered : M.answer t q c w = some (a, v)) (rest : Ends M t (next a) v r w') :
    Ends M t (.request q next) w r w'

/-- Run a program with the answers that the choices select. -/
def Program.alone (M : System S) (t : M.Thread) :
    Program S α → List M.Choice → M.World → Option (Except S.Error α × M.World)
  | .ret a, [], w => some (.ok a, w)
  | .raise e, [], w => some (.error e, w)
  | .request q next, c :: cs, w => (M.answer t q c w).bind fun r => (next r.1).alone M t cs r.2
  | _, _, _ => none

namespace Ends

variable {M : System S} {t : M.Thread} {w w' : M.World}

theorem ret_iff {a : α} {r : Except S.Error α} :
    Ends M t (.ret a) w r w' ↔ r = .ok a ∧ w' = w := by
  constructor
  · intro h
    cases h
    exact ⟨rfl, rfl⟩
  · rintro ⟨rfl, rfl⟩
    exact .ret a _

theorem raise_iff {e : S.Error} {r : Except S.Error α} :
    Ends M t (.raise e : Program S α) w r w' ↔ r = .error e ∧ w' = w := by
  constructor
  · intro h
    cases h
    exact ⟨rfl, rfl⟩
  · rintro ⟨rfl, rfl⟩
    exact .raise e _

/-- What comes first ends first. -/
theorem of_bind {p : Program S α} {f : α → Program S β} {r : Except S.Error β}
    (h : Ends M t (p >>= f) w r w') :
    (∃ a v, Ends M t p w (.ok a) v ∧ Ends M t (f a) v r w') ∨
      ∃ e, r = .error e ∧ Ends M t p w (.error e) w' := by
  induction p generalizing w with
  | ret a => exact .inl ⟨a, w, .ret a w, h⟩
  | raise e =>
    obtain ⟨rfl, rfl⟩ := raise_iff.mp h
    exact .inr ⟨e, rfl, .raise e _⟩
  | request q next ih =>
    rw [Program.request_bind] at h
    cases h with
    | request answered rest =>
      rcases ih _ rest with ⟨a, v, first, second⟩ | ⟨e, same, failed⟩
      · exact .inl ⟨a, v, .request answered first, second⟩
      · exact .inr ⟨e, same, .request answered failed⟩

theorem of_bind_ok {p : Program S α} {f : α → Program S β} {b : β}
    (h : Ends M t (p >>= f) w (.ok b) w') :
    ∃ a v, Ends M t p w (.ok a) v ∧ Ends M t (f a) v (.ok b) w' := by
  rcases h.of_bind with done | ⟨e, same, -⟩
  · exact done
  · cases same

/-- An error is handled from where it was raised. -/
theorem of_tryCatch {p : Program S α} {handler : S.Error → Program S α} {r : Except S.Error α}
    (h : Ends M t (tryCatch p handler) w r w') :
    (∃ a, r = .ok a ∧ Ends M t p w (.ok a) w') ∨
      ∃ e v, Ends M t p w (.error e) v ∧ Ends M t (handler e) v r w' := by
  induction p generalizing w with
  | ret a =>
    obtain ⟨rfl, rfl⟩ := ret_iff.mp h
    exact .inl ⟨a, rfl, .ret a _⟩
  | raise e => exact .inr ⟨e, w, .raise e w, h⟩
  | request q next ih =>
    cases h with
    | request answered rest =>
      rcases ih _ rest with ⟨a, same, done⟩ | ⟨e, v, failed, handled⟩
      · exact .inl ⟨a, same, .request answered done⟩
      · exact .inr ⟨e, v, .request answered failed, handled⟩

theorem of_perform {q : S.Request} {a : S.Answer q}
    (h : Ends M t (Program.perform q) w (.ok a) w') : ∃ c, M.answer t q c w = some (.ok a, w') := by
  cases h with
  | @request _ _ c a _ _ _ _ answered rest =>
    cases a with
    | ok a =>
      obtain ⟨same, rfl⟩ := ret_iff.mp rest
      obtain rfl := Except.ok.inj same
      exact ⟨c, answered⟩
    | error e =>
      obtain ⟨same, -⟩ := raise_iff.mp rest
      cases same

theorem of_alone {p : Program S α} {cs : List M.Choice} {r : Except S.Error α}
    (h : p.alone M t cs w = some (r, w')) : Ends M t p w r w' := by
  induction p generalizing cs w with
  | ret a =>
    cases cs with
    | nil =>
      obtain ⟨rfl, rfl⟩ := Prod.mk.inj (Option.some.inj h)
      exact .ret a _
    | cons => cases h
  | raise e =>
    cases cs with
    | nil =>
      obtain ⟨rfl, rfl⟩ := Prod.mk.inj (Option.some.inj h)
      exact .raise e _
    | cons => cases h
  | request q next ih =>
    cases cs with
    | nil => cases h
    | cons c cs =>
      obtain ⟨⟨a, v⟩, answered, rest⟩ := Option.bind_eq_some_iff.mp h
      exact .request answered (ih a rest)

end Ends

variable {M : System S} {t : M.Thread} {w w' : M.World}

/-- The moves of a thread that runs alone to its value. -/
theorem Config.run_alone {c : Config M} {p : Program S M.Outcome} {cs : List M.Choice}
    {a : M.Outcome} (h : p.alone M t cs w = some (.ok a, w')) :
    (c.put t w (some p)).run (cs.map (.reply t)) = some (c.put t w' (some (.ret a))) := by
  induction p generalizing cs w with
  | ret b =>
    cases cs with
    | nil =>
      obtain ⟨same, rfl⟩ := Prod.mk.inj (Option.some.inj h)
      obtain rfl := Except.ok.inj same
      rfl
    | cons => cases h
  | raise e =>
    cases cs with
    | nil => cases h
    | cons => cases h
  | request q next ih =>
    cases cs with
    | nil => cases h
    | cons ch cs =>
      obtain ⟨⟨r, v⟩, answered, rest⟩ := Option.bind_eq_some_iff.mp h
      have stepped : (c.put t w (some (.request q next))).step (.reply t ch) =
          some (c.put t v (some (next r))) := by
        simp [step, answered, put]
      rw [List.map_cons, run, stepped]
      exact ih r rest

end Interleaving
