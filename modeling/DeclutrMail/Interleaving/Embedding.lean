import DeclutrMail.Interleaving.Triple

/-!
# Programs of a smaller signature

A component's programs run in a system with more requests than its own. An `Embedding` says which
request of the larger signature stands for one of the smaller, and how answers and errors go back
and forth; `Program.embed` translates a program along it. The rules for triples hold of embedded
programs as they do of others.
-/

namespace Interleaving

/-- Requests, answers and errors of `S` as those of `T`. -/
structure Embedding (S T : Signature) where
  request : S.Request → T.Request
  answer : {q : S.Request} → T.Answer (request q) → S.Answer q
  error : S.Error → T.Error
  back : T.Error → S.Error
  back_error (e : S.Error) : back (error e) = e

namespace Embedding

variable {S T : Signature} (ι : Embedding S T)

/-- What a program of `S` is told. -/
def reply {q : S.Request} : Except T.Error (T.Answer (ι.request q)) → Except S.Error (S.Answer q)
  | .ok a => .ok (ι.answer a)
  | .error e => .error (ι.back e)

end Embedding

namespace Program

variable {S T : Signature} {α β : Type}

def embed (ι : Embedding S T) : Program S α → Program T α
  | .ret a => .ret a
  | .raise e => .raise (ι.error e)
  | .request q next => .request (ι.request q) fun r => (next (ι.reply r)).embed ι

variable {ι : Embedding S T}

theorem embed_bind (p : Program S α) (f : α → Program S β) :
    (p >>= f).embed ι = p.embed ι >>= fun a => (f a).embed ι := by
  induction p with
  | ret a => rfl
  | raise e => rfl
  | request q next ih =>
    change Program.request _ _ = Program.request _ _
    congr 1
    funext r
    exact ih (ι.reply r)

theorem embed_tryCatch (p : Program S α) (handler : S.Error → Program S α) :
    (MonadExcept.tryCatch p handler).embed ι =
      MonadExcept.tryCatch (p.embed ι) fun e => (handler (ι.back e)).embed ι := by
  induction p with
  | ret a => rfl
  | raise e =>
    change (handler e).embed ι = (handler (ι.back (ι.error e))).embed ι
    rw [ι.back_error]
  | request q next ih =>
    change Program.request _ _ = Program.request _ _
    congr 1
    funext r
    exact ih (ι.reply r)

end Program

namespace Triple

variable {S T : Signature} {M : System T} {rely guarantee : M.Thread → M.World → M.World → Prop}
  {t : M.Thread} {α β : Type} {ι : Embedding S T} {A : Assertion (rely t)}
  {B : α → Assertion (rely t)} {C : β → Assertion (rely t)} {E : S.Error → Assertion (rely t)}

/-- One request of an embedded program. -/
theorem embed_perform {q : S.Request} {B : S.Answer q → Assertion (rely t)}
    (h : ∀ w, A w → ∀ ch r w', M.answer t (ι.request q) ch w = some (r, w') → guarantee t w w' ∧
      match ι.reply r with
      | .ok a => B a w'
      | .error e => E e w') :
    Triple guarantee A ((Program.perform q).embed ι) B fun e => E (ι.back e) := by
  intro w hw
  refine Safe.request_of_stable A hw A.stable fun v hv ch r w' answered => ?_
  obtain ⟨allowed, owed⟩ := h v hv ch r w' answered
  refine ⟨allowed, ?_⟩
  cases r with
  | ok a => exact Safe.ret_of_stable (B (ι.answer a)) owed (B (ι.answer a)).stable fun _ h => h
  | error e =>
    refine Safe.raise_of_stable (E (ι.back e)) owed (E (ι.back e)).stable fun _ h => ?_
    dsimp only
    rwa [ι.back_error]

theorem embed_bind {p : Program S α} {f : α → Program S β}
    (first : Triple guarantee A (p.embed ι) B fun e => E (ι.back e))
    (rest : ∀ a, Triple guarantee (B a) ((f a).embed ι) C fun e => E (ι.back e)) :
    Triple guarantee A ((p >>= f).embed ι) C fun e => E (ι.back e) := by
  rw [Program.embed_bind]
  exact first.bind rest

theorem embed_tryCatch {F : S.Error → Assertion (rely t)} {p : Program S α}
    {handler : S.Error → Program S α}
    (first : Triple guarantee A (p.embed ι) B fun e => F (ι.back e))
    (rest : ∀ e, Triple guarantee (F e) ((handler e).embed ι) B fun e => E (ι.back e)) :
    Triple guarantee A ((MonadExcept.tryCatch p handler).embed ι) B fun e => E (ι.back e) := by
  rw [Program.embed_tryCatch]
  exact first.tryCatch fun e => rest (ι.back e)

theorem embed_ret {a : α} (le : ∀ w, A w → B a w) :
    Triple guarantee A ((Program.ret a : Program S α).embed ι) B fun e => E (ι.back e) := done le

theorem embed_raise {e : S.Error} (le : ∀ w, A w → E e w) :
    Triple guarantee A ((Program.raise e : Program S α).embed ι) B fun e => E (ι.back e) := by
  refine failed fun w hw => ?_
  rw [ι.back_error]
  exact le w hw

theorem embed_when {c : Bool} {p : Program S Unit} {B : Unit → Assertion (rely t)}
    (yes : c = true → Triple guarantee A (p.embed ι) B fun e => E (ι.back e))
    (no : c = false → ∀ w, A w → B () w) :
    Triple guarantee A ((Program.when c p).embed ι) B fun e => E (ι.back e) := by
  cases c with
  | true => exact yes rfl
  | false => exact done (no rfl)

end Triple

end Interleaving
