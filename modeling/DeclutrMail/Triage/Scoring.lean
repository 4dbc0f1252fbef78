import Mathlib.Data.Int.Notation
import Mathlib.Data.Nat.Notation
import DeclutrMail.Interleaving.Triple

/-!
# Verdicts and the Screener

A score job writes the verdict of a sender, and then routes the sender to the Screener or lets it
graduate. The first write is monotone in `produced_at`, the second has no guard: it is the newest
verdict's in the runs in which no stale branch is taken (`Fresh`).

The rows are those of one sender in one mailbox.
-/

namespace DeclutrMail.Triage

open Interleaving

inductive TriageVerdict where
  | keep
  | archive
  | unsubscribe
  | later
  deriving DecidableEq

inductive CascadeRuleId where
  | protectUserDefined
  | protectReplied
  | protectStarred
  | protectGmailImportant
  | wroteToAtLeastOnce
  | gmailPrimary
  | starredRecently
  | highReadRate
  | longRelationshipEngaged
  | insufficientSignal
  | scoreArchive
  | scoreUnsubscribe
  | scoreInconclusive
  | scoreNoUnsubChannel
  | scoreQuietStream
  deriving DecidableEq

/-- The confidence is in hundredths, as `toFixed(2)` leaves it. -/
structure CascadeResult where
  verdict : TriageVerdict
  confidence : ℕ
  ruleId : CascadeRuleId
  deriving DecidableEq

/-- The signals of a sender, with the cascade's result on them and the template's sentence. -/
structure SenderSignals where
  totalMessages : ℕ
  result : CascadeResult
  template : String
  deriving DecidableEq

def SenderSignals.isWorthScreening (s : SenderSignals) : Bool := decide (2 ≤ s.totalMessages)

/-- The sender goes to the Screener; otherwise it graduates. -/
def SenderSignals.screens (s : SenderSignals) : Bool :=
  decide (s.result.ruleId = .insufficientSignal) && s.isWorthScreening

inductive TriageReasoningSource where
  | llmHaiku
  | template
  deriving DecidableEq

/-- A row of `triage_decisions`. `screens` is not a column: it remembers which branch the signals
of the row take. -/
structure Decision where
  result : CascadeResult
  reasoning : String
  generatedBy : TriageReasoningSource
  producedAt : ℤ
  expiresAt : ℤ
  screens : Bool
  deriving DecidableEq

/-- A row of `screener_quarantine`. -/
structure Quarantine where
  decidedAt : Option ℤ
  deriving DecidableEq

/-- `attempt` is the branch that a thread is about to take for its job, `scored` the rows that the
jobs have brought, `routed` whether the sender was pending after a job's last Screener write. -/
structure World where
  now : ℤ
  decision : Option Decision
  quarantine : Option Quarantine
  attempt : ℕ → Option (ℤ × Bool)
  scored : List Decision
  routed : ℤ → Option Bool

inductive Request where
  | loadSignals
  | explain (mayExplain : Bool)
  | upsertDecision (d : Decision)
  | insertQuarantine (producedAt : ℤ)
  | resolveQuarantine (producedAt : ℤ)
  deriving DecidableEq

abbrev Request.Answer : Request → Type
  | .loadSignals => Option SenderSignals
  | .explain _ => Option String
  | .insertQuarantine _ => Bool
  | _ => Unit

inductive ScoreError where
  | database
  deriving DecidableEq

abbrev ScoreSignature : Signature := ⟨Request, Request.Answer, ScoreError⟩

abbrev ScoreProgram (α : Type) := Program ScoreSignature α

def ask (q : Request) : ScoreProgram q.Answer := Program.perform (S := ScoreSignature) q

/-! ## The job -/

structure ScoreJob where
  producedAt : ℤ
  mayExplain : Bool

/-- In milliseconds. -/
def rescoreTtl : ℤ := 7 * 24 * 60 * 60 * 1000

def ScoreJob.decision (job : ScoreJob) (s : SenderSignals) (prose : Option String) : Decision where
  result := s.result
  reasoning := prose.getD s.template
  generatedBy := if prose.isSome then .llmHaiku else .template
  producedAt := job.producedAt
  expiresAt := job.producedAt + rescoreTtl
  screens := s.screens

structure Written where
  verdict : TriageVerdict
  generatedBy : TriageReasoningSource
  screenerFlagged : Bool
  deriving DecidableEq

/-- The Screener step: a soft quarantine, or the graduation of a pending row. -/
def routeSender (job : ScoreJob) (s : SenderSignals) : ScoreProgram Bool :=
  if s.screens then ask (.insertQuarantine job.producedAt)
  else do
    ask (.resolveQuarantine job.producedAt)
    return false

def scoreOne (job : ScoreJob) : ScoreProgram (Option Written) := do
  match ← ask .loadSignals with
  | none => return none
  | some s =>
    let prose ← ask (.explain job.mayExplain)
    let d := job.decision s prose
    ask (.upsertDecision d)
    let screenerFlagged ← routeSender job s
    return some ⟨s.result.verdict, d.generatedBy, screenerFlagged⟩

/-! ## The system -/

namespace World

variable (w : World)

/-- The sender waits in the Screener. -/
def pending : Bool := w.quarantine.any (·.decidedAt = none)

/-- `INSERT … ON CONFLICT DO UPDATE … WHERE produced_at < excluded.produced_at`. -/
def newer (d : Decision) : Decision :=
  match w.decision with
  | none => d
  | some old => if old.producedAt < d.producedAt then d else old

def upsertDecision (t : ℕ) (d : Decision) : World :=
  { w with
    decision := some (w.newer d)
    attempt := Function.update w.attempt t (some (d.producedAt, d.screens))
    scored := w.scored ++ [d] }

/-- `ON CONFLICT DO NOTHING`: a decided row stays decided. -/
def quarantined : Option Quarantine := w.quarantine.or (some ⟨none⟩)

/-- Only a pending row is resolved. -/
def resolved : Option Quarantine :=
  w.quarantine.map fun q => if q.decidedAt = none then ⟨some w.now⟩ else q

/-- The row after the write of either branch. -/
def branch : Bool → Option Quarantine
  | true => w.quarantined
  | false => w.resolved

def route (t : ℕ) (producedAt : ℤ) (screens : Bool) : World :=
  { w with
    quarantine := w.branch screens
    attempt := Function.update w.attempt t none
    routed := Function.update w.routed producedAt
      (some ((w.branch screens).any (·.decidedAt = none))) }

/-- The attempt of the thread is over. -/
def rest (t : ℕ) : World := { w with attempt := Function.update w.attempt t none }

end World

/-- What the job finds out besides. -/
structure Found where
  signals : Option SenderSignals
  prose : Option String

/-- A statement of thread `t`, as it takes effect. -/
def effect (t : ℕ) (f : Found) (w : World) : (q : Request) → q.Answer × World
  | .loadSignals => (f.signals, w)
  | .explain _ => (f.prose, w)
  | .upsertDecision d => ((), w.upsertDecision t d)
  | .insertQuarantine producedAt => (w.quarantine.isNone, w.route t producedAt true)
  | .resolveQuarantine producedAt => ((), w.route t producedAt false)

/-- A statement goes through, is lost on its way back, or fails. -/
inductive Choice where
  | go (f : Found)
  | lost (f : Found)
  | fail

def answer (t : ℕ) (q : Request) (c : Choice) (w : World) :
    Option (Except ScoreError q.Answer × World) :=
  some <| match c with
  | .go f => (.ok (effect t f w q).1, (effect t f w q).2)
  | .lost f => (.error .database, (effect t f w q).2)
  | .fail => (.error .database, w)

/-- Every attempt of a job is a start of its own, so retries and duplicates are among the runs. -/
def scoring : System ScoreSignature where
  World := World
  Thread := ℕ
  Task := ScoreJob
  Outcome := Option Written
  Choice := Choice
  Event := ℕ
  code := scoreOne
  accept t _ w := some (w.rest t)
  answer := answer
  settle t _ w := some (w.rest t)
  crash t w := some (w.rest t)
  disturb ms w := some { w with now := w.now + ms }

/-- The branch is not stale: as long as the Screener's row is undecided, neither the job of the
stored decision nor, after that job has routed the sender, any other job takes the other branch. -/
def World.Accords (w : World) (producedAt : ℤ) (screens : Bool) : Prop :=
  ∀ d ∈ w.decision, d.screens ≠ screens → w.quarantine.all (·.decidedAt = none) = true →
    producedAt ≠ d.producedAt ∧ w.routed d.producedAt = none

instance (w : World) (producedAt : ℤ) (screens : Bool) : Decidable (w.Accords producedAt screens) :=
  inferInstanceAs (Decidable (∀ d ∈ w.decision, _))

def World.Fresh (w : World) (t : ℕ) : Prop := ∀ a ∈ w.attempt t, w.Accords a.1 a.2

instance World.decidableFresh (w : World) (t : ℕ) : Decidable (w.Fresh t) :=
  inferInstanceAs (Decidable (∀ a ∈ w.attempt t, w.Accords a.1 a.2))

def Fresh (w : scoring.World) : Move scoring → Prop
  | .reply t _ => World.Fresh w t
  | _ => True

instance (w : scoring.World) (m : Move scoring) : Decidable (Fresh w m) :=
  match m with
  | .reply t _ => World.decidableFresh w t
  | .start .. | .finish _ | .crash _ | .disturb _ => inferInstanceAs (Decidable True)

/-! ## What an attempt may do -/

/-- What the rows know of the jobs: `start` is the row that was there before them. -/
structure World.Inv (start : Option Decision) (w : World) : Prop where
  origin : ∀ d, w.decision = some d → d ∈ w.scored ∨ start = some d
  newest : ∀ x ∈ w.scored, ∃ d, w.decision = some d ∧ x.producedAt ≤ d.producedAt
  routed : ∀ p, w.routed p ≠ none → ∃ x ∈ w.scored, x.producedAt = p
  attempted : ∀ t p b, w.attempt t = some (p, b) → ∃ x ∈ w.scored, x.producedAt = p

/-- Once the job of the stored decision has routed the sender, the Screener is at its word. -/
structure World.Agrees (w : World) : Prop where
  routed : ∀ d q, w.decision = some d → w.routed d.producedAt = some q → w.pending = q
  screened : ∀ d, w.decision = some d → w.routed d.producedAt ≠ none → d.screens = true →
    w.quarantine ≠ none
  graduated : ∀ d, w.decision = some d → w.routed d.producedAt ≠ none → d.screens = false →
    w.pending = false

inductive Moves (t : ℕ) (w : World) : World → Prop where
  | same : Moves t w w
  | rest : Moves t w (w.rest t)
  | upsert (d : Decision) : Moves t w (w.upsertDecision t d)
  | route {p : ℤ} {b : Bool} (faced : w.attempt t = some (p, b)) : Moves t w (w.route t p b)

section Moves

variable {t x : ℕ} {w w' : World} {start : Option Decision}

theorem Moves.attempt (h : Moves t w w') (other : x ≠ t) : w'.attempt x = w.attempt x := by
  cases h with
  | same => rfl
  | rest | upsert | route => exact Function.update_of_ne other _ _

/-- The upsert keeps the newer row. -/
theorem newer_spec (w : World) (d : Decision) : d.producedAt ≤ (w.newer d).producedAt ∧
    (∀ old, w.decision = some old → old.producedAt ≤ (w.newer d).producedAt) ∧
    (w.newer d = d ∨ w.decision = some (w.newer d)) := by
  unfold World.newer
  split <;> grind

theorem World.Inv.rest (inv : w.Inv start) : (w.rest t).Inv start where
  origin := inv.origin
  newest := inv.newest
  routed := inv.routed
  attempted x p b faced := by
    by_cases same : x = t
    · subst same
      simp [World.rest] at faced
    · exact inv.attempted x p b (by simpa [World.rest, same] using faced)

theorem World.Inv.upsertDecision (inv : w.Inv start) (d : Decision) :
    (w.upsertDecision t d).Inv start := by
  obtain ⟨above, past, from_⟩ := newer_spec w d
  have last : d ∈ w.scored ++ [d] := by simp
  refine ⟨fun e stored => ?_, fun y mem => ⟨w.newer d, rfl, ?_⟩, fun p seen => ?_, ?_⟩
  · obtain rfl : w.newer d = e := Option.some.inj stored
    rcases from_ with new | old
    · rw [new]
      exact .inl last
    · exact (inv.origin _ old).imp_left (List.mem_append_left _)
  · rcases List.mem_append.mp mem with earlier | now
    · obtain ⟨old, stored, le⟩ := inv.newest y earlier
      exact Int.le_trans le (past old stored)
    · obtain rfl := List.mem_singleton.mp now
      exact above
  · obtain ⟨y, mem, same⟩ := inv.routed p seen
    exact ⟨y, List.mem_append_left _ mem, same⟩
  · intro x p b faced
    by_cases same : x = t
    · subst same
      obtain ⟨rfl, -⟩ : d.producedAt = p ∧ d.screens = b := by
        simpa [World.upsertDecision] using faced
      exact ⟨d, last, rfl⟩
    · obtain ⟨y, mem, same⟩ := inv.attempted x p b (by
        simpa [World.upsertDecision, same] using faced)
      exact ⟨y, List.mem_append_left _ mem, same⟩

theorem World.Inv.route (inv : w.Inv start) {p : ℤ} {b : Bool}
    (faced : w.attempt t = some (p, b)) : (w.route t p b).Inv start where
  origin := inv.origin
  newest := inv.newest
  routed p' seen := by
    by_cases same : p' = p
    · subst same
      exact inv.attempted t p' b faced
    · exact inv.routed p' (by simpa [World.route, same] using seen)
  attempted x p' b' faced' := by
    by_cases same : x = t
    · subst same
      simp [World.route] at faced'
    · exact inv.attempted x p' b' (by simpa [World.route, same] using faced')

theorem Moves.inv (h : Moves t w w') (inv : w.Inv start) : w'.Inv start := by
  cases h with
  | same => exact inv
  | rest => exact inv.rest
  | upsert d => exact inv.upsertDecision d
  | route faced => exact inv.route faced

/-- A job that has routed the sender has brought its row before. -/
theorem World.Inv.stored (inv : w.Inv start) {d : Decision}
    (seen : w.routed (w.newer d).producedAt ≠ none) : w.decision = some (w.newer d) := by
  obtain ⟨-, -, new | old⟩ := newer_spec w d
  · rw [new] at seen
    obtain ⟨y, mem, same⟩ := inv.routed _ seen
    obtain ⟨old, stored, le⟩ := inv.newest y mem
    have kept : w.newer d = old := by
      unfold World.newer
      rw [stored]
      exact if_neg (by omega)
    rw [kept, stored]
  · exact old

theorem branch_true (w : World) : w.branch true ≠ none := by
  unfold World.branch World.quarantined
  cases w.quarantine <;> simp

theorem branch_false (w : World) : (w.branch false).any (·.decidedAt = none) = false := by
  unfold World.branch World.resolved
  cases w.quarantine with
  | none => rfl
  | some q => grind

/-- A decided row is left alone. -/
theorem branch_of_decided {b : Bool} (decided : ¬ w.quarantine.all (·.decidedAt = none) = true) :
    w.branch b = w.quarantine := by
  unfold World.branch World.quarantined World.resolved
  cases found : w.quarantine with
  | none => simp [found] at decided
  | some q => cases b <;> grind

theorem branch_of_screened (there : w.quarantine ≠ none) : w.branch true = w.quarantine := by
  unfold World.branch World.quarantined
  cases found : w.quarantine with
  | none => exact absurd found there
  | some q => rfl

theorem branch_of_graduated (settled : w.pending = false) : w.branch false = w.quarantine := by
  unfold World.branch World.resolved
  unfold World.pending at settled
  cases found : w.quarantine with
  | none => rfl
  | some q => grind

theorem pending_of_decided (decided : ¬ w.quarantine.all (·.decidedAt = none) = true) :
    w.quarantine ≠ none ∧ w.pending = false := by
  unfold World.pending
  cases found : w.quarantine with
  | none => simp [found] at decided
  | some q => simp_all

theorem World.Agrees.upsertDecision (agrees : w.Agrees) (inv : w.Inv start) (d : Decision) :
    (w.upsertDecision t d).Agrees := by
  have stored : ∀ e, (w.upsertDecision t d).decision = some e → w.routed e.producedAt ≠ none →
      w.decision = some e := by
    intro e found seen
    obtain rfl : w.newer d = e := Option.some.inj found
    exact inv.stored seen
  refine ⟨fun e q found seen => ?_, fun e found seen => ?_, fun e found seen => ?_⟩
  · refine agrees.routed e q (stored e found ?_) seen
    exact (Option.ne_none_iff_exists'.mpr ⟨q, seen⟩)
  · exact agrees.screened e (stored e found seen) seen
  · exact agrees.graduated e (stored e found seen) seen

/-- A write of the stored decision's own job. -/
theorem World.Agrees.route_own {d : Decision} {b : Bool} (found : w.decision = some d)
    (accords : w.Accords d.producedAt b) : (w.route t d.producedAt b).Agrees := by
  have other : d.screens ≠ b → ¬ w.quarantine.all (·.decidedAt = none) = true :=
    fun differs undecided => (accords d found differs undecided).1 rfl
  have only : ∀ e, (w.route t d.producedAt b).decision = some e → e = d := fun e is =>
    Option.some.inj (is.symm.trans found)
  refine ⟨fun e q is seen => ?_, fun e is _ screens => ?_, fun e is _ graduates => ?_⟩ <;>
    obtain rfl := only e is
  · simpa [World.route, World.pending] using seen
  · change w.branch b ≠ none
    by_cases same : e.screens = b
    · obtain rfl : b = true := same.symm.trans screens
      exact branch_true w
    · rw [branch_of_decided (other same)]
      exact (pending_of_decided (other same)).1
  · change (w.branch b).any _ = false
    by_cases same : e.screens = b
    · obtain rfl : b = false := same.symm.trans graduates
      exact branch_false w
    · rw [branch_of_decided (other same)]
      exact (pending_of_decided (other same)).2

/-- A write of another job. -/
theorem World.Agrees.route_other (agrees : w.Agrees) {d : Decision} {p : ℤ} {b : Bool}
    (found : w.decision = some d) (accords : w.Accords p b) (apart : d.producedAt ≠ p) :
    (w.route t p b).Agrees := by
  have only : ∀ e, (w.route t p b).decision = some e → e = d := fun e is =>
    Option.some.inj (is.symm.trans found)
  have routed : (w.route t p b).routed d.producedAt = w.routed d.producedAt :=
    Function.update_of_ne apart _ _
  have kept : w.routed d.producedAt ≠ none → w.branch b = w.quarantine := by
    intro seen
    by_cases same : d.screens = b
    · subst same
      cases screens : d.screens with
      | true => exact branch_of_screened (agrees.screened d found seen screens)
      | false => exact branch_of_graduated (agrees.graduated d found seen screens)
    · exact branch_of_decided fun undecided => seen (accords d found same undecided).2
  refine ⟨fun e q is seen => ?_, fun e is seen screens => ?_, fun e is seen graduates => ?_⟩ <;>
    obtain rfl := only e is <;> rw [routed] at seen
  · have there : w.routed e.producedAt ≠ none := Option.ne_none_iff_exists'.mpr ⟨q, seen⟩
    change (w.branch b).any _ = q
    rw [kept there]
    exact agrees.routed e q found seen
  · change w.branch b ≠ none
    rw [kept seen]
    exact agrees.screened e found seen screens
  · change (w.branch b).any _ = false
    rw [kept seen]
    exact agrees.graduated e found seen graduates

theorem Moves.agrees (h : Moves t w w') (inv : w.Inv start) (agrees : w.Agrees)
    (fresh : w.Fresh t) : w'.Agrees := by
  cases h with
  | same => exact agrees
  | rest => exact ⟨agrees.routed, agrees.screened, agrees.graduated⟩
  | upsert d => exact agrees.upsertDecision inv d
  | @route p b faced =>
    obtain ⟨y, mem, rfl⟩ := inv.attempted t p b faced
    obtain ⟨d, found, -⟩ := inv.newest y mem
    have accords : w.Accords y.producedAt b := fresh _ faced
    by_cases same : d.producedAt = y.producedAt
    · rw [← same] at accords ⊢
      exact .route_own found accords
    · exact agrees.route_other found accords same

end Moves

/-! ## The job keeps to it -/

section Code

variable {t : ℕ}

/-- The others leave a thread's branch to it. -/
def Rely (t : ℕ) (w w' : World) : Prop := w'.attempt t = w.attempt t

/-- The branch that the thread is about to take. -/
def facing (t : ℕ) (o : Option (ℤ × Bool)) : Assertion (Rely t) where
  holds w := w.attempt t = o
  stable := fun _ _ mine rely => rely.trans mine

def Acts {α : Type} (A : Assertion (Rely t)) (p : ScoreProgram α) (B : α → Assertion (Rely t)) :
    Prop :=
  @Triple ScoreSignature scoring Rely t α Moves A p B fun _ => .fact True

/-- One statement. -/
theorem Acts.ask {A : Assertion (Rely t)} {q : Request} {B : q.Answer → Assertion (Rely t)}
    (h : ∀ w, A w → ∀ f, Moves t w (effect t f w q).2 ∧ B (effect t f w q).1 (effect t f w q).2) :
    Acts A (Triage.ask q) B := by
  refine Triple.perform fun w hw c r w' answered => ?_
  have answered : answer t q c w = some (r, w') := answered
  cases c with
  | go f =>
    obtain ⟨rfl, rfl⟩ := Prod.mk.inj (Option.some.inj answered)
    exact h w hw f
  | lost f =>
    obtain ⟨rfl, rfl⟩ := Prod.mk.inj (Option.some.inj answered)
    exact ⟨(h w hw f).1, trivial⟩
  | fail =>
    obtain ⟨rfl, rfl⟩ := Prod.mk.inj (Option.some.inj answered)
    exact ⟨.same, trivial⟩

theorem acts_routeSender (job : ScoreJob) (s : SenderSignals) :
    Acts (facing t (some (job.producedAt, s.screens))) (routeSender job s)
      fun _ => facing t none := by
  unfold routeSender
  split
  next screens =>
    refine Acts.ask fun w faced f => ⟨.route (b := true) ?_, Function.update_self ..⟩
    exact screens ▸ faced
  next graduates =>
    refine Triple.bind (Acts.ask (B := fun _ => facing t none) fun w faced f =>
      ⟨.route (b := false) ?_, Function.update_self ..⟩) fun _ => Triple.done fun _ h => h
    exact Bool.eq_false_iff.mpr graduates ▸ faced

theorem acts_scoreOne (job : ScoreJob) :
    Acts (facing t none) (scoreOne job) fun _ => facing t none := by
  have reads : ∀ {q : Request}, (∀ f w, (effect t f w q).2 = w) →
      Acts (facing t none) (ask q) fun _ => facing t none := fun same =>
    Acts.ask fun w idle f => by
      rw [same f w]
      exact ⟨.same, idle⟩
  refine Triple.bind (reads fun _ _ => rfl) fun found => ?_
  cases found with
  | none => exact Triple.done fun _ h => h
  | some s =>
    refine Triple.bind (reads fun _ _ => rfl) fun prose => ?_
    refine Triple.bind (Acts.ask (B := fun _ => facing t (some (job.producedAt, s.screens)))
      fun w _ f => ⟨.upsert _, Function.update_self ..⟩) fun _ => ?_
    exact Triple.bind (acts_routeSender job s) fun _ => Triple.done fun _ h => h

end Code

/-! ## Every run -/

theorem verified (ok : World → Move scoring → Prop) (start : Option Decision) :
    Verified scoring ok Rely Moves (World.Inv start) (fun t w => w.attempt t = none)
      fun _ _ _ => True where
  guarantee_rely ne _ moves := moves.attempt ne.symm
  guarantee_inv inv moves := moves.inv inv
  idle_stable _ _ _ idle := fun rely => rely.trans idle
  start := by
    intro t job w w' inv idle accepted
    obtain rfl := Option.some.inj accepted
    have idle' : facing t none (w.rest t) := Function.update_self ..
    exact ⟨.rest, (acts_scoreOne job _ idle').mono fun _ _ _ => trivial⟩
  finish := by
    intro t r w w' _ _ settled
    obtain rfl := Option.some.inj settled
    exact ⟨.rest, Function.update_self ..⟩
  crash := by
    intro t w w' _ crashed
    obtain rfl := Option.some.inj crashed
    exact ⟨.rest, Function.update_self ..⟩
  disturb := by
    intro ms w w' inv _ waited
    obtain rfl := Option.some.inj waited
    exact ⟨⟨inv.origin, inv.newest, inv.routed, inv.attempted⟩, fun _ => rfl⟩

/-- Before any job. -/
structure World.Initial (w : World) : Prop where
  attempt : ∀ t, w.attempt t = none
  scored : w.scored = []
  routed : ∀ p, w.routed p = none

theorem World.Initial.inv {w : World} (h : w.Initial) : w.Inv w.decision where
  origin _ found := .inr found
  newest := by simp [h.scored]
  routed := by simp [h.routed]
  attempted := by simp [h.attempt]

/-- A step that is no statement writes nothing. -/
theorem step_rests {c d : Config scoring} {m : Move scoring} (taken : c.step m = some d)
    (statement : ∀ t ch, m ≠ .reply t ch) (agrees : c.world.Agrees) : d.world.Agrees := by
  have rest : ∀ t, (c.world.rest t).Agrees := fun t =>
    ⟨agrees.routed, agrees.screened, agrees.graduated⟩
  have world := Config.step_world taken
  cases m with
  | start t job => exact Option.some.inj world ▸ rest t
  | reply t ch => exact absurd rfl (statement t ch)
  | finish t => exact Option.some.inj world.choose_spec ▸ rest t
  | crash t => exact Option.some.inj world ▸ rest t
  | disturb ms =>
    obtain same := Option.some.inj world
    rw [← same]
    exact ⟨agrees.routed, agrees.screened, agrees.graduated⟩

theorem run_agrees {w : World} {c : Config scoring} (initial : w.Initial)
    (run : RunWhere Fresh (Config.idle w) c) : c.world.Inv w.decision ∧ c.world.Agrees := by
  induction run with
  | refl => exact ⟨initial.inv, by simp [Config.idle, initial.routed], by
      simp [Config.idle, initial.routed], by simp [Config.idle, initial.routed]⟩
  | @step c d m run permitted taken ih =>
    have V := verified Fresh w.decision
    have sound := V.sound initial.inv initial.attempt run
    obtain ⟨sound', acted⟩ := V.step_acts sound permitted taken
    refine ⟨sound'.inv, ?_⟩
    cases m with
    | reply t ch =>
      rcases acted with ⟨x, same, moves⟩ | ⟨e, same, -⟩
      · obtain rfl : t = x := Option.some.inj same
        exact moves.agrees ih.1 ih.2 permitted
      · cases same
    | _ => exact step_rests taken (by simp) ih.2

/-- Once every job that has brought a row has routed the sender, the row is the newest one's and
the Screener is as that job has left it. -/
theorem newest_verdict_routes {w : World} {c : Config scoring} (initial : w.Initial)
    (run : RunWhere Fresh (Config.idle w) c) (brought : c.world.scored ≠ [])
    (finished : ∀ x ∈ c.world.scored, c.world.routed x.producedAt ≠ none) :
    ∃ d, c.world.decision = some d ∧ (∀ x ∈ c.world.scored, x.producedAt ≤ d.producedAt) ∧
      (d ∈ c.world.scored ∨ w.decision = some d) ∧
      (d ∈ c.world.scored → c.world.routed d.producedAt = some c.world.pending ∧
        (d.screens = true → c.world.quarantine ≠ none) ∧
        (d.screens = false → c.world.pending = false)) := by
  obtain ⟨inv, agrees⟩ := run_agrees initial run
  obtain ⟨y, mem⟩ := List.exists_mem_of_ne_nil _ brought
  obtain ⟨d, found, -⟩ := inv.newest y mem
  refine ⟨d, found, fun x mem => ?_, inv.origin d found, fun mine => ?_⟩
  · obtain ⟨e, same, le⟩ := inv.newest x mem
    obtain rfl := Option.some.inj (found.symm.trans same)
    exact le
  · have seen := finished d mine
    obtain ⟨q, routed⟩ := Option.ne_none_iff_exists'.mp seen
    exact ⟨agrees.routed d q found routed ▸ routed, agrees.screened d found seen,
      agrees.graduated d found seen⟩

def emptyWorld : World where
  now := 0
  decision := none
  quarantine := none
  attempt _ := none
  scored := []
  routed _ := none

/-- A statement that goes through; the signals are read where they are asked for. -/
def goes (t : ℕ) (s : Option SenderSignals) : Move scoring := .reply t (.go ⟨s, none⟩)

def tooNew : SenderSignals := ⟨2, ⟨.later, 60, .insufficientSignal⟩, "too new"⟩

def judged : SenderSignals := ⟨3, ⟨.archive, 80, .scoreArchive⟩, "mostly unread"⟩

/-- The jobs run one after the other. -/
def inOrder : List (Move scoring) :=
  .start (0 : ℕ) ⟨1, false⟩ :: .replicate 4 (goes 0 (some tooNew)) ++ .finish (0 : ℕ) ::
    .start (0 : ℕ) ⟨2, false⟩ :: .replicate 4 (goes 0 (some judged)) ++ [.finish (0 : ℕ)]

/-- The older job is overtaken between its signals and its writes. -/
def overtaken : List (Move scoring) :=
  .start (0 : ℕ) ⟨1, false⟩ :: goes 0 (some tooNew) :: .start (1 : ℕ) ⟨2, false⟩ ::
    .replicate 4 (goes 1 (some judged)) ++ .finish (1 : ℕ) ::
    .replicate 3 (goes 0 none) ++ [.finish (0 : ℕ)]

/-- The sender graduates. -/
theorem newest_verdict_routes_in_order : ∃ c : Config scoring,
    (Config.idle (M := scoring) emptyWorld).runIf Fresh inOrder = some c ∧
    ∃ d, c.world.decision = some d ∧ d.producedAt = 2 ∧ c.world.pending = false := by
  let start : Config scoring := .idle emptyWorld
  have run : (start.runIf Fresh inOrder).any (fun c => decide (
      c.world.scored = [⟨tooNew.result, "too new", .template, 1, 604800001, true⟩,
        ⟨judged.result, "mostly unread", .template, 2, 604800002, false⟩] ∧
      c.world.routed 1 = some true ∧ c.world.routed 2 = some false)) = true := by decide
  obtain ⟨c, ran, seen⟩ := (Option.any_eq_true _ _).mp run
  obtain ⟨scored, first, second⟩ := of_decide_eq_true seen
  obtain ⟨d, found, newest, own, routes⟩ := newest_verdict_routes ⟨fun _ => rfl, rfl, fun _ => rfl⟩
    (runWhere_of_runIf ran) (by simp [scored]) (by simp [scored, first, second])
  have own : d ∈ c.world.scored := own.resolve_right (by simp [emptyWorld])
  have newest : ∀ x ∈ c.world.scored, x.producedAt ≤ d.producedAt := newest
  obtain ⟨-, -, graduates⟩ := routes own
  rw [scored] at own newest
  have late := newest _ (List.mem_cons_of_mem _ (List.mem_cons_self ..))
  simp only [List.mem_cons, List.not_mem_nil, or_false] at own
  rcases own with rfl | rfl
  · exact absurd late (by decide)
  · exact ⟨c, ran, _, found, rfl, graduates rfl⟩

/-- Its verdict is refused, and the sender is left in the Screener. -/
theorem stale_job_quarantines : ∃ c : Config scoring,
    (Config.idle (M := scoring) emptyWorld).run overtaken = some c ∧
    c.running (0 : ℕ) = none ∧ c.running (1 : ℕ) = none ∧
    (∀ x ∈ c.world.scored, c.world.routed x.producedAt ≠ none) ∧
    ∃ d, c.world.decision = some d ∧ d ∈ c.world.scored ∧
      (∀ x ∈ c.world.scored, x.producedAt ≤ d.producedAt) ∧ d.screens = false ∧
      c.world.routed d.producedAt = some false ∧ c.world.pending = true := by
  let start : Config scoring := .idle emptyWorld
  have run : (start.run overtaken).any (fun c =>
      (c.running (0 : ℕ)).isNone && (c.running (1 : ℕ)).isNone &&
        decide (∀ x ∈ c.world.scored, c.world.routed x.producedAt ≠ none) &&
        c.world.decision.any fun d => decide (d ∈ c.world.scored ∧
          (∀ x ∈ c.world.scored, x.producedAt ≤ d.producedAt) ∧ d.screens = false ∧
          c.world.routed d.producedAt = some false ∧ c.world.pending = true)) = true := by decide
  obtain ⟨c, ran, seen⟩ := (Option.any_eq_true _ _).mp run
  simp only [Bool.and_eq_true, Option.isNone_iff_eq_none, decide_eq_true_eq] at seen
  obtain ⟨⟨⟨first, second⟩, finished⟩, stored⟩ := seen
  obtain ⟨d, found, rest⟩ := (Option.any_eq_true _ _).mp stored
  exact ⟨c, ran, first, second, finished, d, found, of_decide_eq_true rest⟩

end DeclutrMail.Triage
