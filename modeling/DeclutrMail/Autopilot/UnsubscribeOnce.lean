import DeclutrMail.Autopilot.UnsubscribeSweep

/-!
# One unsubscribe for a sender

Under the action lock of the mailbox a sweep reads whether the sender is unsubscribed and records
its decision. If every earlier intent has been projected by then, the policy says of an earlier
decision that it has been made.
-/

namespace DeclutrMail.Autopilot.Sweep

open Interleaving

variable {w w' : World} {t : ℕ}

/-! ## The invariant -/

structure Inv (w : World) : Prop where
  /-- Nobody takes back what a delivered intent has set. -/
  projected : ∀ intent ∈ w.intents, intent.delivered = true →
    w.policy.any (·.policyType = some .unsubscribe) = true
  announced : w.decisions ≠ [] → w.intents ≠ []
  once : w.amiss = false → w.decisions.length ≤ 1
  queued : w.enqueued.length ≤ w.decisions.length
  quiet : ∀ t, w.lock ≠ some t → w.draft t = .empty

/-- What decisions are made of is the same. -/
structure Same (w w' : World) : Prop where
  lock : w'.lock = w.lock
  draft : w'.draft = w.draft
  decisions : w'.decisions = w.decisions
  intents : w'.intents = w.intents
  enqueued : w'.enqueued = w.enqueued
  policy : w'.policy = w.policy
  amiss : w'.amiss = w.amiss

theorem Same.refl (w : World) : Same w w := ⟨rfl, rfl, rfl, rfl, rfl, rfl, rfl⟩

theorem Inv.same (inv : Inv w) (same : Same w w') : Inv w' := by
  obtain ⟨lock, draft, decisions, intents, enqueued, policy, amiss⟩ := same
  constructor
  · rw [intents, policy]
    exact inv.projected
  · rw [decisions, intents]
    exact inv.announced
  · rw [amiss, decisions]
    exact inv.once
  · rw [enqueued, decisions]
    exact inv.queued
  · rw [lock, draft]
    exact inv.quiet

theorem same_updateMatch (id : MatchId) (f : MatchRow → MatchRow) : Same w (w.updateMatch id f) := by
  unfold World.updateMatch
  split
  · split_ifs <;> exact ⟨rfl, rfl, rfl, rfl, rfl, rfl, rfl⟩
  · exact .refl w

theorem same_setJob (id : MatchId) (f : Actions.JobStatus → Actions.JobStatus) :
    Same w (w.setJob id f) := by
  unfold World.setJob
  split <;> exact ⟨rfl, rfl, rfl, rfl, rfl, rfl, rfl⟩

theorem Same.trans {w'' : World} (h : Same w w') (h' : Same w' w'') : Same w w'' :=
  ⟨h'.lock.trans h.lock, h'.draft.trans h.draft, h'.decisions.trans h.decisions,
    h'.intents.trans h.intents, h'.enqueued.trans h.enqueued, h'.policy.trans h.policy,
    h'.amiss.trans h.amiss⟩

/-! ## Under the lock -/

/-- What others do while a sweep holds the lock. -/
structure Background (w w' : World) : Prop where
  lock : w'.lock = w.lock
  draft : ∀ t, w.lock = some t → w'.draft t = w.draft t
  decisions : w'.decisions = w.decisions
  enqueued : w'.enqueued = w.enqueued
  amiss : w.amiss = true → w'.amiss = true

theorem Same.background (same : Same w w') : Background w w' :=
  ⟨same.lock, fun _ _ => by rw [same.draft], same.decisions, same.enqueued,
    fun past => same.amiss.trans past⟩

theorem Background.fine (b : Background w w') (fine : w'.amiss = false) : w.amiss = false := by
  cases past : w.amiss with
  | false => rfl
  | true =>
    have past := b.amiss past
    rw [fine] at past
    cases past

@[reducible]
def underLock : Discipline sweeping where
  owner w := w.lock
  inv := Inv
  kept _ _ := True
  background := Background
  owner_background b := b.lock
  kept_refl _ := trivial
  kept_trans _ _ := trivial

abbrev Allowed := underLock.Guarantee

/-- Facts of the thread that holds the lock, about its draft and what has been recorded. -/
def owner (t : ℕ) (P : Draft → Prop) (undecided queueing : Bool) : underLock.Local where
  holds w := w.lock = some t ∧ P (w.draft t) ∧
    (undecided = true → w.amiss = false → w.decisions = []) ∧
    (queueing = true → w.enqueued.length < w.decisions.length)
  stable := by
    rintro w w' ⟨mine, draft, undecided, queueing⟩ b
    refine ⟨b.lock.trans mine, b.draft t mine ▸ draft, fun asked fine => ?_, fun asked => ?_⟩
    · rw [b.decisions]
      exact undecided asked (b.fine fine)
    · rw [b.decisions, b.enqueued]
      exact queueing asked

/-- Nothing is drafted. -/
def clean (t : ℕ) : underLock.Local := owner t (· = .empty) false false

/-- Nothing is drafted, and no decision has been recorded. -/
def cleared (t : ℕ) : underLock.Local := owner t (· = .empty) true false

/-- The decision is drafted. -/
def deciding (t : ℕ) : underLock.Local := owner t (fun d => d.decision.isSome = true) true false

/-- The decision is drafted with its intent. -/
def decided (t : ℕ) : underLock.Local :=
  owner t (fun d => d.decision.isSome = true ∧ d.intent.isSome = true) true false

/-- The decision is recorded and not yet queued. -/
def recorded (t : ℕ) : underLock.Local := owner t (· = .empty) false true

def held (t : ℕ) : underLock.Local := owner t (fun _ => True) false false

section Weaken

variable {P : Draft → Prop} {undecided queueing : Bool}

theorem held_of_owner (w : World) (_ : Inv w) (h : (owner t P undecided queueing) w) : (held t) w :=
  ⟨h.1, trivial, nofun, nofun⟩

theorem clean_of_owner (w : World) (_ : Inv w) (h : (owner t (· = .empty) undecided queueing) w) :
    (clean t) w := ⟨h.1, h.2.1, nofun, nofun⟩

/-- Whatever leaves the draft and the records as they are keeps the facts. -/
theorem owner_of_same (same : Same w w') (h : (owner t P undecided queueing) w) :
    (owner t P undecided queueing) w' :=
  (owner t P undecided queueing).stable h same.background

end Weaken

/-- Statements that touch neither the draft nor what has been recorded. -/
def Statement.plain : Statement → Bool
  | .selectMailbox | .loadEligibleMatches | .loadInFlightFlags _ | .dismiss _
  | .senderIndexRebuiltSince _ | .loadClaim _ | .retireClaim _ | .flipMatchApplied _
  | .executeLabelAction _ | .unsubSendsEnabled | .lockSenderIndex | .matchStillCurrent _
  | .insertOutcome _ | .selectJob _ | .nameJob _ | .failQueued _ => true
  | .lockMailbox | .unlockMailbox | .reloadMatch _ | .insertDecision _ | .publishIntent _
  | .insertJob _ | .applyMatch _ | .commit | .rollback | .enqueueUnsubExecution _ => false

theorem same_of_plain {q : Statement} {c : Choice} {r : Except SweepError q.Answer}
    (plain : q.plain = true) (answered : answer t q c w = some (r, w')) : Same w w' := by
  unfold answer at answered
  split at answered
  all_goals first
    | (cases plain; done)
    | (cases answered; done)
    | (cases answered; first
        | exact .refl _
        | exact same_updateMatch ..
        | exact same_setJob ..
        | exact (same_setJob ..).trans (same_updateMatch ..))
    | (split_ifs at answered; cases answered; exact .refl _)

/-! ## The statements -/

section Statements

variable {P : Draft → Prop} {undecided queueing : Bool}

/-- A statement that fails changes nothing, apart from those that may lose their answer. -/
theorem answer_error {q : Statement} {c : Choice} {e : SweepError}
    (other : q ≠ .commit ∧ q ≠ .unlockMailbox ∧ ∀ id, q ≠ .enqueueUnsubExecution id)
    (answered : answer t q c w = some (.error e, w')) : w' = w := by
  unfold answer at answered
  split at answered
  all_goals first
    | exact absurd rfl other.1
    | exact absurd rfl other.2.1
    | exact absurd rfl (other.2.2 _)
    | (cases answered; done)
    | (cases answered; rfl)
    | (split_ifs at answered <;> cases answered)

theorem plain_does {q : Statement} (plain : q.plain = true) :
    underLock.Does t (owner t P undecided queueing) (run q)
      (fun _ => owner t P undecided queueing) fun _ => owner t P undecided queueing := by
  refine underLock.own fun w inv mine h c r w' answered => ?_
  have same := same_of_plain plain answered
  refine ⟨same.lock.trans mine, inv.same same, trivial, ?_⟩
  cases r <;> exact owner_of_same same h

theorem Inv.write (inv : Inv w) (mine : w.lock = some t) (d : Draft) : Inv (w.write t d) := by
  refine ⟨inv.projected, inv.announced, inv.once, inv.queued, fun x free => ?_⟩
  have other : x ≠ t := by
    rintro rfl
    exact free mine
  exact (Function.update_of_ne other ..).trans (inv.quiet x free)

/-- A statement of the transaction drafts something. -/
theorem drafts_does {q : Statement} {B : q.Answer → underLock.Local}
    (other : q ≠ .commit ∧ q ≠ .unlockMailbox ∧ ∀ id, q ≠ .enqueueUnsubExecution id)
    (done : ∀ w, Inv w → w.lock = some t → (owner t P undecided queueing) w → ∀ c a w',
      answer t q c w = some (.ok a, w') →
        ∃ d, (w' = w ∨ w' = w.write t d) ∧ B a w') :
    underLock.Does t (owner t P undecided queueing) (run q) B fun _ => held t := by
  refine underLock.own fun w inv mine h c r w' answered => ?_
  cases r with
  | error e =>
    obtain rfl := answer_error other answered
    exact ⟨mine, inv, trivial, held_of_owner w' inv h⟩
  | ok a =>
    obtain ⟨d, rfl | rfl, post⟩ := done w inv mine h c a w' answered
    · exact ⟨mine, inv, trivial, post⟩
    · exact ⟨mine, inv.write mine d, trivial, post⟩

theorem owner_write {Q : Draft → Prop} {d : Draft} (h : (owner t P undecided queueing) w)
    (new : Q d) : (owner t Q undecided queueing) (w.write t d) := by
  refine ⟨h.1, ?_, h.2.2.1, h.2.2.2⟩
  show Q (Function.update w.draft t d t)
  rw [Function.update_self]
  exact new

theorem insertDecision_does (id : MatchId) : underLock.Does t (cleared t)
    (run (.insertDecision id)) (fun _ => deciding t) fun _ => held t := by
  refine drafts_does ⟨nofun, nofun, nofun⟩ fun w _ _ h c a w' answered => ?_
  cases c with
  | ok =>
    cases answered
    exact ⟨_, .inr rfl, owner_write h rfl⟩
  | _ => cases answered

theorem publishIntent_does (method : Option Unsubscribe.UnsubscribeMethod) :
    underLock.Does t (deciding t) (run (.publishIntent method)) (fun _ => decided t)
      fun _ => held t := by
  refine drafts_does ⟨nofun, nofun, nofun⟩ fun w _ _ h c a w' answered => ?_
  cases c with
  | ok =>
    cases answered
    exact ⟨_, .inr rfl, owner_write h ⟨h.2.1, rfl⟩⟩
  | _ => cases answered

theorem insertJob_does (id : MatchId) : underLock.Does t (decided t) (run (.insertJob id))
    (fun _ => decided t) fun _ => held t := by
  refine drafts_does ⟨nofun, nofun, nofun⟩ fun w _ _ h c a w' answered => ?_
  cases c with
  | ok =>
    unfold answer at answered
    dsimp only at answered
    split_ifs at answered
    · cases answered
      exact ⟨.empty, .inl rfl, h⟩
    · cases answered
      exact ⟨_, .inr rfl, owner_write h h.2.1⟩
  | _ => cases answered

theorem applyMatch_does (id : MatchId) : underLock.Does t (decided t) (run (.applyMatch id))
    (fun _ => decided t) fun _ => held t := by
  refine drafts_does ⟨nofun, nofun, nofun⟩ fun w _ _ h c a w' answered => ?_
  cases c with
  | ok =>
    cases answered
    exact ⟨_, .inr rfl, owner_write h h.2.1⟩
  | _ => cases answered

theorem rollback_does : underLock.Does t (held t) (run .rollback) (fun _ => clean t)
    fun _ => clean t := by
  refine underLock.own fun w inv mine h c r w' answered => ?_
  cases c with
  | ok =>
    cases answered
    exact ⟨mine, inv.write mine _, trivial, owner_write h rfl⟩
  | _ => cases answered

/-! ### The commit -/

/-- What a transaction has to have drafted before it commits. -/
structure Fits (t : ℕ) (w : World) : Prop where
  announced : (w.draft t).decision.isSome = true → (w.draft t).intent.isSome = true
  first : (w.draft t).decision.isSome = true → w.amiss = false → w.decisions = []

theorem quiet_write_empty (inv : Inv w) (x : ℕ) (free : w.lock ≠ some x) :
    (w.rollback t).draft x = .empty := by
  show Function.update w.draft t Draft.empty x = .empty
  by_cases mine : x = t
  · subst mine
    exact Function.update_self ..
  · rw [Function.update_of_ne mine]
    exact inv.quiet x free

/-- The match of the transaction is no part of the invariant. -/
theorem same_applied (w : World) (t : ℕ) : Same w (w.applied t) := by
  unfold World.applied
  split
  · exact same_updateMatch ..
  · exact .refl w

theorem draft_commit (w : World) (t : ℕ) : (w.commit t).draft = (w.rollback t).draft :=
  congrArg (fun d : ℕ → Draft => Function.update d t .empty) (same_applied w t).draft

theorem lock_commit (w : World) (t : ℕ) : (w.commit t).lock = w.lock := (same_applied w t).lock

theorem amiss_commit (w : World) (t : ℕ) : (w.commit t).amiss = w.amiss := (same_applied w t).amiss

theorem enqueued_commit (w : World) (t : ℕ) : (w.commit t).enqueued = w.enqueued :=
  (same_applied w t).enqueued

theorem decisions_commit (w : World) (t : ℕ) :
    (w.commit t).decisions = w.decisions ++ (w.draft t).decision.toList := rfl

theorem intents_commit (w : World) (t : ℕ) :
    (w.commit t).intents = w.intents ++ (w.draft t).intent.toList.map (⟨·, false⟩) := rfl

theorem Inv.commit (inv : Inv w) (fits : Fits t w) : Inv (w.commit t) := by
  refine ⟨fun intent mem delivered => ?_, fun decided => ?_, fun fine => ?_, ?_, fun x free => ?_⟩
  · rw [intents_commit] at mem
    show (w.applied t).policy.any _ = true
    rw [(same_applied w t).policy]
    rcases List.mem_append.mp mem with old | new
    · exact inv.projected intent old delivered
    · obtain ⟨method, -, rfl⟩ := List.mem_map.mp new
      cases delivered
  · rw [intents_commit]
    intro nothing
    obtain ⟨before, drafted⟩ := List.append_eq_nil_iff.mp nothing
    rw [decisions_commit] at decided
    cases decision : (w.draft t).decision with
    | none =>
      refine inv.announced (fun empty => decided ?_) before
      rw [empty, decision]
      rfl
    | some id =>
      have intent := fits.announced (by rw [decision]; rfl)
      obtain ⟨method, here⟩ := Option.isSome_iff_exists.mp intent
      rw [here] at drafted
      cases drafted
  · rw [amiss_commit] at fine
    rw [decisions_commit]
    cases decision : (w.draft t).decision with
    | none => simpa using inv.once fine
    | some id => simp [fits.first (by rw [decision]; rfl) fine]
  · rw [enqueued_commit, decisions_commit, List.length_append]
    exact Nat.le_add_right_of_le inv.queued
  · rw [draft_commit]
    exact quiet_write_empty inv x (lock_commit w t ▸ free)

theorem Inv.rollback (inv : Inv w) : Inv (w.rollback t) :=
  ⟨inv.projected, inv.announced, inv.once, inv.queued, quiet_write_empty inv⟩

/-- What the transaction has decided, as far as its draft goes. -/
theorem fits_of_decided (h : (decided t) w) : Fits t w := ⟨fun _ => h.2.1.2, fun _ => h.2.2.1 rfl⟩

theorem fits_of_clean (h : (clean t) w) : Fits t w := by
  have empty : w.draft t = .empty := h.2.1
  constructor <;> simp [empty, Draft.empty]

/-- What a commit leaves. -/
theorem commit_does {A B : underLock.Local} (fits : ∀ w, Inv w → A w → Fits t w)
    (post : ∀ w, Inv w → w.lock = some t → A w → B (w.commit t)) :
    underLock.Does t A (run .commit) (fun _ => B) fun _ => clean t := by
  refine underLock.own fun w inv mine h c r w' answered => ?_
  have lock := lock_commit w t
  have draft := draft_commit w t
  have committed := inv.commit (fits w inv h)
  have emptied : (w.rollback t).draft t = .empty := Function.update_self ..
  cases c with
  | ok =>
    cases answered
    exact ⟨lock.trans mine, committed, trivial, post w inv mine h⟩
  | lost =>
    cases answered
    exact ⟨lock.trans mine, committed, trivial, lock.trans mine, draft ▸ emptied, nofun, nofun⟩
  | fails =>
    cases answered
    exact ⟨mine, inv.rollback, trivial, mine, emptied, nofun, nofun⟩
  | _ => cases answered

theorem enqueue_does (id : MatchId) : underLock.Does t (recorded t)
    (run (.enqueueUnsubExecution id)) (fun _ => clean t) fun _ => clean t := by
  refine underLock.own fun w inv mine h c r w' answered => ?_
  have room : w.enqueued.length < w.decisions.length := h.2.2.2 rfl
  have queued : Inv (w.enqueue id) := by
    refine ⟨inv.projected, inv.announced, inv.once, ?_, inv.quiet⟩
    show (w.enqueued ++ [id]).length ≤ w.decisions.length
    rw [List.length_append]
    exact room
  cases c with
  | ok =>
    cases answered
    exact ⟨mine, queued, trivial, mine, h.2.1, nofun, nofun⟩
  | lost =>
    cases answered
    exact ⟨mine, queued, trivial, mine, h.2.1, nofun, nofun⟩
  | fails =>
    cases answered
    exact ⟨mine, inv, trivial, clean_of_owner _ inv h⟩
  | _ => cases answered

/-- What reading a match says about the decisions there are. -/
theorem reloadMatch_does (id : MatchId) : underLock.Does t (clean t) (run (.reloadMatch id))
    (fun fresh => owner t (· = .empty) (fresh.any (·.mayUnsubscribe)) false) fun _ => clean t := by
  refine underLock.own fun w inv mine h c r w' answered => ?_
  cases c with
  | window executed =>
    cases answered
    have fine (sound : (w.reload (w.fresh id executed)).amiss = false) : w.amiss = false :=
      (Bool.or_eq_false_iff.mp sound).1
    refine ⟨mine, ⟨inv.projected, inv.announced, fun sound => inv.once (fine sound), inv.queued,
      inv.quiet⟩, trivial, mine, h.2.1, fun asked sound => ?_, nofun⟩
    -- every intent has been projected, so a decision would show in the policy
    obtain ⟨fresh, read, may⟩ := (Option.any_eq_true _ _).mp asked
    have projected : w.awaited = false := by
      have both := (Bool.or_eq_false_iff.mp sound).2
      rwa [asked, Bool.and_true] at both
    by_contra decided
    obtain ⟨intent, mem⟩ := List.exists_mem_of_ne_nil _ (inv.announced decided)
    have delivered : intent.delivered = true := by
      simpa using List.any_eq_false.mp projected intent mem
    have unsubscribed := inv.projected intent mem delivered
    have stands : fresh.alreadyUnsubscribed = false := by
      unfold FreshMatch.mayUnsubscribe at may
      grind
    have reads : fresh.alreadyUnsubscribed = w.policy.any (·.policyType = some .unsubscribe) := by
      unfold World.fresh at read
      split at read
      · cases read
      · split_ifs at read
        obtain ⟨eligible, -, rfl⟩ := Option.map_eq_some_iff.mp read
        rfl
    rw [reads, unsubscribed] at stands
    cases stands
  | fails =>
    cases answered
    exact ⟨mine, inv, trivial, h⟩
  | _ => cases answered

end Statements

/-! ## One unsubscribe -/

theorem transaction_does {α : Type} {body : SweepProgram α} {A : underLock.Local}
    {B C : α → underLock.Local} (h : underLock.Does t A body B fun _ => held t)
    (ends : ∀ a, underLock.Does t (B a) (run .commit) (fun _ => C a) fun _ => clean t) :
    underLock.Does t A (transaction body) C fun _ => clean t := by
  refine Discipline.Does.bind (h.tryCatch fun e => ?_) fun a => ?_
  · exact rollback_does.bind fun _ => .failed fun _ _ h => h
  · exact (ends a).bind fun _ => .done fun _ _ h => h

theorem held_of_plain {P : Draft → Prop} {undecided queueing : Bool} {q : Statement}
    (plain : q.plain = true) : underLock.Does t (owner t P undecided queueing) (run q)
      (fun _ => owner t P undecided queueing) fun _ => held t :=
  (plain_does plain).fails fun _ => held_of_owner

theorem queueExecution_does (m : EligibleMatch) : underLock.Does t (decided t) (queueExecution m)
    (fun _ => decided t) fun _ => held t := by
  unfold queueExecution
  refine Discipline.Does.bind (B := fun _ => decided t) (Discipline.Does.when
    (fun _ => .failed held_of_owner) fun _ _ _ h => h) fun _ => ?_
  refine (insertJob_does _).bind fun inserted => ?_
  split
  · exact (held_of_plain rfl).bind fun _ => .done fun _ _ h => h
  · refine (held_of_plain rfl).bind fun found => ?_
    split
    · exact (held_of_plain rfl).bind fun _ => .done fun _ _ h => h
    · exact .done fun _ _ h => h

theorem executionOf_does (m : EligibleMatch) : underLock.Does t (decided t) (executionOf m)
    (fun _ => decided t) fun _ => held t := by
  unfold executionOf
  split_ifs
  · exact queueExecution_does m
  · exact .done fun _ _ h => h

theorem recordOutcome_does (m : EligibleMatch) : underLock.Does t (deciding t) (recordOutcome m)
    (fun _ => deciding t) fun _ => held t := by
  unfold recordOutcome
  split
  · exact held_of_plain rfl
  · exact held_of_plain rfl
  · exact .done fun _ _ h => h
  · exact .done fun _ _ h => h

/-- The transaction decides, unless the match is stale. -/
theorem recordIntent_does (m : EligibleMatch) : underLock.Does t (cleared t) (recordIntent m)
    (fun r => if r.isSome then decided t else clean t) fun _ => held t := by
  unfold recordIntent
  refine (held_of_plain rfl).bind fun _ => (held_of_plain rfl).bind fun current => ?_
  split
  · refine (insertDecision_does _).bind fun _ => (recordOutcome_does m).bind fun _ =>
      (publishIntent_does _).bind fun _ => (executionOf_does m).bind fun actionId =>
        (applyMatch_does _).bind fun _ => .done fun _ _ h => h
  · exact .done clean_of_owner

theorem commitIntent_does (r : Option (Option MatchId)) :
    underLock.Does t (if r.isSome then decided t else clean t) (run .commit)
      (fun _ => if r.isSome then recorded t else clean t) fun _ => clean t := by
  have emptied (w : World) : (w.commit t).draft t = .empty := by
    rw [draft_commit]
    exact Function.update_self ..
  cases r with
  | none =>
    refine commit_does (fun _ _ => fits_of_clean) fun w inv mine h => ?_
    exact ⟨(lock_commit w t).trans mine, emptied w, nofun, nofun⟩
  | some actionId =>
    refine commit_does (fun _ _ => fits_of_decided) fun w inv mine h => ?_
    refine ⟨(lock_commit w t).trans mine, emptied w, nofun, fun _ => ?_⟩
    have drafted : (w.draft t).decision.isSome = true := h.2.1.1
    obtain ⟨id, here⟩ := Option.isSome_iff_exists.mp drafted
    rw [enqueued_commit, decisions_commit, here, List.length_append]
    exact Nat.lt_succ_of_le inv.queued

theorem enqueueExecution_does (id : MatchId) : underLock.Does t (recorded t) (enqueueExecution id)
    (fun _ => clean t) fun _ => clean t :=
  (enqueue_does id).tryCatch fun _ => plain_does rfl

theorem executeUnsubscribeIntent_does (m : FreshMatch) : underLock.Does t (cleared t)
    (executeUnsubscribeIntent m) (fun _ => clean t) fun _ => clean t := by
  unfold executeUnsubscribeIntent
  refine ((plain_does rfl).fails fun _ => clean_of_owner).bind fun canSendUnsub => ?_
  split
  · exact .done clean_of_owner
  · refine (transaction_does (recordIntent_does _) commitIntent_does).bind fun r => ?_
    rcases r with _ | _ | actionId
    · exact .done fun _ _ h => h
    · exact .done clean_of_owner
    · exact (enqueueExecution_does _).bind fun _ => .done fun _ _ h => h

/-! ## One match -/

theorem clean_of_plain {q : Statement} (plain : q.plain = true) {undecided : Bool} :
    underLock.Does t (owner t (· = .empty) undecided false) (run q) (fun _ => clean t)
      fun _ => clean t :=
  ((plain_does plain).fails fun _ => clean_of_owner).post fun _ => clean_of_owner

theorem executeMatch_does (m : FreshMatch) (unsubscribes : Bool)
    (may : m.actionKind = .unsubscribe → unsubscribes = true) :
    underLock.Does t (owner t (· = .empty) unsubscribes false) (executeMatch m) (fun _ => clean t)
      fun _ => clean t := by
  unfold executeMatch
  cases kind : m.actionKind with
  | archive | later => exact clean_of_plain rfl
  | unsubscribe =>
    rw [may kind]
    exact executeUnsubscribeIntent_does m
  | delete => exact .done clean_of_owner

theorem spendBudget_does (budget : Budget) (m : FreshMatch) (key : PresetKey)
    (unsubscribes : Bool) (may : m.actionKind = .unsubscribe → unsubscribes = true) :
    underLock.Does t (owner t (· = .empty) unsubscribes false) (spendBudget budget m key)
      (fun _ => clean t) fun _ => clean t := by
  unfold spendBudget
  dsimp only
  split_ifs
  · exact .done clean_of_owner
  · refine Discipline.Does.tryCatch (F := fun _ => clean t)
      ((executeMatch_does m unsubscribes may).bind fun spent => ?_) fun _ => .done fun _ _ h => h
    exact .done fun _ _ h => h

theorem missingSender_does (m : FreshMatch) : underLock.Does t (clean t) (missingSender m)
    (fun _ => clean t) fun _ => clean t := by
  unfold missingSender
  refine (plain_does rfl).bind fun rebuilt => ?_
  split_ifs
  · unfold abandonStaleClaim
    refine (plain_does rfl).bind fun claim => Discipline.Does.bind (B := fun _ => clean t) ?_
      fun _ => plain_does rfl
    exact Discipline.Does.when (fun _ => .failed fun _ _ h => h) fun _ _ _ h => h
  · exact .done fun _ _ h => h

/-- The guards leave a match to be executed only if it may unsubscribe. -/
theorem guardMatch_does (budget : Budget) (m : FreshMatch) (key : PresetKey)
    (enabled : m.inFlight = true ∨ m.ruleEnabled = true ∧ m.ruleMode ≠ .paused)
    (preset : m.presetKey = some key) :
    underLock.Does t (owner t (· = .empty) m.mayUnsubscribe false) (guardMatch budget m key)
      (fun _ => clean t) fun _ => clean t := by
  unfold guardMatch
  split_ifs with review isProtected labels missing evidence already
  · exact (clean_of_plain rfl).bind fun _ => .done fun _ _ h => h
  · exact (clean_of_plain rfl).bind fun _ => .done fun _ _ h => h
  · exact .done clean_of_owner
  · exact (((missingSender_does m).pre clean_of_owner).bind fun _ => .done fun _ _ h => h)
  · exact .done clean_of_owner
  · exact (clean_of_plain rfl).bind fun _ => .done fun _ _ h => h
  · refine spendBudget_does budget m key _ fun kind => ?_
    unfold FreshMatch.mayUnsubscribe
    grind

theorem processMatch_does (context : SweepContext) (budget : Budget) (snapshot : EligibleMatch) :
    underLock.Does t (clean t) (processMatch context budget snapshot) (fun _ => clean t)
      fun _ => clean t := by
  unfold processMatch
  refine (reloadMatch_does _).bind fun fresh => ?_
  cases fresh with
  | none => exact .done clean_of_owner
  | some m =>
    dsimp only
    split_ifs with kind gated paused
    · exact .done clean_of_owner
    · exact .done clean_of_owner
    · exact .done clean_of_owner
    · cases preset : m.presetKey with
      | none => exact .done clean_of_owner
      | some key =>
        refine guardMatch_does budget m key ?_ preset
        grind

/-! ## The sweep -/

theorem lockMailbox_does : Triple Allowed (underLock.outside t) (run .lockMailbox)
    (fun _ => underLock.owned t (clean t)) fun _ => underLock.outside t := by
  refine underLock.take fun w inv free c r w' answered => ?_
  change answer t .lockMailbox c w = _ at answered
  cases c with
  | ok =>
    unfold answer at answered
    dsimp only at answered
    split_ifs at answered with idle
    cases answered
    refine ⟨⟨inv.projected, inv.announced, inv.once, inv.queued, fun x _ => ?_⟩, trivial, idle, rfl,
      rfl, inv.quiet t (by simp [idle]), nofun, nofun⟩
    exact inv.quiet x (by simp [idle])
  | fails =>
    cases answered
    exact ⟨inv, trivial, (Same.refl w).background⟩
  | _ => cases answered

theorem lock_unlock (mine : w.lock = some t) : (w.unlock t).lock = none := if_pos mine

theorem Inv.unlock (inv : Inv w) (empty : w.draft t = .empty) : Inv (w.unlock t) := by
  refine ⟨inv.projected, inv.announced, inv.once, inv.queued, fun x free => ?_⟩
  by_cases mine : x = t
  · exact mine ▸ empty
  · refine inv.quiet x fun held => free ?_
    have other : w.lock ≠ some t := fun same => mine (Option.some.inj (held.symm.trans same))
    exact (if_neg other).trans held

theorem unlockMailbox_does : Triple Allowed (underLock.owned t (clean t)) (run .unlockMailbox)
    (fun _ => underLock.outside t) fun _ => underLock.outside t := by
  refine underLock.leave fun w inv mine h c r w' answered => ?_
  change answer t .unlockMailbox c w = _ at answered
  have left : w' = w.unlock t := by
    cases c with
    | ok => cases answered; rfl
    | fails => cases answered; rfl
    | _ => cases answered
  subst left
  exact ⟨inv.unlock h.2.1, trivial, lock_unlock mine⟩

theorem locked_does {α : Type} {body : SweepProgram α}
    (h : underLock.Does t (clean t) body (fun _ => clean t) fun _ => clean t) :
    Triple Allowed (underLock.outside t) (locked body) (fun _ => underLock.outside t)
      fun _ => underLock.outside t :=
  lockMailbox_does.bind fun _ => Triple.ensure h (fun _ => unlockMailbox_does)
    fun _ => unlockMailbox_does

theorem processMatches_does (context : SweepContext) (inFlight : List MatchId) (budget : Budget)
    (loaded : List EligibleMatch) :
    Triple Allowed (underLock.outside t) (processMatches context inFlight budget loaded)
      (fun _ => underLock.outside t) fun _ => underLock.outside t := by
  induction loaded generalizing budget with
  | nil => exact .done fun _ h => h
  | cons m rest ih =>
    unfold processMatches
    split_ifs
    · exact ih budget
    · exact (locked_does (processMatch_does context budget m)).bind ih

/-- A statement outside of the lock. -/
theorem aside_does {q : Statement} (plain : q.plain = true) :
    Triple Allowed (underLock.outside t) (run q) (fun _ => underLock.outside t)
      fun _ => underLock.outside t := by
  refine underLock.aside fun w inv free c r w' answered => ?_
  have same := same_of_plain plain answered
  exact ⟨inv.same same, trivial, same.background⟩

theorem sweep_does : Triple Allowed (underLock.outside t) sweep (fun _ => underLock.outside t)
    fun _ => underLock.outside t := by
  refine (aside_does rfl).bind fun mailbox => ?_
  cases mailbox with
  | none => exact .failed fun _ h => h
  | some mailbox =>
    refine (aside_does rfl).bind fun loaded => (aside_does rfl).bind fun inFlight => ?_
    exact processMatches_does _ _ _ _

/-! ## Around the sweeps -/

theorem projected_unsubscribe (policy : Option Policy) :
    (some (Policy.unsubscribe policy)).any (·.policyType = some .unsubscribe) = true := rfl

theorem Inv.disturb {e : Event} (inv : Inv w) (happened : Sweep.disturb e w = some w') :
    Inv w' ∧ Background w w' := by
  have same (h : Same w w') : Inv w' ∧ Background w w' := ⟨inv.same h, h.background⟩
  unfold Sweep.disturb at happened
  cases e with
  | rules rules | rebuilt stale | sender row =>
    cases happened
    exact same ⟨rfl, rfl, rfl, rfl, rfl, rfl, rfl⟩
  | suggestion id row =>
    dsimp only at happened
    split_ifs at happened
    cases happened
    exact same ⟨rfl, rfl, rfl, rfl, rfl, rfl, rfl⟩
  | protect isProtected =>
    cases happened
    refine ⟨⟨fun intent mem delivered => ?_, inv.announced, inv.once, inv.queued, inv.quiet⟩,
      rfl, fun _ _ => rfl, rfl, rfl, id⟩
    have projected := inv.projected intent mem delivered
    obtain ⟨policy, here, unsubscribed⟩ := (Option.any_eq_true _ _).mp projected
    simpa [here] using unsubscribed
  | deliver i =>
    dsimp only at happened
    split_ifs at happened
    cases happened
    refine ⟨⟨fun _ _ _ => projected_unsubscribe _, fun decided nothing => ?_, inv.once, inv.queued,
      inv.quiet⟩, rfl, fun _ _ => rfl, rfl, rfl, id⟩
    have length := congrArg List.length nothing
    rw [List.length_modify] at length
    exact inv.announced decided (List.length_eq_zero_iff.mp length)
  | execution id status =>
    cases happened
    exact same (same_setJob ..)
  | executed =>
    dsimp only at happened
    split_ifs at happened
    cases happened
    exact ⟨⟨fun _ _ _ => projected_unsubscribe _, inv.announced, inv.once, inv.queued, inv.quiet⟩,
      rfl, fun _ _ => rfl, rfl, rfl, id⟩

theorem sweeping_followed : Discipline.Followed underLock fun _ _ => True where
  accept inv accepted := by
    cases accepted
    exact ⟨inv, trivial, (Same.refl _).background⟩
  code _ := sweep_does
  settle inv settled := by
    cases settled
    exact ⟨inv, trivial, (Same.refl _).background⟩
  crash {t w w'} inv crashed := by
    cases crashed
    have emptied : (w.rollback t).draft t = .empty := Function.update_self ..
    refine ⟨inv.rollback.unlock emptied, trivial, fun held => ?_, fun mine => if_pos mine,
      fun free => ⟨if_neg free, fun x held => ?_, rfl, rfl, id⟩⟩
    · by_cases mine : w.lock = some t
      · cases (lock_unlock (w := w.rollback t) mine).symm.trans held
      · exact mine ((if_neg mine).symm.trans held)
    · refine Function.update_of_ne ?_ _ _
      rintro rfl
      exact free held
  disturb inv _ happened := by
    obtain ⟨inv, b⟩ := inv.disturb happened
    exact ⟨inv, trivial, b⟩

/-- No sweep has decided about the sender, and none is under way. -/
structure World.Undecided (w : World) : Prop where
  decisions : w.decisions = []
  intents : w.intents = []
  enqueued : w.enqueued = []
  lock : w.lock = none
  draft : ∀ t, w.draft t = .empty

/-- If no sweep has read a match for execution while an intent was still to be projected, the
sender has been unsubscribed once. -/
theorem unsubscribed_once {w : World} (undecided : w.Undecided) {c : Config sweeping}
    (run : Reaches (Config.idle w) c) (fine : c.world.amiss = false) :
    c.world.decisions.length ≤ 1 ∧ c.world.enqueued.length ≤ 1 := by
  have start : Inv w := by
    refine ⟨?_, ?_, ?_, ?_, fun t _ => undecided.draft t⟩
    · simp [undecided.intents]
    · simp [undecided.decisions]
    · simp [undecided.decisions]
    · simp [undecided.enqueued]
  have inv := sweeping_followed.inv start undecided.lock run
  have once := inv.once fine
  exact ⟨once, Nat.le_trans inv.queued once⟩

/-! ### Runs -/

/-- An active rule of a preset. -/
def unsubscribing (key : PresetKey) : RuleRow := ⟨some key, .unsubscribe, true, .active⟩

def approved (rule : RuleId) : MatchRow := ⟨rule, .active, .approved, false⟩

/-- Two rules match a sender that takes one click. -/
def twoRules : World where
  rules := ⟨[(0, unsubscribing .autoUnsubscribeNoisy), (1, unsubscribing .longDormantUnsubscribe)],
    by decide⟩
  matchLog := ⟨[(0, approved 0), (1, approved 1)], by decide⟩
  stale := []
  sender := some (some .oneClick)
  policy := none
  jobs := .empty
  decisions := []
  intents := []
  enqueued := []
  lock := none
  draft := fun _ => .empty
  amiss := false

theorem twoRules_undecided : twoRules.Undecided := ⟨rfl, rfl, rfl, rfl, fun _ => rfl⟩

def proceeds (n : ℕ) : List (Interleaving.Move sweeping) := List.replicate n (.reply 0 .ok)

/-- A sweep starts, and has loaded both matches. -/
def loads : List (Interleaving.Move sweeping) :=
  [.start 0 (), .reply 0 (.mailbox (some ⟨true, true, false⟩)),
    .reply 0 (.order twoRules.eligibleMatches), .reply 0 .ok]

/-- A match is read under the lock and its sender unsubscribed. -/
def unsubscribes : List (Interleaving.Move sweeping) :=
  [.reply 0 .ok, .reply 0 (.window 0), .reply 0 (.flag true)] ++ proceeds 10

/-- The intent of the first match is delivered before the second match is read. -/
theorem unsubscribed_once_sample : ∃ c : Config sweeping, Reaches (.idle twoRules) c ∧
    c.world.amiss = false ∧ c.world.decisions = [0] ∧ c.world.enqueued = [0] ∧
      c.world.decisions.length ≤ 1 ∧ c.world.enqueued.length ≤ 1 := by
  obtain ⟨c, run, ended⟩ := exists_reaches (M := sweeping) (c := .idle twoRules)
    (l := loads ++ unsubscribes ++ [.disturb (.deliver 0), .reply 0 .ok, .reply 0 (.window 0),
      .reply 0 .ok, .reply 0 .ok, .finish 0])
    (p := fun c => decide (c.world.amiss = false ∧ c.world.decisions = [0] ∧
      c.world.enqueued = [0])) (by decide +kernel)
  obtain ⟨fine, decisions, enqueued⟩ := of_decide_eq_true ended
  exact ⟨c, run, fine, decisions, enqueued, unsubscribed_once twoRules_undecided run fine⟩

/-- One sweep reaches the second match before the intent of the first is delivered. -/
theorem unsubscribed_twice : ¬∀ (w : World), w.Undecided → ∀ c : Config sweeping,
    Reaches (.idle w) c → c.world.decisions.length ≤ 1 ∧ c.world.enqueued.length ≤ 1 := by
  intro always
  obtain ⟨c, run, ended⟩ := exists_reaches (M := sweeping) (c := .idle twoRules)
    (l := loads ++ unsubscribes ++ unsubscribes ++ [.finish 0])
    (p := fun c => decide (c.world.decisions = [0, 1] ∧ c.world.enqueued = [0, 1]))
    (by decide +kernel)
  obtain ⟨decisions, -⟩ := of_decide_eq_true ended
  have once := (always twoRules twoRules_undecided c run).1
  rw [decisions] at once
  exact absurd once (by decide)

end DeclutrMail.Autopilot.Sweep
