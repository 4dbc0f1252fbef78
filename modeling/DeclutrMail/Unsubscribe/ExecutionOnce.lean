import DeclutrMail.Unsubscribe.Execution

/-!
# A list processor is asked once

What the endpoint has answered is known to one delivery alone until its transaction commits. As
long as no delivery is lost between the two, none begins beside another or after the second POST,
and a job that has sent a POST meets no process that may not send, the job stops at the first
response and its rows tell what it was.
-/

namespace DeclutrMail.Unsubscribe.Execution

open Interleaving Actions

/-! ## The claim and its condition -/

/-- What may be recorded of the last POST; `none` is no response. -/
def Describes : Option ℕ → UnsubOutcome → Prop
  | none, outcome => outcome = .failed
  | some status, outcome =>
    if 200 ≤ status ∧ status < 300 then outcome = .endpointAccepted
    else if 300 ≤ status ∧ status < 400 then outcome = .unconfirmed
    else outcome = .failed ∨ outcome = .actionRequired

theorem describes_recordOf (status : ℕ) (mailto : Bool) :
    Describes (some status) (recordOf status mailto).outcome := by
  unfold Describes recordOf
  split_ifs <;> simp [*]

namespace World

variable (w : World)

def terminal : Bool := w.row.any fun row => JobStatus.terminal row.status

/-- The status of the last POST. -/
def lastResponse : Option ℕ := w.posts.getLast?.join

/-- The endpoint has answered, and no transaction has recorded it. -/
def answered : Bool := !w.terminal && w.lastResponse.isSome

/-- The three places that tell how the job ended. -/
def Described : Prop :=
  ∃ outcome, Describes w.lastResponse outcome ∧
    (∀ row ∈ w.row, row.status = if outcome = .endpointAccepted then .done else .failed) ∧
    (∀ status ∈ w.policy, status = some outcome.unsubStatus) ∧ w.activity = [outcome.action]

structure AsksOnce : Prop where
  noFurther : ∀ response ∈ w.posts.dropLast, response = none
  budget : w.posts.length ≤ unsubMaxAttempts
  described : w.terminal = true → w.posts ≠ [] → w.Described

/-- Before the first delivery. The policy is that of a recorded intent, or failed already. -/
structure Recorded : Prop where
  live : w.live = []
  posts : w.posts = []
  activity : w.activity = []
  policy : ∀ status ∈ w.policy, inFlight status = true ∨ status = some .failed

end World

/-- The condition on each step. -/
def Permits (w : World) : Move executing → Prop
  | .start _ _ => w.live = [] ∧ (w.terminal = true ∨ w.posts.length < unsubMaxAttempts)
  | .reply _ .fails => w.answered = false
  | .reply _ (.enabled false) => w.posts = []
  | .crash _ => w.answered = false
  | _ => True

instance (w : World) (m : Move executing) : Decidable (Permits w m) := by
  unfold Permits
  split <;> infer_instance

/-- What holds between any two steps of a permitted run. -/
structure Inv (w : World) : Prop where
  alone : w.live.length ≤ 1
  quiet : w.live = [] → w.answered = false
  posted : w.posts ≠ [] → ∃ row ∈ w.row, row.status ≠ .queued ∧ row.selector.senderKey.isSome
  asks : w.AsksOnce
  opened : w.terminal = false → w.activity = [] ∧
    ∀ status ∈ w.policy, inFlight status = true ∨ status = some .failed

section Effects

variable {w : World} {row : ActionRow}

theorem terminal_false (h : w.terminal = false) (found : w.row = some row) :
    JobStatus.terminal row.status = false := by
  simpa [World.terminal, found] using h

theorem terminal_row (h : w.terminal = true) :
    ∃ row, w.row = some row ∧ JobStatus.terminal row.status = true := by
  unfold World.terminal at h
  cases found : w.row with
  | none => simp [found] at h
  | some row => exact ⟨row, rfl, by simpa [found] using h⟩

/-- Without an unrecorded response, every POST of an open job went unanswered. -/
theorem Inv.silent (inv : Inv w) (opened : w.terminal = false) (quiet : w.answered = false) :
    ∀ response ∈ w.posts, response = none := by
  have last : w.lastResponse = none := by simpa [World.answered, opened] using quiet
  intro response mem
  rcases List.eq_nil_or_concat w.posts with none | ⟨before, final, whole⟩
  · rw [none] at mem
    cases mem
  · rw [World.lastResponse, whole] at last
    have before_none := inv.asks.noFurther
    rw [whole, List.concat_eq_append] at mem before_none
    rw [List.dropLast_concat] at before_none
    rcases List.mem_append.mp mem with mem | mem
    · exact before_none response mem
    · rw [List.mem_singleton.mp mem]
      simpa using last

/-- The job ends with `outcome`, and says so of the last POST. -/
theorem Inv.recordOutcome (inv : Inv w) (opened : w.terminal = false) (found : w.row = some row)
    (actionId : ActionId) {record : OutcomeRecord}
    (describes : w.posts ≠ [] → Describes w.lastResponse record.outcome) :
    Inv (w.recordOutcome actionId record) ∧ (w.recordOutcome actionId record).answered = false := by
  have ends : (w.recordOutcome actionId record).terminal = true := by
    simp only [World.recordOutcome, World.terminal, World.setRow, World.setPolicy, found,
      Option.map_some, Option.any_some]
    split_ifs <;> rfl
  have past : (w.recordOutcome actionId record).answered = false := by simp [World.answered, ends]
  refine ⟨⟨inv.alone, fun _ => past, ?_, ⟨inv.asks.noFurther, inv.asks.budget, ?_⟩, ?_⟩, past⟩
  · intro posted
    obtain ⟨row', same, -, key⟩ := inv.posted posted
    obtain rfl := Option.some.inj (found.symm.trans same)
    refine ⟨_, Option.mem_map_of_mem _ found, ?_, key⟩
    dsimp only
    split_ifs <;> decide
  · intro _ posted
    refine ⟨record.outcome, describes posted, ?_, ?_, ?_⟩
    · simp [World.recordOutcome, World.setRow, World.setPolicy, found]
    · simp [World.recordOutcome, World.setRow, World.setPolicy]
    · simp [World.recordOutcome, World.setRow, World.setPolicy, (inv.opened opened).1]
  · intro still
    rw [ends] at still
    cases still

/-- A refusal before the first POST. -/
theorem Inv.refuse (inv : Inv w) (found : w.row = some row) (fresh : w.posts = [])
    (errorCode : String) :
    Inv (w.refuse errorCode) ∧ (w.refuse errorCode).answered = false := by
  have ends : (w.refuse errorCode).terminal = true := by
    simp [World.refuse, World.terminal, World.setRow, World.setPolicy, found, JobStatus.terminal]
  have past : (w.refuse errorCode).answered = false := by simp [World.answered, ends]
  refine ⟨⟨inv.alone, fun _ => past, fun posted => absurd fresh posted,
    ⟨inv.asks.noFurther, inv.asks.budget, fun _ posted => absurd fresh posted⟩, ?_⟩, past⟩
  intro still
  rw [ends] at still
  cases still

theorem answered_of_open (h : w.terminal = false) : w.answered = w.lastResponse.isSome := by
  rw [World.answered, h, Bool.not_false, Bool.true_and]

theorem not_inFlight (outcome : UnsubOutcome) : inFlight (some outcome.unsubStatus) = false := by
  cases outcome <;> rfl

/-- `onTerminalFailure` of a job that is final already. -/
theorem Inv.recordAgain (inv : Inv w) (ends : w.terminal = true) (errorName : String)
    (ofSender : Bool) : Inv (w.recordTerminalFailure errorName ofSender) ∧
      (w.recordTerminalFailure errorName ofSender).answered = false := by
  obtain ⟨row, found, final⟩ := terminal_row ends
  have same : (w.setRow fun row => if JobStatus.terminal row.status then row
      else { row with status := .failed, errorCode := some errorName }) = w := by
    rw [World.setRow, found, Option.map_some, if_pos final, ← found]
  have failedJob : (w.row.any fun row => !JobStatus.terminal row.status) = false := by
    simp [found, final]
  unfold World.recordTerminalFailure
  rw [same, failedJob]
  cases ofSender with
  | false => exact ⟨inv, by simp [World.answered, ends]⟩
  | true =>
    have past : (w.setPolicy fun status =>
        if inFlight status then some .failed else status).answered = false := by
      have ends' := ends
      simp only [World.answered, World.setPolicy, World.terminal] at ends' ⊢
      rw [ends']
      rfl
    refine ⟨⟨inv.alone, fun _ => past, inv.posted, ⟨inv.asks.noFurther, inv.asks.budget, ?_⟩, ?_⟩,
      past⟩
    · intro _ posted
      obtain ⟨outcome, describes, status, policy, activity⟩ := inv.asks.described ends posted
      refine ⟨outcome, describes, status, ?_, activity⟩
      intro after mem
      obtain ⟨before, found, rfl⟩ := Option.mem_map.mp mem
      rw [policy before found, if_neg (by simp [not_inFlight])]
    · intro opened
      exact absurd (ends.symm.trans opened) (by decide)

/-- `onTerminalFailure` of a job that is open, after no response. -/
theorem Inv.recordFailed (inv : Inv w) (opened : w.terminal = false) (found : w.row = some row)
    (quiet : w.answered = false) (errorName : String) :
    Inv (w.recordTerminalFailure errorName row.selector.senderKey.isSome) ∧
      (w.recordTerminalFailure errorName row.selector.senderKey.isSome).answered = false := by
  have last : w.lastResponse = none := by simpa [answered_of_open opened] using quiet
  have status := terminal_false opened found
  obtain ⟨activity, policy⟩ := inv.opened opened
  have failed : (w.setRow fun row => if JobStatus.terminal row.status then row
      else { row with status := .failed, errorCode := some errorName }) =
        { w with row := some { row with status := .failed, errorCode := some errorName } } := by
    rw [World.setRow, found, Option.map_some, if_neg (by simp [status])]
  have failedJob : (w.row.any fun row => !JobStatus.terminal row.status) = true := by
    simp [found, status]
  unfold World.recordTerminalFailure
  rw [failed, failedJob]
  cases key : row.selector.senderKey.isSome with
  | false =>
    have fresh : w.posts = [] := by
      by_contra posted
      obtain ⟨row', same, -, some_key⟩ := inv.posted posted
      obtain rfl := Option.some.inj (found.symm.trans same)
      exact absurd (key.symm.trans some_key) (by decide)
    exact ⟨⟨inv.alone, fun _ => rfl, fun posted => absurd fresh posted, ⟨inv.asks.noFurther,
      inv.asks.budget, fun _ posted => absurd fresh posted⟩, nofun⟩, rfl⟩
  | true =>
    refine ⟨⟨inv.alone, fun _ => rfl, fun _ => ⟨_, rfl, nofun, key⟩, ⟨inv.asks.noFurther,
      inv.asks.budget, fun _ _ => ⟨.failed, ?_, ?_, ?_, ?_⟩⟩, nofun⟩, rfl⟩
    · exact last ▸ (rfl : Describes none .failed)
    · intro _ same
      obtain rfl := Option.some.inj same
      rfl
    · intro after mem
      obtain ⟨before, there, rfl⟩ := Option.mem_map.mp mem
      rcases policy before there with waiting | rfl
      · rw [if_pos waiting]
        rfl
      · rfl
    · rw [if_pos rfl]
      exact congrArg (· ++ [TerminalAction.unsubscribeFailed]) activity

/-- `onTerminalFailure` of a job that is not there. -/
theorem recordTerminalFailure_none (none : w.row = .none) (errorName : String) :
    w.recordTerminalFailure errorName false = w := by
  have same : (w.setRow fun row => if JobStatus.terminal row.status then row
      else { row with status := .failed, errorCode := some errorName }) = w := by
    rw [World.setRow, none, Option.map_none, ← none]
  unfold World.recordTerminalFailure
  rw [same]
  rfl

theorem Inv.markExecuting (inv : Inv w) (opened : w.terminal = false) (quiet : w.answered = false)
    (found : w.row = some row) (key : row.selector.senderKey.isSome = true) :
    Inv w.markExecuting ∧ w.markExecuting.terminal = false ∧ w.markExecuting.answered = false := by
  have still : w.markExecuting.terminal = false := by
    simp [World.markExecuting, World.terminal, World.setRow, found, JobStatus.terminal]
  have silent : w.markExecuting.answered = false := by
    rw [answered_of_open still]
    rwa [answered_of_open opened] at quiet
  refine ⟨⟨inv.alone, fun _ => silent, fun _ => ?_, ⟨inv.asks.noFurther, inv.asks.budget, ?_⟩,
    fun _ => inv.opened opened⟩, still, silent⟩
  · exact ⟨_, Option.mem_map_of_mem _ found, nofun, key⟩
  · intro ends
    rw [still] at ends
    cases ends

/-- A POST goes out. -/
theorem Inv.send (inv : Inv w) (opened : w.terminal = false) (quiet : w.answered = false)
    (found : w.row = some row) (status : row.status = .executing)
    (key : row.selector.senderKey.isSome = true) (room : w.posts.length < unsubMaxAttempts) :
    Inv w.send ∧ w.send.answered = false := by
  have silent : w.send.answered = false := by
    simp [World.answered, World.send, World.lastResponse]
  refine ⟨⟨inv.alone, fun _ => silent, fun _ => ⟨row, found, ?_, key⟩, ⟨?_, ?_, ?_⟩,
    fun _ => inv.opened opened⟩, silent⟩
  · rw [status]
    decide
  · intro response mem
    rw [World.send, List.dropLast_concat] at mem
    exact inv.silent opened quiet response mem
  · rw [World.send, List.length_append, List.length_singleton]
    omega
  · intro ends
    rw [show w.send.terminal = w.terminal from rfl, opened] at ends
    cases ends

/-- The response comes in, and a delivery is there to record it. -/
theorem Inv.receive (inv : Inv w) (opened : w.terminal = false) (live : w.live ≠ [])
    (sent : w.posts ≠ []) (status : ℕ) :
    Inv (w.receive status) ∧ (w.receive status).lastResponse = some status := by
  have last : (w.receive status).lastResponse = some status := by
    simp [World.receive, World.lastResponse]
  refine ⟨⟨inv.alone, fun none => absurd none live, fun _ => inv.posted sent, ⟨?_, ?_, ?_⟩,
    fun _ => inv.opened opened⟩, last⟩
  · intro response mem
    rw [World.receive, List.dropLast_concat] at mem
    exact inv.asks.noFurther response mem
  · have some_posts := List.length_pos_iff.mpr sent
    have budget := inv.asks.budget
    rw [World.receive, List.length_append, List.length_singleton, List.length_dropLast]
    omega
  · intro ends
    rw [show (w.receive status).terminal = w.terminal from rfl, opened] at ends
    cases ends

end Effects

/-! ## The deliveries -/

/-- The deliveries of permitted runs. -/
abbrev permitted := executing.restrict Permits

/-- One delivery at a time owns the job, and nothing happens to it meanwhile. -/
def once : Discipline permitted where
  owner w := World.live w |>.head?
  inv := Inv
  kept _ _ := True
  background w w' := w' = w
  owner_background same := by rw [same]
  kept_refl _ := trivial
  kept_trans _ _ := trivial

def knows (P : World → Prop) : once.Local := ⟨P, fun _ _ h same => same ▸ h⟩

section Statements

variable {t : ℕ} {P : World → Prop}

/-- One statement: what it may do where it is permitted. -/
theorem states {q : Statement} {B : q.Answer → World → Prop} {E : ExecutionError → World → Prop}
    (h : ∀ w, Inv w → w.live ≠ [] → P w → ∀ c r w', Permits w (.reply t c) →
      answer t q c w = some (r, w') → w'.live = w.live ∧ Inv w' ∧
        match r with
        | .ok a => B a w'
        | .error e => E e w') :
    once.Does t (knows P) (run q) (fun a => knows (B a)) fun e => knows (E e) := by
  refine Discipline.own fun w inv mine hw c r w' answered => ?_
  obtain ⟨ok, answered⟩ := System.restrict_answer answered
  have live : World.live w ≠ [] := by
    intro none
    have mine : (World.live w).head? = some t := mine
    rw [none] at mine
    cases mine
  obtain ⟨same, inv', owed⟩ := h w inv live hw c r w' ok answered
  refine ⟨?_, inv', trivial, ?_⟩
  · have mine : (World.live w).head? = some t := mine
    show (World.live w').head? = some t
    rwa [same]
  · cases r with
    | ok a => exact owed
    | error e => exact owed

/-- The statements that ask for something. -/
def Asks : Statement → Prop
  | .selectProtected _ | .selectSender _ | .resolveChannels _ | .validateTarget _ | .selectStill => True
  | _ => False

theorem answer_asks {q : Statement} {c : Choice} {r : Except ExecutionError q.Answer} {w w' : World}
    (asks : Asks q) (answered : answer t q c w = some (r, w')) : w' = w := by
  cases q <;> first | exact asks.elim | skip
  all_goals
    cases c <;> first
      | exact (Prod.mk.inj (Option.some.inj answered)).2.symm
      | cases answered

theorem asks {q : Statement} (h : Asks q) :
    once.Does t (knows P) (run q) (fun _ => knows P) fun _ => knows P := by
  refine states fun w inv _ hw c r w' _ answered => ?_
  obtain rfl := answer_asks h answered
  exact ⟨rfl, inv, by cases r <;> exact hw⟩

end Statements

section Code

variable {t : ℕ} {delivery : Delivery} {job : ActionRow} {senderKey : String}

/-- No response waits to be recorded. -/
def Quiet (w : World) : Prop := w.answered = false

/-- The row of an open job, on which `outcome` may be recorded. -/
structure Recordable (outcome : UnsubOutcome) (w : World) : Prop where
  opened : w.terminal = false
  found : ∃ row, w.row = some row
  describes : w.posts ≠ [] → Describes w.lastResponse outcome

theorem recordOutcome_does (record : OutcomeRecord) :
    once.Does t (knows (Recordable record.outcome)) (recordOutcome job senderKey record)
      (fun _ => knows Quiet) fun _ => knows Quiet := by
  refine Discipline.Does.bind (B := fun _ => knows Quiet) (states ?_) fun _ =>
    Discipline.Does.done fun _ _ h => h
  intro w inv _ ⟨opened, ⟨row, found⟩, describes⟩ c r w' ok answered
  obtain ⟨inv', quiet⟩ := inv.recordOutcome opened found job.id describes
  cases c with
  | done | lost =>
    obtain ⟨rfl, rfl⟩ := Prod.mk.inj (Option.some.inj answered)
    exact ⟨rfl, inv', quiet⟩
  | fails =>
    obtain ⟨rfl, rfl⟩ := Prod.mk.inj (Option.some.inj answered)
    exact ⟨rfl, inv, ok⟩
  | _ => cases answered

/-- Before the first POST. -/
structure Refusable (w : World) : Prop where
  found : ∃ row, w.row = some row
  fresh : w.posts = []
  quiet : w.answered = false

theorem refused {w w' : World} {errorCode : String} {c : Choice} {r : Except ExecutionError Unit}
    (inv : Inv w) (h : Refusable w) (answered : write w (w.refuse errorCode) c = some (r, w')) :
    w'.live = w.live ∧ Inv w' ∧ Quiet w' := by
  obtain ⟨row, found⟩ := h.found
  obtain ⟨inv', quiet⟩ := inv.refuse found h.fresh errorCode
  cases c with
  | done | lost =>
    obtain ⟨rfl, rfl⟩ := Prod.mk.inj (Option.some.inj answered)
    exact ⟨rfl, inv', quiet⟩
  | fails =>
    obtain ⟨rfl, rfl⟩ := Prod.mk.inj (Option.some.inj answered)
    exact ⟨rfl, inv, h.quiet⟩
  | _ => cases answered

theorem recordSendDisabled_does : once.Does t (knows Refusable)
    (recordSendDisabled job senderKey) (fun _ => knows Quiet) fun _ => knows Quiet := by
  refine Discipline.Does.bind (B := fun _ => knows Quiet) (states ?_) fun _ =>
    Discipline.Does.done fun _ _ h => h
  intro w inv _ h c r w' _ answered
  obtain ⟨live, inv', quiet⟩ := refused inv h answered
  exact ⟨live, inv', by cases r <;> exact quiet⟩

theorem recordSenderProtected_does : once.Does t (knows Refusable)
    (recordSenderProtected job senderKey) (fun _ => knows Quiet) fun _ => knows Quiet := by
  refine Discipline.Does.bind (B := fun _ => knows Quiet) (states ?_) fun _ =>
    Discipline.Does.done fun _ _ h => h
  intro w inv _ h c r w' _ answered
  obtain ⟨live, inv', quiet⟩ := refused inv h answered
  exact ⟨live, inv', by cases r <;> exact quiet⟩

/-- A delivery that has found the job open, of a sender. -/
structure Ready (w : World) : Prop where
  opened : w.terminal = false
  quiet : w.answered = false
  room : w.posts.length < unsubMaxAttempts
  found : ∃ row, w.row = some row ∧ row.selector.senderKey.isSome = true

/-- The row says that a POST may be on the wire. -/
structure Marked (w : World) : Prop extends Ready w where
  executing : ∀ row ∈ w.row, row.status = .executing

theorem Ready.recordable {w : World} (h : Ready w) (errorCode : String) :
    Recordable (refusal errorCode).outcome w := by
  obtain ⟨row, found, -⟩ := h.found
  have last : w.lastResponse = none := by
    have quiet := h.quiet
    rw [answered_of_open h.opened] at quiet
    simpa using quiet
  exact ⟨h.opened, ⟨row, found⟩, fun _ => last ▸ rfl⟩

theorem response_does (url : String) (pin : SsrfGuard.Pin) :
    once.Does t (knows Marked) (response delivery url pin)
      (fun a => knows fun w => w.terminal = false ∧ (∃ row, w.row = some row) ∧ w.lastResponse = a)
      fun _ => knows Quiet := by
  have unanswered {w : World} (h : w.terminal = false ∧ (∃ row, w.row = some row) ∧
      w.lastResponse = none) : Quiet w := by
    rw [Quiet, answered_of_open h.1, h.2.2]
    rfl
  refine Discipline.Does.tryCatch (F := fun _ => knows fun w => w.terminal = false ∧
    (∃ row, w.row = some row) ∧ w.lastResponse = none) ?_ fun _ => ?_
  · refine Discipline.Does.bind (B := fun status => knows fun w => w.terminal = false ∧
      (∃ row, w.row = some row) ∧ w.lastResponse = some status) ?_ fun _ =>
        Discipline.Does.done fun _ _ h => h
    refine Discipline.Does.bind (B := fun _ => knows fun w => w.terminal = false ∧
      (∃ row, w.row = some row) ∧ w.lastResponse = none ∧ w.posts ≠ []) (states ?_) fun _ =>
        states ?_
    · intro w inv _ h c r w' _ answered
      obtain ⟨row, found, key⟩ := h.found
      obtain ⟨inv', quiet⟩ := inv.send h.opened h.quiet found (h.executing row found) key h.room
      cases c with
      | done =>
        obtain ⟨rfl, rfl⟩ := Prod.mk.inj (Option.some.inj answered)
        exact ⟨rfl, inv', h.opened, ⟨row, found⟩, by simp [World.send, World.lastResponse],
          by simp [World.send]⟩
      | _ => cases answered
    · intro w inv live ⟨opened, found, last, sent⟩ c r w' _ answered
      cases c with
      | status code =>
        obtain ⟨rfl, rfl⟩ := Prod.mk.inj (Option.some.inj answered)
        obtain ⟨inv', received⟩ := inv.receive opened live sent code
        exact ⟨rfl, inv', opened, found, received⟩
      | unreachable =>
        obtain ⟨rfl, rfl⟩ := Prod.mk.inj (Option.some.inj answered)
        exact ⟨rfl, inv, opened, found, last⟩
      | _ => cases answered
  · split_ifs
    · exact Discipline.Does.failed fun _ _ h => unanswered h
    · exact Discipline.Does.done fun _ _ h => h

theorem request_does (url : String) (pin : SsrfGuard.Pin) (mailto : Bool) :
    once.Does t (knows Marked) (request delivery job senderKey url pin mailto)
      (fun _ => knows Quiet) fun _ => knows Quiet := by
  refine (response_does url pin).bind fun a => ?_
  cases a with
  | none =>
    refine (recordOutcome_does _).pre fun w _ ⟨opened, found, last⟩ => ⟨opened, found, fun _ => ?_⟩
    exact last ▸ rfl
  | some status =>
    refine (recordOutcome_does _).pre fun w _ ⟨opened, found, last⟩ => ⟨opened, found, fun _ => ?_⟩
    rw [last]
    exact describes_recordOf status mailto

/-- An open job whose row, where protection is checked again, has not sent a POST. -/
structure Going (recheck : Bool) (w : World) : Prop extends Ready w where
  fresh : recheck = true → w.posts = []

theorem Going.refusable {w : World} {recheck : Bool} (h : Going recheck w) (on : recheck = true) :
    Refusable w := by
  obtain ⟨row, found, -⟩ := h.found
  exact ⟨⟨row, found⟩, h.fresh on, h.quiet⟩

theorem recordRefusal_does {recheck : Bool} (errorCode : String) :
    once.Does t (knows (Going recheck)) (recordOutcome job senderKey (refusal errorCode))
      (fun _ => knows Quiet) fun _ => knows Quiet :=
  (recordOutcome_does _).pre fun _ _ h => h.toReady.recordable errorCode

theorem requestMarked_does (url : String) (pin : SsrfGuard.Pin) (mailto : Bool) :
    once.Does t (knows (Going (recheckProtected delivery job)))
      (requestMarked delivery job senderKey url pin mailto)
      (fun _ => knows Quiet) fun _ => knows Quiet := by
  refine Discipline.Does.bind (B := fun marked => knows fun w =>
    if marked = true then Marked w else Going (recheckProtected delivery job) w) (states ?_) ?_
  · intro w inv _ h c r w' ok answered
    obtain ⟨row, found, key⟩ := h.found
    obtain ⟨inv', opened, quiet⟩ := inv.markExecuting h.opened h.quiet found key
    cases c with
    | done =>
      rw [answer, found] at answered
      obtain ⟨rfl, rfl⟩ := Prod.mk.inj (Option.some.inj answered)
      refine ⟨rfl, inv', ⟨opened, quiet, h.room, _, Option.mem_map_of_mem _ found, key⟩, ?_⟩
      intro row' mem
      obtain ⟨_, -, rfl⟩ := Option.mem_map.mp mem
      rfl
    | flag b =>
      cases b with
      | false => cases answered
      | true =>
        simp only [answer] at answered
        split_ifs at answered
        obtain ⟨rfl, rfl⟩ := Prod.mk.inj (Option.some.inj answered)
        exact ⟨rfl, inv, h⟩
    | lost =>
      obtain ⟨rfl, rfl⟩ := Prod.mk.inj (Option.some.inj answered)
      exact ⟨rfl, inv', quiet⟩
    | fails =>
      obtain ⟨rfl, rfl⟩ := Prod.mk.inj (Option.some.inj answered)
      exact ⟨rfl, inv, h.quiet⟩
    | _ => cases answered
  · intro marked
    cases marked with
    | true => exact request_does url pin mailto
    | false =>
      have still : once.Does t (knows (Going (recheckProtected delivery job))) (run .selectStill)
          (fun _ => knows (Going (recheckProtected delivery job))) fun _ => knows Quiet :=
        (asks (q := .selectStill) trivial).fails fun _ _ _ h => h.quiet
      refine still.bind fun found => ?_
      split_ifs with refuse
      · have on : recheckProtected delivery job = true := (Bool.and_eq_true_iff.mp refuse).2
        exact recordSenderProtected_does.pre fun _ _ h => h.refusable on
      · exact Discipline.Does.failed fun _ _ h => h.quiet

theorem requestChecked_does (url : String) (mailto : Bool) :
    once.Does t (knows (Going (recheckProtected delivery job)))
      (requestChecked delivery job senderKey url mailto)
      (fun _ => knows Quiet) fun _ => knows Quiet := by
  have checks : once.Does t (knows (Going (recheckProtected delivery job)))
      (run (.validateTarget url)) (fun _ => knows (Going (recheckProtected delivery job)))
      fun _ => knows Quiet := (asks (q := .validateTarget url) trivial).fails fun _ _ _ h => h.quiet
  refine checks.bind fun checked => ?_
  cases checked with
  | error e => exact recordRefusal_does _
  | ok pin => exact requestMarked_does url pin mailto

theorem requestEnabled_does (url : String) (mailto : Bool) :
    once.Does t (knows (Going (recheckProtected delivery job)))
      (requestEnabled delivery job senderKey url mailto)
      (fun _ => knows Quiet) fun _ => knows Quiet := by
  refine Discipline.Does.bind (B := fun enabled => knows fun w =>
    Going (recheckProtected delivery job) w ∧ (enabled = false → w.posts = [])) (states ?_) ?_
  · intro w inv _ h c r w' ok answered
    cases c with
    | enabled b =>
      obtain ⟨rfl, rfl⟩ := Prod.mk.inj (Option.some.inj answered)
      refine ⟨rfl, inv, h, ?_⟩
      rintro rfl
      exact ok
    | _ => cases answered
  · intro enabled
    cases enabled with
    | true => exact (requestChecked_does url mailto).pre fun _ _ h => h.1
    | false =>
      refine recordSendDisabled_does.pre fun w _ ⟨h, fresh⟩ => ?_
      obtain ⟨row, found, -⟩ := h.found
      exact ⟨⟨row, found⟩, fresh rfl, h.quiet⟩

theorem requestOneClick_does : once.Does t (knows (Going (recheckProtected delivery job)))
    (requestOneClick delivery job senderKey) (fun _ => knows Quiet) fun _ => knows Quiet := by
  have selects : once.Does t (knows (Going (recheckProtected delivery job)))
      (run (.selectSender senderKey)) (fun _ => knows (Going (recheckProtected delivery job)))
      fun _ => knows Quiet := (asks (q := .selectSender senderKey) trivial).fails fun _ _ _ h => h.quiet
  have resolves : once.Does t (knows (Going (recheckProtected delivery job)))
      (run (.resolveChannels senderKey)) (fun _ => knows (Going (recheckProtected delivery job)))
      fun _ => knows Quiet := (asks (q := .resolveChannels senderKey) trivial).fails fun _ _ _ h => h.quiet
  refine selects.bind fun sender => ?_
  cases sender with
  | none => exact recordRefusal_does _
  | some sender =>
    dsimp only
    split_ifs
    · exact recordRefusal_does _
    · refine resolves.bind fun channels => ?_
      dsimp only
      split_ifs
      · exact requestEnabled_does _ _
      · exact recordRefusal_does _

theorem execute_does : once.Does t (knows (Going (recheckProtected delivery job)))
    (execute delivery job senderKey) (fun _ => knows Quiet) fun _ => knows Quiet := by
  have checks : once.Does t (knows (Going (recheckProtected delivery job)))
      (isProtected delivery job senderKey)
      (fun found => knows fun w => Going (recheckProtected delivery job) w ∧
        (found = true → recheckProtected delivery job = true)) fun _ => knows Quiet := by
    unfold isProtected
    split_ifs with recheck
    · exact (asks (q := .selectProtected senderKey) trivial).consequence (fun _ _ h => h)
        (fun _ _ _ h => ⟨h, fun _ => recheck⟩) fun _ _ _ h => h.quiet
    · exact Discipline.Does.done fun _ _ h => ⟨h, nofun⟩
  refine checks.bind fun found => ?_
  cases found with
  | true => exact recordSenderProtected_does.pre fun _ _ ⟨h, on⟩ => h.refusable (on rfl)
  | false => exact requestOneClick_does.pre fun _ _ h => h.1

/-- What a delivery starts from. -/
structure Begun (w : World) : Prop where
  quiet : w.answered = false
  room : w.terminal = true ∨ w.posts.length < unsubMaxAttempts

theorem selectJob_does {P : World → Prop} :
    once.Does t (knows P) (run .selectJob) (fun job => knows fun w => P w ∧ w.row = job)
      fun _ => knows P := by
  refine states fun w inv _ h c r w' _ answered => ?_
  cases c with
  | done =>
    obtain ⟨rfl, rfl⟩ := Prod.mk.inj (Option.some.inj answered)
    exact ⟨rfl, inv, h, rfl⟩
  | lost | fails =>
    obtain ⟨rfl, rfl⟩ := Prod.mk.inj (Option.some.inj answered)
    exact ⟨rfl, inv, h⟩
  | _ => cases answered

/-- A row that is neither `executing` nor final has sent nothing. -/
theorem Begun.going {w : World} (inv : Inv w) (h : Begun w) (found : w.row = some job)
    (waits : JobStatus.terminal job.status = false) (key : job.selector.senderKey.isSome = true) :
    Going (recheckProtected delivery job) w := by
  have opened : w.terminal = false := by simpa [World.terminal, found] using waits
  refine ⟨⟨opened, h.quiet, h.room.resolve_left (by simp [opened]), job, found, key⟩, ?_⟩
  intro recheck
  by_contra posted
  obtain ⟨row, same, queued, -⟩ := inv.posted posted
  obtain rfl := Option.some.inj (found.symm.trans same)
  unfold recheckProtected at recheck
  cases status : job.status <;> simp_all [JobStatus.terminal]

theorem processJob_does : once.Does t (knows Begun) (processJob delivery)
    (fun _ => knows Quiet) fun _ => knows Quiet := by
  refine (selectJob_does.fails fun _ _ _ h => h.quiet).bind fun found => ?_
  cases found with
  | none => exact Discipline.Does.failed fun _ _ h => h.1.quiet
  | some job =>
    dsimp only
    split_ifs with final
    · exact Discipline.Does.done fun _ _ h => h.1.quiet
    · split
      · next selector =>
        refine execute_does.pre fun w inv ⟨h, found⟩ => h.going inv found (by simpa using final) ?_
        simp [selector, Selector.senderKey]
      · exact Discipline.Does.failed fun _ _ h => h.1.quiet

theorem onTerminalFailure_does (e : ExecutionError) : once.Does t (knows Quiet)
    (onTerminalFailure e) (fun _ => knows Quiet) fun _ => knows Quiet := by
  refine Discipline.Does.tryCatch (F := fun _ => knows Quiet) ?_ fun _ =>
    Discipline.Does.done fun _ _ h => h
  refine selectJob_does.bind fun job => states fun w inv _ ⟨quiet, found⟩ c r w' ok answered => ?_
  have recorded : Inv (w.recordTerminalFailure e.name (job.any (·.selector.senderKey.isSome))) ∧
      (w.recordTerminalFailure e.name (job.any (·.selector.senderKey.isSome))).answered = false := by
    cases ends : w.terminal with
    | true => exact inv.recordAgain ends e.name _
    | false =>
      cases job with
      | none =>
        rw [Option.any_none, recordTerminalFailure_none found]
        exact ⟨inv, quiet⟩
      | some row => exact inv.recordFailed ends found quiet e.name
  cases c with
  | done | lost =>
    obtain ⟨rfl, rfl⟩ := Prod.mk.inj (Option.some.inj answered)
    refine ⟨?_, recorded⟩
    unfold World.recordTerminalFailure
    split_ifs <;> rfl
  | fails =>
    obtain ⟨rfl, rfl⟩ := Prod.mk.inj (Option.some.inj answered)
    exact ⟨rfl, inv, quiet⟩
  | _ => cases answered

theorem deliver_does : once.Does t (knows Begun) (deliver delivery)
    (fun _ => knows Quiet) fun _ => knows Quiet := by
  refine processJob_does.tryCatch fun e => ?_
  refine Discipline.Does.bind (B := fun _ => knows Quiet) ?_ fun _ =>
    Discipline.Does.failed fun _ _ h => h
  exact Discipline.Does.when (fun _ => onTerminalFailure_does e) fun _ _ _ h => h

end Code

/-! ## The whole job -/

theorem Inv.withLive {w : World} (inv : Inv w) {live : List ℕ} (alone : live.length ≤ 1)
    (quiet : live = [] → w.answered = false) : Inv { w with live := live } :=
  ⟨alone, quiet, inv.posted, ⟨inv.asks.noFurther, inv.asks.budget, inv.asks.described⟩, inv.opened⟩

/-- The only delivery under way ends. -/
theorem erase_owner {w : World} {t : ℕ} (inv : Inv w) (mine : (World.live w).head? = some t) :
    (World.live w).erase t = [] := by
  obtain ⟨rest, live⟩ := List.head?_eq_some_iff.mp mine
  have short := inv.alone
  rw [live, List.length_cons] at short
  obtain rfl := List.length_eq_zero_iff.mp (show rest.length = 0 by omega)
  rw [live]
  simp

theorem erase_other {w : World} {t : ℕ} (inv : Inv w) (other : (World.live w).head? ≠ some t) :
    (World.live w).erase t = World.live w := by
  refine List.erase_of_not_mem fun mem => other ?_
  have short := inv.alone
  rcases live : World.live w with _ | ⟨x, rest⟩
  · rw [live] at mem
    cases mem
  · rw [live, List.length_cons] at short
    obtain rfl := List.length_eq_zero_iff.mp (show rest.length = 0 by omega)
    rw [live, List.mem_singleton] at mem
    rw [mem]
    rfl

theorem once_turns : once.Turns (fun _ => knows Begun) fun _ => knows Quiet where
  accept := by
    intro t delivery w w' inv accepted
    obtain ⟨⟨idle, room⟩, accepted⟩ := System.restrict_accept accepted
    obtain rfl := Option.some.inj accepted
    have inv : Inv w := inv
    refine ⟨inv.withLive ?_ nofun, trivial, ?_, rfl, inv.quiet idle, room⟩
    · rw [idle]
      exact Nat.le_refl 1
    · show (World.live w).head? = none
      rw [idle]
      rfl
  code t delivery := deliver_does
  settle := by
    intro t r w w' inv mine quiet settled
    obtain ⟨-, settled⟩ := System.restrict_settle settled
    obtain rfl := Option.some.inj settled
    have inv : Inv w := inv
    have ended : (World.live w).erase t = [] := erase_owner inv mine
    refine ⟨inv.withLive ?_ fun _ => quiet, trivial, ?_⟩
    · rw [ended]
      exact Nat.zero_le 1
    · show ((World.live w).erase t).head? = none
      rw [ended]
      rfl
  crash := by
    intro t w w' inv crashed
    obtain ⟨quiet, crashed⟩ := System.restrict_crash crashed
    obtain rfl := Option.some.inj crashed
    have inv : Inv w := inv
    by_cases mine : (World.live w).head? = some t
    · have ended := erase_owner inv mine
      have free : ((World.live w).erase t).head? = none := by rw [ended]; rfl
      refine ⟨inv.withLive (by simp [ended]) fun _ => quiet, trivial, ?_, fun _ => free,
        fun other => absurd mine other⟩
      exact fun held => Option.some_ne_none t (held.symm.trans free)
    · have same := erase_other inv mine
      have unchanged : ({ w with live := (World.live w).erase t } : World) = w := by
        rw [same]
        rfl
      have short : ((World.live w).erase t).length ≤ 1 := by
        rw [same]
        exact inv.alone
      refine ⟨inv.withLive short fun _ => quiet, trivial, ?_, fun held => absurd held mine,
        fun _ => unchanged⟩
      show ((World.live w).erase t).head? ≠ some t
      rwa [same]
  disturb := by
    intro e
    nomatch e

/-- In every run whose steps are all permitted, the job stops at the first response, sends no more
than two POSTs, and is recorded as its last POST ended. -/
theorem asks_once (w : World) (recorded : w.Recorded) (c : Config executing)
    (run : RunWhere Permits (Config.idle w) c) : World.AsksOnce c.world := by
  have inv : Inv w := by
    refine ⟨by simp [recorded.live], fun _ => ?_, fun posted => absurd recorded.posts posted, ?_,
      fun _ => ⟨recorded.activity, recorded.policy⟩⟩
    · simp [World.answered, World.lastResponse, recorded.posts]
    · refine ⟨?_, ?_, fun _ posted => absurd recorded.posts posted⟩
      · simp [recorded.posts]
      · simp [recorded.posts]
  have free : once.owner w = none := by
    show (World.live w).head? = none
    rw [recorded.live]
    rfl
  exact (once_turns.inv inv free run.restrict : Inv c.world).asks

section Runs

/-- A queued unsubscribe of one sender, whose intent is recorded. -/
def queuedJob : World where
  row := some ⟨1, 1, .unsubscribe, .forward, .sender "s" "k", [], 1, 0, .queued, "unsubexec-1", none,
    none, none, none, .inboxOnly⟩
  policy := some (some .requested)
  activity := []
  outbox := []
  posts := []
  live := []

theorem queuedJob_recorded : queuedJob.Recorded :=
  ⟨rfl, rfl, rfl, fun _ same => .inl (by rw [← Option.some.inj same]; rfl)⟩

def url : String := "https://list.example/u"

/-- The moves of a delivery from its start to the response of its POST. -/
def posting (t attempt : ℕ) (recheck : Bool) (response : Choice) : List (Move executing) :=
  .start t ⟨false, attempt⟩ :: .reply t .done :: (if recheck then [.reply t (.flag false)] else []) ++
    [.reply t (.sender (some ⟨some .oneClick, some url⟩)), .reply t (.channels ⟨none, none⟩),
      .reply t (.enabled true), .reply t (.target (.ok ⟨"192.0.2.1".toList, 4⟩)), .reply t .done,
      .reply t .done, .reply t response]

/-- The network fails, and the retry is answered and recorded. -/
def retried : List (Move executing) :=
  posting 0 1 true .unreachable ++ [.finish 0] ++ posting 1 2 false (.status 200) ++
    [.reply 1 .done, .finish 1]

theorem asks_once_retry : ∃ c : Config executing,
    (Config.idle (M := executing) queuedJob).runIf Permits retried = some c ∧
    World.AsksOnce c.world ∧ c.world.posts = [none, some 200] ∧ c.world.terminal = true := by
  have runs : ((Config.idle (M := executing) queuedJob).runIf Permits retried).any (fun c => decide
      (c.world.posts = [none, some 200] ∧ c.world.terminal = true)) = true := by decide +kernel
  obtain ⟨c, ran, shape⟩ := (Option.any_eq_true _ _).mp runs
  exact ⟨c, ran, asks_once queuedJob queuedJob_recorded c (runWhere_of_runIf ran),
    of_decide_eq_true shape⟩

/-- The endpoint answers, the terminal transaction fails, and the retry asks the endpoint again. -/
theorem answered_twice : ¬∀ c : Config executing, Reaches (Config.idle queuedJob) c →
    World.AsksOnce c.world := by
  intro asks
  obtain ⟨c, run, twice⟩ := exists_reaches (c := (Config.idle queuedJob : Config executing))
    (l := posting 0 1 true (.status 200) ++ [.reply 0 .fails, .finish 0] ++
      posting 1 2 false (.status 200))
    (p := fun c => decide (c.world.posts = [some 200, some 200])) (by decide +kernel)
  have posts : c.world.posts = [some 200, some 200] := of_decide_eq_true twice
  have once := (asks c run).noFurther (some 200) (by rw [posts]; decide)
  cases once

end Runs

end DeclutrMail.Unsubscribe.Execution
