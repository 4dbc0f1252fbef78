import DeclutrMail.Billing.System

/-!
# The steps of the billing system

Every run of the system is a sequence of commits (`commits_of_runWhere`), so a fact about all
runs is a fact about one commit. `Commit.stays`, `Commit.grants_cases` and `Commit.rows` say
what a commit does to the ledger, to grants and to rows of `subscriptions`.
-/

namespace DeclutrMail.Billing

open Interleaving

/-! ## Rows of the ledger stay -/

section Ledger

variable {D : Deployment} {E : Task → Bool} {w w' : World} {k x : EventKey} {row : EventRow}

/-- A row that is there keeps everything but its stamp. -/
def EventRow.Stays (row row' : EventRow) : Prop := row' = row ∨ row' = { row with processed := true }

theorem EventRow.Stays.processed {row' : EventRow} (h : row.Stays row') :
    row.Stays { row' with processed := true } := by
  rcases h with rfl | rfl <;> exact .inr rfl

theorem stays_stamp (there : w.events.get x = some row) :
    ∃ row', (w.stamp k).events.get x = some row' ∧ row.Stays row' := by
  rw [World.get_stamp]
  split_ifs with same
  · rw [same, there]
    exact ⟨_, rfl, .inr rfl⟩
  · exact ⟨row, there, .inl rfl⟩

theorem stays_insertEvent {new : ℕ → EventRow} (there : w.events.get x = some row) :
    (w.insertEvent k new).2.events.get x = some row := by
  rw [World.get_insertEvent]
  split_ifs with same
  · rw [same, there]
    rfl
  · exact there

theorem stays_applySubscription {sub : NormalizedSubscription}
    {restoration : Option UpgradeRefundRestoration} {evidence : Option IntentEvidence}
    {workspaceId : WorkspaceId} {entry : CatalogEntry} {outcome : SnapshotOutcome}
    (did : w.applySubscription D k sub restoration evidence workspaceId entry = .ok (outcome, w'))
    (there : w.events.get x = some row) : ∃ row', w'.events.get x = some row' ∧ row.Stays row' := by
  rcases World.applySubscription_cases did with ⟨-, rfl, -⟩ | ⟨-, -, written⟩
  · exact stays_stamp there
  · rcases World.writeSnapshot_cases written with ⟨-, rfl⟩ | ⟨-, events⟩
    · exact ⟨row, there, .inl rfl⟩
    · rw [events]
      exact stays_stamp there

/-- Rows of the ledger are never deleted, and only stamped. -/
theorem Commit.stays (h : Commit D E w w') (there : w.events.get x = some row) :
    ∃ row', w'.events.get x = some row' ∧ row.Stays row' := by
  have kept : ∃ row', w.events.get x = some row' ∧ row.Stays row' := ⟨row, there, .inl rfl⟩
  cases h with
  | rest | wait | grant => exact kept
  | customer =>
    rw [World.events_addCustomer]
    exact kept
  | insert => exact ⟨row, stays_insertEvent there, .inl rfl⟩
  | mark => exact stays_stamp there
  | classify => exact stays_stamp (stays_insertEvent there)
  | snapshot _ _ _ _ did => exact stays_applySubscription did there
  | schedule =>
    rw [World.events_applyScheduledCancellation]
    split_ifs
    · exact stays_stamp there
    · exact kept
  | settle =>
    rw [World.events_applyRefundSettlement]
    exact stays_stamp there
  | revoke =>
    rw [World.events_applyRevokedCancellation]
    exact stays_stamp there
  | project =>
    rw [World.events_projectPass]
    exact stays_stamp there
  | revokePass =>
    rw [World.events_applyPassRevoked]
    split_ifs
    · exact stays_stamp there
    · exact kept

theorem Commit.recorded (h : Commit D E w w') (there : w.Recorded x) : w'.Recorded x := by
  obtain ⟨row, there⟩ := there
  obtain ⟨row', there', -⟩ := h.stays there
  exact ⟨row', there'⟩

end Ledger

/-! ## Grants stay -/

/-- Grants are never deleted; they are added by purchases and revoked. -/
theorem Commit.grants_cases {D : Deployment} {E : Task → Bool} {w w' : World}
    (h : Commit D E w w') : w'.db.grants = w.db.grants ∨
      (∃ provider e payment workspaceId txn, Handled E provider e ∧ e.body = .payment payment ∧
        payment.oneTime = true ∧ payment.providerTransactionId = some txn ∧
        w'.db.grants = (grantPassFromTransaction w.db workspaceId txn w.now).2.grants) ∨
      ∃ provider e txn reason, Handled E provider e ∧ e.body = .passRevoked txn reason ∧
        w'.db.grants = w.db.grants.map (·.revoke txn w.now) := by
  cases h with
  | rest | wait => exact .inl rfl
  | customer => exact .inl (by rw [World.db_addCustomer])
  | insert => exact .inl (by rw [World.db_insertEvent])
  | mark => exact .inl (by rw [World.db_stamp])
  | classify => exact .inl (by rw [World.db_classify])
  | snapshot _ _ _ _ did => exact .inl (grants_applySubscription did)
  | schedule => exact .inl grants_applyScheduledCancellation
  | settle => exact .inl grants_applyRefundSettlement
  | revoke => exact .inl grants_applyRevokedCancellation
  | grant h body oneTime _ purchase =>
    exact .inr (.inl ⟨_, _, _, _, _, h, body, oneTime, purchase, rfl⟩)
  | project => exact .inl (grants_projectPass _)
  | revokePass h _ body =>
    rw [grants_applyPassRevoked]
    split_ifs
    · exact .inr (.inr ⟨_, _, _, _, h, body, rfl⟩)
    · exact .inl rfl

theorem granted_grantPass {db : Db} {w : WorkspaceId} {txn x : String} {now : ℤ}
    (h : ∃ g ∈ db.grants, g.providerTransactionId = some x) :
    ∃ g ∈ (grantPassFromTransaction db w txn now).2.grants, g.providerTransactionId = some x := by
  obtain ⟨g, mem, purchase⟩ := h
  unfold grantPassFromTransaction
  split
  · exact ⟨g, mem, purchase⟩
  · dsimp only
    split
    · exact ⟨g, mem, purchase⟩
    · exact ⟨g, List.mem_append_left _ mem, purchase⟩

theorem transaction_revoke (g : Grant) (txn : String) (now : ℤ) :
    (g.revoke txn now).providerTransactionId = g.providerTransactionId := by
  unfold Grant.revoke
  split_ifs <;> rfl

theorem Commit.granted {D : Deployment} {E : Task → Bool} {w w' : World} {txn : String}
    (h : Commit D E w w') (there : w.Granted txn) : w'.Granted txn := by
  unfold World.Granted
  rcases h.grants_cases with same | ⟨_, _, _, _, _, -, -, -, -, same⟩ | ⟨_, _, x, _, -, -, same⟩
  · rwa [same]
  · rw [same]
    exact granted_grantPass there
  · rw [same]
    obtain ⟨g, mem, purchase⟩ := there
    exact ⟨_, List.mem_map_of_mem mem, (transaction_revoke g x w.now).trans purchase⟩

/-- A purchase that has an owner leaves a grant. -/
theorem granted_of_grantPass {w : World} {workspaceId : WorkspaceId} {txn : String}
    (owned : (w.grantPass workspaceId txn).1 ≠ .noEmail) :
    (w.grantPass workspaceId txn).2.Granted txn := by
  change (grantPassFromTransaction w.db workspaceId txn w.now).1 ≠ .noEmail at owned
  change ∃ g ∈ (grantPassFromTransaction w.db workspaceId txn w.now).2.grants, _
  unfold grantPassFromTransaction at owned ⊢
  split
  next none => simp [none] at owned
  · dsimp only
    split
    next existing found =>
      have purchase := List.find?_some found
      exact ⟨existing, List.mem_of_find?_eq_some found, by simpa using purchase⟩
    · exact ⟨_, List.mem_append_right _ (List.mem_singleton.mpr rfl), rfl⟩

/-! ## The code makes no other steps -/

section Code

variable {D : Deployment} {E : Task → Bool} {t : ℕ} {α β : Type}

/-- Facts that no step takes away. -/
abbrev Lasting (D : Deployment) (E : Task → Bool) := Assertion (Commit D E)

def anything : Lasting D E := .fact True

def recorded (k : EventKey) : Lasting D E := ⟨fun w => w.Recorded k, fun _ _ h c => c.recorded h⟩

def granted (txn : String) : Lasting D E := ⟨fun w => w.Granted txn, fun _ _ h c => c.granted h⟩

/-- `p` makes only steps of `Commit`, and ends in `B` if it returns. -/
def Commits (D : Deployment) (E : Task → Bool) (t : ℕ) (A : Lasting D E) (p : BillingProgram α)
    (B : α → Lasting D E) : Prop :=
  @Triple BillingSignature (billing D E) (fun _ => Commit D E) t α (fun _ => Commit D E) A p B
    fun _ => anything

namespace Commits

variable {A A' : Lasting D E} {B B' : α → Lasting D E} {C : β → Lasting D E}

theorem bind {p : BillingProgram α} {f : α → BillingProgram β} (first : Commits D E t A p B)
    (rest : ∀ a, Commits D E t (B a) (f a) C) : Commits D E t A (p >>= f) C :=
  Triple.bind first rest

theorem done {a : α} (le : ∀ w, A w → B a w) : Commits D E t A (.ret a) B := Triple.done le

theorem failed {e : BillingError} : Commits D E t A (.raise e : BillingProgram α) B :=
  Triple.failed fun _ _ => trivial

theorem pre {p : BillingProgram α} (h : Commits D E t A' p B) (le : ∀ w, A w → A' w) :
    Commits D E t A p B := Triple.pre h le

theorem post {p : BillingProgram α} (h : Commits D E t A p B') (le : ∀ a w, B' a w → B a w) :
    Commits D E t A p B := Triple.consequence h (fun _ h => h) le fun _ _ h => h

theorem map {f : α → β} {p : BillingProgram α} (h : Commits D E t A p fun _ => A) :
    Commits D E t A (f <$> p) fun _ => A :=
  bind (f := fun a => .ret (f a)) h fun _ => done fun _ h => h

/-- One request. -/
theorem ask {q : Request} {B : q.Answer → Lasting D E}
    (h : ∀ w, A w → ∀ f a w', effect D f w q = some (.ok (a, w')) → Commit D E w w' ∧ B a w') :
    Commits D E t A (ask q) B := by
  refine Triple.perform fun w hw ch r w' answered => ?_
  change answer D q ch w = some (r, w') at answered
  cases ch with
  | fail =>
    obtain ⟨rfl, rfl⟩ := Prod.mk.inj (Option.some.inj answered)
    exact ⟨.rest w, trivial⟩
  | go f =>
    obtain ⟨r', did, same⟩ := Option.map_eq_some_iff.mp answered
    cases r' with
    | error e =>
      obtain ⟨rfl, rfl⟩ := Prod.mk.inj same
      exact ⟨.rest w, trivial⟩
    | ok out =>
      obtain ⟨rfl, rfl⟩ := Prod.mk.inj same
      exact h w hw f out.1 out.2 did
  | lost f =>
    obtain ⟨r', did, same⟩ := Option.map_eq_some_iff.mp answered
    cases r' with
    | error e =>
      obtain ⟨rfl, rfl⟩ := Prod.mk.inj same
      exact ⟨.rest w, trivial⟩
    | ok out =>
      obtain ⟨rfl, rfl⟩ := Prod.mk.inj same
      exact ⟨(h w hw f out.1 out.2 did).1, trivial⟩

/-- One request that cannot fail by itself. -/
theorem does {q : Request} {B : q.Answer → Lasting D E} {out : Findings → World → q.Answer × World}
    (ran : ∀ f w, effect D f w q = some (.ok (out f w)))
    (h : ∀ w, A w → ∀ f, Commit D E w (out f w).2 ∧ B (out f w).1 (out f w).2) :
    Commits D E t A (Billing.ask q) B := by
  refine ask fun w hw f a w' did => ?_
  have same : out f w = (a, w') := by simpa [ran] using did
  have step := h w hw f
  rw [same] at step
  exact step

/-- A request whose answer is not used later. -/
theorem acts {q : Request} {out : Findings → World → q.Answer × World}
    (ran : ∀ f w, effect D f w q = some (.ok (out f w)))
    (h : ∀ w, A w → ∀ f, Commit D E w (out f w).2) :
    Commits D E t A (Billing.ask q) fun _ => A :=
  does ran fun w hw f => ⟨h w hw f, A.stable hw (h w hw f)⟩

/-- A request that only reads. -/
theorem reads {q : Request} {out : Findings → World → q.Answer}
    (ran : ∀ f w, effect D f w q = some (.ok (out f w, w))) :
    Commits D E t A (Billing.ask q) fun _ => A :=
  acts ran fun w _ _ => .rest w

theorem tryCatch {p : BillingProgram α} {handler : BillingError → BillingProgram α}
    (first : Commits D E t A p B) (rest : ∀ e, Commits D E t anything (handler e) B) :
    Commits D E t A (MonadExcept.tryCatch p handler) B := Triple.tryCatch first rest

end Commits

/-! ### The webhook -/

variable {A : Lasting D E} {provider : BillingProviderId} {e : BillingEvent}

theorem commits_receive (h : Handled E provider e) :
    Commits D E t A (receive (provider, e.providerEventId) e)
      fun goesOn => if goesOn then A.and (recorded (provider, e.providerEventId)) else A := by
  have there : ∀ w : World, (w.insertEvent (provider, e.providerEventId) e.row).2.Recorded
      (provider, e.providerEventId) := fun w => ⟨_, by rw [World.get_insertEvent, if_pos rfl]⟩
  refine Commits.bind (B := fun _ => A.and (recorded (provider, e.providerEventId)))
    (.does (fun _ _ => rfl) fun w hw _ => ?_) fun inserted => ?_
  · exact ⟨.insert w h, A.stable hw (.insert w h), there w⟩
  · split
    · exact .done fun _ => id
    · refine .bind (.reads fun _ _ => rfl) fun processed => ?_
      split
      · exact .done fun _ => id
      · exact .done fun _ hw => hw.1

theorem commits_resolveWorkspace (sub : NormalizedSubscription) :
    Commits D E t A (resolveWorkspace provider sub) fun _ => A := by
  have customer : Commits D E t A (customerWorkspace provider sub.providerCustomerId) fun _ => A := by
    cases sub.providerCustomerId with
    | none => exact .done fun _ => id
    | some customer => exact .reads fun _ _ => rfl
  have attributed : Commits D E t A (attributedWorkspace sub.workspaceId) fun _ => A := by
    cases sub.workspaceId with
    | none => exact .done fun _ => id
    | some named =>
      simp only [attributedWorkspace]
      split_ifs
      · exact .reads fun _ _ => rfl
      · exact .done fun _ => id
  refine .bind (.reads fun _ _ => rfl) fun known => ?_
  split
  · exact .done fun _ => id
  · refine customer.bind fun found => ?_
    split
    · exact .done fun _ => id
    · exact attributed

theorem commits_admitEvent (sub : NormalizedSubscription) :
    Commits D E t A (admitEvent D provider sub) fun _ => A := by
  have binding : Commits D E t A (selectBinding provider sub) fun _ => A := by
    unfold selectBinding
    split
    · exact .reads fun _ _ => rfl
    · exact .done fun _ => id
  have attempts : ∀ found, Commits D E t A (hasAttempts found) fun _ => A := by
    intro found
    cases found with
    | none => exact .done fun _ => id
    | some w => exact .reads fun _ _ => rfl
  refine .bind (.reads fun _ _ => rfl) fun known => binding.bind fun bound => ?_
  split
  · refine (commits_resolveWorkspace sub).bind fun found => (attempts found).bind fun history => ?_
    split <;> exact .done fun _ => id
  · exact .done fun _ => id

theorem commits_fulfill (workspaceId : Option WorkspaceId) :
    Commits D E t A (fulfill workspaceId) fun _ => A := by
  cases workspaceId with
  | none => exact .done fun _ => id
  | some w => exact .reads fun _ _ => rfl

theorem commits_handleSubscription (h : Handled E provider e)
    (known : ∀ w, A w → w.Recorded (provider, e.providerEventId)) {sub : NormalizedSubscription}
    {restoration : Option UpgradeRefundRestoration} (body : e.body = .subscription sub restoration) :
    Commits D E t A (handleSubscription D (provider, e.providerEventId) sub restoration)
      fun _ => A := by
  have apply_ : Commits D E t A
      (applySubscription D (provider, e.providerEventId) sub restoration) fun _ => A := by
    refine (commits_admitEvent sub).bind fun found => ?_
    split
    · exact .done fun _ => id
    · split
      · exact .done fun _ => id
      next found _ entry priced =>
        have resolve : Commits D E t A (orResolve provider sub found) fun _ => A := by
          cases found with
          | none => exact commits_resolveWorkspace sub
          | some w => exact .done fun _ => id
        refine resolve.bind fun workspaceId => ?_
        split
        · exact .done fun _ => id
        · refine .bind (B := fun _ => A) (.ask fun w hw f outcome w' did => ?_) fun outcome => ?_
          · have step := Commit.snapshot h (known w hw) body priced (Option.some.inj did)
            exact ⟨step, A.stable hw step⟩
          · split <;> exact .done fun _ => id
  exact apply_.bind fun result => (commits_fulfill _).bind fun _ => .done fun _ => id

theorem commits_applyOneTimePayment (h : Handled E provider e)
    (known : ∀ w, A w → w.Recorded (provider, e.providerEventId)) {payment : Payment}
    (body : e.body = .payment payment) (oneTime : payment.oneTime = true) :
    Commits D E t A (applyOneTimePayment D (provider, e.providerEventId) payment) fun _ => A := by
  unfold applyOneTimePayment
  split
  · exact .done fun _ => id
  · split
    next workspaceId txn attributed purchase =>
      let owned : PassGrantResult → Lasting D E := fun result =>
        if result = .noEmail then A else A.and (granted txn)
      have purchased : Commits D E t A (ask (.grantPass workspaceId txn)) owned := by
        refine .does (fun _ _ => rfl) fun w hw _ => ?_
        have step := Commit.grant (D := D) (w := w) h body oneTime attributed purchase
        refine ⟨step, ?_⟩
        by_cases unowned : (w.grantPass workspaceId txn).1 = .noEmail
        · simp only [owned, unowned, if_true]
          exact A.stable hw step
        · simp only [owned, unowned, if_false]
          exact ⟨A.stable hw step, granted_of_grantPass unowned⟩
      refine purchased.bind fun result => ?_
      split
      · exact .done fun _ => id
      next unowned =>
        rw [show owned result = _ from if_neg unowned]
        refine .bind (.acts (fun _ _ => rfl) fun w hw _ => ?_) fun _ => .done fun _ hw => hw.1
        exact .project workspaceId h (known w hw.1) body oneTime purchase hw.2
    · exact .done fun _ => id

theorem commits_seedCustomer (customer : Option String) (workspaceId : Option WorkspaceId) :
    Commits D E t A (seedCustomer provider customer workspaceId) fun _ => A := by
  unfold seedCustomer
  split
  · refine .bind (.reads fun _ _ => rfl) fun found => ?_
    split
    · exact .acts (fun _ _ => rfl) fun w _ _ => .customer w _ _ _
    · exact .done fun _ => id
  · exact .done fun _ => id

theorem commits_handlePayment (h : Handled E provider e)
    (known : ∀ w, A w → w.Recorded (provider, e.providerEventId)) {payment : Payment}
    (body : e.body = .payment payment) :
    Commits D E t A (handlePayment D (provider, e.providerEventId) payment) fun _ => A := by
  have observe : Commits D E t A (observeUpgrade provider payment.providerSubscriptionId)
      fun _ => A := by
    unfold observeUpgrade
    split
    · split
      · exact .reads fun _ _ => rfl
      · exact .done fun _ => id
    · exact .done fun _ => id
  have apply_ : Commits D E t A (applyPayment D (provider, e.providerEventId) payment)
      fun _ => A := by
    unfold applyPayment
    split
    next oneTime => exact commits_applyOneTimePayment h known body oneTime
    next other =>
      refine (commits_seedCustomer _ _).bind fun _ => .bind
        (.acts (fun _ _ => rfl) fun w hw _ => ?_) fun _ => .done fun _ => id
      exact .mark h (known w hw) (.inr ⟨payment, body, Bool.eq_false_iff.mpr other⟩)
  refine observe.bind fun _ => apply_.bind fun result => ?_
  split
  · exact (commits_fulfill _).bind fun _ => .done fun _ => id
  · exact .done fun _ => id

theorem commits_handle (h : Handled E provider e)
    (known : ∀ w, A w → w.Recorded (provider, e.providerEventId)) :
    Commits D E t A (handle D (provider, e.providerEventId) e.body) fun _ => A := by
  cases body : e.body with
  | subscription sub restoration => exact commits_handleSubscription h known body
  | payment payment => exact commits_handlePayment h known body
  | passRevoked txn reason =>
    refine .bind (.acts (fun _ _ => rfl) fun w hw _ => .revokePass h (known w hw) body)
      fun known => ?_
    split <;> exact .done fun _ => id
  | cancellationScheduled sid reason reference =>
    refine .bind (.acts (fun _ _ => rfl) fun w hw _ => .schedule h (known w hw) body)
      fun known => ?_
    split <;> exact .done fun _ => id
  | cancellationRevoked sid reason reference =>
    refine .bind (.acts (fun _ _ => rfl) fun w hw _ => .revoke h (known w hw) body)
      fun known => ?_
    split <;> exact .done fun _ => id
  | refundSettled sid reference =>
    refine .bind (.acts (fun _ _ => rfl) fun w hw _ => .settle h (known w hw) body)
      fun known => ?_
    split <;> exact .done fun _ => id
  | ignored =>
    exact .bind (.acts (fun _ _ => rfl) fun w hw _ => .mark h (known w hw) (.inl body))
      fun _ => .done fun _ => id

theorem commits_processRestoration (h : Handled E provider e) (reviewed : e.reviewed provider = true)
    (sub : NormalizedSubscription) (confirmedAt adjustmentId intentId : String) :
    Commits D E t A (processRestoration D provider sub confirmedAt adjustmentId intentId)
      fun _ => A := by
  have restored := Handled.restored reviewed sub confirmedAt adjustmentId intentId h
  refine (commits_receive restored).bind fun goesOn => ?_
  cases goesOn with
  | false => exact .done fun _ => id
  | true =>
    exact (commits_handleSubscription (A := A.and _) restored (fun _ hw => hw.2) rfl).post
      fun _ _ hw => hw.1

theorem commits_reviewRefund (h : Handled E provider e)
    (known : ∀ w, A w → w.Recorded (provider, e.providerEventId)) :
    Commits D E t A (reviewRefund D (provider, e.providerEventId) e) fun _ => A := by
  unfold reviewRefund
  split
  · exact .done fun _ => id
  next reviewed =>
    replace reviewed : e.reviewed provider = true := by simpa using reviewed
    have classify : ∀ outcome : WebhookProcessOutcome, Commits D E t A (do
        ask (.classify (provider, e.providerEventId) e.body.providerSubscriptionId)
        return some outcome) fun _ => A := fun outcome =>
      .bind (.acts (fun _ _ => rfl) fun w hw _ => .classify h (known w hw) reviewed)
        fun _ => .done fun _ => id
    refine .bind (.reads fun _ _ => rfl) fun decision => ?_
    cases decision with
    | ordinary => exact .done fun _ => id
    | inert | hold => exact classify _
    | restored sub confirmedAt adjustmentId intentId =>
      refine .bind (B := fun _ => A) (.bind (commits_processRestoration h reviewed sub confirmedAt
        adjustmentId intentId) fun result => ?_) fun _ => classify _
      split
      · exact .failed
      · refine .bind (.reads fun _ _ => rfl) fun confirmed => ?_
        split
        · exact .done fun _ => id
        · exact .failed

/-- Every step of a delivery is one of `Commit`. -/
theorem commits_process (h : Handled E provider e) :
    Commits D E t A (process D provider e) fun _ => A := by
  have gate : ∀ C : Lasting D E, Commits D E t C (gatePayment provider e.body) fun _ => C := by
    intro C
    unfold gatePayment
    split
    · split
      · exact .reads fun _ _ => rfl
      · exact .done fun _ => id
    · exact .done fun _ => id
  refine (commits_receive h).bind fun goesOn => ?_
  cases goesOn with
  | false => exact .done fun _ => id
  | true =>
    refine (gate (A.and (recorded (provider, e.providerEventId)))).bind fun admitted => ?_
    have known : ∀ w, (A.and (recorded (provider, e.providerEventId))) w →
        w.Recorded (provider, e.providerEventId) := fun _ hw => hw.2
    split
    · exact .done fun _ hw => hw.1
    · refine (commits_reviewRefund h known).bind fun outcome => ?_
      split
      · exact .done fun _ hw => hw.1
      · exact (commits_handle h known).post fun _ _ hw => hw.1

/-! ### The verdict pass -/

variable {restoreEnabled : Bool}

theorem commits_throwIfVerdictStopped : Commits D E t A throwIfVerdictStopped fun _ => A := by
  refine .bind (.reads fun _ _ => rfl) fun stopped => ?_
  split
  · exact .failed
  · exact .done fun _ => id

/-- What was caught has made its steps. -/
theorem commits_caught {p : BillingProgram α} (h : Commits D E t anything p fun _ => anything) :
    Commits D E t anything (caught p) fun _ => anything := by
  refine .tryCatch (.map h) fun error => ?_
  split
  · exact .failed
  · refine .bind (.reads fun _ _ => rfl) fun stopped => ?_
    split
    · exact .failed
    · exact .done fun _ => id

theorem commits_projectUpgradeRefunds (admitted : E (.enforce restoreEnabled) = true) (sid : String)
    (facts : ProviderCancellationFacts) :
    Commits D E t A (projectUpgradeRefunds D restoreEnabled sid facts) fun _ => A := by
  have project : ∀ refunds, Commits D E t A (projectFacts D restoreEnabled sid refunds)
      fun _ => A := by
    intro refunds
    induction refunds with
    | nil => exact .done fun _ => id
    | cons fact refunds ih =>
      refine commits_throwIfVerdictStopped.bind fun _ => .bind (.reads fun _ _ => rfl)
        fun observedAt => (commits_process ?_).bind fun _ => ih
      exact .upgrade admitted sid fact observedAt
  refine commits_throwIfVerdictStopped.bind fun _ => .bind (B := fun _ => A) ?_
    fun _ => project facts.upgradeRefunds
  refine .bind (.reads fun _ _ => rfl) fun found => ?_
  split
  · exact .reads fun _ _ => rfl
  · exact .done fun _ => id

theorem commits_enforceUpgradeRefunds (admitted : E (.enforce restoreEnabled) = true) :
    Commits D E t anything (enforceUpgradeRefunds D restoreEnabled) fun _ => anything := by
  have row : ∀ id, Commits D E t anything (enforceUpgradeRow D restoreEnabled id)
      fun _ => anything := by
    intro id
    refine .bind (.reads fun _ _ => rfl) fun facts => commits_throwIfVerdictStopped.bind fun _ => ?_
    split
    · exact .done fun _ h => h
    · exact (commits_projectUpgradeRefunds admitted _ _).bind fun _ => .done fun _ h => h
  have rows : ∀ ids failures, Commits D E t anything
      (enforceUpgradeRows D restoreEnabled ids failures) fun _ => anything := by
    intro ids
    induction ids with
    | nil => exact fun _ => .done fun _ h => h
    | cons id ids ih =>
      intro failures
      refine commits_throwIfVerdictStopped.bind fun _ => ?_
      split
      · exact .done fun _ h => h
      · refine (commits_caught (row id)).bind fun outcome => ?_
        split <;> exact ih _
  exact commits_throwIfVerdictStopped.bind fun _ => .bind (.reads fun _ _ => rfl) fun ids => rows ids 0

theorem commits_readProvider (key : SubscriptionKey) :
    Commits D E t A (readProvider key) fun _ => A := by
  refine .bind (.reads fun _ _ => rfl) fun fetched => commits_throwIfVerdictStopped.bind fun _ => ?_
  split
  · split
    · exact .done fun _ => id
    · refine .bind (.reads fun _ _ => rfl) fun facts =>
        commits_throwIfVerdictStopped.bind fun _ => ?_
      split <;> exact .done fun _ => id
  · exact .done fun _ => id

theorem commits_stopRenewal (key : SubscriptionKey) (sub : NormalizedSubscription) :
    Commits D E t A (stopRenewal key sub) fun _ => A := by
  unfold stopRenewal
  split
  · exact .done fun _ => id
  · exact commits_throwIfVerdictStopped.bind fun _ => .bind (.reads fun _ _ => rfl)
      fun _ => .done fun _ => id

theorem commits_enforceRead (admitted : E (.enforce restoreEnabled) = true) (row : VerdictRow)
    (sub : NormalizedSubscription) (facts : ProviderCancellationFacts) (s : VerdictPass) :
    Commits D E t anything (enforceRead D restoreEnabled row sub facts s) fun _ => anything := by
  have project : Commits D E t anything (projectPaddle D restoreEnabled row.key facts)
      fun _ => anything := by
    unfold projectPaddle
    split
    · exact commits_projectUpgradeRefunds admitted _ _
    · exact .done fun _ h => h
  have lift : ∀ source, Commits D E t anything (liftRefutedVerdict D row.key source)
      fun _ => anything := fun source =>
    .bind (.reads fun _ _ => rfl) fun observedAt => commits_throwIfVerdictStopped.bind fun _ =>
      (commits_process (.refuted admitted row.key source observedAt)).bind fun _ =>
        .done fun _ h => h
  have settle : Commits D E t anything (projectRefundSettlement D row.key) fun _ => anything :=
    .bind (.reads fun _ _ => rfl) fun observedAt => commits_throwIfVerdictStopped.bind fun _ =>
      (commits_process (.settled admitted row.key observedAt)).bind fun _ => .done fun _ h => h
  have renewal := commits_caught (commits_stopRenewal (D := D) (E := E) (t := t) row.key sub)
  refine (commits_caught project).bind fun projected => ?_
  split
  · exact .done fun _ h => h
  · split
    · unfold watchCanceled
      split
      · refine renewal.bind fun sent => ?_
        split <;> exact .done fun _ h => h
      · exact .done fun _ h => h
    · split
      · refine renewal.bind fun sent => ?_
        split
        · exact .done fun _ h => h
        · dsimp only
          split
          · refine (commits_caught settle).bind fun settled => ?_
            split <;> exact .done fun _ h => h
          · exact .done fun _ h => h
      · unfold liftOrPass
        dsimp only
        split
        · refine (commits_caught (lift _)).bind fun lifted => ?_
          split <;> exact .done fun _ h => h
        · exact .done fun _ h => h

theorem commits_enforceRow (admitted : E (.enforce restoreEnabled) = true) (row : VerdictRow)
    (s : VerdictPass) :
    Commits D E t anything (enforceRow D restoreEnabled row s) fun _ => anything := by
  refine (commits_caught (commits_readProvider row.key)).bind fun reading => ?_
  split
  · exact .done fun _ h => h
  · exact .done fun _ h => h
  · exact .done fun _ h => h
  · exact .done fun _ h => h
  · exact commits_enforceRead admitted _ _ _ _

theorem commits_enforceLocalVerdicts (admitted : E (.enforce restoreEnabled) = true) :
    Commits D E t anything (enforceLocalVerdicts D restoreEnabled) fun _ => anything := by
  have rows : ∀ rows s, Commits D E t anything (enforceRows D restoreEnabled rows s)
      fun _ => anything := by
    intro rows
    induction rows with
    | nil => exact fun _ => .done fun _ h => h
    | cons row rows ih =>
      intro s
      refine commits_throwIfVerdictStopped.bind fun _ => ?_
      split
      · exact ih _
      · exact (commits_enforceRow admitted row s).bind fun s => ih s
  refine commits_throwIfVerdictStopped.bind fun _ =>
    (commits_enforceUpgradeRefunds admitted).bind fun _ => .bind (B := fun _ => anything)
      (.ask fun w _ f a w' did => ?_) fun found => rows found .start
  simp only [effect] at did
  split at did
  · obtain ⟨-, rfl⟩ : f.verdictRows = a ∧ w = w' := by simpa using did
    exact ⟨.rest w, trivial⟩
  · cases did

end Code

/-! ## Runs -/

section Runs

variable {D : Deployment} {E : Task → Bool} {ok : World → Move (billing D E) → Prop}

theorem verified (ok : World → Move (billing D E) → Prop) : Verified (billing D E) ok (fun _ => Commit D E) (fun _ => Commit D E)
    (fun _ => True) (fun _ _ => True) fun _ _ _ => True where
  guarantee_rely _ _ h := h
  guarantee_inv _ _ := trivial
  idle_stable _ _ _ _ _ := trivial
  start := by
    intro t k w w' _ _ accepted
    change (if E k then some w else none) = some w' at accepted
    by_cases admitted : E k = true
    case neg => simp [admitted] at accepted
    obtain rfl : w = w' := by simpa [admitted] using accepted
    refine ⟨.rest w, ?_⟩
    have code : Commits D E t anything (k.code D) fun _ => anything := by
      cases k with
      | deliver provider e => exact .map (commits_process (.delivered admitted))
      | enforce restoreEnabled => exact .map (commits_enforceLocalVerdicts admitted)
    exact (code w trivial).mono fun _ _ _ => trivial
  finish := by
    intro t r w w' _ _ settled
    obtain rfl := Option.some.inj settled
    exact ⟨.rest w, trivial⟩
  crash := by
    intro t w w' _ crashed
    obtain rfl := Option.some.inj crashed
    exact ⟨.rest w, trivial⟩
  disturb := by
    intro ms w w' _ _ disturbed
    obtain rfl := Option.some.inj disturbed
    exact ⟨trivial, fun _ => .wait w ms⟩

/-- Whatever a run does to the world, it does by commits. -/
theorem commits_of_runWhere {w : World} {c d : Config (billing D E)}
    (before : Reaches (Config.idle w) c) (h : RunWhere ok c d) :
    Relation.ReflTransGen (Commit D E) c.world d.world := by
  induction h with
  | refl => exact .refl
  | step run _ taken ih =>
    refine ih.tail ?_
    have sound := (verified fun _ _ => True).sound trivial (fun _ => trivial)
      (before.trans (run.mono fun _ _ _ => trivial))
    rcases ((verified fun _ _ => True).step_sound sound trivial taken).2 with
      ⟨_, commit⟩ | ⟨ms, -, disturbed⟩
    · exact commit
    · have waited := Option.some.inj disturbed
      rw [← waited]
      exact .wait _ ms

end Runs

/-! ## What a commit does to rows of subscriptions -/

section Rows

variable {D : Deployment} {E : Task → Bool} {w w' : World}

/-- The body of an event asks for the effect on the row. -/
def RowEffect.Of (D : Deployment) (key : SubscriptionKey) : RowEffect → EventBody → Prop
  | .snapshot _ entry sub _ _, .subscription sub' _ => sub = sub' ∧
    key.2 = sub.providerSubscriptionId ∧ D.resolveByPriceId key.1 sub.providerPriceId = some entry
  | .schedule reason, .cancellationScheduled sid reason' _ => key.2 = sid ∧ reason = reason'
  | .revoke reason, .cancellationRevoked sid reason' _ => key.2 = sid ∧ reason = reason'
  | .settle, .refundSettled sid _ => key.2 = sid
  | _, _ => False

/-- `w'` is `w` after an effect on one row. -/
structure World.Affects (w w' : World) (k : EventKey) (key : SubscriptionKey) (effect : RowEffect) :
    Prop where
  now : w'.now = w.now
  applied : w'.applied = w.applied ++ [⟨k, key, effect, w.now, w.db.subscription key⟩]
  subscription (x : SubscriptionKey) : w'.db.subscription x =
    if x = key then effect.run key w.now (w.db.subscription key) else w.db.subscription x

theorem affects_applyScheduledCancellation {k : EventKey} {sid : String} {reason : ScheduledReason}
    {row : Subscription} (found : w.db.subscription (k.1, sid) = some row) :
    w.Affects (w.applyScheduledCancellation k sid reason).2 k (k.1, sid) (.schedule reason) := by
  unfold World.applyScheduledCancellation
  dsimp only
  rw [found]
  refine ⟨by simp, by simp, fun x => ?_⟩
  simp only [World.db_stamp, World.subscription_recompute]
  rw [subscription_update (fun s => (key_scheduleCancellation s _ _).trans), RowEffect.run, found]
  split_ifs with same
  · rw [same, found]
  · rfl

theorem affects_applyRefundSettlement {k : EventKey} {sid : String} :
    w.Affects (w.applyRefundSettlement k sid).2 k (k.1, sid) .settle := by
  unfold World.applyRefundSettlement
  dsimp only
  split
  next unsettled =>
    refine ⟨by simp, by simp, fun x => ?_⟩
    simp only [World.db_stamp, World.db_record, RowEffect.run]
    split_ifs with same
    · rw [same]
      cases found : w.db.subscription (k.1, sid) with
      | none => rfl
      | some s =>
        have kept : ¬ s.settleable = true := by simpa [found, Option.filter] using unsettled
        rw [Option.map_some, Subscription.settleRefund, if_neg kept]
    · rfl
  next row settled =>
    refine ⟨by simp, by simp, fun x => ?_⟩
    simp only [World.db_stamp, World.subscription_recompute]
    rw [subscription_update (fun s => (key_settleRefund s _).trans), RowEffect.run]
    split_ifs with same
    · rw [same]
    · rfl

theorem affects_applyRevokedCancellation {k : EventKey} {sid : String} {reason : RevokedReason} :
    w.Affects (w.applyRevokedCancellation k sid reason).2 k (k.1, sid) (.revoke reason) := by
  unfold World.applyRevokedCancellation
  dsimp only
  split
  next unmatched =>
    refine ⟨by simp, by simp, fun x => ?_⟩
    simp only [World.db_stamp, World.db_record, RowEffect.run]
    split_ifs with same
    · rw [same]
      cases found : w.db.subscription (k.1, sid) with
      | none => rfl
      | some s =>
        have kept : ¬ s.cancelSource = some reason.voided := by
          simpa [found, Option.filter] using unmatched
        rw [Option.map_some, Subscription.revokeCancellation, if_neg kept]
    · rfl
  next row matched =>
    refine ⟨by simp, by simp, fun x => ?_⟩
    simp only [World.db_stamp, World.subscription_recompute]
    rw [subscription_update (fun s => (key_revokeCancellation s _).trans), RowEffect.run]
    split_ifs with same
    · rw [same]
    · rfl

theorem affects_writeSnapshot {k : EventKey} {sub : NormalizedSubscription}
    {workspaceId : WorkspaceId} {entry : CatalogEntry} {selfMs : Option ℤ}
    (written : (.applied, w') = w.writeSnapshot D k sub workspaceId entry selfMs) :
    ∃ founding, w.Affects w' k (k.1, sub.providerSubscriptionId)
      (.snapshot workspaceId entry sub selfMs founding) := by
  refine ⟨(w.allocateFounding D (k.1, sub.providerSubscriptionId) entry sub).1, ?_⟩
  unfold World.writeSnapshot at written
  dsimp only at written
  split at written
  · cases (Prod.mk.inj written).1
  · obtain ⟨-, rfl⟩ := Prod.mk.inj written
    refine ⟨by simp, by simp, fun x => ?_⟩
    simp only [World.db_stamp]
    change ((w.addCustomer _ _ _).db.upsert _).subscription x = _
    rw [World.db_addCustomer, subscription_upsert]
    rfl

/-- A snapshot that is not written leaves the rows alone. -/
theorem affects_applySubscription {k : EventKey} {sub : NormalizedSubscription}
    {restoration : Option UpgradeRefundRestoration} {evidence : Option IntentEvidence}
    {workspaceId : WorkspaceId} {entry : CatalogEntry} {outcome : SnapshotOutcome}
    (did : w.applySubscription D k sub restoration evidence workspaceId entry = .ok (outcome, w')) :
    (w'.applied = w.applied ∧ w'.db = w.db ∧ w'.now = w.now) ∨
      ∃ founding, w.Affects w' k (k.1, sub.providerSubscriptionId)
        (.snapshot workspaceId entry sub
          (toMillis D.dateParse ((w.events.get k).bind (·.occurredAt))) founding) := by
  rcases World.applySubscription_cases did with ⟨-, rfl, -⟩ | ⟨-, -, written⟩
  · exact .inl ⟨World.applied_stamp w k, World.db_stamp w k, World.now_stamp w k⟩
  · rcases World.writeSnapshot_cases written with ⟨-, rfl⟩ | ⟨rfl, -⟩
    · exact .inl ⟨rfl, rfl, rfl⟩
    · exact .inr (affects_writeSnapshot written)

theorem subscriptions_grantPass (workspaceId : WorkspaceId) (txn : String) :
    (w.grantPass workspaceId txn).2.db.subscriptions = w.db.subscriptions := by
  change (grantPassFromTransaction w.db workspaceId txn w.now).2.subscriptions = _
  unfold grantPassFromTransaction
  split
  · rfl
  · dsimp only
    split <;> rfl

/-- Projecting workspaces leaves all but their tiers alone. -/
theorem foldl_recompute (ids : List WorkspaceId) (w : World) :
    (ids.foldl World.recompute w).now = w.now ∧ (ids.foldl World.recompute w).applied = w.applied ∧
      (ids.foldl World.recompute w).db.subscriptions = w.db.subscriptions := by
  induction ids generalizing w with
  | nil => exact ⟨rfl, rfl, rfl⟩
  | cons id ids ih => exact ih (w.recompute id)

theorem applyPassRevoked_rows (k : EventKey) (txn : String) :
    (w.applyPassRevoked k txn).2.now = w.now ∧ (w.applyPassRevoked k txn).2.applied = w.applied ∧
      (w.applyPassRevoked k txn).2.db.subscriptions = w.db.subscriptions := by
  unfold World.applyPassRevoked
  dsimp only
  split
  · exact ⟨rfl, rfl, rfl⟩
  · split
    · exact ⟨rfl, rfl, rfl⟩
    next ids db revoked =>
      obtain ⟨now, applied, rows⟩ := foldl_recompute ids { w with db }
      have same : db.subscriptions = w.db.subscriptions := by
        rw [show db = _ from (congrArg Prod.snd revoked).symm]
        rfl
      simp only [World.now_stamp, World.applied_stamp, World.db_stamp]
      exact ⟨now, applied, rows.trans same⟩

theorem subscription_congr {db db' : Db} (same : db'.subscriptions = db.subscriptions)
    (key : SubscriptionKey) : db'.subscription key = db.subscription key := by
  rw [Db.subscription, same, ← Db.subscription]

/-- A commit leaves all rows alone, or has the effect of one event on one row. -/
theorem Commit.rows (h : Commit D E w w') :
    (w.now ≤ w'.now ∧ w'.applied = w.applied ∧
      ∀ key, w'.db.subscription key = w.db.subscription key) ∨
    ∃ (key : SubscriptionKey) (e : BillingEvent) (effect : RowEffect), Handled E key.1 e ∧
      effect.Of D key e.body ∧ w.Affects w' (key.1, e.providerEventId) key effect := by
  cases h with
  | rest => exact .inl ⟨le_rfl, rfl, fun _ => rfl⟩
  | wait ms => exact .inl ⟨by simp, rfl, fun _ => rfl⟩
  | insert | customer | mark | classify => exact .inl ⟨by simp, by simp, fun _ => by simp⟩
  | grant => exact .inl ⟨le_rfl, rfl, subscription_congr (subscriptions_grantPass _ _)⟩
  | project => exact .inl ⟨by simp [World.projectPass], by simp [World.projectPass],
      fun _ => by simp [World.projectPass]⟩
  | revokePass =>
    obtain ⟨now, applied, rows⟩ := applyPassRevoked_rows (w := w) _ _
    exact .inl ⟨now.ge, applied, subscription_congr rows⟩
  | snapshot h _ body priced did =>
    rcases affects_applySubscription did with ⟨applied, db, now⟩ | ⟨founding, affects⟩
    · exact .inl ⟨now.ge, applied, fun _ => by rw [db]⟩
    · exact .inr ⟨(_, _), _, _, h, by rw [body]; exact ⟨rfl, rfl, priced⟩, affects⟩
  | @schedule provider e sid reason _ h _ body =>
    cases found : w.db.subscription (provider, sid) with
    | none =>
      have none : w.applyScheduledCancellation (provider, e.providerEventId) sid reason =
          (false, w) := by
        unfold World.applyScheduledCancellation
        dsimp only
        rw [found]
      rw [none]
      exact .inl ⟨le_rfl, rfl, fun _ => rfl⟩
    | some row =>
      exact .inr ⟨(provider, sid), e, _, h, by rw [body]; exact ⟨rfl, rfl⟩,
        affects_applyScheduledCancellation found⟩
  | @settle provider e sid _ h _ body =>
    exact .inr ⟨(provider, sid), e, .settle, h, by rw [body]; rfl, affects_applyRefundSettlement⟩
  | @revoke provider e sid _ _ h _ body =>
    exact .inr ⟨(provider, sid), e, _, h, by rw [body]; exact ⟨rfl, rfl⟩,
      affects_applyRevokedCancellation⟩

end Rows

/-! ## Deliveries of a history -/

/-- Deliveries of the listed events of a provider, and nothing else. -/
def delivers (provider : BillingProviderId) (events : List BillingEvent) : Task → Bool
  | .deliver p e => decide (p = provider) && decide (e ∈ events)
  | .enforce _ => false

def World.Processed (w : World) (provider : BillingProviderId) (e : BillingEvent) : Prop :=
  ∃ row, w.events.get (provider, e.providerEventId) = some row ∧ row.processed = true

section History

variable {w w' : World} {provider : BillingProviderId} {e e' : BillingEvent} {k : EventKey}

/-- If no event is reviewed, the deliveries are all that is handled. -/
theorem handled_delivers {events : List BillingEvent} {p : BillingProviderId}
    (plain : ∀ e ∈ events, e.body.aboutRefund = false)
    (handled : Handled (delivers provider events) p e) : p = provider ∧ e ∈ events := by
  induction handled with
  | delivered admitted => simpa [delivers] using admitted
  | restored reviewed _ _ _ _ _ ih => simp [BillingEvent.reviewed, plain _ ih.2] at reviewed
  | refuted admitted | settled admitted | upgrade admitted => cases admitted

theorem processed_congr (same : w'.events = w.events) :
    w'.Processed provider e ↔ w.Processed provider e := by
  unfold World.Processed
  rw [same]

theorem processed_stamp (recorded : w.Recorded k) : (w.stamp k).Processed provider e ↔
    w.Processed provider e ∨ k = (provider, e.providerEventId) := by
  unfold World.Processed
  rw [World.get_stamp]
  split_ifs with same
  · obtain ⟨row, there⟩ := recorded
    exact iff_of_true ⟨_, by rw [there]; rfl, rfl⟩ (.inr same)
  · simp [same]

theorem processed_insertEvent :
    (w.insertEvent k e'.row).2.Processed provider e ↔ w.Processed provider e := by
  unfold World.Processed
  rw [World.get_insertEvent]
  split_ifs with same
  · rw [← same]
    cases found : w.events.get k with
    | none => simp [BillingEvent.row]
    | some old => simp
  · rfl

end History

end DeclutrMail.Billing
