import DeclutrMail.Billing.Commits

/-!
# Purchases and refunds of Passes in any order

The `payment` and `pass_revoked` events of one-time transactions, delivered in any order and
more than once. A transaction has one grant at most, it has one iff it was paid, and the grant
is revoked iff the payment was refunded (`Passes`).
-/

namespace DeclutrMail.Billing

open Interleaving

namespace BillingEvent

/-- The event is the payment of a one-time transaction. -/
def Purchases (e : BillingEvent) (txn : String) : Prop :=
  ∃ payment, e.body = .payment payment ∧ payment.oneTime = true ∧
    payment.providerTransactionId = some txn

/-- The event is the refund of a one-time transaction. -/
def Revokes (e : BillingEvent) (txn : String) : Prop := ∃ reason, e.body = .passRevoked txn reason

end BillingEvent

/-- The events are purchases and refunds, and an id belongs to one event. -/
structure PassesOf (events : List BillingEvent) : Prop where
  body : ∀ e ∈ events, ∃ txn, e.Purchases txn ∨ e.Revokes txn
  id : ∀ e ∈ events, ∀ e' ∈ events, e.providerEventId = e'.providerEventId → e = e'

/-- A transaction of the events. -/
def TransactionOf (events : List BillingEvent) (txn : String) : Prop :=
  ∃ e ∈ events, e.Purchases txn ∨ e.Revokes txn

/-- No transaction has two grants. -/
def Db.OneGrantEach (db : Db) : Prop := (db.grants.filterMap (·.providerTransactionId)).Nodup

/-! ## Grants -/

section Grants

variable {D : Deployment} {E : Task → Bool} {w w' : World} {g : Grant} {txn : String}

/-- A purchase adds a Pass unless the transaction has a grant. -/
theorem grants_grantPassFromTransaction (db : Db) (workspaceId : WorkspaceId) (txn : String)
    (now : ℤ) : (grantPassFromTransaction db workspaceId txn now).2.grants = db.grants ∨
      (∀ g ∈ db.grants, g.providerTransactionId ≠ some txn) ∧
        ∃ row : Grant, row.providerTransactionId = some txn ∧ row.source = .pass ∧
          row.provider = some .paddle ∧ row.revokedAt = none ∧
          (grantPassFromTransaction db workspaceId txn now).2.grants = db.grants ++ [row] := by
  unfold grantPassFromTransaction
  split
  · exact .inl rfl
  · dsimp only
    split
    · exact .inl rfl
    next unseen =>
      refine .inr ⟨fun g mem => ?_, _, rfl, rfl, rfl, rfl, rfl⟩
      simpa using List.find?_eq_none.mp unseen g mem

/-- A revocation keeps what the purchase says. -/
theorem purchase_revoke (g : Grant) (txn : String) (now : ℤ) :
    (g.revoke txn now).source = g.source ∧ (g.revoke txn now).provider = g.provider := by
  unfold Grant.revoke
  split_ifs <;> exact ⟨rfl, rfl⟩

theorem revoke_of_revoked {now : ℤ} (revoked : g.revokedAt ≠ none) : g.revoke txn now = g := by
  rw [Grant.revoke, if_neg]
  cases there : g.revokedAt with
  | none => exact absurd there revoked
  | some at_ => simp

theorem revoked_revoke (purchased : g.purchasedBy txn = true) (now : ℤ) :
    (g.revoke txn now).revokedAt ≠ none := by
  unfold Grant.revoke
  split_ifs with stands
  · simp
  · intro none
    simp [purchased, none] at stands

/-- Who is revoked was revoked already, or purchased with the transaction. -/
theorem revoked_of_revoke {now : ℤ} (revoked : (g.revoke txn now).revokedAt ≠ none) :
    g.revokedAt ≠ none ∨ g.providerTransactionId = some txn := by
  unfold Grant.revoke at revoked
  split_ifs at revoked with stands
  · simp only [Grant.purchasedBy, Bool.and_eq_true, decide_eq_true_eq] at stands
    exact .inr stands.1.1.1
  · exact .inl revoked

theorem Commit.oneGrantEach (h : Commit D E w w') (once : w.db.OneGrantEach) :
    w'.db.OneGrantEach := by
  unfold Db.OneGrantEach at once ⊢
  rcases h.grants_cases with same | ⟨_, _, _, workspaceId, txn, -, -, -, -, same⟩ |
    ⟨_, _, txn, _, -, -, same⟩
  · rwa [same]
  · rw [same]
    rcases grants_grantPassFromTransaction w.db workspaceId txn w.now with
      same | ⟨unseen, row, purchase, -, -, -, added⟩
    · rwa [same]
    · rw [added, List.filterMap_append]
      refine List.nodup_append.mpr ⟨once, by simp [purchase], fun a mem b mem' hit => ?_⟩
      obtain ⟨g, there, is⟩ := List.mem_filterMap.mp mem
      obtain rfl : b = txn := by simpa [purchase] using mem'
      exact unseen g there (hit ▸ is)
  · rw [same, List.filterMap_map]
    have kept : (fun g : Grant => g.providerTransactionId) ∘ (fun g : Grant => g.revoke txn w.now) =
        fun g : Grant => g.providerTransactionId := funext fun g => transaction_revoke g txn w.now
    rwa [kept]

theorem Commit.revoked (h : Commit D E w w') (mem : g ∈ w.db.grants)
    (revoked : g.revokedAt ≠ none) : g ∈ w'.db.grants := by
  rcases h.grants_cases with same | ⟨_, _, _, workspaceId, txn, -, -, -, -, same⟩ |
    ⟨_, _, txn, _, -, -, same⟩
  · rwa [same]
  · rw [same]
    rcases grants_grantPassFromTransaction w.db workspaceId txn w.now with
      same | ⟨-, row, -, -, -, -, added⟩
    · rwa [same]
    · rw [added]
      exact List.mem_append_left _ mem
  · rw [same]
    exact List.mem_map.mpr ⟨g, mem, revoke_of_revoked revoked⟩

end Grants

/-! ## The commits of such a history -/

section Commits

variable {D : Deployment} {provider : BillingProviderId} {events : List BillingEvent}
  {w w' : World}

theorem PassesOf.plain (h : PassesOf events) : ∀ e ∈ events, e.body.aboutRefund = false := by
  intro e mem
  obtain ⟨txn, ⟨payment, body, -⟩ | ⟨reason, body⟩⟩ := h.body e mem <;> rw [body] <;> rfl

/-- A commit leaves the ledger and the grants alone, records an event, grants a Pass, projects
one that was granted, or revokes it. -/
theorem pass_commit_cases (h : PassesOf events) (step : Commit D (delivers provider events) w w') :
    (w'.events = w.events ∧ w'.db.grants = w.db.grants) ∨
      (∃ e ∈ events, w' = (w.insertEvent (provider, e.providerEventId) e.row).2) ∨
      (∃ e ∈ events, ∃ workspaceId txn, e.Purchases txn ∧ w' = (w.grantPass workspaceId txn).2) ∨
      (∃ e ∈ events, ∃ workspaceId txn, e.Purchases txn ∧ w.Granted txn ∧
        w.Recorded (provider, e.providerEventId) ∧
        w' = w.projectPass (provider, e.providerEventId) workspaceId) ∨
      ∃ e ∈ events, ∃ txn, e.Revokes txn ∧ w.Recorded (provider, e.providerEventId) ∧
        w' = (w.applyPassRevoked (provider, e.providerEventId) txn).2 := by
  have own : ∀ {p e}, Handled (delivers provider events) p e → p = provider ∧ e ∈ events :=
    fun handled => handled_delivers h.plain handled
  have body : ∀ {p e}, Handled (delivers provider events) p e →
      (∃ payment, e.body = .payment payment ∧ payment.oneTime = true) ∨
        ∃ txn reason, e.body = .passRevoked txn reason := by
    intro p e handled
    obtain ⟨txn, ⟨payment, is, oneTime, -⟩ | ⟨reason, is⟩⟩ := h.body e (own handled).2
    · exact .inl ⟨payment, is, oneTime⟩
    · exact .inr ⟨txn, reason, is⟩
  cases step with
  | rest | wait => exact .inl ⟨rfl, rfl⟩
  | customer => exact .inl ⟨by simp, by simp⟩
  | insert handled =>
    obtain ⟨rfl, mem⟩ := own handled
    exact .inr (.inl ⟨_, mem, rfl⟩)
  | mark handled _ other =>
    rcases body handled with ⟨payment, is, oneTime⟩ | ⟨txn, reason, is⟩ <;> rw [is] at other
    · rcases other with other | ⟨payment', other, not⟩
      · cases other
      · cases other
        rw [oneTime] at not
        cases not
    · rcases other with other | ⟨payment', other, -⟩ <;> cases other
  | classify handled _ reviewed =>
    simp [BillingEvent.reviewed, h.plain _ (own handled).2] at reviewed
  | snapshot handled _ other | schedule handled _ other | settle handled _ other
  | revoke handled _ other =>
    rcases body handled with ⟨payment, is, -⟩ | ⟨txn, reason, is⟩ <;> rw [is] at other <;> cases other
  | grant handled is oneTime _ purchase =>
    obtain ⟨-, mem⟩ := own handled
    exact .inr (.inr (.inl ⟨_, mem, _, _, ⟨_, is, oneTime, purchase⟩, rfl⟩))
  | project workspaceId handled recorded is oneTime purchase granted =>
    obtain ⟨rfl, mem⟩ := own handled
    exact .inr (.inr (.inr (.inl
      ⟨_, mem, workspaceId, _, ⟨_, is, oneTime, purchase⟩, granted, recorded, rfl⟩)))
  | revokePass handled recorded is =>
    obtain ⟨rfl, mem⟩ := own handled
    exact .inr (.inr (.inr (.inr ⟨_, mem, _, ⟨_, is⟩, recorded, rfl⟩)))

end Commits

/-! ## What was processed, and what was granted -/

/-- The grants of the transactions, against the events that were processed. -/
structure Passes (provider : BillingProviderId) (events : List BillingEvent) (w : World) : Prop where
  own : ∀ g ∈ w.db.grants, ∀ txn, g.providerTransactionId = some txn → TransactionOf events txn →
    g.source = .pass ∧ g.provider = some .paddle ∧ ∃ e ∈ events, e.Purchases txn
  purchased : ∀ e ∈ events, w.Processed provider e → ∀ txn, e.Purchases txn → w.Granted txn
  revoked : ∀ e ∈ events, w.Processed provider e → ∀ txn, e.Revokes txn → w.Granted txn ∧
    ∀ g ∈ w.db.grants, g.providerTransactionId = some txn → g.revokedAt ≠ none
  due : ∀ g ∈ w.db.grants, ∀ txn, g.providerTransactionId = some txn → TransactionOf events txn →
    g.revokedAt ≠ none → ∃ e ∈ events, e.Revokes txn

section Invariant

variable {D : Deployment} {provider : BillingProviderId} {events : List BillingEvent}
  {w w' : World} {e : BillingEvent} {txn : String}

theorem purchases_unique {txn' : String} (h : e.Purchases txn) (h' : e.Purchases txn') :
    txn = txn' := by
  obtain ⟨payment, is, -, purchase⟩ := h
  obtain ⟨payment', is', -, purchase'⟩ := h'
  obtain rfl := EventBody.payment.inj (is.symm.trans is')
  exact Option.some.inj (purchase.symm.trans purchase')

theorem revokes_unique {txn' : String} (h : e.Revokes txn) (h' : e.Revokes txn') : txn = txn' := by
  obtain ⟨reason, is⟩ := h
  obtain ⟨reason', is'⟩ := h'
  exact (EventBody.passRevoked.inj (is.symm.trans is')).1

theorem not_revokes (h : e.Purchases txn) (txn' : String) : ¬ e.Revokes txn' := by
  rintro ⟨reason, is'⟩
  obtain ⟨payment, is, -⟩ := h
  cases is.symm.trans is'

theorem Passes.congr (inv : Passes provider events w)
    (processed : ∀ e ∈ events, w'.Processed provider e → w.Processed provider e)
    (grants : w'.db.grants = w.db.grants) : Passes provider events w' := by
  refine ⟨?_, ?_, ?_, ?_⟩
  · rw [grants]
    exact inv.own
  · unfold World.Granted
    rw [grants]
    exact fun e mem done => inv.purchased e mem (processed e mem done)
  · unfold World.Granted
    rw [grants]
    exact fun e mem done => inv.revoked e mem (processed e mem done)
  · rw [grants]
    exact inv.due

/-- A Pass is granted, unless the transaction has one. -/
theorem Passes.grant (inv : Passes provider events w) (mem : e ∈ events)
    (purchase : e.Purchases txn) (workspaceId : WorkspaceId) :
    Passes provider events (w.grantPass workspaceId txn).2 := by
  rcases grants_grantPassFromTransaction w.db workspaceId txn w.now with
    same | ⟨unseen, row, is, pass, paddle, stands, added⟩
  · exact inv.congr (fun _ _ => id) same
  · replace added : (w.grantPass workspaceId txn).2.db.grants = w.db.grants ++ [row] := added
    have there : ∀ g ∈ (w.grantPass workspaceId txn).2.db.grants, g ∈ w.db.grants ∨ g = row := by
      intro g memg
      rw [added] at memg
      simpa using memg
    have kept : ∀ txn', w.Granted txn' → (w.grantPass workspaceId txn).2.Granted txn' :=
      fun txn' => granted_grantPass
    refine ⟨?_, ?_, ?_, ?_⟩
    · intro g memg txn' is' of
      rcases there g memg with old | rfl
      · exact inv.own g old txn' is' of
      · obtain rfl := Option.some.inj (is.symm.trans is')
        exact ⟨pass, paddle, e, mem, purchase⟩
    · exact fun e' mem' done txn' purchase' => kept _ (inv.purchased e' mem' done txn' purchase')
    · intro e' mem' done txn' revokes
      obtain ⟨granted, revoked⟩ := inv.revoked e' mem' done txn' revokes
      refine ⟨kept _ granted, fun g memg is' => ?_⟩
      rcases there g memg with old | rfl
      · exact revoked g old is'
      · obtain ⟨g', old, is''⟩ := granted
        obtain rfl := Option.some.inj (is.symm.trans is')
        exact absurd is'' (unseen g' old)
    · intro g memg txn' is' of revoked
      rcases there g memg with old | rfl
      · exact inv.due g old txn' is' of revoked
      · exact absurd stands revoked

/-- The payment of a Pass that was granted is stamped. -/
theorem Passes.project (h : PassesOf events) (inv : Passes provider events w) (mem : e ∈ events)
    (purchase : e.Purchases txn) (granted : w.Granted txn)
    (recorded : w.Recorded (provider, e.providerEventId)) (workspaceId : WorkspaceId) :
    Passes provider events (w.projectPass (provider, e.providerEventId) workspaceId) := by
  have grants := grants_projectPass (w := w) (k := (provider, e.providerEventId)) workspaceId
  have processed : ∀ e' ∈ events,
      (w.projectPass (provider, e.providerEventId) workspaceId).Processed provider e' →
        w.Processed provider e' ∨ e' = e := by
    intro e' mem' done
    rw [processed_congr World.events_projectPass, processed_stamp recorded] at done
    exact done.imp_right fun same => (h.id e mem e' mem' (Prod.mk.inj same).2).symm
  refine ⟨?_, ?_, ?_, ?_⟩
  · rw [grants]
    exact inv.own
  · unfold World.Granted
    rw [grants]
    intro e' mem' done txn' purchase'
    rcases processed e' mem' done with done | rfl
    · exact inv.purchased e' mem' done txn' purchase'
    · rw [← purchases_unique purchase purchase']
      exact granted
  · unfold World.Granted
    rw [grants]
    intro e' mem' done txn' revokes
    rcases processed e' mem' done with done | rfl
    · exact inv.revoked e' mem' done txn' revokes
    · exact absurd revokes (not_revokes purchase txn')
  · rw [grants]
    exact inv.due

theorem granted_of_known {k : EventKey} (known : (w.applyPassRevoked k txn).1 = true) :
    w.Granted txn := by
  unfold World.applyPassRevoked at known
  dsimp only at known
  split at known
  · cases known
  next found =>
    obtain ⟨g, mem, is⟩ : ∃ g ∈ w.db.grants, g.providerTransactionId = some txn ∧
        g.source = .pass ∧ g.provider = some .paddle := by
      simpa [and_assoc] using found
    exact ⟨g, mem, is.1⟩

/-- A revocation that finds the purchase leaves no grant of it unrevoked. -/
theorem Passes.revoke (h : PassesOf events) (inv : Passes provider events w) (mem : e ∈ events)
    (revokes : e.Revokes txn) (recorded : w.Recorded (provider, e.providerEventId)) :
    Passes provider events (w.applyPassRevoked (provider, e.providerEventId) txn).2 := by
  have events_ := World.events_applyPassRevoked (w := w) (k := (provider, e.providerEventId))
    txn
  have grants := grants_applyPassRevoked (w := w) (k := (provider, e.providerEventId)) txn
  cases known : (w.applyPassRevoked (provider, e.providerEventId) txn).1 with
  | false =>
    rw [known] at events_ grants
    exact inv.congr (fun _ _ => (processed_congr events_).mp) grants
  | true =>
    rw [known, if_pos rfl] at events_ grants
    have processed : ∀ e' ∈ events,
        (w.applyPassRevoked (provider, e.providerEventId) txn).2.Processed provider e' →
          w.Processed provider e' ∨ e' = e := by
      intro e' mem' done
      rw [processed_congr events_, processed_stamp recorded] at done
      exact done.imp_right fun same => (h.id e mem e' mem' (Prod.mk.inj same).2).symm
    have granted : ∀ txn', w.Granted txn' →
        (w.applyPassRevoked (provider, e.providerEventId) txn).2.Granted txn' := by
      rintro txn' ⟨g, there, is⟩
      refine ⟨g.revoke txn w.now, ?_, (transaction_revoke g txn w.now).trans is⟩
      rw [grants]
      exact List.mem_map_of_mem there
    refine ⟨?_, ?_, ?_, ?_⟩
    · intro g' memg txn' is of
      obtain ⟨g, there, rfl⟩ := List.mem_map.mp (grants ▸ memg)
      obtain ⟨source, paddle⟩ := purchase_revoke g txn w.now
      rw [source, paddle]
      exact inv.own g there txn' ((transaction_revoke g txn w.now).symm.trans is) of
    · intro e' mem' done txn' purchase
      rcases processed e' mem' done with done | rfl
      · exact granted txn' (inv.purchased e' mem' done txn' purchase)
      · exact absurd revokes (not_revokes purchase txn)
    · intro e' mem' done txn' revokes'
      rcases processed e' mem' done with done | rfl
      · obtain ⟨there, revoked⟩ := inv.revoked e' mem' done txn' revokes'
        refine ⟨granted txn' there, fun g' memg is => ?_⟩
        obtain ⟨g, there, rfl⟩ := List.mem_map.mp (grants ▸ memg)
        have past := revoked g there ((transaction_revoke g txn w.now).symm.trans is)
        rw [revoke_of_revoked past]
        exact past
      · obtain rfl := revokes_unique revokes revokes'
        refine ⟨granted txn (granted_of_known known), fun g' memg is => ?_⟩
        obtain ⟨g, there, rfl⟩ := List.mem_map.mp (grants ▸ memg)
        rw [transaction_revoke] at is
        obtain ⟨pass, paddle, -⟩ := inv.own g there txn is ⟨e', mem, .inr revokes⟩
        exact revoked_revoke (by simp [Grant.purchasedBy, is, pass, paddle]) w.now
    · intro g' memg txn' is of revoked
      obtain ⟨g, there, rfl⟩ := List.mem_map.mp (grants ▸ memg)
      rw [transaction_revoke] at is
      rcases revoked_of_revoke revoked with past | hit
      · exact inv.due g there txn' is of past
      · obtain rfl := Option.some.inj (is.symm.trans hit)
        exact ⟨e, mem, revokes⟩

theorem Passes.commit (h : PassesOf events) (inv : Passes provider events w)
    (step : Commit D (delivers provider events) w w') : Passes provider events w' := by
  rcases pass_commit_cases h step with ⟨ledger, grants⟩ | ⟨e, -, rfl⟩ |
    ⟨e, mem, workspaceId, txn, purchase, rfl⟩ |
    ⟨e, mem, workspaceId, txn, purchase, granted, recorded, rfl⟩ |
    ⟨e, mem, txn, revokes, recorded, rfl⟩
  · exact inv.congr (fun _ _ => (processed_congr ledger).mp) grants
  · exact inv.congr (fun _ _ => processed_insertEvent.mp) (by rw [World.db_insertEvent])
  · exact inv.grant mem purchase workspaceId
  · exact inv.project h mem purchase granted recorded workspaceId
  · exact inv.revoke h mem revokes recorded

end Invariant

/-! ## Every run -/

section Runs

variable {D : Deployment} {E : Task → Bool} {provider : BillingProviderId}
  {events : List BillingEvent} {w w' : World}

theorem oneGrantEach_of_commits (h : Relation.ReflTransGen (Commit D E) w w')
    (once : w.db.OneGrantEach) : w'.db.OneGrantEach := by
  induction h with
  | refl => exact once
  | tail _ step ih => exact step.oneGrantEach ih

theorem revoked_of_commits (h : Relation.ReflTransGen (Commit D E) w w') {g : Grant}
    (mem : g ∈ w.db.grants) (revoked : g.revokedAt ≠ none) : g ∈ w'.db.grants := by
  induction h with
  | refl => exact mem
  | tail _ step ih => exact step.revoked ih revoked

theorem passes_of_commits (h : PassesOf events) (start : Passes provider events w)
    (run : Relation.ReflTransGen (Commit D (delivers provider events)) w w') :
    Passes provider events w' := by
  induction run with
  | refl => exact start
  | tail _ step ih => exact ih.commit h step

/-- No transaction gets two grants and no revoked grant comes back; and once all events are
processed a transaction has a grant iff it was paid, which is revoked iff it was refunded. -/
theorem passes_converge (h : PassesOf events) (once : w.db.OneGrantEach)
    (unseen : ∀ e ∈ events, w.events.get (provider, e.providerEventId) = none)
    (fresh : ∀ g ∈ w.db.grants, ∀ txn, TransactionOf events txn →
      g.providerTransactionId ≠ some txn)
    {c : Config (billing D (delivers provider events))} (run : Reaches (Config.idle w) c) :
    c.world.db.OneGrantEach ∧
    (∀ d, Reaches c d → ∀ g ∈ c.world.db.grants, g.revokedAt ≠ none → g ∈ d.world.db.grants) ∧
    ((∀ e ∈ events, c.world.Processed provider e) → ∀ txn, TransactionOf events txn →
      (c.world.Granted txn ↔ ∃ e ∈ events, e.Purchases txn) ∧
      ∀ g ∈ c.world.db.grants, g.providerTransactionId = some txn →
        (g.revokedAt ≠ none ↔ ∃ e ∈ events, e.Revokes txn)) := by
  have commits := commits_of_runWhere .refl run
  refine ⟨oneGrantEach_of_commits commits once, fun d onward g mem revoked =>
    revoked_of_commits (commits_of_runWhere run onward) mem revoked, ?_⟩
  have untouched : ∀ e ∈ events, ¬ w.Processed provider e := by
    rintro e mem ⟨row, there, -⟩
    rw [unseen e mem] at there
    cases there
  have start : Passes provider events w :=
    ⟨fun g mem txn is of => absurd is (fresh g mem txn of),
      fun e mem done => absurd done (untouched e mem),
      fun e mem done => absurd done (untouched e mem),
      fun g mem txn is of => absurd is (fresh g mem txn of)⟩
  have inv := passes_of_commits h start commits
  intro done txn of
  refine ⟨⟨?_, ?_⟩, fun g mem is => ⟨inv.due g mem txn is of, ?_⟩⟩
  · rintro ⟨g, mem, is⟩
    exact (inv.own g mem txn is of).2.2
  · rintro ⟨e, mem, purchase⟩
    exact inv.purchased e mem (done e mem) txn purchase
  · rintro ⟨e, mem', revokes⟩
    exact (inv.revoked e mem' (done e mem') txn revokes).2 g mem is

end Runs

/-- A Pass is paid. -/
def purchaseEvent (id txn : String) : BillingEvent :=
  ⟨id, "transaction.completed", none,
    .payment ⟨.succeeded, none, none, some "w", none, some txn, ["pass"]⟩⟩

/-- A Pass is refunded. -/
def passRefundEvent (id txn : String) : BillingEvent :=
  ⟨id, "adjustment.created", none, .passRevoked txn .refund⟩

/-- The refund comes first and finds nothing, then the payment, then the refund again. -/
theorem passes_converge_refunded :
    ∃ c : Config (billing oneprice (delivers .paddle
      [purchaseEvent "a" "txn", passRefundEvent "b" "txn"])),
      ∃ g ∈ c.world.db.grants, g.providerTransactionId = some "txn" ∧ g.revokedAt ≠ none := by
  let events := [purchaseEvent "a" "txn", passRefundEvent "b" "txn"]
  let start : Config (billing oneprice (delivers .paddle events)) := .idle paidWorld
  have run : (start.run (delivery 0 (passRefundEvent "b" "txn") 2 ++
      delivery 0 (purchaseEvent "a" "txn") 4 ++
      delivery 0 (passRefundEvent "b" "txn") 3)).any (fun c => decide (∀ e ∈ events,
        (c.world.events.get (.paddle, e.providerEventId)).any (·.processed) = true)) = true := by
    decide
  obtain ⟨c, reached, done⟩ := exists_reaches run
  have passes : PassesOf events := by
    refine ⟨fun e mem => ⟨"txn", ?_⟩, by decide⟩
    rcases List.mem_pair.mp mem with rfl | rfl
    · exact .inl ⟨_, rfl, rfl, rfl⟩
    · exact .inr ⟨_, rfl⟩
  have all : ∀ e ∈ events, c.world.Processed .paddle e := fun e mem =>
    (Option.any_eq_true _ _).mp (of_decide_eq_true done e mem)
  have once : paidWorld.db.OneGrantEach := List.nodup_nil
  obtain ⟨granted, revoked⟩ := (passes_converge passes once (fun _ _ => rfl)
    (fun _ mem => by cases mem) reached).2.2 all "txn" ⟨_, .head _, .inl ⟨_, rfl, rfl, rfl⟩⟩
  obtain ⟨g, mem, is⟩ := granted.mpr ⟨purchaseEvent "a" "txn", .head _, _, rfl, rfl, rfl⟩
  exact ⟨c, g, mem, is, (revoked g mem is).mpr ⟨passRefundEvent "b" "txn", by decide, _, rfl⟩⟩

end DeclutrMail.Billing
