import DeclutrMail.EmailRuntime.Lease

/-!
# A lease does not come back

The broker creates a record only for the one `register` of its lease, and extends it only while it
has not expired, so a record that is dead stays dead. The lease's own flag is set by replies: it
is never set again once it has been taken back, but the reply that sets it first may come after
the record has expired.
-/

namespace DeclutrMail.EmailRuntime

open Interleaving

variable (lease : Identity)

/-! ## Records -/

/-- The record has not expired. -/
def unexpired (now : ℤ) (raw : Raw) : Bool := (raw.integer "expiresAt").any (now < ·)

namespace World

variable (w : World)

/-- The record of the lease is in the registry and has not expired. -/
def live : Bool := (w.registry.get lease.bootId).any (unexpired w.now)

/-- The record has been there, and has expired, been invalidated or been removed. -/
def Dead : Prop := w.registered = true ∧ w.live lease = false

def registers : ℕ := w.commands.countP (·.2 = .mutate .register)

/-- There is one `register` at most, and it is what creates the record. -/
structure Inv : Prop where
  clock : 0 ≤ w.now
  once : w.registers + (if w.registered then 1 else 0) ≤ 1
  before : w.registrationAttempted = false → w.registers = 0 ∧ w.registered = false
  absent : w.registered = false → w.registry.get lease.bootId = none
  present : w.registered = true → w.removed = false →
    (w.registry.get lease.bootId).isSome = true

/-- What every step keeps. -/
structure Kept (w w' : World) : Prop where
  inv : w'.Inv lease
  dead : w.Dead lease → w'.Dead lease
  revoked : w.revoked = true → w'.revoked = true
  active : w.active = true → w'.active = true ∨ w'.revoked = true
  past : w.revoked = true → w.active = false → w'.active = false

end World

section Scripts

variable {lease} {now : ℤ} {registry : Registry} {command : Command}

/-- What a script may do to the lease's record. -/
inductive Changes (now : ℤ) : Option Raw → Option Raw → Command → Prop
  | same (record : Option Raw) (command : Command) : Changes now record record command
  | created (raw : Raw) : Changes now none (some raw) (.mutate .register)
  | extended {old : Raw} (raw : Raw) (command : Command) (live : unexpired now old = true) :
      Changes now (some old) (some raw) command
  | expired (old : Raw) {raw : Raw} (command : Command) (dead : unexpired now raw = false) :
      Changes now (some old) (some raw) command
  | removed (old : Raw) (command : Command) : Changes now (some old) none command

theorem current_unexpired {raw : Raw} (h : lease.current registry now = some raw) :
    registry.get lease.bootId = some raw ∧ unexpired now raw = true := by
  obtain ⟨found, valid⟩ := Option.filter_eq_some_iff.mp h
  obtain ⟨valid, -⟩ := Bool.and_eq_true_iff.mp valid
  refine ⟨found, ?_⟩
  unfold validEmailRuntimeActor at valid
  unfold unexpired
  split at valid
  · next _ expiry _ =>
    rw [expiry, Option.any_some]
    simp only [Bool.and_eq_true, decide_eq_true_eq] at valid ⊢
    exact valid.1.1.2
  · cases valid

theorem mutate_changes (operation : Operation) : Changes now (registry.get lease.bootId)
    ((lease.mutate operation now registry).2.get lease.bootId) (.mutate operation) := by
  cases operation with
  | register =>
    unfold Identity.mutate
    dsimp only
    split_ifs with refused
    · exact .same _ _
    · have none : registry.get lease.bootId = none := by simpa using (not_or.mp refused).1
      rw [none, InsertionMap.get_set, if_pos rfl]
      exact .created _
  | admission =>
    have same : (lease.mutate .admission now registry).2 = registry := by
      unfold Identity.mutate
      dsimp only
      split
      · rfl
      · split_ifs <;> rfl
    rw [same]
    exact .same _ _
  | renew | publish =>
    unfold Identity.mutate
    dsimp only
    split
    · exact .same _ _
    · next old current =>
      obtain ⟨found, live⟩ := current_unexpired current
      rw [found, InsertionMap.get_set, if_pos rfl]
      exact .extended _ _ live

/-- The script leaves no expiry but zero. -/
theorem lookup_expired (fields : List (String × Field)) :
    (fields.map fun (name, value) =>
      (name, if name = "expiresAt" then Field.integer 0 else value)).lookup "expiresAt" =
        (fields.lookup "expiresAt").map fun _ => .integer 0 := by
  induction fields with
  | nil => rfl
  | cons field fields ih =>
    obtain ⟨name, value⟩ := field
    by_cases here : name = "expiresAt"
    · subst here
      rfl
    · have other : ("expiresAt" == name) = false := by simpa using Ne.symm here
      simp only [List.map_cons, List.lookup_cons, other, ih]

theorem expire_changes (clock : 0 ≤ now) : Changes now (registry.get lease.bootId)
    ((lease.expire registry).2.get lease.bootId) .expire := by
  unfold Identity.expire
  split
  · exact .same _ _
  · next fields found =>
    split_ifs
    · rw [found, InsertionMap.get_set, if_pos rfl]
      refine .expired _ _ ?_
      unfold unexpired Raw.integer Raw.field
      dsimp only
      rw [lookup_expired]
      cases fields.lookup "expiresAt" with
      | none => rfl
      | some value => simpa using clock
    · exact .same _ _
  · exact .same _ _

theorem execute_changes (clock : 0 ≤ now) (command : Command) : Changes now
    (registry.get lease.bootId) ((command.execute lease now registry).2.get lease.bootId)
      command := by
  cases command with
  | mutate operation => exact mutate_changes operation
  | expire => exact expire_changes clock
  | remove =>
    unfold Command.execute Identity.remove
    dsimp only
    split
    · exact .same _ _
    · next old found =>
      split_ifs
      · rw [found, InsertionMap.get_delete, if_pos rfl]
        exact .removed _ _
      · exact .same _ _

end Scripts

/-! ## Steps -/

section Steps

variable {lease} {w : World}

theorem World.Kept.of_flags {w' : World} (inv : w'.Inv lease) (now : w'.now = w.now)
    (registry : w'.registry = w.registry) (registered : w'.registered = w.registered)
    (revoked : w.revoked = true → w'.revoked = true)
    (active : w.active = true → w'.active = true ∨ w'.revoked = true)
    (past : w.revoked = true → w.active = false → w'.active = false) : w.Kept lease w' := by
  refine ⟨inv, fun dead => ⟨registered.trans dead.1, ?_⟩, revoked, active, past⟩
  rw [World.live, registry, now]
  exact dead.2

theorem World.Kept.refl (inv : w.Inv lease) : w.Kept lease w :=
  .of_flags inv rfl rfl rfl (fun h => h) .inl fun _ h => h

/-- A flag of the lease does not concern the invariant. -/
theorem World.Inv.flags (inv : w.Inv lease) {active revoked timer renewing : Bool} :
    World.Inv lease { w with
      active := active, revoked := revoked, timer := timer, renewing := renewing } :=
  ⟨inv.clock, inv.once, inv.before, inv.absent, inv.present⟩

theorem World.Inv.send (inv : w.Inv lease) {command : Command}
    (other : command ≠ .mutate .register) : (w.send command).Inv lease := by
  have same : (w.send command).registers = w.registers := by
    simp [World.registers, World.send, List.countP_append, other]
  refine ⟨inv.clock, ?_, ?_, inv.absent, inv.present⟩
  · rw [same]
    exact inv.once
  · rw [same]
    exact inv.before

/-- The one `register` is sent. -/
theorem World.Inv.sendRegister (inv : w.Inv lease) (first : w.registrationAttempted = false) :
    World.Inv lease ({ w with registrationAttempted := true }.send (.mutate .register)) := by
  obtain ⟨none, unregistered⟩ := inv.before first
  have one : World.registers ({ w with registrationAttempted := true }.send (.mutate .register)) =
      w.registers + 1 := by
    simp [World.registers, World.send, List.countP_append]
  refine ⟨inv.clock, ?_, nofun, inv.absent, inv.present⟩
  rw [one, none]
  simp [World.send, unregistered]

/-- A record that is there has been registered. -/
theorem World.Inv.registered (inv : w.Inv lease) {raw : Raw}
    (found : w.registry.get lease.bootId = some raw) : w.registered = true := by
  by_contra unregistered
  have none := inv.absent (Bool.eq_false_iff.mpr unregistered)
  rw [found] at none
  cases none

theorem registers_execute {id : ℕ} {command : Command} (sent : (id, command) ∈ w.commands) :
    w.registers =
      (w.execute lease id command).registers + if command = .mutate .register then 1 else 0 := by
  have count := (List.perm_cons_erase sent).countP_eq (fun x => decide (x.2 = .mutate .register))
  simpa [World.registers, World.execute, List.countP_cons] using count

/-- What a step leaves of the record and of the one `register`. -/
theorem World.Kept.of_record {w' : World} {old new : Option Raw} (inv : w.Inv lease)
    (was : w.registry.get lease.bootId = old) (becomes : w'.registry.get lease.bootId = new)
    (now : w'.now = w.now) (active : w'.active = w.active) (revoked : w'.revoked = w.revoked)
    (attempted : w'.registrationAttempted = w.registrationAttempted)
    (registered : w'.registered = (w.registered || new.isSome))
    (removed : w'.removed = (w.removed || (old.isSome && new.isNone)))
    (once : w'.registers + (if w'.registered then 1 else 0) ≤
      w.registers + if w.registered then 1 else 0)
    (dies : w.registered = true → old.any (unexpired w.now) = false →
      new.any (unexpired w.now) = false) : w.Kept lease w' := by
  refine ⟨⟨now ▸ inv.clock, Nat.le_trans once inv.once, ?_, ?_, ?_⟩, ?_, fun h => revoked.trans h,
    fun h => .inl (active.trans h), fun _ h => active.trans h⟩
  · intro first
    obtain ⟨none, unregistered⟩ := inv.before (attempted.symm.trans first)
    rw [none, unregistered] at once
    cases there : w'.registered with
    | false => exact ⟨by simpa [there] using once, rfl⟩
    | true => simp [there] at once
  · intro absent
    rw [registered, Bool.or_eq_false_iff] at absent
    rw [becomes]
    simpa using absent.2
  · intro there present
    rw [removed, Bool.or_eq_false_iff] at present
    obtain ⟨kept, still⟩ := present
    rw [becomes]
    cases new with
    | some raw => rfl
    | none =>
      have registered : w.registered = true := by simpa [registered] using there
      have found := inv.present registered kept
      rw [was] at found
      simp [found] at still
  · intro ⟨there, dead⟩
    refine ⟨by rw [registered, there, Bool.true_or], ?_⟩
    unfold World.live at dead ⊢
    rw [was] at dead
    rw [becomes, now]
    exact dies there dead

/-- The broker executes a command. -/
theorem World.Inv.execute (inv : w.Inv lease) {id : ℕ} {command : Command}
    (sent : (id, command) ∈ w.commands) : w.Kept lease (w.execute lease id command) := by
  have changes : Changes w.now (w.registry.get lease.bootId)
      ((command.execute lease w.now w.registry).2.get lease.bootId) command :=
    execute_changes inv.clock command
  have count : w.registers = (w.execute lease id command).registers +
      if command = .mutate .register then 1 else 0 := registers_execute sent
  have becomes : (w.execute lease id command).registry.get lease.bootId =
      (command.execute lease w.now w.registry).2.get lease.bootId := rfl
  have registered : (w.execute lease id command).registered = (w.registered ||
      ((command.execute lease w.now w.registry).2.get lease.bootId).isSome) := rfl
  have unregistered : w.registered = false → w.registry.get lease.bootId = none := inv.absent
  have single := inv.once
  refine .of_record inv rfl becomes rfl rfl rfl rfl registered rfl ?_ ?_
  · rw [registered]
    generalize w.registry.get lease.bootId = old at changes unregistered
    generalize (command.execute lease w.now w.registry).2.get lease.bootId = new at changes ⊢
    cases changes with
    | same => cases old <;> cases known : w.registered <;> simp_all
    | created raw => simp at count ⊢; omega
    | extended raw c alive | expired raw c dead | removed old c =>
      have known : w.registered = true := by
        by_contra unknown
        cases unregistered (Bool.eq_false_iff.mpr unknown)
      rw [known, Bool.true_or]
      omega
  · intro there dead
    generalize w.registry.get lease.bootId = old at changes dead
    generalize (command.execute lease w.now w.registry).2.get lease.bootId = new at changes ⊢
    cases changes with
    | same => exact dead
    | created raw =>
      rw [there] at single
      simp at count single
      omega
    | extended raw c alive => exact absurd (alive.symm.trans dead) (by decide)
    | expired old c past => exact past
    | removed old c => rfl

/-- What else happens to the registry. -/
theorem World.Inv.disturb {w' : World} {e : Event} (inv : w.Inv lease)
    (happened : EmailRuntime.disturb lease e w = some w') : w.Kept lease w' := by
  cases e with
  | execute id command =>
    obtain ⟨sent, happened⟩ := Option.ite_none_right_eq_some.mp happened
    obtain rfl := Option.some.inj happened
    exact inv.execute sent
  | elapse ms =>
    obtain rfl := Option.some.inj happened
    refine ⟨⟨?_, inv.once, inv.before, inv.absent, inv.present⟩, ?_, fun h => h, .inl,
      fun _ h => h⟩
    · have := inv.clock
      show 0 ≤ w.now + ms
      omega
    · rintro ⟨there, dead⟩
      refine ⟨there, ?_⟩
      unfold World.live at dead ⊢
      dsimp only
      cases found : w.registry.get lease.bootId with
      | none => rfl
      | some raw =>
        rw [found] at dead
        simp only [Option.any_some, unexpired] at dead ⊢
        cases expiry : raw.integer "expiresAt" with
        | none => rfl
        | some n =>
          rw [expiry] at dead
          simp only [Option.any_some, decide_eq_false_iff_not] at dead ⊢
          omega
  | foreign id record =>
    obtain ⟨other, happened⟩ := Option.ite_none_left_eq_some.mp happened
    have same : w'.registry.get lease.bootId = w.registry.get lease.bootId := by
      rw [← Option.some.inj happened]
      cases record with
      | some raw => exact (InsertionMap.get_set ..).trans (if_neg other)
      | none => exact (InsertionMap.get_delete ..).trans (if_neg other)
    obtain rfl := Option.some.inj happened
    refine ⟨⟨inv.clock, inv.once, inv.before, ?_, ?_⟩, ?_, fun h => h, .inl, fun _ h => h⟩
    · intro absent
      exact same.trans (inv.absent absent)
    · intro there kept
      exact (congrArg _ same).trans (inv.present there kept)
    · rintro ⟨there, dead⟩
      refine ⟨there, ?_⟩
      exact (congrArg (Option.any (unexpired w.now)) same).trans dead

/-- A call that fails gives the lease up. -/
theorem World.Kept.lose (inv : w.Inv lease) : w.Kept lease w.lose :=
  .of_flags inv.flags rfl rfl rfl (fun _ => rfl) (fun _ => .inr rfl) fun _ _ => rfl

theorem World.Kept.sends {w' : World} (kept : w.Kept lease w') {command : Command}
    (other : command ≠ .mutate .register) : w.Kept lease (w'.send command) :=
  ⟨kept.inv.send other, kept.dead, kept.revoked, kept.active, kept.past⟩

end Steps

/-! ## Calls -/

/-- The two requests that clear the flag of a lease which is revoked already. -/
def Request.clears : Request → Bool
  | .deactivate | .sendRemove => true
  | _ => false

theorem enter_kept {lease : Identity} {w w' : World} (inv : w.Inv lease)
    {operation : Operation} {c : Choice} {r : Except LeaseError ℕ}
    (answered : answer (.enter operation) c w = some (r, w')) : w.Kept lease w' := by
  cases c with
  | error => cases answered
  | ok =>
    simp only [answer] at answered
    split_ifs at answered with register attempted past closed
    · obtain ⟨-, rfl⟩ := Prod.mk.inj (Option.some.inj answered)
      exact .refl inv
    · obtain ⟨-, rfl⟩ := Prod.mk.inj (Option.some.inj answered)
      have inv' : World.Inv lease { w with registrationAttempted := true } :=
        ⟨inv.clock, inv.once, nofun, inv.absent, inv.present⟩
      exact .of_flags inv' rfl rfl rfl (fun h => h) .inl fun _ h => h
    · obtain ⟨-, rfl⟩ := Prod.mk.inj (Option.some.inj answered)
      subst register
      exact .of_flags (inv.sendRegister (Bool.not_eq_true _ ▸ attempted)) rfl rfl rfl (fun h => h)
        .inl fun _ h => h
    · obtain ⟨-, rfl⟩ := Prod.mk.inj (Option.some.inj answered)
      exact .refl inv
    · obtain ⟨-, rfl⟩ := Prod.mk.inj (Option.some.inj answered)
      exact World.Kept.sends (.refl inv) (by simpa using register)

theorem conclude_kept {lease : Identity} {w w' : World} (inv : w.Inv lease)
    {result : Option ℤ} {c : Choice} {r : Except LeaseError Unit}
    (answered : answer (.conclude result) c w = some (r, w')) : w.Kept lease w' := by
  cases c with
  | error => cases result <;> cases answered
  | ok =>
    cases result with
    | none =>
      obtain ⟨-, rfl⟩ := Prod.mk.inj (Option.some.inj answered)
      exact .lose inv
    | some reply =>
      simp only [answer] at answered
      split_ifs at answered with past
      · obtain ⟨-, rfl⟩ := Prod.mk.inj (Option.some.inj answered)
        exact .lose inv
      · obtain ⟨-, rfl⟩ := Prod.mk.inj (Option.some.inj answered)
        exact .of_flags inv.flags rfl rfl rfl (fun h => h) (fun _ => .inl rfl)
          fun revoked _ => absurd (.inl revoked) past

/-- Every answer keeps what a step has to keep. -/
theorem answer_kept {lease : Identity} {w w' : World} (inv : w.Inv lease) {q : Request}
    {c : Choice} {r : Except LeaseError q.Answer} (clears : q.clears = true → w.revoked = true)
    (answered : answer q c w = some (r, w')) : w.Kept lease w' := by
  cases q with
  | enter operation => exact enter_kept inv answered
  | conclude result => exact conclude_kept inv answered
  | await command =>
    cases c with
    | ok =>
      obtain ⟨reply, -, same⟩ := Option.map_eq_some_iff.mp answered
      obtain ⟨-, rfl⟩ := Prod.mk.inj same
      exact .refl inv
    | error =>
      obtain ⟨-, rfl⟩ := Prod.mk.inj (Option.some.inj answered)
      exact .refl inv
  | startTimer =>
    cases c with
    | error => cases answered
    | ok =>
      simp only [answer] at answered
      split_ifs at answered
      all_goals obtain ⟨-, rfl⟩ := Prod.mk.inj (Option.some.inj answered)
      · exact .refl inv
      · exact .of_flags inv.flags rfl rfl rfl (fun h => h) .inl fun _ h => h
  | beginRenew =>
    cases c with
    | error => cases answered
    | ok =>
      simp only [answer] at answered
      split_ifs at answered
      all_goals obtain ⟨-, rfl⟩ := Prod.mk.inj (Option.some.inj answered)
      · exact .refl inv
      · exact .of_flags inv.flags rfl rfl rfl (fun h => h) .inl fun _ h => h
  | endRenew | stopRenewing =>
    cases c with
    | error => cases answered
    | ok =>
      obtain ⟨-, rfl⟩ := Prod.mk.inj (Option.some.inj answered)
      exact .of_flags inv.flags rfl rfl rfl (fun h => h) .inl fun _ h => h
  | onLost =>
    cases c with
    | ok | error =>
      obtain ⟨-, rfl⟩ := Prod.mk.inj (Option.some.inj answered)
      exact .refl inv
  | awaitRenew =>
    cases c with
    | ok | error =>
      simp only [answer] at answered
      split_ifs at answered
      obtain ⟨-, rfl⟩ := Prod.mk.inj (Option.some.inj answered)
      exact .refl inv
  | fence =>
    cases c with
    | error => cases answered
    | ok =>
      obtain ⟨-, rfl⟩ := Prod.mk.inj (Option.some.inj answered)
      have kept : w.Kept lease { w.lose with timer := false } :=
        .of_flags inv.flags rfl rfl rfl (fun _ => rfl) (fun _ => .inr rfl) fun _ _ => rfl
      exact kept.sends nofun
  | retire =>
    cases c with
    | error => cases answered
    | ok =>
      obtain ⟨-, rfl⟩ := Prod.mk.inj (Option.some.inj answered)
      exact .of_flags inv.flags rfl rfl rfl (fun _ => rfl) .inl fun _ h => h
  | deactivate =>
    cases c with
    | error => cases answered
    | ok =>
      obtain ⟨-, rfl⟩ := Prod.mk.inj (Option.some.inj answered)
      exact .of_flags inv.flags rfl rfl rfl (fun h => h) (fun _ => .inr (clears rfl)) fun _ _ => rfl
  | sendRemove =>
    cases c with
    | error => cases answered
    | ok =>
      obtain ⟨-, rfl⟩ := Prod.mk.inj (Option.some.inj answered)
      have kept : w.Kept lease { w with active := false } :=
        .of_flags inv.flags rfl rfl rfl (fun h => h) (fun _ => .inr (clears rfl)) fun _ _ => rfl
      exact kept.sends nofun

/-- What the other calls leave to a call: once the lease is revoked it stays so. -/
def Rely (_ : ℕ) (w w' : World) : Prop := w'.Inv lease ∧ (w.revoked = true → w'.revoked = true)

def Guarantee (_ : ℕ) (w w' : World) : Prop := w.Kept lease w'

section Calls

variable {lease} {t : ℕ}

def sane : Assertion (W := World) (Rely lease t) := ⟨World.Inv lease, fun _ _ _ h => h.1⟩

def revoked : Assertion (W := World) (Rely lease t) :=
  ⟨fun w => w.Inv lease ∧ w.revoked = true, fun _ _ h r => ⟨r.1, r.2 h.2⟩⟩

abbrev Does (lease : Identity) (t : ℕ) {α : Type} (A : Assertion (W := World) (Rely lease t)) (p : LeaseProgram α)
    (B : α → Assertion (W := World) (Rely lease t))
    (E : LeaseError → Assertion (W := World) (Rely lease t)) : Prop :=
  Triple (M := leasing lease) (Guarantee lease) A p B E

theorem calls {q : Request} (h : q.clears = false) :
    Does lease t sane (run q) (fun _ => sane) fun _ => sane := by
  refine Triple.perform fun w inv c r w' answered => ?_
  have kept : w.Kept lease w' := answer_kept inv (by simp [h]) answered
  exact ⟨kept, by cases r <;> exact kept.inv⟩

/-- A request of a call that has revoked the lease. -/
theorem calls_revoked (q : Request) :
    Does lease t revoked (run q) (fun _ => revoked) fun _ => revoked := by
  refine Triple.perform fun w ⟨inv, past⟩ c r w' answered => ?_
  have kept : w.Kept lease w' := answer_kept inv (fun _ => past) answered
  exact ⟨kept, by cases r <;> exact ⟨kept.inv, kept.revoked past⟩⟩

/-- The request that revokes the lease. -/
theorem revokes {q : Request} (h : q.clears = false)
    (past : ∀ w c r w', answer q c w = some (r, w') → w'.revoked = true) :
    Does lease t sane (run q) (fun _ => revoked) fun _ => revoked := by
  refine Triple.perform fun w inv c r w' answered => ?_
  have kept : w.Kept lease w' := answer_kept inv (by simp [h]) answered
  exact ⟨kept, by cases r <;> exact ⟨kept.inv, past w c _ w' answered⟩⟩

theorem mutate_does (operation : Operation) :
    Does lease t sane (mutate operation) (fun _ => sane) fun _ => sane := by
  refine (calls (q := .enter operation) rfl).bind fun command => ?_
  refine Triple.bind (B := fun _ => sane) ?_ fun result => calls (q := .conclude result) rfl
  refine Triple.tryCatch (F := fun _ => sane) ?_ fun _ => Triple.done fun _ h => h
  exact (calls (q := .await command) rfl).bind fun _ => Triple.done fun _ h => h

theorem tick_does : Does lease t sane tick (fun _ => sane) fun _ => sane := by
  refine (calls (q := .beginRenew) rfl).bind fun begun => ?_
  cases begun with
  | false => exact Triple.done fun _ h => h
  | true =>
    refine Triple.bind (B := fun _ => sane) ?_ fun _ => calls (q := .endRenew) rfl
    refine (mutate_does .renew).tryCatch fun _ => ?_
    refine (calls (q := .stopRenewing) rfl).bind fun _ => ?_
    exact (calls (q := .onLost) rfl).tryCatch fun _ => Triple.done fun _ h => h

theorem invalidate_does :
    Does lease t sane invalidate (fun _ => revoked) fun _ => revoked := by
  have fences : Does lease t sane (run .fence) (fun _ => revoked)
      fun _ => revoked := by
    refine revokes rfl fun w c r w' answered => ?_
    cases c with
    | error => cases answered
    | ok =>
      obtain ⟨-, rfl⟩ := Prod.mk.inj (Option.some.inj answered)
      rfl
  refine fences.bind fun command => (calls_revoked (.await command)).bind fun reply => ?_
  refine Triple.bind (B := fun _ => revoked)
    ((calls_revoked .awaitRenew).tryCatch fun _ => Triple.done fun _ h => h) fun _ => ?_
  refine (calls_revoked .deactivate).bind fun _ => ?_
  split_ifs
  · exact Triple.done fun _ h => h
  · exact Triple.failed fun _ h => h

theorem release_does :
    Does lease t sane release (fun _ => revoked) fun _ => revoked := by
  have retires : Does lease t sane (run .retire) (fun _ => revoked)
      fun _ => revoked := by
    refine revokes rfl fun w c r w' answered => ?_
    cases c with
    | error => cases answered
    | ok =>
      obtain ⟨-, rfl⟩ := Prod.mk.inj (Option.some.inj answered)
      rfl
  refine retires.bind fun _ => (calls_revoked .awaitRenew).bind fun _ => ?_
  refine (calls_revoked .sendRemove).bind fun command => ?_
  refine (calls_revoked (.await command)).bind fun removed => ?_
  split_ifs
  · exact Triple.done fun _ h => h
  · exact Triple.failed fun _ h => h

theorem code_does (call : Call) :
    Does lease t sane call.code (fun _ => sane) fun _ => sane := by
  have weaker (w : World) (h : w.Inv lease ∧ w.revoked = true) : w.Inv lease := h.1
  cases call with
  | mutate operation => exact mutate_does operation
  | startRenewing => exact calls (q := .startTimer) rfl
  | tick => exact tick_does
  | invalidate =>
    exact invalidate_does.consequence (fun _ h => h) (fun _ => weaker) fun _ => weaker
  | release => exact release_does.consequence (fun _ h => h) (fun _ => weaker) fun _ => weaker

end Calls

/-! ## Runs -/

theorem verified : Verified (leasing lease) (fun _ _ => True) (Rely lease) (Guarantee lease)
    (World.Inv lease) (fun _ _ => True) fun _ _ _ => True where
  guarantee_rely _ _ kept := ⟨kept.inv, kept.revoked⟩
  guarantee_inv _ kept := kept.inv
  idle_stable _ _ _ _ _ := trivial
  start := by
    intro t call w w' inv _ accepted
    obtain rfl := Option.some.inj accepted
    exact ⟨.refl inv, (code_does call w inv).mono fun _ _ _ => trivial⟩
  finish := by
    intro t r w w' inv _ settled
    obtain rfl := Option.some.inj settled
    exact ⟨.refl inv, trivial⟩
  crash := by
    intro t w w' inv crashed
    obtain rfl := Option.some.inj crashed
    exact ⟨.refl inv, trivial⟩
  disturb := by
    intro e w w' inv _ happened
    have kept : w.Kept lease w' := inv.disturb happened
    exact ⟨kept.inv, fun _ => ⟨kept.inv, kept.revoked⟩⟩

/-- Before the first call of the lease. -/
structure World.Fresh (w : World) : Prop where
  clock : 0 ≤ w.now
  absent : w.registry.get lease.bootId = none
  commands : w.commands = []
  active : w.active = false
  attempted : w.registrationAttempted = false
  registered : w.registered = false

variable {lease} {w : World} {c d : Config (leasing lease)}

theorem World.Fresh.inv (fresh : w.Fresh lease) : w.Inv lease := by
  refine ⟨fresh.clock, ?_, fun _ => ⟨?_, fresh.registered⟩, fun _ => fresh.absent, ?_⟩
  · simp [World.registers, fresh.commands, fresh.registered]
  · simp [World.registers, fresh.commands]
  · intro there
    rw [fresh.registered] at there
    cases there

theorem kept_step {m : Move (leasing lease)} (fresh : w.Fresh lease)
    (before : Reaches (Config.idle w) c) (taken : c.step m = some d) :
    World.Kept lease c.world d.world := by
  have sound := verified lease |>.sound fresh.inv (fun _ => trivial) before
  rcases ((verified lease).step_sound sound trivial taken).2 with ⟨t, kept⟩ | ⟨e, -, happened⟩
  · exact kept
  · exact World.Inv.disturb sound.inv happened

/-- A dead record stays dead. -/
theorem dead_run (fresh : w.Fresh lease) (before : Reaches (Config.idle w) c)
    (dead : World.Dead lease c.world) (after : Reaches c d) : World.Dead lease d.world := by
  induction after with
  | refl => exact dead
  | step onward _ taken ih => exact (kept_step fresh (before.trans onward) taken).dead ih

/-- A lease that has been active is active or revoked. -/
theorem active_run (fresh : w.Fresh lease) (before : Reaches (Config.idle w) c)
    (active : c.world.active = true ∨ c.world.revoked = true) (after : Reaches c d) :
    d.world.active = true ∨ d.world.revoked = true := by
  induction after with
  | refl => exact active
  | step onward _ taken ih =>
    have kept := kept_step fresh (before.trans onward) taken
    rcases ih with on | past
    · exact kept.active on
    · exact .inr (kept.revoked past)

/-- A lease that is revoked and not active stays so. -/
theorem over_run (fresh : w.Fresh lease) (before : Reaches (Config.idle w) c)
    (revoked : c.world.revoked = true) (off : c.world.active = false) (after : Reaches c d) :
    d.world.revoked = true ∧ d.world.active = false := by
  induction after with
  | refl => exact ⟨revoked, off⟩
  | step onward _ taken ih =>
    have kept := kept_step fresh (before.trans onward) taken
    exact ⟨kept.revoked ih.1, kept.past ih.1 ih.2⟩

/-- The reader does not pass the record of a dead lease that has not been taken out. -/
theorem World.Inv.removed_of_read (inv : w.Inv lease) (dead : w.Dead lease) {Witness : Type}
    {verify : Witness → ℤ → Except Refusal Sealed} {witness : Witness} {date : ℤ}
    {invalidated : Bool} {workers : ℕ}
    (read : readEmailRuntimeLeases verify witness date invalidated w.now w.registry =
      .ok workers) : w.removed = true := by
  by_contra kept
  obtain ⟨proof, -, settled⟩ := read_settled read
  have present := inv.present dead.1 (Bool.eq_false_iff.mpr kept)
  obtain ⟨raw, found⟩ := Option.isSome_iff_exists.mp present
  obtain ⟨-, a, formed, -, -, unexpired, -⟩ := settled _ _ found
  have live : w.live lease = true := by
    simp [World.live, found, EmailRuntime.unexpired, Raw.integer, formed.expiresAt, unexpired]
  exact absurd (dead.2.symm.trans live) (by decide)

/-- The record of a lease that is dead stays dead; a lease that has been active and is not, or
that is revoked and not active, is never active again; and the reader succeeds only when every row
is settled, and the row of a dead lease only when it has been released. -/
theorem no_return (lease : Identity) (w : World) (fresh : w.Fresh lease)
    (c d : Config (leasing lease)) (before : Reaches (Config.idle w) c) (after : Reaches c d) :
    (World.Dead lease c.world → World.Dead lease d.world) ∧
    (∀ b : Config (leasing lease), Reaches (Config.idle w) b → Reaches b c →
      b.world.active = true → c.world.active = false → d.world.active = false) ∧
    (c.world.revoked = true → c.world.active = false → d.world.active = false) ∧
    ∀ (Witness : Type) (verify : Witness → ℤ → Except Refusal Sealed) (witness : Witness)
      (date : ℤ) (invalidated : Bool) (workers : ℕ),
      readEmailRuntimeLeases verify witness date invalidated d.world.now d.world.registry =
        .ok workers →
      (∃ proof, verify witness date = .ok proof ∧
        ∀ id raw, d.world.registry.get id = some raw → Settled proof d.world.now id raw) ∧
      (World.Dead lease c.world → d.world.removed = true) := by
  refine ⟨fun dead => dead_run fresh before dead after, ?_, ?_, ?_⟩
  · intro b start onward active off
    have revoked : c.world.revoked = true := by
      rcases active_run fresh start (.inl active) onward with on | past
      · exact absurd (off.symm.trans on) (by decide)
      · exact past
    exact (over_run fresh before revoked off after).2
  · exact fun revoked off => (over_run fresh before revoked off after).2
  · intro Witness verify witness date invalidated workers read
    have inv : World.Inv lease d.world :=
      ((verified lease).sound fresh.inv (fun _ => trivial) (before.trans after)).inv
    exact ⟨read_settled read, fun dead =>
      inv.removed_of_read (dead_run fresh before dead after) read⟩

def sampleLease : Identity where
  bootId := "3f2a7c10-9b4e-4d21-8c55-0a1b2c3d4e5f"
  revision := "declutrmail-worker-7"
  source := "00112233445566778899aabbccddeeff00112233"
  ttl := 1000
  billingConsumer := false
  uuid := by decide +kernel
  worker := by decide +kernel
  hash := by decide +kernel
  bounds := by decide

def unregistered : World :=
  ⟨0, .empty, false, false, false, false, false, 0, [], [], false, false⟩

theorem unregistered_fresh : unregistered.Fresh sampleLease :=
  ⟨Int.le_refl 0, rfl, rfl, rfl, rfl, rfl⟩

/-- The registration is executed, and its record expires. -/
def expiring : List (Move (leasing sampleLease)) :=
  [.start 0 (.mutate .register), .reply 0 .ok, .disturb (.execute 0 (.mutate .register)),
    .disturb (.elapse 2000)]

/-- The reply to the registration has come in time, and an admission finds the record expired. -/
def refused : List (Move (leasing sampleLease)) :=
  [.start 0 (.mutate .register), .reply 0 .ok, .disturb (.execute 0 (.mutate .register)),
    .reply 0 .ok, .reply 0 .ok, .finish 0, .disturb (.elapse 2000),
    .start 1 (.mutate .admission), .reply 1 .ok, .disturb (.execute 1 (.mutate .admission)),
    .reply 1 .ok, .reply 1 .ok, .finish 1]

instance (w : World) : Decidable (w.Dead lease) := inferInstanceAs (Decidable (_ ∧ _))

theorem no_return_refused : ∃ c d : Config (leasing sampleLease),
    Reaches (Config.idle unregistered) c ∧ Reaches c d ∧ World.Dead sampleLease c.world ∧
    c.world.active = false ∧ World.Dead sampleLease d.world ∧ d.world.active = false := by
  obtain ⟨c, before, dead⟩ := exists_reaches
    (c := Config.idle (M := leasing sampleLease) unregistered) (l := refused)
    (p := fun c => decide (World.Dead sampleLease c.world ∧
      c.world.active = false ∧ c.world.revoked = true)) (by decide +kernel)
  obtain ⟨dead, off, revoked⟩ := of_decide_eq_true dead
  have after : Reaches c { c with world := { c.world with now := c.world.now + 5 } } :=
    .step (m := .disturb (.elapse 5)) .refl trivial rfl
  obtain ⟨stays, -, past, -⟩ :=
    no_return sampleLease unregistered unregistered_fresh c _ before after
  exact ⟨c, _, before, after, dead, off, stays dead, past revoked off⟩

/-- The reply to the registration comes after the record has expired, and the lease takes itself
for active. -/
theorem late_registration : ¬∀ (lease : Identity) (w : World), w.Fresh lease →
    ∀ c d : Config (leasing lease), Reaches (Config.idle w) c → Reaches c d →
      World.Dead lease c.world → c.world.active = false → d.world.active = false := by
  intro never
  obtain ⟨c, before, dead⟩ := exists_reaches
    (c := Config.idle (M := leasing sampleLease) unregistered) (l := expiring)
    (p := fun c => decide (World.Dead sampleLease c.world ∧
      c.world.active = false) && (c.run [.reply 0 .ok, .reply 0 .ok]).any (·.world.active))
    (by decide +kernel)
  obtain ⟨dead, late⟩ := Bool.and_eq_true_iff.mp dead
  obtain ⟨dead, off⟩ := of_decide_eq_true dead
  obtain ⟨d, after, active⟩ := exists_reaches late
  have off := never sampleLease unregistered unregistered_fresh c d before after dead off
  exact absurd (off.symm.trans active) (by decide)

end DeclutrMail.EmailRuntime
