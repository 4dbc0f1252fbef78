import Mathlib.Logic.Relation
import DeclutrMail.Collections.InsertionMap

/-!
# Unwrapped tokens

The worker unwraps the refresh token of a mailbox with a call to the key service, and keeps what it
got in `TokenUnwrapCache`. A job reads the row of the mailbox and then asks the cache; what the key
service answers is stored once it comes. Jobs overlap, and the row may change at any time.
-/

namespace DeclutrMail.Auth

variable {B : Type*}

/-- A mailbox has the id of its account. The buffers are of type `B`. -/
structure Entry (B : Type*) where
  ciphertext : B
  wrappedDek : B
  plaintext : String
  storedAtMs : ℤ

structure TokenUnwrapCacheOptions where
  ttlMs : ℤ
  maxEntries : ℕ

def DEFAULT_TOKEN_UNWRAP_OPTIONS : TokenUnwrapCacheOptions := ⟨10 * 60 * 1000, 256⟩

abbrev TokenUnwrapCache (B : Type*) := InsertionMap String (Entry B)

namespace TokenUnwrapCache

def get [DecidableEq B] (options : TokenUnwrapCacheOptions) (entries : TokenUnwrapCache B) (now : ℤ)
    (mailboxAccountId : String) (ciphertext wrappedDek : B) :
    Option String × TokenUnwrapCache B :=
  match InsertionMap.get entries mailboxAccountId with
  | none => (none, entries)
  | some hit =>
    if options.ttlMs ≤ now - hit.storedAtMs then (none, entries.delete mailboxAccountId)
    else if hit.ciphertext ≠ ciphertext ∨ hit.wrappedDek ≠ wrappedDek then
      (none, entries.delete mailboxAccountId)
    else (some hit.plaintext, entries)

def set (options : TokenUnwrapCacheOptions) (entries : TokenUnwrapCache B) (now : ℤ)
    (mailboxAccountId : String) (ciphertext wrappedDek : B) (plaintext : String) :
    TokenUnwrapCache B :=
  ((entries.delete mailboxAccountId).set mailboxAccountId
    ⟨ciphertext, wrappedDek, plaintext, now⟩).evict options.maxEntries

variable {options : TokenUnwrapCacheOptions} {entries entries' : TokenUnwrapCache B} {now : ℤ}
  {id : String} {ciphertext wrappedDek : B} {refreshToken : String} {entry : Entry B}

/-- What is found is the newest that was set, and young. -/
theorem get_some [DecidableEq B] (found : entries.get options now id ciphertext wrappedDek =
    (some refreshToken, entries')) : entries' = entries ∧ ∃ storedAtMs,
      (id, ⟨ciphertext, wrappedDek, refreshToken, storedAtMs⟩) ∈ entries.entries ∧
        now - storedAtMs < options.ttlMs := by
  unfold get at found
  split at found
  · cases found
  · rename_i hit there
    split_ifs at found with old other
    · cases found
    · cases found
    rw [not_or, not_not, not_not] at other
    obtain ⟨rfl, rfl⟩ := other
    obtain ⟨token, rfl⟩ := Prod.mk.inj found
    obtain rfl := Option.some.inj token
    exact ⟨rfl, hit.storedAtMs, InsertionMap.mem_of_find there, by omega⟩

theorem get_sublist [DecidableEq B] (options : TokenUnwrapCacheOptions)
    (entries : TokenUnwrapCache B) (now : ℤ) (id : String) (ciphertext wrappedDek : B) :
    (entries.get options now id ciphertext wrappedDek).2.entries.Sublist entries.entries := by
  unfold get
  split
  · exact List.Sublist.refl _
  · split_ifs
    · exact List.filter_sublist
    · exact List.filter_sublist
    · exact List.Sublist.refl _

theorem mem_set (mem : (id, entry) ∈
    (entries.set options now id ciphertext wrappedDek refreshToken).entries) :
    entry = ⟨ciphertext, wrappedDek, refreshToken, now⟩ := by
  have mem := (InsertionMap.evict_sublist ..).subset mem
  rw [InsertionMap.mem_entries_iff, InsertionMap.get_set, if_pos rfl] at mem
  exact (Option.some.inj mem).symm

theorem mem_set_of_ne {id' : String} (other : id' ≠ id) (mem : (id', entry) ∈
    (entries.set options now id ciphertext wrappedDek refreshToken).entries) :
    (id', entry) ∈ entries.entries := by
  have mem := (InsertionMap.evict_sublist ..).subset mem
  rw [InsertionMap.mem_entries_iff, InsertionMap.get_set, if_neg (Ne.symm other),
    InsertionMap.get_delete, if_neg (Ne.symm other)] at mem
  exact InsertionMap.mem_entries_iff.mpr mem

end TokenUnwrapCache

/-! ## Jobs -/

structure MailboxRow (B : Type*) where
  encryptedRefreshToken : Option B
  dekEncrypted : Option B

/-- How far `getGmailClient` comes with the row that it has read. -/
inductive LookUp (B : Type*)
  | notFound
  | invalidGrant
  | cached (ciphertext wrappedDek : B) (refreshToken : String)
  | unwrap (ciphertext wrappedDek : B)

def lookUp [DecidableEq B] (options : TokenUnwrapCacheOptions) (entries : TokenUnwrapCache B)
    (now : ℤ) (mailboxAccountId : String) (account : Option (MailboxRow B)) :
    LookUp B × TokenUnwrapCache B :=
  match account with
  | none => (.notFound, entries)
  | some ⟨some ciphertext, some wrappedDek⟩ =>
    match entries.get options now mailboxAccountId ciphertext wrappedDek with
    | (some refreshToken, entries) => (.cached ciphertext wrappedDek refreshToken, entries)
    | (none, entries) => (.unwrap ciphertext wrappedDek, entries)
  | some _ => (.invalidGrant, entries)

/-- A job between its read and its client. -/
inductive Pending (B : Type*)
  | looking (account : Option (MailboxRow B))
  | unwrapping (ciphertext wrappedDek : B)

/-- What a job has got for the columns that it read. -/
structure Delivery (B : Type*) where
  mailboxAccountId : String
  ciphertext : B
  wrappedDek : B
  refreshToken : String
  time : ℤ

/-- `reads`, `unwrapped` and `delivered` record what jobs have read, what the key service has
answered and what jobs have got. -/
structure Worker (B : Type*) where
  rows : String → Option (MailboxRow B)
  entries : TokenUnwrapCache B
  jobs : List (String × Pending B)
  reads : List (String × Option (MailboxRow B))
  unwrapped : List (Delivery B)
  delivered : List (Delivery B)

def Worker.start (rows : String → Option (MailboxRow B)) : Worker B :=
  ⟨rows, .empty, [], [], [], []⟩

variable [DecidableEq B] (options : TokenUnwrapCacheOptions) (decrypt : B → B → Option String)

/-- A job looks its row over, and is done unless it has to call the key service. -/
def Worker.look (w : Worker B) (now : ℤ) (id : String) (account : Option (MailboxRow B))
    (others : List (String × Pending B)) : Worker B :=
  match lookUp options w.entries now id account with
  | (.cached ciphertext wrappedDek refreshToken, entries) =>
    { w with
      entries
      jobs := others
      delivered := ⟨id, ciphertext, wrappedDek, refreshToken, now⟩ :: w.delivered }
  | (.unwrap ciphertext wrappedDek, entries) =>
    { w with entries, jobs := (id, .unwrapping ciphertext wrappedDek) :: others }
  | (_, entries) => { w with entries, jobs := others }

/-- What can happen next. The clock may step back, and a call of the key service may fail. -/
inductive Step : Worker B → Worker B → Prop
  | write (w : Worker B) (rows : String → Option (MailboxRow B)) : Step w { w with rows }
  | read (w : Worker B) (id : String) :
    Step w { w with
      jobs := (id, .looking (w.rows id)) :: w.jobs
      reads := (id, w.rows id) :: w.reads }
  | look {w : Worker B} {id : String} {account : Option (MailboxRow B)}
      {others : List (String × Pending B)} (now : ℤ)
      (job : w.jobs.Perm ((id, .looking account) :: others)) :
    Step w (w.look options now id account others)
  | unwrap {w : Worker B} {id : String} {ciphertext wrappedDek : B} {refreshToken : String}
      {others : List (String × Pending B)} (now : ℤ)
      (job : w.jobs.Perm ((id, .unwrapping ciphertext wrappedDek) :: others))
      (answer : decrypt ciphertext wrappedDek = some refreshToken) :
    Step w { w with
      entries := w.entries.set options now id ciphertext wrappedDek refreshToken
      jobs := others
      unwrapped := ⟨id, ciphertext, wrappedDek, refreshToken, now⟩ :: w.unwrapped
      delivered := ⟨id, ciphertext, wrappedDek, refreshToken, now⟩ :: w.delivered }
  | fail {w : Worker B} {id : String} {ciphertext wrappedDek : B}
      {others : List (String × Pending B)}
      (job : w.jobs.Perm ((id, .unwrapping ciphertext wrappedDek) :: others)) :
    Step w { w with jobs := others }

def Reachable (w : Worker B) : Prop :=
  ∃ rows, Relation.ReflTransGen (Step options decrypt) (Worker.start rows) w

/-! ## What jobs get -/

variable {options decrypt} {w w' : Worker B}

/-- The row that a job must have read. -/
def Pending.account : Pending B → Option (MailboxRow B)
  | .looking account => account
  | .unwrapping ciphertext wrappedDek => some ⟨some ciphertext, some wrappedDek⟩

def Delivery.account (d : Delivery B) : Option (MailboxRow B) :=
  some ⟨some d.ciphertext, some d.wrappedDek⟩

/-- The answer of the key service that a job has got, and how old it is then. -/
def Delivery.Of (ttlMs : ℤ) (d u : Delivery B) : Prop :=
  d = { u with time := d.time } ∧ (d.time = u.time ∨ d.time - u.time < ttlMs)

structure Sound (options : TokenUnwrapCacheOptions) (decrypt : B → B → Option String)
    (w : Worker B) : Prop where
  size : w.entries.entries.length ≤ options.maxEntries
  entry : ∀ id e, (id, e) ∈ w.entries.entries →
    ⟨id, e.ciphertext, e.wrappedDek, e.plaintext, e.storedAtMs⟩ ∈ w.unwrapped
  job : ∀ id pending, (id, pending) ∈ w.jobs → (id, pending.account) ∈ w.reads
  answer : ∀ u ∈ w.unwrapped, decrypt u.ciphertext u.wrappedDek = some u.refreshToken
  read : ∀ d ∈ w.delivered, (d.mailboxAccountId, d.account) ∈ w.reads
  fresh : ∀ d ∈ w.delivered, ∃ u ∈ w.unwrapped, d.Of options.ttlMs u

omit [DecidableEq B] in
theorem Sound.start (rows : String → Option (MailboxRow B)) :
    Sound options decrypt (Worker.start rows) :=
  ⟨Nat.zero_le _, nofun, nofun, nofun, nofun, nofun⟩

/-- What a look at the row and the cache leads to. -/
theorem lookUp_spec (options : TokenUnwrapCacheOptions) (entries : TokenUnwrapCache B) (now : ℤ)
    (id : String) (account : Option (MailboxRow B)) :
    (lookUp options entries now id account).2.entries.Sublist entries.entries ∧
      match (lookUp options entries now id account).1 with
      | .cached ciphertext wrappedDek refreshToken =>
        account = some ⟨some ciphertext, some wrappedDek⟩ ∧ ∃ storedAtMs,
          (id, ⟨ciphertext, wrappedDek, refreshToken, storedAtMs⟩) ∈ entries.entries ∧
            now - storedAtMs < options.ttlMs
      | .unwrap ciphertext wrappedDek => account = some ⟨some ciphertext, some wrappedDek⟩
      | _ => True := by
  match account with
  | none => exact ⟨List.Sublist.refl _, trivial⟩
  | some ⟨some ciphertext, some wrappedDek⟩ =>
    have kept := entries.get_sublist options now id ciphertext wrappedDek
    unfold lookUp
    dsimp only
    split
    · rename_i refreshToken entries' found
      rw [found] at kept
      exact ⟨kept, rfl, (TokenUnwrapCache.get_some found).2⟩
    · rename_i entries' found
      rw [found] at kept
      exact ⟨kept, rfl⟩
  | some ⟨none, _⟩ => exact ⟨List.Sublist.refl _, trivial⟩
  | some ⟨some _, none⟩ => exact ⟨List.Sublist.refl _, trivial⟩

theorem Sound.look (sound : Sound options decrypt w) (now : ℤ) {id : String}
    {account : Option (MailboxRow B)} {others : List (String × Pending B)}
    (job : w.jobs.Perm ((id, .looking account) :: others)) :
    Sound options decrypt (w.look options now id account others) := by
  have own : (id, account) ∈ w.reads :=
    sound.job id (.looking account) (job.mem_iff.mpr List.mem_cons_self)
  have rest (id' : String) (pending : Pending B) (mem : (id', pending) ∈ others) :
      (id', pending.account) ∈ w.reads :=
    sound.job id' pending (job.mem_iff.mpr (List.mem_cons_of_mem _ mem))
  obtain ⟨kept, found⟩ := lookUp_spec options w.entries now id account
  have size := Nat.le_trans kept.length_le sound.size
  have entry := fun id' e mem => sound.entry id' e (kept.subset mem)
  unfold Worker.look
  split
  · rename_i ciphertext wrappedDek refreshToken entries result
    rw [result] at found size entry
    obtain ⟨rfl, storedAtMs, stored, young⟩ := found
    refine ⟨size, entry, rest, sound.answer, ?_, ?_⟩
    · exact List.forall_mem_cons.mpr ⟨own, sound.read⟩
    · exact List.forall_mem_cons.mpr
        ⟨⟨_, sound.entry _ _ stored, rfl, .inr young⟩, sound.fresh⟩
  · rename_i ciphertext wrappedDek entries result
    rw [result] at found size entry
    obtain rfl := found
    refine ⟨size, entry, fun id' pending mem => ?_, sound.answer, sound.read, sound.fresh⟩
    rcases List.mem_cons.mp mem with same | mem
    · obtain ⟨rfl, rfl⟩ := Prod.mk.inj same
      exact own
    · exact rest id' pending mem
  · rename_i result entries _ _ is
    rw [is] at size entry
    exact ⟨size, entry, rest, sound.answer, sound.read, sound.fresh⟩

theorem Sound.step (sound : Sound options decrypt w) (step : Step options decrypt w w') :
    Sound options decrypt w' := by
  cases step with
  | write rows => exact { sound with }
  | read id =>
    refine ⟨sound.size, sound.entry, fun id' pending mem => ?_, sound.answer,
      fun d mem => List.mem_cons_of_mem _ (sound.read d mem), sound.fresh⟩
    rcases List.mem_cons.mp mem with same | mem
    · obtain ⟨rfl, rfl⟩ := Prod.mk.inj same
      exact List.mem_cons_self
    · exact List.mem_cons_of_mem _ (sound.job id' pending mem)
  | look now job => exact sound.look now job
  | @unwrap id ciphertext wrappedDek refreshToken others now job answer =>
    refine ⟨InsertionMap.length_evict_le .., fun id' e mem => ?_, fun id' pending mem => ?_,
      ?_, ?_, ?_⟩
    · by_cases same : id' = id
      · subst same
        rw [TokenUnwrapCache.mem_set mem]
        exact List.mem_cons_self
      · exact List.mem_cons_of_mem _ (sound.entry id' e (TokenUnwrapCache.mem_set_of_ne same mem))
    · exact sound.job id' pending (job.mem_iff.mpr (List.mem_cons_of_mem _ mem))
    · exact List.forall_mem_cons.mpr ⟨answer, sound.answer⟩
    · exact List.forall_mem_cons.mpr
        ⟨sound.job _ _ (job.mem_iff.mpr List.mem_cons_self), sound.read⟩
    · refine List.forall_mem_cons.mpr ⟨⟨_, List.mem_cons_self, rfl, .inl rfl⟩, fun d mem => ?_⟩
      obtain ⟨u, answered, of⟩ := sound.fresh d mem
      exact ⟨u, List.mem_cons_of_mem _ answered, of⟩
  | fail job =>
    exact { sound with
      job := fun id' pending mem =>
        sound.job id' pending (job.mem_iff.mpr (List.mem_cons_of_mem _ mem)) }

theorem sound_of_reachable (reachable : Reachable options decrypt w) :
    Sound options decrypt w := by
  obtain ⟨rows, run⟩ := reachable
  induction run with
  | refl => exact Sound.start rows
  | tail _ step ih => exact ih.step step

/-- However jobs overlap and rows change, a job gets what the key service answers for the columns
that the job has read, and never more than the lifetime of an entry after it answered. The cache
holds no more entries than it may. -/
theorem delivered_of_reachable (reachable : Reachable options decrypt w) :
    w.entries.entries.length ≤ options.maxEntries ∧ ∀ d ∈ w.delivered,
      (d.mailboxAccountId, d.account) ∈ w.reads ∧
        decrypt d.ciphertext d.wrappedDek = some d.refreshToken ∧
        ∃ u ∈ w.unwrapped, d.Of options.ttlMs u := by
  have sound := sound_of_reachable reachable
  refine ⟨sound.size, fun d mem => ⟨sound.read d mem, ?_, sound.fresh d mem⟩⟩
  obtain ⟨u, answered, same, -⟩ := sound.fresh d mem
  rw [same]
  exact sound.answer u answered

/-- After a job that reads its row, misses and calls the key service. -/
def firstJob : Worker ℕ where
  rows _ := some ⟨some 1, some 2⟩
  entries := InsertionMap.empty.set "a" ⟨1, 2, "token", 5⟩
  jobs := []
  reads := [("a", some ⟨some 1, some 2⟩)]
  unwrapped := [⟨"a", 1, 2, "token", 5⟩]
  delivered := [⟨"a", 1, 2, "token", 5⟩]

theorem delivered_of_reachable_firstJob : ∃ u ∈ firstJob.unwrapped,
    (⟨"a", 1, 2, "token", 5⟩ : Delivery ℕ).Of DEFAULT_TOKEN_UNWRAP_OPTIONS.ttlMs u := by
  let options := DEFAULT_TOKEN_UNWRAP_OPTIONS
  let decrypt : ℕ → ℕ → Option String := fun _ _ => some "token"
  let start : Worker ℕ := Worker.start firstJob.rows
  let reader : Worker ℕ :=
    { start with jobs := [("a", .looking (firstJob.rows "a"))], reads := firstJob.reads }
  let caller : Worker ℕ := { reader with jobs := [("a", .unwrapping 1 2)] }
  have read : Step options decrypt start reader := .read start "a"
  have look : Step options decrypt reader caller :=
    show Step options decrypt reader (reader.look options 5 "a" (firstJob.rows "a") []) from
      .look 5 (List.Perm.refl _)
  have unwrap : Step options decrypt caller
      { firstJob with entries := caller.entries.set options 5 "a" 1 2 "token" } :=
    .unwrap 5 (List.Perm.refl _) rfl
  have stored : caller.entries.set options 5 "a" 1 2 "token" = firstJob.entries := by
    rw [TokenUnwrapCache.set, InsertionMap.evict]
    rfl
  rw [stored] at unwrap
  have reachable : Reachable options decrypt firstJob :=
    ⟨_, ((Relation.ReflTransGen.single read).tail look).tail unwrap⟩
  exact ((delivered_of_reachable reachable).2 _ List.mem_cons_self).2.2

end DeclutrMail.Auth
