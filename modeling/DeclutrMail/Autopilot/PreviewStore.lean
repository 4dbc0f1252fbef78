import Mathlib.Algebra.Order.BigOperators.Group.List
import Mathlib.Algebra.Order.Group.Nat
import Mathlib.Data.Int.Order.Basic
import Mathlib.Logic.Relation
import DeclutrMail.Collections.Batches
import DeclutrMail.Collections.InsertionMap

/-!
# Stored previews

A preview of a rule is a list of targets that is read page by page. `MemoryAutopilotPreviewStore`
keeps whole lists and forgets the oldest when it holds too many or too much;
`RedisAutopilotPreviewStore` keeps a hash with a field for each page, which expires. The system
feeds both with the same requests.

A key is the mailbox, the rule and the id of the preview, joined to a text. `bytes` is how long the
text of a list of targets is.
-/

namespace DeclutrMail.Autopilot.Preview

variable {T : Type*}

def AUTOPILOT_PREVIEW_PAGE_SIZE : ℕ := 25

def AUTOPILOT_PREVIEW_TTL_MS : ℤ := 5 * 60 * 1000

structure Key where
  mailboxId : String
  ruleId : String
  previewId : String
  deriving DecidableEq

structure StoredPreviewPage (T : Type*) where
  previewId : String
  expiresAt : ℤ
  page : ℤ
  total : ℕ
  targets : List T

inductive PreviewError
  | outside | unavailable | unsaved | unloaded
  deriving DecidableEq

def PreviewError.message : PreviewError → String
  | .outside => "Page is outside this preview."
  | .unavailable => "Preview exceeds local cache capacity."
  | .unsaved => "Could not save the sender preview. Please retry."
  | .unloaded => "Could not load the sender preview. Please retry."

abbrev Answer (T : Type*) := Except PreviewError (Option (StoredPreviewPage T))

/-- `Math.max(1, Math.ceil(total / AUTOPILOT_PREVIEW_PAGE_SIZE))` -/
def lastPage (total : ℕ) : ℕ :=
  max 1 ((total + (AUTOPILOT_PREVIEW_PAGE_SIZE - 1)) / AUTOPILOT_PREVIEW_PAGE_SIZE)

def assertPage (page : ℤ) (total : ℕ) : Except PreviewError Unit :=
  if page < 1 ∨ lastPage total < page then .error .outside else .ok ()

/-! ## Memory -/

structure Snapshot (T : Type*) where
  previewId : String
  expiresAt : ℤ
  targets : List T
  bytes : ℕ

structure Memory (T : Type*) where
  snapshots : InsertionMap Key (Snapshot T)
  bytes : ℤ

def maxSnapshots : ℕ := 64

def maxBytes : ℕ := 16 * 1024 * 1024

def Memory.remove (m : Memory T) (key : Key) : Memory T :=
  match m.snapshots.get key with
  | none => m
  | some snapshot => ⟨m.snapshots.delete key, m.bytes - snapshot.bytes⟩

/-- Remove the oldest snapshots until there is room. `none` is a loop that does not end. -/
def Memory.evict (bytes : ℕ) : ℕ → Memory T → Option (Memory T)
  | 0, _ => none
  | fuel + 1, m =>
    if maxSnapshots ≤ m.snapshots.entries.length ∨ maxBytes < m.bytes + bytes then
      match m.snapshots.keys with
      | [] => none
      | oldest :: _ => (m.remove oldest).evict bytes fuel
    else some m

def Memory.read (m : Memory T) (now : ℤ) (key : Key) (page : ℤ) : Answer T × Memory T :=
  match m.snapshots.get key with
  | none => (.ok none, m)
  | some snapshot =>
    if snapshot.expiresAt ≤ now then (.ok none, m.remove key)
    else
      match assertPage page snapshot.targets.length with
      | .error e => (.error e, m)
      | .ok () =>
        let start := (page.toNat - 1) * AUTOPILOT_PREVIEW_PAGE_SIZE
        let stop := page.toNat * AUTOPILOT_PREVIEW_PAGE_SIZE
        (.ok (some ⟨snapshot.previewId, snapshot.expiresAt, page, snapshot.targets.length,
          (snapshot.targets.drop start).take (stop - start)⟩), m)

/-- `none` is a call that does not return. -/
def Memory.create (size : List T → ℕ) (m : Memory T) (now : ℤ) (key : Key) (targets : List T) :
    Option (Answer T × Memory T) :=
  let bytes := size targets
  if maxBytes < bytes then some (.error .unavailable, m)
  else (m.evict bytes (m.snapshots.entries.length + 1)).map fun m =>
    let stored : Memory T := ⟨m.snapshots.set key
      ⟨key.previewId, now + AUTOPILOT_PREVIEW_TTL_MS, targets, bytes⟩, m.bytes + bytes⟩
    stored.read now key 1

/-! ## Redis -/

/-- The manifest, and the fields of the pages from the first on. -/
structure Hash (T : Type*) where
  previewId : String
  expiresAt : ℤ
  total : ℕ
  pages : List (List T)

abbrev Redis (T : Type*) := Key → Option (Hash T)

/-- How a call of Redis ends. A call that is `lost` is carried out, and the caller gets an error. -/
inductive Reply
  | answered | lost | failed
  deriving DecidableEq

/-- The loop goes round once for a preview without targets. -/
def pagesOf (targets : List T) : List (List T) :=
  if targets = [] then [[]] else Batches.batches AUTOPILOT_PREVIEW_PAGE_SIZE targets

def Redis.create (r : Redis T) (reply : Reply) (now : ℤ) (key : Key) (targets : List T) :
    Answer T × Redis T :=
  let expiresAt := now + AUTOPILOT_PREVIEW_TTL_MS
  let hash : Hash T := ⟨key.previewId, expiresAt, targets.length, pagesOf targets⟩
  let stored : Redis T := fun k => if k = key then some hash else r k
  match reply with
  | .answered => (.ok (some ⟨key.previewId, expiresAt, 1, targets.length,
      targets.take AUTOPILOT_PREVIEW_PAGE_SIZE⟩), stored)
  | .lost => (.error .unsaved, stored)
  | .failed => (.error .unsaved, r)

def Redis.read (r : Redis T) (reply : Reply) (now : ℤ) (key : Key) (page : ℤ) : Answer T :=
  if reply ≠ .answered then .error .unloaded
  else match r key with
  | none => .ok none
  | some hash =>
    if hash.expiresAt ≤ now then .ok none
    else
      match assertPage page hash.total with
      | .error e => .error e
      | .ok () =>
        match hash.pages[page.toNat - 1]? with
        | none => .ok none
        | some targets => .ok (some ⟨hash.previewId, hash.expiresAt, page, hash.total, targets⟩)

/-! ## Both stores -/

/-- `answers` has what the two stores have answered to the same requests. -/
structure Stores (T : Type*) where
  memory : Memory T
  redis : Redis T
  clock : ℤ
  answers : List (Answer T × Answer T)

def Stores.start : Stores T := ⟨⟨.empty, 0⟩, fun _ => none, 0, []⟩

variable (size : List T → ℕ)

/-- A preview gets an id of its own. A timer may run at any time, Redis drops a hash some time after
its end, and the clock does not step back. A preview that Redis does not confirm is not put to the
memory store. -/
inductive Step : Stores T → Stores T → Prop
  | create {s : Stores T} {now : ℤ} {key : Key} {targets : List T} {answer : Answer T}
      {memory : Memory T} (later : s.clock ≤ now) (fresh : s.memory.snapshots.get key = none)
      (made : s.memory.create size now key targets = some (answer, memory)) :
    Step s {
      memory
      redis := (s.redis.create .answered now key targets).2
      clock := now
      answers := (answer, (s.redis.create .answered now key targets).1) :: s.answers }
  | unsaved {s : Stores T} {now : ℤ} {reply : Reply} {key : Key} (later : s.clock ≤ now)
      (fresh : s.memory.snapshots.get key = none) (unanswered : reply ≠ .answered)
      (targets : List T) :
    Step s { s with redis := (s.redis.create reply now key targets).2, clock := now }
  | read {s : Stores T} {now : ℤ} (later : s.clock ≤ now) (reply : Reply) (key : Key) (page : ℤ) :
    Step s { s with
      memory := (s.memory.read now key page).2
      clock := now
      answers := ((s.memory.read now key page).1, s.redis.read reply now key page) :: s.answers }
  | timer (s : Stores T) (key : Key) : Step s { s with memory := s.memory.remove key }
  | expire {s : Stores T} {now : ℤ} {key : Key} {hash : Hash T} (later : s.clock ≤ now)
      (found : s.redis key = some hash) (past : hash.expiresAt ≤ now) :
    Step s { s with redis := fun k => if k = key then none else s.redis k, clock := now }

def Reachable (s : Stores T) : Prop := Relation.ReflTransGen (Step size) Stores.start s

/-! ## Room -/

namespace Memory

variable {m m' : Memory T}

def held (m : Memory T) : ℕ := (m.snapshots.entries.map fun e => e.2.bytes).sum

/-- The count of bytes is that of the snapshots. -/
def Counted (m : Memory T) : Prop := m.bytes = m.held

/-- What is left of a store when snapshots are removed. -/
structure Part (m' m : Memory T) : Prop where
  counted : m'.Counted
  snapshots : m'.snapshots.entries.Sublist m.snapshots.entries

theorem Part.held_le (part : Part m' m) : m'.held ≤ m.held :=
  (part.snapshots.map _).sum_le_sum fun _ _ => Nat.zero_le _

theorem Part.get {key : Key} {snapshot : Snapshot T} (part : Part m' m)
    (found : m'.snapshots.get key = some snapshot) : m.snapshots.get key = some snapshot :=
  InsertionMap.get_of_sublist part.snapshots found

theorem ne_of_fresh {k key : Key} {snapshot : Snapshot T}
    (fresh : m.snapshots.get key = none) (found : m.snapshots.get k = some snapshot) :
    k ≠ key := by
  rintro rfl
  rw [fresh] at found
  cases found

theorem part_remove (counted : m.Counted) (key : Key) : Part (m.remove key) m := by
  unfold remove
  split
  · exact ⟨counted, List.Sublist.refl _⟩
  · rename_i snapshot found
    refine ⟨?_, List.filter_sublist⟩
    have split := m.snapshots.sum_delete (fun _ s => s.bytes) found
    simp only [Counted, held] at counted ⊢
    omega

theorem length_remove {key : Key} (mem : key ∈ m.snapshots.keys) :
    (m.remove key).snapshots.entries.length < m.snapshots.entries.length := by
  obtain ⟨snapshot, found⟩ := InsertionMap.mem_keys.mp mem
  unfold remove
  rw [found]
  exact List.length_filter_lt_length_iff_exists.mpr
    ⟨_, InsertionMap.mem_entries_iff.mpr found, by simp⟩

/-- The loop ends with room for the new snapshot. -/
theorem evict_spec {bytes fuel : ℕ} (counted : m.Counted) (fits : bytes ≤ maxBytes)
    (enough : m.snapshots.entries.length < fuel) : ∃ m', m.evict bytes fuel = some m' ∧
      Part m' m ∧ m'.snapshots.entries.length < maxSnapshots ∧ m'.bytes + bytes ≤ maxBytes := by
  induction fuel generalizing m with
  | zero => omega
  | succ fuel ih =>
    rw [evict]
    split_ifs with full
    · cases keys : m.snapshots.keys with
      | nil =>
        -- An empty store has room.
        have empty : m.snapshots.entries = [] := List.map_eq_nil_iff.mp keys
        simp only [Counted, held, empty, List.map_nil, List.sum_nil] at counted
        rw [empty] at full
        simp only [List.length_nil, maxSnapshots] at full
        omega
      | cons oldest rest =>
        have mem : oldest ∈ m.snapshots.keys := keys ▸ List.mem_cons_self
        have removed := part_remove counted oldest
        have shorter := length_remove mem
        obtain ⟨m', ends, part, room⟩ := ih removed.counted (by omega)
        exact ⟨m', ends, ⟨part.counted, part.snapshots.trans removed.snapshots⟩, room⟩
    · exact ⟨m, rfl, ⟨counted, List.Sublist.refl _⟩, by omega, by omega⟩

theorem part_read (counted : m.Counted) (now : ℤ) (key : Key) (page : ℤ) :
    Part (m.read now key page).2 m := by
  unfold read
  split
  · exact ⟨counted, List.Sublist.refl _⟩
  · split_ifs
    · exact part_remove counted key
    · split
      · exact ⟨counted, List.Sublist.refl _⟩
      · exact ⟨counted, List.Sublist.refl _⟩

/-- What a call of `create` does that has room. -/
theorem create_spec {size : List T → ℕ} (now : ℤ) (key : Key) {targets : List T}
    (counted : m.Counted) (fits : size targets ≤ maxBytes) : ∃ kept, Part kept m ∧
      kept.snapshots.entries.length < maxSnapshots ∧ kept.bytes + size targets ≤ maxBytes ∧
      m.create size now key targets = some
        (.ok (some ⟨key.previewId, now + AUTOPILOT_PREVIEW_TTL_MS, 1, targets.length,
          targets.take AUTOPILOT_PREVIEW_PAGE_SIZE⟩),
        ⟨kept.snapshots.set key
          ⟨key.previewId, now + AUTOPILOT_PREVIEW_TTL_MS, targets, size targets⟩,
          kept.bytes + size targets⟩) := by
  obtain ⟨kept, ends, part, room, space⟩ := evict_spec counted fits (Nat.lt_succ_self _)
  refine ⟨kept, part, room, space, ?_⟩
  have young : ¬now + AUTOPILOT_PREVIEW_TTL_MS ≤ now := by
    rw [AUTOPILOT_PREVIEW_TTL_MS]
    omega
  have first : assertPage 1 targets.length = .ok () :=
    if_neg (by rw [lastPage, not_or]; omega)
  rw [create]
  dsimp only
  rw [if_neg (not_lt.mpr fits), ends]
  simp [read, young, first]

theorem isSome_create (size : List T → ℕ) (now : ℤ) (key : Key) (targets : List T)
    (counted : m.Counted) : (m.create size now key targets).isSome := by
  by_cases fits : size targets ≤ maxBytes
  · obtain ⟨kept, -, -, -, made⟩ := create_spec now key counted fits
    simp [made]
  · simp [create, not_le.mp fits]

end Memory

/-! ## Pages -/

theorem getElem?_pagesOf {targets : List T} {page : ℕ} (first : 1 ≤ page)
    (last : page ≤ lastPage targets.length) : (pagesOf targets)[page - 1]? =
      some ((targets.drop ((page - 1) * AUTOPILOT_PREVIEW_PAGE_SIZE)).take
        AUTOPILOT_PREVIEW_PAGE_SIZE) := by
  unfold pagesOf
  split_ifs with none
  · subst none
    have one : page = 1 := by
      simp only [lastPage, AUTOPILOT_PREVIEW_PAGE_SIZE, List.length_nil] at last
      omega
    simp [one]
  · refine Batches.getElem?_slices (by decide) le_rfl ?_
    have filled := List.length_pos_iff.mpr none
    simp only [lastPage, AUTOPILOT_PREVIEW_PAGE_SIZE] at last ⊢
    omega

/-- What Redis keeps of a snapshot. -/
def Snapshot.hash (s : Snapshot T) : Hash T :=
  ⟨s.previewId, s.expiresAt, s.targets.length, pagesOf s.targets⟩

/-- A page is found in the hash as it is cut out of the snapshot. -/
theorem read_eq {m : Memory T} {r : Redis T} {now : ℤ} {key : Key} (page : ℤ)
    (kept : ∀ s, m.snapshots.get key = some s → now < s.expiresAt → r key = some s.hash) :
    (m.read now key page).1 = .ok none ∨
      (m.read now key page).1 = r.read .answered now key page := by
  cases found : m.snapshots.get key with
  | none => exact .inl (by simp [Memory.read, found])
  | some s =>
    by_cases expired : s.expiresAt ≤ now
    · exact .inl (by simp [Memory.read, found, expired])
    refine .inr ?_
    have hash := kept s found (not_le.mp expired)
    rw [Memory.read, found, Redis.read, if_neg (not_not_intro rfl), hash]
    simp only [Snapshot.hash, if_neg expired]
    unfold assertPage
    split_ifs with outside
    · rfl
    · rw [not_or, not_lt, not_lt] at outside
      have cut : page.toNat * AUTOPILOT_PREVIEW_PAGE_SIZE -
          (page.toNat - 1) * AUTOPILOT_PREVIEW_PAGE_SIZE = AUTOPILOT_PREVIEW_PAGE_SIZE := by
        simp only [AUTOPILOT_PREVIEW_PAGE_SIZE]
        omega
      have there : (pagesOf s.targets)[page.toNat - 1]? = _ :=
        getElem?_pagesOf (by omega) (by omega)
      simp only [there, cut]

/-! ## Runs -/

/-- The stores agree, or the memory store has forgotten the preview or refused it, or Redis has not
answered. -/
def Agree (memory redis : Answer T) : Prop :=
  memory = redis ∨ memory = .ok none ∨ memory = .error .unavailable ∨ redis = .error .unloaded

structure Sound (s : Stores T) : Prop where
  counted : s.memory.Counted
  few : s.memory.snapshots.entries.length ≤ maxSnapshots
  small : s.memory.bytes ≤ maxBytes
  kept : ∀ key snapshot, s.memory.snapshots.get key = some snapshot →
    s.clock < snapshot.expiresAt → s.redis key = some snapshot.hash
  answers : ∀ a ∈ s.answers, Agree a.1 a.2

variable {size} {s s' : Stores T}

/-- Whatever removes snapshots keeps the stores in step. -/
theorem Sound.part (sound : Sound s) {memory : Memory T} (part : Memory.Part memory s.memory) :
    Sound { s with memory } where
  counted := part.counted
  few := part.snapshots.length_le.trans sound.few
  small := by
    have := part.held_le
    have := sound.small
    have counted := part.counted
    have counted' := sound.counted
    simp only [Memory.Counted] at counted counted'
    dsimp only
    omega
  kept key snapshot found young := sound.kept key snapshot (part.get found) young
  answers := sound.answers

theorem Sound.create (sound : Sound s) {now : ℤ} {key : Key} {targets : List T}
    {answer : Answer T} {memory : Memory T} (later : s.clock ≤ now)
    (fresh : s.memory.snapshots.get key = none)
    (made : s.memory.create size now key targets = some (answer, memory)) :
    Sound ⟨memory, (s.redis.create .answered now key targets).2, now,
      (answer, (s.redis.create .answered now key targets).1) :: s.answers⟩ := by
  by_cases fits : size targets ≤ maxBytes
  · obtain ⟨kept, part, room, space, made'⟩ :=
      Memory.create_spec now key sound.counted fits
    obtain ⟨rfl, rfl⟩ := Prod.mk.inj (Option.some.inj (made.symm.trans made'))
    have absent : kept.snapshots.get key = none := by
      cases found : kept.snapshots.get key with
      | none => rfl
      | some snapshot => rw [part.get found] at fresh; cases fresh
    refine ⟨?_, ?_, space, fun k snapshot found young => ?_,
      List.forall_mem_cons.mpr ⟨.inl rfl, sound.answers⟩⟩
    · have sum := kept.snapshots.sum_set (fun _ s => s.bytes) key
        ⟨key.previewId, now + AUTOPILOT_PREVIEW_TTL_MS, targets, size targets⟩
      have counted := part.counted
      rw [absent] at sum
      simp only [Memory.Counted, Memory.held, Option.map_none, Option.getD_none] at counted sum ⊢
      omega
    · have count := kept.snapshots.sum_set (fun _ _ => 1) key
        ⟨key.previewId, now + AUTOPILOT_PREVIEW_TTL_MS, targets, size targets⟩
      simp only [absent, List.map_const', List.sum_replicate_nat, Nat.mul_one, Option.map_none,
        Option.getD_none] at count
      dsimp only
      omega
    · rw [InsertionMap.get_set] at found
      simp only [Redis.create]
      split_ifs at found with same
      · subst same
        obtain rfl := Option.some.inj found
        rw [if_pos rfl]
        rfl
      · rw [if_neg (Ne.symm same)]
        exact sound.kept k snapshot (part.get found) (lt_of_le_of_lt later young)
  · rw [Memory.create, if_pos (not_le.mp fits)] at made
    obtain ⟨rfl, rfl⟩ := Prod.mk.inj (Option.some.inj made)
    refine ⟨sound.counted, sound.few, sound.small, fun k snapshot found young => ?_,
      List.forall_mem_cons.mpr ⟨.inr (.inr (.inl rfl)), sound.answers⟩⟩
    have other : k ≠ key := Memory.ne_of_fresh fresh found
    exact (if_neg other).trans (sound.kept k snapshot found (lt_of_le_of_lt later young))

/-- A preview that is not confirmed changes no other. -/
theorem Sound.unsaved (sound : Sound s) {now : ℤ} {reply : Reply} {key : Key} (targets : List T)
    (later : s.clock ≤ now) (fresh : s.memory.snapshots.get key = none) :
    Sound { s with redis := (s.redis.create reply now key targets).2, clock := now } := by
  refine { sound with kept := fun k snapshot found young => ?_ }
  have there := sound.kept k snapshot found (lt_of_le_of_lt later young)
  have other : k ≠ key := Memory.ne_of_fresh fresh found
  cases reply with
  | answered => exact (if_neg other).trans there
  | lost => exact (if_neg other).trans there
  | failed => exact there

theorem Sound.step (sound : Sound s) (step : Step size s s') : Sound s' := by
  cases step with
  | create later fresh made => exact sound.create later fresh made
  | unsaved later fresh unanswered targets => exact sound.unsaved targets later fresh
  | @read now later reply key page =>
    have after := sound.part (Memory.part_read sound.counted now key page)
    refine ⟨after.counted, after.few, after.small,
      fun k snapshot found young => after.kept k snapshot found (lt_of_le_of_lt later young),
      List.forall_mem_cons.mpr ⟨?_, sound.answers⟩⟩
    by_cases answered : reply = .answered
    · subst answered
      rcases read_eq page fun snapshot found young =>
        sound.kept key snapshot found (lt_of_le_of_lt later young) with forgotten | same
      · exact .inr (.inl forgotten)
      · exact .inl same
    · exact .inr (.inr (.inr (if_pos answered)))
  | timer key => exact sound.part (Memory.part_remove sound.counted key)
  | @expire now key hash later found past =>
    refine { sound with kept := fun k snapshot kept young => ?_ }
    have there := sound.kept k snapshot kept (lt_of_le_of_lt later young)
    by_cases same : k = key
    · subst same
      rw [found] at there
      obtain rfl := Option.some.inj there
      exact absurd past (not_le_of_gt young)
    · exact (if_neg same).trans there

theorem sound_of_reachable (reachable : Reachable size s) : Sound s := by
  induction reachable with
  | refl => exact ⟨rfl, Nat.zero_le _, show (0 : ℤ) ≤ maxBytes by decide, nofun, nofun⟩
  | tail _ step ih => exact ih.step step

/-- In every run the memory store holds no more than it may, and no call of `create` loops for
ever. It answers every request as Redis does, unless it has forgotten the preview or refused it, or
Redis cannot be read. -/
theorem previews_agree (reachable : Reachable size s) :
    s.memory.snapshots.entries.length ≤ maxSnapshots ∧ s.memory.bytes ≤ maxBytes ∧
      (∀ now key targets, (s.memory.create size now key targets).isSome) ∧
      ∀ a ∈ s.answers, Agree a.1 a.2 :=
  have sound := sound_of_reachable reachable
  ⟨sound.few, sound.small, fun now key targets =>
    Memory.isSome_create size now key targets sound.counted, sound.answers⟩

/-- After the first preview, of one target. -/
def firstPreview : Stores String :=
  let key : Key := ⟨"mailbox", "rule", "preview"⟩
  let snapshot : Snapshot String := ⟨"preview", 0 + AUTOPILOT_PREVIEW_TTL_MS, ["sender"], 1⟩
  let page : StoredPreviewPage String := ⟨"preview", snapshot.expiresAt, 1, 1, ["sender"]⟩
  let created := Redis.create (fun _ => none) .answered 0 key ["sender"]
  ⟨⟨InsertionMap.empty.set key snapshot, 0 + 1⟩, created.2, 0, [(.ok (some page), created.1)]⟩

theorem previews_agree_firstPreview : firstPreview.memory.bytes ≤ maxBytes ∧
    ∀ a ∈ firstPreview.answers, Agree a.1 a.2 := by
  have made : (Stores.start : Stores String).memory.create List.length 0
      ⟨"mailbox", "rule", "preview"⟩ ["sender"] = some (_, firstPreview.memory) := rfl
  have run : Step List.length Stores.start firstPreview := .create le_rfl rfl made
  have agree := previews_agree (Relation.ReflTransGen.single run)
  exact ⟨agree.2.1, agree.2.2.2⟩

end DeclutrMail.Autopilot.Preview
