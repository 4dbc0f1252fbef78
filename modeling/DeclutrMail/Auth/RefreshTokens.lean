import DeclutrMail.Auth.Sessions
import Mathlib.Data.List.Pairwise

/-!
# Refresh tokens

Every rotation supersedes the current hash of its session, so that a token is accepted once while it
is current and once more while it is the previous one. A cache denies only what no live session
carries or will carry again.
-/

namespace DeclutrMail.Auth

open Interleaving

/-! ## Invariants -/

namespace World

/-- No live session carries the `jti`, and none will: it is no longer fresh. -/
def dead (w : World) (jti : Jti) : Prop :=
  jti ∈ w.known ∧ ∀ id row, w.sessions.get id = some row → row.isRevoked = false → row.jti ≠ jti

def rotationsOf (w : World) (id : SessionId) : List Rotation :=
  w.rotations.filter (·.session = id)

/-- What no step takes back. -/
structure Kept (w w' : World) : Prop where
  known : w.known ⊆ w'.known
  dead {jti : Jti} : w.dead jti → w'.dead jti
  revoked {id : SessionId} : w.revoked id →
    w'.revoked id ∧ w'.rotationsOf id = w.rotationsOf id

theorem Kept.refl (w : World) : Kept w w := ⟨fun _ => id, id, fun h => ⟨h, rfl⟩⟩

theorem Kept.trans {w w' w'' : World} (h : Kept w w') (h' : Kept w' w'') : Kept w w'' := by
  refine ⟨fun _ here => h'.known (h.known here), fun dead => h'.dead (h.dead dead),
    fun revoked => ?_⟩
  obtain ⟨still, same⟩ := h.revoked revoked
  obtain ⟨still', same'⟩ := h'.revoked still
  exact ⟨still', same'.trans same⟩

/-- What the caches deny is dead. -/
structure Denying (w : World) : Prop where
  hints {api : ℕ} {jti : Jti} {hint : Hint} : w.hints api jti = some hint →
    hint.revoked = true → w.dead jti
  redis {jti : Jti} : w.redis jti = true → w.dead jti
  late {jti : Jti} : jti ∈ w.late → w.dead jti
  denied {jti : Jti} : jti ∈ w.denied → w.dead jti

/-- The sessions carry different identifiers and current hashes, all of them issued. -/
structure Distinct (w : World) : Prop where
  known {id : SessionId} {row : SessionRow} : w.sessions.get id = some row → row.jti ∈ w.known
  jti {id id' : SessionId} {row row' : SessionRow} : w.sessions.get id = some row →
    w.sessions.get id' = some row' → row.jti = row'.jti → id = id'
  issued {id : SessionId} {row : SessionRow} {hash : Hash} : w.sessions.get id = some row →
    row.refreshTokenHash = some hash → hash ∈ w.hashes
  hash {id id' : SessionId} {row row' : SessionRow} {hash : Hash} :
    w.sessions.get id = some row → w.sessions.get id' = some row' →
      row.refreshTokenHash = some hash → row'.refreshTokenHash = some hash → id = id'

/-- What the rotations so far have superseded and accepted. -/
structure Rotated (w : World) : Prop where
  current : ∀ r ∈ w.rotations, r.viaGrace = false → r.superseded = some r.presented
  issued : ∀ r ∈ w.rotations, ∀ hash, r.superseded = some hash → hash ∈ w.hashes
  once : w.rotations.Pairwise fun r r' => ∀ hash, r.superseded = some hash →
    r'.superseded ≠ some hash
  graceOnce : w.rotations.Pairwise fun r r' => r.viaGrace = true → r'.viaGrace = true →
    r.presented ≠ r'.presented
  grace : ∀ r ∈ w.rotations, r.viaGrace = true → ∃ r' ∈ w.rotations, r'.session = r.session ∧
    r'.superseded = some r.presented ∧ r.checkedAt < r'.wroteAt + refreshGraceWindowMs
  /-- A current hash has not been superseded. -/
  upcoming {id : SessionId} {row : SessionRow} {hash : Hash} : w.sessions.get id = some row →
    row.refreshTokenHash = some hash → ∀ r ∈ w.rotations, r.superseded ≠ some hash
  /-- A previous hash has been superseded by a rotation of its session, and not been accepted since. -/
  previous {id : SessionId} {row : SessionRow} {hash : Hash} : w.sessions.get id = some row →
    row.previousRefreshTokenHash = some hash →
      (∀ r ∈ w.rotations, r.viaGrace = true → r.presented ≠ hash) ∧
      ∃ r ∈ w.rotations, r.session = id ∧ r.superseded = some hash ∧
        row.previousHashExpiresAt = some (r.wroteAt + refreshGraceWindowMs)

/-- A rotation that was refused or found another token has failed, the latter with its session
revoked. -/
structure Judged (w : World) : Prop where
  other {t : ℕ} {id : SessionId} : w.verdict t = some (id, .other) → w.revoked id
  ended : ∀ e ∈ w.ended, (e.verdict = .accepted ↔ e.failed = false) ∧
    (e.verdict = .other → w.revoked e.session)

structure Inv (w : World) : Prop where
  denying : w.Denying
  distinct : w.Distinct
  rotated : w.Rotated
  judged : w.Judged

theorem inv_empty : World.empty.Inv := by
  refine ⟨⟨?_, ?_, ?_, ?_⟩, ⟨?_, ?_, ?_, ?_⟩, ⟨?_, ?_, ?_, ?_, ?_, ?_, ?_⟩, ⟨?_, ?_⟩⟩ <;>
    simp [World.empty]

/-! ## Steps that leave the sessions -/

/-- The sessions and what is said of them stay, and nothing is forgotten. -/
structure Quiet (w w' : World) : Prop where
  sessions : w'.sessions = w.sessions
  known : w.known ⊆ w'.known
  hashes : w'.hashes = w.hashes
  rotations : w'.rotations = w.rotations

variable {w w' : World}

theorem Quiet.kept (same : Quiet w w') : Kept w w' := by
  refine ⟨same.known, fun ⟨known, free⟩ => ⟨same.known known, same.sessions ▸ free⟩,
    fun revoked => ?_⟩
  unfold World.revoked rotationsOf at *
  rw [same.sessions, same.rotations]
  exact ⟨revoked, rfl⟩

theorem Quiet.distinct (same : Quiet w w') (h : w.Distinct) : w'.Distinct where
  known here := same.known (h.known (same.sessions ▸ here))
  jti here there := h.jti (same.sessions ▸ here) (same.sessions ▸ there)
  issued here current := same.hashes ▸ h.issued (same.sessions ▸ here) current
  hash here there := h.hash (same.sessions ▸ here) (same.sessions ▸ there)

theorem Quiet.rotated (same : Quiet w w') (h : w.Rotated) : w'.Rotated := by
  constructor
  · exact same.rotations ▸ h.current
  · exact same.rotations ▸ same.hashes ▸ h.issued
  · exact same.rotations ▸ h.once
  · exact same.rotations ▸ h.graceOnce
  · exact same.rotations ▸ h.grace
  · exact fun here current => same.rotations ▸ h.upcoming (same.sessions ▸ here) current
  · exact fun here previous => same.rotations ▸ h.previous (same.sessions ▸ here) previous

theorem Judged.kept (h : w.Judged) (kept : Kept w w') (verdict : w'.verdict = w.verdict)
    (ended : w'.ended = w.ended) : w'.Judged where
  other judged := (kept.revoked (h.other (verdict ▸ judged))).1
  ended e here := by
    obtain ⟨failed, revoked⟩ := h.ended e (ended ▸ here)
    exact ⟨failed, fun other => (kept.revoked (revoked other)).1⟩

/-- The caches stay. -/
theorem Denying.kept (h : w.Denying) (kept : Kept w w') (hints : w'.hints = w.hints)
    (redis : w'.redis = w.redis) (late : w'.late = w.late) (denied : w'.denied = w.denied) :
    w'.Denying where
  hints here revoked := kept.dead (h.hints (hints ▸ here) revoked)
  redis here := kept.dead (h.redis (redis ▸ here))
  late here := kept.dead (h.late (late ▸ here))
  denied here := kept.dead (h.denied (denied ▸ here))

/-! ## Steps that write a session -/

/-- One row is written; what is known and issued grows. -/
structure Writes (w w' : World) (id : SessionId) (row : SessionRow) : Prop where
  sessions : w'.sessions = w.sessions.set id row
  known : w.known ⊆ w'.known
  hashes : w.hashes ⊆ w'.hashes

variable {id : SessionId} {row : SessionRow}

theorem Writes.get (writes : Writes w w' id row) (id' : SessionId) :
    w'.sessions.get id' = if id = id' then some row else w.sessions.get id' := by
  rw [writes.sessions, InsertionMap.get_set]

/-- The `jti` of the row is new, or that of the row before. -/
def Continues (w : World) (id : SessionId) (row : SessionRow) : Prop :=
  row.jti ∉ w.known ∨ ∃ before, w.sessions.get id = some before ∧ before.jti = row.jti ∧
    (row.isRevoked = false → before.isRevoked = false)

theorem Writes.dead (writes : Writes w w' id row) (continues : w.Continues id row) {jti : Jti}
    (h : w.dead jti) : w'.dead jti := by
  refine ⟨writes.known h.1, fun id' row' here live same => ?_⟩
  rw [writes.get] at here
  split_ifs at here with this
  · obtain rfl := Option.some.inj here
    rcases continues with new | ⟨before, stored, carried, lives⟩
    · exact new (same ▸ h.1)
    · exact h.2 id before stored (lives live) (carried.trans same)
  · exact h.2 id' row' here live same

theorem Writes.distinct (writes : Writes w w' id row) (h : w.Distinct)
    (continues : w.Continues id row) (carried : row.jti ∈ w'.known)
    (hash : ∀ hash, row.refreshTokenHash = some hash → hash ∈ w'.hashes ∧ (hash ∉ w.hashes ∨
      ∃ before, w.sessions.get id = some before ∧ before.refreshTokenHash = some hash)) :
    w'.Distinct := by
  have other {id' : SessionId} {row' : SessionRow} (here : w.sessions.get id' = some row')
      (same : row.jti = row'.jti) : id = id' := by
    rcases continues with new | ⟨before, stored, carried, -⟩
    · exact absurd (same ▸ h.known here) new
    · exact h.jti stored here (carried.trans same)
  have other' {id' : SessionId} {row' : SessionRow} {x : Hash}
      (here : w.sessions.get id' = some row') (current : row.refreshTokenHash = some x)
      (current' : row'.refreshTokenHash = some x) : id = id' := by
    rcases (hash x current).2 with new | ⟨before, stored, same⟩
    · exact absurd (h.issued here current') new
    · exact h.hash stored here same current'
  constructor
  · intro id' row' here
    rw [writes.get] at here
    split_ifs at here
    · obtain rfl := Option.some.inj here
      exact carried
    · exact writes.known (h.known here)
  · intro id' id'' row' row'' here there same
    rw [writes.get] at here there
    split_ifs at here there with this that that
    · exact this.symm.trans that
    · obtain rfl := Option.some.inj here
      exact this.symm.trans (other there same)
    · obtain rfl := Option.some.inj there
      exact (other here same.symm).symm.trans that
    · exact h.jti here there same
  · intro id' row' x here current
    rw [writes.get] at here
    split_ifs at here
    · obtain rfl := Option.some.inj here
      exact (hash x current).1
    · exact writes.hashes (h.issued here current)
  · intro id' id'' row' row'' x here there current current'
    rw [writes.get] at here there
    split_ifs at here there with this that that
    · exact this.symm.trans that
    · obtain rfl := Option.some.inj here
      exact this.symm.trans (other' there current current')
    · obtain rfl := Option.some.inj there
      exact (other' here current' current).symm.trans that
    · exact h.hash here there current current'

/-- A write without a rotation: the current hash is new or stays, the previous one stays. -/
theorem Writes.rotated (writes : Writes w w' id row) (same : w'.rotations = w.rotations)
    (h : w.Rotated)
    (hash : ∀ hash, row.refreshTokenHash = some hash → hash ∉ w.hashes ∨
      ∃ before, w.sessions.get id = some before ∧ before.refreshTokenHash = some hash)
    (previous : ∀ hash, row.previousRefreshTokenHash = some hash → ∃ before,
      w.sessions.get id = some before ∧ before.previousRefreshTokenHash = some hash ∧
        before.previousHashExpiresAt = row.previousHashExpiresAt) : w'.Rotated := by
  constructor
  · exact same ▸ h.current
  · exact fun r here x superseded => writes.hashes (h.issued r (same ▸ here) x superseded)
  · exact same ▸ h.once
  · exact same ▸ h.graceOnce
  · exact same ▸ h.grace
  · intro id' row' x here current
    rw [same]
    rw [writes.get] at here
    split_ifs at here
    · obtain rfl := Option.some.inj here
      rcases hash x current with new | ⟨before, stored, kept⟩
      · exact fun r there superseded => new (h.issued r there x superseded)
      · exact h.upcoming stored kept
    · exact h.upcoming here current
  · intro id' row' x here superseded
    rw [same]
    rw [writes.get] at here
    split_ifs at here with this
    · obtain rfl := Option.some.inj here
      obtain ⟨before, stored, kept, expires⟩ := previous x superseded
      rw [← this, ← expires]
      exact h.previous stored kept
    · exact h.previous here superseded

theorem Writes.kept (writes : Writes w w' id row) (same : w'.rotations = w.rotations)
    (continues : w.Continues id row)
    (revoked : ∀ before, w.sessions.get id = some before → before.isRevoked = true →
      row.isRevoked = true) : Kept w w' := by
  refine ⟨writes.known, writes.dead continues, fun {id'} ⟨before, stored, gone⟩ => ⟨?_, ?_⟩⟩
  · by_cases this : id = id'
    · subst this
      exact ⟨row, by rw [writes.get, if_pos rfl], revoked before stored gone⟩
    · exact ⟨before, by rw [writes.get, if_neg this, stored], gone⟩
  · rw [rotationsOf, same, rotationsOf]

/-! ## A rotation -/

section Rotation

variable {before : SessionRow} {r : Rotation}

/-- A rotation in a world: what it has found and what it writes. -/
structure Rotates (w w' : World) (before : SessionRow) (r : Rotation) (jti : Jti) (hash : Hash) :
    Prop where
  stored : w.sessions.get r.session = some before
  live : before.isRevoked = false
  superseded : r.superseded = before.refreshTokenHash
  viaGrace : r.viaGrace = before.isGraceHit r.presented r.checkedAt
  accepted : before.isCurrent r.presented = true ∨ r.viaGrace = true
  writes : Writes w w' r.session (before.rotate jti hash r.wroteAt)
  rotations : w'.rotations = r :: w.rotations
  freshJti : jti ∉ w.known
  freshHash : hash ∉ w.hashes
  learnt : jti ∈ w'.known
  minted : hash ∈ w'.hashes

variable {jti : Jti} {hash : Hash}

theorem Rotates.continues (h : Rotates w w' before r jti hash) :
    w.Continues r.session (before.rotate jti hash r.wroteAt) := .inl h.freshJti

theorem Rotates.distinct (h : Rotates w w' before r jti hash) (inv : w.Distinct) : w'.Distinct := by
  refine h.writes.distinct inv h.continues h.learnt fun x current => ?_
  obtain rfl : hash = x := Option.some.inj current
  exact ⟨h.minted, .inl h.freshHash⟩

/-- Only a live session rotates. -/
theorem Rotates.kept (h : Rotates w w' before r jti hash) : Kept w w' := by
  refine ⟨h.writes.known, h.writes.dead h.continues, fun {id'} ⟨row', stored, gone⟩ => ?_⟩
  have ne : r.session ≠ id' := by
    rintro rfl
    obtain rfl := Option.some.inj (h.stored.symm.trans stored)
    exact Bool.false_ne_true (h.live.symm.trans gone)
  refine ⟨⟨row', by rw [h.writes.get, if_neg ne, stored], gone⟩, ?_⟩
  rw [rotationsOf, h.rotations, List.filter_cons_of_neg (by simpa using ne), rotationsOf]

theorem Rotated.superseded_unique (inv : w.Rotated) {r r' : Rotation} (here : r ∈ w.rotations)
    (there : r' ∈ w.rotations) {x : Hash} (superseded : r.superseded = some x)
    (superseded' : r'.superseded = some x) : r = r' := by
  by_contra ne
  have symm : Std.Symm fun r r' : Rotation => ∀ hash, r.superseded = some hash →
      r'.superseded ≠ some hash := ⟨fun _ _ h x here there => h x there here⟩
  exact inv.once.forall here there ne x superseded superseded'

theorem Rotates.current (h : Rotates w w' before r jti hash) (plain : r.viaGrace = false) :
    r.superseded = some r.presented := by
  rw [h.superseded]
  rcases h.accepted with current | grace
  · exact of_decide_eq_true current
  · exact absurd (plain.symm.trans grace) Bool.false_ne_true

theorem Rotates.grace (h : Rotates w w' before r jti hash) (grace : r.viaGrace = true) :
    before.previousRefreshTokenHash = some r.presented ∧
      ∃ expires, before.previousHashExpiresAt = some expires ∧ r.checkedAt < expires := by
  rw [h.viaGrace] at grace
  unfold SessionRow.isGraceHit at grace
  simp only [Bool.and_eq_true, decide_eq_true_eq, Option.any_eq_true] at grace
  obtain ⟨⟨-, previous⟩, expires, stored, within⟩ := grace
  exact ⟨previous, expires, stored, within⟩

/-- No token that was accepted in grace is the current one. -/
theorem Rotated.graced (inv : w.Rotated) (stored : w.sessions.get id = some row) {x : Hash}
    (current : row.refreshTokenHash = some x) {r : Rotation} (here : r ∈ w.rotations)
    (grace : r.viaGrace = true) : r.presented ≠ x := by
  rintro rfl
  obtain ⟨r', there, -, superseded, -⟩ := inv.grace r here grace
  exact inv.upcoming stored current r' there superseded

theorem Rotates.upcoming (h : Rotates w w' before r jti hash) (inv : w.Rotated)
    (distinct : w.Distinct) {x : Hash} (here : w'.sessions.get id = some row)
    (current : row.refreshTokenHash = some x) : ∀ r' ∈ w'.rotations, r'.superseded ≠ some x := by
  rw [h.rotations, List.forall_mem_cons, h.superseded]
  rw [h.writes.get] at here
  split_ifs at here with this
  · obtain rfl := Option.some.inj here
    obtain rfl : hash = x := Option.some.inj current
    exact ⟨fun old => h.freshHash (distinct.issued h.stored old),
      fun r' there superseded => h.freshHash (inv.issued r' there _ superseded)⟩
  · exact ⟨fun old => this (distinct.hash h.stored here old current), inv.upcoming here current⟩

theorem Rotates.previous (h : Rotates w w' before r jti hash) (inv : w.Rotated) {x : Hash}
    (here : w'.sessions.get id = some row) (previous : row.previousRefreshTokenHash = some x) :
    (∀ r' ∈ w'.rotations, r'.viaGrace = true → r'.presented ≠ x) ∧
      ∃ r' ∈ w'.rotations, r'.session = id ∧ r'.superseded = some x ∧
        row.previousHashExpiresAt = some (r'.wroteAt + refreshGraceWindowMs) := by
  rw [h.rotations, List.forall_mem_cons]
  rw [h.writes.get] at here
  split_ifs at here with this
  · obtain rfl := Option.some.inj here
    -- The hash that was current is now the previous one.
    have current : before.refreshTokenHash = some x := previous
    refine ⟨⟨fun grace => ?_, fun r' there => inv.graced h.stored current there⟩,
      r, List.mem_cons_self, this, h.superseded.trans current, rfl⟩
    obtain ⟨-, r', there, -, superseded, -⟩ := inv.previous h.stored (h.grace grace).1
    rintro rfl
    exact inv.upcoming h.stored current r' there superseded
  · obtain ⟨unused, r', there, session, superseded, expires⟩ := inv.previous here previous
    refine ⟨⟨fun grace => ?_, unused⟩, r', List.mem_cons_of_mem _ there, session, superseded,
      expires⟩
    obtain ⟨-, r'', there', session', superseded', -⟩ := inv.previous h.stored (h.grace grace).1
    rintro rfl
    obtain rfl := inv.superseded_unique there there' superseded superseded'
    exact this (session'.symm.trans session)

theorem Rotates.rotated (h : Rotates w w' before r jti hash) (inv : w.Rotated)
    (distinct : w.Distinct) : w'.Rotated where
  current := by
    rw [h.rotations, List.forall_mem_cons]
    exact ⟨h.current, inv.current⟩
  issued := by
    rw [h.rotations, List.forall_mem_cons]
    refine ⟨fun x superseded => h.writes.hashes (distinct.issued h.stored ?_),
      fun r' here x superseded => h.writes.hashes (inv.issued r' here x superseded)⟩
    exact h.superseded.symm.trans superseded
  once := by
    rw [h.rotations, List.pairwise_cons]
    refine ⟨fun r' here x superseded => inv.upcoming h.stored ?_ r' here, inv.once⟩
    exact h.superseded.symm.trans superseded
  graceOnce := by
    rw [h.rotations, List.pairwise_cons]
    refine ⟨fun r' here grace grace' same => ?_, inv.graceOnce⟩
    exact (inv.previous h.stored (h.grace grace).1).1 r' here grace' same.symm
  grace := by
    rw [h.rotations, List.forall_mem_cons]
    constructor
    · intro grace
      obtain ⟨previous, expires, stored, within⟩ := h.grace grace
      obtain ⟨-, r', here, session, superseded, expires'⟩ := inv.previous h.stored previous
      obtain rfl := Option.some.inj (stored.symm.trans expires')
      exact ⟨r', List.mem_cons_of_mem _ here, session, superseded, within⟩
    · intro r' here grace
      obtain ⟨r'', there, found⟩ := inv.grace r' here grace
      exact ⟨r'', List.mem_cons_of_mem _ there, found⟩
  upcoming := h.upcoming inv distinct
  previous := h.previous inv

end Rotation

end World

/-! ## What a call knows -/

open World

structure Guarantee (t : ℕ) (w w' : World) : Prop where
  inv : w'.Inv
  kept : Kept w w'
  others : ∀ t', t' ≠ t → w'.verdict t' = w.verdict t'

structure Rely (t : ℕ) (w w' : World) : Prop where
  inv : w'.Inv
  kept : Kept w w'
  mine : w'.verdict t = w.verdict t

/-- The verdict of the call, identifiers it has asked for and identifiers that are dead. -/
def knows (t : ℕ) (verdict : Option (SessionId × Verdict)) (asked gone : List Jti) :
    Assertion (Rely t) where
  holds := fun w => w.Inv ∧ w.verdict t = verdict ∧ (∀ jti ∈ asked, jti ∈ w.known) ∧
    ∀ jti ∈ gone, w.dead jti
  stable := fun _ _ ⟨_, judged, asked, gone⟩ r => ⟨r.inv, r.mine.trans judged,
    fun jti here => r.kept.known (asked jti here), fun jti here => r.kept.dead (gone jti here)⟩

/-- What has to hold when a call ends. -/
def settles (t : ℕ) (r : Except Error Returned) : Assertion (Rely t) where
  holds := fun w => w.Inv ∧
    (∀ id verdict, w.verdict t = some (id, verdict) → (verdict = .accepted ↔ r.toBool = true)) ∧
      ∀ jti, r = .ok (.denied jti) → w.dead jti
  stable := fun _ _ ⟨_, judged, denied⟩ rely =>
    ⟨rely.inv, fun id verdict here => judged id verdict (rely.mine ▸ here),
      fun jti here => rely.kept.dead (denied jti here)⟩

section Requests

variable {t : ℕ} {verdict : Option (SessionId × Verdict)} {asked gone : List Jti} {w w' : World}

theorem Guarantee.quiet (inv : w.Inv) (same : Quiet w w') (denying : w'.Denying)
    (verdict : w'.verdict = w.verdict) (ended : w'.ended = w.ended) : Guarantee t w w' :=
  ⟨⟨denying, same.distinct inv.distinct, same.rotated inv.rotated,
    inv.judged.kept same.kept verdict ended⟩, same.kept, fun _ _ => congrFun verdict _⟩

theorem knows_of_guarantee (allowed : Guarantee t w w') (same : w'.verdict t = w.verdict t)
    (h : knows t verdict asked gone w) : knows t verdict asked gone w' :=
  (knows t verdict asked gone).stable h ⟨allowed.inv, allowed.kept, same⟩

/-- What a part of a call does that does not throw -/
abbrev Does {α : Type} (t : ℕ) (A : Assertion (Rely t)) (p : Prog α)
    (B : α → Assertion (Rely t)) : Prop :=
  Triple (M := system) Guarantee A p B fun _ => .fact False

/-- A part of a call that keeps what the call knows -/
abbrev Keeps (t : ℕ) (A : Assertion (Rely t)) (p : Prog Unit) : Prop := Does t A p fun _ => A

theorem quiet_setHint (api : ℕ) (jti : Jti) (hint : Option Hint) :
    Quiet w (w.setHint api jti hint) := ⟨rfl, fun _ => id, rfl, rfl⟩

theorem quiet_setRedis (jti : Jti) (present : Bool) : Quiet w (w.setRedis jti present) :=
  ⟨rfl, fun _ => id, rfl, rfl⟩

/-- A hint that denies says so of a dead identifier. -/
theorem Denying.setHint (h : w.Denying) {api : ℕ} {jti : Jti} {hint : Option Hint}
    (dead : ∀ x, hint = some x → x.revoked = true → w.dead jti) :
    (w.setHint api jti hint).Denying where
  hints {api' jti' x} here revoked := by
    have here' : Function.update w.hints api (Function.update (w.hints api) jti hint) api' jti' =
        some x := here
    by_cases same : api' = api
    · subst same
      rw [Function.update_self] at here'
      by_cases same' : jti' = jti
      · subst same'
        rw [Function.update_self] at here'
        exact dead x here' revoked
      · rw [Function.update_of_ne same'] at here'
        exact h.hints here' revoked
    · rw [Function.update_of_ne same] at here'
      exact h.hints here' revoked
  redis := h.redis
  late := h.late
  denied := h.denied

theorem Denying.setRedis (h : w.Denying) {jti : Jti} {present : Bool}
    (dead : present = true → w.dead jti) : (w.setRedis jti present).Denying where
  hints := h.hints
  redis {jti'} here := by
    have here' : Function.update w.redis jti present jti' = true := here
    by_cases same : jti' = jti
    · subst same
      rw [Function.update_self] at here'
      exact dead here'
    · rw [Function.update_of_ne same] at here'
      exact h.redis here'
  late := h.late
  denied := h.denied

theorem rememberHint_keeps (api : ℕ) (jti : Jti) (here : jti ∈ gone) :
    Keeps t (knows t verdict asked gone)
      (Program.perform (S := sessionsSignature) (.rememberHint api jti)) := by
  refine Triple.perform fun w h _ r w' answered => ?_
  cases answered
  have dead := h.2.2.2 jti here
  have allowed : Guarantee t w (w.rememberHint api jti true) :=
    .quiet h.1 (quiet_setHint _ _ _) (Denying.setHint h.1.denying fun _ _ _ => dead) rfl rfl
  exact ⟨allowed, knows_of_guarantee allowed rfl h⟩

theorem forgetHint_keeps (api : ℕ) (jti : Jti) : Keeps t (knows t verdict asked gone)
    (Program.perform (S := sessionsSignature) (.forgetHint api jti)) := by
  refine Triple.perform fun w h _ r w' answered => ?_
  cases answered
  have allowed : Guarantee t w (w.setHint api jti none) :=
    .quiet h.1 (quiet_setHint _ _ _) (Denying.setHint h.1.denying fun _ none => nomatch none) rfl
      rfl
  exact ⟨allowed, knows_of_guarantee allowed rfl h⟩

/-- A step that changes nothing a call knows -/
theorem Guarantee.idle (inv : w.Inv) : Guarantee t w w :=
  .quiet inv ⟨rfl, fun _ => id, rfl, rfl⟩ inv.denying rfl rfl

theorem redisSet_triple (jti : Jti) (here : jti ∈ gone) :
    Triple (M := system) Guarantee (knows t verdict asked gone)
    (Program.perform (S := sessionsSignature) (.redisSet jti))
    (fun _ => knows t verdict asked gone) fun _ => knows t verdict asked gone := by
  refine Triple.perform fun w h c r w' answered => ?_
  have dead := h.2.2.2 jti here
  have outcome : w' = { w with late := jti :: w.late } ∨ w' = w ∨ w' = w.setRedis jti true := by
    obtain ⟨-, rfl⟩ := Prod.ext_iff.mp (Option.some.inj answered)
    unfold World.redisSet
    cases c.fails with
    | false => exact .inr (.inr rfl)
    | true =>
      cases c.lands with
      | false => exact .inr (.inl rfl)
      | true => exact .inl rfl
  have allowed : Guarantee t w w' := by
    rcases outcome with rfl | rfl | rfl
    · refine .quiet h.1 ⟨rfl, fun _ => id, rfl, rfl⟩ ?_ rfl rfl
      refine ⟨h.1.denying.hints, h.1.denying.redis, fun late => ?_, h.1.denying.denied⟩
      rcases List.mem_cons.mp late with rfl | before
      · exact dead
      · exact h.1.denying.late before
    · exact .idle h.1
    · exact .quiet h.1 (quiet_setRedis _ _) (Denying.setRedis h.1.denying fun _ => dead) rfl rfl
  have same : w'.verdict = w.verdict := by rcases outcome with rfl | rfl | rfl <;> rfl
  have known := knows_of_guarantee allowed (congrFun same t) h
  cases r <;> exact ⟨allowed, known⟩

theorem redisDel_triple (jti : Jti) : Triple (M := system) Guarantee (knows t verdict asked gone)
    (Program.perform (S := sessionsSignature) (.redisDel jti))
    (fun _ => knows t verdict asked gone) fun _ => knows t verdict asked gone := by
  refine Triple.perform fun w h c r w' answered => ?_
  have outcome : w' = w ∨ w' = w.setRedis jti false := by
    obtain ⟨-, rfl⟩ := Prod.ext_iff.mp (Option.some.inj answered)
    unfold World.redisDel
    cases c.fails with
    | false => exact .inr rfl
    | true =>
      cases c.lands with
      | false => exact .inl rfl
      | true => exact .inr rfl
  have allowed : Guarantee t w w' := by
    rcases outcome with rfl | rfl
    · exact .idle h.1
    · exact .quiet h.1 (quiet_setRedis _ _)
        (Denying.setRedis h.1.denying fun present => nomatch present) rfl rfl
  have same : w'.verdict = w.verdict := by rcases outcome with rfl | rfl <;> rfl
  have known := knows_of_guarantee allowed (congrFun same t) h
  cases r <;> exact ⟨allowed, known⟩

/-- An answer that says whether an identifier is dead. -/
abbrev answers (t : ℕ) (verdict : Option (SessionId × Verdict)) (asked gone : List Jti)
    (jti : Jti) (denies : Bool) : Assertion (Rely t) :=
  knows t verdict asked (if denies then jti :: gone else gone)

theorem answers_iff {jti : Jti} {denies : Bool} : answers t verdict asked gone jti denies w ↔
    knows t verdict asked gone w ∧ (denies = true → w.dead jti) := by
  cases denies with
  | false => exact ⟨fun h => ⟨h, fun no => nomatch no⟩, And.left⟩
  | true =>
    refine ⟨fun ⟨inv, judged, asks, gone⟩ => ?_, fun ⟨⟨inv, judged, asks, gone⟩, dead⟩ => ?_⟩
    · obtain ⟨dead, rest⟩ := List.forall_mem_cons.mp gone
      exact ⟨⟨inv, judged, asks, rest⟩, fun _ => dead⟩
    · exact ⟨inv, judged, asks, List.forall_mem_cons.mpr ⟨dead rfl, gone⟩⟩

theorem redisGet_triple (jti : Jti) : Triple (M := system) Guarantee (knows t verdict asked gone)
    (Program.perform (S := sessionsSignature) (.redisGet jti))
    (fun present => answers t verdict asked gone jti present)
    fun _ => knows t verdict asked gone := by
  refine Triple.perform fun w h c r w' answered => ?_
  obtain ⟨rfl, rfl⟩ := Prod.ext_iff.mp (Option.some.inj answered)
  refine ⟨.idle h.1, ?_⟩
  cases fails : c.fails with
  | true => exact h
  | false => exact answers_iff.mpr ⟨h, h.1.denying.redis⟩

theorem settleHint_triple (api : ℕ) (jti : Jti) (hint : Option Hint) (present : Bool) :
    Does t (answers t verdict asked gone jti present)
      (Program.perform (S := sessionsSignature) (.settleHint api jti hint present))
      (answers t verdict asked gone jti) := by
  refine Triple.perform fun w h c r w' answered => ?_
  obtain ⟨known, dead⟩ := answers_iff.mp h
  obtain ⟨rfl, rfl⟩ := Prod.ext_iff.mp (Option.some.inj answered)
  show Guarantee t w (w.settleHint api jti hint present).2 ∧
    answers t verdict asked gone jti (w.settleHint api jti hint present).1
      (w.settleHint api jti hint present).2
  by_cases outranked : w.hints api jti ≠ hint ∧
      (w.hints api jti).any (fun h => h.revoked && w.now < h.expiresAt) = true
  · -- A hint that came meanwhile denies.
    have settled : w.settleHint api jti hint present = (true, w) := if_pos outranked
    obtain ⟨x, stored, denies⟩ := (Option.any_eq_true _ _).mp outranked.2
    have dead' := known.1.denying.hints stored (Bool.and_eq_true_iff.mp denies).1
    rw [settled]
    exact ⟨.idle known.1, answers_iff.mpr ⟨known, fun _ => dead'⟩⟩
  · have settled : w.settleHint api jti hint present =
        (present, w.rememberHint api jti present) := if_neg outranked
    have allowed : Guarantee t w (w.rememberHint api jti present) := by
      refine .quiet known.1 (quiet_setHint _ _ _) (Denying.setHint known.1.denying ?_) rfl rfl
      intro x stored revoked
      obtain rfl := Option.some.inj stored
      exact dead revoked
    rw [settled]
    refine ⟨allowed, answers_iff.mpr ⟨knows_of_guarantee allowed rfl known, fun denies => ?_⟩⟩
    exact allowed.kept.dead (dead denies)

theorem readHint_triple (api : ℕ) (jti : Jti) :
    Does t (knows t verdict asked gone)
      (Program.perform (S := sessionsSignature) (.readHint api jti))
      fun read => answers t verdict asked gone jti (read.answer.getD false) := by
  refine Triple.perform fun w h c r w' answered => ?_
  obtain ⟨rfl, rfl⟩ := Prod.ext_iff.mp (Option.some.inj answered)
  refine ⟨.idle h.1, answers_iff.mpr ⟨h, fun denies => ?_⟩⟩
  unfold World.readHint at denies
  cases stored : w.hints api jti with
  | none => simp [stored] at denies
  | some x =>
    refine h.1.denying.hints stored ?_
    rw [stored] at denies
    by_cases valid : w.now < x.expiresAt
    · simpa [Option.filter, valid] using denies
    · simp [Option.filter, valid] at denies

theorem selectByJti_triple (jti : Jti) (here : jti ∈ asked) :
    Does t (knows t verdict asked gone)
      (Program.perform (S := sessionsSignature) (.selectByJti jti))
      fun found => answers t verdict asked gone jti found.isNone := by
  refine Triple.perform fun w h c r w' answered => ?_
  obtain ⟨rfl, rfl⟩ := Prod.ext_iff.mp (Option.some.inj answered)
  refine ⟨.idle h.1, answers_iff.mpr ⟨h, fun absent => ⟨h.2.2.1 jti here, fun id row stored live same => ?_⟩⟩⟩
  have none := List.find?_eq_none.mp (Option.map_eq_none_iff.mp (Option.isNone_iff_eq_none.mp absent))
  have this := none (id, row) (InsertionMap.mem_entries_iff.mpr stored)
  simp [same, live] at this

/-! ### Requests that write a session -/

theorem Guarantee.trans {w'' : World} (h : Guarantee t w w') (h' : Guarantee t w' w'') :
    Guarantee t w w'' :=
  ⟨h'.inv, h.kept.trans h'.kept, fun t' ne => (h'.others t' ne).trans (h.others t' ne)⟩

theorem Guarantee.pass (inv : w.Inv) (wait : ℕ) : Guarantee t w (w.pass wait) :=
  .quiet inv ⟨rfl, fun _ => id, rfl, rfl⟩
    ⟨inv.denying.hints, inv.denying.redis, inv.denying.late, inv.denying.denied⟩ rfl rfl

theorem Guarantee.judge (inv : w.Inv) {verdict : Option (SessionId × Verdict)}
    (revoked : ∀ id, verdict = some (id, .other) → w.revoked id) :
    Guarantee t w (w.judge t verdict) := by
  have same : Quiet w (w.judge t verdict) := ⟨rfl, fun _ => id, rfl, rfl⟩
  refine ⟨⟨inv.denying.kept same.kept rfl rfl rfl rfl, same.distinct inv.distinct,
    same.rotated inv.rotated, ⟨fun {t'} {id} judged => ?_, inv.judged.ended⟩⟩, same.kept,
    fun t' ne => Function.update_of_ne ne _ _⟩
  have judged' : Function.update w.verdict t verdict t' = some (id, .other) := judged
  by_cases this : t' = t
  · subst this
    rw [Function.update_self] at judged'
    exact revoked id judged'
  · rw [Function.update_of_ne this] at judged'
    exact inv.judged.other judged'

theorem Guarantee.revokeRow (inv : w.Inv) {id : SessionId} {row : SessionRow}
    (stored : w.sessions.get id = some row) : Guarantee t w (w.setRow id row.revoke) := by
  have writes : Writes w (w.setRow id row.revoke) id row.revoke :=
    ⟨rfl, List.Subset.refl _, List.Subset.refl _⟩
  have continues : w.Continues id row.revoke := .inr ⟨row, stored, rfl, fun live => nomatch live⟩
  have kept := writes.kept rfl continues fun _ _ _ => rfl
  refine ⟨⟨inv.denying.kept kept rfl rfl rfl rfl, ?_, ?_, inv.judged.kept kept rfl rfl⟩, kept,
    fun _ _ => rfl⟩
  · exact writes.distinct inv.distinct continues (inv.distinct.known stored :)
      fun x current => ⟨inv.distinct.issued stored current, .inr ⟨row, stored, current⟩⟩
  · exact writes.rotated rfl inv.rotated (fun x current => .inr ⟨row, stored, current⟩)
      fun x previous => ⟨row, stored, previous, rfl⟩

theorem revoked_revokeRow {id : SessionId} {row : SessionRow} :
    (w.setRow id row.revoke).revoked id := by
  refine ⟨row.revoke, ?_, rfl⟩
  rw [setRow, InsertionMap.get_set, if_pos rfl]

/-- What a revoked session carried is dead. -/
theorem dead_revokeRow (inv : w.Inv) {id : SessionId} {row : SessionRow}
    (stored : w.sessions.get id = some row) : (w.setRow id row.revoke).dead row.jti := by
  refine ⟨inv.distinct.known stored, fun id' row' here live same => ?_⟩
  rw [setRow, InsertionMap.get_set] at here
  split_ifs at here with this
  · obtain rfl := Option.some.inj here
    exact nomatch live
  · exact this (inv.distinct.jti stored here same.symm)

theorem revokeSession_triple (id : SessionId) :
    Does t (knows t verdict asked gone)
      (Program.perform (S := sessionsSignature) (.revokeSession id))
      fun found => knows t verdict asked (found.toList ++ gone) := by
  refine Triple.perform fun w h c r w' answered => ?_
  cases stored : w.sessions.get id with
  | none =>
    have outcome : w.revokeSession id = (none, w) := by
      unfold World.revokeSession
      rw [stored]
      rfl
    obtain ⟨rfl, rfl⟩ := Prod.ext_iff.mp (Option.some.inj answered)
    dsimp only
    rw [outcome]
    exact ⟨.idle h.1, h⟩
  | some row =>
    have outcome : w.revokeSession id = (some row.jti, w.setRow id row.revoke) := by
      unfold World.revokeSession
      rw [stored]
    obtain ⟨rfl, rfl⟩ := Prod.ext_iff.mp (Option.some.inj answered)
    dsimp only
    rw [outcome]
    have allowed := Guarantee.revokeRow (t := t) h.1 stored
    obtain ⟨inv, judged, asks, gone⟩ := knows_of_guarantee allowed rfl h
    exact ⟨allowed, inv, judged, asks,
      List.forall_mem_cons.mpr ⟨dead_revokeRow h.1 stored, gone⟩⟩

theorem fresh_iff {c : Choice} : w.fresh c = true ↔ c.jti ∉ w.known ∧ c.hash ∉ w.hashes := by
  simp [World.fresh]

/-- The first statement of `issue` -/
theorem insertSession_triple : Does t (knows t verdict asked gone)
    (Program.perform (S := sessionsSignature) .insertSession)
    fun _ => knows t verdict asked gone := by
  refine Triple.perform fun w h c r w' answered => ?_
  obtain ⟨⟨absent, fresh⟩, here⟩ := Option.ite_none_right_eq_some.mp answered
  cases here
  have new := (fresh_iff.mp fresh).1
  have writes : Writes w ((w.setRow c.id ⟨c.jti, none, none, none, false⟩).learn c.jti) c.id
      ⟨c.jti, none, none, none, false⟩ := ⟨rfl, List.subset_cons_self _ _, List.Subset.refl _⟩
  have kept := writes.kept rfl (.inl new) fun before stored _ =>
    nomatch absent.symm.trans stored
  have inv := h.1
  have allowed : Guarantee t w
      ((w.setRow c.id ⟨c.jti, none, none, none, false⟩).learn c.jti) := by
    refine ⟨⟨inv.denying.kept kept rfl rfl rfl rfl, ?_, ?_, inv.judged.kept kept rfl rfl⟩, kept,
      fun _ _ => rfl⟩
    · exact writes.distinct inv.distinct (.inl new) List.mem_cons_self fun x none => nomatch none
    · exact writes.rotated rfl inv.rotated (fun x none => nomatch none) fun x none => nomatch none
  exact ⟨allowed, knows_of_guarantee allowed rfl h⟩

/-- The second statement of `issue` -/
theorem patchSession_keeps (id : SessionId) : Keeps t (knows t verdict asked gone)
    (Program.perform (S := sessionsSignature) (.patchSession id)) := by
  refine Triple.perform fun w h c r w' answered => ?_
  have inv := h.1
  unfold system World.answer at answered
  cases stored : w.sessions.get id with
  | none =>
    simp only [stored] at answered
    cases answered
    exact ⟨.idle inv, h⟩
  | some row =>
    simp only [stored] at answered
    obtain ⟨fresh, here⟩ := Option.ite_none_right_eq_some.mp answered
    cases here
    obtain ⟨newJti, newHash⟩ := fresh_iff.mp fresh
    have writes : Writes w (((w.setRow id (row.patch c.jti c.hash)).learn c.jti).mint c.hash) id
        (row.patch c.jti c.hash) :=
      ⟨rfl, List.subset_cons_self _ _, List.subset_cons_self _ _⟩
    have kept := writes.kept rfl (.inl newJti) fun before stored' revoked => by
      obtain rfl := Option.some.inj (stored.symm.trans stored')
      exact revoked
    have allowed : Guarantee t w
        (((w.setRow id (row.patch c.jti c.hash)).learn c.jti).mint c.hash) := by
      refine ⟨⟨inv.denying.kept kept rfl rfl rfl rfl, ?_, ?_, inv.judged.kept kept rfl rfl⟩, kept,
        fun _ _ => rfl⟩
      · refine writes.distinct inv.distinct (.inl newJti) List.mem_cons_self fun x current => ?_
        obtain rfl : c.hash = x := Option.some.inj current
        exact ⟨List.mem_cons_self, .inl newHash⟩
      · refine writes.rotated rfl inv.rotated (fun x current => ?_) fun x previous =>
          ⟨row, stored, previous, rfl⟩
        obtain rfl : c.hash = x := Option.some.inj current
        exact .inl newHash
    exact ⟨allowed, knows_of_guarantee allowed rfl h⟩

theorem live_iff {id : SessionId} {row : SessionRow} :
    w.live id = some row ↔ w.sessions.get id = some row ∧ row.isRevoked = false := by
  rw [World.live, Option.filter_eq_some_iff, Bool.not_eq_true']

/-- A rotation that is refused or fails leaves the sessions. -/
theorem rotateSession_error {id : SessionId} {presented : Hash} {c : Choice} {e : Error}
    (answered : w.rotateSession t id presented c = some (.error e, w')) :
    w' = w.pass c.wait ∨ w' = (w.pass c.wait).judge t (some (id, .refused)) := by
  unfold World.rotateSession at answered
  cases live : (w.pass c.wait).live id with
  | none =>
    simp only [live] at answered
    cases answered
    exact .inr rfl
  | some row =>
    simp only [live] at answered
    split_ifs at answered <;> cases answered
    exact .inl rfl

/-- A rotation that finds another token revokes. -/
theorem rotateSession_reuse {id : SessionId} {presented : Hash} {c : Choice} {jti : Jti}
    (answered : w.rotateSession t id presented c = some (.ok (.reuse jti), w')) :
    ∃ row, w.live id = some row ∧ row.jti = jti ∧
      w' = ((w.pass c.wait).setRow id row.revoke).judge t (some (id, .other)) := by
  unfold World.rotateSession at answered
  cases live : (w.pass c.wait).live id with
  | none =>
    simp only [live] at answered
    cases answered
  | some row =>
    simp only [live] at answered
    split_ifs at answered <;> cases answered
    exact ⟨row, live, rfl, rfl⟩

/-- A rotation that accepts its token -/
theorem rotateSession_rotated {id : SessionId} {presented : Hash} {c : Choice} {jti : Jti}
    (answered : w.rotateSession t id presented c = some (.ok (.rotated jti), w')) :
    ∃ row r w'', w' = w''.judge t (some (id, .accepted)) ∧
      Rotates (w.pass c.wait) w'' row r c.jti c.hash ∧ w''.hints = w.hints ∧
        w''.redis = w.redis ∧ w''.late = w.late ∧ w''.denied = w.denied ∧
          w''.verdict = w.verdict ∧ w''.ended = w.ended := by
  unfold World.rotateSession at answered
  cases live : (w.pass c.wait).live id with
  | none =>
    simp only [live] at answered
    cases answered
  | some row =>
    simp only [live] at answered
    split_ifs at answered with accepted fails fresh <;> cases answered
    obtain ⟨stored, unrevoked⟩ := live_iff.mp live
    obtain ⟨newJti, newHash⟩ := fresh_iff.mp fresh
    refine ⟨row, ⟨id, presented, row.refreshTokenHash,
      row.isGraceHit presented (w.pass c.wait).now, (w.pass c.wait).now,
      ((w.pass c.wait).pass c.wait').now⟩, _, rfl, ?_, rfl, rfl, rfl, rfl, rfl, rfl⟩
    exact ⟨stored, unrevoked, rfl, rfl, Bool.or_eq_true_iff.mp accepted,
      ⟨rfl, List.subset_cons_self _ _, List.subset_cons_self _ _⟩, rfl, newJti, newHash,
      List.mem_cons_self, List.mem_cons_self⟩

theorem guarantee_of_rotates {before : SessionRow} {r : Rotation} {jti : Jti} {hash : Hash}
    (h : Rotates w w' before r jti hash) (inv : w.Inv) (hints : w'.hints = w.hints)
    (redis : w'.redis = w.redis) (late : w'.late = w.late) (denied : w'.denied = w.denied)
    (verdict : w'.verdict = w.verdict) (ended : w'.ended = w.ended) : Guarantee t w w' :=
  ⟨⟨inv.denying.kept h.kept hints redis late denied, h.distinct inv.distinct,
    h.rotated inv.rotated inv.distinct, inv.judged.kept h.kept verdict ended⟩, h.kept,
    fun _ _ => congrFun verdict _⟩

/-- A rotation is refused, accepted, or finds another token and revokes. -/
theorem rotateSession_triple (id : SessionId) (presented : Hash) :
    Triple (M := system) Guarantee (knows t none asked gone)
    (Program.perform (S := sessionsSignature) (.rotateSession id presented))
    (fun outcome => match outcome with
      | .rotated _ => knows t (some (id, .accepted)) asked gone
      | .reuse jti => knows t (some (id, .other)) asked (jti :: gone))
    fun e => settles t (.error e) := by
  refine Triple.perform fun w h c r w' answered => ?_
  have passed := Guarantee.pass (t := t) h.1 c.wait
  have known := knows_of_guarantee passed rfl h
  have answered' : w.rotateSession t id presented c = some (r, w') := answered
  rcases r with e | jti | jti
  · rcases rotateSession_error answered' with rfl | rfl
    · refine ⟨passed, passed.inv, fun id' v here => ?_, fun _ none => nomatch none⟩
      exact nomatch known.2.1.symm.trans here
    · have denied (id' : SessionId) (other : some (id, Verdict.refused) = some (id', .other)) :
          (w.pass c.wait).revoked id' := nomatch other
      have allowed := passed.trans (Guarantee.judge passed.inv denied)
      refine ⟨allowed, allowed.inv, fun id' v here => ?_, fun _ none => nomatch none⟩
      obtain ⟨rfl, rfl⟩ : id = id' ∧ .refused = v := by
        simpa [World.judge] using here
      simp [Except.toBool]
  · obtain ⟨row, r, w'', rfl, rotates, hints, redis, late, denied, verdict, ended⟩ :=
      rotateSession_rotated answered'
    have wrote := passed.trans (guarantee_of_rotates rotates passed.inv hints redis late denied verdict ended)
    have judged : Guarantee t w'' (w''.judge t (some (id, .accepted))) :=
      Guarantee.judge wrote.inv fun _ other => nomatch other
    have allowed := wrote.trans judged
    refine ⟨allowed, allowed.inv, Function.update_self .., fun x here => ?_, fun x here => ?_⟩
    · exact allowed.kept.known (h.2.2.1 x here)
    · exact allowed.kept.dead (h.2.2.2 x here)
  · obtain ⟨row, live, rfl, rfl⟩ := rotateSession_reuse answered'
    have stored := (live_iff.mp live).1
    have wrote := passed.trans (Guarantee.revokeRow passed.inv stored)
    have judged := @Guarantee.judge t _ wrote.inv (some (id, .other)) fun id' same => by
      obtain rfl : id = id' := congrArg Prod.fst (Option.some.inj same)
      exact revoked_revokeRow
    have allowed := wrote.trans judged
    refine ⟨allowed, allowed.inv, Function.update_self .., fun x here => ?_, ?_⟩
    · exact allowed.kept.known (h.2.2.1 x here)
    · refine List.forall_mem_cons.mpr ⟨judged.kept.dead (dead_revokeRow passed.inv stored), ?_⟩
      exact fun x here => allowed.kept.dead (h.2.2.2 x here)

end Requests

/-! ## The calls -/

section Calls

variable {t : ℕ} {verdict : Option (SessionId × Verdict)} {asked gone : List Jti}

theorem markRevokedInCache_keeps (api : Api) {jti : Jti} (here : jti ∈ gone) :
    Keeps t (knows t verdict asked gone) (markRevokedInCache api jti) := by
  refine (rememberHint_keeps api.id jti here).bind fun _ => ?_
  refine Triple.when (fun _ => ?_) fun _ _ h => h
  exact (redisSet_triple jti here).tryCatch fun _ => Triple.done fun _ h => h

theorem invalidateCache_keeps (api : Api) (jti : Jti) :
    Keeps t (knows t verdict asked gone) (invalidateCache api jti) := by
  refine (forgetHint_keeps api.id jti).bind fun _ => ?_
  refine Triple.when (fun _ => ?_) fun _ _ h => h
  exact (redisDel_triple jti).tryCatch fun _ => Triple.done fun _ h => h

theorem askRedis_triple (api : Api) (jti : Jti) (hint : Option Hint) :
    Does t (knows t verdict asked gone) (askRedis api jti hint)
      (answers t verdict asked gone jti) := by
  refine Triple.tryCatch ((redisGet_triple jti).bind fun present => ?_) fun _ =>
    Triple.done fun _ h => h
  exact (settleHint_triple api.id jti hint present).consequence (fun _ h => h) (fun _ _ h => h)
    fun _ _ no => no.elim

theorem isRevokedInCache_triple (api : Api) (jti : Jti) :
    Does t (knows t verdict asked gone) (isRevokedInCache api jti)
      (answers t verdict asked gone jti) := by
  refine (readHint_triple api.id jti).bind fun read => ?_
  cases read.answer with
  | some revoked => exact Triple.done fun _ h => h
  | none =>
    cases api.redis with
    | true => exact askRedis_triple api jti read.hint
    | false => exact Triple.done fun _ h => h

/-- A call starts without a verdict and ends as its verdict tells. -/
abbrev Ends (t : ℕ) (asked : List Jti) (p : Prog Returned) : Prop :=
  Triple (M := system) Guarantee (knows t none asked []) p (fun a => settles t (.ok a))
    fun e => settles t (.error e)

/-- The next part of a call that does not throw. -/
theorem Does.andThen {α : Type} {A : Assertion (Rely t)} {B : α → Assertion (Rely t)}
    {p : Prog α} {f : α → Prog Returned} (first : Does t A p B)
    (rest : ∀ a, Triple (M := system) Guarantee (B a) (f a) (fun a => settles t (.ok a))
      fun e => settles t (.error e)) :
    Triple (M := system) Guarantee A (p >>= f) (fun a => settles t (.ok a))
      fun e => settles t (.error e) :=
  (first.consequence (fun _ h => h) (fun _ _ h => h) fun _ _ no => no.elim).bind rest

/-- Without a rotation there is nothing to judge. -/
theorem settles_of_knows {r : Except Error Returned}
    (denied : ∀ jti, r = .ok (.denied jti) → jti ∈ gone) (w : World)
    (h : knows t none asked gone w) : settles t r w := by
  refine ⟨h.1, fun id v here => ?_, fun jti here => h.2.2.2 jti (denied jti here)⟩
  exact nomatch (h.2.1.symm.trans here : none = some (id, v))

theorem settles_of_judged {id : SessionId} {v : Verdict} {r : Except Error Returned}
    (judged : v = .accepted ↔ r.toBool = true) (denied : ∀ jti, r ≠ .ok (.denied jti)) (w : World)
    (h : knows t (some (id, v)) asked gone w) : settles t r w := by
  refine ⟨h.1, fun id' v' here => ?_, fun jti same => absurd same (denied jti)⟩
  obtain ⟨-, rfl⟩ := Prod.ext_iff.mp (Option.some.inj (h.2.1.symm.trans here))
  exact judged

theorem issue_ends : Ends t asked issue := by
  refine Does.andThen insertSession_triple fun id => ?_
  refine Does.andThen (patchSession_keeps id) fun _ => ?_
  exact Triple.done (settles_of_knows (by simp))

theorem rotate_ends (api : Api) (id : SessionId) (presented : Hash) :
    Ends t asked (rotate api id presented) := by
  refine (rotateSession_triple id presented).bind fun outcome => ?_
  rcases outcome with jti | jti
  · refine Does.andThen (invalidateCache_keeps api jti) fun _ => ?_
    exact Triple.done (settles_of_judged (by simp [Except.toBool]) (by simp))
  · refine Does.andThen (markRevokedInCache_keeps api List.mem_cons_self) fun _ => ?_
    exact Triple.failed (settles_of_judged (by simp [Except.toBool]) (by simp))

theorem revoke_ends (api : Api) (id : SessionId) : Ends t asked (revoke api id) := by
  refine Does.andThen (revokeSession_triple id) fun found => ?_
  cases found with
  | none => exact Triple.done (settles_of_knows (by simp))
  | some jti =>
    refine Does.andThen (markRevokedInCache_keeps api List.mem_cons_self) fun _ => ?_
    exact Triple.done (settles_of_knows (by simp))

theorem lookupByJti_ends (api : Api) (jti : Jti) : Ends t [jti] (lookupByJti api jti) := by
  refine Does.andThen (isRevokedInCache_triple api jti) fun denies => ?_
  cases denies with
  | true =>
    refine Triple.done (settles_of_knows fun jti' same => ?_)
    obtain rfl : jti = jti' := by simpa using same
    exact List.mem_cons_self
  | false =>
    refine Does.andThen (selectByJti_triple jti List.mem_cons_self) fun found => ?_
    cases found with
    | some id => exact Triple.done (settles_of_knows (by simp))
    | none =>
      refine Does.andThen (markRevokedInCache_keeps api List.mem_cons_self) fun _ => ?_
      exact Triple.done (settles_of_knows (by simp))

end Calls

/-! ## Runs -/

section Runs

variable {t : ℕ} {w w' : World}

theorem note_guarantee {r : Except Error Returned} (inv : w.Inv)
    (denied : ∀ jti, r = .ok (.denied jti) → w.dead jti) : Guarantee t w (w.note r) := by
  rcases r with e | ⟨- | - | id | jti | -⟩
  case ok.denied =>
    refine .quiet inv ⟨rfl, fun _ => id, rfl, rfl⟩ ?_ rfl rfl
    refine ⟨inv.denying.hints, inv.denying.redis, inv.denying.late, fun here => ?_⟩
    rcases List.mem_cons.mp here with rfl | before
    · exact denied _ rfl
    · exact inv.denying.denied before
  all_goals exact .idle inv

theorem close_guarantee {e : Ended} (inv : w.Inv)
    (accepted : e.verdict = .accepted ↔ e.failed = false)
    (other : e.verdict = .other → w.revoked e.session) : Guarantee t w (w.close e) := by
  have same : Quiet w (w.close e) := ⟨rfl, fun _ => id, rfl, rfl⟩
  refine ⟨⟨inv.denying.kept same.kept rfl rfl rfl rfl, same.distinct inv.distinct,
    same.rotated inv.rotated, inv.judged.other, ?_⟩, same.kept, fun _ _ => rfl⟩
  exact List.forall_mem_cons.mpr ⟨⟨accepted, other⟩, inv.judged.ended⟩

theorem note_verdict (r : Except Error Returned) : (w.note r).verdict = w.verdict := by
  rcases r with e | ⟨- | - | id | jti | -⟩ <;> rfl

theorem settle_guarantee {r : Except Error Returned} (h : settles t r w) :
    Guarantee t w (w.settle t r) ∧ (w.settle t r).verdict t = none := by
  obtain ⟨inv, judged, denied⟩ := h
  have noted := note_guarantee (t := t) inv denied
  unfold World.settle
  dsimp only
  cases found : (w.note r).verdict t with
  | none => exact ⟨noted, found⟩
  | some entry =>
    obtain ⟨id, verdict⟩ := entry
    have fits := judged id verdict (note_verdict r ▸ found)
    have closed := noted.trans (close_guarantee (e := ⟨id, verdict, r.toBool = false⟩) noted.inv
      (by simpa using fits) fun other => noted.inv.judged.other
        (found.trans (congrArg (fun v => some (id, v)) other)))
    exact ⟨closed.trans (.judge closed.inv fun _ none => nomatch none),
      Function.update_self ..⟩

theorem accept_guarantee (inv : w.Inv) (k : Task) : Guarantee t w (w.accept k) := by
  cases k with
  | lookup api jti =>
    refine .quiet inv ⟨rfl, List.subset_cons_self _ _, rfl, rfl⟩ ?_ rfl rfl
    have same : Quiet w (w.learn jti) := ⟨rfl, List.subset_cons_self _ _, rfl, rfl⟩
    exact inv.denying.kept same.kept rfl rfl rfl rfl
  | issue | rotate | revoke => exact .idle inv

theorem disturb_guarantee {e : Event} (inv : w.Inv) (disturbed : w.disturb e = some w') :
    Guarantee t w w' ∧ w'.verdict = w.verdict := by
  cases e with
  | wait ms =>
    cases disturbed
    exact ⟨.pass inv ms, rfl⟩
  | evict api jti =>
    cases disturbed
    exact ⟨.quiet inv (quiet_setHint _ _ _)
      (Denying.setHint inv.denying fun _ none => nomatch none) rfl rfl, rfl⟩
  | expire jti =>
    cases disturbed
    exact ⟨.quiet inv (quiet_setRedis _ _)
      (Denying.setRedis inv.denying fun present => nomatch present) rfl rfl, rfl⟩
  | arrive jti =>
    obtain ⟨late, here⟩ := Option.ite_none_right_eq_some.mp disturbed
    cases here
    exact ⟨.quiet inv (quiet_setRedis _ _)
      (Denying.setRedis inv.denying fun _ => inv.denying.late late) rfl rfl, rfl⟩

theorem Guarantee.rely {t' : ℕ} (allowed : Guarantee t w w')
    (same : w'.verdict t' = w.verdict t') : Rely t' w w' := ⟨allowed.inv, allowed.kept, same⟩

/-- Every call ends as its verdict tells. -/
theorem code_ends (t : ℕ) (k : Task) {w : World} (inv : w.Inv) (free : w.verdict t = none) :
    Safe system Rely Guarantee t (fun r w => settles t r w) k.code (w.accept k) := by
  have accepted := accept_guarantee (t := t) inv k
  have started {asked : List Jti} (known : ∀ jti ∈ asked, jti ∈ (w.accept k).known) {p : Prog Returned}
      (ends : Ends t asked p) :
      Safe system Rely Guarantee t (fun r w => settles t r w) p (w.accept k) := by
    have same : (w.accept k).verdict t = none := by cases k <;> exact free
    refine (ends _ ⟨accepted.inv, same, known, by simp⟩).mono fun r v h => ?_
    cases r <;> exact h
  cases k with
  | issue => exact started (by simp) (issue_ends : Ends t [] issue)
  | rotate api id presented => exact started (by simp) (rotate_ends api id presented : Ends t [] _)
  | revoke api id => exact started (by simp) (revoke_ends api id : Ends t [] _)
  | lookup api jti =>
    refine started (fun x here => ?_) (lookupByJti_ends api jti)
    obtain rfl := List.mem_singleton.mp here
    exact List.mem_cons_self

theorem verified : Verified system (fun _ _ => True) Rely Guarantee World.Inv
    (fun t w => w.verdict t = none) fun t r w => settles t r w where
  guarantee_rely ne _ allowed := allowed.rely (allowed.others _ ne.symm)
  guarantee_inv _ allowed := allowed.inv
  idle_stable _ _ _ free rely := rely.mine.trans free
  start := by
    intro t k w w' inv free accepted
    cases accepted
    exact ⟨accept_guarantee inv k, code_ends t k inv free⟩
  finish := by
    intro t r w w' _ h settled
    cases settled
    exact settle_guarantee h
  crash := by
    intro t w w' inv crashed
    cases crashed
    exact ⟨.judge inv (fun _ none => nomatch none), Function.update_self ..⟩
  disturb := by
    intro e w w' inv _ disturbed
    refine ⟨(disturb_guarantee (t := 0) inv disturbed).1.inv, fun t => ?_⟩
    obtain ⟨allowed, same⟩ := disturb_guarantee (t := t) inv disturbed
    exact allowed.rely (congrFun same t)

theorem inv_reached {c : Config system} (reached : Reaches (Config.idle World.empty) c) :
    c.world.Inv := (verified.sound inv_empty (fun _ => rfl) reached).inv

theorem kept_onward {c d : Config system} (reached : Reaches (Config.idle World.empty) c)
    (onward : Reaches c d) : Kept c.world d.world := by
  induction onward with
  | refl => exact .refl _
  | step before permitted taken ih =>
    refine ih.trans ?_
    have sound := verified.sound inv_empty (fun _ => rfl) (reached.trans before)
    rcases (verified.step_sound sound permitted taken).2 with ⟨t, allowed⟩ | ⟨e, rfl, disturbed⟩
    · exact allowed.kept
    · exact (disturb_guarantee (t := 0) sound.inv disturbed).1.kept

end Runs

/-! ## The guarantees of the service -/

/-- At most one member of a list satisfies a condition that excludes itself from the others. -/
theorem countP_le_one {α : Type} {p : α → Bool} {l : List α}
    (apart : l.Pairwise fun a b => p a = true → p b = false) : l.countP p ≤ 1 := by
  induction l with
  | nil => simp
  | cons a l ih =>
    obtain ⟨others, rest⟩ := List.pairwise_cons.mp apart
    cases here : p a with
    | false =>
      rw [List.countP_cons_of_neg (by simp [here])]
      exact ih rest
    | true =>
      have none : l.countP p = 0 := List.countP_eq_zero.mpr fun b there => by
        simp [others b there here]
      rw [List.countP_cons_of_pos here]
      omega

namespace World

/-- How often a token was accepted while it was the current one, and in grace. -/
def acceptances (w : World) (token : Hash) (viaGrace : Bool) : ℕ :=
  w.rotations.countP fun r => r.presented = token && r.viaGrace == viaGrace

theorem acceptances_le_one {w : World} (h : w.Rotated) (token : Hash) (viaGrace : Bool) :
    w.acceptances token viaGrace ≤ 1 := by
  refine countP_le_one ?_
  cases viaGrace with
  | true =>
    refine h.graceOnce.imp fun {r r'} apart here => ?_
    obtain ⟨presented, grace⟩ : r.presented = token ∧ r.viaGrace = true := by simpa using here
    by_cases grace' : r'.viaGrace = true
    · simp [grace', ← presented, (apart grace grace').symm]
    · simp [grace']
  | false =>
    refine List.Pairwise.imp_of_mem (fun {r r'} here there apart accepted => ?_) h.once
    obtain ⟨presented, plain⟩ : r.presented = token ∧ r.viaGrace = false := by
      simpa using accepted
    by_cases plain' : r'.viaGrace = false
    · have current := h.current r here plain
      have current' := h.current r' there plain'
      have ne : r'.presented ≠ token := fun same =>
        apart token (presented ▸ current) (same ▸ current')
      simp [ne]
    · simp [plain']

end World

/-- In every run: a revoked session stays revoked and rotates no more, a token is accepted once
while it is current and once in its grace window, another token leaves a live session revoked and
the call failed, and no cache denies what a live session carries. -/
theorem single_generation {c : Config system} (reached : Reaches (Config.idle World.empty) c) :
    (∀ d, Reaches c d → ∀ id, c.world.revoked id →
      d.world.revoked id ∧ d.world.rotationsOf id = c.world.rotationsOf id) ∧
    (∀ token, c.world.acceptances token false ≤ 1 ∧ c.world.acceptances token true ≤ 1) ∧
    (∀ r ∈ c.world.rotations, r.viaGrace = false → r.superseded = some r.presented) ∧
    (∀ r ∈ c.world.rotations, r.viaGrace = true → ∃ r' ∈ c.world.rotations,
      r'.session = r.session ∧ r'.superseded = some r.presented ∧
        r.checkedAt < r'.wroteAt + refreshGraceWindowMs) ∧
    (∀ e ∈ c.world.ended, (e.verdict = .accepted ↔ e.failed = false) ∧
      (e.verdict = .other → c.world.revoked e.session)) ∧
    ∀ id row, c.world.live id = some row → c.world.redis row.jti = false ∧
      row.jti ∉ c.world.denied ∧
      ∀ api hint, c.world.hints api row.jti = some hint → hint.revoked = false := by
  have inv := inv_reached reached
  refine ⟨fun d onward id revoked => (kept_onward reached onward).revoked revoked,
    fun token => ⟨acceptances_le_one inv.rotated token false,
      acceptances_le_one inv.rotated token true⟩,
    inv.rotated.current, inv.rotated.grace, inv.judged.ended, fun id row live => ?_⟩
  obtain ⟨stored, unrevoked⟩ := live_iff.mp live
  have alive : ¬c.world.dead row.jti := fun dead => dead.2 id row stored unrevoked rfl
  refine ⟨Bool.eq_false_iff.mpr (mt inv.denying.redis alive), mt inv.denying.denied alive,
    fun api hint here => ?_⟩
  exact Bool.eq_false_iff.mpr (mt (inv.denying.hints here) alive)

/-! ## A sample -/

/-- An answer with some tokens, after some time. -/
def sampleChoice (jti hash wait : ℕ) : Choice := ⟨0, jti, hash, wait, 0, false, false⟩

def calls (t : ℕ) (k : Task) : Move system := .start t k

def answered (t : ℕ) (c : Choice) : Move system := .reply t c

def ends (t : ℕ) : Move system := .finish t

/-- A session is issued, and its first token is presented three times: as the current one, a second
later in grace, and once more. -/
def sampleRun : List (Move system) :=
  [calls 0 .issue, answered 0 (sampleChoice 1 0 0), answered 0 (sampleChoice 2 10 0), ends 0,
    calls 0 (.rotate ⟨0, true⟩ 0 10), calls 1 (.rotate ⟨1, true⟩ 0 10),
    answered 0 (sampleChoice 3 11 0), answered 1 (sampleChoice 4 12 1000),
    answered 0 (sampleChoice 0 0 0), answered 0 (sampleChoice 0 0 0), ends 0,
    answered 1 (sampleChoice 0 0 0), answered 1 (sampleChoice 0 0 0), ends 1,
    calls 0 (.rotate ⟨0, true⟩ 0 10), answered 0 (sampleChoice 5 13 0),
    answered 0 (sampleChoice 0 0 0), answered 0 (sampleChoice 0 0 0), ends 0]

theorem sampleRun_ends : ∃ c : Config system, Reaches (Config.idle World.empty) c ∧
    decide (c.world.acceptances 10 false = 1 ∧ c.world.acceptances 10 true = 1 ∧
      c.world.ended = [⟨0, .other, true⟩, ⟨0, .accepted, false⟩, ⟨0, .accepted, false⟩]) =
        true := by
  refine exists_reaches (l := sampleRun) ?_
  decide +kernel

theorem single_generation_sample : ∃ c : Config system,
    Reaches (Config.idle World.empty) c ∧ c.world.acceptances 10 false = 1 ∧
      c.world.acceptances 10 true = 1 ∧ c.world.revoked 0 := by
  obtain ⟨c, reached, here⟩ := sampleRun_ends
  obtain ⟨current, grace, ended⟩ := of_decide_eq_true here
  obtain ⟨-, -, -, -, judged, -⟩ := single_generation reached
  refine ⟨c, reached, current, grace, (judged ⟨0, .other, true⟩ ?_).2 rfl⟩
  rw [ended]
  exact List.mem_cons_self

end DeclutrMail.Auth
