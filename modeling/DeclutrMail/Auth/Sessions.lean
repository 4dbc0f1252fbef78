import DeclutrMail.Collections.InsertionMap
import DeclutrMail.Interleaving.Triple

/-!
# Sessions

`SessionsService`: the calls that issue, rotate, revoke and look up the rows of
`active_sessions`, on several instances with one database, one Redis and a map of hints each.

A rotation reads and writes its row under the lock of that row, so its transaction is one request.
What the caches hold is read and written outside of it.
-/

namespace DeclutrMail.Auth

open Interleaving

abbrev SessionId := ℕ

abbrev Jti := ℕ

abbrev Hash := ℕ

def refreshGraceWindowMs : ℕ := 30000

def revokeCacheTtlSec : ℕ := 60

/-! ## Rows -/

structure SessionRow where
  jti : Jti
  /-- `none` is the empty text of a session that is still being issued. -/
  refreshTokenHash : Option Hash
  previousRefreshTokenHash : Option Hash
  previousHashExpiresAt : Option ℕ
  isRevoked : Bool
  deriving DecidableEq

namespace SessionRow

variable (row : SessionRow)

def isCurrent (presented : Hash) : Bool := row.refreshTokenHash = some presented

def isGraceHit (presented : Hash) (now : ℕ) : Bool :=
  !row.isCurrent presented && row.previousRefreshTokenHash = some presented &&
    row.previousHashExpiresAt.any (now < ·)

def rotate (jti : Jti) (hash : Hash) (now : ℕ) : SessionRow :=
  { row with
    jti
    refreshTokenHash := some hash
    previousRefreshTokenHash := row.refreshTokenHash
    previousHashExpiresAt := some (now + refreshGraceWindowMs) }

def revoke : SessionRow := { row with isRevoked := true }

def patch (jti : Jti) (hash : Hash) : SessionRow :=
  { row with jti, refreshTokenHash := some hash }

end SessionRow

structure Hint where
  revoked : Bool
  expiresAt : ℕ
  deriving DecidableEq

/-! ## The world -/

/-- A rotation whose transaction has committed. -/
structure Rotation where
  session : SessionId
  presented : Hash
  /-- The hash that was current. -/
  superseded : Option Hash
  viaGrace : Bool
  checkedAt : ℕ
  wroteAt : ℕ
  deriving DecidableEq

/-- What a rotation found: no live session, an accepted token, or another one. -/
inductive Verdict
  | refused
  | accepted
  | other
  deriving DecidableEq

/-- A rotation that has returned or thrown. -/
structure Ended where
  session : SessionId
  verdict : Verdict
  failed : Bool
  deriving DecidableEq

structure World where
  sessions : InsertionMap SessionId SessionRow
  now : ℕ
  redis : Jti → Bool
  /-- Writes to Redis that failed and may still arrive. -/
  late : List Jti
  hints : ℕ → Jti → Option Hint
  /-- Every `jti` that a row has carried or a call has asked for. -/
  known : List Jti
  /-- The hashes of all tokens issued so far. -/
  hashes : List Hash
  rotations : List Rotation
  verdict : ℕ → Option (SessionId × Verdict)
  ended : List Ended
  /-- The lookups that a cache has denied. -/
  denied : List Jti

def World.empty : World where
  sessions := .empty
  now := 0
  redis _ := false
  late := []
  hints _ _ := none
  known := []
  hashes := []
  rotations := []
  verdict _ := none
  ended := []
  denied := []

/-- What the environment settles: fresh ids and tokens, the time that passes and the failures. -/
structure Choice where
  id : SessionId
  jti : Jti
  hash : Hash
  wait : ℕ
  wait' : ℕ
  /-- The user's row is gone, or Redis fails. -/
  fails : Bool
  /-- A write of Redis that fails still arrives. -/
  lands : Bool
  deriving DecidableEq

namespace World

variable (w : World)

def live (id : SessionId) : Option SessionRow :=
  (w.sessions.get id).filter fun row => !row.isRevoked

def revoked (id : SessionId) : Prop := ∃ row, w.sessions.get id = some row ∧ row.isRevoked = true

def pass (wait : ℕ) : World := { w with now := w.now + wait }

def setRow (id : SessionId) (row : SessionRow) : World :=
  { w with sessions := w.sessions.set id row }

def setHint (api : ℕ) (jti : Jti) (hint : Option Hint) : World :=
  { w with hints := Function.update w.hints api (Function.update (w.hints api) jti hint) }

def setRedis (jti : Jti) (present : Bool) : World :=
  { w with redis := Function.update w.redis jti present }

def learn (jti : Jti) : World := { w with known := jti :: w.known }

def mint (hash : Hash) : World := { w with hashes := hash :: w.hashes }

def record (rotation : Rotation) : World := { w with rotations := rotation :: w.rotations }

def judge (t : ℕ) (verdict : Option (SessionId × Verdict)) : World :=
  { w with verdict := Function.update w.verdict t verdict }

/-- Whether a pair of tokens is fresh. -/
def fresh (c : Choice) : Bool := !w.known.contains c.jti && !w.hashes.contains c.hash

end World

/-! ## Requests -/

inductive RotateOutcome
  | rotated (oldJti : Jti)
  | reuse (revokedJti : Jti)

inductive Error
  | sessionNotFound
  | userGone
  | reuseDetected
  | redis
  deriving DecidableEq

/-- What is left of a hint at a read: the hint, and its answer if it has not expired. -/
structure HintRead where
  hint : Option Hint
  answer : Option Bool

inductive Request
  | insertSession
  | patchSession (id : SessionId)
  | rotateSession (id : SessionId) (presented : Hash)
  | revokeSession (id : SessionId)
  | selectByJti (jti : Jti)
  | readHint (api : ℕ) (jti : Jti)
  /-- The hint after an answer of Redis. -/
  | settleHint (api : ℕ) (jti : Jti) (hint : Option Hint) (present : Bool)
  | rememberHint (api : ℕ) (jti : Jti)
  | forgetHint (api : ℕ) (jti : Jti)
  | redisGet (jti : Jti)
  | redisSet (jti : Jti)
  | redisDel (jti : Jti)

def sessionsSignature : Signature where
  Request := Request
  Answer
    | .insertSession => SessionId
    | .rotateSession .. => RotateOutcome
    | .revokeSession _ => Option Jti
    | .selectByJti _ => Option SessionId
    | .readHint .. => HintRead
    | .settleHint .. => Bool
    | .redisGet _ => Bool
    | _ => Unit
  Error := Error

abbrev Prog := Program sessionsSignature

namespace World

variable (w : World)

/-- The transaction of `rotate` -/
def rotateSession (t : ℕ) (id : SessionId) (presented : Hash) (c : Choice) :
    Option (Except Error RotateOutcome × World) :=
  let read := w.pass c.wait
  match read.live id with
  | none => some (.error .sessionNotFound, read.judge t (some (id, .refused)))
  | some row =>
    let viaGrace := row.isGraceHit presented read.now
    if row.isCurrent presented || viaGrace then
      if c.fails then some (.error .userGone, read)
      else if read.fresh c then
        let written := read.pass c.wait'
        some (.ok (.rotated row.jti),
          ((((written.setRow id (row.rotate c.jti c.hash written.now)).learn c.jti).mint
            c.hash).record
              ⟨id, presented, row.refreshTokenHash, viaGrace, read.now, written.now⟩).judge t
                (some (id, .accepted)))
      else none
    else some (.ok (.reuse row.jti), (read.setRow id row.revoke).judge t (some (id, .other)))

/-- `UPDATE … SET is_revoked = true … RETURNING jti` -/
def revokeSession (id : SessionId) : Option Jti × World :=
  match w.sessions.get id with
  | none => (none, w)
  | some row => (some row.jti, w.setRow id row.revoke)

def selectByJti (jti : Jti) : Option SessionId :=
  (w.sessions.entries.find? fun entry => entry.2.jti = jti && !entry.2.isRevoked).map (·.1)

/-- `rememberRevocationHint` -/
def rememberHint (api : ℕ) (jti : Jti) (revoked : Bool) : World :=
  w.setHint api jti (some ⟨revoked, w.now + revokeCacheTtlSec * 1000⟩)

def readHint (api : ℕ) (jti : Jti) : HintRead :=
  let hint := w.hints api jti
  ⟨hint, (hint.filter (w.now < ·.expiresAt)).map (·.revoked)⟩

/-- A concurrent local revocation outranks an answer of Redis. -/
def settleHint (api : ℕ) (jti : Jti) (hint : Option Hint) (present : Bool) : Bool × World :=
  let current := w.hints api jti
  if current ≠ hint ∧ current.any (fun h => h.revoked && w.now < h.expiresAt) then (true, w)
  else (present, w.rememberHint api jti present)

end World

/-! ## The calls -/

/-- An instance, and whether it has a Redis. -/
structure Api where
  id : ℕ
  redis : Bool
  deriving DecidableEq

/-- What a call returns. -/
inductive Returned
  | done
  | rotated
  | found (id : SessionId)
  | denied (jti : Jti)
  | absent

def markRevokedInCache (api : Api) (jti : Jti) : Prog Unit := do
  Program.perform (S := sessionsSignature) (.rememberHint api.id jti)
  .when api.redis
    (tryCatch (Program.perform (S := sessionsSignature) (.redisSet jti)) fun _ => pure ())

def invalidateCache (api : Api) (jti : Jti) : Prog Unit := do
  Program.perform (S := sessionsSignature) (.forgetHint api.id jti)
  .when api.redis
    (tryCatch (Program.perform (S := sessionsSignature) (.redisDel jti)) fun _ => pure ())

def askRedis (api : Api) (jti : Jti) (hint : Option Hint) : Prog Bool :=
  tryCatch
    (do
      let present ← Program.perform (S := sessionsSignature) (.redisGet jti)
      Program.perform (S := sessionsSignature) (.settleHint api.id jti hint present))
    fun _ => pure false

def isRevokedInCache (api : Api) (jti : Jti) : Prog Bool := do
  let read ← Program.perform (S := sessionsSignature) (.readHint api.id jti)
  match read.answer with
  | some revoked => pure revoked
  | none => if api.redis then askRedis api jti read.hint else pure false

def issue : Prog Returned := do
  let id ← Program.perform (S := sessionsSignature) .insertSession
  Program.perform (S := sessionsSignature) (.patchSession id)
  pure .done

def rotate (api : Api) (id : SessionId) (presented : Hash) : Prog Returned := do
  match ← Program.perform (S := sessionsSignature) (.rotateSession id presented) with
  | .reuse revokedJti =>
    markRevokedInCache api revokedJti
    throw .reuseDetected
  | .rotated oldJti =>
    invalidateCache api oldJti
    pure .rotated

def revoke (api : Api) (id : SessionId) : Prog Returned := do
  match ← Program.perform (S := sessionsSignature) (.revokeSession id) with
  | some jti =>
    markRevokedInCache api jti
    pure .done
  | none => pure .done

def lookupByJti (api : Api) (jti : Jti) : Prog Returned := do
  if ← isRevokedInCache api jti then pure (.denied jti)
  else
    match ← Program.perform (S := sessionsSignature) (.selectByJti jti) with
    | some id => pure (.found id)
    | none =>
      markRevokedInCache api jti
      pure .absent

/-! ## The system -/

inductive Task
  | issue
  | rotate (api : Api) (id : SessionId) (presented : Hash)
  | revoke (api : Api) (id : SessionId)
  | lookup (api : Api) (jti : Jti)
  deriving DecidableEq

def Task.code : Task → Prog Returned
  | .issue => Auth.issue
  | .rotate api id presented => Auth.rotate api id presented
  | .revoke api id => Auth.revoke api id
  | .lookup api jti => lookupByJti api jti

/-- Time passes, entries of the caches expire or are evicted, a late write arrives. -/
inductive Event
  | wait (ms : ℕ)
  | evict (api : ℕ) (jti : Jti)
  | expire (jti : Jti)
  | arrive (jti : Jti)
  deriving DecidableEq

namespace World

variable (w : World)

/-- A write to Redis, which may fail with its effect, without it, or before it. -/
def redisSet (jti : Jti) (c : Choice) : Except Error Unit × World :=
  if c.fails then (.error .redis, if c.lands then { w with late := jti :: w.late } else w)
  else (.ok (), w.setRedis jti true)

def redisDel (jti : Jti) (c : Choice) : Except Error Unit × World :=
  if c.fails then (.error .redis, if c.lands then w.setRedis jti false else w)
  else (.ok (), w.setRedis jti false)

def answer (t : ℕ) (w : World) (c : Choice) :
    (q : Request) → Option (Except Error (sessionsSignature.Answer q) × World)
  | .insertSession =>
    if w.sessions.get c.id = none ∧ w.fresh c then
      some (.ok c.id, (w.setRow c.id ⟨c.jti, none, none, none, false⟩).learn c.jti)
    else none
  | .patchSession id =>
    match w.sessions.get id with
    | none => some (.ok (), w)
    | some row =>
      if w.fresh c then
        some (.ok (), ((w.setRow id (row.patch c.jti c.hash)).learn c.jti).mint c.hash)
      else none
  | .rotateSession id presented => w.rotateSession t id presented c
  | .revokeSession id =>
    let r := w.revokeSession id
    some (.ok r.1, r.2)
  | .selectByJti jti => some (.ok (w.selectByJti jti), w)
  | .readHint api jti => some (.ok (w.readHint api jti), w)
  | .settleHint api jti hint present =>
    let r := w.settleHint api jti hint present
    some (.ok r.1, r.2)
  | .rememberHint api jti => some (.ok (), w.rememberHint api jti true)
  | .forgetHint api jti => some (.ok (), w.setHint api jti none)
  | .redisGet jti => some (if c.fails then .error .redis else .ok (w.redis jti), w)
  | .redisSet jti => some (w.redisSet jti c)
  | .redisDel jti => some (w.redisDel jti c)

def note (w : World) : Except Error Returned → World
  | .ok (.denied jti) => { w with denied := jti :: w.denied }
  | _ => w

def close (e : Ended) : World := { w with ended := e :: w.ended }

/-- A call ends: what it returns is noted, and whether a rotation has failed. -/
def settle (t : ℕ) (w : World) (r : Except Error Returned) : World :=
  let noted := w.note r
  match noted.verdict t with
  | none => noted
  | some (id, verdict) => (noted.close ⟨id, verdict, r.toBool = false⟩).judge t none

def accept (w : World) : Task → World
  | .lookup _ jti => w.learn jti
  | _ => w

def disturb (w : World) : Event → Option World
  | .wait ms => some (w.pass ms)
  | .evict api jti => some (w.setHint api jti none)
  | .expire jti => some (w.setRedis jti false)
  | .arrive jti => if jti ∈ w.late then some (w.setRedis jti true) else none

end World

def system : System sessionsSignature where
  World := World
  Thread := ℕ
  Task := Task
  Outcome := Returned
  Choice := Choice
  Event := Event
  code := Task.code
  accept _ k w := some (w.accept k)
  answer t q c w := w.answer t c q
  settle t r w := some (w.settle t r)
  crash t w := some (w.judge t none)
  disturb e w := w.disturb e

end DeclutrMail.Auth
