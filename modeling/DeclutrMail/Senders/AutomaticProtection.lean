import Mathlib.Data.List.Nodup
import DeclutrMail.Collections.Batches

/-!
# Automatic protection

`applyAutomaticProtection` protects the senders of a mailbox for which there is strong
evidence, and takes back the protections it gave once their evidence is gone. It first demotes
(`reconcile`), then grants (`upsert`). `SendersPolicyService.setPolicy` writes what the user
decides. A scope narrows every pass to a set of sender keys.

The tables are their rows of one mailbox, since each statement is of one mailbox. What depends
on the calendar is a parameter: `yearAgo`, the `now() - interval '1 year'` of the database.
-/

namespace DeclutrMail.Senders

open Batches

abbrev SenderKey := String

inductive GmailCategory
  | primary
  | promotions
  | social
  | updates
  | forums
  | unknown
  deriving DecidableEq

inductive ProtectionReason
  | userDefined
  | replied
  | starred
  | gmailImportant
  deriving DecidableEq

inductive SenderPolicyType
  | keep
  | archive
  | unsubscribe
  | later
  deriving DecidableEq

structure Sender where
  id : String
  senderKey : SenderKey
  wroteToCount : ℕ
  gmailCategory : GmailCategory
  deriving DecidableEq

structure MailMessage where
  senderKey : SenderKey
  labelIds : List String
  internalDate : ℤ
  isOutbound : Bool
  deriving DecidableEq

/-- The columns of protection and the standing verdict of a row of `sender_policies`; a
protected sender always carries its reason. -/
@[ext]
structure SenderPolicy where
  policyType : Option SenderPolicyType
  isProtected : Bool
  protectionReason : Option ProtectionReason
  protectionSetAt : Option ℤ
  updatedAt : ℤ
  reasonWhenProtected : isProtected = true → protectionReason ≠ none
  deriving DecidableEq

/-- The sender keys are unique, and a policy is found by its sender key. -/
structure Tables where
  senders : List Sender
  mail : List MailMessage
  policies : SenderKey → Option SenderPolicy
  unique : (senders.map (·.senderKey)).Nodup

/-! ## Evidence -/

structure SenderSignals where
  hasRecentStar : Bool
  recentImportantCount : ℕ
  hasPrimaryLabel : Bool
  deriving DecidableEq

/-- The group of a sender, which is there only if some inbound mail is. -/
def senderSignals (mail : List MailMessage) (since : ℤ) (key : SenderKey) : Option SenderSignals :=
  let inbound := mail.filter fun m => m.senderKey = key && !m.isOutbound
  if inbound = [] then none
  else
    some
      { hasRecentStar := inbound.any fun m => "STARRED" ∈ m.labelIds && since ≤ m.internalDate
        recentImportantCount :=
          (inbound.filter fun m => "IMPORTANT" ∈ m.labelIds && since ≤ m.internalDate).length
        hasPrimaryLabel := inbound.any fun m => "CATEGORY_PERSONAL" ∈ m.labelIds }

/-- The reason the current signals support; the first match wins. -/
def currentReason (sender : Sender) (signals : Option SenderSignals) : Option ProtectionReason :=
  if sender.wroteToCount ≥ 3 ∧ signals.isSome then some .replied
  else if signals.any (·.hasRecentStar) then some .starred
  else if sender.gmailCategory = .primary ∧ (signals.map (·.recentImportantCount)).getD 0 ≥ 3 then
    some .gmailImportant
  else none

/-- Importance that an existing protection may stand on. -/
def keepsImportance (sender : Sender) (signals : Option SenderSignals) : Bool :=
  (signals.map (·.recentImportantCount)).getD 0 ≥ 3 &&
    (sender.gmailCategory = .primary || signals.any (·.hasPrimaryLabel))

/-! ## A sweep -/

/-- `none` is the whole mailbox. -/
abbrev Scope := Option (List SenderKey)

def Scope.covers (scope : Scope) (key : SenderKey) : Bool := scope.all (key ∈ ·)

/-- A row of `current_reason`. -/
structure Current where
  sender : Sender
  reason : Option ProtectionReason
  keepsImportance : Bool
  deriving DecidableEq

def automaticProtectionReasons : List ProtectionReason := [.replied, .starred, .gmailImportant]

namespace SenderPolicy

/-- A protection that a sweep gave. -/
def Automatic (policy : SenderPolicy) : Prop :=
  policy.isProtected = true ∧ ∃ reason ∈ automaticProtectionReasons,
    policy.protectionReason = some reason

/-- The statement that demotes takes this row: its reason is not the current one, and it does
not stand on importance. -/
def demotes (current : Current) (policy : SenderPolicy) : Bool :=
  policy.isProtected &&
    policy.protectionReason.any (· ∈ automaticProtectionReasons) &&
    current.reason ≠ policy.protectionReason &&
    !(current.reason = none && current.keepsImportance &&
      policy.protectionReason = some .gmailImportant)

/-- Before it is released, a protection falls back to importance. -/
def demoted (current : Current) (now : ℤ) (policy : SenderPolicy) : SenderPolicy :=
  if current.reason = none ∧ current.keepsImportance = true then
    { policy with
      isProtected := true
      protectionReason := some .gmailImportant
      updatedAt := now
      reasonWhenProtected := by simp }
  else
    { policy with
      isProtected := false
      protectionReason := none
      protectionSetAt := none
      updatedAt := now
      reasonWhenProtected := by simp }

def reconciled (current : Current) (now : ℤ) (policy : SenderPolicy) : SenderPolicy :=
  if policy.demotes current then policy.demoted current now else policy

/-- The row of a new grant. -/
def inserted (reason : ProtectionReason) (now : ℤ) : SenderPolicy :=
  ⟨some .keep, true, some reason, some now, now, by simp⟩

/-- A row that a grant may take: neither protected nor pinned by a reason. -/
def grantable (policy : SenderPolicy) : Bool :=
  !policy.isProtected && policy.protectionReason = none

def granted (reason : ProtectionReason) (now : ℤ) (policy : SenderPolicy) : SenderPolicy :=
  { policy with
    isProtected := true
    protectionReason := policy.protectionReason.or (some reason)
    protectionSetAt := policy.protectionSetAt.or (some now)
    updatedAt := now
    reasonWhenProtected := by simp }

/-- `INSERT … ON CONFLICT DO UPDATE … WHERE` for one eligible sender. -/
def upserted (reason : ProtectionReason) (now : ℤ) : Option SenderPolicy → SenderPolicy
  | none => inserted reason now
  | some policy => if policy.grantable then policy.granted reason now else policy

end SenderPolicy

namespace Tables

variable (db : Tables)

def sender (key : SenderKey) : Option Sender := db.senders.find? (·.senderKey = key)

/-- The messages that the signals of a scope are taken from. -/
def mailIn (scope : Scope) : List MailMessage := db.mail.filter fun m => scope.covers m.senderKey

variable (yearAgo : ℤ → ℤ) (scope : Scope) (now : ℤ)

def currentOf (sender : Sender) : Current :=
  let signals := senderSignals (db.mailIn scope) (yearAgo now) sender.senderKey
  ⟨sender, currentReason sender signals, keepsImportance sender signals⟩

/-- The `current_reason` of the senders in scope. -/
def current : List Current :=
  (db.senders.filter fun sender => scope.covers sender.senderKey).map (db.currentOf yearAgo scope now)

def currentAt (key : SenderKey) : Option Current :=
  (db.current yearAgo scope now).find? (·.sender.senderKey = key)

/-- The rows that the first statement demotes, with the reason each had. -/
def demotedRows : List (SenderKey × Option ProtectionReason) :=
  (db.current yearAgo scope now).filterMap fun current =>
    ((db.policies current.sender.senderKey).filter (·.demotes current)).map fun policy =>
      (current.sender.senderKey, policy.protectionReason)

def reconcile : Tables :=
  { db with
    policies := fun key =>
      match db.currentAt yearAgo scope now key with
      | none => db.policies key
      | some current => (db.policies key).map (·.reconciled current now) }

/-- The senders that the second statement writes. -/
def grantedKeys : List SenderKey :=
  (db.current yearAgo scope now).filterMap fun current =>
    if current.reason.isSome && (db.policies current.sender.senderKey).all (·.grantable) then
      some current.sender.senderKey
    else none

def upsert : Tables :=
  { db with
    policies := fun key =>
      match (db.currentAt yearAgo scope now key).bind (·.reason) with
      | none => db.policies key
      | some reason => some (.upserted reason now (db.policies key)) }

end Tables

/-- What a sweep leaves: the tables, the releases it reports and the senders whose decisions it
marked stale. -/
structure Swept where
  db : Tables
  released : List (SenderKey × Option ProtectionReason)
  stale : List SenderKey

def applyAutomaticProtection (yearAgo : ℤ → ℤ) (db : Tables) (scope : Scope) (now : ℤ) : Swept :=
  if scope = some [] then ⟨db, [], []⟩
  else
    let demoted := db.demotedRows yearAgo scope now
    let reconciled := db.reconcile yearAgo scope now
    let swept := reconciled.upsert yearAgo scope now
    { db := swept
      released := demoted.filter fun row => (swept.policies row.1).any fun policy => !policy.isProtected
      stale := distinct (demoted.map (·.1) ++ reconciled.grantedKeys yearAgo scope now) }

/-! ## What the user decides -/

/-- `SenderPolicyPatch`; only a Keep can be set. -/
structure SenderPolicyPatch where
  keep : Bool
  isProtected : Option Bool
  nonempty : keep = true ∨ isProtected ≠ none

inductive AuditAction
  | keep
  | markedProtected
  | unmarkedProtected
  deriving DecidableEq

/-- The tables beside the manual rows of `activity_log`. -/
structure World where
  db : Tables
  activity : List (SenderKey × AuditAction)

namespace SenderPolicy

variable (patch : SenderPolicyPatch)

/-- The row that a patch inserts, with the defaults of the columns. -/
def ofPatch (now : ℤ) : SenderPolicy where
  policyType := some .keep
  isProtected := patch.isProtected.getD false
  protectionReason := if patch.isProtected = some true then some .userDefined else none
  protectionSetAt := if patch.isProtected = some true then some now else none
  updatedAt := now
  reasonWhenProtected := by
    cases h : patch.isProtected with
    | none => simp
    | some b => cases b <;> simp

/-- A field at its target is no change, and an absent row is not protected. -/
def keepChange (existing : Option SenderPolicy) : Bool :=
  patch.keep && existing.bind (·.policyType) ≠ some .keep

def protectChange (existing : Option SenderPolicy) : Bool :=
  patch.isProtected.any fun target => target ≠ (existing.map (·.isProtected)).getD false

/-- Only what changes is written; an unprotect leaves the reason as a memory pin. -/
def patched (now : ℤ) (existing : SenderPolicy) : SenderPolicy :=
  let policy := { existing with
    policyType := if keepChange patch (some existing) then some .keep else existing.policyType
    updatedAt := now }
  if protectChange patch (some existing) then
    if patch.isProtected = some true then
      { policy with
        isProtected := true
        protectionReason := some .userDefined
        protectionSetAt := some now
        reasonWhenProtected := by simp }
    else { policy with isProtected := false, protectionSetAt := none, reasonWhenProtected := by simp }
  else policy

/-- The row that a patch leaves. -/
def set (now : ℤ) : Option SenderPolicy → SenderPolicy
  | none => ofPatch patch now
  | some existing => existing.patched patch now

end SenderPolicy

/-- One row of the log for each change. -/
def auditValues (key : SenderKey) (patch : SenderPolicyPatch) (existing : Option SenderPolicy) :
    List (SenderKey × AuditAction) :=
  (if SenderPolicy.keepChange patch existing then [(key, .keep)] else []) ++
    if SenderPolicy.protectChange patch existing then
      [(key, if patch.isProtected = some true then .markedProtected else .unmarkedProtected)]
    else []

/-- A request for a sender that is not there is refused. -/
def setPolicy (world : World) (senderId : String) (patch : SenderPolicyPatch) (now : ℤ) : World :=
  match world.db.senders.find? (·.id = senderId) with
  | none => world
  | some sender =>
    let key := sender.senderKey
    let existing := world.db.policies key
    if !SenderPolicy.keepChange patch existing && !SenderPolicy.protectChange patch existing then
      world
    else
      let row := SenderPolicy.set patch now existing
      { db := { world.db with policies := Function.update world.db.policies key (some row) }
        activity := world.activity ++ auditValues key patch existing }

/-! ## Histories -/

inductive Action
  | sweep (scope : Scope) (now : ℤ)
  | setPolicy (senderId : String) (patch : SenderPolicyPatch) (now : ℤ)
  /-- Mail arrives, is relabelled and goes, and the senders change with it. -/
  | evidence (senders : List Sender) (mail : List MailMessage)
      (unique : (senders.map (·.senderKey)).Nodup)

def act (yearAgo : ℤ → ℤ) (world : World) : Action → World
  | .sweep scope now =>
    { world with db := (applyAutomaticProtection yearAgo world.db scope now).db }
  | .setPolicy senderId patch now => setPolicy world senderId patch now
  | .evidence senders mail unique => { world with db := { world.db with senders, mail, unique } }

/-- The last time the user protected the sender or took a protection away. -/
def World.lastToggle (world : World) (key : SenderKey) : Option AuditAction :=
  (world.activity.reverse.find? fun row => row.1 = key && row.2 ≠ .keep).map (·.2)

end DeclutrMail.Senders
