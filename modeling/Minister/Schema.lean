import Minister.Relational.Slots

/-!
# The database schema

The rows the modelled code reads or writes, with the unique constraints
`schema.prisma` declares on them. Timestamps are milliseconds. The columns
`createdAt` and `updatedAt`, and columns no modelled function reads or writes,
are left out.

Tables whose unique constraints never mention the owning account are `Movable`;
`Eligibility`, `InviteRedemption`, `SubjectOverride` and `OidcGrant` carry a
per-account unique and are not.
-/

namespace Minister

open Relational

abbrev UserId := String
abbrev ClientId := String

/-- A `Date`, as milliseconds since the epoch. -/
abbrev Timestamp := Int

/-- A `Date` rendered by `toISOString`, or the empty placeholder. -/
abbrev IsoDate := Option Timestamp

/-! ### Accounts and credentials -/

structure User where
  id : UserId
  email : Option String
  isAdmin : Bool
  isBanned : Bool
  sessionGeneration : Nat
  mergedIntoUserId : Option UserId
  mergedAt : Option Timestamp
  dedupHandle : Option String
  deriving DecidableEq, Repr

structure Account where
  provider : String
  providerAccountId : String
  userId : UserId
  deriving DecidableEq, Repr

structure Session where
  sessionToken : String
  userId : UserId
  deriving DecidableEq, Repr

structure Authenticator where
  credentialID : String
  userId : UserId
  deriving DecidableEq, Repr

structure UserEmail where
  id : String
  userId : UserId
  email : String
  verifiedAt : Option Timestamp
  isPrimary : Bool
  deriving DecidableEq, Repr

structure RecoveryCode where
  id : String
  userId : UserId
  codeHash : String
  usedAt : Option Timestamp
  deriving DecidableEq, Repr

structure RecoveryAttempt where
  id : String
  userId : UserId
  nonce : String
  status : String
  deriving DecidableEq, Repr

structure VerificationToken where
  identifier : String
  token : String
  expires : Timestamp
  deriving DecidableEq, Repr

/-! ### Badges and what they unlock -/

structure Badge where
  id : String
  userId : UserId
  type : String
  dedupeKey : Option String
  nullifierRef : Option String
  deriving DecidableEq, Repr

structure Eligibility where
  id : String
  userId : UserId
  badgeType : String
  eligibleAt : Timestamp
  fuzzDays : Int
  source : String
  deriving DecidableEq, Repr

structure ShareLink where
  id : String
  userId : UserId
  token : String
  badgeIds : List String
  deriving DecidableEq, Repr

structure WizardSession where
  id : String
  userId : UserId
  pluginId : String
  pendingToken : Option String
  deriving DecidableEq, Repr

structure InviteRedemption where
  id : String
  inviteCodeId : String
  userId : UserId
  redeemedAt : Timestamp
  deriving DecidableEq, Repr

structure AuditLog where
  id : String
  userId : Option UserId
  action : String
  deriving DecidableEq, Repr

structure NullifierEntry where
  id : String
  value : List UInt8
  ownerHandle : String
  badgeType : String
  deriving DecidableEq, Repr

/-! ### OpenID Connect -/

structure OidcClient where
  id : String
  clientId : ClientId
  ownerUserId : Option UserId
  anonAppId : Option String
  deriving DecidableEq, Repr

structure OidcAuthorizationCode where
  code : String
  clientId : ClientId
  userId : UserId
  deriving DecidableEq, Repr

structure OidcAccessToken where
  jti : String
  userId : UserId
  clientId : ClientId
  deriving DecidableEq, Repr

/-- The union-mergeable fields of an `OidcGrant`. -/
structure OidcGrantFields where
  badgeTypes : List String
  badgeIds : List String
  profileName : Bool
  profileAvatar : Bool
  sybilScore : Bool
  deriving DecidableEq, Repr

structure OidcGrant where
  id : String
  userId : UserId
  clientId : ClientId
  fields : OidcGrantFields
  deriving DecidableEq, Repr

structure SubjectOverride where
  userId : UserId
  clientId : ClientId
  sub : String
  deriving DecidableEq, Repr

structure OidcProfileOverride where
  userId : UserId
  clientId : ClientId
  displayName : Option String
  avatarUrl : Option String
  deriving DecidableEq, Repr

/-! ### Avatars, groups and the anonymous identity -/

structure UserAvatar where
  userId : UserId
  publicId : String
  deriving DecidableEq, Repr

structure Group where
  id : String
  slug : String
  ownerUserId : UserId
  deriving DecidableEq, Repr

structure GroupMembership where
  id : String
  groupId : String
  userId : UserId
  role : String
  deriving DecidableEq, Repr

structure AnonSeedEnrollment where
  userId : UserId
  enrollmentEpoch : Nat
  deriving DecidableEq, Repr

structure AnonSeedBlob where
  id : String
  userId : UserId
  credentialId : String
  deriving DecidableEq, Repr

structure AnonPairSession where
  id : String
  userId : UserId
  deriving DecidableEq, Repr

/-! ### The merge record

`MergeRecord.snapshot` is a JSON column; its shape is the `MergeSnapshot`
interface, with the fields added after the first release optional. -/

structure MovedRows where
  badge : List String
  shareLink : List String
  oidcAccessToken : List String
  wizardSession : List String
  recoveryCode : List String
  recoveryAttempt : List String
  userEmail : List String
  auditLog : List String
  account : List (String × String)
  session : List String
  /-- The account each authenticator was taken from, with its `credentialID`. -/
  authenticator : List (UserId × String)
  subjectOverride : List ClientId
  inviteRedemption : List String
  eligibility : List String
  oidcClientOwned : List String
  oidcGrant : Option (List ClientId)
  deriving DecidableEq, Repr

/-- A deleted `Eligibility`, kept so that the reversal can recreate it. -/
structure EligibilityDeleted where
  id : String
  userId : UserId
  badgeType : String
  eligibleAt : IsoDate
  fuzzDays : Int
  source : String
  deriving DecidableEq, Repr

structure InviteRedemptionDeleted where
  id : String
  inviteCodeId : String
  userId : UserId
  redeemedAt : IsoDate
  deriving DecidableEq, Repr

structure SubAtClient where
  clientId : ClientId
  sub : String
  deriving DecidableEq, Repr

structure OidcGrantMerged where
  clientId : ClientId
  survivorPrev : OidcGrantFields
  donorDeletedId : String
  donorDeleted : OidcGrantFields
  deriving DecidableEq, Repr

structure SurvivorPrev where
  isBanned : Bool
  sessionGeneration : Nat
  email : Option String
  deriving DecidableEq, Repr

structure MergeSnapshot where
  version : Nat
  survivorUserId : UserId
  donorUserId : UserId
  movedAt : IsoDate
  moved : MovedRows
  eligibilityDeleted : List EligibilityDeleted
  inviteRedemptionDeleted : List InviteRedemptionDeleted
  overridesCreated : List SubAtClient
  oidcGrantMerged : Option (List OidcGrantMerged)
  strandedClients : List SubAtClient
  survivorPrev : SurvivorPrev
  donorPrevSessionGeneration : Nat
  demotedPrimaryEmailIds : List String
  dedupReassigned : Option (List String)
  deriving DecidableEq, Repr

structure MergeRecord where
  id : String
  survivorUserId : UserId
  donorUserId : UserId
  snapshot : MergeSnapshot
  reversibleUntil : Timestamp
  reversedAt : Option Timestamp
  deriving DecidableEq, Repr

/-! ### The database -/

structure Db where
  user : List User := []
  account : List Account := []
  session : List Session := []
  authenticator : List Authenticator := []
  badge : List Badge := []
  eligibility : List Eligibility := []
  shareLink : List ShareLink := []
  oidcAccessToken : List OidcAccessToken := []
  wizardSession : List WizardSession := []
  auditLog : List AuditLog := []
  userEmail : List UserEmail := []
  recoveryCode : List RecoveryCode := []
  recoveryAttempt : List RecoveryAttempt := []
  subjectOverride : List SubjectOverride := []
  inviteRedemption : List InviteRedemption := []
  oidcClient : List OidcClient := []
  oidcGrant : List OidcGrant := []
  oidcAuthorizationCode : List OidcAuthorizationCode := []
  mergeRecord : List MergeRecord := []
  nullifierEntry : List NullifierEntry := []
  oidcProfileOverride : List OidcProfileOverride := []
  userAvatar : List UserAvatar := []
  group : List Group := []
  groupMembership : List GroupMembership := []
  anonSeedEnrollment : List AnonSeedEnrollment := []
  anonSeedBlob : List AnonSeedBlob := []
  anonPairSession : List AnonPairSession := []
  verificationToken : List VerificationToken := []
  deriving DecidableEq, Repr

/-! ### Unique constraints -/

/-- A nullable unique column: two rows clash only on a value both carry. -/
def sameKey (a b : Option String) : Bool := a.isSome && a == b

theorem sameKey_comm (a b : Option String) : sameKey a b = sameKey b a := by
  unfold sameKey
  by_cases h : a = b
  · rw [h]
  · have hba : b ≠ a := fun e => h e.symm
    rw [beq_false_of_ne h, beq_false_of_ne hba]
    simp

instance : Movable Account UserId (String × String) where
  clash a b := a.provider == b.provider && a.providerAccountId == b.providerAccountId
  key a := (a.provider, a.providerAccountId)
  owner a := some a.userId
  setOwner u a := { a with userId := u }

instance : Movable Session UserId String where
  clash a b := a.sessionToken == b.sessionToken
  key a := a.sessionToken
  owner a := some a.userId
  setOwner u a := { a with userId := u }

/-- The primary key `(userId, credentialID)` follows from `credentialID` being
unique on its own. -/
instance : Movable Authenticator UserId String where
  clash a b := a.credentialID == b.credentialID
  key a := a.credentialID
  owner a := some a.userId
  setOwner u a := { a with userId := u }

instance : Movable Badge UserId String where
  clash a b := a.id == b.id || sameKey a.dedupeKey b.dedupeKey
  clash_comm a b := by simp only [BEq.comm, sameKey_comm a.dedupeKey]
  key a := a.id
  owner a := some a.userId
  setOwner u a := { a with userId := u }

instance : Movable ShareLink UserId String where
  clash a b := a.id == b.id || a.token == b.token
  key a := a.id
  owner a := some a.userId
  setOwner u a := { a with userId := u }

instance : Movable OidcAccessToken UserId String where
  clash a b := a.jti == b.jti
  key a := a.jti
  owner a := some a.userId
  setOwner u a := { a with userId := u }

instance : Movable WizardSession UserId String where
  clash a b := a.id == b.id || sameKey a.pendingToken b.pendingToken
  clash_comm a b := by simp only [BEq.comm, sameKey_comm a.pendingToken]
  key a := a.id
  owner a := some a.userId
  setOwner u a := { a with userId := u }

/-- `AuditLog.userId` is nullable: a system event has no owner. -/
instance : Movable AuditLog UserId String where
  clash a b := a.id == b.id
  key a := a.id
  owner a := a.userId
  setOwner u a := { a with userId := some u }

instance : Movable UserEmail UserId String where
  clash a b := a.id == b.id || a.email == b.email
  key a := a.id
  owner a := some a.userId
  setOwner u a := { a with userId := u }

instance : Movable RecoveryCode UserId String where
  clash a b := a.id == b.id
  key a := a.id
  owner a := some a.userId
  setOwner u a := { a with userId := u }

instance : Movable RecoveryAttempt UserId String where
  clash a b := a.id == b.id || a.nonce == b.nonce
  key a := a.id
  owner a := some a.userId
  setOwner u a := { a with userId := u }

/-- `OidcClient.ownerUserId` is a nullable owner. -/
instance : Movable OidcClient UserId String where
  clash a b := a.id == b.id || a.clientId == b.clientId || sameKey a.anonAppId b.anonAppId
  clash_comm a b := by simp only [BEq.comm, sameKey_comm a.anonAppId]
  key a := a.id
  owner a := a.ownerUserId
  setOwner u a := { a with ownerUserId := some u }

/-- `@@unique([userId, badgeType])`. -/
instance : Owned Eligibility UserId String where
  clash a b := a.id == b.id || (a.userId == b.userId && a.badgeType == b.badgeType)
  key a := a.id
  owner a := some a.userId
  setOwner u a := { a with userId := u }

/-- `@@unique([inviteCodeId, userId])`. -/
instance : Owned InviteRedemption UserId String where
  clash a b := a.id == b.id || (a.userId == b.userId && a.inviteCodeId == b.inviteCodeId)
  key a := a.id
  owner a := some a.userId
  setOwner u a := { a with userId := u }

/-- `@@unique([userId, clientId])`. A grant never changes its client, so the client
is kept with the id. -/
instance : Owned OidcGrant UserId (String × ClientId) where
  clash a b := a.id == b.id || (a.userId == b.userId && a.clientId == b.clientId)
  key a := (a.id, a.clientId)
  owner a := some a.userId
  setOwner u a := { a with userId := u }

/-- `@@id([userId, clientId])`: the owner is part of the primary key. -/
instance : Constrained SubjectOverride where
  clash a b := a.userId == b.userId && a.clientId == b.clientId

instance : Slotted Eligibility UserId String where
  holder e := e.userId
  slot e := e.badgeType
  setHolder u e := { e with userId := u }

instance : Slotted InviteRedemption UserId String where
  holder r := r.userId
  slot r := r.inviteCodeId
  setHolder u r := { r with userId := u }

instance : Slotted OidcGrant UserId ClientId where
  holder g := g.userId
  slot g := g.clientId
  setHolder u g := { g with userId := u }

/-- The primary key `(userId, credentialID)`. -/
instance : Slotted Authenticator UserId String where
  holder a := a.userId
  slot a := a.credentialID
  setHolder u a := { a with userId := u }

instance : Slotted SubjectOverride UserId ClientId where
  holder o := o.userId
  slot o := o.clientId
  setHolder u o := { o with userId := u }

instance : Constrained User where
  clash a b := a.id == b.id || sameKey a.dedupHandle b.dedupHandle
  clash_comm a b := by simp only [BEq.comm, sameKey_comm a.dedupHandle]

instance : Constrained OidcAuthorizationCode where
  clash a b := a.code == b.code

instance : Constrained MergeRecord where
  clash a b := a.id == b.id

instance : Constrained NullifierEntry where
  clash a b := a.id == b.id || a.value == b.value

instance : Constrained VerificationToken where
  clash a b := a.identifier == b.identifier && a.token == b.token

/-- The unique constraints of every table a merge writes. -/
structure Db.Consistent (db : Db) : Prop where
  user : Relational.Consistent db.user
  account : Relational.Consistent db.account
  session : Relational.Consistent db.session
  authenticator : Relational.Consistent db.authenticator
  badge : Relational.Consistent db.badge
  eligibility : Relational.Consistent db.eligibility
  shareLink : Relational.Consistent db.shareLink
  oidcAccessToken : Relational.Consistent db.oidcAccessToken
  wizardSession : Relational.Consistent db.wizardSession
  auditLog : Relational.Consistent db.auditLog
  userEmail : Relational.Consistent db.userEmail
  recoveryCode : Relational.Consistent db.recoveryCode
  recoveryAttempt : Relational.Consistent db.recoveryAttempt
  subjectOverride : Relational.Consistent db.subjectOverride
  inviteRedemption : Relational.Consistent db.inviteRedemption
  oidcClient : Relational.Consistent db.oidcClient
  oidcGrant : Relational.Consistent db.oidcGrant
  mergeRecord : Relational.Consistent db.mergeRecord
  nullifierEntry : Relational.Consistent db.nullifierEntry

/-- `user.findUnique` by id. -/
def findUser (userId : UserId) (t : List User) : Option User := t.find? fun u => u.id = userId

/-! ### Errors -/

/-- What a server function throws. -/
inductive ServerError
  | thrown (message : String)
  | db (error : DbError)
  /-- `new Date("")` reached a statement. -/
  | invalidDate
  deriving DecidableEq, Repr

/-- Run a statement; a refusal is thrown. -/
def stmt {α : Type*} : Except DbError α → Except ServerError α := Except.mapError .db

section Stmt

variable {α : Type*} {x : Except DbError α} {a : α}

@[simp] theorem stmt_ok : stmt (.ok a : Except DbError α) = .ok a := rfl

@[simp] theorem stmt_error (e : DbError) : stmt (.error e : Except DbError α) = .error (.db e) :=
  rfl

theorem stmt_eq_ok_iff : stmt x = .ok a ↔ x = .ok a := by
  cases x with
  | error e => simp
  | ok b => simp

end Stmt

end Minister
