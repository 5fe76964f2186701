import Mathlib.Data.List.Dedup
import Minister.Nullifier.Ledger

/-!
# Merging one account into another

`mergeAccounts` of `lib/merge.ts` and its transaction `runMergeTx`. Every row of the donor is
re-pointed at the survivor, with an explicit rule for each table that carries a
per-account unique; the donor is tombstoned; and a record is written whose
snapshot lists what moved, so that the merge can be undone.

Statements run in the order of the source. Where the source skips a statement
because its list of ids is empty, the model runs it: it then selects no row.
-/

namespace Minister

open Relational

/-! ### Tables with a collision rule -/

/-- Delete the collision losers, then move the donor's remaining rows. -/
def resolveCollisions {R : Type} [Owned R UserId String] (deleted toMove : List String)
    (survivorUserId : UserId) (t : List R) : Except DbError (List R) :=
  updateMany (fun r => key r ∈ toMove) (setOwner survivorUserId)
    (deleteMany (fun r => key r ∈ deleted) t)

section Eligibility

variable (survivorUserId donorUserId : UserId)

/-- The loser of one badge type, as it is first recorded: a deleted survivor row
is noted with placeholders, a deleted donor row in full. -/
def eligibilityLoser (survivorEligByType : String → Option Eligibility) (d : Eligibility) :
    Option EligibilityDeleted :=
  match survivorEligByType d.badgeType with
  | none => none
  | some s =>
    if d.eligibleAt < s.eligibleAt then
      some ⟨s.id, survivorUserId, d.badgeType, none, 0, ""⟩
    else
      some ⟨d.id, donorUserId, d.badgeType, some d.eligibleAt, d.fuzzDays, d.source⟩

/-- The donor's row moves unless the survivor holds one that is no later. -/
def eligibilityMoves (survivorEligByType : String → Option Eligibility) (d : Eligibility) :
    Bool :=
  match survivorEligByType d.badgeType with
  | none => true
  | some s => d.eligibleAt < s.eligibleAt

/-- Re-read a survivor row about to be deleted, for a faithful restore. -/
def fillSurvivorRow (t : List Eligibility) (e : EligibilityDeleted) : EligibilityDeleted :=
  if e.userId = survivorUserId then
    match t.find? fun r => r.id = e.id with
    | some full =>
      { e with
        eligibleAt := some full.eligibleAt, fuzzDays := full.fuzzDays, source := full.source }
    | none => e
  else e

structure EligibilityPlan where
  deleted : List EligibilityDeleted
  toMove : List String
  deriving DecidableEq, Repr

def eligibilityPlan (t : List Eligibility) : EligibilityPlan :=
  let donorEligibilities := findMany (fun e => e.userId = donorUserId) t
  let survivorEligibilities := findMany (fun e => e.userId = survivorUserId) t
  let byType := fun ty => survivorEligibilities.find? fun e => e.badgeType = ty
  { deleted := (donorEligibilities.filterMap
      (eligibilityLoser survivorUserId donorUserId byType)).map (fillSurvivorRow survivorUserId t)
    toMove := (findMany (eligibilityMoves byType) donorEligibilities).map (·.id) }

def mergeEligibilities (t : List Eligibility) : Except DbError (List Eligibility) :=
  let plan := eligibilityPlan survivorUserId donorUserId t
  resolveCollisions (plan.deleted.map (·.id)) plan.toMove survivorUserId t

end Eligibility

section InviteRedemption

variable (survivorUserId donorUserId : UserId)

structure RedemptionPlan where
  deleted : List InviteRedemptionDeleted
  toMove : List String
  deriving DecidableEq, Repr

/-- A code both accounts redeemed keeps the survivor's redemption. -/
def redemptionPlan (t : List InviteRedemption) : RedemptionPlan :=
  let donorRedemptions := findMany (fun r => r.userId = donorUserId) t
  let survivorCodeIds := (findMany (fun r => r.userId = survivorUserId) t).map (·.inviteCodeId)
  { deleted := (findMany (fun d => d.inviteCodeId ∈ survivorCodeIds) donorRedemptions).map
      fun d => ⟨d.id, d.inviteCodeId, donorUserId, some d.redeemedAt⟩
    toMove := (findMany (fun d => d.inviteCodeId ∉ survivorCodeIds) donorRedemptions).map (·.id) }

def mergeRedemptions (t : List InviteRedemption) : Except DbError (List InviteRedemption) :=
  let plan := redemptionPlan survivorUserId donorUserId t
  resolveCollisions (plan.deleted.map (·.id)) plan.toMove survivorUserId t

end InviteRedemption

section SubjectOverride

variable (survivorUserId donorUserId : UserId)

/-- The clients a user holds an override for. -/
def overrideClients (userId : UserId) (t : List SubjectOverride) : List ClientId :=
  (findMany (fun o => o.userId = userId) t).map (·.clientId)

/-- Re-point the donor's own overrides, skipping clients where the survivor
already holds one. -/
def moveOverrides (survivorExisting donorOwn : List ClientId) (t : List SubjectOverride) :
    Except DbError (List SubjectOverride) :=
  donorOwn.foldlM (fun t clientId =>
    if clientId ∈ survivorExisting then .ok t
    else update (inSlot donorUserId clientId) (setHolder survivorUserId) t) t

/-- Write the overrides for the clients only the donor used. -/
def createOverrides (overridesCreated : List SubAtClient) (t : List SubjectOverride) :
    Except DbError (List SubjectOverride) :=
  creates (overridesCreated.map fun ov => ⟨survivorUserId, ov.clientId, ov.sub⟩) t

end SubjectOverride

section OidcGrant

variable (survivorUserId donorUserId : UserId)

/-- Deduplicated union in first-occurrence order. -/
def unionStrings (a b : List String) : List String := (a ++ b).eraseDups

/-- The union-OR of two grants. -/
def OidcGrantFields.union (s d : OidcGrantFields) : OidcGrantFields where
  badgeTypes := unionStrings s.badgeTypes d.badgeTypes
  badgeIds := unionStrings s.badgeIds d.badgeIds
  profileName := s.profileName || d.profileName
  profileAvatar := s.profileAvatar || d.profileAvatar
  sybilScore := s.sybilScore || d.sybilScore

/-- One round of the grant loop: re-point the donor's grant, or fold it into the
survivor's and delete it. -/
def mergeGrant (survivorGrants : List OidcGrant) (t : List OidcGrant) (dg : OidcGrant) :
    Except DbError (List OidcGrant) :=
  match survivorGrants.find? fun g => g.clientId = dg.clientId with
  | none =>
    update (inSlot donorUserId dg.clientId) (setHolder survivorUserId) t
  | some sg =>
    (update (inSlot survivorUserId dg.clientId)
      (fun g => { g with fields := sg.fields.union dg.fields }) t).map
      (deleteMany (inSlot donorUserId dg.clientId))

structure GrantPlan where
  moved : List ClientId
  merged : List OidcGrantMerged
  deriving DecidableEq, Repr

def grantPlan (t : List OidcGrant) : GrantPlan :=
  let donorGrants := findMany (fun g => g.userId = donorUserId) t
  let survivorGrants := findMany (fun g => g.userId = survivorUserId) t
  let byClient := fun c => survivorGrants.find? fun g => g.clientId = c
  { moved := (findMany (fun dg => (byClient dg.clientId).isNone) donorGrants).map (·.clientId)
    merged := donorGrants.filterMap fun dg =>
      (byClient dg.clientId).map fun sg => ⟨dg.clientId, sg.fields, dg.id, dg.fields⟩ }

def mergeGrants (t : List OidcGrant) : Except DbError (List OidcGrant) :=
  (findMany (fun g => g.userId = donorUserId) t).foldlM
    (mergeGrant survivorUserId donorUserId (findMany (fun g => g.userId = survivorUserId) t)) t

end OidcGrant

/-! ### The subject seam -/

/-- The distinct clients a user holds access tokens for. -/
def tokenClients (userId : UserId) (t : List OidcAccessToken) : List ClientId :=
  ((findMany (fun k => k.userId = userId) t).map (·.clientId)).dedup

structure SeamPlan where
  overridesCreated : List SubAtClient
  strandedClients : List SubAtClient
  deriving DecidableEq, Repr

/-- A client the survivor already presents a subject to strands the donor's; any
other client of the donor gets an override carrying the donor's subject. -/
def seamInputs (survivorUsedClients : List ClientId) (donorSubByClient : List SubAtClient) :
    SeamPlan where
  overridesCreated := findMany (fun d => d.clientId ∉ survivorUsedClients) donorSubByClient
  strandedClients := findMany (fun d => d.clientId ∈ survivorUsedClients) donorSubByClient

/-! ### The transaction -/

/-- `MERGE_REVERSAL_DAYS`. -/
def mergeReversalDays : Int := 7

structure MergeSummary where
  mergeRecordId : String
  moved : List (String × Nat)
  overridesCreated : Nat
  strandedClients : List ClientId
  deriving DecidableEq, Repr

/-- The summary, and what the post-commit ledger step needs. -/
structure MergeTxResult where
  summary : MergeSummary
  entryRefs : List String
  donorHandle : Option String
  deriving DecidableEq, Repr

/-- The rows the donor loses, read before anything moves. -/
def movedRows (survivorUserId donorUserId : UserId) (db : Db) : MovedRows where
  badge := keysOf donorUserId db.badge
  shareLink := keysOf donorUserId db.shareLink
  oidcAccessToken := keysOf donorUserId db.oidcAccessToken
  wizardSession := keysOf donorUserId db.wizardSession
  recoveryCode := keysOf donorUserId db.recoveryCode
  recoveryAttempt := keysOf donorUserId db.recoveryAttempt
  userEmail := keysOf donorUserId db.userEmail
  auditLog := keysOf donorUserId db.auditLog
  account := keysOf donorUserId db.account
  session := keysOf donorUserId db.session
  authenticator := (keysOf donorUserId db.authenticator).map fun c => (donorUserId, c)
  subjectOverride := (overrideClients donorUserId db.subjectOverride).filter
    fun c => c ∉ overrideClients survivorUserId db.subjectOverride
  inviteRedemption := (redemptionPlan survivorUserId donorUserId db.inviteRedemption).toMove
  eligibility := (eligibilityPlan survivorUserId donorUserId db.eligibility).toMove
  oidcClientOwned := keysOf donorUserId db.oidcClient
  oidcGrant := some (grantPlan survivorUserId donorUserId db.oidcGrant).moved

def demotedPrimaryEmailIds (donorUserId : UserId) (t : List UserEmail) : List String :=
  (findMany (fun e => e.userId = donorUserId ∧ e.isPrimary) t).map (·.id)

/-- The ledger entries the donor's badges refer to. -/
def dedupReassigned (donorUserId : UserId) (t : List Badge) : List String :=
  (findMany (fun b => b.userId = donorUserId) t).filterMap (·.nullifierRef)

/-- The clients at which the survivor already presents a subject. -/
def survivorUsedClients (survivorUserId : UserId) (db : Db) : List ClientId :=
  tokenClients survivorUserId db.oidcAccessToken ++
    overrideClients survivorUserId db.subjectOverride

def mergeSnapshot (survivor donor : User) (now : Timestamp)
    (donorSubByClient : List SubAtClient) (db : Db) : MergeSnapshot :=
  let seam := seamInputs (survivorUsedClients survivor.id db) donorSubByClient
  { version := 1
    survivorUserId := survivor.id
    donorUserId := donor.id
    movedAt := some now
    moved := movedRows survivor.id donor.id db
    eligibilityDeleted := (eligibilityPlan survivor.id donor.id db.eligibility).deleted
    inviteRedemptionDeleted := (redemptionPlan survivor.id donor.id db.inviteRedemption).deleted
    overridesCreated := seam.overridesCreated
    oidcGrantMerged := some (grantPlan survivor.id donor.id db.oidcGrant).merged
    strandedClients := seam.strandedClients
    survivorPrev := ⟨survivor.isBanned, survivor.sessionGeneration, survivor.email⟩
    donorPrevSessionGeneration := donor.sessionGeneration
    demotedPrimaryEmailIds := demotedPrimaryEmailIds donor.id db.userEmail
    dedupReassigned := some (dedupReassigned donor.id db.badge) }

/-- `movedCounts`, as reported to the caller. -/
def movedCounts (snapshot : MergeSnapshot) (deletedAuthCodes : Nat) : List (String × Nat) :=
  let m := snapshot.moved
  [("account", m.account.length), ("session", m.session.length),
    ("authenticator", m.authenticator.length), ("badge", m.badge.length),
    ("shareLink", m.shareLink.length), ("oidcAccessToken", m.oidcAccessToken.length),
    ("wizardSession", m.wizardSession.length), ("auditLog", m.auditLog.length),
    ("userEmail", m.userEmail.length), ("recoveryCode", m.recoveryCode.length),
    ("recoveryAttempt", m.recoveryAttempt.length),
    ("subjectOverride", m.subjectOverride.length),
    ("inviteRedemption", m.inviteRedemption.length), ("eligibility", m.eligibility.length),
    ("oidcClientOwned", m.oidcClientOwned.length),
    ("oidcGrant", (m.oidcGrant.getD []).length),
    ("oidcGrantMerged", (snapshot.oidcGrantMerged.getD []).length),
    ("oidcAuthorizationCodeDeleted", deletedAuthCodes),
    ("eligibilityDeleted", snapshot.eligibilityDeleted.length),
    ("inviteRedemptionDeleted", snapshot.inviteRedemptionDeleted.length)]

/-- The survivor's row with its ban flag set and its sessions invalidated. -/
def withBan (isBanned : Bool) (u : User) : User :=
  { u with isBanned, sessionGeneration := u.sessionGeneration + 1 }

/-- The donor's row after the merge. -/
def tombstoned (survivorUserId : UserId) (now : Timestamp) (u : User) : User :=
  { u with
    mergedIntoUserId := some survivorUserId
    mergedAt := some now
    sessionGeneration := u.sessionGeneration + 1 }

@[simp] theorem withBan_id (b : Bool) (u : User) : (withBan b u).id = u.id := rfl

@[simp] theorem tombstoned_id (s : UserId) (now : Timestamp) (u : User) :
    (tombstoned s now u).id = u.id := rfl

/-- The merge record, with the end of its reversal window. -/
def newMergeRecord (recordId : String) (now : Timestamp) (snapshot : MergeSnapshot) :
    MergeRecord where
  id := recordId
  survivorUserId := snapshot.survivorUserId
  donorUserId := snapshot.donorUserId
  snapshot := snapshot
  reversibleUntil := now + mergeReversalDays * 24 * 60 * 60 * 1000
  reversedAt := none

def mergeTxResult (recordId : String) (snapshot : MergeSnapshot) (deletedAuthCodes : Nat)
    (donorHandle : Option String) : MergeTxResult where
  summary :=
    { mergeRecordId := recordId
      moved := movedCounts snapshot deletedAuthCodes
      overridesCreated := snapshot.overridesCreated.length
      strandedClients := snapshot.strandedClients.map (·.clientId) }
  entryRefs := snapshot.dedupReassigned.getD []
  donorHandle := donorHandle

/-- A donor token client set that changed since the subjects were computed. -/
def tokenClientsDrifted (currentClientIds precomputedClientIds : List ClientId) : Prop :=
  currentClientIds.length ≠ precomputedClientIds.length ∨
    ∃ c ∈ currentClientIds, c ∉ precomputedClientIds

instance (a b : List ClientId) : Decidable (tokenClientsDrifted a b) :=
  inferInstanceAs (Decidable (_ ∨ _))

/-- The reads and checks at the head of the transaction. -/
def mergeChecks (survivorUserId donorUserId : UserId) (donorSubByClient : List SubAtClient)
    (db : Db) : Except ServerError (User × User) := do
  let some survivor := findUser survivorUserId db.user
    | throw (.thrown s!"Survivor account {survivorUserId} not found")
  let some donor := findUser donorUserId db.user
    | throw (.thrown s!"Donor account {donorUserId} not found")
  if donor.mergedIntoUserId ≠ none then
    throw (.thrown s!"Donor account {donorUserId} is already merged (tombstoned)")
  -- A token for a new client that appeared after the subjects were computed
  -- would move without an override: refuse any drift.
  if tokenClientsDrifted (tokenClients donorUserId db.oidcAccessToken)
      (donorSubByClient.map (·.clientId)) then
    throw (.thrown ("merge: donor OIDC token clients changed between sub precompute and " ++
      "transaction — aborting (safe to retry)"))
  return (survivor, donor)

/-- The transaction. `donorSubByClient` was computed before it opened, and
`recordId` is the id the database assigns to the merge record. -/
def runMergeTx (survivorUserId donorUserId : UserId) (now : Timestamp) (recordId : String)
    (donorSubByClient : List SubAtClient) (db : Db) : Except ServerError (Db × MergeTxResult) := do
  let (survivor, donor) ← mergeChecks survivorUserId donorUserId donorSubByClient db
  let snapshot := mergeSnapshot survivor donor now donorSubByClient db
  let eligibility ← stmt (mergeEligibilities survivorUserId donorUserId db.eligibility)
  let inviteRedemption ← stmt (mergeRedemptions survivorUserId donorUserId db.inviteRedemption)
  let account ← stmt (store (repoint donorUserId survivorUserId db.account))
  let session ← stmt (store (repoint donorUserId survivorUserId db.session))
  let authenticator ← stmt (store (repoint donorUserId survivorUserId db.authenticator))
  let badge ← stmt (store (repoint donorUserId survivorUserId db.badge))
  let shareLink ← stmt (store (repoint donorUserId survivorUserId db.shareLink))
  let oidcAccessToken ← stmt (store (repoint donorUserId survivorUserId db.oidcAccessToken))
  let wizardSession ← stmt (store (repoint donorUserId survivorUserId db.wizardSession))
  let auditLog ← stmt (store (repoint donorUserId survivorUserId db.auditLog))
  let userEmail ← stmt (store (repoint donorUserId survivorUserId db.userEmail))
  let recoveryCode ← stmt (store (repoint donorUserId survivorUserId db.recoveryCode))
  let recoveryAttempt ← stmt (store (repoint donorUserId survivorUserId db.recoveryAttempt))
  let subjectOverride ← stmt (moveOverrides survivorUserId donorUserId
    (overrideClients survivorUserId db.subjectOverride)
    (overrideClients donorUserId db.subjectOverride) db.subjectOverride)
  let oidcClient ← stmt (store (repoint donorUserId survivorUserId db.oidcClient))
  let oidcGrant ← stmt (mergeGrants survivorUserId donorUserId db.oidcGrant)
  let isDonorCode := fun c : OidcAuthorizationCode => decide (c.userId = donorUserId)
  let oidcAuthorizationCode := deleteMany isDonorCode db.oidcAuthorizationCode
  let subjectOverride ← stmt (createOverrides survivorUserId snapshot.overridesCreated
    subjectOverride)
  let userEmail ← stmt (updateMany (fun e => e.id ∈ snapshot.demotedPrimaryEmailIds)
    (fun e => { e with isPrimary := false }) userEmail)
  let user ← stmt (update (fun u => u.id = survivorUserId)
    (withBan (survivor.isBanned || donor.isBanned)) db.user)
  let user ← stmt (update (fun u => u.id = donorUserId) (tombstoned survivorUserId now) user)
  let mergeRecord ← stmt (create (newMergeRecord recordId now snapshot) db.mergeRecord)
  return ({ db with
      user, account, session, authenticator, badge, eligibility, shareLink, oidcAccessToken,
      wizardSession, auditLog, userEmail, recoveryCode, recoveryAttempt, subjectOverride,
      inviteRedemption, oidcClient, oidcGrant, oidcAuthorizationCode, mergeRecord },
    mergeTxResult recordId snapshot
      (findMany isDonorCode db.oidcAuthorizationCode).length donor.dedupHandle)

/-! ### `mergeAccounts` -/

/-- What a merge takes from outside the database. -/
structure MergeInputs where
  now : Timestamp
  /-- The id of the merge record. -/
  recordId : String
  /-- The handle minted for a survivor that has none. -/
  handleCandidate : String
  deriving DecidableEq, Repr

/-- The donor's subject at each of its token clients, derived before the
transaction opens. -/
def precomputeSubs (pairwise : UserId → ClientId → String) (donorUserId : UserId) (db : Db) :
    List SubAtClient :=
  (tokenClients donorUserId db.oidcAccessToken).map fun c => ⟨c, pairwise donorUserId c⟩

/-- The post-commit step: mint the survivor's handle if need be and re-tag the
donor's ledger entries. -/
def reassignOnMerge (survivorUserId : UserId) (handleCandidate : String)
    (result : MergeTxResult) (db : Db) : Except ServerError Db := do
  match result.donorHandle with
  | none => return db
  | some donorHandle =>
    if result.entryRefs.length = 0 then return db
    let (user, survivorHandle) ← ensureDedupHandle survivorUserId handleCandidate db.user
    return { db with
      user
      nullifierEntry :=
        (reassignOwner result.entryRefs donorHandle survivorHandle db.nullifierEntry).1 }

/-- `runPostCommit` swallows a failure: the transaction has already committed. -/
def runPostCommit (op : Db → Except ServerError Db) (db : Db) : Db :=
  match op db with
  | .ok db' => db'
  | .error _ => db

/-- Reconcile the donor into the survivor and tombstone the donor. -/
def mergeAccounts (pairwise : UserId → ClientId → String) (inputs : MergeInputs)
    (survivorUserId donorUserId : UserId) (db : Db) : Except ServerError (Db × MergeSummary) := do
  if survivorUserId = donorUserId then
    throw (.thrown "Cannot merge an account into itself")
  let (db', result) ← runMergeTx survivorUserId donorUserId inputs.now inputs.recordId
    (precomputeSubs pairwise donorUserId db) db
  return (runPostCommit (reassignOnMerge survivorUserId inputs.handleCandidate result) db',
    result.summary)

end Minister
