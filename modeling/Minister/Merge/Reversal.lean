import Minister.Merge.Transaction

/-!
# Reversing a merge

The second half of `lib/merge.ts`: `runReverseTx` replays the snapshot of one
merge record backwards, and `reverseMerge` guards it and re-tags the ledger
afterwards. A reversal that does not apply is refused without a write; one that
meets a unique constraint throws and is rolled back.
-/

namespace Minister

open Relational

/-! ### Loops of the reversal -/

section Loops

variable (survivorUserId donorUserId : UserId)

/-- Authenticators, overrides and grants move back one at a time, each selected by
its own key on the survivor. -/
def moveAuthenticatorsBack (moved : List (UserId × String)) (t : List Authenticator) :
    Except DbError (List Authenticator) :=
  moveSlots survivorUserId donorUserId (moved.map (·.2)) t

def moveOverridesBack (moved : List ClientId) (t : List SubjectOverride) :
    Except DbError (List SubjectOverride) :=
  moveSlots survivorUserId donorUserId moved t

def moveGrantsBack (moved : List ClientId) (t : List OidcGrant) :
    Except DbError (List OidcGrant) :=
  moveSlots survivorUserId donorUserId moved t

/-- Remove the overrides the merge created, if they still carry its subject. -/
def deleteCreatedOverrides (overridesCreated : List SubAtClient) (t : List SubjectOverride) :
    List SubjectOverride :=
  overridesCreated.foldl (fun t ov =>
    deleteMany (fun o => inSlot survivorUserId ov.clientId o ∧ o.sub = ov.sub) t) t

/-- Recreate the deleted eligibilities; `new Date("")` is not a date. -/
def recreateEligibilities (deleted : List EligibilityDeleted) (t : List Eligibility) :
    Except ServerError (List Eligibility) :=
  deleted.foldlM (fun t e =>
    match e.eligibleAt with
    | none => .error .invalidDate
    | some eligibleAt =>
      stmt (create ⟨e.id, e.userId, e.badgeType, eligibleAt, e.fuzzDays, e.source⟩ t)) t

def recreateRedemptions (deleted : List InviteRedemptionDeleted) (t : List InviteRedemption) :
    Except ServerError (List InviteRedemption) :=
  deleted.foldlM (fun t r =>
    match r.redeemedAt with
    | none => .error .invalidDate
    | some redeemedAt => stmt (create ⟨r.id, r.inviteCodeId, r.userId, redeemedAt⟩ t)) t

/-- Split one unioned grant: restore the survivor's fields, recreate the donor's row. -/
def splitGrant (t : List OidcGrant) (mg : OidcGrantMerged) : Except DbError (List OidcGrant) := do
  let t ← updateMany (inSlot survivorUserId mg.clientId)
    (fun g => { g with fields := mg.survivorPrev }) t
  create ⟨mg.donorDeletedId, donorUserId, mg.clientId, mg.donorDeleted⟩ t

def splitGrants (merged : List OidcGrantMerged) (t : List OidcGrant) :
    Except DbError (List OidcGrant) :=
  merged.foldlM (splitGrant survivorUserId donorUserId) t

end Loops

/-! ### What the caller is told -/

inductive ReverseResult
  | ok (restoredRows recreatedDeleted : Nat)
  | refused (error : String)
  deriving DecidableEq, Repr

/-- The rows a loop of updates touches, each round counted on the table the
rounds before it left. -/
def countRounds {R X : Type} (p : X → R → Bool) (f : R → R) (xs : List X) (t : List R) : Nat :=
  (xs.foldl (fun (acc : List R × Nat) x =>
    (mapWhere (p x) f acc.1, acc.2 + (findMany (p x) acc.1).length)) (t, 0)).2

/-- The number of rows with one of the listed keys. -/
def countKeys {R A K : Type} [Owned R A K] [DecidableEq K] (ks : List K) (t : List R) : Nat :=
  (findMany (fun r => key r ∈ ks) t).length

def restoredRows (snap : MergeSnapshot) (db : Db) : Nat :=
  let m := snap.moved
  countKeys m.badge db.badge + countKeys m.shareLink db.shareLink +
    countKeys m.oidcAccessToken db.oidcAccessToken + countKeys m.wizardSession db.wizardSession +
    countKeys m.recoveryCode db.recoveryCode + countKeys m.recoveryAttempt db.recoveryAttempt +
    countKeys m.userEmail db.userEmail + countKeys m.auditLog db.auditLog +
    countKeys m.account db.account + countKeys m.session db.session +
    countRounds (inSlot snap.survivorUserId) (setHolder snap.donorUserId)
      (m.authenticator.map (·.2)) db.authenticator +
    countKeys m.inviteRedemption db.inviteRedemption +
    countKeys m.eligibility db.eligibility +
    countRounds (inSlot snap.survivorUserId) (setHolder snap.donorUserId) m.subjectOverride
      db.subjectOverride +
    countKeys m.oidcClientOwned db.oidcClient +
    countRounds (inSlot snap.survivorUserId) (setHolder snap.donorUserId)
      (m.oidcGrant.getD []) db.oidcGrant

/-- What the post-commit ledger step of a reversal needs. -/
structure ReverseReassign where
  entryRefs : List String
  fromHandle : Option String
  toHandle : Option String
  deriving DecidableEq, Repr

/-! ### The transaction -/

/-- The donor's row with its tombstone cleared. -/
def revived (u : User) : User :=
  { u with
    mergedIntoUserId := none
    mergedAt := none
    sessionGeneration := u.sessionGeneration + 1 }

/-- The writes of a reversal, once the donor is known to be tombstoned into the
survivor. -/
def reverseRows (mergeRecordId : String) (snap : MergeSnapshot) (now : Timestamp) (donor : User)
    (db : Db) : Except ServerError (Db × ReverseResult × Option ReverseReassign) := do
  let survivorUserId := snap.survivorUserId
  let donorUserId := snap.donorUserId
  let survivor := findUser survivorUserId db.user
  let m := snap.moved
  let badge ← stmt (store (moveBack m.badge donorUserId db.badge))
  let shareLink ← stmt (store (moveBack m.shareLink donorUserId db.shareLink))
  let oidcAccessToken ← stmt (store (moveBack m.oidcAccessToken donorUserId db.oidcAccessToken))
  let wizardSession ← stmt (store (moveBack m.wizardSession donorUserId db.wizardSession))
  let recoveryCode ← stmt (store (moveBack m.recoveryCode donorUserId db.recoveryCode))
  let recoveryAttempt ← stmt (store (moveBack m.recoveryAttempt donorUserId db.recoveryAttempt))
  let userEmail ← stmt (store (moveBack m.userEmail donorUserId db.userEmail))
  let auditLog ← stmt (store (moveBack m.auditLog donorUserId db.auditLog))
  let account ← stmt (store (moveBack m.account donorUserId db.account))
  let session ← stmt (store (moveBack m.session donorUserId db.session))
  let authenticator ← stmt
    (moveAuthenticatorsBack survivorUserId donorUserId m.authenticator db.authenticator)
  let inviteRedemption ← stmt
    (store (moveBack m.inviteRedemption donorUserId db.inviteRedemption))
  let eligibility ← stmt (store (moveBack m.eligibility donorUserId db.eligibility))
  let subjectOverride ← stmt
    (moveOverridesBack survivorUserId donorUserId m.subjectOverride db.subjectOverride)
  let oidcClient ← stmt (store (moveBack m.oidcClientOwned donorUserId db.oidcClient))
  let oidcGrant ← stmt
    (moveGrantsBack survivorUserId donorUserId (m.oidcGrant.getD []) db.oidcGrant)
  let subjectOverride := deleteCreatedOverrides survivorUserId snap.overridesCreated subjectOverride
  let eligibility ← recreateEligibilities snap.eligibilityDeleted eligibility
  let inviteRedemption ← recreateRedemptions snap.inviteRedemptionDeleted inviteRedemption
  let oidcGrant ← stmt
    (splitGrants survivorUserId donorUserId (snap.oidcGrantMerged.getD []) oidcGrant)
  let userEmail ← stmt (updateMany (fun e => e.id ∈ snap.demotedPrimaryEmailIds)
    (fun e => { e with isPrimary := true }) userEmail)
  let user ← stmt (update (fun u => u.id = survivorUserId)
    (withBan snap.survivorPrev.isBanned) db.user)
  let user ← stmt (update (fun u => u.id = donorUserId) revived user)
  let mergeRecord ← stmt (update (fun r => r.id = mergeRecordId)
    (fun r => { r with reversedAt := some now }) db.mergeRecord)
  let recreatedDeleted := snap.eligibilityDeleted.length + snap.inviteRedemptionDeleted.length +
    (snap.oidcGrantMerged.getD []).length
  return ({ db with
      user, account, session, authenticator, badge, eligibility, shareLink, oidcAccessToken,
      wizardSession, auditLog, userEmail, recoveryCode, recoveryAttempt, subjectOverride,
      inviteRedemption, oidcClient, oidcGrant, mergeRecord },
    .ok (restoredRows snap db) recreatedDeleted,
    some
      { entryRefs := snap.dedupReassigned.getD []
        fromHandle := survivor.bind (·.dedupHandle)
        toHandle := donor.dedupHandle })

/-- The transaction: refuse unless the donor is still tombstoned into this survivor. -/
def runReverseTx (mergeRecordId : String) (snap : MergeSnapshot) (now : Timestamp) (db : Db) :
    Except ServerError (Db × ReverseResult × Option ReverseReassign) :=
  let refusal := ReverseResult.refused
    "Donor account is no longer in the merged state this record describes"
  match findUser snap.donorUserId db.user with
  | none => .ok (db, refusal, none)
  | some donor =>
    if donor.mergedIntoUserId ≠ some snap.survivorUserId then .ok (db, refusal, none)
    else reverseRows mergeRecordId snap now donor db

/-! ### `reverseMerge` -/

/-- The post-commit step: re-tag the merge's entries back to the donor. -/
def reassignOnReverse (reassign : Option ReverseReassign) (db : Db) : Db :=
  match reassign with
  | some ⟨entryRefs, some fromHandle, some toHandle⟩ =>
    { db with
      nullifierEntry := (reassignOwner entryRefs fromHandle toHandle db.nullifierEntry).1 }
  | _ => db

def findMergeRecord (mergeRecordId : String) (t : List MergeRecord) : Option MergeRecord :=
  t.find? fun r => r.id = mergeRecordId

def reverseMerge (mergeRecordId : String) (now : Timestamp) (db : Db) :
    Except ServerError (Db × ReverseResult) := do
  let some record := findMergeRecord mergeRecordId db.mergeRecord
    | return (db, .refused "Merge record not found")
  if record.reversedAt ≠ none then
    return (db, .refused "This merge was already reversed")
  if record.reversibleUntil ≤ now then
    return (db, .refused "The reversal window for this merge has passed")
  if record.snapshot.version ≠ 1 then
    return (db, .refused "Merge snapshot is missing or unsupported")
  let (db', result, reassign) ← runReverseTx mergeRecordId record.snapshot now db
  return (reassignOnReverse reassign db', result)

end Minister
