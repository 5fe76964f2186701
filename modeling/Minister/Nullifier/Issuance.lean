import Minister.Nullifier.Encoding
import Minister.Nullifier.Ledger

/-!
# Issuing and deleting badges

`issueBadgesAndComplete` of the wizard and `deleteBadge`, run side by side on one
database. Each database statement and each call of the dedup ledger is one step.
A batch registers the anchor of a badge, inserts the badge, and then asks the ledger
whether the entry is still there; if a release has taken it away in between, the
batch registers the anchor again, up to three times. A batch that fails deletes what
it has inserted and releases what it has registered.

The ledger is the interim backend, for which `serializeMintWindow` is a passthrough.
Its release deletes an entry only if no badge refers to it. The insert, the signature
and the write-back of `issueBadge` are one transaction. Statements that fail for a
reason the code does not handle are left out, except the mint and the releases.

Ids come from `cuid()`: no badge and no entry gets an id used before.
-/

namespace Minister.Issuance

open Relational

/-! ### Batches -/

/-- What a plugin asks to be issued. -/
structure IssuedBadge where
  type : String
  sybilAnchor : Option String
  /-- `anchorAppearsAsValue` holds of the attributes or the claims. -/
  showsAnchor : Bool
  revealsAnchor : Bool
  /-- The `provider` claim. -/
  provider : Option String
  deriving DecidableEq, Repr

/-- `OAUTH_PROVIDER_NOUNS`. -/
def oauthProviderNoun : String → Option String
  | "github" => some "GitHub account"
  | "google" => some "Google account"
  | "discord" => some "Discord account"
  | "reddit" => some "Reddit account"
  | "steam" => some "Steam account"
  | "hackernews" => some "Hacker News account"
  | _ => none

def takenCredentialNoun (badgeType : String) (provider : Option String) : String :=
  if badgeType = "email-domain" ∨ badgeType = "email-exact" then "email address"
  else if badgeType = "oauth-account" ∨ badgeType = "account-age" ∨
      badgeType = "social-following" then
    (provider.bind oauthProviderNoun).getD "connected account"
  else "credential"

def takenError (badge : IssuedBadge) : String :=
  let noun := takenCredentialNoun badge.type badge.provider
  s!"This {noun} is already linked to another Minister account."

def leakError (pluginId : String) : String :=
  s!"Plugin {pluginId} leaked a Sybil anchor into badge attributes/claims — refusing to issue"

/-- What a running `issueBadgesAndComplete` keeps. -/
structure Batch where
  sessionId : String
  userId : UserId
  pluginId : String
  anchorSeen : Bool
  ownerHandle : Option String := none
  createdIds : List String := []
  /-- Entries this batch registered first, with the handle they were registered under. -/
  freshRegs : List (String × String) := []
  remaining : List IssuedBadge

/-- A registered anchor. -/
structure Anchored where
  anchor : String
  handle : String
  ref : String

/-- Where a call stands. -/
inductive Call
  /-- Before the next badge of the batch. -/
  | next (b : Batch)
  /-- The three statements of `ensureDedupHandle`. -/
  | readingHandle (b : Batch) (badge : IssuedBadge) (anchor : String)
  | claimingHandle (b : Batch) (badge : IssuedBadge) (anchor : String)
  | rereadingHandle (b : Batch) (badge : IssuedBadge) (anchor : String)
  | registering (b : Batch) (badge : IssuedBadge) (anchor handle : String)
  | minting (b : Batch) (badge : IssuedBadge) (target : Option Anchored)
  /-- The badge is inserted; the entry has not been probed yet. -/
  | probing (b : Batch) (badge : IssuedBadge) (createdId : String) (target : Anchored)
  /-- The entry was gone. -/
  | reregistering (b : Batch) (badge : IssuedBadge) (createdId anchor handle : String)
      (attempt : Nat)
  | repointing (b : Batch) (badge : IssuedBadge) (createdId : String) (target : Anchored)
      (attempt : Nat)
  | reprobing (b : Batch) (badge : IssuedBadge) (createdId : String) (target : Anchored)
      (attempt : Nat)
  /-- The three parts of `compensateBatch`. -/
  | compensating (b : Batch) (error : String)
  | releasing (b : Batch) (refs : List (String × String)) (error : String)
  | scrubbing (b : Batch) (error : String)
  | completing (b : Batch)
  /-- `deleteBadge`, having read a badge with a ledger entry. -/
  | readingOwner (userId : UserId) (badgeId ref : String)
  | deleting (userId : UserId) (badgeId : String) (entry : Option (String × String))
  | counting (ref handle : String)
  | releasingEntry (ref handle : String)
  | returned (error : Option String)

/-- The database and the calls made on it so far. `issued` records for every badge the
batches have inserted what anchor it was issued for, and `entryIds` every id the
ledger has used; the code keeps neither. -/
structure State where
  db : Db
  issued : List (String × Option String) := []
  entryIds : List String := []
  calls : List Call := []

/-- The steps of the server. A call is named by its place in the list. -/
inductive Action
  | issueBadgesAndComplete (sessionId : String) (userId : UserId) (pluginId : String)
      (issued : List IssuedBadge) (anonBackupPending : Bool)
  | nextBadge (call : Nat)
  | readHandle (call : Nat)
  | claimHandle (call : Nat) (candidate : String)
  | rereadHandle (call : Nat)
  | registerDedup (call : Nat) (freshId : String)
  | issueBadge (call : Nat) (badgeId : String)
  /-- The mint throws: an unknown type, claims that do not parse, a failed signature. -/
  | issueBadgeFails (call : Nat) (error : String)
  | probe (call : Nat)
  | reregister (call : Nat) (freshId : String)
  | repoint (call : Nat)
  | reprobe (call : Nat)
  | deleteCreated (call : Nat)
  | releaseNext (call : Nat)
  /-- A release that failed three times is given up. -/
  | releaseNextFails (call : Nat)
  | scrub (call : Nat)
  | complete (call : Nat)
  | deleteBadge (userId : UserId) (badgeId : String)
  | readOwner (call : Nat)
  | deleteRow (call : Nat)
  | countSiblings (call : Nat)
  | releaseEntry (call : Nat)
  | releaseEntryFails (call : Nat)

/-- The account's dedup handle. -/
def handleOf (userId : UserId) (t : List User) : Option String :=
  (findUser userId t).bind (·.dedupHandle)

def errorText : ServerError → String
  | .thrown message => message
  | .db _ => "unique constraint failed"
  | .invalidDate => "invalid date"

/-! ### The steps of a batch -/

namespace State

variable (s : State)

def setCall (i : Nat) (c : Call) : State := { s with calls := s.calls.set i c }

def addCall (c : Call) : State := { s with calls := s.calls ++ [c] }

def setUsers (t : List User) : State := { s with db := { s.db with user := t } }

def setBadges (t : List Badge) : State := { s with db := { s.db with badge := t } }

def setEntries (t : List NullifierEntry) : State :=
  { s with db := { s.db with nullifierEntry := t } }

/-- The backup gate, and the start of the loop. -/
def startBatch (sessionId : String) (userId : UserId) (pluginId : String)
    (issued : List IssuedBadge) (anonBackupPending : Bool) : State :=
  s.addCall (if anonBackupPending then .returned
      (some "Finish backing up your Private Identity key before adding badges.")
    else .next {
      sessionId, userId, pluginId, remaining := issued
      anchorSeen := issued.any (·.sybilAnchor.isSome) })

/-- The head of the loop: the leak guard, and whether there is an anchor to register. -/
def nextCall (b : Batch) : Call :=
  match b.remaining with
  | [] => .completing b
  | badge :: rest =>
    match badge.sybilAnchor with
    | none => .minting { b with remaining := rest } badge none
    | some anchor =>
      if badge.revealsAnchor = false ∧ badge.showsAnchor = true then
        .compensating b (leakError b.pluginId)
      else
        match b.ownerHandle with
        | none => .readingHandle { b with remaining := rest } badge anchor
        | some handle => .registering { b with remaining := rest } badge anchor handle

def nextBadge (i : Nat) : Option State :=
  match s.calls[i]? with
  | some (.next b) => some (s.setCall i (nextCall b))
  | _ => none

def readHandle (i : Nat) : Option State :=
  match s.calls[i]? with
  | some (.readingHandle b badge anchor) =>
    match handleOf b.userId s.db.user with
    | some handle =>
      some (s.setCall i (.registering { b with ownerHandle := some handle } badge anchor handle))
    | none => some (s.setCall i (.claimingHandle b badge anchor))
  | _ => none

/-- Claim the empty slot. -/
def claimHandle (i : Nat) (candidate : String) : Option State :=
  match s.calls[i]? with
  | some (.claimingHandle b badge anchor) =>
    match updateMany (isUnclaimed b.userId) (fun u => { u with dedupHandle := some candidate })
      s.db.user with
    | .ok after =>
      if (findMany (isUnclaimed b.userId) s.db.user).length = 1 then
        some ((s.setUsers after).setCall i
          (.registering { b with ownerHandle := some candidate } badge anchor candidate))
      else some ((s.setUsers after).setCall i (.rereadingHandle b badge anchor))
    | .error e => some (s.setCall i (.returned (some (errorText (.db e)))))
  | _ => none

def rereadHandle (i : Nat) : Option State :=
  match s.calls[i]? with
  | some (.rereadingHandle b badge anchor) =>
    match handleOf b.userId s.db.user with
    | some handle =>
      some (s.setCall i (.registering { b with ownerHandle := some handle } badge anchor handle))
    | none =>
      let userId := b.userId
      some (s.setCall i (.returned (some s!"Failed to mint dedupHandle for user {userId}")))
  | _ => none

end State

/-- One call of the ledger's `registerDedup`, under an id not used before. -/
def register (env : MacEnv) (anchor badgeType handle freshId : String)
    (t : List NullifierEntry) :
    Except ServerError (List NullifierEntry × RegisterDedupResult) := do
  let value ← deriveDedupValue env anchor badgeType
  registerDedup value badgeType handle freshId t

/-- What the ledger may answer: a new entry, an entry of the same owner, or a refusal. -/
theorem register_cases {env : MacEnv} {anchor badgeType handle freshId : String}
    {t t' : List NullifierEntry} {r : RegisterDedupResult}
    (h : register env anchor badgeType handle freshId t = .ok (t', r)) :
    ∃ value, deriveDedupValue env anchor badgeType = .ok value ∧
      ((r = .registered freshId ∧ t' = t ++ [⟨freshId, value, handle, badgeType⟩] ∧
          Consistent t') ∨
        t' = t ∧ ((∃ e ∈ t, r = .alreadyYours e.id ∧ e.value = value ∧ e.ownerHandle = handle) ∨
          r = .taken)) := by
  obtain ⟨value, hvalue, hreg⟩ := bind_eq_ok_iff.mp h
  refine ⟨value, hvalue, ?_⟩
  unfold registerDedup at hreg
  split at hreg
  · rename_i t₁ hcreate
    obtain ⟨hcons, rfl⟩ := create_eq_ok_iff.mp hcreate
    cases hreg
    exact .inl ⟨rfl, rfl, hcons⟩
  · split at hreg
    · cases hreg
    · rename_i existing hfind
      have hmem := List.mem_of_find?_eq_some hfind
      have hval : existing.value = value := by simpa using List.find?_some hfind
      split_ifs at hreg with howner
      · cases hreg
        exact .inr ⟨rfl, .inl ⟨existing, hmem, rfl, hval, howner⟩⟩
      · cases hreg
        exact .inr ⟨rfl, .inr rfl⟩

section Answers

variable {env : MacEnv} {anchor badgeType handle freshId ref : String}
  {t t' : List NullifierEntry}

theorem register_registered
    (h : register env anchor badgeType handle freshId t = .ok (t', .registered ref)) :
    ∃ value, deriveDedupValue env anchor badgeType = .ok value ∧ freshId = ref ∧
      t' = t ++ [⟨ref, value, handle, badgeType⟩] ∧ Consistent t' := by
  obtain ⟨value, hvalue, ⟨hr, ht, hcons⟩ | ⟨-, ⟨e, -, hr, -⟩ | hr⟩⟩ := register_cases h
  · obtain rfl := RegisterDedupResult.registered.inj hr
    exact ⟨value, hvalue, rfl, ht, hcons⟩
  · cases hr
  · cases hr

/-- The entry that the ledger answers with is the caller's. -/
theorem register_alreadyYours
    (h : register env anchor badgeType handle freshId t = .ok (t', .alreadyYours ref)) :
    ∃ e ∈ t, e.id = ref ∧ e.ownerHandle = handle ∧
      deriveDedupValue env anchor badgeType = .ok e.value := by
  obtain ⟨value, hvalue, ⟨hr, -, -⟩ | ⟨-, ⟨e, he, hr, heval, howner⟩ | hr⟩⟩ := register_cases h
  · cases hr
  · exact ⟨e, he, (RegisterDedupResult.alreadyYours.inj hr).symm, howner, heval ▸ hvalue⟩
  · cases hr

end Answers

namespace State

variable (s : State)

/-- A first registration that throws is not compensated. -/
def registerDedup (env : MacEnv) (i : Nat) (freshId : String) : Option State :=
  match s.calls[i]? with
  | some (.registering b badge anchor handle) =>
    if freshId ∈ s.entryIds then none
    else
      match register env anchor badge.type handle freshId s.db.nullifierEntry with
      | .ok (t, .registered ref) =>
        some { (s.setEntries t).setCall i
            (.minting { b with freshRegs := b.freshRegs ++ [(ref, handle)] } badge
              (some ⟨anchor, handle, ref⟩)) with
          entryIds := freshId :: s.entryIds }
      | .ok (_, .alreadyYours ref) =>
        some (s.setCall i (.minting b badge (some ⟨anchor, handle, ref⟩)))
      | .ok (_, .taken) => some (s.setCall i (.compensating b (takenError badge)))
      | .error e => some (s.setCall i (.returned (some (errorText e))))
  | _ => none

/-- The mint's transaction commits. -/
def issueBadge (i : Nat) (badgeId : String) : Option State :=
  match s.calls[i]? with
  | some (.minting b badge target) =>
    if badgeId ∈ s.issued.map Prod.fst then none
    else
      match create ⟨badgeId, b.userId, badge.type, none, target.map (·.ref)⟩ s.db.badge with
      | .ok t =>
        let b' := { b with createdIds := b.createdIds ++ [badgeId] }
        some { (s.setBadges t).setCall i
            (match target with
              | none => .next b'
              | some target => .probing b' badge badgeId target) with
          issued := (badgeId, target.map (·.anchor)) :: s.issued }
      | .error e => some (s.setCall i (.compensating b (errorText (.db e))))
  | _ => none

def issueBadgeFails (i : Nat) (error : String) : Option State :=
  match s.calls[i]? with
  | some (.minting b _ _) => some (s.setCall i (.compensating b error))
  | _ => none

def probe (i : Nat) : Option State :=
  match s.calls[i]? with
  | some (.probing b badge createdId target) =>
    some (s.setCall i
      (if entryExistsForOwner target.ref target.handle s.db.nullifierEntry then .next b
        else .reregistering b badge createdId target.anchor target.handle 0))
  | _ => none

/-- A registration of the self-heal loop; whatever fails here compensates the batch. -/
def reregister (env : MacEnv) (i : Nat) (freshId : String) : Option State :=
  match s.calls[i]? with
  | some (.reregistering b badge createdId anchor handle attempt) =>
    if freshId ∈ s.entryIds then none
    else
      match register env anchor badge.type handle freshId s.db.nullifierEntry with
      | .ok (t, .registered ref) =>
        some { (s.setEntries t).setCall i
            (.repointing { b with freshRegs := b.freshRegs ++ [(ref, handle)] } badge createdId
              ⟨anchor, handle, ref⟩ attempt) with
          entryIds := freshId :: s.entryIds }
      | .ok (_, .alreadyYours ref) =>
        some (s.setCall i (.repointing b badge createdId ⟨anchor, handle, ref⟩ attempt))
      | .ok (_, .taken) => some (s.setCall i (.compensating b (takenError badge)))
      | .error e => some (s.setCall i (.compensating b (errorText e)))
  | _ => none

def repoint (i : Nat) : Option State :=
  match s.calls[i]? with
  | some (.repointing b badge createdId target attempt) =>
    match update (fun x => x.id = createdId) (fun x => { x with nullifierRef := some target.ref })
      s.db.badge with
    | .ok t => some ((s.setBadges t).setCall i (.reprobing b badge createdId target attempt))
    | .error e => some (s.setCall i (.compensating b (errorText (.db e))))
  | _ => none

/-- The probe of the self-heal loop, which makes three attempts. -/
def reprobe (i : Nat) : Option State :=
  match s.calls[i]? with
  | some (.reprobing b badge createdId target attempt) =>
    some (s.setCall i
      (if entryExistsForOwner target.ref target.handle s.db.nullifierEntry then .next b
        else if attempt + 1 < 3 then
          .reregistering b badge createdId target.anchor target.handle (attempt + 1)
        else .compensating b "nullifier: mint self-heal could not re-anchor the credential"))
  | _ => none

def deleteCreated (i : Nat) : Option State :=
  match s.calls[i]? with
  | some (.compensating b error) =>
    some ((s.setBadges (deleteMany (fun x => x.id ∈ b.createdIds ∧ x.userId = b.userId)
      s.db.badge)).setCall i (.releasing b b.freshRegs error))
  | _ => none

/-- What follows the last release. -/
def afterReleases (b : Batch) (error : String) : Call :=
  if b.anchorSeen then .scrubbing b error else .returned (some error)

def releaseNext (i : Nat) : Option State :=
  match s.calls[i]? with
  | some (.releasing b [] error) => some (s.setCall i (afterReleases b error))
  | some (.releasing b ((ref, handle) :: rest) error) =>
    some ((s.setEntries (release ref handle s.db.badge s.db.nullifierEntry)).setCall i
      (.releasing b rest error))
  | _ => none

def releaseNextFails (i : Nat) : Option State :=
  match s.calls[i]? with
  | some (.releasing b (_ :: rest) error) => some (s.setCall i (.releasing b rest error))
  | _ => none

/-- Mark the wizard session completed; its state is scrubbed as well. -/
def endSession (i : Nat) (sessionId : String) (error : Option String) : State :=
  match update (fun w => w.id = sessionId) (fun w => { w with pendingToken := none })
    s.db.wizardSession with
  | .ok t => { s with db := { s.db with wizardSession := t } }.setCall i (.returned error)
  | .error e => s.setCall i (.returned (some (errorText (.db e))))

def scrub (i : Nat) : Option State :=
  match s.calls[i]? with
  | some (.scrubbing b error) => some (s.endSession i b.sessionId (some error))
  | _ => none

def complete (i : Nat) : Option State :=
  match s.calls[i]? with
  | some (.completing b) => some (s.endSession i b.sessionId none)
  | _ => none

/-! ### The steps of a deletion -/

def deleteBadge (userId : UserId) (badgeId : String) : State :=
  match s.db.badge.find? fun x => x.id = badgeId ∧ x.userId = userId with
  | none => s.addCall (.returned (some "Badge not found"))
  | some badge =>
    match badge.nullifierRef with
    | none => s.addCall (.deleting userId badgeId none)
    | some ref => s.addCall (.readingOwner userId badgeId ref)

def readOwner (i : Nat) : Option State :=
  match s.calls[i]? with
  | some (.readingOwner userId badgeId ref) =>
    some (s.setCall i (.deleting userId badgeId
      ((handleOf userId s.db.user).map fun handle => (ref, handle))))
  | _ => none

def deleteRow (i : Nat) : Option State :=
  match s.calls[i]? with
  | some (.deleting userId badgeId entry) =>
    some ((s.setBadges (deleteMany (fun x => x.id = badgeId ∧ x.userId = userId)
      s.db.badge)).setCall i
      (if (findMany (fun x => x.id = badgeId ∧ x.userId = userId) s.db.badge).length = 0 then
        .returned (some "Badge not found")
      else
        match entry with
        | none => .returned none
        | some (ref, handle) => .counting ref handle))
  | _ => none

/-- The fast path around a release that would do nothing. -/
def countSiblings (i : Nat) : Option State :=
  match s.calls[i]? with
  | some (.counting ref handle) =>
    some (s.setCall i
      (if (findMany (fun x => x.nullifierRef = some ref) s.db.badge).length = 0 then
        .releasingEntry ref handle
      else .returned none))
  | _ => none

def releaseEntry (i : Nat) : Option State :=
  match s.calls[i]? with
  | some (.releasingEntry ref handle) =>
    some ((s.setEntries (release ref handle s.db.badge s.db.nullifierEntry)).setCall i
      (.returned none))
  | _ => none

def releaseEntryFails (i : Nat) : Option State :=
  match s.calls[i]? with
  | some (.releasingEntry _ _) => some (s.setCall i (.returned none))
  | _ => none

end State

/-- One step of the server, unless the named call is not at that point. -/
def step (env : MacEnv) (s : State) : Action → Option State
  | .issueBadgesAndComplete sessionId userId pluginId issued anonBackupPending =>
    some (s.startBatch sessionId userId pluginId issued anonBackupPending)
  | .nextBadge i => s.nextBadge i
  | .readHandle i => s.readHandle i
  | .claimHandle i candidate => s.claimHandle i candidate
  | .rereadHandle i => s.rereadHandle i
  | .registerDedup i freshId => s.registerDedup env i freshId
  | .issueBadge i badgeId => s.issueBadge i badgeId
  | .issueBadgeFails i error => s.issueBadgeFails i error
  | .probe i => s.probe i
  | .reregister i freshId => s.reregister env i freshId
  | .repoint i => s.repoint i
  | .reprobe i => s.reprobe i
  | .deleteCreated i => s.deleteCreated i
  | .releaseNext i => s.releaseNext i
  | .releaseNextFails i => s.releaseNextFails i
  | .scrub i => s.scrub i
  | .complete i => s.complete i
  | .deleteBadge userId badgeId => some (s.deleteBadge userId badgeId)
  | .readOwner i => s.readOwner i
  | .deleteRow i => s.deleteRow i
  | .countSiblings i => s.countSiblings i
  | .releaseEntry i => s.releaseEntry i
  | .releaseEntryFails i => s.releaseEntryFails i

/-! ### What a step does -/

/-- A call moves on, and nothing else changes. -/
inductive Pass (env : MacEnv) (s : State) (i : Nat) : Action → Call → Call → Prop
  | finish : Pass env s i (.nextBadge i) (.next b) (.completing b)
  | unanchored : Pass env s i (.nextBadge i) (.next b)
      (.minting { b with remaining := rest } badge none)
  | leaks : Pass env s i (.nextBadge i) (.next b) (.compensating b error)
  | needsHandle : Pass env s i (.nextBadge i) (.next b)
      (.readingHandle { b with remaining := rest } badge anchor)
  | hasHandle (hhandle : b.ownerHandle = some handle) : Pass env s i (.nextBadge i) (.next b)
      (.registering { b with remaining := rest } badge anchor handle)
  | readsHandle (hhandle : handleOf b.userId s.db.user = some handle) :
    Pass env s i (.readHandle i) (.readingHandle b badge anchor)
      (.registering { b with ownerHandle := some handle } badge anchor handle)
  | readsNone :
    Pass env s i (.readHandle i) (.readingHandle b badge anchor) (.claimingHandle b badge anchor)
  | claimThrows (hupdate : updateMany (isUnclaimed b.userId)
        (fun u => { u with dedupHandle := some candidate }) s.db.user = .error e) :
    Pass env s i (.claimHandle i candidate) (.claimingHandle b badge anchor)
      (.returned (some error))
  | rereadsHandle (hhandle : handleOf b.userId s.db.user = some handle) :
    Pass env s i (.rereadHandle i) (.rereadingHandle b badge anchor)
      (.registering { b with ownerHandle := some handle } badge anchor handle)
  | rereadThrows (hnone : handleOf b.userId s.db.user = none) :
    Pass env s i (.rereadHandle i) (.rereadingHandle b badge anchor) (.returned (some error))
  | yours (he : e ∈ s.db.nullifierEntry)
      (hvalue : deriveDedupValue env anchor badge.type = .ok e.value) :
    Pass env s i (.registerDedup i freshId) (.registering b badge anchor e.ownerHandle)
      (.minting b badge (some ⟨anchor, e.ownerHandle, e.id⟩))
  | taken : Pass env s i (.registerDedup i freshId) (.registering b badge anchor handle)
      (.compensating b error)
  | registerThrows
      (hreg : register env anchor badge.type handle freshId s.db.nullifierEntry = .error e) :
    Pass env s i (.registerDedup i freshId) (.registering b badge anchor handle)
      (.returned (some error))
  | insertThrows (hcreate : create
        ⟨badgeId, b.userId, badge.type, none, target.map (·.ref)⟩ s.db.badge = .error e) :
    Pass env s i (.issueBadge i badgeId) (.minting b badge target) (.compensating b error)
  | mintThrows :
    Pass env s i (.issueBadgeFails i error) (.minting b badge target) (.compensating b error)
  | seen (hseen : entryExistsForOwner target.ref target.handle s.db.nullifierEntry = true) :
    Pass env s i (.probe i) (.probing b badge createdId target) (.next b)
  | gone (hgone : ¬entryExistsForOwner target.ref target.handle s.db.nullifierEntry = true) :
    Pass env s i (.probe i) (.probing b badge createdId target)
      (.reregistering b badge createdId target.anchor target.handle 0)
  | yoursAgain (he : e ∈ s.db.nullifierEntry)
      (hvalue : deriveDedupValue env anchor badge.type = .ok e.value) :
    Pass env s i (.reregister i freshId)
      (.reregistering b badge createdId anchor e.ownerHandle attempt)
      (.repointing b badge createdId ⟨anchor, e.ownerHandle, e.id⟩ attempt)
  | reregisterThrows : Pass env s i (.reregister i freshId)
      (.reregistering b badge createdId anchor handle attempt) (.compensating b error)
  | repointThrows : Pass env s i (.repoint i) (.repointing b badge createdId target attempt)
      (.compensating b error)
  | seenAgain (hseen : entryExistsForOwner target.ref target.handle s.db.nullifierEntry = true) :
    Pass env s i (.reprobe i) (.reprobing b badge createdId target attempt) (.next b)
  | goneAgain (hgone : ¬entryExistsForOwner target.ref target.handle s.db.nullifierEntry = true) :
    Pass env s i (.reprobe i) (.reprobing b badge createdId target attempt)
      (.reregistering b badge createdId target.anchor target.handle (attempt + 1))
  | givesUp : Pass env s i (.reprobe i) (.reprobing b badge createdId target attempt)
      (.compensating b error)
  | released : Pass env s i (.releaseNext i) (.releasing b [] error) (.scrubbing b error)
  | compensated : Pass env s i (.releaseNext i) (.releasing b [] error) (.returned (some error))
  | releaseThrows : Pass env s i (.releaseNextFails i) (.releasing b (r :: rest) error)
      (.releasing b rest error)
  | scrubThrows : Pass env s i (.scrub i) (.scrubbing b error) (.returned (some error'))
  | completeThrows (hupdate : update (fun w => w.id = b.sessionId)
        (fun w => { w with pendingToken := none }) s.db.wizardSession = .error e) :
    Pass env s i (.complete i) (.completing b) (.returned (some error))
  | readsOwner : Pass env s i (.readOwner i) (.readingOwner userId badgeId ref)
      (.deleting userId badgeId ((handleOf userId s.db.user).map fun handle => (ref, handle)))
  | noSibling : Pass env s i (.countSiblings i) (.counting ref handle) (.releasingEntry ref handle)
  | sibling (hx : x ∈ s.db.badge) (href : x.nullifierRef = some ref) :
    Pass env s i (.countSiblings i) (.counting ref handle) (.returned none)
  | releaseEntryThrows :
    Pass env s i (.releaseEntryFails i) (.releasingEntry ref handle) (.returned none)

/-- A step of one call: what becomes of the rest of the state, and where the call stands
next. -/
inductive Effect (env : MacEnv) (s : State) (i : Nat) : Action → Call → State → Call → Prop
  | pass (h : Pass env s i a c c') : Effect env s i a c s c'
  | claims (hcons : Consistent (claimed b.userId candidate s.db.user))
      (hone : (findMany (isUnclaimed b.userId) s.db.user).length = 1) :
    Effect env s i (.claimHandle i candidate) (.claimingHandle b badge anchor)
      (s.setUsers (claimed b.userId candidate s.db.user))
      (.registering { b with ownerHandle := some candidate } badge anchor candidate)
  | losesClaim (hcons : Consistent (claimed b.userId candidate s.db.user)) :
    Effect env s i (.claimHandle i candidate) (.claimingHandle b badge anchor)
      (s.setUsers (claimed b.userId candidate s.db.user))
      (.rereadingHandle b badge anchor)
  | registers (hfresh : freshId ∉ s.entryIds)
      (hvalue : deriveDedupValue env anchor badge.type = .ok value)
      (hcons : Consistent (s.db.nullifierEntry ++ [⟨freshId, value, handle, badge.type⟩])) :
    Effect env s i (.registerDedup i freshId) (.registering b badge anchor handle)
      { s.setEntries (s.db.nullifierEntry ++ [⟨freshId, value, handle, badge.type⟩]) with
        entryIds := freshId :: s.entryIds }
      (.minting { b with freshRegs := b.freshRegs ++ [(freshId, handle)] } badge
        (some ⟨anchor, handle, freshId⟩))
  | reregisters (hfresh : freshId ∉ s.entryIds)
      (hvalue : deriveDedupValue env anchor badge.type = .ok value)
      (hcons : Consistent (s.db.nullifierEntry ++ [⟨freshId, value, handle, badge.type⟩])) :
    Effect env s i (.reregister i freshId)
      (.reregistering b badge createdId anchor handle attempt)
      { s.setEntries (s.db.nullifierEntry ++ [⟨freshId, value, handle, badge.type⟩]) with
        entryIds := freshId :: s.entryIds }
      (.repointing { b with freshRegs := b.freshRegs ++ [(freshId, handle)] } badge createdId
        ⟨anchor, handle, freshId⟩ attempt)
  | inserts (hfresh : badgeId ∉ s.issued.map Prod.fst)
      (hcons : Consistent (s.db.badge ++ [⟨badgeId, b.userId, badge.type, none, none⟩])) :
    Effect env s i (.issueBadge i badgeId) (.minting b badge none)
      { s.setBadges (s.db.badge ++ [⟨badgeId, b.userId, badge.type, none, none⟩]) with
        issued := (badgeId, none) :: s.issued }
      (.next { b with createdIds := b.createdIds ++ [badgeId] })
  | insertsAnchored (hfresh : badgeId ∉ s.issued.map Prod.fst)
      (hcons : Consistent
        (s.db.badge ++ [⟨badgeId, b.userId, badge.type, none, some target.ref⟩])) :
    Effect env s i (.issueBadge i badgeId) (.minting b badge (some target))
      { s.setBadges (s.db.badge ++ [⟨badgeId, b.userId, badge.type, none, some target.ref⟩]) with
        issued := (badgeId, some target.anchor) :: s.issued }
      (.probing { b with createdIds := b.createdIds ++ [badgeId] } badge badgeId target)
  | repoints (hcons : Consistent (mapWhere (fun x => x.id = createdId)
        (fun x => { x with nullifierRef := some target.ref }) s.db.badge))
      (hx : x ∈ s.db.badge) (hid : x.id = createdId) :
    Effect env s i (.repoint i) (.repointing b badge createdId target attempt)
      (s.setBadges (mapWhere (fun x => x.id = createdId)
        (fun x => { x with nullifierRef := some target.ref }) s.db.badge))
      (.reprobing b badge createdId target attempt)
  | erases : Effect env s i (.deleteCreated i) (.compensating b error)
      (s.setBadges (deleteMany (fun x => x.id ∈ b.createdIds ∧ x.userId = b.userId) s.db.badge))
      (.releasing b b.freshRegs error)
  | releases : Effect env s i (.releaseNext i) (.releasing b ((ref, handle) :: rest) error)
      (s.setEntries (release ref handle s.db.badge s.db.nullifierEntry)) (.releasing b rest error)
  | scrubs (hupdate : update (fun w => w.id = b.sessionId)
        (fun w => { w with pendingToken := none }) s.db.wizardSession = .ok t) :
    Effect env s i (.scrub i) (.scrubbing b error)
      { s with db := { s.db with wizardSession := t } } (.returned (some error))
  | completes (hupdate : update (fun w => w.id = b.sessionId)
        (fun w => { w with pendingToken := none }) s.db.wizardSession = .ok t) :
    Effect env s i (.complete i) (.completing b)
      { s with db := { s.db with wizardSession := t } } (.returned none)
  | findsNone (hnone : ∀ x ∈ s.db.badge, ¬(x.id = badgeId ∧ x.userId = userId)) :
    Effect env s i (.deleteRow i) (.deleting userId badgeId entry)
      (s.setBadges (deleteMany (fun x => x.id = badgeId ∧ x.userId = userId) s.db.badge))
      (.returned (some error))
  | deletes : Effect env s i (.deleteRow i) (.deleting userId badgeId none)
      (s.setBadges (deleteMany (fun x => x.id = badgeId ∧ x.userId = userId) s.db.badge))
      (.returned none)
  | deletesAnchored :
    Effect env s i (.deleteRow i) (.deleting userId badgeId (some (ref, handle)))
      (s.setBadges (deleteMany (fun x => x.id = badgeId ∧ x.userId = userId) s.db.badge))
      (.counting ref handle)
  | releasesEntry : Effect env s i (.releaseEntry i) (.releasingEntry ref handle)
      (s.setEntries (release ref handle s.db.badge s.db.nullifierEntry)) (.returned none)

/-- A call begins. -/
inductive Opens (s : State) : Action → Call → Prop
  | gated : Opens s (.issueBadgesAndComplete sessionId userId pluginId issued anonBackupPending)
      (.returned (some error))
  | starts : Opens s (.issueBadgesAndComplete sessionId userId pluginId issued anonBackupPending)
      (.next { sessionId, userId, pluginId, anchorSeen, remaining := issued })
  | notFound : Opens s (.deleteBadge userId badgeId) (.returned (some error))
  | findsUnanchored : Opens s (.deleteBadge userId badgeId) (.deleting userId badgeId none)
  | findsAnchored (hx : x ∈ s.db.badge) (href : x.nullifierRef = some ref) :
    Opens s (.deleteBadge x.userId badgeId) (.readingOwner x.userId badgeId ref)

/-- A step opens a call, or takes one further. -/
inductive StepEffect (env : MacEnv) (s : State) (a : Action) : State → Prop
  | opens (h : Opens s a c) : StepEffect env s a (s.addCall c)
  | advances (hcall : s.calls[i]? = some c) (h : Effect env s i a c t c') :
    StepEffect env s a (t.setCall i c')

section Inversion

variable {env : MacEnv} {s s' : State} {i : Nat}

theorem pass_nextCall {b : Batch} : Pass env s i (.nextBadge i) (.next b) (State.nextCall b) := by
  unfold State.nextCall
  split
  · exact .finish
  · split
    · exact .unanchored
    · split_ifs
      · exact .leaks
      · split
        · exact .needsHandle
        · exact .hasHandle ‹_›

theorem effect_of_step {a : Action} (h : step env s a = some s') : StepEffect env s a s' := by
  cases a with
  | issueBadgesAndComplete sessionId userId pluginId issued anonBackupPending =>
    cases h
    cases anonBackupPending
    · exact .opens .starts
    · exact .opens .gated
  | deleteBadge userId badgeId =>
    cases h
    unfold State.deleteBadge
    split
    · exact .opens .notFound
    · rename_i x hfind
      split
      · exact .opens .findsUnanchored
      · rename_i ref href
        have hmatch := List.find?_some hfind
        obtain ⟨-, rfl⟩ := of_decide_eq_true hmatch
        exact .opens (.findsAnchored (List.mem_of_find?_eq_some hfind) href)
  | nextBadge i =>
    simp only [step, State.nextBadge] at h
    split at h <;> cases h
    exact .advances ‹_› (.pass pass_nextCall)
  | readHandle i =>
    simp only [step, State.readHandle] at h
    split at h
    · split at h <;> cases h
      · exact .advances ‹_› (.pass (.readsHandle ‹_›))
      · exact .advances ‹_› (.pass .readsNone)
    · cases h
  | claimHandle i candidate =>
    simp only [step, State.claimHandle] at h
    split at h
    · split at h
      · rename_i hupdate
        obtain ⟨hcons, rfl⟩ := updateMany_eq_ok_iff.mp hupdate
        split_ifs at h with hone <;> cases h
        · exact .advances ‹_› (.claims hcons hone)
        · exact .advances ‹_› (.losesClaim hcons)
      · cases h
        exact .advances ‹_› (.pass (.claimThrows ‹_›))
    · cases h
  | rereadHandle i =>
    simp only [step, State.rereadHandle] at h
    split at h
    · split at h <;> cases h
      · exact .advances ‹_› (.pass (.rereadsHandle ‹_›))
      · exact .advances ‹_› (.pass (.rereadThrows ‹_›))
    · cases h
  | registerDedup i freshId =>
    simp only [step, State.registerDedup] at h
    split at h
    · rename_i hcall
      split_ifs at h with hfresh
      split at h <;> cases h
      · rename_i hreg
        obtain ⟨value, hvalue, rfl, rfl, hcons⟩ := register_registered hreg
        exact .advances hcall (.registers hfresh hvalue hcons)
      · rename_i hreg
        obtain ⟨e, he, rfl, rfl, hvalue⟩ := register_alreadyYours hreg
        exact .advances hcall (.pass (.yours he hvalue))
      · exact .advances hcall (.pass .taken)
      · exact .advances hcall (.pass (.registerThrows ‹_›))
    · cases h
  | issueBadge i badgeId =>
    simp only [step, State.issueBadge] at h
    split at h
    · rename_i b badge target hcall
      split_ifs at h with hfresh
      split at h <;> cases h
      · rename_i hcreate
        obtain ⟨hcons, rfl⟩ := create_eq_ok_iff.mp hcreate
        cases target
        · exact .advances hcall (.inserts hfresh hcons)
        · exact .advances hcall (.insertsAnchored hfresh hcons)
      · exact .advances hcall (.pass (.insertThrows ‹_›))
    · cases h
  | issueBadgeFails i error =>
    simp only [step, State.issueBadgeFails] at h
    split at h <;> cases h
    exact .advances ‹_› (.pass .mintThrows)
  | probe i =>
    simp only [step, State.probe] at h
    split at h <;> cases h
    split_ifs with hseen
    · exact .advances ‹_› (.pass (.seen hseen))
    · exact .advances ‹_› (.pass (.gone hseen))
  | reregister i freshId =>
    simp only [step, State.reregister] at h
    split at h
    · rename_i hcall
      split_ifs at h with hfresh
      split at h <;> cases h
      · rename_i hreg
        obtain ⟨value, hvalue, rfl, rfl, hcons⟩ := register_registered hreg
        exact .advances hcall (.reregisters hfresh hvalue hcons)
      · rename_i hreg
        obtain ⟨e, he, rfl, rfl, hvalue⟩ := register_alreadyYours hreg
        exact .advances hcall (.pass (.yoursAgain he hvalue))
      · exact .advances hcall (.pass .reregisterThrows)
      · exact .advances hcall (.pass .reregisterThrows)
    · cases h
  | repoint i =>
    simp only [step, State.repoint] at h
    split at h
    · split at h <;> cases h
      · rename_i hupdate
        obtain ⟨⟨x, hx, hid⟩, hcons, rfl⟩ := update_eq_ok_iff.mp hupdate
        exact .advances ‹_› (.repoints hcons hx (of_decide_eq_true hid))
      · exact .advances ‹_› (.pass .repointThrows)
    · cases h
  | reprobe i =>
    simp only [step, State.reprobe] at h
    split at h <;> cases h
    split_ifs with hseen
    · exact .advances ‹_› (.pass (.seenAgain hseen))
    · exact .advances ‹_› (.pass (.goneAgain hseen))
    · exact .advances ‹_› (.pass .givesUp)
  | deleteCreated i =>
    simp only [step, State.deleteCreated] at h
    split at h <;> cases h
    exact .advances ‹_› .erases
  | releaseNext i =>
    simp only [step, State.releaseNext] at h
    split at h <;> cases h
    · unfold State.afterReleases
      split_ifs
      · exact .advances ‹_› (.pass .released)
      · exact .advances ‹_› (.pass .compensated)
    · exact .advances ‹_› .releases
  | releaseNextFails i =>
    simp only [step, State.releaseNextFails] at h
    split at h <;> cases h
    exact .advances ‹_› (.pass .releaseThrows)
  | scrub i =>
    simp only [step, State.scrub, State.endSession] at h
    split at h <;> cases h
    split
    · exact .advances ‹_› (.scrubs ‹_›)
    · exact .advances ‹_› (.pass .scrubThrows)
  | complete i =>
    simp only [step, State.complete, State.endSession] at h
    split at h <;> cases h
    split
    · exact .advances ‹_› (.completes ‹_›)
    · exact .advances ‹_› (.pass (.completeThrows ‹_›))
  | readOwner i =>
    simp only [step, State.readOwner] at h
    split at h <;> cases h
    exact .advances ‹_› (.pass .readsOwner)
  | deleteRow i =>
    simp only [step, State.deleteRow] at h
    split at h <;> cases h
    split_ifs with hcount
    · refine .advances ‹_› (.findsNone fun x hx hmatch => ?_)
      exact List.eq_nil_iff_forall_not_mem.mp (List.length_eq_zero_iff.mp hcount) x
        (mem_findMany.mpr ⟨hx, decide_eq_true hmatch⟩)
    · split
      · exact .advances ‹_› .deletes
      · exact .advances ‹_› .deletesAnchored
  | countSiblings i =>
    simp only [step, State.countSiblings] at h
    split at h <;> cases h
    split_ifs with hcount
    · exact .advances ‹_› (.pass .noSibling)
    · obtain ⟨x, hx⟩ := List.exists_mem_of_length_pos (Nat.pos_of_ne_zero hcount)
      obtain ⟨hmem, href⟩ := mem_findMany.mp hx
      exact .advances ‹_› (.pass (.sibling hmem (of_decide_eq_true href)))
  | releaseEntry i =>
    simp only [step, State.releaseEntry] at h
    split at h <;> cases h
    exact .advances ‹_› .releasesEntry
  | releaseEntryFails i =>
    simp only [step, State.releaseEntryFails] at h
    split at h <;> cases h
    exact .advances ‹_› (.pass .releaseEntryThrows)

end Inversion

end Minister.Issuance
