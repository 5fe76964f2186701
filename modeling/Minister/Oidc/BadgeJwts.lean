import Minister.Groups.Actions

/-!
# Disclosing the approved badges

`loadApprovedBadgeJwts` mints a credential for a relying party from each approved badge of the
account that Minister issued itself. A badge with an entry in the nullifier ledger gets its
nullifier at the client; a group badge is looked up among the memberships, left out if there is
none, and disclosed with the role of today; a badge with a status anchor gets the place of its
status entry at the client. Whatever throws on the way leaves out that badge only.

The ledger is a parameter, and so are the status entries that `allocateStatusEntry` returned for the
rows. The audit log is left out.
-/

namespace Minister.Oidc

open Codec Relational Vc Groups
open StatusLists (AllocatedStatus)

structure DisclosureEnv where
  issuing : IssuerEnv
  vc : Vc.Env
  oidcIssuerUrl : String
  /-- The column of the account. -/
  dedupHandle : UserId → Option String
  derivePairwiseJti : String → ClientId → String
  /-- `nullifierService.disclose` for an entry, an owner and a client, and the check for drift; none
  if one of them throws. -/
  disclose : String → String → ClientId → Option String

structure DisclosureInput where
  userId : UserId
  clientId : ClientId
  sub : String
  badgeIds : List String
  /-- `Date.now()` at the signatures. -/
  now : Timestamp

/-- `BADGE_DISCLOSURE_TTL_SECONDS`. -/
def badgeDisclosureTtlSeconds : Number := .fin (60 * 60)

/-- `buildPairwiseUserDid`. -/
def buildPairwiseUserDid (domain pairwiseSub : String) : String :=
  "did:web:" ++ domain ++ ":u:" ++ pairwiseSub

def credentialStatusFor (env : DisclosureEnv) (alloc : AllocatedStatus) :
    CredentialStatusEntry where
  id := statusListUrl env.oidcIssuerUrl alloc.listId ++ "#" ++ toString alloc.bitIndex
  statusListIndex := toString alloc.bitIndex
  statusListCredential := statusListUrl env.oidcIssuerUrl alloc.listId

section Rows

variable (env : DisclosureEnv) (input : DisclosureInput) (t : Tables)

def disclosableRows : List StoredBadge :=
  findMany (fun b => b.userId = input.userId ∧ b.id ∈ input.badgeIds ∧
    b.issuer = env.issuing.issuer.did) t.badges

/-- The nullifier of the row, if it has a reference; none if it cannot be had. -/
def rowNullifier (row : StoredBadge) : Option (Option String) :=
  match row.nullifierRef with
  | none | some "" => some none
  | some entryRef =>
    (env.dedupHandle input.userId).bind fun ownerHandle =>
      (env.disclose entryRef ownerHandle input.clientId).map some

/-- The group a badge is about, as its attributes say. -/
def attributeGroupId (row : BadgeRow) : Option String :=
  match row.attributes.lookup "groupId" with
  | some (.scalar (.string groupId)) => some groupId
  | _ => none

/-- The role of today, for a group badge; none if there is no membership. -/
def liveRole (row : StoredBadge) : Option (Option GroupRole) :=
  if row.type = groupMembershipBadgeType then
    (attributeGroupId row.toBadgeRow).bind fun groupId =>
      (t.findMembership groupId input.userId).map fun m => some m.role
  else some none

def claimSanitizer (role : Option GroupRole) (claims : Members) (vcType : List Json) :
    Option Members :=
  (sanitizeDisclosedClaims env.issuing.text claims vcType).map fun sanitized =>
    match role with
    | some role => assign sanitized [("role", .str role.text)]
    | none => sanitized

/-- The place of the status entry, if the row has an anchor; none if none was allocated. -/
def rowStatus (allocated : StoredBadge → Option AllocatedStatus) (row : StoredBadge) :
    Option (Option CredentialStatusEntry) :=
  match row.statusAnchor with
  | none | some "" => some none
  | some _ => (allocated row).map fun alloc => some (credentialStatusFor env alloc)

/-- `reMintVc` with a hook that may throw. -/
def reMintWith (sanitize : Members → List Json → Option Members) (jwt : String)
    (options : ReMintOptions) : Option Credential :=
  match readOriginal env.vc env.issuing.issuer jwt with
  | .error _ => none
  | .ok o =>
    (sanitize (nonReserved o.subject) o.types).bind fun claims =>
      (reMintVc env.vc env.issuing.issuer input.now jwt
        { options with sanitizeClaims := some fun _ _ => claims }).toOption

def reMintOptions (row : StoredBadge) (nullifier : Option String)
    (credentialStatus : Option CredentialStatusEntry) : ReMintOptions where
  subjectId := buildPairwiseUserDid env.issuing.domain input.sub
  jti := env.derivePairwiseJti row.id input.clientId
  maxExpiresAt := row.expiresAt
  disclosureTtlSeconds := some badgeDisclosureTtlSeconds
  nullifier := nullifier
  credentialStatus := credentialStatus

def discloseRow (allocated : StoredBadge → Option AllocatedStatus) (row : StoredBadge) :
    Option Credential :=
  (rowNullifier env input row).bind fun nullifier =>
    (liveRole input t row).bind fun role =>
      (rowStatus env allocated row).bind fun status =>
        reMintWith env input (claimSanitizer env role) row.vcJwt
          (reMintOptions env input row nullifier status)

def loadApprovedBadgeJwts (allocated : StoredBadge → Option AllocatedStatus) : List Credential :=
  if input.badgeIds.length = 0 then []
  else (disclosableRows env input t).filterMap (discloseRow env input t allocated)

end Rows

section Disclosed

variable {env : DisclosureEnv} {input : DisclosureInput} {t : Tables}
  {allocated : StoredBadge → Option AllocatedStatus} {row : StoredBadge} {c : Credential}

/-- No row is read for an empty list of badges. -/
theorem mem_loadApprovedBadgeJwts :
    c ∈ loadApprovedBadgeJwts env input t allocated ↔
      ∃ row ∈ disclosableRows env input t, discloseRow env input t allocated row = some c := by
  unfold loadApprovedBadgeJwts
  split_ifs with hempty
  · have hnil := List.eq_nil_of_length_eq_zero hempty
    simp [disclosableRows, findMany, hnil]
  · exact List.mem_filterMap

theorem discloseRow_eq_some (h : discloseRow env input t allocated row = some c) :
    ∃ nullifier role status, rowNullifier env input row = some nullifier ∧
      liveRole input t row = some role ∧ rowStatus env allocated row = some status ∧
        reMintWith env input (claimSanitizer env role) row.vcJwt
          (reMintOptions env input row nullifier status) = some c := by
  obtain ⟨nullifier, hnullifier, h⟩ := Option.bind_eq_some_iff.mp h
  obtain ⟨role, hrole, h⟩ := Option.bind_eq_some_iff.mp h
  obtain ⟨status, hstatus, h⟩ := Option.bind_eq_some_iff.mp h
  exact ⟨nullifier, role, status, hnullifier, hrole, hstatus, h⟩

/-- The status entry of a credential is the one that was given. -/
theorem keys?_status_of_reMintWith {sanitize : Members → List Json → Option Members} {jwt : String}
    {options : ReMintOptions} (h : reMintWith env input sanitize jwt options = some c) :
    c.payload.keys? ["vc", "credentialStatus"] =
      options.credentialStatus.map CredentialStatusEntry.toJson := by
  unfold reMintWith at h
  split at h
  · cases h
  · obtain ⟨claims, -, h⟩ := Option.bind_eq_some_iff.mp h
    cases hmint : reMintVc env.vc env.issuing.issuer input.now jwt
        { options with sanitizeClaims := some fun _ _ => claims } with
    | error e =>
      rw [hmint] at h
      cases h
    | ok c' =>
      rw [hmint] at h
      cases h
      obtain ⟨o, month, ttl, -, -, -, -, rfl⟩ := reMintVc_eq_ok_iff.mp hmint
      exact keys?_credentialStatus

/-- A group badge is disclosed only to a member. -/
theorem membership_of_liveRole {role : Option GroupRole} (hrole : liveRole input t row = some role)
    (htype : row.type = groupMembershipBadgeType) :
    ∃ groupId m, attributeGroupId row.toBadgeRow = some groupId ∧
      t.findMembership groupId input.userId = some m ∧ role = some m.role := by
  unfold liveRole at hrole
  rw [if_pos htype] at hrole
  obtain ⟨groupId, hgroup, hrole⟩ := Option.bind_eq_some_iff.mp hrole
  obtain ⟨m, hm, rfl⟩ := Option.map_eq_some_iff.mp hrole
  exact ⟨groupId, m, hgroup, hm, rfl⟩

end Disclosed

end Minister.Oidc
