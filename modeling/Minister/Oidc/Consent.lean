import Minister.Policy.Selection
import Minister.Vc.IssuanceMonth

/-!
# Consent

`approveConsent` of `server/oidc-actions.ts`: what the user submits on the consent screen
becomes an authorization code and is added to the grant kept for the relying party. The
submission comes from the browser and may be anything; only the request it is about is
signed.

What the call takes from elsewhere is a `ConsentEnv`: the signature check of the request
token, the URL parser, the clock, the drawn ids, the cached holder counts, and the bucket
that scoring the account gives.
-/

namespace Minister.Oidc

open Relational
open Policy (PolicyAttrValue PolicyNode UserBadge HolderCounts minimizeToPolicy)
open Vc (issuanceMonthStartSeconds)

/-! ### Text -/

/-- What `\s` matches and `trim` removes. -/
def isJsSpace (c : Char) : Bool :=
  c.toNat ∈ [0x09, 0x0A, 0x0B, 0x0C, 0x0D, 0x20, 0xA0, 0x1680, 0x2028, 0x2029, 0x202F, 0x205F,
    0x3000, 0xFEFF] || (0x2000 ≤ c.toNat && c.toNat ≤ 0x200A)

/-- `value.trim()`. -/
def trim (value : List Char) : List Char :=
  ((value.dropWhile isJsSpace).reverse.dropWhile isJsSpace).reverse

/-- `value.length`, which counts UTF-16 code units. -/
def jsLength (value : String) : Nat := (Policy.utf16 value).length

/-- Drop the C0, C1 and DEL control characters. -/
def stripControlChars (value : String) : List Char :=
  value.toList.filter fun ch =>
    !(ch.toNat ≤ 0x1f) && !(ch.toNat = 0x7f) && !(0x80 ≤ ch.toNat && ch.toNat ≤ 0x9f)

/-- `z.string().cuid()`. -/
def isCuid (value : String) : Bool :=
  match value.toList with
  | [] => false
  | c :: rest => (c = 'c' || c = 'C') && (rest.all fun ch => !isJsSpace ch && ch ≠ '-') &&
      8 ≤ jsLength (String.ofList rest)

/-- `[...new Set(xs)]`. -/
def distinct (xs : List String) : List String := xs.eraseDups

/-! ### Scopes -/

/-- The type a `badge:` scope names. -/
def badgeTypeOf (scope : String) : Option String :=
  (scope.toList.dropPrefix? "badge:".toList).map String.ofList

theorem badgeTypeOf_eq_some_iff {scope type : String} :
    badgeTypeOf scope = some type ↔ scope = "badge:" ++ type := by
  rw [badgeTypeOf, Option.map_eq_some_iff]
  constructor
  · intro ⟨rest, hrest, htype⟩
    obtain ⟨pre, hscope, hpre⟩ := List.dropPrefix?_eq_some_iff.mp hrest
    rw [eq_of_beq hpre] at hscope
    rw [← htype, ← String.toList_inj, String.toList_append, hscope]
    exact congrArg _ String.toList_ofList.symm
  · intro h
    refine ⟨type.toList, List.dropPrefix?_eq_some_iff.mpr ?_, String.ofList_toList⟩
    exact ⟨_, by rw [h, String.toList_append], beq_self_eq_true _⟩

structure EffectiveScopesInput where
  approveProfile : Bool
  approveSybilScore : Bool
  approvedBadgeIds : List String
  userBadges : List UserBadge

/-- One round of the loop of `effectiveScopes`. -/
def keepsScope (input : EffectiveScopesInput) (scope : String) : Bool :=
  if scope = "openid" then true
  else if scope = "profile" then input.approveProfile
  else if scope = "sybil-score" then input.approveSybilScore
  else
    match badgeTypeOf scope with
    | some type =>
      input.userBadges.any fun b => b.type = type && b.id ∈ input.approvedBadgeIds
    | none => false

def effectiveScopes (requestedScopes : List String) (input : EffectiveScopesInput) :
    List String :=
  requestedScopes.filter (keepsScope input)

/-! ### Rows -/

/-- An attribute of a badge: a scalar, or an array, an object or `null`. -/
inductive AttrJson
  | scalar (value : PolicyAttrValue)
  | composite
  deriving DecidableEq, Repr

/-- A badge with the columns a policy reads. -/
structure BadgeRow extends Badge where
  attributes : List (String × AttrJson) := []
  issuedAt : Timestamp := 0
  deriving DecidableEq, Repr

instance : Movable BadgeRow UserId String where
  clash a b := clash a.toBadge b.toBadge
  clash_comm a b := Constrained.clash_comm a.toBadge b.toBadge
  key a := a.id
  owner a := some a.userId
  setOwner u a := { a with userId := u }
  clash_of_key_eq a b h := Owned.clash_of_key_eq a.toBadge b.toBadge h

/-- What a consent fixes about the tokens to come; a code hands it on to its token. -/
structure Snapshot where
  scopes : List String
  approvedBadgeIds : List String
  profileName : Bool
  profileAvatar : Bool
  sybilScore : Bool
  sybilBucket : Option Nat
  anonEpoch : Option Nat
  deriving DecidableEq, Repr

/-- An authorization code with all of its columns. -/
structure AuthorizationCode extends OidcAuthorizationCode where
  redirectUri : String
  snapshot : Snapshot
  nonce : String
  codeChallenge : String
  codeChallengeMethod : String
  expiresAt : Timestamp
  consumedAt : Option Timestamp
  deriving DecidableEq, Repr

instance : Constrained AuthorizationCode where
  clash a b := clash a.toOidcAuthorizationCode b.toOidcAuthorizationCode
  clash_comm a b := Constrained.clash_comm a.toOidcAuthorizationCode b.toOidcAuthorizationCode

instance : Constrained OidcProfileOverride where
  clash a b := a.userId == b.userId && a.clientId == b.clientId

/-- The tables a consent reads or writes. Badge ids are unique. -/
structure ConsentDb where
  badge : List BadgeRow
  oidcClient : List OidcClient
  anonSeedEnrollment : List AnonSeedEnrollment
  oidcGrant : List OidcGrant
  oidcAuthorizationCode : List AuthorizationCode
  oidcProfileOverride : List OidcProfileOverride
  badge_consistent : Consistent badge := by decide

/-! ### Badges -/

def coerceAttrs (attributes : List (String × AttrJson)) : List (String × PolicyAttrValue) :=
  attributes.filterMap fun kv =>
    match kv.2 with
    | .scalar value => some (kv.1, value)
    | .composite => none

def toPolicyUserBadge (row : BadgeRow) : UserBadge where
  id := row.id
  type := row.type
  attributes := coerceAttrs row.attributes
  issuedAt := issuanceMonthStartSeconds row.issuedAt

def loadBadgesForUser (badges : List BadgeRow) (userId : UserId) (badgeIds : List String) :
    List UserBadge :=
  if badgeIds.length = 0 then []
  else (findMany (fun b => b.userId = userId ∧ b.id ∈ badgeIds) badges).map toPolicyUserBadge

/-- Union by id; the first occurrence stays. -/
def unionBadgesById (a b : List UserBadge) : List UserBadge :=
  a ++ b.filter fun x => x.id ∉ a.map (·.id)

/-! ### Grants -/

def emptyGrant : OidcGrantFields := ⟨[], [], false, false, false⟩

def findGrant (grants : List OidcGrant) (userId : UserId) (clientId : ClientId) :
    Option OidcGrant :=
  grants.find? fun g => g.userId = userId ∧ g.clientId = clientId

def loadGrant (grants : List OidcGrant) (userId : UserId) (clientId : ClientId) :
    OidcGrantFields :=
  match findGrant grants userId clientId with
  | none => emptyGrant
  | some row => row.fields

def unionTypes (a b : List String) : List String := distinct (a ++ b)

/-- Add what was disclosed to the grant, or start one. -/
def upsertGrant (grants : List OidcGrant) (freshId : String) (userId : UserId)
    (clientId : ClientId) (disclosed : OidcGrantFields) : Except DbError (List OidcGrant) :=
  let existing := loadGrant grants userId clientId
  let mergedTypes := unionTypes existing.badgeTypes disclosed.badgeTypes
  let mergedIds := unionTypes existing.badgeIds disclosed.badgeIds
  match findGrant grants userId clientId with
  | none =>
    create ⟨freshId, userId, clientId,
      { disclosed with badgeTypes := mergedTypes, badgeIds := mergedIds }⟩ grants
  | some _ =>
    update (fun g => g.userId = userId ∧ g.clientId = clientId)
      (fun g => { g with fields :=
        { badgeTypes := mergedTypes
          badgeIds := mergedIds
          profileName := existing.profileName || disclosed.profileName
          profileAvatar := existing.profileAvatar || disclosed.profileAvatar
          sybilScore := existing.sybilScore || disclosed.sybilScore } }) grants

/-! ### The request and the submission -/

/-- The columns of a validated request that a consent reads. -/
structure ValidAuthorizeRequest where
  clientId : ClientId
  redirectUri : String
  scopes : List String
  state : String
  nonce : String
  codeChallenge : String
  codeChallengeMethod : String
  policy : Option PolicyNode

structure ApproveInput where
  requestToken : String
  approvedBadgeIds : List String
  approveName : Bool
  approveAvatar : Bool
  approveSybilScore : Bool
  nameValue : Option String := none
  avatarValue : Option String := none

/-- The first issue `safeParse` reports, if any. -/
def ApproveInput.issue (input : ApproveInput) : Option String :=
  if input.requestToken = "" then some "String must contain at least 1 character(s)"
  else if input.approvedBadgeIds.all isCuid then none
  else some "Invalid cuid"

structure ConsentEnv where
  /-- The payload of a request token whose signature and lifetime are good. -/
  verifyOidcRequest : String → Option ValidAuthorizeRequest
  /-- `new URL(text).protocol`, if the text is an absolute URL. -/
  urlProtocol : String → Option String
  /-- `holderCountsByType`. -/
  holderCountsByType : HolderCounts
  /-- The bucket of an account, if its badges could be scored. -/
  scoreBucket : UserId → Option Nat
  anonIdentityEnabled : Bool
  now : Timestamp
  newAuthCode : String
  freshId : String

/-! ### The profile -/

/-- `MAX_DISPLAY_NAME_LENGTH`. -/
def maxDisplayNameLength : Nat := 80

/-- `MAX_AVATAR_URL_LENGTH`. -/
def maxAvatarUrlLength : Nat := 2048

def normalizeDisplayName (raw : String) : Except String (Option String) :=
  let cleaned := String.ofList (trim (stripControlChars raw))
  if jsLength cleaned = 0 then .ok none
  else if maxDisplayNameLength < jsLength cleaned then
    .error s!"Display name must be {maxDisplayNameLength} characters or fewer"
  else .ok (some cleaned)

def normalizeAvatarUrlOrNull (env : ConsentEnv) (raw : String) : Except String (Option String) :=
  let cleaned := String.ofList (trim (stripControlChars raw))
  if jsLength cleaned = 0 then .ok none
  else if maxAvatarUrlLength < jsLength cleaned then
    .error s!"Avatar URL must be {maxAvatarUrlLength} characters or fewer"
  else
    match env.urlProtocol cleaned with
    | none => .error "Avatar URL must be a valid absolute URL"
    | some protocol =>
      if protocol = "https:" then .ok (some cleaned) else .error "Avatar URL must use https:"

structure Persona where
  displayName : Option String
  avatarUrl : Option String
  deriving DecidableEq, Repr

def normalizeProfileInput (env : ConsentEnv) (displayName avatarUrl : String) :
    Except String Persona := do
  let displayName ← normalizeDisplayName displayName
  let avatarUrl ← normalizeAvatarUrlOrNull env avatarUrl
  return ⟨displayName, avatarUrl⟩

/-- Write the approved fields of the persona; the others stay as they are. -/
def upsertOverride (overrides : List OidcProfileOverride) (userId : UserId)
    (clientId : ClientId) (approveName approveAvatar : Bool) (persona : Persona) :
    Except DbError (List OidcProfileOverride) :=
  let write (o : OidcProfileOverride) : OidcProfileOverride :=
    { o with
      displayName := if approveName then persona.displayName else o.displayName
      avatarUrl := if approveAvatar then persona.avatarUrl else o.avatarUrl }
  match overrides.find? fun o => o.userId = userId ∧ o.clientId = clientId with
  | none => create (write ⟨userId, clientId, none, none⟩) overrides
  | some _ => update (fun o => o.userId = userId ∧ o.clientId = clientId) write overrides

/-! ### Approval -/

/-- `CODE_TTL_SECONDS`. -/
def codeTtlSeconds : Int := 60

section Approval

variable (env : ConsentEnv) (userId : UserId) (input : ApproveInput)
  (request : ValidAuthorizeRequest) (db : ConsentDb)

def requestedBadgeTypes : List String := request.scopes.filterMap badgeTypeOf

/-- The submitted badges and the ones already granted, of the types that are requested. -/
def candidateBadges : List UserBadge :=
  let requested := fun b : UserBadge => b.type ∈ requestedBadgeTypes request
  let grant := loadGrant db.oidcGrant userId request.clientId
  let requestedBadges :=
    (loadBadgesForUser db.badge userId input.approvedBadgeIds).filter requested
  let grantedBadges := (loadBadgesForUser db.badge userId grant.badgeIds).filter requested
  unionBadgesById requestedBadges grantedBadges

/-- `userBadges`: the candidates, minimized to the policy. -/
def disclosedBadges : List UserBadge :=
  minimizeToPolicy (candidateBadges userId input request db) env.holderCountsByType
    (env.now / 1000 : Int) request.policy

def approvesName : Bool := "profile" ∈ request.scopes && input.approveName

def approvesAvatar : Bool := "profile" ∈ request.scopes && input.approveAvatar

def approvesSybilScore : Bool := "sybil-score" ∈ request.scopes && input.approveSybilScore

def anonAppId : Option String :=
  if env.anonIdentityEnabled then
    (db.oidcClient.find? fun c => c.clientId = request.clientId).bind (·.anonAppId)
  else none

/-- The enrolment epoch, for a client that is anon-enabled. -/
def anonEpoch : Option Nat :=
  match anonAppId env request db with
  | none => none
  | some appId =>
    if appId = "" then none
    else
      match db.anonSeedEnrollment.find? fun e => e.userId = userId with
      | some enrollment => some enrollment.enrollmentEpoch
      | none => some 1

/-- What the code hands on to the tokens. -/
def consentSnapshot : Snapshot :=
  let userBadges := disclosedBadges env userId input request db
  let approvedBadgeIds := userBadges.map (·.id)
  { scopes := effectiveScopes request.scopes
      { approveProfile := approvesName input request || approvesAvatar input request
        approveSybilScore := approvesSybilScore input request
        approvedBadgeIds
        userBadges }
    approvedBadgeIds
    profileName := approvesName input request
    profileAvatar := approvesAvatar input request
    sybilScore := approvesSybilScore input request
    sybilBucket := if approvesSybilScore input request then env.scoreBucket userId else none
    anonEpoch := anonEpoch env userId request db }

def newCode : AuthorizationCode where
  code := env.newAuthCode
  clientId := request.clientId
  userId := userId
  redirectUri := request.redirectUri
  snapshot := consentSnapshot env userId input request db
  nonce := request.nonce
  codeChallenge := request.codeChallenge
  codeChallengeMethod := request.codeChallengeMethod
  expiresAt := env.now + codeTtlSeconds * 1000
  consumedAt := none

/-- What is recorded in the grant. -/
def disclosedFields : OidcGrantFields where
  badgeTypes := distinct ((disclosedBadges env userId input request db).map (·.type))
  badgeIds := (disclosedBadges env userId input request db).map (·.id)
  profileName := approvesName input request
  profileAvatar := approvesAvatar input request
  sybilScore := approvesSybilScore input request

/-- The persona is written if a field of it is approved. -/
def recordPersona (persona : Persona) : Except DbError (List OidcProfileOverride) :=
  if approvesName input request || approvesAvatar input request then
    upsertOverride db.oidcProfileOverride userId request.clientId
      (approvesName input request) (approvesAvatar input request) persona
  else .ok db.oidcProfileOverride

/-- The transaction: the code, the grant and the persona. -/
def recordConsent (persona : Persona) : Except DbError ConsentDb := do
  let codes ← create (newCode env userId input request db) db.oidcAuthorizationCode
  let grants ← upsertGrant db.oidcGrant env.freshId userId request.clientId
    (disclosedFields env userId input request db)
  let overrides ← recordPersona userId input request db persona
  return { db with
    oidcAuthorizationCode := codes
    oidcGrant := grants
    oidcProfileOverride := overrides }

end Approval

/-- The parts of the URL the browser is sent to. -/
structure SuccessRedirect where
  redirectUri : String
  code : String
  state : String
  deriving DecidableEq, Repr

inductive ConsentResult
  | error (message : String)
  | redirect (target : SuccessRedirect)
  /-- The consent page appends a fragment and navigates by itself. -/
  | navigate (target : SuccessRedirect) (anonAppId : String) (anonEpoch : Nat)
  deriving DecidableEq, Repr

def consentResult (env : ConsentEnv) (userId : UserId) (request : ValidAuthorizeRequest)
    (db : ConsentDb) : ConsentResult :=
  let target : SuccessRedirect := ⟨request.redirectUri, env.newAuthCode, request.state⟩
  match anonAppId env request db with
  | none => .redirect target
  | some appId => .navigate target appId ((anonEpoch env userId request db).getD 1)

/-- Approve a consent request in the session of a user. -/
def approveConsent (env : ConsentEnv) (session : Option UserId) (input : ApproveInput)
    (db : ConsentDb) : Except ServerError (ConsentDb × ConsentResult) :=
  match session with
  | none => .ok (db, .error "Not signed in")
  | some userId =>
    match input.issue with
    | some message => .ok (db, .error message)
    | none =>
      match env.verifyOidcRequest input.requestToken with
      | none =>
        .ok (db, .error
          "This consent request expired or has been tampered with. Reload and try again.")
      | some request =>
        -- a field that is not approved is validated as if it were empty
        match normalizeProfileInput env
            (if approvesName input request then input.nameValue.getD "" else "")
            (if approvesAvatar input request then input.avatarValue.getD "" else "") with
        | .error message => .ok (db, .error message)
        | .ok persona => do
          let db' ← stmt (recordConsent env userId input request db persona)
          return (db', consentResult env userId request db)

section Effect

variable {env : ConsentEnv} {session : Option UserId} {userId : UserId} {input : ApproveInput}
  {request : ValidAuthorizeRequest} {db db' : ConsentDb} {result : ConsentResult}

theorem recordConsent_codes {persona : Persona}
    (h : recordConsent env userId input request db persona = .ok db') :
    db'.oidcAuthorizationCode =
      db.oidcAuthorizationCode ++ [newCode env userId input request db] := by
  obtain ⟨codes, hcodes, h⟩ := bind_eq_ok_iff.mp h
  obtain ⟨grants, -, h⟩ := bind_eq_ok_iff.mp h
  obtain ⟨overrides, -, h⟩ := bind_eq_ok_iff.mp h
  cases h
  exact (create_eq_ok_iff.mp hcodes).2.symm

/-- A call adds at most one code, the one for the user who is signed in and the request
they consented to. -/
theorem approveConsent_code (h : approveConsent env session input db = .ok (db', result)) :
    db'.oidcAuthorizationCode = db.oidcAuthorizationCode ∨
      ∃ userId request, session = some userId ∧
        env.verifyOidcRequest input.requestToken = some request ∧
        db'.oidcAuthorizationCode =
          db.oidcAuthorizationCode ++ [newCode env userId input request db] := by
  unfold approveConsent at h
  split at h
  · cases h
    exact .inl rfl
  · split at h
    · cases h
      exact .inl rfl
    · split at h
      · cases h
        exact .inl rfl
      · rename_i request hrequest
        split at h
        · cases h
          exact .inl rfl
        · obtain ⟨db₁, hrecord, h⟩ := bind_eq_ok_iff.mp h
          cases h
          exact .inr ⟨_, request, rfl, hrequest,
            recordConsent_codes (stmt_eq_ok_iff.mp hrecord)⟩

end Effect

section Forum

/-- What a forum asks for. -/
def forumRequest : ValidAuthorizeRequest :=
  ⟨"forum", "https://forum.example/callback", ["openid", "profile", "badge:oauth-account"],
    "state", "nonce", "challenge", "S256", none⟩

/-- The environment of a call that draws this code and this id. -/
def forumEnv (code freshId : String) : ConsentEnv where
  verifyOidcRequest token := if token = "signed" then some forumRequest else none
  urlProtocol _ := none
  holderCountsByType _ := none
  scoreBucket _ := none
  anonIdentityEnabled := false
  now := 0
  newAuthCode := code
  freshId := freshId

def storedBadge (id : String) (userId : UserId) (type : String) : BadgeRow :=
  { id, userId, type, dedupeKey := none, nullifierRef := none }

/-- A user with two badges and no grant. -/
def noGrant : ConsentDb where
  badge := [storedBadge "cgithub001" "alice" "oauth-account",
    storedBadge "cgoogle001" "alice" "oauth-account"]
  oidcClient := []
  anonSeedEnrollment := []
  oidcGrant := []
  oidcAuthorizationCode := []
  oidcProfileOverride := []

end Forum

end Minister.Oidc
