import Minister.Codec.LengthPrefix
import Minister.Oidc.Consent
import Minister.Transition.Pool
import Minister.Transition.Run

/-!
# Token and userinfo requests

The token endpoint (`app/oidc/token/route.ts`), the userinfo endpoint
(`app/oidc/userinfo/route.ts`) and the admin actions that revoke (`setUserBanned`,
`updateOidcClient` and `rotateOidcClientSecret` of `server/admin-actions.ts`), run side by
side. Each statement is one step; the transaction of an admin action is one step. Between
two steps time may pass.

A token request writes twice: it consumes its code, and later inserts the access token. What
it reads in between to build the id token only matters if it throws, so a request may
crash at any time.

Authorization codes are random, so no code is drawn twice: `drawn` keeps the codes issued so
far. The signature checks of bearer tokens, the rate limiters, and the form fields of an
admin action are taken as what they return.
-/

namespace Minister.Oidc

open Relational

/-! ### Rows -/

/-- An access token with the columns the endpoints use. -/
structure AccessToken extends OidcAccessToken where
  snapshot : Snapshot
  expiresAt : Timestamp
  revokedAt : Option Timestamp
  deriving DecidableEq, Repr

instance : Constrained AccessToken where
  clash a b := clash a.toOidcAccessToken b.toOidcAccessToken
  clash_comm a b := Constrained.clash_comm a.toOidcAccessToken b.toOidcAccessToken

/-- A relying party. -/
structure ClientRow extends OidcClient where
  clientSecretHash : Option String
  name : String
  redirectUris : List String
  allowedScopes : List String
  deriving DecidableEq, Repr

instance : Constrained ClientRow where
  clash a b := clash a.toOidcClient b.toOidcClient
  clash_comm a b := Constrained.clash_comm a.toOidcClient b.toOidcClient

/-! ### The code verifier -/

/-- The cryptographic functions. -/
structure Crypto where
  /-- `createHash("sha256").update(bytes).digest()`. -/
  sha256 : List UInt8 → List UInt8
  /-- `argonVerify(encoded, plaintext)`, and `false` if that throws. -/
  argonVerify : String → String → Bool

/-- The six bits of a character, in either alphabet. -/
def base64Value (c : Char) : Option Nat :=
  if 'A' ≤ c ∧ c ≤ 'Z' then some (c.toNat - 'A'.toNat)
  else if 'a' ≤ c ∧ c ≤ 'z' then some (c.toNat - 'a'.toNat + 26)
  else if '0' ≤ c ∧ c ≤ '9' then some (c.toNat - '0'.toNat + 52)
  else if c = '-' ∨ c = '+' then some 62
  else if c = '_' ∨ c = '/' then some 63
  else none

/-- Groups of four times six bits are three bytes; a shorter last group gives what is
complete. -/
def bytesOfSextets : List Nat → List UInt8
  | a :: b :: c :: d :: rest =>
    UInt8.ofNat (a * 4 + b / 16) :: UInt8.ofNat (b % 16 * 16 + c / 4) ::
      UInt8.ofNat (c % 4 * 64 + d) :: bytesOfSextets rest
  | [a, b, c] => [UInt8.ofNat (a * 4 + b / 16), UInt8.ofNat (b % 16 * 16 + c / 4)]
  | [a, b] => [UInt8.ofNat (a * 4 + b / 16)]
  | _ => []

/-- `Buffer.from(text, "base64url")`, which drops what is not in the alphabet. -/
def bufferFromBase64url (text : String) : List UInt8 :=
  bytesOfSextets (text.toList.filterMap base64Value)

/-- `timingSafeEqual`, which needs buffers of one length. -/
def equalDigests (computed stored : List UInt8) : Bool :=
  if stored.length ≠ computed.length then false else computed = stored

def verifyPkceS256 (crypto : Crypto) (codeVerifier storedChallenge : String) : Bool :=
  equalDigests (crypto.sha256 (Codec.utf8 codeVerifier)) (bufferFromBase64url storedChallenge)

theorem verifyPkceS256_iff {crypto : Crypto} {codeVerifier storedChallenge : String} :
    verifyPkceS256 crypto codeVerifier storedChallenge = true ↔
      crypto.sha256 (Codec.utf8 codeVerifier) = bufferFromBase64url storedChallenge := by
  unfold verifyPkceS256 equalDigests
  constructor
  · intro h
    split_ifs at h with hlength
    exact of_decide_eq_true h
  · intro h
    rw [h, if_neg (fun hne => hne rfl), decide_eq_true rfl]

/-! ### Requests -/

/-- The answer of the token endpoint to a request it refuses. -/
structure TokenError where
  status : Nat
  error : String
  description : String
  /-- The answer carries `WWW-Authenticate`. -/
  challenge : Bool := false
  deriving DecidableEq, Repr

def tokenError (error description : String) : TokenError := ⟨400, error, description, false⟩

def clientError (description : String) (fromBasic : Bool) : TokenError :=
  ⟨401, "invalid_client", description, fromBasic⟩

def rateLimited : TokenError :=
  ⟨429, "temporarily_unavailable", "Rate limit exceeded; retry later", false⟩

/-- A token request as it arrives: what the limiter says, the content type, the fields of
the form, and the credentials from the header or the form. -/
structure TokenForm where
  allowed : Bool := true
  formEncoded : Bool := true
  grantType : Option String := some "authorization_code"
  code : Option String
  redirectUri : Option String
  codeVerifier : Option String
  clientId : Option String
  clientSecret : Option String
  fromBasic : Bool := false

structure TokenRequest where
  code : String
  redirectUri : String
  codeVerifier : String
  clientId : ClientId
  clientSecret : Option String
  fromBasic : Bool
  deriving DecidableEq, Repr

/-- A field that is there and not empty. -/
def present (field : Option String) : Option String := field.filter (· ≠ "")

def TokenForm.read (form : TokenForm) : Except TokenError TokenRequest :=
  if !form.allowed then .error rateLimited
  else if !form.formEncoded then
    .error (tokenError "invalid_request" "Content-Type must be application/x-www-form-urlencoded")
  else if form.grantType ≠ some "authorization_code" then
    .error (tokenError "unsupported_grant_type" "Only grant_type=authorization_code is supported")
  else
    match present form.code, present form.redirectUri, present form.codeVerifier with
    | some code, some redirectUri, some codeVerifier =>
      match present form.clientId with
      | some clientId =>
        .ok ⟨code, redirectUri, codeVerifier, clientId, form.clientSecret, form.fromBasic⟩
      | none => .error (tokenError "invalid_request" "client_id is required")
    | _, _, _ =>
      .error (tokenError "invalid_request" "code, redirect_uri and code_verifier are required")

/-- Where a token request stands. -/
inductive TokenCall
  | findingClient (r : TokenRequest)
  | consuming (r : TokenRequest) (client : ClientRow)
  | readingCode (r : TokenRequest) (client : ClientRow)
  | checkingCode (r : TokenRequest) (client : ClientRow) (stored : AuthorizationCode)
  | readingUser (r : TokenRequest) (client : ClientRow) (stored : AuthorizationCode)
  | minting (r : TokenRequest) (client : ClientRow) (stored : AuthorizationCode) (user : User)
  | issued (r : TokenRequest) (client : ClientRow) (stored : AuthorizationCode)
    (token : AccessToken)
  | refused (e : TokenError)
  | crashed
  deriving DecidableEq, Repr

/-- The bearer token of a userinfo request, after the check of its signature. -/
inductive Bearer
  | rateLimited
  | missing
  | invalid (message : String)
  | verified (tokenUse jti sub : Option String)
  deriving DecidableEq, Repr

def Bearer.read : Bearer → Except String String
  | .rateLimited => .error "temporarily_unavailable"
  | .missing => .error "Bearer token required"
  | .invalid message => .error message
  | .verified tokenUse jti sub =>
    if tokenUse ≠ some "access" then .error "Token is not an access token"
    else
      match jti, present sub with
      | none, _ => .error "Token missing jti"
      | some _, none => .error "Token missing sub"
      | some jti, some _ => .ok jti

/-- Where a userinfo request stands. -/
inductive UserinfoCall
  | readingToken (jti : String)
  | checkingToken (row : AccessToken) (user : User)
  /-- The claims of the user were returned. -/
  | answered (row : AccessToken)
  | unauthorized (description : String)
  deriving DecidableEq, Repr

/-- The edit an admin asks for, its fields already validated. -/
inductive ClientEdit
  | update (id name : String) (redirectUris allowedScopes : List String)
    (anonAppId : Option String)
  | rotate (id : String)
  deriving DecidableEq, Repr

def ClientEdit.id : ClientEdit → String
  | .update id _ _ _ _ => id
  | .rotate id => id

/-- Where an edit of a client stands. -/
inductive EditCall
  | readingClient (edit : ClientEdit)
  | checkingAnonAppId (edit : ClientEdit) (clientId : ClientId) (anonAppId : String)
  | committing (edit : ClientEdit) (clientId : ClientId) (anonAppId : Option String)
  | committed (clientId : ClientId)
  | rejected (error : String)
  /-- The transaction was rolled back. -/
  | failed
  deriving DecidableEq, Repr

/-! ### The state -/

structure State where
  users : List User := []
  clients : List ClientRow := []
  codes : List AuthorizationCode := []
  tokens : List AccessToken := []
  now : Timestamp := 0
  /-- The codes issued so far. -/
  drawn : List AuthorizationCode := []
  requests : List TokenCall := []
  lookups : List UserinfoCall := []
  edits : List EditCall := []

inductive Action
  | tick (elapsed : Nat)
  /-- A consent is recorded. -/
  | issueCode (code : AuthorizationCode)
  | setUserBanned (adminId userId : UserId) (banned : Bool)
  /-- A request arrives. -/
  | token (form : TokenForm)
  | userinfo (bearer : Bearer)
  | edit (edit : ClientEdit)
  /-- The next read of a token request. -/
  | advance (i : Nat)
  | consume (i : Nat)
  | mint (i : Nat) (jti : String)
  | crash (i : Nat)
  /-- The next step of a userinfo request. -/
  | lookUp (j : Nat)
  /-- The next read of an edit. -/
  | examine (k : Nat)
  | commit (k : Nat) (secretHash : String)

/-! ### Token requests -/

/-- The client check of a request. A client without a secret hash is public. -/
def authenticate (crypto : Crypto) (r : TokenRequest) (client : ClientRow) : TokenCall :=
  match present client.clientSecretHash with
  | none => .consuming r client
  | some hash =>
    match present r.clientSecret with
    | none => .refused (clientError "client_secret required" r.fromBasic)
    | some secret =>
      if crypto.argonVerify hash secret then .consuming r client
      else .refused (clientError "Bad client_secret" r.fromBasic)

/-- The checks of the stored code. -/
def checkCode (crypto : Crypto) (now : Timestamp) (r : TokenRequest) (client : ClientRow)
    (stored : AuthorizationCode) : TokenCall :=
  if stored.expiresAt < now then .refused (tokenError "invalid_grant" "code is expired")
  else if stored.clientId ≠ client.clientId then
    .refused (tokenError "invalid_grant" "code was issued to a different client")
  else if stored.redirectUri ≠ r.redirectUri then
    .refused (tokenError "invalid_grant" "redirect_uri does not match the one used at /authorize")
  else if stored.codeChallengeMethod ≠ "S256" then
    .refused (tokenError "invalid_grant" "unsupported code_challenge_method")
  else if !verifyPkceS256 crypto r.codeVerifier stored.codeChallenge then
    .refused (tokenError "invalid_grant" "PKCE verification failed")
  else .readingUser r client stored

/-- `ACCESS_TOKEN_TTL`, in seconds. -/
def accessTokenTtl : Int := 60 * 60

def newToken (jti : String) (now : Timestamp) (client : ClientRow) (stored : AuthorizationCode)
    (user : User) : AccessToken where
  jti := jti
  userId := user.id
  clientId := client.clientId
  snapshot := stored.snapshot
  expiresAt := now + accessTokenTtl * 1000
  revokedAt := none

namespace State

variable (s : State)

/-- The next read of a token request, and what is made of it. -/
def nextRead (crypto : Crypto) : TokenCall → Option TokenCall
  | .findingClient r =>
    match s.clients.find? fun c => c.clientId = r.clientId with
    | none => some (.refused (clientError "Unknown client" r.fromBasic))
    | some client => some (authenticate crypto r client)
  | .readingCode r client =>
    match s.codes.find? fun c => c.code = r.code with
    | none => some (.refused (tokenError "invalid_grant" "code is invalid"))
    | some stored => some (.checkingCode r client stored)
  | .checkingCode r client stored => some (checkCode crypto s.now r client stored)
  | .readingUser r client stored =>
    match findUser stored.userId s.users with
    | none => some (.refused (tokenError "invalid_grant" "user no longer exists"))
    | some user =>
      -- A ban is not looked at here.
      if user.mergedIntoUserId = none then some (.minting r client stored user)
      else some (.refused (tokenError "invalid_grant" "user account was merged"))
  | _ => none

def setRequest (i : Nat) (c : TokenCall) : State := { s with requests := s.requests.set i c }

def advance (crypto : Crypto) (i : Nat) : Option State :=
  match s.requests[i]? with
  | some c => (s.nextRead crypto c).map (s.setRequest i)
  | none => none

/-- `updateMany` on the code that is not consumed yet. -/
def consume (i : Nat) : Option State :=
  match s.requests[i]? with
  | some (.consuming r client) =>
    -- The code is spent before any of its other columns is checked.
    if s.codes.any fun c => c.code = r.code ∧ c.consumedAt = none then
      some ({ s with
        codes := mapWhere (fun c => c.code = r.code ∧ c.consumedAt = none)
          (fun c => { c with consumedAt := some s.now }) s.codes }.setRequest i
            (.readingCode r client))
    else
      some (s.setRequest i
        (.refused (tokenError "invalid_grant" "code is invalid or already used")))
  | _ => none

/-- Insert the access token. -/
def mint (i : Nat) (jti : String) : Option State :=
  match s.requests[i]? with
  | some (.minting r client stored user) =>
    match create (newToken jti s.now client stored user) s.tokens with
    | .ok tokens =>
      some ({ s with tokens }.setRequest i
        (.issued r client stored (newToken jti s.now client stored user)))
    | .error _ => some (s.setRequest i .crashed)
  | _ => none

/-- A request that has not inserted its token throws. -/
def crash (i : Nat) : Option State :=
  match s.requests[i]? with
  | some (.issued _ _ _ _) => none
  | some _ => some (s.setRequest i .crashed)
  | none => none

/-! ### Userinfo requests -/

def setLookup (j : Nat) (c : UserinfoCall) : State := { s with lookups := s.lookups.set j c }

/-- The checks of the row of an access token. -/
def checkToken (row : AccessToken) (user : User) : UserinfoCall :=
  if row.revokedAt.isSome then .unauthorized "Token has been revoked"
  else if row.expiresAt < s.now then .unauthorized "Token has expired"
  -- A merged account is answered as if the token were unknown.
  else if user.mergedIntoUserId.isSome then .unauthorized "Token is not recognized"
  else .answered row

/-- The row is read together with its user, who exists by the foreign key. -/
def lookUp (j : Nat) : Option State :=
  match s.lookups[j]? with
  | some (.readingToken jti) =>
    match s.tokens.find? fun t => t.jti = jti with
    | none => some (s.setLookup j (.unauthorized "Token is not recognized"))
    | some row => (findUser row.userId s.users).map fun user =>
        s.setLookup j (.checkingToken row user)
  | some (.checkingToken row user) => some (s.setLookup j (s.checkToken row user))
  | _ => none

/-! ### Admin actions -/

/-- The row that `setUserBanned` updates. An admin cannot be banned. -/
def isTarget (userId : UserId) (u : User) : Bool := u.id = userId ∧ u.isAdmin = false

/-- The transaction of a ban: the sessions of the user end and their tokens are revoked. -/
def ban (userId : UserId) : State :=
  { s with
    users := mapWhere (isTarget userId)
      (fun u => { u with isBanned := true, sessionGeneration := u.sessionGeneration + 1 }) s.users
    tokens := mapWhere (fun t => t.userId = userId ∧ t.revokedAt = none)
      (fun t => { t with revokedAt := some s.now }) s.tokens }

def unban (userId : UserId) : State :=
  { s with users := mapWhere (isTarget userId) (fun u => { u with isBanned := false }) s.users }

def setUserBanned (adminId userId : UserId) (banned : Bool) : Except String State :=
  if !isCuid userId then .error "Invalid cuid"
  else if userId = adminId then .error "You can't ban yourself"
  else if !s.users.any (isTarget userId) then .error "User not found (or is an admin)"
  else if banned then .ok (s.ban userId)
  else .ok (s.unban userId)

end State

/-- What an edit may do to the anonymous-identity namespace: it is set once. -/
def resolveAnonAppIdUpdate (existing submitted : Option String) :
    Except String (Option String) :=
  match existing with
  | some appId =>
    if submitted.isSome ∧ submitted ≠ some appId then
      .error "anon app id is immutable once set and cannot be changed"
    else .ok none
  | none => .ok submitted

/-- The checks of an edit against the client it is for. -/
def examineClient (edit : ClientEdit) (client : ClientRow) : EditCall :=
  match edit with
  | .rotate _ =>
    if (present client.clientSecretHash).isSome then .committing edit client.clientId none
    else .rejected "Public clients have no secret to rotate"
  | .update _ _ _ _ submitted =>
    match resolveAnonAppIdUpdate client.anonAppId submitted with
    | .error error => .rejected error
    | .ok none => .committing edit client.clientId none
    | .ok (some appId) => .checkingAnonAppId edit client.clientId appId

/-- The columns an edit writes. -/
def ClientEdit.write (edit : ClientEdit) (anonAppId : Option String) (secretHash : String)
    (c : ClientRow) : ClientRow :=
  match edit with
  | .rotate _ => { c with clientSecretHash := some secretHash }
  | .update _ name redirectUris allowedScopes _ =>
    { c with name, redirectUris, allowedScopes, anonAppId := anonAppId.or c.anonAppId }

namespace State

variable (s : State)

def setEdit (k : Nat) (c : EditCall) : State := { s with edits := s.edits.set k c }

def examine (k : Nat) : Option State :=
  match s.edits[k]? with
  | some (.readingClient edit) =>
    match s.clients.find? fun c => c.id = edit.id with
    | none => some (s.setEdit k (.rejected "Client not found"))
    | some client => some (s.setEdit k (examineClient edit client))
  | some (.checkingAnonAppId edit clientId appId) =>
    if s.clients.any fun c => c.anonAppId = some appId then
      some (s.setEdit k (.rejected s!"anon app id \"{appId}\" is already in use"))
    else some (s.setEdit k (.committing edit clientId (some appId)))
  | _ => none

/-- The transaction of an edit: the client is written, its tokens are revoked and its codes
are dropped. -/
def commit (k : Nat) (secretHash : String) : Option State :=
  match s.edits[k]? with
  | some (.committing edit clientId anonAppId) =>
    match update (fun c => c.id = edit.id) (edit.write anonAppId secretHash) s.clients with
    | .ok clients =>
      some ({ s with
        clients
        tokens := mapWhere (fun t => t.clientId = clientId ∧ t.revokedAt = none)
          (fun t => { t with revokedAt := some s.now }) s.tokens
        codes := deleteMany (fun c => c.clientId = clientId) s.codes }.setEdit k
          (.committed clientId))
    | .error _ => some (s.setEdit k .failed)
  | _ => none

/-! ### Steps -/

/-- A consent inserts a code that was never drawn before. -/
def issueCode (code : AuthorizationCode) : Option State :=
  if code.code ∈ s.drawn.map (·.code) ∨ code.consumedAt.isSome ∨
      code.expiresAt ≠ s.now + codeTtlSeconds * 1000 then none
  else
    match create code s.codes with
    | .ok codes => some { s with codes, drawn := s.drawn ++ [code] }
    | .error _ => none

def arrive (form : TokenForm) : State :=
  match form.read with
  | .ok r => { s with requests := s.requests ++ [.findingClient r] }
  | .error e => { s with requests := s.requests ++ [.refused e] }

def ask (bearer : Bearer) : State :=
  match bearer.read with
  | .ok jti => { s with lookups := s.lookups ++ [.readingToken jti] }
  | .error description => { s with lookups := s.lookups ++ [.unauthorized description] }

/-- An admin action that is refused changes nothing. -/
def banOrNot (adminId userId : UserId) (banned : Bool) : State :=
  match s.setUserBanned adminId userId banned with
  | .ok s' => s'
  | .error _ => s

end State

def step (crypto : Crypto) (s : State) : Action → Option State
  | .tick elapsed => some { s with now := s.now + elapsed }
  | .issueCode code => s.issueCode code
  | .setUserBanned adminId userId banned => some (s.banOrNot adminId userId banned)
  | .token form => some (s.arrive form)
  | .userinfo bearer => some (s.ask bearer)
  | .edit edit => some { s with edits := s.edits ++ [.readingClient edit] }
  | .advance i => s.advance crypto i
  | .consume i => s.consume i
  | .mint i jti => s.mint i jti
  | .crash i => s.crash i
  | .lookUp j => s.lookUp j
  | .examine k => s.examine k
  | .commit k secretHash => s.commit k secretHash

/-- The code that a consent records can be issued, if the random code is a new one. -/
theorem issueCode_newCode {env : ConsentEnv} {userId : UserId} {input : ApproveInput}
    {request : ValidAuthorizeRequest} {db db' : ConsentDb} {persona : Persona} {s : State}
    (hrecord : recordConsent env userId input request db persona = .ok db')
    (hcodes : db.oidcAuthorizationCode = s.codes) (hnow : env.now = s.now)
    (hfresh : env.newAuthCode ∉ s.drawn.map (·.code)) :
    s.issueCode (newCode env userId input request db) =
      some { s with
        codes := db'.oidcAuthorizationCode
        drawn := s.drawn ++ [newCode env userId input request db] } := by
  obtain ⟨codes, hcreate, hrest⟩ := bind_eq_ok_iff.mp hrecord
  have hcodes' : codes = db'.oidcAuthorizationCode := by
    rw [recordConsent_codes hrecord]
    exact (create_eq_ok_iff.mp hcreate).2.symm
  rw [hcodes] at hcreate
  have hguard : ¬((newCode env userId input request db).code ∈ s.drawn.map (·.code) ∨
      (newCode env userId input request db).consumedAt.isSome ∨
      (newCode env userId input request db).expiresAt ≠ s.now + codeTtlSeconds * 1000) := by
    rintro (hdrawn | hconsumed | hexpires)
    · exact hfresh hdrawn
    · cases hconsumed
    · exact hexpires (congrArg (· + codeTtlSeconds * 1000) hnow)
  rw [State.issueCode, if_neg hguard, hcreate, hcodes']

/-! ### Effects -/

/-- What a step can do. Later results are by cases on this. -/
inductive Effect (crypto : Crypto) (s : State) : Action → State → Prop
  | tick (elapsed : Nat) : Effect crypto s (.tick elapsed) { s with now := s.now + elapsed }
  | issueCode (code : AuthorizationCode) (hdrawn : code.code ∉ s.drawn.map (·.code))
    (hconsumed : code.consumedAt = none) :
    Effect crypto s (.issueCode code)
      { s with codes := s.codes ++ [code], drawn := s.drawn ++ [code] }
  | ban (adminId userId : UserId) :
    Effect crypto s (.setUserBanned adminId userId true) (s.ban userId)
  | unban (adminId userId : UserId) :
    Effect crypto s (.setUserBanned adminId userId false) (s.unban userId)
  | banRefused (adminId userId : UserId) (banned : Bool) :
    Effect crypto s (.setUserBanned adminId userId banned) s
  | token (form : TokenForm) (c : TokenCall)
    (hc : (∃ r, c = .findingClient r) ∨ ∃ e, c = .refused e) :
    Effect crypto s (.token form) { s with requests := s.requests ++ [c] }
  | userinfo (bearer : Bearer) (c : UserinfoCall)
    (hc : (∃ jti, c = .readingToken jti) ∨ ∃ description, c = .unauthorized description) :
    Effect crypto s (.userinfo bearer) { s with lookups := s.lookups ++ [c] }
  | edit (edit : ClientEdit) :
    Effect crypto s (.edit edit) { s with edits := s.edits ++ [.readingClient edit] }
  | advance (i : Nat) (c c' : TokenCall) (hcall : s.requests[i]? = some c)
    (hread : s.nextRead crypto c = some c') : Effect crypto s (.advance i) (s.setRequest i c')
  | consume (i : Nat) (r : TokenRequest) (client : ClientRow)
    (hcall : s.requests[i]? = some (.consuming r client))
    (hopen : ∃ c ∈ s.codes, c.code = r.code ∧ c.consumedAt = none) :
    Effect crypto s (.consume i)
      ({ s with
        codes := mapWhere (fun c => c.code = r.code ∧ c.consumedAt = none)
          (fun c => { c with consumedAt := some s.now }) s.codes }.setRequest i
            (.readingCode r client))
  | consumeRefused (i : Nat) (r : TokenRequest) (client : ClientRow) (e : TokenError)
    (hcall : s.requests[i]? = some (.consuming r client)) :
    Effect crypto s (.consume i) (s.setRequest i (.refused e))
  | mint (i : Nat) (jti : String) (r : TokenRequest) (client : ClientRow)
    (stored : AuthorizationCode) (user : User)
    (hcall : s.requests[i]? = some (.minting r client stored user))
    (hcons : Consistent (s.tokens ++ [newToken jti s.now client stored user])) :
    Effect crypto s (.mint i jti)
      ({ s with tokens := s.tokens ++ [newToken jti s.now client stored user] }.setRequest i
        (.issued r client stored (newToken jti s.now client stored user)))
  | mintFailed (i : Nat) (jti : String) (r : TokenRequest) (client : ClientRow)
    (stored : AuthorizationCode) (user : User)
    (hcall : s.requests[i]? = some (.minting r client stored user)) :
    Effect crypto s (.mint i jti) (s.setRequest i .crashed)
  | crash (i : Nat) (c : TokenCall) (hcall : s.requests[i]? = some c)
    (hnot : ∀ r client stored t, c ≠ .issued r client stored t) :
    Effect crypto s (.crash i) (s.setRequest i .crashed)
  | tokenMissing (j : Nat) (description : String) :
    Effect crypto s (.lookUp j) (s.setLookup j (.unauthorized description))
  | readToken (j : Nat) (jti : String) (row : AccessToken) (user : User)
    (hcall : s.lookups[j]? = some (.readingToken jti)) (hrow : row ∈ s.tokens)
    (hjti : row.jti = jti) :
    Effect crypto s (.lookUp j) (s.setLookup j (.checkingToken row user))
  | checkToken (j : Nat) (row : AccessToken) (user : User)
    (hcall : s.lookups[j]? = some (.checkingToken row user)) :
    Effect crypto s (.lookUp j) (s.setLookup j (s.checkToken row user))
  | examine (k : Nat) (c : EditCall) : Effect crypto s (.examine k) (s.setEdit k c)
  | commit (k : Nat) (secretHash : String) (edit : ClientEdit) (clientId : ClientId)
    (anonAppId : Option String) (clients : List ClientRow)
    (hcall : s.edits[k]? = some (.committing edit clientId anonAppId)) :
    Effect crypto s (.commit k secretHash)
      ({ s with
        clients
        tokens := mapWhere (fun t => t.clientId = clientId ∧ t.revokedAt = none)
          (fun t => { t with revokedAt := some s.now }) s.tokens
        codes := deleteMany (fun c => c.clientId = clientId) s.codes }.setEdit k
          (.committed clientId))
  | commitFailed (k : Nat) (secretHash : String) :
    Effect crypto s (.commit k secretHash) (s.setEdit k .failed)

section Inversion

variable {crypto : Crypto} {s s' : State} {i : Nat}

theorem effect_of_issueCode {code : AuthorizationCode} (h : s.issueCode code = some s') :
    Effect crypto s (.issueCode code) s' := by
  unfold State.issueCode at h
  split_ifs at h with hguard
  push Not at hguard
  obtain ⟨hdrawn, hconsumed, -⟩ := hguard
  split at h
  · rename_i codes hcreate
    obtain ⟨-, rfl⟩ := create_eq_ok_iff.mp hcreate
    cases h
    exact .issueCode code hdrawn (by simpa using hconsumed)
  · cases h

/-- A ban that commits finds the user. -/
theorem setUserBanned_eq_ok_iff {adminId userId : UserId} {banned : Bool} :
    s.setUserBanned adminId userId banned = .ok s' ↔
      isCuid userId = true ∧ userId ≠ adminId ∧ s.users.any (State.isTarget userId) = true ∧
        (if banned then s.ban userId else s.unban userId) = s' := by
  unfold State.setUserBanned
  split_ifs with hcuid hself hfound hbanned <;> simp_all

theorem effect_of_setUserBanned (adminId userId : UserId) (banned : Bool) :
    Effect crypto s (.setUserBanned adminId userId banned) (s.banOrNot adminId userId banned) := by
  unfold State.banOrNot
  split
  · rename_i s' h
    obtain ⟨-, -, -, rfl⟩ := setUserBanned_eq_ok_iff.mp h
    cases banned with
    | true => exact .ban adminId userId
    | false => exact .unban adminId userId
  · exact .banRefused adminId userId banned

theorem effect_of_arrive (form : TokenForm) : Effect crypto s (.token form) (s.arrive form) := by
  unfold State.arrive
  split
  · exact .token form _ (.inl ⟨_, rfl⟩)
  · exact .token form _ (.inr ⟨_, rfl⟩)

theorem effect_of_ask (bearer : Bearer) : Effect crypto s (.userinfo bearer) (s.ask bearer) := by
  unfold State.ask
  split
  · exact .userinfo bearer _ (.inl ⟨_, rfl⟩)
  · exact .userinfo bearer _ (.inr ⟨_, rfl⟩)

theorem effect_of_advance (h : s.advance crypto i = some s') :
    Effect crypto s (.advance i) s' := by
  unfold State.advance at h
  split at h
  · rename_i c hcall
    obtain ⟨c', hread, rfl⟩ := Option.map_eq_some_iff.mp h
    exact .advance i c c' hcall hread
  · cases h

theorem effect_of_consume (h : s.consume i = some s') : Effect crypto s (.consume i) s' := by
  unfold State.consume at h
  split at h
  · rename_i r client hcall
    split_ifs at h with hopen
    · cases h
      exact .consume i r client hcall (by simpa using hopen)
    · cases h
      exact .consumeRefused i r client _ hcall
  · cases h

theorem effect_of_mint {jti : String} (h : s.mint i jti = some s') :
    Effect crypto s (.mint i jti) s' := by
  unfold State.mint at h
  split at h
  · rename_i r client stored user hcall
    split at h
    · rename_i tokens hcreate
      obtain ⟨hcons, rfl⟩ := create_eq_ok_iff.mp hcreate
      cases h
      exact .mint i jti r client stored user hcall hcons
    · cases h
      exact .mintFailed i jti r client stored user hcall
  · cases h

theorem effect_of_crash (h : s.crash i = some s') : Effect crypto s (.crash i) s' := by
  unfold State.crash at h
  split at h
  · cases h
  · rename_i c hnot hcall
    cases h
    exact .crash i c hcall hnot
  · cases h

theorem effect_of_lookUp {j : Nat} (h : s.lookUp j = some s') :
    Effect crypto s (.lookUp j) s' := by
  unfold State.lookUp at h
  split at h
  · rename_i jti hcall
    split at h
    · cases h
      exact .tokenMissing j _
    · rename_i row hfind
      obtain ⟨user, -, rfl⟩ := Option.map_eq_some_iff.mp h
      exact .readToken j jti row user hcall (List.mem_of_find?_eq_some hfind)
        (by simpa using List.find?_some hfind)
  · rename_i row user hcall
    cases h
    exact .checkToken j row user hcall
  · cases h

theorem effect_of_examine {k : Nat} (h : s.examine k = some s') :
    Effect crypto s (.examine k) s' := by
  unfold State.examine at h
  split at h
  · split at h
    · cases h
      exact .examine k _
    · cases h
      exact .examine k _
  · split_ifs at h
    · cases h
      exact .examine k _
    · cases h
      exact .examine k _
  · cases h

theorem effect_of_commit {k : Nat} {secretHash : String} (h : s.commit k secretHash = some s') :
    Effect crypto s (.commit k secretHash) s' := by
  unfold State.commit at h
  split at h
  · rename_i edit clientId anonAppId hcall
    split at h
    · cases h
      exact .commit k secretHash edit clientId anonAppId _ hcall
    · cases h
      exact .commitFailed k secretHash
  · cases h

theorem effect_of_step {a : Action} (h : step crypto s a = some s') : Effect crypto s a s' := by
  cases a with
  | tick elapsed => cases h; exact .tick elapsed
  | issueCode code => exact effect_of_issueCode h
  | setUserBanned adminId userId banned =>
    cases h; exact effect_of_setUserBanned adminId userId banned
  | token form => cases h; exact effect_of_arrive form
  | userinfo bearer => cases h; exact effect_of_ask bearer
  | edit edit => cases h; exact .edit edit
  | advance i => exact effect_of_advance h
  | consume i => exact effect_of_consume h
  | mint i jti => exact effect_of_mint h
  | crash i => exact effect_of_crash h
  | lookUp j => exact effect_of_lookUp h
  | examine k => exact effect_of_examine h
  | commit k secretHash => exact effect_of_commit h

end Inversion

end Minister.Oidc
