import Minister.Codec.ObjectSchema
import Minister.Vc.ReMint

/-!
# The badge types

The registry `BADGE_TYPES`: for each type the schema of its claims, and whether a badge of
the type can be revoked after it was disclosed. A badge is issued with what the schema
returns, and `sanitizeDisclosedClaims` reads the claims through the schema once more at
every disclosure.

Labels, descriptions, icons and the stated Sybil resistance are left out.
-/

namespace Minister.Vc

open Codec

/-- What the schemas take from the language and from the schema library. -/
structure TextEnv where
  /-- `String.prototype.toLowerCase`. -/
  toLowerCase : String → String
  /-- `z.string().email()`. -/
  isEmail : String → Bool

structure BadgeTypeMeta where
  type : String
  schema : ObjectSchema
  revocable : Bool := false

/-! ### Texts -/

def isLowerLetter (c : Char) : Bool := 'a' ≤ c && c ≤ 'z'

def isDigitChar (c : Char) : Bool := '0' ≤ c && c ≤ '9'

/-- `/^[a-z0-9.-]+\.[a-z]{2,}$/u`, read from the end: the letters after the last dot, the dot,
and what stands before it. -/
def isDomain (text : String) : Bool :=
  let backwards := text.toList.reverse
  let rest := backwards.dropWhile isLowerLetter
  2 ≤ (backwards.takeWhile isLowerLetter).length &&
    match rest with
    | '.' :: name =>
      name ≠ [] && name.all fun c => isLowerLetter c || isDigitChar c || c = '.' || c = '-'
    | _ => false

def isSlugChar (c : Char) : Bool := isLowerLetter c || isDigitChar c

/-- The rest of a slug; right after a hyphen, or at the start, another hyphen is refused and so
is the end. -/
def isSlugFrom (afterHyphen : Bool) : List Char → Bool
  | [] => !afterHyphen
  | c :: rest =>
    if c = '-' then !afterHyphen && isSlugFrom true rest else isSlugChar c && isSlugFrom false rest

/-- `/^[a-z0-9]+(?:-[a-z0-9]+)*$/u`. -/
def isSlug (text : String) : Bool := isSlugFrom true text.toList

example : isSlug "acme-corp" = true ∧ isSlug "acme--corp" = false ∧ isSlug "" = false := by
  decide +kernel

/-- `/^[A-Z]{2}$/u`. -/
def isCountry (text : String) : Bool :=
  match text.toList with
  | [a, b] => 'A' ≤ a && a ≤ 'Z' && 'A' ≤ b && b ≤ 'Z'
  | _ => false

/-- `z.string().min(1).toLowerCase().regex(…)`. -/
def domainText (env : TextEnv) (text : String) : Option String :=
  if text ≠ "" ∧ isDomain (env.toLowerCase text) then some (env.toLowerCase text) else none

/-- `z.string().email().toLowerCase()`. -/
def emailText (env : TextEnv) (text : String) : Option String :=
  if env.isEmail text then some (env.toLowerCase text) else none

def slugText (text : String) : Option String := if isSlug text then some text else none

def countryText (text : String) : Option String := if isCountry text then some text else none

/-! ### Schemas -/

def oauthProviders : List String :=
  ["github", "google", "discord", "reddit", "steam", "hackernews", "instagram", "youtube"]

def accountAgeMonths : List Nat := [12, 24, 36, 60]

def followersBuckets : List Nat := [10, 50, 100, 500, 1000]

def ageThresholds : List Nat := [16, 18, 21, 25, 30, 35, 40, 45, 55, 65]

def publicKeyKinds : List String := ["pgp", "ssh"]

def walletChains : List String := ["ethereum", "bitcoin"]

def onchainEvents : List String := ["eth2-genesis-depositor"]

def groupRoles : List String := ["owner", "admin", "member"]

def domainClaims (env : TextEnv) : ObjectSchema :=
  ⟨[⟨"domain", true, readText (domainText env)⟩], false⟩

def emailExactClaims (env : TextEnv) : ObjectSchema :=
  ⟨[⟨"email", true, readText (emailText env)⟩], false⟩

def oAuthAccountClaims : ObjectSchema :=
  ⟨[⟨"provider", true, readOneOf oauthProviders⟩, ⟨"handle", false, readText nonEmpty⟩], false⟩

def accountAgeClaims : ObjectSchema :=
  ⟨[⟨"provider", true, readOneOf oauthProviders⟩,
    ⟨"olderThanMonths", true, readNumberOf accountAgeMonths⟩], true⟩

def socialFollowingClaims : ObjectSchema :=
  ⟨[⟨"provider", true, readOneOf oauthProviders⟩,
    ⟨"followersAtLeast", true, readNumberOf followersBuckets⟩], true⟩

def ageOverClaimsFor (threshold : Nat) : ObjectSchema :=
  ⟨[⟨"threshold", true, readNumberOf [threshold]⟩], false⟩

def residencyCountryClaims : ObjectSchema := ⟨[⟨"country", true, readText countryText⟩], false⟩

def residencyStateClaims : ObjectSchema :=
  ⟨[⟨"country", true, readText countryText⟩, ⟨"state", true, readText nonEmpty⟩], false⟩

def residencyCityClaims : ObjectSchema :=
  ⟨[⟨"country", true, readText countryText⟩, ⟨"state", true, readText nonEmpty⟩,
    ⟨"city", true, readText nonEmpty⟩], false⟩

def inviteCodeClaims : ObjectSchema := ⟨[⟨"label", true, readText nonEmpty⟩], false⟩

def tlsnAttestationClaims : ObjectSchema :=
  ⟨[⟨"domain", true, readText nonEmpty⟩, ⟨"claim", true, readText nonEmpty⟩], true⟩

def publicKeyClaims : ObjectSchema :=
  ⟨[⟨"kind", true, readOneOf publicKeyKinds⟩, ⟨"fingerprint", true, readText nonEmpty⟩,
    ⟨"algorithm", true, readText nonEmpty⟩], true⟩

def walletControlClaims : ObjectSchema := ⟨[⟨"chain", true, readOneOf walletChains⟩], true⟩

def walletAgeClaims : ObjectSchema :=
  ⟨[⟨"chain", true, readOneOf walletChains⟩,
    ⟨"olderThanMonths", true, readNumberOf accountAgeMonths⟩], true⟩

def onchainEventClaims : ObjectSchema := ⟨[⟨"event", true, readOneOf onchainEvents⟩], true⟩

def groupMembershipClaims : ObjectSchema :=
  ⟨[⟨"group", true, readText slugText⟩, ⟨"role", true, readOneOf groupRoles⟩,
    ⟨"groupId", true, readText nonEmpty⟩], true⟩

/-! ### The registry -/

def ageOverEntry (threshold : Nat) : BadgeTypeMeta :=
  ⟨"age-over-" ++ toString threshold, ageOverClaimsFor threshold, false⟩

/-- `GROUP_MEMBERSHIP_BADGE_TYPE`. -/
def groupMembershipBadgeType : String := "group-membership"

/-- `BADGE_TYPES`. -/
def badgeTypes (env : TextEnv) : List BadgeTypeMeta :=
  [⟨"email-domain", domainClaims env, false⟩,
    ⟨"email-exact", emailExactClaims env, false⟩,
    ⟨"domain-control", domainClaims env, false⟩,
    ⟨"oauth-account", oAuthAccountClaims, false⟩,
    ⟨"account-age", accountAgeClaims, false⟩,
    ⟨"social-following", socialFollowingClaims, false⟩,
    ⟨"residency-country", residencyCountryClaims, false⟩,
    ⟨"residency-state", residencyStateClaims, false⟩,
    ⟨"residency-city", residencyCityClaims, false⟩,
    ⟨"invite-code", inviteCodeClaims, false⟩,
    ⟨"tlsn-attestation", tlsnAttestationClaims, false⟩,
    ⟨"wallet-control", walletControlClaims, false⟩,
    ⟨"wallet-age", walletAgeClaims, false⟩,
    ⟨"onchain-event", onchainEventClaims, false⟩,
    ⟨"public-key", publicKeyClaims, false⟩,
    ⟨groupMembershipBadgeType, groupMembershipClaims, true⟩] ++
    ageThresholds.map ageOverEntry

def findBadgeType (env : TextEnv) (type : String) : Option BadgeTypeMeta :=
  (badgeTypes env).find? fun m => m.type = type

/-- The type is one the registry has under that name. -/
theorem findBadgeType_groupMembership (env : TextEnv) :
    findBadgeType env groupMembershipBadgeType =
      some ⟨groupMembershipBadgeType, groupMembershipClaims, true⟩ := rfl

/-! ### Credential types -/

/-- Each part between hyphens starts with a capital letter, and the hyphens go. -/
def pascalFrom (atStart : Bool) : List Char → List Char
  | [] => []
  | c :: rest =>
    if c = '-' then pascalFrom true rest
    else (if atStart then c.toUpper else c) :: pascalFrom false rest

/-- A slug is ASCII, so the first letter of a part is a single character. -/
def ministerCredentialType (badgeType : String) : String :=
  "Minister" ++ String.ofList (pascalFrom true badgeType.toList) ++ "Credential"

example : ministerCredentialType "email-domain" = "MinisterEmailDomainCredential" := by
  decide +kernel

/-- `SCHEMA_BY_CREDENTIAL_TYPE.get(t)`. -/
def schemaByCredentialType (env : TextEnv) : Json → Option ObjectSchema
  | .str t => ((badgeTypes env).find? fun m => ministerCredentialType m.type = t).map (·.schema)
  | _ => none

/-- The first type that is known decides; claims of no known type stay as they are. -/
def sanitizeDisclosedClaims (env : TextEnv) (claims : Members) (vcType : List Json) :
    Option Members :=
  match vcType.findSome? (schemaByCredentialType env) with
  | some schema => schema.parse claims
  | none => some claims

end Minister.Vc
