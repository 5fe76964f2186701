import Minister.Oidc.Consent
import Minister.Vc.BadgeTypes

/-!
# Issuing a badge

`issueBadge` inserts the row of a badge, signs its credential with `issueVc`, and writes the
credential into the row, all in one transaction: the caller's, or one of its own. It reads the
clock twice, for the `issuedAt` of the row and for the `iat` of the credential.

The signature is a parameter. Eligibilities and the audit log are left out.
-/

namespace Minister.Vc

open Codec Relational
open Oidc (AttrJson)

/-- The row of a badge with the columns that a disclosure reads. -/
structure StoredBadge extends Oidc.BadgeRow where
  vcJwt : String
  issuer : String
  expiresAt : Option Timestamp
  statusAnchor : Option String
  deriving DecidableEq, Repr

instance : Constrained StoredBadge where
  clash a b := clash a.toBadgeRow b.toBadgeRow
  clash_comm a b := Constrained.clash_comm a.toBadgeRow b.toBadgeRow

/-- A claim as the column `attributes` keeps it. -/
def attrOf : Json → AttrJson
  | .str text => .scalar (.string text)
  | .num (.fin q) => .scalar (.number q)
  | .bool b => .scalar (.boolean b)
  | _ => .composite

def attributesOf (members : Members) : List (String × AttrJson) :=
  members.map fun m => (m.1, attrOf m.2)

structure BadgeToIssue where
  type : String
  attributes : Members
  claims : Members
  expiresAt : Option Timestamp := none

structure IssueBadgeArgs where
  userId : UserId
  badge : BadgeToIssue
  dedupeKey : Option String := none
  nullifierRef : Option String := none
  statusAnchor : Option String := none

structure IssuerEnv where
  text : TextEnv
  issuer : Issuer
  domain : String
  /-- `signCompactJwt` with the issuer's signer, of a header and a payload. -/
  signCompactJwt : Json → Json → String

/-- The id of the new row, and the two reads of the clock. -/
structure Minting where
  badgeId : String
  createdAt : Timestamp
  signedAt : Timestamp
  deriving DecidableEq, Repr

/-- `groupMembershipAnchor`. -/
def groupMembershipAnchor (membershipId : String) : String := "gm:" ++ membershipId

/-- `genericBadgeAnchor`. -/
def genericBadgeAnchor (badgeId : String) : String := "badge:" ++ badgeId

/-- `statusListUrl`, given `oidcIssuerUrl()`. -/
def statusListUrl (oidcIssuerUrl listId : String) : String := oidcIssuerUrl ++ "/status/" ++ listId

/-- `buildUserDid`. -/
def buildUserDid (domain userId : String) : String := "did:web:" ++ domain ++ ":users:" ++ userId

/-- `durationToSeconds("1y")`. -/
def oneYearSeconds : Int := 31557600

/-- The header of every credential. -/
def vcHeader (issuer : Issuer) : Json :=
  .obj [("alg", .str "EdDSA"), ("kid", .str issuer.kid), ("typ", .str "vc+jwt")]

/-- The payload that `issueVc` signs. -/
def issuedPayload (issuer : Issuer) (badgeType subjectId jti : String) (claims : Members)
    (now : Timestamp) : Members :=
  [("vc", .obj
      [("@context", .arr [.str vcContext]),
        ("type", .arr [.str "VerifiableCredential", .str (ministerCredentialType badgeType)]),
        ("credentialSubject", .obj (assign [("id", .str subjectId)] claims))]),
    ("iss", .str issuer.did),
    ("sub", .str subjectId),
    ("iat", seconds now),
    ("jti", .str jti),
    ("exp", .num (.fin (now / 1000 + oneYearSeconds : Int)))]

def issueVc (env : IssuerEnv) (badgeType subjectId jti : String) (claims : Members)
    (now : Timestamp) : String :=
  env.signCompactJwt (vcHeader env.issuer)
    (.obj (issuedPayload env.issuer badgeType subjectId jti claims now))

/-- The anchor of the row: none for a type that cannot be revoked, else the caller's, else the
badge itself. -/
def statusAnchorOf (info : BadgeTypeMeta) (explicit : Option String) (badgeId : String) :
    Option String :=
  if info.revocable then some (explicit.getD (genericBadgeAnchor badgeId)) else none

/-- The row, once it carries its credential. -/
def newBadge (env : IssuerEnv) (args : IssueBadgeArgs) (minting : Minting) (info : BadgeTypeMeta)
    (claims : Members) : StoredBadge where
  id := minting.badgeId
  userId := args.userId
  type := args.badge.type
  dedupeKey := args.dedupeKey
  nullifierRef := args.nullifierRef
  attributes := attributesOf args.badge.attributes
  issuedAt := minting.createdAt
  vcJwt := issueVc env args.badge.type (buildUserDid env.domain args.userId) minting.badgeId claims
    minting.signedAt
  issuer := env.issuer.did
  expiresAt := args.badge.expiresAt
  statusAnchor := statusAnchorOf info args.statusAnchor minting.badgeId

def unknownBadgeType (type : String) : ServerError := .thrown s!"Unknown badge type: {type}"

/-- The table with the new row, or what is thrown: the type is unknown, the schema refuses the
claims, or a unique index refuses the row. -/
def issueBadge (env : IssuerEnv) (args : IssueBadgeArgs) (minting : Minting)
    (badges : List StoredBadge) : Except ServerError (List StoredBadge) :=
  match findBadgeType env.text args.badge.type with
  | none => .error (unknownBadgeType args.badge.type)
  | some info =>
    match info.schema.parse args.badge.claims with
    | none => .error (.thrown "ZodError")
    | some claims => stmt (create (newBadge env args minting info claims) badges)

/-- The payload that a call signs, unless it throws before. -/
def signedPayload (env : IssuerEnv) (args : IssueBadgeArgs) (minting : Minting) : Option Members :=
  (findBadgeType env.text args.badge.type).bind fun info =>
    (info.schema.parse args.badge.claims).map fun claims =>
      issuedPayload env.issuer args.badge.type (buildUserDid env.domain args.userId)
        minting.badgeId claims minting.signedAt

/-- The check of a signature answers for this string with the payload, as it was written. -/
def ReadsBack (vc : Env) (issuer : Issuer) (jwt : String) (payload : Members) : Prop :=
  vc.compactVerify jwt issuer.publicKey =
    some ⟨some (.str "vc+jwt"), some (Json.obj payload).written⟩

theorem issueBadge_eq_ok_iff {env : IssuerEnv} {args : IssueBadgeArgs} {minting : Minting}
    {badges badges' : List StoredBadge} :
    issueBadge env args minting badges = .ok badges' ↔
      ∃ info claims, findBadgeType env.text args.badge.type = some info ∧
        info.schema.parse args.badge.claims = some claims ∧
        Consistent (badges ++ [newBadge env args minting info claims]) ∧
        badges' = badges ++ [newBadge env args minting info claims] := by
  unfold issueBadge
  constructor
  · intro h
    split at h
    · cases h
    · rename_i info hinfo
      split at h
      · cases h
      · rename_i claims hclaims
        obtain ⟨hconsistent, rfl⟩ := create_eq_ok_iff.mp (stmt_eq_ok_iff.mp h)
        exact ⟨info, claims, hinfo, hclaims, hconsistent, rfl⟩
  · rintro ⟨info, claims, hinfo, hclaims, hconsistent, rfl⟩
    simp only [hinfo, hclaims]
    exact stmt_eq_ok_iff.mpr (create_eq_ok_iff.mpr ⟨hconsistent, rfl⟩)

/-! ### The credential as it is read -/

/-- What `readOriginal` gets of an issued credential. -/
def issuedOriginal (issuer : Issuer) (badgeType subjectId jti : String) (claims : Members)
    (now : Timestamp) : Original where
  decoded := Json.writtenMembers (issuedPayload issuer badgeType subjectId jti claims now)
  vc := Json.writtenMembers
    [("@context", .arr [.str vcContext]),
      ("type", .arr [.str "VerifiableCredential", .str (ministerCredentialType badgeType)]),
      ("credentialSubject", .obj (assign [("id", .str subjectId)] claims))]
  types := [.str "VerifiableCredential", .str (ministerCredentialType badgeType)]
  subject := Json.writtenMembers (assign [("id", .str subjectId)] claims)
  iat := .fin (now / 1000 : Int)

theorem issuedOriginal_isSigned {vc : Env} {issuer : Issuer} {badgeType subjectId jti jwt : String}
    {claims : Members} {now : Timestamp}
    (h : ReadsBack vc issuer jwt (issuedPayload issuer badgeType subjectId jti claims now)) :
    (issuedOriginal issuer badgeType subjectId jti claims now).IsSigned vc issuer jwt where
  verified := by
    rw [h, Json.written_obj]
    rfl
  iss := by
    rw [issuedOriginal, Json.member_writtenMembers]
    simp [issuedPayload, member]
  vc := by
    rw [issuedOriginal, Json.member_writtenMembers]
    simp [issuedPayload, member]
  types := by
    rw [issuedOriginal, Json.member_writtenMembers]
    simp [member, Json.written, Json.writtenElems]
  types_ne := List.cons_ne_nil _ _
  subject := by
    rw [issuedOriginal, Json.member_writtenMembers]
    simp [member]
  iat := by
    rw [issuedOriginal, Json.member_writtenMembers]
    simp [issuedPayload, member, seconds]

theorem issuedOriginal_exp {issuer : Issuer} {badgeType subjectId jti : String} {claims : Members}
    {now : Timestamp} : (issuedOriginal issuer badgeType subjectId jti claims now).exp =
      some (.fin (now / 1000 + oneYearSeconds : Int)) := by
  rw [Original.exp, issuedOriginal, Json.member_writtenMembers]
  simp [issuedPayload, member]

/-! ### A sample -/

def sampleIssuerEnv : IssuerEnv where
  text := ⟨id, fun _ => true⟩
  issuer := ⟨"did:web:ministry.id", "did:web:ministry.id#key-2", "pk"⟩
  domain := "ministry.id"
  signCompactJwt _ _ := "jwt"

end Minister.Vc
