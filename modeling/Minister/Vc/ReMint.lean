import Minister.Vc.IssuanceMonth

/-!
# Re-minting a stored credential

`reMintVc` reads a stored credential, checks that the issuer signed it, and signs a new one for one
relying party: another subject, another id, the claims as a hook leaves them, the issuance instant
only as a month, and a lifetime that is short and no longer than the stored one.

The check of the signature is a parameter: it answers with the protected header's `typ` and the
payload exactly for the strings that were signed with the issuer's key. The new credential is
given by its header and payload; the payload is what a reader gets from the written JSON. A hook
returns an object, as its type says. The `cause` that the refusal of an unsigned credential carries
is left out.

Three things of the stored credential come through otherwise than they went in. A month is cut off
when its year has not four digits, and an instant that is no whole millisecond may be rounded into
another month. A claim named `__proto__` is lost, because assigning to that key sets the prototype.
An `exp` below the range of a double becomes `null`. Now plus a lifetime beyond `2 ^ 53` is rounded.
-/

namespace Minister.Vc

open Codec Relational

abbrev Members := List (String × Json)

/-! ### Inputs -/

structure Issuer where
  did : String
  kid : String
  publicKey : String

/-- What the check of a signature returns: the `typ` of the header, and the payload unless it is no
JSON. -/
structure Verified where
  typ : Option Json
  payload : Option Json

structure Env where
  /-- The JWT and the key it is checked against, for `EdDSA` only. -/
  compactVerify : String → String → Option Verified

structure CredentialStatusEntry where
  id : String
  statusListIndex : String
  statusListCredential : String

def CredentialStatusEntry.toJson (e : CredentialStatusEntry) : Json :=
  .obj [("id", .str e.id), ("type", .str "BitstringStatusListEntry"),
    ("statusPurpose", .str "revocation"), ("statusListIndex", .str e.statusListIndex),
    ("statusListCredential", .str e.statusListCredential)]

structure ReMintOptions where
  subjectId : String
  jti : String
  maxExpiresAt : Option Timestamp := none
  notBefore : Option Timestamp := none
  sanitizeClaims : Option (Members → List Json → Members) := none
  disclosureTtlSeconds : Option Number := none
  nullifier : Option String := none
  credentialStatus : Option CredentialStatusEntry := none

structure Credential where
  header : Json
  payload : Json

/-- `VC_CONTEXT`. -/
def vcContext : String := "https://www.w3.org/ns/credentials/v2"

/-- `RESERVED_CREDENTIAL_SUBJECT_KEYS`. -/
def reservedKeys : List String := ["id", "issuanceMonth", "nullifier"]

/-- `DEFAULT_DISCLOSURE_TTL_SECONDS`. -/
def defaultDisclosureTtlSeconds : Number := .fin (60 * 60)

/-! ### The stored credential -/

def isText (x : Option Json) (text : String) : Bool :=
  match x with
  | some (.str s) => s = text
  | _ => false

def verificationError : String :=
  "reMintVc: original VC failed verification against the issuer key — refusing to re-sign " ++
    "unverified content"

/-- The payload, if the issuer signed it as a credential of its own. -/
def verifyOriginal (env : Env) (issuer : Issuer) (originalVcJwt : String) :
    Except String Members :=
  match env.compactVerify originalVcJwt issuer.publicKey with
  | none => .error verificationError
  | some verified =>
    if isText verified.typ "vc+jwt" then
      match verified.payload with
      | some (.obj decoded) =>
        if isText (member decoded "iss") issuer.did then .ok decoded
        else .error verificationError
      | _ => .error verificationError
    else .error verificationError

def requireObject (message : String) : Option Json → Except String Members
  | some (.obj members) => .ok members
  | _ => .error message

def requireTypes : Option Json → Except String (List Json)
  | some (.arr (type :: types)) => .ok (type :: types)
  | _ => .error "reMintVc: original VC `type` is not a non-empty array"

def requireIat : Option Json → Except String Number
  | some (.num iat) => .ok iat
  | _ => .error
    "reMintVc: original VC has no numeric `iat` — cannot derive an honest issuance bucket"

/-- What is read of a stored credential. -/
structure Original where
  decoded : Members
  vc : Members
  types : List Json
  subject : Members
  iat : Number

/-- The `exp`, if it is a number. -/
def Original.exp (o : Original) : Option Number :=
  match member o.decoded "exp" with
  | some (.num exp) => some exp
  | _ => none

def readOriginal (env : Env) (issuer : Issuer) (originalVcJwt : String) :
    Except String Original := do
  let decoded ← verifyOriginal env issuer originalVcJwt
  let vc ← requireObject "reMintVc: original VC is missing its `vc` claim" (member decoded "vc")
  let types ← requireTypes (member vc "type")
  let subject ← requireObject "reMintVc: original VC is missing `credentialSubject`"
    (member vc "credentialSubject")
  let iat ← requireIat (member decoded "iat")
  return ⟨decoded, vc, types, subject, iat⟩

/-! ### The new credential -/

/-- The claims that are handed to the hook. -/
def nonReserved (subject : Members) : Members := subject.filter fun m => m.1 ∉ reservedKeys

/-- The claims as the hook leaves them. -/
def sanitizedClaims (options : ReMintOptions) (o : Original) : Members :=
  match options.sanitizeClaims with
  | some sanitize => sanitize (nonReserved o.subject) o.types
  | none => nonReserved o.subject

/-- Whether `out[key] = value` adds a member: an assignment to `__proto__` sets the prototype. -/
def isAssignable (key : String) : Bool := key ∉ reservedKeys ∧ key ≠ "__proto__"

/-- The keys of an object are unique, so every assignment adds a member. -/
def stripReservedClaims (claims : Members) : Members := claims.filter fun m => isAssignable m.1

def credentialSubject (options : ReMintOptions) (claims : Members) (month : String) : Members :=
  assign (stripReservedClaims claims)
    ([("id", .str options.subjectId), ("issuanceMonth", .str month)] ++
      options.nullifier.toList.map fun nullifier => ("nullifier", .str nullifier))

/-- `original["@context"] ?? [VC_CONTEXT]`. -/
def contextOrDefault : Option Json → Json
  | none | some .null => .arr [.str vcContext]
  | some context => context

def vcClaim (options : ReMintOptions) (o : Original) (month : String) : Members :=
  [("@context", contextOrDefault (member o.vc "@context")),
    ("type", .arr o.types),
    ("credentialSubject", .obj (credentialSubject options (sanitizedClaims options o) month))] ++
    options.credentialStatus.toList.map fun entry => ("credentialStatus", entry.toJson)

def requireTtl (options : ReMintOptions) : Except String Int :=
  match options.disclosureTtlSeconds.getD defaultDisclosureTtlSeconds with
  | .fin ttl =>
    if ttl.den = 1 ∧ 0 < ttl.num then .ok ttl.num
    else .error "reMintVc: disclosureTtlSeconds must be a positive integer"
  | _ => .error "reMintVc: disclosureTtlSeconds must be a positive integer"

def ReMintOptions.cap (options : ReMintOptions) : Option Number :=
  options.maxExpiresAt.map fun ms => .fin (ms / 1000 : Int)

/-- The new `exp`. The sum is a double, and not infinite, since the clock's share of a very large
one is rounded away. -/
def expSeconds (nowSec ttl : Int) (originalExp cap : Option Number) : Number :=
  let exp : Number := .fin (nearest (nowSec + ttl : Int))
  let exp :=
    match originalExp with
    | some original => exp.min original
    | none => exp
  match cap with
  | some cap => exp.min cap
  | none => exp

def seconds (ms : Timestamp) : Json := .num (.fin (ms / 1000 : Int))

def newPayload (issuer : Issuer) (now : Timestamp) (options : ReMintOptions) (o : Original)
    (month : String) (ttl : Int) : Members :=
  [("vc", .obj (vcClaim options o month)),
    ("iss", .str issuer.did),
    ("sub", .str options.subjectId),
    ("iat", seconds now),
    ("nbf", seconds (options.notBefore.getD now)),
    ("jti", .str options.jti),
    ("exp", .num (expSeconds (now / 1000) ttl o.exp options.cap))]

/-- `signCompactJwt`, up to the signature. -/
def mint (issuer : Issuer) (now : Timestamp) (options : ReMintOptions) (o : Original)
    (month : String) (ttl : Int) : Credential where
  header := .obj [("alg", .str "EdDSA"), ("kid", .str issuer.kid), ("typ", .str "vc+jwt")]
  payload := Json.written (.obj (newPayload issuer now options o month ttl))

def reMintVc (env : Env) (issuer : Issuer) (now : Timestamp) (originalVcJwt : String)
    (options : ReMintOptions) : Except String Credential := do
  let o ← readOriginal env issuer originalVcJwt
  let month ← issuanceMonthOf o.iat
  let ttl ← requireTtl options
  if o.exp = none ∧ options.cap = none then
    .error "reMintVc: cannot determine exp (original VC has no `exp` and no maxExpiresAt)"
  else .ok (mint issuer now options o month ttl)

/-! ### What is read -/

/-- The stored string was signed with the issuer's key, as a credential of this issuer, and these
are its parts. -/
structure Original.IsSigned (o : Original) (env : Env) (issuer : Issuer) (jwt : String) : Prop where
  verified : env.compactVerify jwt issuer.publicKey =
    some ⟨some (.str "vc+jwt"), some (.obj o.decoded)⟩
  iss : member o.decoded "iss" = some (.str issuer.did)
  vc : member o.decoded "vc" = some (.obj o.vc)
  types : member o.vc "type" = some (.arr o.types)
  types_ne : o.types ≠ []
  subject : member o.vc "credentialSubject" = some (.obj o.subject)
  iat : member o.decoded "iat" = some (.num o.iat)

section Reading

variable {env : Env} {issuer : Issuer} {jwt : String} {now : Timestamp} {options : ReMintOptions}
  {x : Option Json} {o : Original}

theorem isText_iff {text : String} : isText x text = true ↔ x = some (.str text) := by
  unfold isText
  split
  · simp
  · rename_i hnot
    simp only [Bool.false_eq_true, false_iff]
    rintro rfl
    exact hnot text rfl

theorem verifyOriginal_eq_ok_iff {decoded : Members} :
    verifyOriginal env issuer jwt = .ok decoded ↔
      env.compactVerify jwt issuer.publicKey =
          some ⟨some (.str "vc+jwt"), some (.obj decoded)⟩ ∧
        member decoded "iss" = some (.str issuer.did) := by
  unfold verifyOriginal
  constructor
  · intro h
    split at h
    · cases h
    · rename_i verified hverified
      split_ifs at h with htyp
      split at h
      · rename_i members hpayload
        split_ifs at h with hiss
        obtain rfl := Except.ok.inj h
        obtain ⟨typ, payload⟩ := verified
        obtain rfl := isText_iff.mp htyp
        obtain rfl : payload = some (.obj members) := hpayload
        exact ⟨hverified, isText_iff.mp hiss⟩
      · cases h
  · rintro ⟨hverified, hiss⟩
    rw [hverified]
    simp [isText, hiss]

theorem requireObject_eq_ok_iff {message : String} {members : Members} :
    requireObject message x = .ok members ↔ x = some (.obj members) := by
  unfold requireObject
  split
  · simp
  · rename_i hnot
    simp only [reduceCtorEq, false_iff]
    rintro rfl
    exact hnot members rfl

theorem requireTypes_eq_ok_iff {types : List Json} :
    requireTypes x = .ok types ↔ x = some (.arr types) ∧ types ≠ [] := by
  unfold requireTypes
  split
  · rename_i type rest
    constructor
    · intro h
      cases h
      exact ⟨rfl, List.cons_ne_nil _ _⟩
    · rintro ⟨h, -⟩
      rw [Json.arr.inj (Option.some.inj h)]
  · rename_i hnot
    simp only [reduceCtorEq, false_iff]
    rintro ⟨rfl, hne⟩
    obtain ⟨type, rest, rfl⟩ := List.exists_cons_of_ne_nil hne
    exact hnot type rest rfl

theorem requireIat_eq_ok_iff {iat : Number} : requireIat x = .ok iat ↔ x = some (.num iat) := by
  unfold requireIat
  split
  · simp
  · rename_i hnot
    simp only [reduceCtorEq, false_iff]
    rintro rfl
    exact hnot iat rfl

theorem readOriginal_eq_ok_iff :
    readOriginal env issuer jwt = .ok o ↔ o.IsSigned env issuer jwt := by
  unfold readOriginal
  constructor
  · intro h
    obtain ⟨decoded, hdecoded, h⟩ := bind_eq_ok_iff.mp h
    obtain ⟨vc, hvc, h⟩ := bind_eq_ok_iff.mp h
    obtain ⟨types, htypes, h⟩ := bind_eq_ok_iff.mp h
    obtain ⟨subject, hsubject, h⟩ := bind_eq_ok_iff.mp h
    obtain ⟨iat, hiat, h⟩ := bind_eq_ok_iff.mp h
    cases h
    obtain ⟨hverified, hiss⟩ := verifyOriginal_eq_ok_iff.mp hdecoded
    obtain ⟨htypes, hne⟩ := requireTypes_eq_ok_iff.mp htypes
    exact ⟨hverified, hiss, requireObject_eq_ok_iff.mp hvc, htypes, hne,
      requireObject_eq_ok_iff.mp hsubject, requireIat_eq_ok_iff.mp hiat⟩
  · intro h
    rw [verifyOriginal_eq_ok_iff.mpr ⟨h.verified, h.iss⟩, ok_bind,
      requireObject_eq_ok_iff.mpr h.vc, ok_bind,
      requireTypes_eq_ok_iff.mpr ⟨h.types, h.types_ne⟩, ok_bind,
      requireObject_eq_ok_iff.mpr h.subject, ok_bind, requireIat_eq_ok_iff.mpr h.iat, ok_bind]
    rfl

/-- A string has been signed with one content. -/
theorem Original.IsSigned.unique {o' : Original} (h : o.IsSigned env issuer jwt)
    (h' : o'.IsSigned env issuer jwt) : o = o' :=
  Except.ok.inj ((readOriginal_eq_ok_iff.mpr h).symm.trans (readOriginal_eq_ok_iff.mpr h'))

theorem requireTtl_eq_ok_iff {ttl : Int} :
    requireTtl options = .ok ttl ↔
      options.disclosureTtlSeconds.getD defaultDisclosureTtlSeconds = .fin ttl ∧ 0 < ttl := by
  unfold requireTtl
  split
  · rename_i q hq
    constructor
    · intro h
      split_ifs at h with hint
      cases h
      exact ⟨hq.trans (congrArg Number.fin ((Rat.den_eq_one_iff q).mp hint.1).symm), hint.2⟩
    · rintro ⟨h, hpos⟩
      obtain rfl := Number.fin.inj (hq.symm.trans h)
      simp [hpos]
  · rename_i hnot
    simp only [reduceCtorEq, false_iff]
    rintro ⟨h, -⟩
    exact hnot _ h

theorem reMintVc_eq_ok_iff {c : Credential} :
    reMintVc env issuer now jwt options = .ok c ↔
      ∃ o month ttl, o.IsSigned env issuer jwt ∧ issuanceMonthOf o.iat = .ok month ∧
        requireTtl options = .ok ttl ∧ ¬ (o.exp = none ∧ options.cap = none) ∧
          c = mint issuer now options o month ttl := by
  unfold reMintVc
  constructor
  · intro h
    obtain ⟨o, ho, h⟩ := bind_eq_ok_iff.mp h
    obtain ⟨month, hmonth, h⟩ := bind_eq_ok_iff.mp h
    obtain ⟨ttl, httl, h⟩ := bind_eq_ok_iff.mp h
    split_ifs at h with hnone
    exact ⟨o, month, ttl, readOriginal_eq_ok_iff.mp ho, hmonth, httl, hnone,
      (Except.ok.inj h).symm⟩
  · rintro ⟨o, month, ttl, ho, hmonth, httl, hnone, rfl⟩
    rw [readOriginal_eq_ok_iff.mpr ho, ok_bind, hmonth, ok_bind, httl, ok_bind, if_neg hnone]

end Reading

/-! ### What is written -/

section Writing

variable {issuer : Issuer} {now : Timestamp} {options : ReMintOptions} {o : Original}
  {month : String} {ttl : Int} {claims : Members} {key : String}

theorem keys?_mint {path : List String} :
    (mint issuer now options o month ttl).payload.keys? path =
      ((Json.obj (newPayload issuer now options o month ttl)).keys? path).map Json.written :=
  Json.at?_written

theorem keys?_cons {members : Members} {path : List String} :
    (Json.obj members).keys? (key :: path) = (member members key).bind (·.keys? path) := rfl

theorem keys?_nil {x : Json} : x.keys? [] = some x := rfl

theorem member_vcClaim_credentialSubject : member (vcClaim options o month) "credentialSubject" =
    some (.obj (credentialSubject options (sanitizedClaims options o) month)) := by
  simp [vcClaim, member]

theorem member_vcClaim_credentialStatus : member (vcClaim options o month) "credentialStatus" =
    options.credentialStatus.map CredentialStatusEntry.toJson := by
  cases h : options.credentialStatus <;> simp [vcClaim, member, h]

theorem member_newPayload_vc : member (newPayload issuer now options o month ttl) "vc" =
    some (.obj (vcClaim options o month)) := by
  simp [newPayload, member]

/-- What the new subject says under a key. -/
theorem keys?_subject : (Json.obj (newPayload issuer now options o month ttl)).keys?
      ["vc", "credentialSubject", key] =
    member (credentialSubject options (sanitizedClaims options o) month) key := by
  rw [keys?_cons, member_newPayload_vc, Option.bind_some, keys?_cons,
    member_vcClaim_credentialSubject, Option.bind_some, keys?_cons]
  cases member (credentialSubject options (sanitizedClaims options o) month) key <;> rfl

theorem member_stamps_of_not_reserved (hkey : key ∉ reservedKeys) :
    member ([("id", .str options.subjectId), ("issuanceMonth", .str month)] ++
      options.nullifier.toList.map fun nullifier => ("nullifier", .str nullifier)) key = none := by
  simp only [reservedKeys, List.mem_cons, List.not_mem_nil, or_false, not_or] at hkey
  obtain ⟨hid, hmonth, hnullifier⟩ := hkey
  cases h : options.nullifier <;>
    simp [member, Ne.symm hid, Ne.symm hmonth, Ne.symm hnullifier]

/-- A claim that is not reserved comes from the sanitized claims, unless it is `__proto__`. -/
theorem member_credentialSubject_of_not_reserved (hkey : key ∉ reservedKeys) :
    member (credentialSubject options claims month) key =
      if key = "__proto__" then none else member claims key := by
  unfold credentialSubject
  rw [member_assign, member_stamps_of_not_reserved hkey, Option.none_or]
  split_ifs with hproto
  · exact member_filter_of_neg (p := isAssignable) (by simp [isAssignable, hproto])
  · exact member_filter_of_pos (p := isAssignable) (by simp [isAssignable, hproto, hkey])

theorem member_credentialSubject_id :
    member (credentialSubject options claims month) "id" = some (.str options.subjectId) := by
  unfold credentialSubject
  rw [member_assign]
  simp [member]

theorem member_credentialSubject_issuanceMonth :
    member (credentialSubject options claims month) "issuanceMonth" = some (.str month) := by
  unfold credentialSubject
  rw [member_assign]
  simp [member]

/-- The month can be read off the payload. -/
theorem keys?_issuanceMonth : (mint issuer now options o month ttl).payload.keys?
    ["vc", "credentialSubject", "issuanceMonth"] = some (.str month) := by
  rw [keys?_mint, keys?_subject, member_credentialSubject_issuanceMonth, Option.map_some,
    Json.written_str]

/-- A nullifier is there only if it was given: the sanitized claims cannot bring one in. -/
theorem member_credentialSubject_nullifier :
    member (credentialSubject options claims month) "nullifier" = options.nullifier.map .str := by
  unfold credentialSubject
  rw [member_assign]
  have hstripped : member (stripReservedClaims claims) "nullifier" = none :=
    member_filter_of_neg (p := isAssignable) (by decide)
  rw [hstripped, Option.or_none]
  cases h : options.nullifier <;> simp [member]

theorem written_toJson (e : CredentialStatusEntry) : e.toJson.written = e.toJson := by
  simp [CredentialStatusEntry.toJson, Json.writtenMembers]

/-- The status entry can be read off the payload. -/
theorem keys?_credentialStatus : (mint issuer now options o month ttl).payload.keys?
    ["vc", "credentialStatus"] = options.credentialStatus.map CredentialStatusEntry.toJson := by
  rw [keys?_mint, keys?_cons, member_newPayload_vc, Option.bind_some, keys?_cons,
    member_vcClaim_credentialStatus]
  cases options.credentialStatus <;> simp [keys?_nil, written_toJson]

end Writing

/-! ### The contract -/

/-- The least of the candidates. -/
def IsLeast (x : Number) (candidates : List Number) : Prop :=
  x ∈ candidates ∧ ∀ y ∈ candidates, ¬ Number.lt y x

/-- What a credential re-minted from the original has to look like. -/
structure Contract (now : Timestamp) (options : ReMintOptions) (o : Original) (c : Credential) :
    Prop where
  sub : c.payload.keys? ["sub"] = some (.str options.subjectId)
  id : c.payload.keys? ["vc", "credentialSubject", "id"] = some (.str options.subjectId)
  issuanceMonth : ∃ iat, o.iat = .fin iat ∧
    c.payload.keys? ["vc", "credentialSubject", "issuanceMonth"] =
      some (.str (String.ofList (isoMonth (utcMonth iat))))
  nullifier : c.payload.keys? ["vc", "credentialSubject", "nullifier"] =
    options.nullifier.map .str
  credentialStatus : c.payload.keys? ["vc", "credentialStatus"] =
    options.credentialStatus.map CredentialStatusEntry.toJson
  claims : ∀ key, key ∉ reservedKeys → c.payload.keys? ["vc", "credentialSubject", key] =
    (member (sanitizedClaims options o) key).map Json.written
  exp : ∃ (exp : Number) (ttl : Int),
    options.disclosureTtlSeconds.getD defaultDisclosureTtlSeconds = .fin ttl ∧
      c.payload.keys? ["exp"] = some (.num exp) ∧
      IsLeast exp (.fin (now / 1000 + ttl : Int) :: o.exp.toList ++ options.cap.toList)

/-- The sum is a double, or another candidate is not above it, exact or rounded. -/
def SumUnrounded (sum : Int) (others : List Number) : Prop :=
  nearest sum = sum ∨
    ∃ m ∈ others, ¬ Number.lt (.fin (nearest sum)) m ∧ ¬ Number.lt (.fin sum) m

/-- The original's `iat` lies in a year of four digits and in the month of its whole millisecond,
no sanitized claim is named `__proto__`, its `exp` is not below every double, and now plus the
lifetime does not show as rounded. -/
structure Plain (now : Timestamp) (options : ReMintOptions) (o : Original) : Prop where
  issuanceMonth : ∃ iat, o.iat = .fin iat ∧ FourDigits (utcMonth iat).year ∧
    monthOfMs (truncatedMs iat) = utcMonth iat
  claims : member (sanitizedClaims options o) "__proto__" = none
  exp_ne : o.exp ≠ some .negInf
  sum : ∀ ttl : Int, options.disclosureTtlSeconds.getD defaultDisclosureTtlSeconds = .fin ttl →
    SumUnrounded (now / 1000 + ttl) (o.exp.toList ++ options.cap.toList)

section Contract

variable {env : Env} {issuer : Issuer} {jwt : String} {now : Timestamp} {options : ReMintOptions}
  {o : Original} {month : String} {ttl : Int} {c : Credential}
variable {nowSec : Int} {originalExp cap : Option Number}

/-- Another first candidate makes no difference if one of the rest is below both. -/
theorem isLeast_cons_iff {x e s : Number} {others : List Number} (h : IsLeast x (e :: others)) :
    IsLeast x (s :: others) ↔
      e = s ∨ ∃ m ∈ others, ¬ Number.lt e m ∧ ¬ Number.lt s m := by
  constructor
  · intro hs
    rcases List.mem_cons.mp h.1 with rfl | hx
    · refine (List.mem_cons.mp hs.1).imp_right fun hx => ?_
      exact ⟨x, hx, h.2 x List.mem_cons_self, hs.2 s List.mem_cons_self⟩
    · exact .inr ⟨x, hx, h.2 e List.mem_cons_self, hs.2 s List.mem_cons_self⟩
  · rintro (rfl | ⟨m, hm, he, hs⟩)
    · exact h
    · have hmx := h.2 m (List.mem_cons_of_mem e hm)
      refine ⟨List.mem_cons_of_mem s ?_, List.forall_mem_cons.mpr
        ⟨Number.not_lt_trans hmx hs, fun y hy => h.2 y (List.mem_cons_of_mem e hy)⟩⟩
      rcases List.mem_cons.mp h.1 with rfl | hx
      · rwa [Number.eq_of_not_lt he hmx]
      · exact hx

/-- The chain of minima is the least candidate. -/
theorem isLeast_expSeconds :
    IsLeast (expSeconds nowSec ttl originalExp cap)
      (.fin (nearest (nowSec + ttl : Int)) :: (originalExp.toList ++ cap.toList)) := by
  have hmin {x y : Number} {rest : List Number} (hx : IsLeast x rest) :
      IsLeast (x.min y) (rest ++ [y]) := by
    constructor
    · rcases Number.min_eq_or (x := x) (y := y) with h | h
      · rw [h]
        exact List.mem_append_left _ hx.1
      · rw [h]
        exact List.mem_append_right _ (List.mem_singleton_self y)
    · intro z hz
      rcases List.mem_append.mp hz with hrest | hlast
      · exact Number.not_lt_trans Number.not_lt_min_left (hx.2 z hrest)
      · rw [List.mem_singleton.mp hlast]
        exact Number.not_lt_min_right
  have hbase : IsLeast (.fin (nearest (nowSec + ttl : Int)))
      [.fin (nearest (nowSec + ttl : Int))] := by
    constructor
    · exact List.mem_singleton_self _
    · intro y hy
      rw [List.mem_singleton.mp hy]
      exact lt_irrefl _
  cases originalExp with
  | none =>
    cases cap with
    | none => exact hbase
    | some cap => exact hmin hbase
  | some originalExp =>
    cases cap with
    | none => exact hmin hbase
    | some cap => exact hmin (hmin hbase)

theorem expSeconds_eq_negInf_iff :
    expSeconds nowSec ttl originalExp options.cap = .negInf ↔ originalExp = some .negInf := by
  have hcap : options.cap ≠ some .negInf := by
    unfold ReMintOptions.cap
    cases options.maxExpiresAt <;> simp
  unfold expSeconds
  cases originalExp <;> cases hopt : options.cap <;>
    simp_all [Number.min_eq_negInf_iff]

/-- The new `exp` is no upper infinity, since it has a finite candidate. -/
theorem expSeconds_ne_posInf : expSeconds nowSec ttl originalExp cap ≠ .posInf := by
  unfold expSeconds
  cases originalExp <;> cases cap <;> simp [Number.min_eq_posInf_iff]

/-- The new `exp` is a number in the written credential exactly when the original's is not below
every double, and the least candidate when the sum does not show as rounded. -/
theorem exp_written_iff :
    (∃ exp, (mint issuer now options o month ttl).payload.keys? ["exp"] = some (.num exp) ∧
      IsLeast exp (.fin (now / 1000 + ttl : Int) :: o.exp.toList ++ options.cap.toList)) ↔
      o.exp ≠ some .negInf ∧
        SumUnrounded (now / 1000 + ttl) (o.exp.toList ++ options.cap.toList) := by
  have hkey : (mint issuer now options o month ttl).payload.keys? ["exp"] =
      some (Json.written (.num (expSeconds (now / 1000) ttl o.exp options.cap))) := by
    rw [keys?_mint, keys?_cons]
    have hmem : member (newPayload issuer now options o month ttl) "exp" =
        some (.num (expSeconds (now / 1000) ttl o.exp options.cap)) := by
      simp [newPayload, member]
    rw [hmem]
    rfl
  rw [hkey]
  have hleast : IsLeast (expSeconds (now / 1000) ttl o.exp options.cap) _ := isLeast_expSeconds
  have hiff := isLeast_cons_iff (s := .fin (now / 1000 + ttl : Int)) hleast
  rw [Number.fin.injEq] at hiff
  cases hexp : expSeconds (now / 1000) ttl o.exp options.cap with
  | negInf =>
    rw [Json.written]
    refine iff_of_false ?_ fun h => h.1 (expSeconds_eq_negInf_iff.mp hexp)
    rintro ⟨exp, hexp, -⟩
    cases hexp
  | posInf => exact absurd hexp expSeconds_ne_posInf
  | fin q =>
    have hne : o.exp ≠ some .negInf := fun h => by
      rw [expSeconds_eq_negInf_iff.mpr h] at hexp
      cases hexp
    rw [hexp] at hiff
    rw [Json.written_fin]
    constructor
    · rintro ⟨exp, hexp, hleast⟩
      cases hexp
      exact ⟨hne, hiff.mp hleast⟩
    · intro h
      exact ⟨.fin q, rfl, hiff.mpr h.2⟩

/-- The month that is written is the month of `iat` when its year has four digits and rounding to
a whole millisecond does not leave it. -/
theorem month_written_iff (hmonth : issuanceMonthOf o.iat = .ok month) :
    (∃ iat, o.iat = .fin iat ∧ month = String.ofList (isoMonth (utcMonth iat))) ↔
      ∃ iat, o.iat = .fin iat ∧ FourDigits (utcMonth iat).year ∧
        monthOfMs (truncatedMs iat) = utcMonth iat := by
  obtain ⟨ms, hdate, rfl⟩ := issuanceMonthOf_eq_ok_iff.mp hmonth
  have hiff {iat : Rat} (hiat : o.iat = .fin iat) :
      String.ofList ((isoMonth (monthOfMs ms)).take 7) = String.ofList (isoMonth (utcMonth iat)) ↔
        FourDigits (utcMonth iat).year ∧ monthOfMs (truncatedMs iat) = utcMonth iat := by
    have hchars : (isoMonth (monthOfMs ms)).take 7 = isoMonth (utcMonth iat) ↔
        monthOfMs ms = utcMonth iat ∧ FourDigits (utcMonth iat).year :=
      take_isoMonth_eq_iff (month_lt _) (month_lt _)
    have hms : ms = truncatedMs iat := (dateOfSeconds_eq_some (hiat ▸ hdate)).1
    rw [String.ofList_inj, hchars, hms, and_comm]
  constructor
  · rintro ⟨iat, hiat, h⟩
    exact ⟨iat, hiat, (hiff hiat).mp h⟩
  · rintro ⟨iat, hiat, h⟩
    exact ⟨iat, hiat, (hiff hiat).mpr h⟩

/-- The claims that are written are the sanitized ones when none is named `__proto__`. -/
theorem claims_written_iff :
    (∀ key, key ∉ reservedKeys → (mint issuer now options o month ttl).payload.keys?
        ["vc", "credentialSubject", key] =
      (member (sanitizedClaims options o) key).map Json.written) ↔
      member (sanitizedClaims options o) "__proto__" = none := by
  have hkey (key : String) (h : key ∉ reservedKeys) :
      (mint issuer now options o month ttl).payload.keys? ["vc", "credentialSubject", key] =
        (if key = "__proto__" then none else member (sanitizedClaims options o) key).map
          Json.written := by
    rw [keys?_mint, keys?_subject, member_credentialSubject_of_not_reserved h]
  constructor
  · intro h
    have hproto := h "__proto__" (by decide)
    rw [hkey "__proto__" (by decide), if_pos rfl, Option.map_none] at hproto
    exact Option.map_eq_none_iff.mp hproto.symm
  · intro h key hres
    rw [hkey key hres]
    split_ifs with hproto
    · rw [hproto, h]
    · rfl

/-- What is minted keeps the contract exactly when the original is plain. -/
theorem contract_mint_iff (hmonth : issuanceMonthOf o.iat = .ok month)
    (hopt : options.disclosureTtlSeconds.getD defaultDisclosureTtlSeconds = .fin ttl) :
    Contract now options o (mint issuer now options o month ttl) ↔ Plain now options o := by
  have httl {ttl' : Int} (hopt' : options.disclosureTtlSeconds.getD
      defaultDisclosureTtlSeconds = .fin ttl') : ttl = ttl' := by
    exact_mod_cast Number.fin.inj (hopt.symm.trans hopt')
  constructor
  · intro hc
    obtain ⟨exp, ttl', hopt', hwritten, hleast⟩ := hc.exp
    obtain rfl := httl hopt'
    obtain ⟨hne, hsum⟩ := exp_written_iff.mp ⟨exp, hwritten, hleast⟩
    refine ⟨(month_written_iff hmonth).mp ?_, claims_written_iff.mp hc.claims, hne, ?_⟩
    · obtain ⟨iat, hiat, hwritten⟩ := hc.issuanceMonth
      rw [keys?_issuanceMonth] at hwritten
      exact ⟨iat, hiat, Json.str.inj (Option.some.inj hwritten)⟩
    · intro ttl' hopt'
      obtain rfl := httl hopt'
      exact hsum
  · intro hp
    obtain ⟨iat, hiat, hwritten⟩ := (month_written_iff hmonth).mpr hp.issuanceMonth
    have hexp : ∃ exp, (mint issuer now options o month ttl).payload.keys? ["exp"] =
        some (.num exp) ∧ _ := exp_written_iff.mpr ⟨hp.exp_ne, hp.sum ttl hopt⟩
    obtain ⟨exp, hexp, hleast⟩ := hexp
    exact
      { sub := by
          rw [keys?_mint, keys?_cons]
          simp [newPayload, member, keys?_nil]
        id := by
          rw [keys?_mint, keys?_subject, member_credentialSubject_id, Option.map_some,
            Json.written_str]
        issuanceMonth := ⟨iat, hiat, hwritten ▸ keys?_issuanceMonth⟩
        nullifier := by
          rw [keys?_mint, keys?_subject, member_credentialSubject_nullifier]
          cases options.nullifier <;> simp
        credentialStatus := by
          rw [keys?_credentialStatus]
        claims := claims_written_iff.mpr hp.claims
        exp := ⟨exp, ttl, hopt, hexp, hleast⟩ }

/-- A credential is re-minted only from one the issuer signed, and it keeps the contract exactly
when that one is plain. -/
theorem contract_iff (h : reMintVc env issuer now jwt options = .ok c) :
    ∃ o : Original, o.IsSigned env issuer jwt ∧
      (Contract now options o c ↔ Plain now options o) := by
  obtain ⟨o, month, ttl, ho, hmonth, httl, -, rfl⟩ := reMintVc_eq_ok_iff.mp h
  exact ⟨o, ho, contract_mint_iff hmonth (requireTtl_eq_ok_iff.mp httl).1⟩

end Contract

/-! ### Credentials that are not plain -/

section Samples

/-- The issuer of the samples, who signed one string. -/
def sampleIssuer : Issuer := ⟨"did:web:minister.example", "key-2", "pk"⟩

/-- The payload of a stored credential. -/
def samplePayload (iat : Rat) (claims : Members) : Members :=
  [("iss", .str "did:web:minister.example"), ("iat", .num (.fin iat)),
    ("exp", .num (.fin (iat + 31557600))),
    ("vc", .obj [("type", .arr [.str "VerifiableCredential"]),
      ("credentialSubject", .obj (("id", .str "did:web:minister.example:u:1") :: claims))])]

def sampleEnv (iat : Rat) (claims : Members) : Env where
  compactVerify := fun _ _ => some ⟨some (.str "vc+jwt"), some (.obj (samplePayload iat claims))⟩

def sampleOriginal (iat : Rat) (claims : Members) : Original where
  decoded := samplePayload iat claims
  vc := [("type", .arr [.str "VerifiableCredential"]),
    ("credentialSubject", .obj (("id", .str "did:web:minister.example:u:1") :: claims))]
  types := [.str "VerifiableCredential"]
  subject := ("id", .str "did:web:minister.example:u:1") :: claims
  iat := .fin iat

theorem sampleOriginal_isSigned (iat : Rat) (claims : Members) :
    (sampleOriginal iat claims).IsSigned (sampleEnv iat claims) sampleIssuer "stored" :=
  ⟨rfl, rfl, rfl, rfl, List.cons_ne_nil _ _, rfl, rfl⟩

theorem sampleOriginal_exp (iat : Rat) (claims : Members) :
    (sampleOriginal iat claims).exp = some (.fin (iat + 31557600)) := rfl

def sampleOptions : ReMintOptions := { subjectId := "did:web:minister.example:p:2", jti := "j" }

/-- The samples whose date is valid are re-minted. -/
theorem reMintVc_sample {q : Rat} {c : Members} {month : String} {n : Timestamp}
    (hmonth : issuanceMonthOf (.fin q) = .ok month) :
    reMintVc (sampleEnv q c) sampleIssuer n "stored" sampleOptions =
      .ok (mint sampleIssuer n sampleOptions (sampleOriginal q c) month 3600) := by
  refine reMintVc_eq_ok_iff.mpr ⟨_, month, 3600, sampleOriginal_isSigned q c, hmonth, ?_, ?_, rfl⟩
  · exact requireTtl_eq_ok_iff.mpr ⟨by decide +kernel, by decide⟩
  · rw [sampleOriginal_exp]
    rintro ⟨h, -⟩
    cases h

/-- A credential issued in February 2024 keeps the contract. -/
theorem sample_contract : ∃ (o : Original) (c : Credential),
    reMintVc (sampleEnv 1709210096 [("domain", .str "a.example")]) sampleIssuer 0 "stored"
        sampleOptions = .ok c ∧
      o.IsSigned (sampleEnv 1709210096 [("domain", .str "a.example")]) sampleIssuer "stored" ∧
        Contract 0 sampleOptions o c := by
  have hmonth : issuanceMonthOf (.fin 1709210096) = .ok "2024-02" := by decide +kernel
  have hmint := reMintVc_sample (c := [("domain", .str "a.example")]) (n := 0) hmonth
  obtain ⟨o, ho, hiff⟩ := contract_iff hmint
  refine ⟨o, _, hmint, ho, hiff.mpr ?_⟩
  obtain rfl := ho.unique (sampleOriginal_isSigned _ _)
  refine ⟨⟨1709210096, rfl, by decide +kernel, by decide +kernel⟩, rfl, nofun, ?_⟩
  intro ttl httl
  obtain rfl : 3600 = ttl := by exact_mod_cast Number.fin.inj httl
  exact .inl (by decide +kernel)

/-- A credential issued in the year 10000 has no month in its disclosure, and a claim named
`__proto__` is not disclosed. -/
theorem contract_fails :
    (∃ c, reMintVc (sampleEnv 253402300800 []) sampleIssuer 0 "stored" sampleOptions = .ok c ∧
      ∀ o : Original, o.IsSigned (sampleEnv 253402300800 []) sampleIssuer "stored" →
        ¬ Contract 0 sampleOptions o c) ∧
    ∃ c, reMintVc (sampleEnv 1709210096 [("__proto__", .bool true)]) sampleIssuer 0 "stored"
        sampleOptions = .ok c ∧
      ∀ o : Original, o.IsSigned (sampleEnv 1709210096 [("__proto__", .bool true)]) sampleIssuer
          "stored" → ¬ Contract 0 sampleOptions o c := by
  have httl : sampleOptions.disclosureTtlSeconds.getD defaultDisclosureTtlSeconds =
      .fin (3600 : Int) := by decide +kernel
  constructor
  · have hmonth : issuanceMonthOf (.fin 253402300800) = .ok "+010000" := by decide +kernel
    refine ⟨_, reMintVc_sample hmonth, ?_⟩
    intro o ho hc
    obtain rfl := ho.unique (sampleOriginal_isSigned _ _)
    obtain ⟨iat, hiat, hdigits, -⟩ := ((contract_mint_iff hmonth httl).mp hc).issuanceMonth
    obtain rfl : 253402300800 = iat := Number.fin.inj hiat
    revert hdigits
    decide +kernel
  · have hmonth : issuanceMonthOf (.fin 1709210096) = .ok "2024-02" := by decide +kernel
    refine ⟨_, reMintVc_sample hmonth, ?_⟩
    intro o ho hc
    obtain rfl := ho.unique (sampleOriginal_isSigned _ _)
    cases ((contract_mint_iff hmonth httl).mp hc).claims

end Samples

end Minister.Vc
