import Minister.Codec.Double
import Minister.Codec.LengthPrefix
import Minister.Oidc.Consent

/-!
# Keys of the private identity

An account has a root of sixteen bytes, which only the browsers of its owner hold. From it a
browser derives one secret per app and epoch. The root leaves a browser in two sealed forms: as
a blob on the server, under a key that a passkey yields, and as a relay body to another device,
under the public key that device shows. Both are authenticated together with a text that names
the account and the epoch.

HKDF, Base58Check and lower-casing are parameters. A ciphertext is represented by what it was
made from, its key, its associated data and its plaintext, and opens exactly with the same key
and the same data. Initialization vectors and the Base64 of the transport are left out.
-/

namespace Minister.AnonSeed

open Relational Codec

abbrev Bytes := List UInt8

/-- What is outside the repository. -/
structure Env where
  /-- Key material, salt, info and length. -/
  hkdfSha256 : Bytes → String → String → Nat → Bytes
  /-- The payload, if the checksum is right. -/
  base58checkDecode : String → Option Bytes
  toLowerCase : String → String
  /-- `ANON_IDENTITY_ENABLED`. -/
  anonIdentityEnabled : Bool

/-- The exceptions of the client code, with their messages. -/
inductive ClientError
  | anonSeedCrypto (message : String)
  | seedCodec (message : String)
  | pairProtocol (message : String)
  | range (message : String)
  | storage
  deriving DecidableEq, Repr

/-- Throw unless the condition holds. -/
def check (ok : Bool) (e : ClientError) : Except ClientError Unit :=
  if ok then .ok () else .error e

theorem check_eq_ok_iff {ok : Bool} {e : ClientError} {u : Unit} :
    check ok e = .ok u ↔ ok = true := by
  cases ok <;> simp [check]

/-- `value.trim()`. -/
def trimmed (value : String) : String := String.ofList (Oidc.trim value.toList)

/-! ### Sizes -/

/-- `ROOT_SEED_BYTES`. -/
def rootSeedBytes : Nat := 16

/-- `PER_APP_SECRET_BYTES`. -/
def perAppSecretBytes : Nat := 32

/-- `PRF_OUTPUT_BYTES`. -/
def prfOutputBytes : Nat := 32

/-- `WRAP_CIPHERTEXT_BYTES`. -/
def wrapCiphertextBytes : Nat := rootSeedBytes + 16

/-- `PAIR_PUBLIC_KEY_BYTES`. -/
def pairPublicKeyBytes : Nat := 32

/-- `PAIR_ROOT_BYTES`. -/
def pairRootBytes : Nat := 16

/-- `Number.MAX_SAFE_INTEGER`. -/
def maxSafeInteger : Nat := 9007199254740991

def assertLength (name : String) (bytes : Bytes) (expected : Nat) : Except ClientError Unit :=
  let length := bytes.length
  check (length = expected) (.anonSeedCrypto
    s!"{name} must be exactly {expected} bytes, got {length}")

def assertAadCounter (name : String) (value : Nat) : Except ClientError Unit :=
  check (value ≤ maxSafeInteger ∧ 1 ≤ value) (.anonSeedCrypto
    s!"{name} must be an integer >= 1, got {value}")

/-! ### The key as text -/

/-- `SEED_VERSION_BYTE`. -/
def seedVersionByte : UInt8 := 0x0a

/-- Two hexadecimal digits. -/
def hexByte (b : UInt8) : String :=
  String.ofList [Nat.digitChar (b.toNat / 16), Nat.digitChar (b.toNat % 16)]

def decodeStringToSeed (env : Env) (input : String) : Except ClientError Bytes :=
  match env.base58checkDecode (trimmed input) with
  | none => .error (.seedCodec
      ("invalid Private Identity string: not valid base58check (checksum failed or bad " ++
        "characters)"))
  | some versioned =>
    let expected := rootSeedBytes + 1
    let length := versioned.length
    if length ≠ expected then .error (.seedCodec
      s!"invalid Private Identity string: expected {expected} decoded bytes, got {length}")
    else
      match versioned with
      -- a payload of seventeen bytes has a first one
      | [] => .error (.seedCodec "")
      | version :: seed =>
        let found := hexByte version
        if version ≠ seedVersionByte then .error (.seedCodec
          s!"invalid Private Identity string: wrong version byte 0x{found} (expected 0x0a)")
        else .ok seed

/-! ### Secrets of apps -/

/-- `APP_HKDF_SALT`. -/
def appHkdfSalt : String := "ministry/anon/v1"

/-- `APP_HKDF_INFO_PREFIX`. -/
def appHkdfInfoPrefix : String := "ministry/v1/rp/"

/-- `ANON_APP_ID_PATTERN`. -/
def isAnonAppId (anonAppId : String) : Bool :=
  3 ≤ anonAppId.length ∧ anonAppId.length ≤ 32 ∧
    anonAppId.toList.all fun c => 'a' ≤ c ∧ c ≤ 'z' ∨ '0' ≤ c ∧ c ≤ '9' ∨ c = '-'

/-- The `info` that HKDF is given for an app at an epoch. -/
def appInfo (anonAppId : String) (epoch : Nat) : String :=
  appHkdfInfoPrefix ++ anonAppId ++ "/" ++ Nat.repr epoch

/-- What HKDF makes of a root for an app at an epoch. -/
def appSecret (env : Env) (seed : Bytes) (anonAppId : String) (epoch : Nat) : Bytes :=
  env.hkdfSha256 seed appHkdfSalt (appInfo anonAppId epoch) perAppSecretBytes

def deriveAppSecret (env : Env) (seed : Bytes) (anonAppId : String) (epoch : Nat) :
    Except ClientError Bytes := do
  assertLength "root seed" seed rootSeedBytes
  check (isAnonAppId anonAppId) (.anonSeedCrypto
    "anonAppId must be a lowercase slug matching ^[a-z0-9-]\x7b3,32\x7d$")
  assertAadCounter "epoch" epoch
  return appSecret env seed anonAppId epoch

theorem deriveAppSecret_eq {env : Env} {seed secret : Bytes} {anonAppId : String} {epoch : Nat}
    (h : deriveAppSecret env seed anonAppId epoch = .ok secret) :
    isAnonAppId anonAppId = true ∧ secret = appSecret env seed anonAppId epoch := by
  unfold deriveAppSecret at h
  obtain ⟨-, -, h⟩ := bind_eq_ok_iff.mp h
  obtain ⟨_, hid, h⟩ := bind_eq_ok_iff.mp h
  obtain ⟨-, -, h⟩ := bind_eq_ok_iff.mp h
  exact ⟨check_eq_ok_iff.mp hid, (Except.ok.inj h).symm⟩

/-- The info determines the app and the epoch. -/
theorem appInfo_inj {anonAppId anonAppId' : String} {epoch epoch' : Nat}
    (hid : isAnonAppId anonAppId = true) (hid' : isAnonAppId anonAppId' = true)
    (h : appInfo anonAppId epoch = appInfo anonAppId' epoch') :
    anonAppId = anonAppId' ∧ epoch = epoch' := by
  have hdigits (n : Nat) : '/' ∉ Nat.toDigits 10 n := notMem_decimal rfl n
  have hslug {s : String} (hs : isAnonAppId s = true) : '/' ∉ s.toList := by
    intro hmem
    have hchar := List.all_eq_true.mp (of_decide_eq_true hs).2.2 _ hmem
    exact absurd hchar (by decide)
  have hinfo (s : String) (n : Nat) :
      appInfo s n = appHkdfInfoPrefix ++ "/".intercalate [s, Nat.repr n] := by
    simp [appInfo, String.intercalate_cons_cons, String.append_assoc]
  rw [hinfo, hinfo, String.append_right_inj] at h
  have hfields := intercalate_inj (c := '/') h rfl (by simp) (by simp)
    (by simp [hdigits, hslug hid]) (by simp [hdigits, hslug hid'])
  simpa [decimal_injective.eq_iff] using hfields

/-! ### Blobs -/

/-- `WRAP_KEK_SALT`. -/
def wrapKekSalt : String := "minister/anon-seed/wrap/v1"

/-- `WRAP_KEK_INFO`. -/
def wrapKekInfo : String := "minister/anon-seed/wrap/v1:aes-256-gcm"

/-- `WRAP_AAD_PREFIX`. -/
def wrapAadPrefix : String := "minister/anon-seed/blob/v1:"

def deriveWrapKek (env : Env) (prfOutput : Bytes) : Except ClientError Bytes := do
  assertLength "PRF output" prfOutput prfOutputBytes
  return env.hkdfSha256 prfOutput wrapKekSalt wrapKekInfo 32

structure SeedWrapAad where
  userId : UserId
  credentialId : String
  wrapVersion : Nat
  enrollmentEpoch : Nat
  deriving DecidableEq, Repr

def assertAadPart (name value : String) : Except ClientError Unit :=
  check (value ≠ "" ∧ ':' ∉ value.toList) (.anonSeedCrypto
    s!"{name} must be a non-empty string without \":\"")

/-- The text that a blob is authenticated with. -/
def SeedWrapAad.text (aad : SeedWrapAad) : String :=
  wrapAadPrefix ++ (aad.userId ++ ":" ++ (aad.credentialId ++ ":" ++
    (Nat.repr aad.wrapVersion ++ ":" ++ Nat.repr aad.enrollmentEpoch)))

def buildWrapAad (aad : SeedWrapAad) : Except ClientError Bytes := do
  assertAadPart "userId" aad.userId
  assertAadPart "credentialId" aad.credentialId
  assertAadCounter "wrapVersion" aad.wrapVersion
  assertAadCounter "enrollmentEpoch" aad.enrollmentEpoch
  return utf8 aad.text

/-- AES-256-GCM under the key of a passkey. -/
structure WrappedSeed where
  kek : Bytes
  aad : Bytes
  seed : Bytes
  deriving DecidableEq, Repr

/-- The length of the ciphertext, with its tag. -/
def WrappedSeed.length (blob : WrappedSeed) : Nat := blob.seed.length + 16

def wrapSeed (env : Env) (seed prfOutput : Bytes) (aad : SeedWrapAad) :
    Except ClientError WrappedSeed := do
  assertLength "root seed" seed rootSeedBytes
  let aadBytes ← buildWrapAad aad
  let kek ← deriveWrapKek env prfOutput
  return ⟨kek, aadBytes, seed⟩

def unwrapSeed (env : Env) (blob : WrappedSeed) (prfOutput : Bytes) (aad : SeedWrapAad) :
    Except ClientError Bytes := do
  let length := blob.length
  check (length = wrapCiphertextBytes) (.anonSeedCrypto
    s!"blob ciphertext must be exactly {wrapCiphertextBytes} bytes, got {length}")
  let aadBytes ← buildWrapAad aad
  let kek ← deriveWrapKek env prfOutput
  check (kek = blob.kek ∧ aadBytes = blob.aad) (.anonSeedCrypto
    ("seed unwrap failed: authentication failed (wrong passkey, tampered blob, or stale " ++
      "enrollment epoch)"))
  return blob.seed

/-- The fields may stand between separators. -/
structure SeedWrapAad.Plain (aad : SeedWrapAad) : Prop where
  userId : ':' ∉ aad.userId.toList
  credentialId : ':' ∉ aad.credentialId.toList

/-- The text determines the account, the credential, the version and the epoch. -/
theorem SeedWrapAad.text_inj {a b : SeedWrapAad} (ha : a.Plain) (hb : b.Plain)
    (h : a.text = b.text) : a = b := by
  have hdigits (n : Nat) : ':' ∉ Nat.toDigits 10 n := notMem_decimal rfl n
  have htext (aad : SeedWrapAad) : aad.text = wrapAadPrefix ++ ":".intercalate [aad.userId,
      aad.credentialId, Nat.repr aad.wrapVersion, Nat.repr aad.enrollmentEpoch] := by
    simp [text, String.intercalate_cons_cons]
  rw [htext, htext, String.append_right_inj] at h
  have hfields := intercalate_inj (c := ':') h rfl (by simp) (by simp)
    (by simp [hdigits, ha.userId, ha.credentialId]) (by simp [hdigits, hb.userId, hb.credentialId])
  cases a
  cases b
  simpa [decimal_injective.eq_iff] using hfields

variable {env : Env} {aad : SeedWrapAad} {blob : WrappedSeed} {seed prfOutput : Bytes}

theorem buildWrapAad_eq_ok {bytes : Bytes} (h : buildWrapAad aad = .ok bytes) :
    aad.Plain ∧ bytes = utf8 aad.text := by
  unfold buildWrapAad at h
  obtain ⟨_, huser, h⟩ := bind_eq_ok_iff.mp h
  obtain ⟨_, hcredential, h⟩ := bind_eq_ok_iff.mp h
  obtain ⟨-, -, h⟩ := bind_eq_ok_iff.mp h
  obtain ⟨-, -, h⟩ := bind_eq_ok_iff.mp h
  rw [assertAadPart, check_eq_ok_iff, decide_eq_true_eq] at huser hcredential
  exact ⟨⟨huser.2, hcredential.2⟩, (Except.ok.inj h).symm⟩

/-- The data determine the account, the credential, the version and the epoch. -/
theorem buildWrapAad_inj {aad' : SeedWrapAad} {bytes : Bytes} (h : buildWrapAad aad = .ok bytes)
    (h' : buildWrapAad aad' = .ok bytes) : aad = aad' := by
  obtain ⟨hplain, hbytes⟩ := buildWrapAad_eq_ok h
  obtain ⟨hplain', hbytes'⟩ := buildWrapAad_eq_ok h'
  exact SeedWrapAad.text_inj hplain hplain' (utf8_injective (hbytes.symm.trans hbytes'))

/-- A wrap that succeeds holds the seed, under the text of its fields. -/
theorem wrapSeed_eq_ok (h : wrapSeed env seed prfOutput aad = .ok blob) :
    buildWrapAad aad = .ok blob.aad ∧ blob.seed = seed := by
  unfold wrapSeed at h
  obtain ⟨-, -, h⟩ := bind_eq_ok_iff.mp h
  obtain ⟨aadBytes, haad, h⟩ := bind_eq_ok_iff.mp h
  obtain ⟨kek, -, h⟩ := bind_eq_ok_iff.mp h
  cases h
  exact ⟨haad, rfl⟩

theorem unwrapSeed_eq_ok (h : unwrapSeed env blob prfOutput aad = .ok seed) :
    buildWrapAad aad = .ok blob.aad ∧ blob.seed = seed := by
  unfold unwrapSeed at h
  obtain ⟨-, -, h⟩ := bind_eq_ok_iff.mp h
  obtain ⟨aadBytes, haad, h⟩ := bind_eq_ok_iff.mp h
  obtain ⟨kek, -, h⟩ := bind_eq_ok_iff.mp h
  obtain ⟨_, hmatch, h⟩ := bind_eq_ok_iff.mp h
  rw [check_eq_ok_iff, decide_eq_true_eq] at hmatch
  exact ⟨hmatch.2 ▸ haad, Except.ok.inj h⟩

/-- A blob opens only for the account, credential, version and epoch it was wrapped for. -/
theorem unwrapSeed_wrapSeed {opened prfOutput' : Bytes} {aad' : SeedWrapAad}
    (hwrap : wrapSeed env seed prfOutput aad = .ok blob)
    (hopen : unwrapSeed env blob prfOutput' aad' = .ok opened) : aad' = aad ∧ opened = seed := by
  obtain ⟨haad, hseed⟩ := wrapSeed_eq_ok hwrap
  obtain ⟨haad', hopened⟩ := unwrapSeed_eq_ok hopen
  exact ⟨buildWrapAad_inj haad' haad, hopened.symm.trans hseed⟩

/-! ### Relay bodies -/

/-- `PAIR_HPKE_INFO`. -/
def pairHpkeInfo : String := "ministry/pair/v1"

/-- `PAIR_AAD_PREFIX`. -/
def pairAadPrefix : String := "ministry/pair/v1|"

def assertAadField (name value : String) : Except ClientError Unit :=
  check (value ≠ "" ∧ '|' ∉ value.toList) (.pairProtocol
    s!"{name} must be a non-empty string without \"|\"")

/-- What a relay body is authenticated with. The epoch is given as `String` writes it: in decimal,
for the counters of a vault. -/
def buildPairAad (userId : UserId) (sessionId epochStr : String) : Except ClientError Bytes := do
  assertAadField "userId" userId
  assertAadField "sessionId" sessionId
  assertAadField "epoch" epochStr
  return utf8 (pairAadPrefix ++ (userId ++ "|" ++ (sessionId ++ "|" ++ epochStr)))

/-- A sealed root, single-shot HPKE to a public key. -/
structure RelayBody where
  recipientPublicKey : Bytes
  info : String
  aad : Bytes
  root : Bytes
  deriving DecidableEq, Repr

/-- The key pair of a displaying device. The private key is the one that opens what is sealed to
the public key. -/
structure CryptoKeyPair where
  publicKey : Bytes
  deriving DecidableEq, Repr

def sealRoot (recipientPublicKey root : Bytes) (userId : UserId) (sessionId : String)
    (epoch : Nat) : Except ClientError RelayBody := do
  check (recipientPublicKey.length = pairPublicKeyBytes) (.pairProtocol
    s!"recipientPublicKey must be {pairPublicKeyBytes} bytes")
  check (root.length = pairRootBytes) (.pairProtocol
    s!"root must be exactly {pairRootBytes} bytes")
  let aad ← buildPairAad userId sessionId (Nat.repr epoch)
  return ⟨recipientPublicKey, pairHpkeInfo, aad, root⟩

def openRoot (recipientKeyPair : CryptoKeyPair) (relayBody : RelayBody) (userId : UserId)
    (sessionId : String) (epoch : Nat) : Except ClientError Bytes := do
  let aad ← buildPairAad userId sessionId (Nat.repr epoch)
  check (recipientKeyPair.publicKey = relayBody.recipientPublicKey ∧
      pairHpkeInfo = relayBody.info ∧ aad = relayBody.aad) (.pairProtocol
    ("pairing open failed: authentication failed (tampered payload, wrong key, or wrong " ++
      "account/session)"))
  let length := relayBody.root.length
  check (length = pairRootBytes) (.pairProtocol
    s!"opened {length} bytes, expected {pairRootBytes}")
  return relayBody.root

variable {userId userId' : UserId} {sessionId sessionId' : String} {epoch epoch' : Nat}
  {body : RelayBody} {keyPair : CryptoKeyPair} {root recipientPublicKey : Bytes}

theorem buildPairAad_eq_ok {epochStr : String} {bytes : Bytes}
    (h : buildPairAad userId sessionId epochStr = .ok bytes) :
    (∀ x ∈ [userId, sessionId, epochStr], '|' ∉ x.toList) ∧
      bytes = utf8 (pairAadPrefix ++ "|".intercalate [userId, sessionId, epochStr]) := by
  unfold buildPairAad at h
  obtain ⟨_, huser, h⟩ := bind_eq_ok_iff.mp h
  obtain ⟨_, hsession, h⟩ := bind_eq_ok_iff.mp h
  obtain ⟨_, hepoch, h⟩ := bind_eq_ok_iff.mp h
  rw [assertAadField, check_eq_ok_iff, decide_eq_true_eq] at huser hsession hepoch
  cases h
  refine ⟨by simp [huser.2, hsession.2, hepoch.2], ?_⟩
  simp [String.intercalate_cons_cons]

/-- The data determine the account, the session and the epoch. -/
theorem buildPairAad_inj {epochStr epochStr' : String} {bytes : Bytes}
    (h : buildPairAad userId sessionId epochStr = .ok bytes)
    (h' : buildPairAad userId' sessionId' epochStr' = .ok bytes) :
    userId = userId' ∧ sessionId = sessionId' ∧ epochStr = epochStr' := by
  obtain ⟨hplain, hbytes⟩ := buildPairAad_eq_ok h
  obtain ⟨hplain', hbytes'⟩ := buildPairAad_eq_ok h'
  have htext := utf8_injective (hbytes.symm.trans hbytes')
  rw [String.append_right_inj] at htext
  simpa using intercalate_inj htext rfl (by simp) (by simp) hplain hplain'

theorem sealRoot_eq_ok (h : sealRoot recipientPublicKey root userId sessionId epoch = .ok body) :
    buildPairAad userId sessionId (Nat.repr epoch) = .ok body.aad ∧ body.root = root := by
  unfold sealRoot at h
  obtain ⟨-, -, h⟩ := bind_eq_ok_iff.mp h
  obtain ⟨-, -, h⟩ := bind_eq_ok_iff.mp h
  obtain ⟨aad, haad, h⟩ := bind_eq_ok_iff.mp h
  cases h
  exact ⟨haad, rfl⟩

theorem openRoot_eq_ok (h : openRoot keyPair body userId sessionId epoch = .ok root) :
    buildPairAad userId sessionId (Nat.repr epoch) = .ok body.aad ∧ body.root = root := by
  unfold openRoot at h
  obtain ⟨aad, haad, h⟩ := bind_eq_ok_iff.mp h
  obtain ⟨_, hmatch, h⟩ := bind_eq_ok_iff.mp h
  obtain ⟨-, -, h⟩ := bind_eq_ok_iff.mp h
  rw [check_eq_ok_iff, decide_eq_true_eq] at hmatch
  exact ⟨hmatch.2.2 ▸ haad, Except.ok.inj h⟩

/-- A relay body opens only for the account, session and epoch it was sealed for. -/
theorem openRoot_sealRoot {opened : Bytes}
    (hseal : sealRoot recipientPublicKey root userId sessionId epoch = .ok body)
    (hopen : openRoot keyPair body userId' sessionId' epoch' = .ok opened) :
    userId' = userId ∧ sessionId' = sessionId ∧ epoch' = epoch ∧ opened = root := by
  obtain ⟨haad, hroot⟩ := sealRoot_eq_ok hseal
  obtain ⟨haad', hopened⟩ := openRoot_eq_ok hopen
  obtain ⟨hu, hs, he⟩ := buildPairAad_inj haad' haad
  exact ⟨hu, hs, decimal_injective he, hopened.symm.trans hroot⟩

end Minister.AnonSeed
