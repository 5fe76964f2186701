import Minister.Codec.LengthPrefix
import Minister.Schema

/-!
# Dedup values

`lib/nullifier/encoding.ts`: the value the ledger compares credentials by. It is a
keyed hash of the anchor and the badge type, each preceded by its length, so that no
two pairs give the same message. The messages that are blinded for Signet and those of
the disclosed nullifiers have the same form, and start with other tags.
-/

namespace Minister

open Codec Relational

/-- The server's secret and the hash functions of `node:crypto`. -/
structure MacEnv where
  pairwiseSecret : Option String
  /-- `hkdfSync("sha256", ikm, "", info, 32)`. -/
  hkdf : List UInt8 → List UInt8 → List UInt8
  /-- `createHmac("sha256", key).update(msg).digest()`. -/
  hmac : List UInt8 → List UInt8 → List UInt8

/-- `MAX_FIELD_BYTES`. -/
def maxFieldBytes : Nat := 0xffff

/-- `MAX_ANCHOR_BYTES`. -/
def maxAnchorBytes : Nat := 512

/-- `MAX_BADGE_TYPE_BYTES`. -/
def maxBadgeTypeBytes : Nat := 64

/-- `MAX_CLIENT_ID_BYTES`. -/
def maxClientIdBytes : Nat := 256

/-- `VOPRF_PROTOCOL_TAG`. -/
def voprfProtocolTag : String := "minister/null/v1"

def capField (value : String) (maxBytes : Nat) (field : String) : Except ServerError Unit :=
  let len := (utf8 value).length
  if maxBytes < len then
    throw (.thrown s!"nullifier field {field} too long: {len} > {maxBytes} bytes")
  else return ()

/-- Length-prefix a field. -/
def lp (bytes : List UInt8) : Except ServerError (List UInt8) :=
  let len := bytes.length
  if maxFieldBytes < len then throw (.thrown s!"nullifier LP field too long: {len} bytes")
  else return lengthPrefix bytes

def lpStr (value : String) : Except ServerError (List UInt8) := lp (utf8 value)

/-- `Buffer.concat`, of parts that are made from left to right. -/
def concat : List (Except ServerError (List UInt8)) → Except ServerError (List UInt8)
  | [] => return []
  | part :: parts => return (← part) ++ (← concat parts)

/-- The key of the interim backend. An empty secret counts as unset. -/
def interimKey (env : MacEnv) : Except ServerError (List UInt8) :=
  match env.pairwiseSecret with
  | none => throw (.thrown "OIDC_PAIRWISE_SECRET must be set (nullifier interim backend)")
  | some secret =>
    if secret = "" then
      throw (.thrown "OIDC_PAIRWISE_SECRET must be set (nullifier interim backend)")
    else return env.hkdf (utf8 secret) (utf8 "minister/v1/nullifier-interim")

/-- The dedup value of a credential. -/
def deriveDedupValue (env : MacEnv) (anchor badgeType : String) :
    Except ServerError (List UInt8) := do
  capField anchor maxAnchorBytes "anchor"
  capField badgeType maxBadgeTypeBytes "badge_type"
  let msg ← concat [lpStr "dedup", lpStr anchor, lpStr badgeType]
  let key ← interimKey env
  return env.hmac key msg

/-- The input of the blinded evaluation. -/
def buildVoprfDedupInput (anchor badgeType : String) : Except ServerError (List UInt8) := do
  capField anchor maxAnchorBytes "anchor"
  capField badgeType maxBadgeTypeBytes "badge_type"
  concat [lpStr voprfProtocolTag, lpStr "dedup", lpStr anchor, lpStr badgeType]

/-- The nullifier that a client is shown; `base64url` writes the digest. -/
def deriveDisclosedNullifier (env : MacEnv) (base64url : List UInt8 → String)
    (value : List UInt8) (clientId : String) : Except ServerError String := do
  capField clientId maxClientIdBytes "clientId"
  let msg ← concat [lpStr "rp", lp value, lpStr clientId]
  let key ← interimKey env
  return "mnv1:" ++ base64url (env.hmac key msg)

/-! ### Messages -/

/-- What the three functions make a message of. -/
inductive NullifierMessage
  | dedup (anchor badgeType : String)
  | voprf (anchor badgeType : String)
  | disclosed (value : List UInt8) (clientId : String)
  deriving DecidableEq

section Messages

variable {env : MacEnv} {anchor anchor' badgeType badgeType' : String} {m m' : NullifierMessage}
  {msg : List UInt8}

theorem capField_eq_ok_iff {value field : String} {maxBytes : Nat} {u : Unit} :
    capField value maxBytes field = .ok u ↔ (utf8 value).length ≤ maxBytes := by
  unfold capField
  simp only [throw, throwThe, MonadExceptOf.throw, pure, Except.pure]
  split_ifs with h
  · simp [h]
  · simpa using h

theorem lp_eq_ok_iff {bytes out : List UInt8} :
    lp bytes = .ok out ↔ bytes.length ≤ maxFieldBytes ∧ lengthPrefix bytes = out := by
  unfold lp
  simp only [throw, throwThe, MonadExceptOf.throw, pure, Except.pure]
  split_ifs with h
  · simp [Nat.not_le.mpr h]
  · simp [Nat.not_lt.mp h]

/-- Fields that the length bytes can hold are put one after the other. -/
theorem concat_eq_ok_iff (xs : List (List UInt8)) : concat (xs.map lp) = .ok msg ↔
    (∀ x ∈ xs, x.length ≤ maxFieldBytes) ∧ msg = fields xs := by
  induction xs generalizing msg with
  | nil => simp [concat, fields, pure, Except.pure, eq_comm]
  | cons x xs ih =>
    simp only [List.map_cons, concat, bind_eq_ok_iff, lp_eq_ok_iff, ih, List.forall_mem_cons]
    constructor
    · rintro ⟨_, ⟨hx, rfl⟩, _, ⟨hxs, rfl⟩, hmsg⟩
      exact ⟨⟨hx, hxs⟩, (Except.ok.inj hmsg).symm⟩
    · rintro ⟨⟨hx, hxs⟩, rfl⟩
      exact ⟨_, ⟨hx, rfl⟩, _, ⟨hxs, rfl⟩, rfl⟩

/-- The fields fit their caps. -/
def WithinCaps (anchor badgeType : String) : Prop :=
  (utf8 anchor).length ≤ maxAnchorBytes ∧ (utf8 badgeType).length ≤ maxBadgeTypeBytes

instance : Decidable (WithinCaps anchor badgeType) :=
  inferInstanceAs (Decidable (_ ∧ _))

namespace NullifierMessage

def fields : NullifierMessage → List (List UInt8)
  | .dedup anchor badgeType => [utf8 "dedup", utf8 anchor, utf8 badgeType]
  | .voprf anchor badgeType => [utf8 voprfProtocolTag, utf8 "dedup", utf8 anchor, utf8 badgeType]
  | .disclosed value clientId => [utf8 "rp", value, utf8 clientId]

def bytes (m : NullifierMessage) : List UInt8 := Codec.fields m.fields

/-- What the functions accept. -/
def Fits : NullifierMessage → Prop
  | .dedup anchor badgeType | .voprf anchor badgeType => WithinCaps anchor badgeType
  | .disclosed value clientId =>
    value.length ≤ maxFieldBytes ∧ (utf8 clientId).length ≤ maxClientIdBytes

/-- The bytes are what the function returns, or what it takes the hash of, whatever the hash is. -/
def IsMadeInto (bytes : List UInt8) : NullifierMessage → Prop
  | .dedup anchor badgeType => ∀ env key, interimKey env = .ok key →
    deriveDedupValue env anchor badgeType = .ok (env.hmac key bytes)
  | .voprf anchor badgeType => buildVoprfDedupInput anchor badgeType = .ok bytes
  | .disclosed value clientId => ∀ env base64url key, interimKey env = .ok key →
    deriveDisclosedNullifier env base64url value clientId =
      .ok ("mnv1:" ++ base64url (env.hmac key bytes))

theorem fields_injective : Function.Injective fields := by
  intro m m' h
  have hdedup : "dedup" ≠ "rp" := by decide
  cases m <;> cases m' <;> simp only [fields, List.cons.injEq, reduceCtorEq, and_false, and_true,
    true_and, utf8_injective.eq_iff, hdedup, hdedup.symm, false_and] at h
  all_goals rw [h.1, h.2]

/-- The caps are below what the length bytes can hold. -/
theorem length_le_of_fits (h : m.Fits) : ∀ x ∈ m.fields, x.length ≤ maxFieldBytes := by
  cases m <;> simp only [fields, List.forall_mem_cons]
  case dedup => exact ⟨by decide, h.1.trans (by decide), h.2.trans (by decide), nofun⟩
  case voprf => exact ⟨by decide, by decide, h.1.trans (by decide), h.2.trans (by decide), nofun⟩
  case disclosed => exact ⟨by decide, h.1, h.2.trans (by decide), nofun⟩

/-- Messages with the same bytes are the same. -/
theorem bytes_inj (h : m.Fits) (h' : m'.Fits) (heq : m.bytes = m'.bytes) : m = m' :=
  fields_injective (Codec.fields_inj (length_le_of_fits h) (length_le_of_fits h') heq)

end NullifierMessage

open NullifierMessage (dedup voprf disclosed IsMadeInto length_le_of_fits)

/-- A credential has a value exactly if its fields fit and the secret is set. -/
theorem deriveDedupValue_eq_ok_iff {value : List UInt8} :
    deriveDedupValue env anchor badgeType = .ok value ↔ WithinCaps anchor badgeType ∧
      ∃ key, interimKey env = .ok key ∧ value = env.hmac key (dedup anchor badgeType).bytes := by
  simp only [deriveDedupValue, bind_eq_ok_iff, capField_eq_ok_iff]
  constructor
  · rintro ⟨_, ha, _, ht, msg, hmsg, key, hkey, hvalue⟩
    obtain ⟨-, rfl⟩ := (concat_eq_ok_iff (dedup anchor badgeType).fields).mp hmsg
    exact ⟨⟨ha, ht⟩, key, hkey, (Except.ok.inj hvalue).symm⟩
  · rintro ⟨hcaps, key, hkey, rfl⟩
    have hmsg := (concat_eq_ok_iff _).mpr ⟨length_le_of_fits (m := dedup _ _) hcaps, rfl⟩
    exact ⟨(), hcaps.1, (), hcaps.2, _, hmsg, key, hkey, rfl⟩

theorem buildVoprfDedupInput_eq_ok_iff :
    buildVoprfDedupInput anchor badgeType = .ok msg ↔
      WithinCaps anchor badgeType ∧ msg = (voprf anchor badgeType).bytes := by
  simp only [buildVoprfDedupInput, bind_eq_ok_iff, capField_eq_ok_iff]
  constructor
  · rintro ⟨_, ha, _, ht, hmsg⟩
    exact ⟨⟨ha, ht⟩, ((concat_eq_ok_iff (voprf anchor badgeType).fields).mp hmsg).2⟩
  · rintro ⟨hcaps, rfl⟩
    have hmsg := (concat_eq_ok_iff _).mpr ⟨length_le_of_fits (m := voprf _ _) hcaps, rfl⟩
    exact ⟨(), hcaps.1, (), hcaps.2, hmsg⟩

theorem deriveDisclosedNullifier_eq_ok_iff {base64url : List UInt8 → String} {value : List UInt8}
    {clientId nullifier : String} :
    deriveDisclosedNullifier env base64url value clientId = .ok nullifier ↔
      (disclosed value clientId).Fits ∧ ∃ key, interimKey env = .ok key ∧
        nullifier = "mnv1:" ++ base64url (env.hmac key (disclosed value clientId).bytes) := by
  simp only [deriveDisclosedNullifier, bind_eq_ok_iff, capField_eq_ok_iff]
  constructor
  · rintro ⟨_, hc, msg, hmsg, key, hkey, hnullifier⟩
    obtain ⟨hlength, rfl⟩ := (concat_eq_ok_iff (disclosed value clientId).fields).mp hmsg
    exact ⟨⟨hlength value (by simp [NullifierMessage.fields]), hc⟩, key, hkey,
      (Except.ok.inj hnullifier).symm⟩
  · rintro ⟨hfits, key, hkey, rfl⟩
    have hmsg := (concat_eq_ok_iff _).mpr ⟨length_le_of_fits (m := disclosed _ _) hfits, rfl⟩
    exact ⟨(), hfits.2, _, hmsg, key, hkey, rfl⟩

/-- What is accepted is made into its bytes, and into nothing else. -/
theorem isMadeInto_iff : IsMadeInto msg m ↔ m.Fits ∧ msg = m.bytes := by
  -- with a hash that changes nothing, the result shows the message
  let plain : MacEnv := ⟨some "secret", fun _ _ => [], fun _ message => message⟩
  cases m with
  | voprf anchor badgeType => exact buildVoprfDedupInput_eq_ok_iff
  | dedup anchor badgeType =>
    constructor
    · intro h
      obtain ⟨hcaps, _, _, heq⟩ := deriveDedupValue_eq_ok_iff.mp (h plain [] rfl)
      exact ⟨hcaps, heq⟩
    · rintro ⟨hcaps, rfl⟩ env key hkey
      exact deriveDedupValue_eq_ok_iff.mpr ⟨hcaps, key, hkey, rfl⟩
  | disclosed value clientId =>
    constructor
    · intro h
      -- and so does a text that tells the message from others
      let text (b : List UInt8) : String := if b = msg then "1" else "0"
      obtain ⟨hfits, _, _, heq⟩ := deriveDisclosedNullifier_eq_ok_iff.mp (h plain text [] rfl)
      refine ⟨hfits, ?_⟩
      by_contra hne
      simp [text, plain, Ne.symm hne] at heq
    · rintro ⟨hfits, rfl⟩ env base64url key hkey
      exact deriveDisclosedNullifier_eq_ok_iff.mpr ⟨hfits, key, hkey, rfl⟩

/-- All strings within the caps and all values within the length limit are made into a message, and
the message determines which of the three functions has made it, and of what. -/
theorem nullifierMessage_inj : (∀ m : NullifierMessage, m.Fits → ∃ bytes, IsMadeInto bytes m) ∧
    ∀ {bytes m m'}, IsMadeInto bytes m → IsMadeInto bytes m' → m = m' := by
  constructor
  · intro m h
    exact ⟨m.bytes, isMadeInto_iff.mpr ⟨h, rfl⟩⟩
  · intro bytes m m' h h'
    obtain ⟨hfits, rfl⟩ := isMadeInto_iff.mp h
    obtain ⟨hfits', heq⟩ := isMadeInto_iff.mp h'
    exact NullifierMessage.bytes_inj hfits hfits' heq

/-- Where a field ends makes a difference, and so does the function. -/
theorem nullifierMessage_shifted : ∃ bytes, IsMadeInto bytes (dedup "x" "yz") ∧
    ¬ IsMadeInto bytes (dedup "xy" "z") ∧ ¬ IsMadeInto bytes (voprf "x" "yz") := by
  obtain ⟨bytes, h⟩ := nullifierMessage_inj.1 (dedup "x" "yz") ⟨by decide, by decide⟩
  exact ⟨bytes, h, fun h' => absurd (nullifierMessage_inj.2 h h') (by decide),
    fun h' => absurd (nullifierMessage_inj.2 h h') (by decide)⟩

/-- If the hash has no collisions, equal values come from equal credentials. -/
theorem deriveDedupValue_inj {value : List UInt8} (hmac : ∀ key, Function.Injective (env.hmac key))
    (h : deriveDedupValue env anchor badgeType = .ok value)
    (h' : deriveDedupValue env anchor' badgeType' = .ok value) :
    anchor = anchor' ∧ badgeType = badgeType' := by
  obtain ⟨hcaps, key, hkey, hvalue⟩ := deriveDedupValue_eq_ok_iff.mp h
  obtain ⟨hcaps', key', hkey', hvalue'⟩ := deriveDedupValue_eq_ok_iff.mp h'
  obtain rfl : key = key' := Except.ok.inj (hkey.symm.trans hkey')
  have hbytes := hmac key (hvalue.symm.trans hvalue')
  exact dedup.inj (NullifierMessage.bytes_inj (m := dedup _ _) hcaps hcaps' hbytes)

end Messages

end Minister
