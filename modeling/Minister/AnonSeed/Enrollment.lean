import Minister.AnonSeed.Crypto
import Minister.Credentials.Lifecycle

/-!
# Enrollment of a private identity

What the server keeps about a private identity: the epoch, when a root was generated for it and
when its backup was confirmed, and the wrapped copies of the root. Every reset and every re-key
moves the epoch on, clears both times and deletes the copies. The server never sees a root.

Each action is one call, with the verdict of the rate limiter and of the quarantine gate as
arguments. The audit log is kept as far as it is read, which is for the re-keys.
-/

namespace Minister.AnonSeed

open Relational
open Credentials (QuarantineRefusal)

/-! ### Tables -/

structure Enrollment extends AnonSeedEnrollment where
  seedGeneratedAt : Option Timestamp := none
  backupConfirmedAt : Option Timestamp := none
  deriving DecidableEq, Repr

/-- A row of `AnonSeedBlob`, without the id that nothing reads. -/
structure SeedBlob where
  userId : UserId
  credentialId : String
  ciphertext : WrappedSeed
  wrapVersion : Nat
  deriving DecidableEq, Repr

/-- An entry `anon_seed.rekey` of the audit log. -/
structure Rekey where
  userId : UserId
  createdAt : Timestamp
  deriving DecidableEq, Repr

structure Server where
  authenticator : List Authenticator := []
  enrollment : List Enrollment := []
  blob : List SeedBlob := []
  rekey : List Rekey := []
  deriving DecidableEq, Repr

def Server.findEnrollment (s : Server) (userId : UserId) : Option Enrollment :=
  s.enrollment.find? fun row => row.userId = userId

/-- Rewrite the row of the account. -/
def Server.updateEnrollment (s : Server) (userId : UserId) (f : Enrollment → Enrollment) :
    Server :=
  { s with enrollment := mapWhere (fun row => row.userId = userId) f s.enrollment }

/-! ### States and refusals -/

inductive AnonSeedStatus
  | none
  | pendingBackup
  | active
  deriving DecidableEq, Repr

structure AnonSeedState where
  status : AnonSeedStatus
  enrollmentEpoch : Nat
  deriving DecidableEq, Repr

def stateOf : Option Enrollment → AnonSeedState
  | none => ⟨.none, 1⟩
  | some row =>
    if row.seedGeneratedAt = none then ⟨.none, row.enrollmentEpoch⟩
    else ⟨if row.backupConfirmedAt = none then .pendingBackup else .active, row.enrollmentEpoch⟩

/-- The epoch that the server reports for an account. -/
def Server.epochOf (s : Server) (userId : UserId) : Nat :=
  (stateOf (s.findEnrollment userId)).enrollmentEpoch

/-- A failure that an action returns. -/
structure Refusal where
  error : String
  stepUp : Bool := false
  quarantine : Option QuarantineRefusal := none
  retryAt : Option Timestamp := none
  deriving DecidableEq, Repr

/-- Return the failure unless the condition holds. -/
def require (ok : Bool) (refusal : Refusal) : Except Refusal Unit :=
  if ok then .ok () else .error refusal

theorem require_eq_ok_iff {ok : Bool} {refusal : Refusal} {u : Unit} :
    require ok refusal = .ok u ↔ ok = true := by
  cases ok <;> simp [require]

/-- `DISABLED_ERROR`. -/
def disabledError : String := "Private Identity is not enabled."

/-- The rate limiter allows the call, or says how many seconds to wait. -/
def rateLimitGuard : Option Nat → Except Refusal Unit
  | none => .ok ()
  | some retryAfterSeconds =>
    .error { error := s!"Too many requests. Wait {retryAfterSeconds}s and try again." }

/-! ### Enrollment -/

def getAnonSeedState (env : Env) (userId : UserId) (s : Server) : Except Refusal AnonSeedState := do
  require env.anonIdentityEnabled { error := disabledError }
  return stateOf (s.findEnrollment userId)

/-- Stamp the row of the account, or create it at the first epoch. -/
def Server.stampGenerated (s : Server) (userId : UserId) (now : Timestamp) : Server :=
  match s.findEnrollment userId with
  | some _ => s.updateEnrollment userId fun row => { row with seedGeneratedAt := some now }
  | none =>
    let row : Enrollment := { userId, enrollmentEpoch := 1, seedGeneratedAt := some now }
    { s with enrollment := s.enrollment ++ [row] }

def beginAnonSeedEnrollment (env : Env) (limited : Option Nat) (now : Timestamp) (userId : UserId)
    (s : Server) : Except Refusal (AnonSeedState × Server) := do
  require env.anonIdentityEnabled { error := disabledError }
  rateLimitGuard limited
  require ((s.findEnrollment userId).all fun row => row.seedGeneratedAt = none)
    { error := "Private Identity already enrolled. Reset it before generating a new one." }
  let s' := s.stampGenerated userId now
  return (stateOf (s'.findEnrollment userId), s')

def confirmSeedBackup (env : Env) (limited : Option Nat) (now : Timestamp) (userId : UserId)
    (s : Server) : Except Refusal (AnonSeedState × Server) := do
  require env.anonIdentityEnabled { error := disabledError }
  rateLimitGuard limited
  let existing := s.findEnrollment userId
  require (existing.any fun row => row.seedGeneratedAt ≠ none)
    { error := "Generate a Private Identity before confirming its backup." }
  -- already active
  if existing.any fun row => row.backupConfirmedAt ≠ none then
    return (stateOf existing, s)
  let s' := s.updateEnrollment userId fun row => { row with backupConfirmedAt := some now }
  return (stateOf (s'.findEnrollment userId), s')

/-! ### Wrapped copies -/

/-- `MAX_BLOBS_PER_USER`. -/
def maxBlobsPerUser : Nat := 5

/-- `/^[A-Za-z0-9_-]+$/`. -/
def isBase64Url (value : String) : Bool :=
  value ≠ "" ∧ value.toList.all fun c => 'A' ≤ c ∧ c ≤ 'Z' ∨ 'a' ≤ c ∧ c ≤ 'z' ∨
    '0' ≤ c ∧ c ≤ '9' ∨ c = '_' ∨ c = '-'

structure PutBlobInput where
  credentialId : String
  ciphertext : WrappedSeed
  wrapVersion : Nat
  deriving DecidableEq, Repr

/-- `PutBlobInput.safeParse`, with the first message. A base64url text has as many characters as
code units. -/
def PutBlobInput.parse (input : PutBlobInput) : Except Refusal Unit := do
  require (1 ≤ input.credentialId.length)
    { error := "String must contain at least 1 character(s)" }
  require (input.credentialId.length ≤ 512)
    { error := "String must contain at most 512 character(s)" }
  require (isBase64Url input.credentialId) { error := "credentialId must be base64url" }
  require (input.wrapVersion = 1) { error := "Invalid literal value, expected 1" }

/-- The copy that an account keeps under a credential. -/
def SeedBlob.isFor (userId : UserId) (credentialId : String) (b : SeedBlob) : Bool :=
  b.userId = userId ∧ b.credentialId = credentialId

def Server.upsertBlob (s : Server) (row : SeedBlob) : Server :=
  let same := SeedBlob.isFor row.userId row.credentialId
  if s.blob.any same then { s with blob := mapWhere same (fun _ => row) s.blob }
  else { s with blob := s.blob ++ [row] }

/-- What `putSeedBlob` asks before it reads the copies, and the enrollment that it has read. -/
def putSeedBlobChecks (env : Env) (limited : Option Nat) (userId : UserId) (input : PutBlobInput)
    (s : Server) : Except Refusal Enrollment := do
  require env.anonIdentityEnabled { error := disabledError }
  rateLimitGuard limited
  input.parse
  require (input.ciphertext.length = wrapCiphertextBytes)
    { error := s!"ciphertext must be base64url of exactly {wrapCiphertextBytes} bytes" }
  match (s.findEnrollment userId).filter fun row => row.backupConfirmedAt ≠ none with
  | some enrollment => return enrollment
  | none => throw { error := "Finish backing up your Private Identity before storing it." }

/-- The copies of the user. -/
def blobsOf (userId : UserId) (s : Server) : List SeedBlob :=
  findMany (fun b => b.userId = userId) s.blob

def PutBlobInput.blob (userId : UserId) (input : PutBlobInput) : SeedBlob :=
  ⟨userId, input.credentialId, input.ciphertext, input.wrapVersion⟩

def putSeedBlob (env : Env) (limited : Option Nat) (userId : UserId) (input : PutBlobInput)
    (s : Server) : Except Refusal Server := do
  let _ ← putSeedBlobChecks env limited userId input s
  let existingForCred := s.blob.any (SeedBlob.isFor userId input.credentialId)
  let count := (blobsOf userId s).length
  require (existingForCred || count < maxBlobsPerUser)
    { error := s!"At most {maxBlobsPerUser} devices can store your Private Identity." }
  return s.upsertBlob (input.blob userId)

def getAnonPasskeyCredentialIds (env : Env) (userId : UserId) (s : Server) :
    Except Refusal (List String) := do
  require env.anonIdentityEnabled { error := disabledError }
  return (findMany (fun a => a.userId = userId) s.authenticator).map (·.credentialID)

/-- A copy as it is returned to its owner. -/
structure SeedBlobView where
  credentialId : String
  ciphertext : WrappedSeed
  wrapVersion : Nat
  enrollmentEpoch : Nat
  deriving DecidableEq, Repr

def getSeedBlobs (env : Env) (userId : UserId) (s : Server) :
    Except Refusal (List SeedBlobView) := do
  require env.anonIdentityEnabled { error := disabledError }
  let enrollmentEpoch := ((s.findEnrollment userId).map (·.enrollmentEpoch)).getD 1
  return (blobsOf userId s).map fun b =>
    ⟨b.credentialId, b.ciphertext, b.wrapVersion, enrollmentEpoch⟩

def deleteSeedBlob (env : Env) (limited : Option Nat) (userId : UserId) (credentialId : String)
    (s : Server) : Except Refusal Server := do
  require env.anonIdentityEnabled { error := disabledError }
  rateLimitGuard limited
  require (isBase64Url credentialId && credentialId.length ≤ 512)
    { error := "Invalid credential id" }
  return { s with blob := deleteMany (SeedBlob.isFor userId credentialId) s.blob }

/-! ### The next epoch -/

/-- `RESET_CONFIRM_PHRASE`. -/
def resetConfirmPhrase : String := "reset my anonymous key"

/-- `REKEY_CONFIRM_PHRASE`. -/
def rekeyConfirmPhrase : String := "re-key my identity"

/-- `REKEY_COOLDOWN_MS`. -/
def rekeyCooldownMs : Int := 7 * 24 * 60 * 60 * 1000

/-- `REKEY_RECENCY_SECS`. -/
def rekeyRecencySecs : Int := 5 * 60

/-- The row at the next epoch, with nothing generated for it. -/
def Enrollment.bumped (row : Enrollment) : Enrollment where
  userId := row.userId
  enrollmentEpoch := row.enrollmentEpoch + 1

/-- One transaction: the epoch moves on, both times are cleared, the copies are deleted. -/
def bumpEpochAndPurge (userId : UserId) (s : Server) : Server :=
  let s := s.updateEnrollment userId Enrollment.bumped
  { s with blob := deleteMany (fun b => b.userId = userId) s.blob }

/-- Whether the phrase, trimmed and in lower case, is the expected one. -/
def phraseMatches (env : Env) (expected : String) (confirmPhrase : Option String) : Bool :=
  confirmPhrase.map (fun phrase => env.toLowerCase (trimmed phrase)) = some expected

def resetAnonSeed (env : Env) (limited : Option Nat) (userId : UserId)
    (confirmPhrase : Option String) (s : Server) : Except Refusal (AnonSeedState × Server) := do
  require env.anonIdentityEnabled { error := disabledError }
  rateLimitGuard limited
  let existing := s.findEnrollment userId
  require (existing.any fun row => row.seedGeneratedAt ≠ none)
    { error := "No Private Identity to reset." }
  let wasActive := existing.any fun row => row.backupConfirmedAt ≠ none
  require (!wasActive || phraseMatches env resetConfirmPhrase confirmPhrase)
    { error := s!"Type \"{resetConfirmPhrase}\" to confirm — this permanently replaces your " ++
        "anonymous identity in every app." }
  let s' := bumpEpochAndPurge userId s
  return (stateOf (s'.findEnrollment userId), s')

/-- The quarantine gate lets the acting credential pass. -/
def passGate : Option QuarantineRefusal → Except Refusal Unit
  | some refusal => .error { quarantine := some refusal, error := refusal.message }
  | none => .ok ()

/-- No re-key within the cooldown; the latest one says when the next is possible. -/
def passCooldown (now : Timestamp) (userId : UserId) (s : Server) : Except Refusal Unit :=
  let recent := findMany (fun r => r.userId = userId ∧ now - rekeyCooldownMs < r.createdAt) s.rekey
  match (recent.map (·.createdAt)).max? with
  | some createdAt => .error {
      retryAt := some (createdAt + rekeyCooldownMs)
      error := "You re-keyed recently. For your security, re-keying is limited to once a week." }
  | none => .ok ()

/-- What `rekeyAnonSeed` asks before it reads the enrollment. -/
def rekeyChecks (env : Env) (limited : Option Nat) (now : Timestamp) (userId : UserId)
    (session : Recovery.Session) (gate : Option QuarantineRefusal) (confirmPhrase : Option String)
    (s : Server) : Except Refusal Unit := do
  require env.anonIdentityEnabled { error := disabledError }
  rateLimitGuard limited
  require (2 ≤ session.aal.getD 0)
    { stepUp := true, error := "Re-keying requires signing in with a passkey first." }
  require (Recovery.recent now rekeyRecencySecs session.authTime)
    { stepUp := true
      error :=
        "Confirm it's you: re-authenticate with your passkey, then re-key within 5 minutes." }
  require (phraseMatches env rekeyConfirmPhrase confirmPhrase)
    { error := s!"Type \"{rekeyConfirmPhrase}\" to confirm — this permanently replaces your " ++
        "anonymous identity in every app." }
  passGate gate
  passCooldown now userId s

def rekeyAnonSeed (env : Env) (limited : Option Nat) (now : Timestamp) (userId : UserId)
    (session : Recovery.Session) (gate : Option QuarantineRefusal) (confirmPhrase : Option String)
    (s : Server) : Except Refusal (AnonSeedState × Server) := do
  rekeyChecks env limited now userId session gate confirmPhrase s
  require ((s.findEnrollment userId).any fun row => row.backupConfirmedAt ≠ none)
    { error := "You have no active Private Identity to re-key." }
  let s' := bumpEpochAndPurge userId s
  return (stateOf (s'.findEnrollment userId), { s' with rekey := s'.rekey ++ [⟨userId, now⟩] })

/-! ### Epochs only grow -/

section Later

variable {env : Env} {limited : Option Nat} {now : Timestamp} {userId : UserId} {s s' : Server}
  {state : AnonSeedState} {epoch : Nat}

/-- The account is past the epoch, or at it with a root generated. -/
def Server.Reached (s : Server) (userId : UserId) (epoch : Nat) : Prop :=
  ∃ row, s.findEnrollment userId = some row ∧
    (epoch < row.enrollmentEpoch ∨ epoch = row.enrollmentEpoch ∧ row.seedGeneratedAt ≠ none)

/-- Every epoch that was reached still is, and every copy was there before. -/
structure Server.Later (s s' : Server) : Prop where
  reached : ∀ userId epoch, s.Reached userId epoch → s'.Reached userId epoch
  blob : ∀ b ∈ s'.blob, b ∈ s.blob

theorem Server.Later.refl (s : Server) : s.Later s := ⟨fun _ _ h => h, fun _ h => h⟩

/-- A rewriting of a row that neither lowers its epoch nor forgets its root at that epoch. -/
structure Advances (f : Enrollment → Enrollment) : Prop where
  userId : ∀ row, (f row).userId = row.userId
  epoch : ∀ row, row.enrollmentEpoch < (f row).enrollmentEpoch ∨
    row.enrollmentEpoch = (f row).enrollmentEpoch ∧
      (row.seedGeneratedAt ≠ none → (f row).seedGeneratedAt ≠ none)

theorem findEnrollment_updateEnrollment {f : Enrollment → Enrollment} (hf : Advances f)
    (other : UserId) :
    (s.updateEnrollment userId f).findEnrollment other =
      (s.findEnrollment other).map fun row => if row.userId = userId then f row else row := by
  unfold Server.findEnrollment Server.updateEnrollment
  rw [find?_mapWhere fun row => by rw [hf.userId row]]
  simp only [decide_eq_true_eq]

theorem Server.Reached.updateEnrollment {f : Enrollment → Enrollment} (hf : Advances f)
    {other : UserId} (h : s.Reached other epoch) :
    (s.updateEnrollment userId f).Reached other epoch := by
  obtain ⟨row, hrow, hreached⟩ := h
  refine ⟨if row.userId = userId then f row else row, ?_, ?_⟩
  · rw [findEnrollment_updateEnrollment hf, hrow, Option.map_some]
  split
  · rcases hf.epoch row with hlt | ⟨heq, hkept⟩
    · left
      omega
    · rw [← heq]
      exact hreached.imp_right fun ⟨hepoch, hgenerated⟩ => ⟨hepoch, hkept hgenerated⟩
  · exact hreached

theorem advances_generated : Advances fun row => { row with seedGeneratedAt := some now } where
  userId := fun _ => rfl
  epoch := fun _ => .inr ⟨rfl, fun _ => Option.some_ne_none _⟩

theorem advances_confirmed : Advances fun row => { row with backupConfirmedAt := some now } where
  userId := fun _ => rfl
  epoch := fun _ => .inr ⟨rfl, id⟩

theorem advances_bumped : Advances Enrollment.bumped where
  userId := fun _ => rfl
  epoch := fun row => .inl (Nat.lt_succ_self row.enrollmentEpoch)

theorem later_bumpEpochAndPurge : s.Later (bumpEpochAndPurge userId s) where
  reached := fun _ _ h => h.updateEnrollment advances_bumped
  blob := fun _ hb => (mem_deleteMany.mp hb).1

theorem stampGenerated_blob : (s.stampGenerated userId now).blob = s.blob := by
  unfold Server.stampGenerated
  split <;> rfl

theorem Server.Reached.stampGenerated {other : UserId} (h : s.Reached other epoch) :
    (s.stampGenerated userId now).Reached other epoch := by
  unfold Server.stampGenerated
  split
  · exact h.updateEnrollment advances_generated
  · obtain ⟨row, hrow, hreached⟩ := h
    refine ⟨row, ?_, hreached⟩
    unfold Server.findEnrollment at hrow ⊢
    rw [List.find?_append, hrow]
    rfl

theorem epochOf_eq (s : Server) (userId : UserId) : s.epochOf userId =
    ((s.findEnrollment userId).map (·.enrollmentEpoch)).getD 1 := by
  unfold Server.epochOf stateOf
  cases s.findEnrollment userId with
  | none => rfl
  | some row =>
    dsimp only
    split <;> rfl

/-- Rewriting the row of the user. -/
theorem findEnrollment_update_self {f : Enrollment → Enrollment} (hf : Advances f) :
    (s.updateEnrollment userId f).findEnrollment userId =
      (s.findEnrollment userId).map f := by
  rw [findEnrollment_updateEnrollment hf]
  cases hrow : s.findEnrollment userId with
  | none => rfl
  | some row =>
    have huser : row.userId = userId := by simpa using List.find?_some hrow
    rw [Option.map_some, Option.map_some, if_pos huser]

theorem findEnrollment_stampGenerated :
    (s.stampGenerated userId now).findEnrollment userId =
      some { (s.findEnrollment userId).getD { userId, enrollmentEpoch := 1 } with
        seedGeneratedAt := some now } := by
  unfold Server.stampGenerated
  cases hrow : s.findEnrollment userId with
  | some row =>
    dsimp only
    rw [findEnrollment_update_self advances_generated, hrow]
    rfl
  | none =>
    unfold Server.findEnrollment at hrow ⊢
    dsimp only
    rw [List.find?_append, hrow]
    simp

/-- Stamping a row keeps its epoch. -/
theorem epochOf_stampGenerated :
    (s.stampGenerated userId now).epochOf userId = s.epochOf userId := by
  rw [epochOf_eq, epochOf_eq, findEnrollment_stampGenerated]
  cases s.findEnrollment userId <;> rfl

/-- The root that is generated now is for the epoch that the server reports. -/
theorem reached_stampGenerated :
    (s.stampGenerated userId now).Reached userId (s.epochOf userId) := by
  rw [epochOf_eq]
  refine ⟨_, findEnrollment_stampGenerated, .inr ⟨?_, Option.some_ne_none _⟩⟩
  cases s.findEnrollment userId <;> rfl

/-- Enrollment begins only at an epoch for which no root was generated, and tells the browser
that epoch. -/
theorem begin_eq_ok (h : beginAnonSeedEnrollment env limited now userId s = .ok (state, s')) :
    ¬s.Reached userId (s.epochOf userId) ∧ state.enrollmentEpoch = s.epochOf userId ∧
      s' = s.stampGenerated userId now := by
  unfold beginAnonSeedEnrollment at h
  replace h := ok_of_bind (ok_of_bind h)
  obtain ⟨_, hnone, h⟩ := bind_eq_ok_iff.mp h
  rw [require_eq_ok_iff] at hnone
  cases h
  have hfresh : ¬s.Reached userId (s.epochOf userId) := by
    rintro ⟨row, hrow, hreached⟩
    rw [hrow, Option.all_some, decide_eq_true_eq] at hnone
    simp only [Server.epochOf, stateOf, hrow, hnone, if_true] at hreached
    rcases hreached with hlt | ⟨-, hgenerated⟩
    · omega
    · exact hgenerated rfl
  refine ⟨hfresh, ?_, rfl⟩
  exact epochOf_stampGenerated

theorem later_begin (h : beginAnonSeedEnrollment env limited now userId s = .ok (state, s')) :
    s.Later s' := by
  obtain ⟨-, -, rfl⟩ := begin_eq_ok h
  exact ⟨fun _ _ hreached => hreached.stampGenerated, fun _ hb => stampGenerated_blob ▸ hb⟩

theorem later_confirm (h : confirmSeedBackup env limited now userId s = .ok (state, s')) :
    s.Later s' := by
  unfold confirmSeedBackup at h
  replace h := ok_of_bind (ok_of_bind (ok_of_bind h))
  split at h
  · obtain ⟨-, rfl⟩ := Prod.mk.inj (Except.ok.inj h)
    exact .refl s
  · obtain ⟨-, rfl⟩ := Prod.mk.inj (Except.ok.inj h)
    exact ⟨fun _ _ hreached => hreached.updateEnrollment advances_confirmed, fun _ hb => hb⟩

theorem later_reset {confirmPhrase : Option String}
    (h : resetAnonSeed env limited userId confirmPhrase s = .ok (state, s')) : s.Later s' := by
  unfold resetAnonSeed at h
  replace h := ok_of_bind (ok_of_bind (ok_of_bind (ok_of_bind h)))
  obtain ⟨-, rfl⟩ := Prod.mk.inj (Except.ok.inj h)
  exact later_bumpEpochAndPurge

theorem later_rekey {session : Recovery.Session} {gate : Option QuarantineRefusal}
    {confirmPhrase : Option String}
    (h : rekeyAnonSeed env limited now userId session gate confirmPhrase s = .ok (state, s')) :
    s.Later s' := by
  unfold rekeyAnonSeed at h
  replace h := ok_of_bind (ok_of_bind h)
  obtain ⟨-, rfl⟩ := Prod.mk.inj (Except.ok.inj h)
  exact ⟨later_bumpEpochAndPurge.reached, later_bumpEpochAndPurge.blob⟩

theorem later_deleteSeedBlob {credentialId : String}
    (h : deleteSeedBlob env limited userId credentialId s = .ok s') : s.Later s' := by
  unfold deleteSeedBlob at h
  replace h := ok_of_bind (ok_of_bind (ok_of_bind h))
  cases h
  exact ⟨fun _ _ hreached => hreached, fun _ hb => (mem_deleteMany.mp hb).1⟩

theorem mem_upsertBlob {row b : SeedBlob} (h : b ∈ (s.upsertBlob row).blob) :
    b ∈ s.blob ∨ b = row := by
  unfold Server.upsertBlob at h
  dsimp only at h
  split at h
  · obtain ⟨b', hb', rfl⟩ := mem_mapWhere.mp h
    split
    · exact .inr rfl
    · exact .inl hb'
  · rcases List.mem_append.mp h with hb | hb
    · exact .inl hb
    · exact .inr (List.mem_singleton.mp hb)

/-- Storing a copy adds that copy and touches no enrollment. -/
theorem putSeedBlob_eq_ok {input : PutBlobInput}
    (h : putSeedBlob env limited userId input s = .ok s') :
    s'.enrollment = s.enrollment ∧
      ∀ b ∈ s'.blob, b ∈ s.blob ∨ b.ciphertext = input.ciphertext := by
  unfold putSeedBlob at h
  replace h := ok_of_bind (ok_of_bind h)
  cases h
  constructor
  · unfold Server.upsertBlob
    dsimp only
    split <;> rfl
  · intro b hb
    exact (mem_upsertBlob hb).imp_right (congrArg SeedBlob.ciphertext)

end Later

end Minister.AnonSeed
