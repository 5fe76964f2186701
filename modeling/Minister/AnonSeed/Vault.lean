import Minister.AnonSeed.Enrollment

/-!
# The vault

The part of the web client that holds the root of a private identity. Every page has a vault in
memory, and the pages of one browser share a store that survives them. A vault knows whose root
it holds, whether the enrollment is active, and the epoch that the root belongs to. It derives
the secret of an app only at that epoch.

A root gets into a vault when it is generated, from the store, from a blob that a passkey
unlocks, from another device, or from a key that the user types in or a password manager fills
in. The epoch that it is labelled with comes with the root in some of these cases, from the
server or from the caller in others.

The operations of any number of pages and browsers follow one another in any order. What a page
tells its user is part of the results of the functions, and is dropped by the machine. Retyping
the backup before it is confirmed is left out, and so are the preference for memory only and the
saving to a password manager.
-/

namespace Minister.AnonSeed

open Relational Transition
open Credentials (QuarantineRefusal)

/-! ### The store -/

/-- Whether a browser offers IndexedDB, and whether it serves the request at hand. -/
inductive Storage
  | works
  | absent
  | fails
  deriving DecidableEq, Repr

structure Browser where
  id : Nat
  storage : Storage
  deriving DecidableEq, Repr

/-- A record of the store, with the browser it is in. -/
structure RootRecord where
  browser : Nat
  userId : UserId
  root : Bytes
  epoch : Nat
  deriving DecidableEq, Repr

def RootRecord.isFor (browser : Nat) (userId : UserId) (r : RootRecord) : Bool :=
  r.browser = browser ∧ r.userId = userId

def assertUserId (userId : UserId) : Except ClientError Unit :=
  check (userId ≠ "") (.range "userId must be non-empty")

def putRoot (b : Browser) (userId : UserId) (root : Bytes) (epoch : Nat)
    (store : List RootRecord) : Except ClientError (List RootRecord) := do
  let length := root.length
  check (length = rootSeedBytes) (.range
    s!"root must be exactly {rootSeedBytes} bytes, got {length}")
  check (epoch ≤ maxSafeInteger ∧ 1 ≤ epoch) (.range
    s!"epoch must be an integer >= 1, got {epoch}")
  assertUserId userId
  match b.storage with
  | .absent => return store
  | .fails => throw .storage
  | .works =>
    return deleteMany (RootRecord.isFor b.id userId) store ++ [⟨b.id, userId, root, epoch⟩]

def getRoot (b : Browser) (userId : UserId) (store : List RootRecord) :
    Except ClientError (Option RootRecord) := do
  assertUserId userId
  match b.storage with
  | .absent => return none
  | .fails => throw .storage
  | .works => return store.find? (RootRecord.isFor b.id userId)

def deleteRoot (b : Browser) (userId : UserId) (store : List RootRecord) :
    Except ClientError (List RootRecord) := do
  assertUserId userId
  match b.storage with
  | .absent => return store
  | .fails => throw .storage
  | .works => return deleteMany (RootRecord.isFor b.id userId) store

/-! ### The vault -/

/-- `DEFAULT_ANON_EPOCH`. -/
def defaultAnonEpoch : Nat := 1

structure Vault where
  seed : Option Bytes := none
  seedUserId : Option UserId := none
  active : Bool := false
  vaultEpoch : Nat := defaultAnonEpoch
  deriving DecidableEq, Repr

/-- What a page can write without the server: its vault, and the store. -/
structure Device where
  vault : Vault
  store : List RootRecord
  deriving DecidableEq, Repr

/-- Best effort: what the store refuses is not kept. -/
def persistRoot (b : Browser) (userId : UserId) (d : Device) : Device :=
  match d.vault.seed with
  | none => d
  | some seed =>
    if d.vault.seedUserId ≠ some userId ∨ d.vault.active = false then d
    else
      match putRoot b userId seed d.vault.vaultEpoch d.store with
      | .ok store => { d with store }
      | .error _ => d

def unlockVault (b : Browser) (userId : UserId) (input : Bytes) (active : Bool) (epoch : Nat)
    (d : Device) : Except ClientError Device := do
  check (input.length = rootSeedBytes) (.anonSeedCrypto
    s!"root seed must be {rootSeedBytes} bytes")
  let d := { d with vault := ⟨some input, some userId, active, epoch⟩ }
  return if active then persistRoot b userId d else d

def markVaultActive (b : Browser) (userId : UserId) (d : Device) : Device :=
  if d.vault.seed ≠ none ∧ d.vault.seedUserId = some userId then
    persistRoot b userId { d with vault := { d.vault with active := true } }
  else d

/-- Whether a root was found, and what became of the vault. -/
def unlockFromStore (b : Browser) (userId : UserId) (d : Device) :
    Except ClientError (Bool × Device) := do
  match ← getRoot b userId d.store with
  | none => return (false, d)
  | some stored => return (true, ← unlockVault b userId stored.root true stored.epoch d)

def lockVault (d : Device) : Device := { d with vault := {} }

def purgeVault (b : Browser) (userId : UserId) (d : Device) : Device :=
  let d := lockVault d
  match deleteRoot b userId d.store with
  | .ok store => { d with store }
  | .error _ => d

/-- The vault holds the root of this user. -/
def Vault.holds (v : Vault) (userId : UserId) : Option Bytes :=
  if v.seedUserId = some userId then v.seed else none

def Vault.deriveAppSecret (env : Env) (v : Vault) (anonAppId : String) (userId : UserId)
    (epoch : Nat) : Except ClientError Bytes := do
  match v.holds userId with
  | none => throw (.anonSeedCrypto "vault is locked")
  | some seed =>
    check v.active (.anonSeedCrypto "enrollment is not active")
    let vaultEpoch := v.vaultEpoch
    check (epoch = vaultEpoch) (.anonSeedCrypto
      (s!"epoch mismatch: this device holds an epoch-{vaultEpoch} root but the server epoch " ++
        s!"is {epoch}"))
    AnonSeed.deriveAppSecret env seed anonAppId epoch

/-- A key that the user types in, or that a password manager fills in. The label is the
caller's. -/
def unlockWithSeedInput (env : Env) (b : Browser) (userId : UserId) (input : String) (epoch : Nat)
    (d : Device) : Except ClientError Device := do
  let parsed ← decodeStringToSeed env input
  unlockVault b userId parsed true epoch d

/-! ### Other devices -/

def sealRootToPeer (userId : UserId) (sessionId : String) (recipientPublicKey : Bytes)
    (v : Vault) : Except ClientError RelayBody :=
  match v.holds userId with
  | some seed =>
    if v.active then sealRoot recipientPublicKey seed userId sessionId v.vaultEpoch
    else .error (.anonSeedCrypto
      "vault is not ready: unlock your Private Identity on this device before pairing")
  | none => .error (.anonSeedCrypto
      "vault is not ready: unlock your Private Identity on this device before pairing")

def receiveRootFromPeer (b : Browser) (userId : UserId) (sessionId : String)
    (recipientKeyPair : CryptoKeyPair) (relayBody : RelayBody) (epoch : Nat) (d : Device) :
    Except ClientError Device := do
  let root ← openRoot recipientKeyPair relayBody userId sessionId epoch
  unlockVault b userId root true epoch d

/-! ### Passkeys -/

/-- What the authenticator answers. -/
inductive PrfAssertOutcome
  | ok (credentialId : String) (prfOutput : Bytes)
  | cancelled
  | prfUnsupported
  deriving DecidableEq, Repr

inductive PasskeyFailure
  | vaultLocked
  | notActive
  | noPasskeys
  | noBlobs
  | prfUnsupported
  | cancelled
  | mismatch
  | server
  deriving DecidableEq, Repr

/-- A failure with what the user is told. -/
structure PasskeyRefusal where
  reason : PasskeyFailure
  message : String
  deriving DecidableEq, Repr

/-- A failure that a server action returned. -/
def PasskeyRefusal.ofServer (refusal : Refusal) : PasskeyRefusal := ⟨.server, refusal.error⟩

/-- Store a copy of the root under a passkey. `none` is an exception, which leaves the server as
it is. -/
def enrollPasskeyBlob (env : Env) (limited : Option Nat) (userId : UserId)
    (assertion : PrfAssertOutcome) (v : Vault) (s : Server) :
    Option (Except PasskeyRefusal String × Server) :=
  match v.holds userId, getAnonSeedState env userId s, getAnonPasskeyCredentialIds env userId s with
  | none, _, _ => some (.error ⟨.vaultLocked, "Unlock your Private Identity first."⟩, s)
  | some _, .error refusal, _ => some (.error (.ofServer refusal), s)
  | some seed, .ok state, credentialIds =>
    if state.status ≠ .active then
      some (.error ⟨.notActive, "Finish backing up your Private Identity before storing it."⟩, s)
    else
      match credentialIds, assertion with
      | .error refusal, _ => some (.error (.ofServer refusal), s)
      | .ok [], _ => some (.error ⟨.noPasskeys,
          "You have no passkeys yet. Add one under Settings → Credentials first."⟩, s)
      | .ok _, .cancelled => some (.error ⟨.cancelled, "Passkey prompt was cancelled."⟩, s)
      | .ok _, .prfUnsupported => some (.error ⟨.prfUnsupported,
          "This passkey can't protect your Private Identity on this device. Use the password " ++
            "manager instead."⟩, s)
      | .ok _, .ok credentialId prfOutput =>
        -- the epoch of the server, not that of the vault
        match wrapSeed env seed prfOutput ⟨userId, credentialId, 1, state.enrollmentEpoch⟩ with
        | .error _ => none
        | .ok wrapped =>
          match putSeedBlob env limited userId ⟨credentialId, wrapped, 1⟩ s with
          | .error refusal => some (.error (.ofServer refusal), s)
          | .ok s' => some (.ok credentialId, s')

/-- Open a copy and load it. -/
def openBlob (env : Env) (b : Browser) (userId : UserId) (blob : SeedBlobView) (prfOutput : Bytes)
    (d : Device) : Except ClientError Device := do
  let unwrapped ← unwrapSeed env blob.ciphertext prfOutput
    ⟨userId, blob.credentialId, blob.wrapVersion, blob.enrollmentEpoch⟩
  unlockVault b userId unwrapped true blob.enrollmentEpoch d

def unlockWithPasskey (env : Env) (b : Browser) (userId : UserId) (assertion : PrfAssertOutcome)
    (s : Server) (d : Device) : Except PasskeyRefusal Device :=
  match getSeedBlobs env userId s, assertion with
  | .error refusal, _ => .error (.ofServer refusal)
  | .ok [], _ => .error ⟨.noBlobs, "No passkey-protected copy on file."⟩
  | .ok _, .cancelled => .error ⟨.cancelled, "Passkey prompt was cancelled."⟩
  | .ok _, .prfUnsupported => .error ⟨.prfUnsupported,
      "This passkey can't unlock your Private Identity on this device."⟩
  | .ok blobs, .ok credentialId prfOutput =>
    match blobs.find? fun blob => blob.credentialId = credentialId with
    | none => .error ⟨.mismatch, "That passkey has no stored copy."⟩
    | some blob =>
      match openBlob env b userId blob prfOutput d with
      | .error _ => .error ⟨.mismatch,
          "This passkey cannot unlock your Private Identity on this device. Enter it manually " ++
            "instead."⟩
      | .ok d => .ok d

/-! ### Any number of pages -/

/-- A root that was generated, for whom and for which epoch. -/
structure Generated where
  userId : UserId
  epoch : Nat
  root : Bytes
  deriving DecidableEq, Repr

structure Page where
  browser : Nat
  vault : Vault := {}
  deriving DecidableEq, Repr

/-- The server, the pages and the store of every browser, the relay bodies that were sealed, and
the roots that were generated. -/
structure State where
  server : Server := {}
  pages : List Page := []
  store : List RootRecord := []
  relayed : List RelayBody := []
  generated : List Generated := []
  deriving DecidableEq, Repr

/-- The operations. `storage` says what the browser makes of a request to its store. -/
inductive Action
  | openPage (browser : Nat)
  /-- `generate` of the enrollment, with the root that is drawn. -/
  | generate (page : Nat) (userId : UserId) (needsRestart : Bool)
      (limitedReset limitedBegin : Option Nat) (now : Timestamp) (root : Bytes)
  /-- `submitConfirm` of the enrollment. -/
  | confirm (page : Nat) (userId : UserId) (storage : Storage) (limited : Option Nat)
      (now : Timestamp)
  | reset (page : Nat) (userId : UserId) (limited : Option Nat) (confirmPhrase : Option String)
  | rekey (userId : UserId) (limited : Option Nat) (now : Timestamp) (session : Recovery.Session)
      (gate : Option QuarantineRefusal) (confirmPhrase : Option String)
  | enrollPasskeyBlob (page : Nat) (userId : UserId) (limited : Option Nat)
      (assertion : PrfAssertOutcome)
  | deleteSeedBlob (userId : UserId) (limited : Option Nat) (credentialId : String)
  | unlockWithPasskey (page : Nat) (userId : UserId) (storage : Storage)
      (assertion : PrfAssertOutcome)
  | unlockFromStore (page : Nat) (userId : UserId) (storage : Storage)
  | unlockWithSeedInput (page : Nat) (userId : UserId) (storage : Storage) (input : String)
      (epoch : Nat)
  | sealRootToPeer (page : Nat) (userId : UserId) (sessionId : String)
      (recipientPublicKey : Bytes)
  /-- The relay hands over some body that was sealed before. -/
  | receiveRootFromPeer (page : Nat) (userId : UserId) (storage : Storage) (sessionId : String)
      (recipientKeyPair : CryptoKeyPair) (relayed : Nat) (epoch : Nat)
  | lock (page : Nat)
  | purge (page : Nat) (userId : UserId) (storage : Storage)
  deriving DecidableEq, Repr

/-- What a server action leaves. -/
def committed {α : Type} (s : Server) : Except Refusal (α × Server) → Server
  | .ok (_, s') => s'
  | .error _ => s

/-- Run a function on the vault of a page. One that throws leaves it as it is. -/
def State.onPage {ε : Type} (s : State) (page : Nat) (storage : Storage)
    (f : Browser → Device → Except ε Device) : Option State :=
  s.pages[page]?.map fun p =>
    match f ⟨p.browser, storage⟩ ⟨p.vault, s.store⟩ with
    | .error _ => s
    | .ok d => { s with pages := s.pages.set page { p with vault := d.vault }, store := d.store }

/-- The free reset before a restart, if there is one to make. -/
def restarted (env : Env) (needsRestart : Bool) (limited : Option Nat) (userId : UserId)
    (s : Server) : Server :=
  if needsRestart then committed s (resetAnonSeed env limited userId none s) else s

/-- The root goes into the vault at the epoch that the server reports, not active yet. -/
def State.generate (env : Env) (s : State) (page : Nat) (userId : UserId) (needsRestart : Bool)
    (limitedReset limitedBegin : Option Nat) (now : Timestamp) (root : Bytes) : Option State :=
  let server := restarted env needsRestart limitedReset userId s.server
  match beginAnonSeedEnrollment env limitedBegin now userId server with
  | .error _ => some { s with server }
  | .ok (state, server) =>
    State.onPage
      { s with server, generated := s.generated ++ [⟨userId, state.enrollmentEpoch, root⟩] }
      page .absent fun b => unlockVault b userId root false state.enrollmentEpoch

def State.confirm (env : Env) (s : State) (page : Nat) (userId : UserId) (storage : Storage)
    (limited : Option Nat) (now : Timestamp) : Option State :=
  match confirmSeedBackup env limited now userId s.server with
  | .error _ => some s
  | .ok (_, server) => State.onPage { s with server } page storage fun b d =>
      (.ok (markVaultActive b userId d) : Except ClientError Device)

/-- A reset that succeeds locks the vault of the page it is made on. -/
def State.reset (env : Env) (s : State) (page : Nat) (userId : UserId) (limited : Option Nat)
    (confirmPhrase : Option String) : Option State :=
  match resetAnonSeed env limited userId confirmPhrase s.server with
  | .error _ => some s
  | .ok (_, server) => State.onPage { s with server } page .absent fun _ d =>
      (.ok (lockVault d) : Except ClientError Device)

def State.enrollPasskeyBlob (env : Env) (s : State) (page : Nat) (userId : UserId)
    (limited : Option Nat) (assertion : PrfAssertOutcome) : Option State :=
  s.pages[page]?.map fun p =>
    match AnonSeed.enrollPasskeyBlob env limited userId assertion p.vault s.server with
    | none => s
    | some (_, server) => { s with server }

def State.sealRootToPeer (s : State) (page : Nat) (userId : UserId) (sessionId : String)
    (recipientPublicKey : Bytes) : Option State :=
  s.pages[page]?.map fun p =>
    match AnonSeed.sealRootToPeer userId sessionId recipientPublicKey p.vault with
    | .error _ => s
    | .ok body => { s with relayed := s.relayed ++ [body] }

/-- One operation. Roots have their length and do not repeat. -/
def step (env : Env) (s : State) : Action → Option State
  | .openPage browser => some { s with pages := s.pages ++ [{ browser }] }
  | .generate page userId needsRestart limitedReset limitedBegin now root =>
    if root.length = rootSeedBytes ∧ ∀ g ∈ s.generated, g.root ≠ root then
      s.generate env page userId needsRestart limitedReset limitedBegin now root
    else none
  | .confirm page userId storage limited now => s.confirm env page userId storage limited now
  | .reset page userId limited confirmPhrase => s.reset env page userId limited confirmPhrase
  | .rekey userId limited now session gate confirmPhrase =>
    let rekeyed := rekeyAnonSeed env limited now userId session gate confirmPhrase s.server
    some { s with server := committed s.server rekeyed }
  | .enrollPasskeyBlob page userId limited assertion =>
    s.enrollPasskeyBlob env page userId limited assertion
  | .deleteSeedBlob userId limited credentialId =>
    let deleted := deleteSeedBlob env limited userId credentialId s.server
    some { s with server := committed s.server (deleted.map fun server => ((), server)) }
  | .unlockWithPasskey page userId storage assertion =>
    s.onPage page storage fun b => unlockWithPasskey env b userId assertion s.server
  | .unlockFromStore page userId storage => s.onPage page storage fun b d =>
      (unlockFromStore b userId d).map Prod.snd
  | .unlockWithSeedInput page userId storage input epoch =>
    s.onPage page storage fun b => unlockWithSeedInput env b userId input epoch
  | .sealRootToPeer page userId sessionId recipientPublicKey =>
    s.sealRootToPeer page userId sessionId recipientPublicKey
  | .receiveRootFromPeer page userId storage sessionId recipientKeyPair relayed epoch =>
    s.relayed[relayed]?.bind fun body => s.onPage page storage fun b =>
      receiveRootFromPeer b userId sessionId recipientKeyPair body epoch
  | .lock page => s.onPage page .absent fun _ d => (.ok (lockVault d) : Except ClientError Device)
  | .purge page userId storage => s.onPage page storage fun b d =>
      (.ok (purgeVault b userId d) : Except ClientError Device)

/-! ### Labels -/

section Labels

variable {generated : List Generated} {d d' : Device} {b : Browser} {userId : UserId}

/-- The root that the vault holds was generated for the user and the epoch that it says. -/
def Vault.Labelled (generated : List Generated) (v : Vault) : Prop :=
  ∀ root, v.seed = some root →
    ∃ userId, v.seedUserId = some userId ∧ ⟨userId, v.vaultEpoch, root⟩ ∈ generated

/-- So it is for the roots in the store, too. -/
structure Device.Labelled (generated : List Generated) (d : Device) : Prop where
  vault : d.vault.Labelled generated
  store : ∀ r ∈ d.store, ⟨r.userId, r.epoch, r.root⟩ ∈ generated

theorem Vault.labelled_empty : Vault.Labelled generated {} := by
  rintro root ⟨⟩

theorem Vault.Labelled.mem {v : Vault} {root : Bytes} (h : v.Labelled generated)
    (hholds : v.holds userId = some root) : ⟨userId, v.vaultEpoch, root⟩ ∈ generated := by
  unfold Vault.holds at hholds
  split at hholds
  · rename_i huser
    obtain ⟨user, huser', hmem⟩ := h root hholds
    obtain rfl : userId = user := Option.some.inj (huser.symm.trans huser')
    exact hmem
  · cases hholds

theorem mem_putRoot {root : Bytes} {epoch : Nat} {store store' : List RootRecord}
    (h : putRoot b userId root epoch store = .ok store') :
    ∀ r ∈ store', r ∈ store ∨ r = ⟨b.id, userId, root, epoch⟩ := by
  unfold putRoot at h
  replace h := ok_of_bind (ok_of_bind (ok_of_bind h))
  intro r hr
  split at h
  · cases h
    exact .inl hr
  · cases h
  · cases h
    rcases List.mem_append.mp hr with hr | hr
    · exact .inl (mem_deleteMany.mp hr).1
    · exact .inr (List.mem_singleton.mp hr)

variable (h : d.Labelled generated)

include h

/-- The store gets the root with the label that the vault has. -/
theorem Device.Labelled.persistRoot : (persistRoot b userId d).Labelled generated := by
  unfold AnonSeed.persistRoot
  split
  · exact h
  · rename_i seed hseed
    split
    · exact h
    · rename_i hready
      push Not at hready
      split
      · rename_i store hput
        refine ⟨h.vault, fun r hr => ?_⟩
        rcases mem_putRoot hput r hr with hr | rfl
        · exact h.store r hr
        · exact h.vault.mem (by rw [Vault.holds, if_pos hready.1, hseed])
      · exact h

/-- A vault is labelled right if what is loaded into it is. -/
theorem Device.Labelled.unlockVault {input : Bytes} {active : Bool} {epoch : Nat}
    (hmem : ⟨userId, epoch, input⟩ ∈ generated)
    (hunlock : unlockVault b userId input active epoch d = .ok d') : d'.Labelled generated := by
  unfold AnonSeed.unlockVault at hunlock
  obtain ⟨_, -, hunlock⟩ := bind_eq_ok_iff.mp hunlock
  have hloaded : Device.Labelled generated
      { d with vault := ⟨some input, some userId, active, epoch⟩ } := by
    refine ⟨?_, h.store⟩
    intro root hroot
    cases hroot
    exact ⟨userId, rfl, hmem⟩
  cases hunlock
  split
  · exact hloaded.persistRoot
  · exact hloaded

theorem Device.Labelled.markVaultActive : (markVaultActive b userId d).Labelled generated := by
  unfold AnonSeed.markVaultActive
  split
  · apply Device.Labelled.persistRoot
    exact ⟨h.vault, h.store⟩
  · exact h

theorem Device.Labelled.lockVault :
    (lockVault d).Labelled generated := ⟨Vault.labelled_empty, h.store⟩

theorem Device.Labelled.purgeVault : (purgeVault b userId d).Labelled generated := by
  unfold AnonSeed.purgeVault deleteRoot
  dsimp only
  split
  · rename_i store hdelete
    obtain ⟨_, -, hdelete⟩ := bind_eq_ok_iff.mp hdelete
    refine ⟨Vault.labelled_empty, fun r hr => h.store r ?_⟩
    split at hdelete
    · cases hdelete
      exact hr
    · cases hdelete
    · cases hdelete
      exact (mem_deleteMany.mp hr).1
  · exact h.lockVault

/-- The store hands out a root with its label. -/
theorem Device.Labelled.unlockFromStore {found : Bool}
    (hunlock : unlockFromStore b userId d = .ok (found, d')) : d'.Labelled generated := by
  unfold AnonSeed.unlockFromStore at hunlock
  obtain ⟨stored, hget, hunlock⟩ := bind_eq_ok_iff.mp hunlock
  cases stored with
  | none =>
    obtain ⟨-, rfl⟩ := Prod.mk.inj (Except.ok.inj hunlock)
    exact h
  | some stored =>
    obtain ⟨d₁, hload, hunlock⟩ := bind_eq_ok_iff.mp hunlock
    obtain ⟨-, rfl⟩ := Prod.mk.inj (Except.ok.inj hunlock)
    have hfound : d.store.find? (RootRecord.isFor b.id userId) = some stored := by
      unfold getRoot at hget
      obtain ⟨_, -, hget⟩ := bind_eq_ok_iff.mp hget
      split at hget
      · cases hget
      · cases hget
      · exact Except.ok.inj hget
    have huser : stored.userId = userId := by
      have := List.find?_some hfound
      rw [RootRecord.isFor, decide_eq_true_eq] at this
      exact this.2
    refine h.unlockVault ?_ hload
    rw [← huser]
    exact h.store stored (List.mem_of_find?_eq_some hfound)

end Labels

end Minister.AnonSeed
