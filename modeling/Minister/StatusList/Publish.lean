import Minister.Codec.Bitstring
import Minister.StatusList.Turns
import Minister.Vc.IssueBadge

/-!
# Publishing a status list

`publishList` folds the revocations whose time has come into the bits of a list, signs a credential
over them, and stores bits, version and credential. It reads the row and the entries in two
statements and writes in a third, which is guarded: it does nothing unless the row still has the
version that was read. A call that loses starts over, four times at most.

Calls run side by side, one statement at a time, together with the allocations and revocations of
`StatusLists`. Every call has a clock of its own. Whatever else may throw (the signer, the
database) ends a call where it stands. `gzip` and the length of what is signed are parameters, and
the signed credential is given by its header and payload. The audit log is left out.

A write is logged with what was there before and after, and with the entries as the call has read
them. The log is not part of the code. A revocation that is still running may move the time at
which an entry is revealed after a publisher has read it; what counts is what was read. An entry
without such a time is revealed at once.
-/

namespace Minister.Publication

open Codec Relational Transition Vc
open StatusLists (BadgeStatusEntry Keeps shardSizeBits)

/-! ### Bits -/

/-- `SHARD_SIZE_BYTES`. -/
def shardSizeBytes : Nat := shardSizeBits / 8

def newBitstring : Bytes := List.replicate shardSizeBytes 0

def assertIndex (index : Nat) : Except String Unit :=
  if shardSizeBits ≤ index then
    .error s!"bit index {index} out of range [0, {shardSizeBits})"
  else .ok ()

/-- Whether the bit changed, and the bits. -/
def setBit (bits : Bytes) (index : Nat) : Except String (Bool × Bytes) :=
  (assertIndex index).map fun _ =>
    if testBit bits index then (false, bits) else (true, raiseBit bits index)

def getBit (bits : Bytes) (index : Nat) : Except String Bool :=
  (assertIndex index).map fun _ => testBit bits index

/-- Calls one after the other: what each returns, and the bits. -/
def setBits : List (Fin shardSizeBits) → Bytes → Except String (List Bool × Bytes)
  | [], bits => .ok ([], bits)
  | i :: indices, bits => do
    let (changed, bits) ← setBit bits i
    let (rest, bits) ← setBits indices bits
    return (changed :: rest, bits)

section Calls

variable {bits : Bytes}

theorem assertIndex_fin (i : Fin shardSizeBits) : assertIndex i = .ok () :=
  if_neg (Nat.not_le_of_lt i.isLt)

theorem getBit_eq_ok_true_iff (i : Fin shardSizeBits) :
    getBit bits i = .ok true ↔ testBit bits i = true := by
  simp [getBit, assertIndex_fin, Except.map]

theorem setBit_fin (hbits : bits.length = shardSizeBytes) (i : Fin shardSizeBits) :
    ∃ bits', setBit bits i = .ok (!testBit bits i, bits') ∧ bits'.length = shardSizeBytes ∧
      ∀ j, testBit bits' j = true ↔ testBit bits j = true ∨ j = i := by
  have hbyte : i / 8 < bits.length := by
    rw [hbits]
    exact Nat.div_lt_div_of_lt_of_dvd (by decide) i.isLt
  rw [setBit, assertIndex_fin]
  cases hset : testBit bits i with
  | true =>
    refine ⟨bits, rfl, hbits, fun j => (or_iff_left_of_imp ?_).symm⟩
    rintro rfl
    exact hset
  | false =>
    refine ⟨raiseBit bits i, rfl, (List.length_set ..).trans hbits, fun j => ?_⟩
    rw [testBit_raiseBit, and_iff_left hbyte]

theorem setBits_spec (indices : List (Fin shardSizeBits)) (hbits : bits.length = shardSizeBytes) :
    ∃ changed bits', setBits indices bits = .ok (changed, bits') ∧
      bits'.length = shardSizeBytes ∧
      (∀ j : Fin shardSizeBits, testBit bits' j = true ↔ testBit bits j = true ∨ j ∈ indices) ∧
      changed = indices.mapIdx fun m (i : Fin shardSizeBits) =>
        decide ¬(getBit bits i = .ok true ∨ i ∈ indices.take m) := by
  induction indices generalizing bits with
  | nil => exact ⟨[], bits, rfl, hbits, by simp, rfl⟩
  | cons i indices ih =>
    obtain ⟨bits₁, hset, hlength, hfirst⟩ := setBit_fin hbits i
    obtain ⟨changed, bits', hrest, hlength', hbit, hchanged⟩ := ih hlength
    have hrun : setBits (i :: indices) bits = .ok ((!testBit bits i) :: changed, bits') := by
      simp only [setBits, hset, bind, Except.bind, hrest]
      rfl
    refine ⟨_, bits', hrun, hlength', fun j => ?_, ?_⟩
    · rw [hbit, hfirst, or_assoc, Fin.val_inj, List.mem_cons]
    · simp [hchanged, List.mapIdx_cons, getBit_eq_ok_true_iff, hfirst, Fin.val_inj,
        Bool.and_assoc]

end Calls

/-- The bits that are set afterwards are those that were set and those at the indices, each call
returns whether its bit was clear, and the order of the calls does not matter. -/
theorem setBits_frame (bits : {bits : Bytes // bits.length = shardSizeBytes})
    (indices : List (Fin shardSizeBits)) :
    ∃ changed bits', setBits indices bits = .ok (changed, bits') ∧
      (∀ j : Fin shardSizeBits,
        getBit bits' j = .ok true ↔ getBit bits j = .ok true ∨ j ∈ indices) ∧
      (changed = indices.mapIdx fun m (i : Fin shardSizeBits) =>
        decide ¬(getBit bits i = .ok true ∨ i ∈ indices.take m)) ∧
      ∀ indices', indices'.Perm indices →
        ∃ changed', setBits indices' bits = .ok (changed', bits') := by
  obtain ⟨changed, bits', hrun, hlength, hbit, hchanged⟩ := setBits_spec indices bits.2
  refine ⟨changed, bits', hrun, fun j => ?_, hchanged, fun indices' hperm => ?_⟩
  · rw [getBit_eq_ok_true_iff, getBit_eq_ok_true_iff, hbit]
  · obtain ⟨changed', bits₂, hrun', hlength', hbit', -⟩ := setBits_spec indices' bits.2
    -- Both runs leave the bits that the one set of indices gives.
    have hsame : bits₂ = bits' := by
      refine eq_of_testBit_eq (hlength'.trans hlength.symm) fun j hj => Bool.eq_iff_iff.mpr ?_
      have hj' : j < shardSizeBits := by
        rw [hlength', shardSizeBytes, Nat.div_lt_iff_lt_mul (by decide)] at hj
        exact hj
      have hleft := hbit' ⟨j, hj'⟩
      rw [hperm.mem_iff, ← hbit ⟨j, hj'⟩] at hleft
      exact hleft
    exact ⟨changed', hsame ▸ hrun'⟩

/-- What the loop over the eligible entries computes. -/
structure Folded where
  bits : Bytes
  changed : Bool := false
  revokedBits : Nat := 0

def foldBit (acc : Folded) (entry : BadgeStatusEntry) : Except String Folded :=
  (setBit acc.bits entry.bitIndex).map fun
    | (true, bits) => ⟨bits, true, acc.revokedBits + 1⟩
    | (false, bits) => { acc with bits }

/-! ### The credential -/

structure PublishEnv where
  issuer : Issuer
  oidcIssuerUrl : String
  /-- `gzipSync`, written in `base64url`. -/
  gzip : Bytes → String

structure StatusListCredentialPayload where
  iss : String
  sub : String
  iat : Int
  exp : Int
  jti : String
  statusListVersion : Int
  context : List String
  type : List String
  subjectId : String
  subjectType : String
  statusPurpose : String
  encodedList : String
  ttl : Nat
  deriving DecidableEq, Repr

structure SignedStatusList where
  header : Json
  payload : StatusListCredentialPayload

/-- `KMS_RAW_SIGN_MAX_BYTES`. -/
def kmsRawSignMaxBytes : Nat := 4096

/-- `VALIDITY_WINDOW_MS`. -/
def validityWindowMs : Int := 15 * 60000

/-- `HEARTBEAT_MS`. -/
def heartbeatMs : Int := 5 * 60000

/-- `LIST_TTL_MS`. -/
def listTtlMs : Nat := 60000

def encodeList (env : PublishEnv) (bits : Bytes) : String := "u" ++ env.gzip bits

def buildStatusListPayload (env : PublishEnv) (listId : String) (bits : Bytes) (version nowMs : Int)
    (jti : String) : StatusListCredentialPayload where
  iss := env.issuer.did
  sub := statusListUrl env.oidcIssuerUrl listId
  iat := nowMs / 1000
  exp := (nowMs + validityWindowMs) / 1000
  jti := jti
  statusListVersion := version
  context := [vcContext]
  type := ["VerifiableCredential", "BitstringStatusListCredential"]
  subjectId := statusListUrl env.oidcIssuerUrl listId ++ "#list"
  subjectType := "BitstringStatusList"
  statusPurpose := "revocation"
  encodedList := encodeList env bits
  ttl := listTtlMs

/-- The signed credential, if what is signed has `inputBytes` bytes. -/
def signStatusListCredential (env : PublishEnv) (payload : StatusListCredentialPayload)
    (inputBytes : Nat) : Except String SignedStatusList :=
  if kmsRawSignMaxBytes < inputBytes then
    let sub := payload.sub
    .error (s!"status-list: JWS signing input {inputBytes} B exceeds the KMS RAW cap " ++
      s!"{kmsRawSignMaxBytes} B — refusing to publish ({sub})")
  else .ok ⟨vcHeader env.issuer, payload⟩

/-! ### Calls -/

/-- The columns of a list that a publisher reads. There is no credential until the first one is
signed. -/
structure ListRow where
  version : Int
  bits : Bytes
  signedJwt : Option SignedStatusList
  publishedAt : Timestamp

/-- The options of a call, with its clock. -/
structure Publishing where
  nowMs : Int
  force : Bool := false

structure PublishResult where
  published : Bool
  version : Option Int := none
  changed : Option Bool := none
  revokedBits : Option Nat := none
  deriving DecidableEq, Repr

/-- What a call is about to write, and the entries it has read. -/
structure Pending where
  folded : Folded
  version : Int
  signedJwt : SignedStatusList
  eligible : List BadgeStatusEntry

inductive Call
  | reading (p : Publishing) (attempt : Nat)
  | finding (p : Publishing) (attempt : Nat) (row : ListRow)
  | writing (p : Publishing) (attempt : Nat) (row : ListRow) (w : Pending)
  | done (result : PublishResult)
  | failed (error : String)

/-- A write that has succeeded. -/
structure Write where
  nowMs : Int
  before : ListRow
  after : ListRow
  eligible : List BadgeStatusEntry

/-- The row of the list, the tables of the entries with the calls on them, the calls of
`publishList`, and the log. -/
structure State where
  status : StatusLists.State := {}
  row : ListRow
  calls : List Call := []
  log : List Write := []

inductive Action
  | status (a : StatusLists.Action)
  | publish (p : Publishing)
  | read (i : Nat)
  | find (i : Nat) (jti : String) (inputBytes : Nat)
  | write (i : Nat)
  /-- The statement throws. -/
  | throws (i : Nat) (error : String)

/-- `PUBLISH_MAX_ATTEMPTS`. -/
def publishMaxAttempts : Nat := 4

/-- The time of an entry has come. -/
def isRevealed (nowMs : Int) (e : BadgeStatusEntry) : Bool :=
  match e.revealAfter with
  | some revealAfter => revealAfter ≤ nowMs
  | none => true

def isEligible (listId : String) (nowMs : Int) (e : BadgeStatusEntry) : Bool :=
  e.listId = listId && e.revokedAt.isSome && isRevealed nowMs e

section Statements

variable (env : PublishEnv) (listId : String)

/-- What follows the query for the eligible entries, up to the write. -/
def compute (p : Publishing) (attempt : Nat) (row : ListRow) (eligible : List BadgeStatusEntry)
    (jti : String) (inputBytes : Nat) : Call :=
  match eligible.foldlM foldBit { bits := row.bits } with
  | .error error => .failed error
  | .ok folded =>
    let neverPublished := row.signedJwt.isNone
    let stale : Bool := heartbeatMs ≤ p.nowMs - row.publishedAt
    if !folded.changed && !neverPublished && !stale && !p.force then .done ⟨false, none, none, none⟩
    else
      let version := max (row.version + 1) (p.nowMs / 1000)
      let payload := buildStatusListPayload env listId folded.bits version p.nowMs jti
      match signStatusListCredential env payload inputBytes with
      | .error error => .failed error
      | .ok signedJwt => .writing p attempt row ⟨folded, version, signedJwt, eligible⟩

/-- The largest value of the column `version`. -/
def maxInt4 : Int := 2147483647

/-- The row after the guarded write. -/
def written (p : Publishing) (w : Pending) (row : ListRow) : ListRow where
  version := w.version
  bits := if w.folded.changed then w.folded.bits else row.bits
  signedJwt := some w.signedJwt
  publishedAt := p.nowMs

namespace State

variable (s : State)

def setCall (i : Nat) (c : Call) : State := { s with calls := s.calls.set i c }

/-- The guarded write, and the next attempt if it has matched no row. -/
def write (i : Nat) : Option State :=
  match s.calls[i]? with
  | some (.writing p attempt row w) =>
    if maxInt4 < w.version then
      some (s.setCall i (.failed "Unable to fit integer value into an INT4"))
    else if s.row.version = row.version then
      some { s.setCall i (.done ⟨true, w.version, w.folded.changed, w.folded.revokedBits⟩) with
        row := written p w s.row
        log := s.log ++ [⟨p.nowMs, s.row, written p w s.row, w.eligible⟩] }
    else if attempt + 1 < publishMaxAttempts then some (s.setCall i (.reading p (attempt + 1)))
    else some (s.setCall i (.done ⟨false, none, none, none⟩))
  | _ => none

end State

def step (s : State) : Action → Option State
  | .status a => (StatusLists.step s.status a).map fun status => { s with status }
  | .publish p => some { s with calls := s.calls ++ [.reading p 0] }
  | .read i =>
    match s.calls[i]? with
    | some (.reading p attempt) => some (s.setCall i (.finding p attempt s.row))
    | _ => none
  | .find i jti inputBytes =>
    match s.calls[i]? with
    | some (.finding p attempt row) =>
      some (s.setCall i (compute env listId p attempt row
        (s.status.entries.filter (isEligible listId p.nowMs)) jti inputBytes))
    | _ => none
  | .write i => s.write i
  | .throws i error =>
    match s.calls[i]? with
    | none | some (.done _) | some (.failed _) => none
    | some _ => some (s.setCall i (.failed error))

end Statements

/-! ### What a step can do -/

/-- What a step can do. -/
inductive Turn (env : PublishEnv) (listId : String) (s : State) : Action → State → Prop
  | status (a : StatusLists.Action) (status : StatusLists.State)
      (h : StatusLists.step s.status a = some status) :
      Turn env listId s (.status a) { s with status }
  | publish (p : Publishing) :
      Turn env listId s (.publish p) { s with calls := s.calls ++ [.reading p 0] }
  | read (i : Nat) (p : Publishing) (attempt : Nat)
      (hcall : s.calls[i]? = some (.reading p attempt)) :
      Turn env listId s (.read i) (s.setCall i (.finding p attempt s.row))
  | find (i : Nat) (jti : String) (inputBytes : Nat) (p : Publishing) (attempt : Nat)
      (row : ListRow) (hcall : s.calls[i]? = some (.finding p attempt row)) :
      Turn env listId s (.find i jti inputBytes) (s.setCall i (compute env listId p attempt row
        (s.status.entries.filter (isEligible listId p.nowMs)) jti inputBytes))
  | write (i : Nat) (p : Publishing) (attempt : Nat) (row : ListRow) (w : Pending)
      (result : PublishResult) (hcall : s.calls[i]? = some (.writing p attempt row w))
      (hversion : s.row.version = row.version) :
      Turn env listId s (.write i) { s.setCall i (.done result) with
        row := written p w s.row
        log := s.log ++ [⟨p.nowMs, s.row, written p w s.row, w.eligible⟩] }
  | again (a : Action) (i : Nat) (p : Publishing) (attempt : Nat) :
      Turn env listId s a (s.setCall i (.reading p attempt))
  | ends (a : Action) (i : Nat) (result : PublishResult) :
      Turn env listId s a (s.setCall i (.done result))
  | fails (a : Action) (i : Nat) (error : String) :
      Turn env listId s a (s.setCall i (.failed error))

theorem turn_of_step {env : PublishEnv} {listId : String} {s s' : State} {a : Action}
    (h : step env listId s a = some s') : Turn env listId s a s' := by
  cases a with
  | status a =>
    obtain ⟨status, hstatus, rfl⟩ := Option.map_eq_some_iff.mp h
    exact .status a status hstatus
  | publish p =>
    cases h
    exact .publish p
  | read i =>
    simp only [step] at h
    split at h <;> cases h
    rename_i p attempt hcall
    exact .read i p attempt hcall
  | find i jti inputBytes =>
    simp only [step] at h
    split at h <;> cases h
    rename_i p attempt row hcall
    exact .find i jti inputBytes p attempt row hcall
  | write i =>
    simp only [step, State.write] at h
    split at h
    · rename_i p attempt row w hcall
      split_ifs at h with hlarge hversion hattempt
      · cases h
        exact .fails _ i _
      · cases h
        exact .write i p attempt row w _ hcall hversion
      · cases h
        exact .again _ i p _
      · cases h
        exact .ends _ i _
    · cases h
  | throws i error =>
    simp only [step] at h
    split at h
    · cases h
    · cases h
    · cases h
    · cases h
      exact .fails _ i error

/-! ### The register -/

/-- A credential says which bits and which version a row holds, and of which list. -/
structure Encodes (env : PublishEnv) (listId : String) (bits : Bytes) (version : Int)
    (c : SignedStatusList) : Prop where
  encodedList : c.payload.encodedList = encodeList env bits
  statusListVersion : c.payload.statusListVersion = version
  sub : c.payload.sub = statusListUrl env.oidcIssuerUrl listId

/-- The write has set a bit for an entry that its call has read: the entry was revoked, and its time
had come at the clock of the call. -/
def Write.SetsFor (w : Write) (e : BadgeStatusEntry) : Prop :=
  testBit w.before.bits e.bitIndex = false ∧ testBit w.after.bits e.bitIndex = true ∧
    ∃ e₀ ∈ w.eligible, e₀.Later e ∧ e₀.revokedAt ≠ none ∧ isRevealed w.nowMs e₀ = true

/-- What a list is at any time. -/
structure Register (env : PublishEnv) (listId : String) (s : State) : Prop where
  increases : ∀ w ∈ s.log, w.before.version < w.after.version
  grows : ∀ w ∈ s.log, ∀ i, testBit w.before.bits i = true → testBit w.after.bits i = true
  encodes : ∀ c ∈ s.row.signedJwt, Encodes env listId s.row.bits s.row.version c
  signed : s.log ≠ [] → s.row.signedJwt ≠ none
  revoked : ∀ i, testBit s.row.bits i = true → ∃ e ∈ s.status.entries,
    e.listId = listId ∧ e.bitIndex = i ∧ e.revokedAt ≠ none ∧ ∃ w ∈ s.log, w.SetsFor e

/-- One content of the row and a later one. -/
def Advances (row row' : ListRow) : Prop :=
  row = row' ∨ row.version < row'.version ∧
    ∀ i, testBit row.bits i = true → testBit row'.bits i = true

theorem Advances.trans {r₁ r₂ r₃ : ListRow} (h : Advances r₁ r₂) (h' : Advances r₂ r₃) :
    Advances r₁ r₃ := by
  rcases h with rfl | ⟨hlt, hbits⟩
  · exact h'
  · rcases h' with rfl | ⟨hlt', hbits'⟩
    · exact .inr ⟨hlt, hbits⟩
    · exact .inr ⟨hlt.trans hlt', fun i hi => hbits' i (hbits i hi)⟩

/-- What was read is still there, or the version has grown. -/
def Behind (row row' : ListRow) : Prop := row = row' ∨ row.version < row'.version

theorem Behind.of_lt {r₁ r₂ r₃ : ListRow} (h : Behind r₁ r₂) (hlt : r₂.version < r₃.version) :
    Behind r₁ r₃ := by
  rcases h with rfl | h
  · exact .inr hlt
  · exact .inr (h.trans hlt)

/-- What a call has computed from the row and the entries it has read. -/
structure Prepared (env : PublishEnv) (listId : String) (status : StatusLists.State)
    (p : Publishing) (row : ListRow) (w : Pending) : Prop where
  version : row.version < w.version
  grows : ∀ i, testBit row.bits i = true → testBit w.folded.bits i = true
  unchanged : w.folded.changed = false → w.folded.bits = row.bits
  encodes : Encodes env listId w.folded.bits w.version w.signedJwt
  new : ∀ i, testBit w.folded.bits i = true →
    testBit row.bits i = true ∨ ∃ e ∈ w.eligible, e.bitIndex = i
  eligible : ∀ e₀ ∈ w.eligible, isEligible listId p.nowMs e₀ = true ∧
    ∃ e ∈ status.entries, e₀.Later e

/-- What a call knows. -/
def Call.Knows (env : PublishEnv) (listId : String) (s : State) : Call → Prop
  | .finding _ _ row => Behind row s.row
  | .writing p _ row w => Behind row s.row ∧ Prepared env listId s.status p row w
  | _ => True

structure Inv (env : PublishEnv) (listId : String) (s : State) : Prop where
  register : Register env listId s
  calls : ∀ c ∈ s.calls, c.Knows env listId s

/-! ### The loop -/

section Loop

variable {bits : Bytes} {acc acc' : Folded} {e : BadgeStatusEntry}

theorem foldBit_eq_ok (h : foldBit acc e = .ok acc') :
    acc' = acc ∨ acc'.bits = raiseBit acc.bits e.bitIndex ∧ acc'.changed = true := by
  unfold foldBit setBit at h
  cases hindex : assertIndex e.bitIndex with
  | error error =>
    rw [hindex] at h
    cases h
  | ok u =>
    rw [hindex] at h
    by_cases hset : testBit acc.bits e.bitIndex = true
    · simp only [Except.map, hset, if_true] at h
      exact .inl (Except.ok.inj h).symm
    · simp only [Except.map, hset] at h
      cases h
      exact .inr ⟨rfl, rfl⟩

/-- What a part of the loop does. -/
structure Folds (acc : Folded) (eligible : List BadgeStatusEntry) (acc' : Folded) : Prop where
  grows : ∀ i, testBit acc.bits i = true → testBit acc'.bits i = true
  unchanged : acc'.changed = false → acc.changed = false ∧ acc'.bits = acc.bits
  new : ∀ i, testBit acc'.bits i = true →
    testBit acc.bits i = true ∨ ∃ e ∈ eligible, e.bitIndex = i

theorem folds_foldlM {eligible : List BadgeStatusEntry}
    (h : eligible.foldlM foldBit acc = .ok acc') : Folds acc eligible acc' := by
  induction eligible generalizing acc with
  | nil =>
    cases h
    exact ⟨fun _ hi => hi, fun hu => ⟨hu, rfl⟩, fun _ hi => .inl hi⟩
  | cons e rest ih =>
    rw [List.foldlM_cons, bind_eq_ok_iff] at h
    obtain ⟨mid, hmid, hrest⟩ := h
    obtain ⟨hgrows, hunchanged, hnew⟩ := ih hrest
    have htail (i : Nat) : (∃ e' ∈ rest, e'.bitIndex = i) → ∃ e' ∈ e :: rest, e'.bitIndex = i :=
      fun ⟨e', he', hi⟩ => ⟨e', List.mem_cons_of_mem _ he', hi⟩
    rcases foldBit_eq_ok hmid with rfl | ⟨hbits, hchanged⟩
    · exact ⟨hgrows, hunchanged, fun i hi => (hnew i hi).imp_right (htail i)⟩
    · refine ⟨?_, ?_, ?_⟩
      · intro i hi
        apply hgrows
        rw [hbits]
        exact testBit_raiseBit.mpr (.inl hi)
      · intro hu
        rw [(hunchanged hu).1] at hchanged
        cases hchanged
      · intro i hi
        rcases hnew i hi with hold | hlater
        · rw [hbits] at hold
          rcases testBit_raiseBit.mp hold with hbefore | ⟨rfl, -⟩
          · exact .inl hbefore
          · exact .inr ⟨e, List.mem_cons_self, rfl⟩
        · exact .inr (htail i hlater)

end Loop

/-! ### One step -/

section Step

variable {env : PublishEnv} {listId : String} {s s' : State} {p : Publishing} {attempt i : Nat}
  {row : ListRow} {w : Pending}

/-- What a call knows after it has read the entries. -/
theorem knows_compute {eligible : List BadgeStatusEntry} {jti : String} {inputBytes : Nat}
    (hbehind : Behind row s.row)
    (heligible : ∀ e ∈ eligible, isEligible listId p.nowMs e = true ∧ e ∈ s.status.entries) :
    (compute env listId p attempt row eligible jti inputBytes).Knows env listId s := by
  unfold compute
  split
  · trivial
  · rename_i folded hfold
    have hfolds := folds_foldlM hfold
    dsimp only
    split_ifs
    · trivial
    · unfold signStatusListCredential
      split_ifs
      · trivial
      · exact ⟨hbehind, lt_of_lt_of_le (lt_add_one _) (le_max_left _ _), hfolds.grows,
          fun hu => (hfolds.unchanged hu).2, ⟨rfl, rfl, rfl⟩, hfolds.new,
          fun e he => ⟨(heligible e he).1, e, (heligible e he).2, .refl e⟩⟩

/-- The entries may change under a call. -/
theorem Prepared.mono {status status' : StatusLists.State} (h : Prepared env listId status p row w)
    (hkeeps : Keeps status.entries status'.entries) :
    Prepared env listId status' p row w where
  version := h.version
  grows := h.grows
  unchanged := h.unchanged
  encodes := h.encodes
  new := h.new
  eligible e₀ he₀ := by
    obtain ⟨hel, e, he, hl⟩ := h.eligible e₀ he₀
    obtain ⟨e', he', hl'⟩ := hkeeps e he
    exact ⟨hel, e', he', hl.trans hl'⟩

theorem Write.SetsFor.later {write : Write} {e e' : BadgeStatusEntry} (h : write.SetsFor e)
    (hl : e.Later e') : write.SetsFor e' := by
  obtain ⟨hbefore, hafter, e₀, he₀, hl₀, hrest⟩ := h
  rw [← hl.bitIndex] at hbefore hafter
  exact ⟨hbefore, hafter, e₀, he₀, hl₀.trans hl, hrest⟩

theorem Register.mono (h : Register env listId s) {status : StatusLists.State}
    (hkeeps : Keeps s.status.entries status.entries) {calls : List Call} :
    Register env listId { s with status, calls } where
  increases := h.increases
  grows := h.grows
  encodes := h.encodes
  signed := h.signed
  revoked i hi := by
    obtain ⟨e, he, hlist, hindex, hrevoked, write, hwrite, hsets⟩ := h.revoked i hi
    obtain ⟨e', he', hl⟩ := hkeeps e he
    exact ⟨e', he', hl.listId.trans hlist, hl.bitIndex.trans hindex, hl.revoked hrevoked, write,
      hwrite, hsets.later hl⟩

/-- A call has moved. -/
theorem Inv.setCall (h : Inv env listId s) {c : Call} (hc : c.Knows env listId s) :
    Inv env listId (s.setCall i c) :=
  ⟨h.register.mono (.refl _), forall_mem_set h.calls hc⟩

/-- **The guarded write.** The row is the one that was read, so what was computed from that is
right for it. -/
theorem Inv.write (h : Inv env listId s) (hcall : s.calls[i]? = some (.writing p attempt row w))
    (hversion : s.row.version = row.version) {result : PublishResult} :
    Inv env listId { s.setCall i (.done result) with
        row := written p w s.row
        log := s.log ++ [⟨p.nowMs, s.row, written p w s.row, w.eligible⟩] } ∧
      Advances s.row (written p w s.row) := by
  obtain ⟨hbehind, hprepared⟩ := h.calls _ (List.mem_of_getElem? hcall)
  obtain rfl : row = s.row := hbehind.resolve_right (by omega)
  have hbits : (written p w s.row).bits = w.folded.bits := by
    cases hchanged : w.folded.changed with
    | true => simp [written, hchanged]
    | false => simp [written, hchanged, hprepared.unchanged hchanged]
  have hgrows (j : Nat) (hj : testBit s.row.bits j = true) :
      testBit (written p w s.row).bits j = true := hbits ▸ hprepared.grows j hj
  refine ⟨⟨⟨?_, ?_, ?_, ?_, ?_⟩, ?_⟩, .inr ⟨hprepared.version, hgrows⟩⟩
  · exact forall_mem_concat h.register.increases hprepared.version
  · exact forall_mem_concat h.register.grows hgrows
  · intro c hc
    cases hc
    rw [hbits]
    exact hprepared.encodes
  · exact fun _ => nofun
  · intro j hj
    by_cases hold : testBit s.row.bits j = true
    · obtain ⟨e, he, hlist, hindex, hrevoked, w', hw', hsets⟩ := h.register.revoked j hold
      exact ⟨e, he, hlist, hindex, hrevoked, w', List.mem_append_left _ hw', hsets⟩
    · -- the bit is new: one of the entries that were read has its index
      obtain ⟨e₀, he₀, rfl⟩ := (hprepared.new j (hbits ▸ hj)).resolve_left hold
      obtain ⟨heligible, e, he, hl⟩ := hprepared.eligible e₀ he₀
      simp only [isEligible, Bool.and_eq_true, decide_eq_true_eq] at heligible
      obtain ⟨⟨hlist, hsome⟩, hrevealed⟩ := heligible
      have hrevoked : e₀.revokedAt ≠ none := Option.isSome_iff_ne_none.mp hsome
      refine ⟨e, he, hl.listId.trans hlist, hl.bitIndex, hl.revoked hrevoked, _,
        List.mem_append_right _ (List.mem_singleton_self _), ?_, ?_, e₀, he₀, hl, hrevoked,
        hrevealed⟩
      · rw [hl.bitIndex]
        exact Bool.eq_false_iff.mpr hold
      · rw [hl.bitIndex]
        exact hj
  · refine forall_mem_set ?_ trivial
    intro c hc
    have hknows := h.calls c hc
    cases c with
    | finding p' attempt' row' => exact Behind.of_lt hknows hprepared.version
    | writing p' attempt' row' w' => exact ⟨Behind.of_lt hknows.1 hprepared.version, hknows.2⟩
    | _ => trivial

theorem inv_step (env : PublishEnv) (listId : String) (s : State) (a : Action) (s' : State)
    (hs : Inv env listId s) (h : step env listId s a = some s') :
    Inv env listId s' ∧ Advances s.row s'.row := by
  cases turn_of_step h with
  | status a status hstatus =>
    have hkeeps := StatusLists.keeps_of_step hstatus
    refine ⟨⟨hs.register.mono hkeeps, fun c hc => ?_⟩, .inl rfl⟩
    have hknows := hs.calls c hc
    cases c with
    | writing p attempt row w => exact ⟨hknows.1, hknows.2.mono hkeeps⟩
    | _ => exact hknows
  | publish p =>
    exact ⟨⟨hs.register.mono (.refl _), forall_mem_concat hs.calls trivial⟩,
      .inl rfl⟩
  | read i p attempt hcall => exact ⟨hs.setCall (.inl rfl), .inl rfl⟩
  | find i jti inputBytes p attempt row hcall =>
    refine ⟨hs.setCall (knows_compute (hs.calls _ (List.mem_of_getElem? hcall)) ?_), .inl rfl⟩
    exact fun e he => ⟨(List.mem_filter.mp he).2, (List.mem_filter.mp he).1⟩
  | write i p attempt row w result hcall hversion => exact hs.write hcall hversion
  | again | ends | fails => exact ⟨hs.setCall trivial, .inl rfl⟩

end Step

/-! ### Every run -/

/-- The list is new: no bit is set, nothing was signed, and no publisher runs. -/
structure State.Fresh (s : State) : Prop where
  bits : ∀ i, testBit s.row.bits i = false
  unsigned : s.row.signedJwt = none
  calls : s.calls = []
  log : s.log = []

theorem State.Fresh.inv {env : PublishEnv} {listId : String} {s : State} (h : s.Fresh) :
    Inv env listId s := by
  refine ⟨⟨?_, ?_, ?_, ?_, ?_⟩, ?_⟩
  · simp [h.log]
  · simp [h.log]
  · simp [h.unsigned]
  · simp [h.log]
  · simp [h.bits]
  · simp [h.calls]

/-- **A status list is a monotone register**: in every interleaving, what is stored only advances,
and says what was revoked. -/
theorem register_of_run (env : PublishEnv) (listId : String) {s₀ s₁ s₂ : State}
    {as bs : List Action} (hs : s₀.Fresh) (has : run (step env listId) s₀ as = some s₁)
    (hbs : run (step env listId) s₁ bs = some s₂) :
    Advances s₁.row s₂.row ∧ Register env listId s₂ := by
  have hinv : Inv env listId s₁ := run_invariant_always (Inv env listId)
    (fun s a s' h hstep => (inv_step env listId s a s' h hstep).1) hs.inv has
  have hboth := run_invariant_always
    (fun s => Inv env listId s ∧ Advances s₁.row s.row)
    (fun s a s' h hstep => by
      obtain ⟨hinv', hadvances⟩ := inv_step env listId s a s' h.1 hstep
      exact ⟨hinv', h.2.trans hadvances⟩)
    ⟨hinv, .inl rfl⟩ hbs
  exact ⟨hboth.2, hboth.1.register⟩

/-! ### Freshness -/

/-- The second row is at least as fresh as the first: in its column and in its credential. -/
structure Fresher (row row' : ListRow) : Prop where
  publishedAt : row.publishedAt ≤ row'.publishedAt
  credentials : ∃ c c', row.signedJwt = some c ∧ row'.signedJwt = some c' ∧
    c.payload.iat ≤ c'.payload.iat ∧ c.payload.exp ≤ c'.payload.exp

/-- The clock of a call that is about to read the row. -/
def Call.reader? : Call → Option Int
  | .reading p _ => some p.nowMs
  | _ => none

/-- When a call reads the row, in its first attempt or a later one, its clock is not behind that
row. -/
def InOrder (s : State) : Action → Prop
  | .read i => ∀ c ∈ s.calls[i]?, ∀ now ∈ c.reader?, s.row.publishedAt ≤ now
  | _ => True

instance (s : State) (a : Action) : Decidable (InOrder s a) := by
  cases a <;> unfold InOrder <;> infer_instance

/-- The credential has its times from a clock. -/
structure Dated (c : SignedStatusList) (nowMs : Int) : Prop where
  iat : c.payload.iat = nowMs / 1000
  exp : c.payload.exp = (nowMs + validityWindowMs) / 1000

/-- The row that the call has read is not ahead of its clock. -/
def Call.Timed : Call → Prop
  | .finding p _ row => row.publishedAt ≤ p.nowMs
  | .writing p _ row w => row.publishedAt ≤ p.nowMs ∧ Dated w.signedJwt p.nowMs
  | _ => True

/-- What the log says about time. -/
structure Ordered (s : State) : Prop where
  dated : ∀ w ∈ s.log, ∃ c, w.after.signedJwt = some c ∧ Dated c w.after.publishedAt
  past : ∀ w ∈ s.log, w.after.publishedAt ≤ s.row.publishedAt
  ordered : s.log.Pairwise fun w w' => w.after.publishedAt ≤ w'.after.publishedAt
  calls : ∀ c ∈ s.calls, c.Timed

section Freshness

variable {env : PublishEnv} {listId : String} {s : State} {p : Publishing} {attempt i : Nat}
  {row : ListRow}

theorem timed_compute {eligible : List BadgeStatusEntry} {jti : String} {inputBytes : Nat}
    (h : row.publishedAt ≤ p.nowMs) :
    (compute env listId p attempt row eligible jti inputBytes).Timed := by
  unfold compute
  split
  · trivial
  · dsimp only
    split_ifs
    · trivial
    · unfold signStatusListCredential
      split_ifs
      · trivial
      · exact ⟨h, rfl, rfl⟩

theorem Ordered.setCall (h : Ordered s) {c : Call} (hc : c.Timed) : Ordered (s.setCall i c) :=
  ⟨h.dated, h.past, h.ordered, forall_mem_set h.calls hc⟩

/-- The row has the version that was read, so it is the row that was read. -/
theorem Ordered.write {w : Pending} {result : PublishResult} (hinv : Inv env listId s)
    (h : Ordered s) (hcall : s.calls[i]? = some (.writing p attempt row w))
    (hversion : s.row.version = row.version) :
    Ordered { s.setCall i (.done result) with
      row := written p w s.row
      log := s.log ++ [⟨p.nowMs, s.row, written p w s.row, w.eligible⟩] } := by
  obtain ⟨hbehind, -⟩ := hinv.calls _ (List.mem_of_getElem? hcall)
  obtain ⟨htimed, hdated⟩ := h.calls _ (List.mem_of_getElem? hcall)
  obtain rfl : row = s.row := hbehind.resolve_right (by omega)
  have hpast (w' : Write) (hw' : w' ∈ s.log) : w'.after.publishedAt ≤ p.nowMs :=
    (h.past w' hw').trans htimed
  refine ⟨forall_mem_concat h.dated ⟨_, rfl, hdated⟩, forall_mem_concat hpast le_rfl, ?_,
    forall_mem_set h.calls trivial⟩
  refine List.pairwise_append.mpr ⟨h.ordered, List.pairwise_singleton _ _, ?_⟩
  intro w' hw' w'' hw''
  obtain rfl := List.mem_singleton.mp hw''
  exact hpast w' hw'

theorem ordered_step (s : State) (a : Action) (s' : State)
    (hs : Inv env listId s ∧ Ordered s) (hok : InOrder s a) (h : step env listId s a = some s') :
    Inv env listId s' ∧ Ordered s' := by
  refine ⟨(inv_step env listId s a s' hs.1 h).1, ?_⟩
  obtain ⟨hinv, hs⟩ := hs
  cases turn_of_step h with
  | status a status hstatus => exact ⟨hs.dated, hs.past, hs.ordered, hs.calls⟩
  | publish p => exact ⟨hs.dated, hs.past, hs.ordered, forall_mem_concat hs.calls trivial⟩
  | read i p attempt hcall => exact hs.setCall (hok _ hcall _ rfl)
  | find i jti inputBytes p attempt row hcall =>
    have htimed : row.publishedAt ≤ p.nowMs := hs.calls _ (List.mem_of_getElem? hcall)
    exact hs.setCall (timed_compute htimed)
  | write i p attempt row w result hcall hversion => exact hs.write hinv hcall hversion
  | again | ends | fails => exact hs.setCall trivial

end Freshness

/-- **What is published never gets older**, as long as every call reads a row that is not ahead of
its clock. -/
theorem fresher_of_run (env : PublishEnv) (listId : String) {s₀ s : State} {as : List Action}
    (hs : s₀.Fresh) (hok : Along (step env listId) InOrder s₀ as)
    (hrun : run (step env listId) s₀ as = some s) :
    s.log.Pairwise fun w w' => Fresher w.after w'.after := by
  have hstart : Ordered s₀ := by
    refine ⟨?_, ?_, ?_, ?_⟩
    · simp [hs.log]
    · simp [hs.log]
    · simp [hs.log]
    · simp [hs.calls]
  obtain ⟨-, hordered⟩ := run_invariant (fun s => Inv env listId s ∧ Ordered s) ordered_step
    ⟨hs.inv, hstart⟩ hok hrun
  refine hordered.ordered.imp_of_mem fun {w w'} hw hw' hle => ⟨hle, ?_⟩
  obtain ⟨c, hc, hdated⟩ := hordered.dated w hw
  obtain ⟨c', hc', hdated'⟩ := hordered.dated w' hw'
  refine ⟨c, c', hc, hc', ?_, ?_⟩
  · rw [hdated.iat, hdated'.iat]
    exact Int.ediv_le_ediv (by decide) hle
  · rw [hdated.exp, hdated'.exp]
    exact Int.ediv_le_ediv (by decide) (Int.add_le_add_right hle _)

/-! ### A revocation that is published -/

def sampleEnv : PublishEnv where
  issuer := sampleIssuerEnv.issuer
  oidcIssuerUrl := "https://ministry.id"
  gzip bits := toString (bits.map BitVec.toNat)

/-- A list as `getOrCreateShard` creates it. -/
def sampleState : State where
  status := { lists := [⟨"L0", "client", 0⟩] }
  row := ⟨0, newBitstring, none, 0⟩

theorem sampleState_fresh : sampleState.Fresh :=
  ⟨fun _ => testBit_replicate_zero _, rfl, rfl, rfl⟩

/-- A member discloses a badge and is removed. -/
def revokedMember : List Action :=
  [.allocate "gm:m1" "client", .readAnchor 0, .findExisting 0, .findShard 0, .countEntries 0,
    .attempt 0 9 "e1" .anchor, .recheck 0, .revoke ⟨"gm:m1", "group.member_removed", 1000, false⟩,
    .upsert 1, .scan 1, .update 1 500, .finish 1].map .status

/-- Two publishers at once, of which one loses and starts over. -/
def racingPublishers : List Action :=
  [.publish ⟨2000, false⟩, .publish ⟨3000, true⟩, .read 0, .read 1, .find 0 "j0" 900,
    .find 1 "j1" 900, .write 0, .write 1, .read 1, .find 1 "j1" 900, .write 1]

theorem racingPublishers_register : ∃ s₁ s₂,
    run (step sampleEnv "L0") sampleState revokedMember = some s₁ ∧
      run (step sampleEnv "L0") s₁ racingPublishers = some s₂ ∧
      s₂.row.bits = raiseBit newBitstring 9 ∧ s₂.log.map (·.after.version) = [2, 3] ∧
      Advances s₁.row s₂.row ∧ Register sampleEnv "L0" s₂ := by
  obtain ⟨s₁, hrun₁, h⟩ := (Option.any_eq_true _ _).mp
    (by decide +kernel : (run (step sampleEnv "L0") sampleState revokedMember).any (fun s₁ =>
      (run (step sampleEnv "L0") s₁ racingPublishers).any fun s₂ => decide
        (s₂.row.bits = raiseBit newBitstring 9 ∧ s₂.log.map (·.after.version) = [2, 3])) = true)
  obtain ⟨s₂, hrun₂, h⟩ := (Option.any_eq_true _ _).mp h
  obtain ⟨hbits, hversions⟩ := of_decide_eq_true h
  exact ⟨s₁, s₂, hrun₁, hrun₂, hbits, hversions,
    register_of_run sampleEnv "L0" sampleState_fresh hrun₁ hrun₂⟩

theorem racingPublishers_fresher : ∃ s,
    run (step sampleEnv "L0") sampleState racingPublishers = some s ∧
      s.log.map (·.after.publishedAt) = [2000, 3000] ∧
      s.log.Pairwise fun w w' => Fresher w.after w'.after := by
  exact exists_run_and (by decide +kernel) fun s hrun =>
    fresher_of_run sampleEnv "L0" sampleState_fresh (by decide +kernel) hrun

/-- The publisher that started first loses to the second and starts over, with its old clock. -/
def lateRetry : List Action :=
  [.publish ⟨2000, true⟩, .publish ⟨3000, true⟩, .read 0, .read 1, .find 0 "j0" 900,
    .find 1 "j1" 900, .write 1, .write 0, .read 0, .find 0 "j2" 900, .write 0]

theorem lateRetry_older : ∃ s, run (step sampleEnv "L0") sampleState lateRetry = some s ∧
    s.log.map (fun w => (w.after.version, w.after.publishedAt,
      w.after.signedJwt.map fun c => (c.payload.iat, c.payload.exp))) =
        [(3, 3000, some (3, 903)), (4, 2000, some (2, 902))] ∧
    ¬ s.log.Pairwise fun w w' => Fresher w.after w'.after := by
  refine exists_run_and (by decide +kernel) fun s hrun h => ?_
  have hpublished : (s.log.map (·.after.publishedAt)).Pairwise (· ≤ ·) :=
    List.pairwise_map.mpr (h.imp fun hfresher => hfresher.publishedAt)
  have htimes : s.log.map (·.after.publishedAt) = [3000, 2000] := of_run (by decide +kernel) hrun
  rw [htimes] at hpublished
  simp at hpublished

/-! ### What is published -/

/-- The bits of all entries that a call has read are set in what it is about to write. -/
def Call.Covers : Call → Prop
  | .finding _ _ row => row.bits.length = shardSizeBytes
  | .writing _ _ _ w => w.folded.bits.length = shardSizeBytes ∧
    ∀ e ∈ w.eligible, testBit w.folded.bits e.bitIndex = true
  | _ => True

structure Lossless (s : State) : Prop where
  length : s.row.bits.length = shardSizeBytes
  log : ∀ w ∈ s.log, ∀ e ∈ w.eligible, testBit s.row.bits e.bitIndex = true
  calls : ∀ c ∈ s.calls, c.Covers

section Coverage

variable {env : PublishEnv} {listId : String} {s s' : State} {acc acc' : Folded}

theorem foldBit_sets {e : BadgeStatusEntry} (h : foldBit acc e = .ok acc')
    (hlength : acc.bits.length = shardSizeBytes) :
    acc'.bits.length = shardSizeBytes ∧ testBit acc'.bits e.bitIndex = true := by
  by_cases hindex : e.bitIndex < shardSizeBits
  · obtain ⟨bits, hset, hbits, hbit⟩ := setBit_fin hlength ⟨e.bitIndex, hindex⟩
    have hacc : acc'.bits = bits := by
      rw [foldBit, hset] at h
      cases hnew : testBit acc.bits e.bitIndex <;> simp [Except.map, hnew] at h <;> rw [← h]
    rw [hacc]
    exact ⟨hbits, (hbit e.bitIndex).mpr (.inr rfl)⟩
  · simp [foldBit, setBit, assertIndex, Nat.not_lt.mp hindex, Except.map] at h

/-- The loop sets the bit of every entry, and what is set stays. -/
theorem foldlM_sets {eligible : List BadgeStatusEntry}
    (h : eligible.foldlM foldBit acc = .ok acc') (hlength : acc.bits.length = shardSizeBytes) :
    acc'.bits.length = shardSizeBytes ∧ ∀ e ∈ eligible, testBit acc'.bits e.bitIndex = true := by
  induction eligible generalizing acc with
  | nil =>
    cases h
    exact ⟨hlength, nofun⟩
  | cons e rest ih =>
    rw [List.foldlM_cons, bind_eq_ok_iff] at h
    obtain ⟨mid, hmid, hrest⟩ := h
    obtain ⟨hmidLength, hset⟩ := foldBit_sets hmid hlength
    obtain ⟨hlast, hsets⟩ := ih hrest hmidLength
    exact ⟨hlast, List.forall_mem_cons.mpr ⟨(folds_foldlM hrest).grows _ hset, hsets⟩⟩

theorem Lossless.setCall {i : Nat} {c : Call} (h : Lossless s) (hc : c.Covers) :
    Lossless (s.setCall i c) :=
  ⟨h.length, h.log, forall_mem_set h.calls hc⟩

theorem lossless_step {a : Action} (hinv : Inv env listId s) (hs : Lossless s)
    (h : step env listId s a = some s') : Lossless s' := by
  cases turn_of_step h with
  | status => exact ⟨hs.length, hs.log, hs.calls⟩
  | publish => exact ⟨hs.length, hs.log, forall_mem_concat hs.calls trivial⟩
  | read => exact hs.setCall hs.length
  | find i jti inputBytes p attempt row hcall =>
    apply hs.setCall
    unfold compute signStatusListCredential
    split
    · trivial
    · rename_i folded hfold
      dsimp only
      split_ifs
      · trivial
      · trivial
      · exact foldlM_sets hfold (hs.calls _ (List.mem_of_getElem? hcall))
  | write i p attempt row w result hcall hversion =>
    obtain ⟨hlength, hsets⟩ := hs.calls _ (List.mem_of_getElem? hcall)
    obtain ⟨hbehind, hprepared⟩ := hinv.calls _ (List.mem_of_getElem? hcall)
    -- The version is the one that was read, and so the row is.
    obtain rfl : row = s.row := hbehind.resolve_right (by omega)
    have hbits : (written p w s.row).bits = w.folded.bits := by
      cases hchanged : w.folded.changed <;> simp [written, hchanged, hprepared.unchanged]
    refine ⟨hbits ▸ hlength, ?_, forall_mem_set hs.calls trivial⟩
    simp only [hbits]
    exact forall_mem_concat (fun w' hw' e he => hprepared.grows _ (hs.log w' hw' e he)) hsets
  | again | ends | fails => exact hs.setCall trivial

end Coverage

/-- **No revocation is lost**: in every interleaving, the bits that are set are exactly those of the
entries that the calls which have written found revoked and due. -/
theorem testBit_row_iff (env : PublishEnv) (listId : String) {s₀ s : State} {as : List Action}
    (hs : s₀.Fresh) (hlength : s₀.row.bits.length = shardSizeBytes)
    (hrun : run (step env listId) s₀ as = some s) (i : Nat) :
    testBit s.row.bits i = true ↔ ∃ w ∈ s.log, ∃ e ∈ w.eligible, e.bitIndex = i := by
  have hstart : Lossless s₀ := ⟨hlength, by simp [hs.log], by simp [hs.calls]⟩
  obtain ⟨hinv, hend⟩ := run_invariant_always (fun s => Inv env listId s ∧ Lossless s)
    (fun s a s' h hstep => ⟨(inv_step env listId s a s' h.1 hstep).1, lossless_step h.1 h.2 hstep⟩)
    ⟨hs.inv, hstart⟩ hrun
  constructor
  · intro hi
    obtain ⟨e, -, -, rfl, -, w, hw, -, -, e₀, he₀, hlater, -⟩ := hinv.register.revoked i hi
    exact ⟨w, hw, e₀, he₀, hlater.bitIndex.symm⟩
  · rintro ⟨w, hw, e, he, rfl⟩
    exact hend.log w hw e he

theorem racingPublishers_bits : ∃ s, run (step sampleEnv "L0") sampleState
    (revokedMember ++ racingPublishers) = some s ∧ s.log.length = 2 ∧
    ∀ i, testBit s.row.bits i = true ↔ ∃ w ∈ s.log, ∃ e ∈ w.eligible, e.bitIndex = i :=
  exists_run_and (by decide +kernel) fun _ hrun =>
    testBit_row_iff sampleEnv "L0" sampleState_fresh List.length_replicate hrun

end Minister.Publication
