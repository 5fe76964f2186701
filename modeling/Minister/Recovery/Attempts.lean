import Minister.Recovery.Config
import Minister.Transition.Pool

/-!
# Recovery attempts

An account is recovered by live re-proofs of badges: `startRecoveryAttempt` opens an attempt
with the threshold of the moment, `recordReProof` adds the weight of a badge type to it, and
`consumeSatisfiedAttempt` turns a satisfied attempt into one recovery ticket
(`lib/recovery-threshold.ts`, with the reads of `lib/sybil-config.ts`).

Any number of calls run side by side with each other, with the editor of the recovery
configuration and with the passage of time. A statement is a step, and the transaction of
`recordReProof` is a step; a call may also stop anywhere and never go on. The badges may
change in between in any way.
-/

namespace Minister.Recovery

open Relational Transition

/-! ### Rows -/

/-- An attempt with the columns the engine uses. -/
structure AttemptRow extends RecoveryAttempt where
  requiredScore : Int
  accumulatedScore : Int
  expiresAt : Timestamp
  satisfiedAt : Option Timestamp := none
  consumedAt : Option Timestamp := none
  deriving DecidableEq, Repr

instance : Constrained AttemptRow where
  clash a b := clash a.toRecoveryAttempt b.toRecoveryAttempt
  clash_comm a b := Constrained.clash_comm a.toRecoveryAttempt b.toRecoveryAttempt

/-- One accepted re-proof. -/
structure RecoveryProof where
  attemptId : String
  badgeType : String
  weight : Int
  deriving DecidableEq, Repr

instance : Constrained RecoveryProof where
  clash a b := a.attemptId == b.attemptId && a.badgeType == b.badgeType

/-- A badge with the column that keeps public badges out of recovery. -/
structure HeldBadge extends Badge where
  isPublic : Bool
  deriving DecidableEq, Repr

/-- The attempts and their proofs. -/
structure AttemptDb where
  attempt : List AttemptRow
  proof : List RecoveryProof
  attempt_consistent : Consistent attempt := by decide
  proof_consistent : Consistent proof := by decide

namespace AttemptDb

/-- `recoveryAttempt.findUnique` by id. -/
def find (db : AttemptDb) (attemptId : String) : Option AttemptRow :=
  db.attempt.find? fun row => row.id == attemptId

/-- `recoveryAttempt.create`. -/
def createAttempt (db : AttemptDb) (row : AttemptRow) : Except DbError AttemptDb :=
  if h : Consistent (db.attempt ++ [row]) then
    .ok { db with attempt := db.attempt ++ [row], attempt_consistent := h }
  else .error .uniqueViolation

/-- `recoveryProof.create`. -/
def createProof (db : AttemptDb) (row : RecoveryProof) : Except DbError AttemptDb :=
  if h : Consistent (db.proof ++ [row]) then
    .ok { db with proof := db.proof ++ [row], proof_consistent := h }
  else .error .uniqueViolation

/-- `recoveryAttempt.updateMany` of columns no constraint mentions. -/
def updateAttempts (db : AttemptDb) (p : AttemptRow → Bool) (f : AttemptRow → AttemptRow)
    (hf : ∀ a b, clash (f a) b = clash a b) : AttemptDb :=
  { db with
    attempt := mapWhere p f db.attempt
    attempt_consistent := db.attempt_consistent.mapWhere_of_clash p hf }

/-- `recoveryAttempt.update` by id, which must exist. Returns the row as updated. -/
def updateAttempt (db : AttemptDb) (attemptId : String) (f : AttemptRow → AttemptRow)
    (hf : ∀ a b, clash (f a) b = clash a b) : Except DbError (AttemptDb × AttemptRow) :=
  match db.find attemptId with
  | none => .error .recordNotFound
  | some row => .ok (db.updateAttempts (fun row => row.id == attemptId) f hf, f row)

end AttemptDb

/-! ### What is read of the configuration -/

def recoveryQualifierChain (type : String) (provenance : Option String) : List String :=
  match provenance with
  | none => ["*"]
  | some provenance =>
    if type = "oauth-account" ∧ provenance ≠ "" then [provenance, "*"] else ["*"]

/-- The first row of the qualifier chain. -/
def ConfigDb.recoveryRow (db : ConfigDb) (type : String) (provenance : Option String) :
    Option BadgeWeight :=
  (recoveryQualifierChain type provenance).findSome? (db.weightRow type)

def recoveryWeightForLive (db : ConfigDb) (type : String) (provenance : Option String)
    (now : Timestamp) : Except String Int :=
  match db.recoveryRow type provenance with
  | some row => .ok (effectiveRecoveryWeight row now)
  | none =>
    let shown := provenance.getD "(none)"
    .error (s!"No BadgeWeight recovery row for type={type} provenance={shown}: " ++
      "sybil config is incomplete (not even a `*` row). Refusing to under-weight recovery.")

def loadEffectiveThreshold (db : ConfigDb) (now : Timestamp) : Except String Int :=
  match db.recoveryConfig with
  | some cfg => .ok (effectiveRecoveryThreshold cfg now)
  | none => .error
      "RecoveryConfig singleton row is absent: sybil config is not seeded. Failing closed."

/-! ### Starting an attempt -/

/-- `RECOVERY_ATTEMPT_TTL_MS`. -/
def recoveryAttemptTtlMs : Int := 15 * 60 * 1000

/-- The row `startRecoveryAttempt` inserts. -/
def newAttempt (id nonce : String) (userId : UserId) (score : Int) (now : Timestamp) :
    AttemptRow where
  id := id
  userId := userId
  nonce := nonce
  status := "pending"
  requiredScore := score
  accumulatedScore := 0
  expiresAt := now + recoveryAttemptTtlMs

/-- Where a call of `startRecoveryAttempt` stands. -/
inductive StartCall
  /-- About to read the threshold, for the time the call began. -/
  | loading (userId : UserId) (now : Timestamp)
  | creating (userId : UserId) (score : Int)
  | done (attemptId nonce : String) (requiredScore : Int)
  | failed
  deriving DecidableEq, Repr

/-- A call with a score of its own does not read the threshold. -/
def startRecoveryAttempt (userId : UserId) (requiredScore : Option Int) (now : Timestamp) :
    StartCall :=
  match requiredScore with
  | some score => .creating userId score
  | none => .loading userId now

/-! ### Recording a re-proof -/

structure ReProof where
  attemptId : String
  badgeType : String
  provenance : Option String
  deriving DecidableEq, Repr

inductive RecordReProofError
  | attemptNotFound | attemptNotPending | attemptExpired | typeNotEligible | badgeNotHeld
  | alreadyProven | configUnavailable
  deriving DecidableEq, Repr

structure ReProofResult where
  accumulatedScore : Int
  requiredScore : Int
  satisfied : Bool
  deriving DecidableEq, Repr

/-- Where a call of `recordReProof` stands. -/
inductive ProofCall
  | begun (re : ReProof)
  /-- The attempt was read and is live, and the type is eligible. -/
  | live (re : ReProof) (userId : UserId)
  /-- A badge was found. The weight will be read for this time. -/
  | held (re : ReProof) (now : Timestamp)
  | weighed (re : ReProof) (weight : Int)
  | done (re : ReProof) (outcome : Except RecordReProofError ReProofResult)
  | failed (re : ReProof)
  deriving DecidableEq

/-- The checks on the attempt as it was read, and on the type. -/
def checkAttempt (attempt : Option AttemptRow) (badgeType : String) (now : Timestamp) :
    Except RecordReProofError UserId :=
  match attempt with
  | none => .error .attemptNotFound
  | some attempt =>
    -- The transaction does not ask again before it adds the score.
    if attempt.status ≠ "pending" then .error .attemptNotPending
    else if attempt.expiresAt ≤ now then .error .attemptExpired
    else if badgeType ∉ recoveryEligibleTypes then .error .typeNotEligible
    else .ok attempt.userId

/-- `badge.findFirst` for a badge of the type that is not public. -/
def holds (badge : List HeldBadge) (userId : UserId) (badgeType : String) : Bool :=
  badge.any fun b => b.userId == userId && b.type == badgeType && !b.isPublic

def AttemptRow.addScore (weight : Int) (row : AttemptRow) : AttemptRow :=
  { row with accumulatedScore := row.accumulatedScore + weight }

def AttemptRow.satisfy (now : Timestamp) (row : AttemptRow) : AttemptRow :=
  { row with status := "satisfied", satisfiedAt := some now }

def AttemptRow.consume (now : Timestamp) (row : AttemptRow) : AttemptRow :=
  { row with status := "consumed", consumedAt := some now }

theorem AttemptRow.clash_addScore (weight : Int) (a b : AttemptRow) :
    clash (a.addScore weight) b = clash a b := rfl

theorem AttemptRow.clash_satisfy (now : Timestamp) (a b : AttemptRow) :
    clash (a.satisfy now) b = clash a b := rfl

theorem AttemptRow.clash_consume (now : Timestamp) (a b : AttemptRow) :
    clash (a.consume now) b = clash a b := rfl

/-- The last statement of the transaction: only a pending attempt becomes satisfied. -/
def AttemptDb.satisfyPending (db : AttemptDb) (updated : AttemptRow) (attemptId : String)
    (now : Timestamp) : Except DbError AttemptDb :=
  if updated.requiredScore ≤ updated.accumulatedScore ∧ updated.status = "pending" then do
    let (db, _) ← db.updateAttempt attemptId (AttemptRow.satisfy now)
      (AttemptRow.clash_satisfy now)
    return db
  else .ok db

/-- The transaction of `recordReProof`. -/
def AttemptDb.record (db : AttemptDb) (re : ReProof) (weight : Int) (now : Timestamp) :
    Except DbError (AttemptDb × ReProofResult) := do
  let db ← db.createProof ⟨re.attemptId, re.badgeType, weight⟩
  let (db, updated) ← db.updateAttempt re.attemptId (AttemptRow.addScore weight)
    (AttemptRow.clash_addScore weight)
  let db ← db.satisfyPending updated re.attemptId now
  return (db, ⟨updated.accumulatedScore, updated.requiredScore,
    updated.requiredScore ≤ updated.accumulatedScore⟩)

/-! ### Consuming an attempt -/

inductive ConsumeError
  | attemptNotFound | notSatisfied | alreadyConsumed | expired
  deriving DecidableEq, Repr

/-- The payload of a recovery ticket. -/
structure RecoveryTicket where
  userId : UserId
  jti : String
  deriving DecidableEq, Repr

/-- Where a call of `consumeSatisfiedAttempt` stands. -/
inductive ConsumeCall
  | begun (attemptId : String)
  /-- The attempt was read as satisfied and live. -/
  | ready (attemptId : String) (userId : UserId)
  /-- The attempt was claimed. -/
  | claimed (attemptId : String) (userId : UserId)
  | done (attemptId : String) (outcome : Except ConsumeError RecoveryTicket)
  | failed (attemptId : String)
  deriving DecidableEq

/-- The checks on the attempt as it was read. -/
def checkSatisfied (attempt : Option AttemptRow) (now : Timestamp) :
    Except ConsumeError UserId :=
  match attempt with
  | none => .error .attemptNotFound
  | some attempt =>
    if attempt.status = "consumed" then .error .alreadyConsumed
    else if attempt.status ≠ "satisfied" then .error .notSatisfied
    else if attempt.expiresAt ≤ now then .error .expired
    else .ok attempt.userId

/-- The filter of the claiming `updateMany`. -/
def claimable (attemptId : String) (row : AttemptRow) : Bool :=
  row.id == attemptId && row.status == "satisfied"

/-- `updateMany` from satisfied to consumed. -/
def AttemptDb.claim (db : AttemptDb) (attemptId : String) (now : Timestamp) : AttemptDb :=
  db.updateAttempts (claimable attemptId) (AttemptRow.consume now) (AttemptRow.clash_consume now)

/-- `TTL_SECONDS` of a ticket, in milliseconds. -/
def ticketTtlMs : Int := 10 * 60 * 1000

/-- The marker `issueRecoveryTicket` records for a ticket. -/
def ticketMarker (jti : String) (now : Timestamp) : VerificationToken where
  identifier := "recovery-ticket"
  token := jti
  expires := now + ticketTtlMs

/-! ### The interleaved calls -/

structure State where
  config : ConfigState
  badge : List HeldBadge
  db : AttemptDb
  /-- The markers of the recovery tickets. -/
  verificationToken : List VerificationToken
  starts : List StartCall
  reProofs : List ProofCall
  consumes : List ConsumeCall

inductive Action
  /-- An action of the editor, or time. -/
  | config (a : ConfigAction)
  /-- The badges become these. -/
  | badges (badge : List HeldBadge)
  /-- `startBadgeRecovery` calls `startRecoveryAttempt`, without a score of its own. -/
  | start (userId : UserId)
  /-- The next statement of a start, with the id and the nonce it may draw. -/
  | startNext (i : Nat) (id nonce : String)
  | reProof (re : ReProof)
  | reProofNext (i : Nat)
  | consume (attemptId : String)
  /-- The next statement of a consume, with the ticket id it may draw. -/
  | consumeNext (i : Nat) (jti : String)

namespace State

def now (s : State) : Timestamp := s.config.now

def setStart (s : State) (i : Nat) (call : StartCall) : State :=
  { s with starts := s.starts.set i call }

def setReProof (s : State) (i : Nat) (call : ProofCall) : State :=
  { s with reProofs := s.reProofs.set i call }

def setConsume (s : State) (i : Nat) (call : ConsumeCall) : State :=
  { s with consumes := s.consumes.set i call }

/-- The next statement of `startRecoveryAttempt`. -/
def startNext (s : State) (i : Nat) (id nonce : String) : StartCall → Option State
  | .loading userId began =>
    match loadEffectiveThreshold s.config.db began with
    | .ok score => some (s.setStart i (.creating userId score))
    | .error _ => some (s.setStart i .failed)
  | .creating userId score =>
    match s.db.createAttempt (newAttempt id nonce userId score s.now) with
    | .ok db => some ({ s with db := db }.setStart i (.done id nonce score))
    | .error _ => some (s.setStart i .failed)
  | .done .. => none
  | .failed => none

/-- The next statement of `recordReProof`; its transaction is one. -/
def reProofNext (s : State) (i : Nat) : ProofCall → Option State
  | .begun re =>
    match checkAttempt (s.db.find re.attemptId) re.badgeType s.now with
    | .ok userId => some (s.setReProof i (.live re userId))
    | .error e => some (s.setReProof i (.done re (.error e)))
  | .live re userId =>
    if holds s.badge userId re.badgeType then some (s.setReProof i (.held re s.now))
    else some (s.setReProof i (.done re (.error .badgeNotHeld)))
  | .held re began =>
    match recoveryWeightForLive s.config.db re.badgeType re.provenance began with
    | .ok weight => some (s.setReProof i (.weighed re weight))
    | .error _ => some (s.setReProof i (.done re (.error .configUnavailable)))
  | .weighed re weight =>
    match s.db.record re weight s.now with
    | .ok (db, result) => some ({ s with db := db }.setReProof i (.done re (.ok result)))
    -- The transaction is rolled back: the second proof of one type adds no score.
    | .error .uniqueViolation => some (s.setReProof i (.done re (.error .alreadyProven)))
    | .error .recordNotFound => some (s.setReProof i (.failed re))
  | .done .. => none
  | .failed _ => none

/-- The next statement of `consumeSatisfiedAttempt`. -/
def consumeNext (s : State) (i : Nat) (jti : String) : ConsumeCall → Option State
  | .begun attemptId =>
    match checkSatisfied (s.db.find attemptId) s.now with
    | .ok userId => some (s.setConsume i (.ready attemptId userId))
    | .error e => some (s.setConsume i (.done attemptId (.error e)))
  | .ready attemptId userId =>
    -- The update runs either way; its count tells whether this call has claimed the attempt.
    if s.db.attempt.countP (claimable attemptId) = 1 then
      some ({ s with db := s.db.claim attemptId s.now }.setConsume i (.claimed attemptId userId))
    else
      some ({ s with db := s.db.claim attemptId s.now }.setConsume i
        (.done attemptId (.error .alreadyConsumed)))
  | .claimed attemptId userId =>
    match create (ticketMarker jti s.now) s.verificationToken with
    | .ok tokens => some ({ s with verificationToken := tokens }.setConsume i
        (.done attemptId (.ok ⟨userId, jti⟩)))
    | .error _ => some (s.setConsume i (.failed attemptId))
  | .done .. => none
  | .failed _ => none

end State

def step (s : State) : Action → Option State
  | .config a => (s.config.step a).map fun config => { s with config := config }
  | .badges badge => some { s with badge := badge }
  | .start userId =>
    some { s with starts := s.starts ++ [startRecoveryAttempt userId none s.now] }
  | .startNext i id nonce => s.starts[i]?.bind (s.startNext i id nonce)
  | .reProof re => some { s with reProofs := s.reProofs ++ [.begun re] }
  | .reProofNext i => s.reProofs[i]?.bind (s.reProofNext i)
  | .consume attemptId => some { s with consumes := s.consumes ++ [.begun attemptId] }
  | .consumeNext i jti => s.consumes[i]?.bind (s.consumeNext i jti)

/-! ### The transaction of a re-proof -/

/-- What an accepted re-proof makes of its attempt. -/
def AttemptRow.counted (weight : Int) (now : Timestamp) (row : AttemptRow) : AttemptRow :=
  if row.requiredScore ≤ row.accumulatedScore + weight ∧ row.status = "pending" then
    (row.addScore weight).satisfy now
  else row.addScore weight

namespace AttemptDb

variable {db db' : AttemptDb} {attemptId : String} {row : AttemptRow}

theorem mem_of_find (h : db.find attemptId = some row) :
    row ∈ db.attempt ∧ row.id = attemptId :=
  ⟨List.mem_of_find?_eq_some h, by simpa using List.find?_some h⟩

/-- There is one attempt with an id. -/
theorem eq_of_id_eq {a b : AttemptRow} (ha : a ∈ db.attempt) (hb : b ∈ db.attempt)
    (hid : a.id = b.id) : a = b :=
  db.attempt_consistent.eq_of_clash ha hb (by simp [clash, hid])

theorem nodup_attempt (db : AttemptDb) : db.attempt.Nodup := by
  refine List.Pairwise.imp ?_ db.attempt_consistent
  rintro a b hab rfl
  simp [clash] at hab

theorem createAttempt_eq_ok_iff : db.createAttempt row = .ok db' ↔
    ∃ h : Consistent (db.attempt ++ [row]),
      { db with attempt := db.attempt ++ [row], attempt_consistent := h } = db' := by
  unfold createAttempt
  split_ifs with h <;> simp [h]

theorem createProof_eq_ok_iff {p : RecoveryProof} : db.createProof p = .ok db' ↔
    ∃ h : Consistent (db.proof ++ [p]),
      { db with proof := db.proof ++ [p], proof_consistent := h } = db' := by
  unfold createProof
  split_ifs with h <;> simp [h]

theorem updateAttempt_eq_ok_iff {f : AttemptRow → AttemptRow}
    {hf : ∀ a b, clash (f a) b = clash a b} {res : AttemptDb × AttemptRow} :
    db.updateAttempt attemptId f hf = .ok res ↔ ∃ row, db.find attemptId = some row ∧
      (db.updateAttempts (fun row => row.id == attemptId) f hf, f row) = res := by
  unfold updateAttempt
  split
  · next h => simp [h]
  · next h => simp [h]

/-- The attempt is updated once more if it has to become satisfied. -/
theorem satisfyPending_spec {updated : AttemptRow} {now : Timestamp}
    (h : db.satisfyPending updated attemptId now = .ok db') :
    db'.proof = db.proof ∧ db'.attempt = mapWhere (fun row => row.id == attemptId)
      (fun row => if updated.requiredScore ≤ updated.accumulatedScore ∧
        updated.status = "pending" then row.satisfy now else row) db.attempt := by
  unfold satisfyPending at h
  split_ifs at h with hcond
  · obtain ⟨res, hres, h⟩ := bind_eq_ok_iff.mp h
    obtain ⟨row, -, rfl⟩ := updateAttempt_eq_ok_iff.mp hres
    cases h
    simp only [hcond, and_self, if_true]
    exact ⟨rfl, rfl⟩
  · cases h
    refine ⟨rfl, ?_⟩
    simp only [hcond, if_false]
    exact (mapWhere_eq_self fun _ _ _ => rfl).symm

/-- The transaction inserts the proof, counts it and decides whether it satisfies. -/
theorem record_spec {re : ReProof} {weight : Int} {now : Timestamp} {result : ReProofResult}
    (h : db.record re weight now = .ok (db', result)) :
    ∃ row, db.find re.attemptId = some row ∧
      Consistent (db.proof ++ [⟨re.attemptId, re.badgeType, weight⟩]) ∧
      db'.proof = db.proof ++ [⟨re.attemptId, re.badgeType, weight⟩] ∧
      db'.attempt = mapWhere (fun row => row.id == re.attemptId)
        (AttemptRow.counted weight now) db.attempt := by
  obtain ⟨db₁, hproof, h⟩ := bind_eq_ok_iff.mp h
  obtain ⟨hcons, rfl⟩ := createProof_eq_ok_iff.mp hproof
  obtain ⟨⟨db₂, updated⟩, hupdate, h⟩ := bind_eq_ok_iff.mp h
  obtain ⟨row, hrow, heq⟩ := updateAttempt_eq_ok_iff.mp hupdate
  cases heq
  obtain ⟨db₃, hsatisfy, h⟩ := bind_eq_ok_iff.mp h
  cases h
  obtain ⟨hproofs, hattempts⟩ := satisfyPending_spec hsatisfy
  refine ⟨row, hrow, hcons, hproofs, hattempts.trans ?_⟩
  -- Both updates are of the one row with this id, which is the row that was returned.
  obtain ⟨hmem, hid⟩ := mem_of_find hrow
  simp only [updateAttempts]
  rw [mapWhere_mapWhere]
  refine List.map_congr_left fun other hother => ?_
  by_cases hkey : other.id = re.attemptId
  · obtain rfl : other = row := @eq_of_id_eq db _ _ hother hmem (hkey.trans hid.symm)
    simp [hkey, AttemptRow.counted, AttemptRow.addScore]
  · simp [hkey]

/-- A claim that does not find exactly one row finds none. -/
theorem claim_eq_self {now : Timestamp} (h : db.attempt.countP (claimable attemptId) ≠ 1) :
    db.claim attemptId now = db := by
  have hnone : ∀ row ∈ db.attempt, claimable attemptId row = false := by
    by_contra hsome
    push Not at hsome
    obtain ⟨row, hrow, hclaim⟩ := hsome
    rw [ne_eq, Bool.not_eq_false] at hclaim
    apply h
    -- Every row that matches is this one, which is in the table once.
    have hall : ∀ other ∈ db.attempt, claimable attemptId other = true ↔ other = row := by
      intro other hother
      constructor
      · intro hmatch
        simp only [claimable, Bool.and_eq_true, beq_iff_eq] at hmatch hclaim
        exact eq_of_id_eq hother hrow (hmatch.1.trans hclaim.1.symm)
      · rintro rfl
        exact hclaim
    rw [List.countP_congr (q := fun other => other == row)
      fun other hother => (hall other hother).trans (beq_iff_eq).symm]
    exact List.count_eq_one_of_mem db.nodup_attempt hrow
  have hsame : mapWhere (claimable attemptId) (AttemptRow.consume now) db.attempt = db.attempt := by
    apply mapWhere_eq_self
    intro row hrow hclaim
    rw [hnone row hrow] at hclaim
    cases hclaim
  unfold claim updateAttempts
  simp only [hsame]

end AttemptDb

/-! ### What a step can do -/

/-- The attempt a consume call has claimed. -/
def ConsumeCall.claim : ConsumeCall → Option String
  | .claimed attemptId _ => some attemptId
  | .done attemptId (.ok _) => some attemptId
  | _ => none

/-- The id of the ticket a consume call has returned. -/
def ConsumeCall.jti : ConsumeCall → Option String
  | .done _ (.ok ticket) => some ticket.jti
  | _ => none

/-- A start that is about to create has read the threshold in this configuration. -/
def StartCall.ReadFrom (db : ConfigDb) : StartCall → Prop
  | .creating _ score =>
    ∃ cfg now, db.recoveryConfig = some cfg ∧ score = effectiveRecoveryThreshold cfg now
  | _ => True

/-- A re-proof that is about to be recorded has read its weight in this configuration. -/
def ProofCall.ReadFrom (db : ConfigDb) : ProofCall → Prop
  | .weighed re weight =>
    ∃ row now, db.recoveryRow re.badgeType re.provenance = some row ∧
      weight = effectiveRecoveryWeight row now
  | _ => True

inductive Effect (s : State) : Action → State → Prop
  | config {a config} (h : s.config.step a = some config) :
      Effect s (.config a) { s with config := config }
  | badges (badge : List HeldBadge) : Effect s (.badges badge) { s with badge := badge }
  /-- A start begins, reads, or fails. -/
  | starts {a starts} (hnew : ∀ c ∈ starts, c ∈ s.starts ∨ c.ReadFrom s.config.db) :
      Effect s a { s with starts := starts }
  | created {i id nonce userId score}
      (hcall : s.starts[i]? = some (.creating userId score))
      (hcons : Consistent (s.db.attempt ++ [newAttempt id nonce userId score s.now])) :
      Effect s (.startNext i id nonce) (State.setStart { s with db := { s.db with
          attempt := s.db.attempt ++ [newAttempt id nonce userId score s.now],
          attempt_consistent := hcons } } i (.done id nonce score))
  /-- A re-proof begins, reads, or is refused. -/
  | reProofs {a reProofs} (hnew : ∀ c ∈ reProofs, c ∈ s.reProofs ∨ c.ReadFrom s.config.db) :
      Effect s a { s with reProofs := reProofs }
  | recorded {i re weight row db result}
      (hcall : s.reProofs[i]? = some (.weighed re weight))
      (hrow : s.db.find re.attemptId = some row)
      (hcons : Consistent (s.db.proof ++ [⟨re.attemptId, re.badgeType, weight⟩]))
      (hproof : db.proof = s.db.proof ++ [⟨re.attemptId, re.badgeType, weight⟩])
      (hattempt : db.attempt = mapWhere (fun row => row.id == re.attemptId)
        (AttemptRow.counted weight s.now) s.db.attempt) :
      Effect s (.reProofNext i)
        (State.setReProof { s with db := db } i (.done re (.ok result)))
  /-- A consume begins, reads, is refused, or fails. -/
  | consumes {a consumes}
      (hclaim : (consumes.filterMap ConsumeCall.claim).Sublist
        (s.consumes.filterMap ConsumeCall.claim))
      (hjti : consumes.filterMap ConsumeCall.jti = s.consumes.filterMap ConsumeCall.jti) :
      Effect s a { s with consumes := consumes }
  | claimed {i jti attemptId userId}
      (hcall : s.consumes[i]? = some (.ready attemptId userId))
      (hone : s.db.attempt.countP (claimable attemptId) = 1) :
      Effect s (.consumeNext i jti) (State.setConsume
        { s with db := s.db.claim attemptId s.now } i (.claimed attemptId userId))
  | minted {i jti attemptId userId}
      (hcall : s.consumes[i]? = some (.claimed attemptId userId))
      (hcons : Consistent (s.verificationToken ++ [ticketMarker jti s.now])) :
      Effect s (.consumeNext i jti) (State.setConsume
        { s with verificationToken := s.verificationToken ++ [ticketMarker jti s.now] } i
        (.done attemptId (.ok ⟨userId, jti⟩)))

section Steps

variable {s s' : State} {i : Nat} {a : Action}

/-- Rewriting a start that is not about to create after the rewrite. -/
theorem effect_setStart {call : StartCall} (h : call.ReadFrom s.config.db) :
    Effect s a (s.setStart i call) :=
  .starts (forall_mem_set (fun _ hc => .inl hc) (.inr h))

theorem effect_setReProof {call : ProofCall} (h : call.ReadFrom s.config.db) :
    Effect s a (s.setReProof i call) :=
  .reProofs (forall_mem_set (fun _ hc => .inl hc) (.inr h))

/-- Rewriting a consume that has returned no ticket and claims nothing new. -/
theorem effect_setConsume {old call : ConsumeCall} (hold : s.consumes[i]? = some old)
    (hclaim : call.claim = none) (hjti : call.jti = old.jti) :
    Effect s a (s.setConsume i call) :=
  .consumes (filterMap_set_sublist hold (.inr hclaim)) (filterMap_set_eq hold hjti)

theorem effect_startNext {id nonce : String} {call : StartCall} (hcall : s.starts[i]? = some call)
    (h : s.startNext i id nonce call = some s') : Effect s (.startNext i id nonce) s' := by
  cases call with
  | loading userId began =>
    simp only [State.startNext, loadEffectiveThreshold] at h
    cases hcfg : s.config.db.recoveryConfig with
    | none =>
      simp only [hcfg, Option.some_inj] at h
      exact h ▸ effect_setStart trivial
    | some cfg =>
      simp only [hcfg, Option.some_inj] at h
      exact h ▸ effect_setStart ⟨cfg, began, hcfg, rfl⟩
  | creating userId score =>
    simp only [State.startNext] at h
    split at h
    · next db hdb =>
      obtain ⟨hcons, rfl⟩ := AttemptDb.createAttempt_eq_ok_iff.mp hdb
      exact Option.some_inj.mp h ▸ .created hcall hcons
    · exact Option.some_inj.mp h ▸ effect_setStart trivial
  | done => cases h
  | failed => cases h

theorem effect_reProofNext {call : ProofCall} (hcall : s.reProofs[i]? = some call)
    (h : s.reProofNext i call = some s') : Effect s (.reProofNext i) s' := by
  cases call with
  | begun re =>
    simp only [State.reProofNext] at h
    split at h
    · exact Option.some_inj.mp h ▸ effect_setReProof trivial
    · exact Option.some_inj.mp h ▸ effect_setReProof trivial
  | live re userId =>
    simp only [State.reProofNext] at h
    split_ifs at h
    · exact Option.some_inj.mp h ▸ effect_setReProof trivial
    · exact Option.some_inj.mp h ▸ effect_setReProof trivial
  | held re began =>
    simp only [State.reProofNext, recoveryWeightForLive] at h
    cases hrow : s.config.db.recoveryRow re.badgeType re.provenance with
    | none =>
      simp only [hrow, Option.some_inj] at h
      exact h ▸ effect_setReProof trivial
    | some row =>
      simp only [hrow, Option.some_inj] at h
      exact h ▸ effect_setReProof ⟨row, began, hrow, rfl⟩
  | weighed re weight =>
    simp only [State.reProofNext] at h
    split at h
    · next db result hdb =>
      obtain ⟨row, hrow, hcons, hproof, hattempt⟩ := AttemptDb.record_spec hdb
      exact Option.some_inj.mp h ▸ .recorded hcall hrow hcons hproof hattempt
    · exact Option.some_inj.mp h ▸ effect_setReProof trivial
    · exact Option.some_inj.mp h ▸ effect_setReProof trivial
  | done => cases h
  | failed => cases h

theorem effect_consumeNext {jti : String} {call : ConsumeCall}
    (hcall : s.consumes[i]? = some call)
    (h : s.consumeNext i jti call = some s') : Effect s (.consumeNext i jti) s' := by
  cases call with
  | begun attemptId =>
    simp only [State.consumeNext] at h
    split at h
    · exact Option.some_inj.mp h ▸ effect_setConsume hcall rfl rfl
    · exact Option.some_inj.mp h ▸ effect_setConsume hcall rfl rfl
  | ready attemptId userId =>
    simp only [State.consumeNext] at h
    split_ifs at h with hone
    · exact Option.some_inj.mp h ▸ .claimed hcall hone
    · rw [AttemptDb.claim_eq_self hone] at h
      exact Option.some_inj.mp h ▸ effect_setConsume hcall rfl rfl
  | claimed attemptId userId =>
    simp only [State.consumeNext] at h
    split at h
    · next tokens htokens =>
      obtain ⟨hcons, rfl⟩ := create_eq_ok_iff.mp htokens
      exact Option.some_inj.mp h ▸ .minted hcall hcons
    · exact Option.some_inj.mp h ▸ effect_setConsume hcall rfl rfl
  | done => cases h
  | failed => cases h

theorem effect_of_step (h : step s a = some s') : Effect s a s' := by
  cases a with
  | config a =>
    obtain ⟨config, hconfig, rfl⟩ := Option.map_eq_some_iff.mp h
    exact .config hconfig
  | badges badge =>
    cases h
    exact .badges badge
  | start userId =>
    cases h
    exact .starts (forall_mem_concat (fun _ hold => .inl hold) (.inr trivial))
  | startNext i id nonce =>
    obtain ⟨call, hcall, hnext⟩ := Option.bind_eq_some_iff.mp h
    exact effect_startNext hcall hnext
  | reProof re =>
    cases h
    exact .reProofs (forall_mem_concat (fun _ hold => .inl hold) (.inr trivial))
  | reProofNext i =>
    obtain ⟨call, hcall, hnext⟩ := Option.bind_eq_some_iff.mp h
    exact effect_reProofNext hcall hnext
  | consume attemptId =>
    cases h
    refine .consumes ?_ ?_
    · simp [ConsumeCall.claim]
    · simp [ConsumeCall.jti]
  | consumeNext i jti =>
    obtain ⟨call, hcall, hnext⟩ := Option.bind_eq_some_iff.mp h
    exact effect_consumeNext hcall hnext

end Steps

end Minister.Recovery
