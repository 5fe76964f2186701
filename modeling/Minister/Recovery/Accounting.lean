import Minister.Recovery.Attempts
import Minister.Recovery.Guardrails

/-!
# Recovery attempts count honestly

The status of an attempt is read long before the transaction that adds to its score, so a
re-proof may be recorded on an attempt that has been satisfied, consumed or has expired in
between. The accounts hold nevertheless: the score of an attempt is the sum of its proofs, each
badge type counts once, a pending attempt is below its required score and a satisfied or
consumed one is not, and one consume call at most gets a ticket out of an attempt.

Nothing here depends on the order of the calls. It depends on the bounds of the configuration:
no weight is negative, so a late re-proof cannot take a satisfied attempt below its required
score, and every threshold is positive, so an attempt starts below it.
-/

namespace Minister.Recovery

open Relational Transition
open List (Perm)

/-! ### Scores -/

/-- The sum of the weights of the proofs of an attempt. -/
def scoreOf (attemptId : String) (proof : List RecoveryProof) : Int :=
  ((proof.filter fun p => p.attemptId == attemptId).map RecoveryProof.weight).sum

section Score

variable {attemptId : String} {proof : List RecoveryProof} {p : RecoveryProof}

theorem scoreOf_append_self {badgeType : String} {weight : Int} :
    scoreOf attemptId (proof ++ [⟨attemptId, badgeType, weight⟩]) =
      scoreOf attemptId proof + weight := by
  simp [scoreOf]

theorem scoreOf_append_of_ne (h : p.attemptId ≠ attemptId) :
    scoreOf attemptId (proof ++ [p]) = scoreOf attemptId proof := by
  simp [scoreOf, h]

theorem scoreOf_eq_zero (h : ∀ p ∈ proof, p.attemptId ≠ attemptId) :
    scoreOf attemptId proof = 0 := by
  have hnone : (proof.filter fun p => p.attemptId == attemptId) = [] := by
    simpa using h
  rw [scoreOf, hnone]
  rfl

end Score

/-- The score of an attempt is that of its proofs, and its status says whether it suffices. -/
structure Counted (proof : List RecoveryProof) (attempt : AttemptRow) : Prop where
  score : attempt.accumulatedScore = scoreOf attempt.id proof
  pending : attempt.status = "pending" → attempt.accumulatedScore < attempt.requiredScore
  satisfied : attempt.status = "satisfied" ∨ attempt.status = "consumed" →
    attempt.requiredScore ≤ attempt.accumulatedScore

/-- What holds of the attempts and their proofs. -/
structure Honest (db : AttemptDb) : Prop where
  owned : ∀ p ∈ db.proof, ∃ attempt ∈ db.attempt, attempt.id = p.attemptId
  counted : ∀ attempt ∈ db.attempt, Counted db.proof attempt

section Honest

variable {db db' : AttemptDb} {attempt : AttemptRow}

/-- A new attempt has no proofs yet. -/
theorem Honest.createAttempt (h : Honest db) {id nonce : String} {userId : UserId} {score : Int}
    {now : Timestamp} (hscore : 0 < score)
    (hcons : Consistent (db.attempt ++ [newAttempt id nonce userId score now])) :
    Honest { db with
      attempt := db.attempt ++ [newAttempt id nonce userId score now]
      attempt_consistent := hcons } where
  owned p hp := by
    obtain ⟨attempt, hattempt, hid⟩ := h.owned p hp
    exact ⟨attempt, List.mem_append_left _ hattempt, hid⟩
  counted := by
    have hnone : ∀ p ∈ db.proof, p.attemptId ≠ id := by
      intro p hp hpid
      obtain ⟨owner, howner, hid⟩ := h.owned p hp
      have hclash := (consistent_append_singleton.mp hcons).2 owner howner
      simp [clash, newAttempt, hid, hpid] at hclash
    refine forall_mem_concat h.counted ⟨(scoreOf_eq_zero hnone).symm, fun _ => hscore, ?_⟩
    rintro (hstatus | hstatus) <;> simp [newAttempt] at hstatus

/-- Counting a proof that is not negative: the score grows, so what sufficed still does, and a
pending attempt whose score now suffices becomes satisfied. -/
theorem Counted.counted {proof : List RecoveryProof} (h : Counted proof attempt)
    {badgeType : String} {weight : Int} (hweight : 0 ≤ weight) (now : Timestamp) :
    Counted (proof ++ [⟨attempt.id, badgeType, weight⟩]) (attempt.counted weight now) := by
  have hscore : attempt.accumulatedScore + weight =
      scoreOf attempt.id (proof ++ [⟨attempt.id, badgeType, weight⟩]) := by
    rw [scoreOf_append_self, h.score]
  unfold AttemptRow.counted
  split_ifs with hcond
  · exact ⟨hscore, fun hpending => by simp [AttemptRow.satisfy] at hpending, fun _ => hcond.1⟩
  · refine ⟨hscore, fun hpending => ?_, fun hsatisfied => ?_⟩
    · -- A pending attempt that was not flipped is still below.
      by_contra hge
      exact hcond ⟨not_lt.mp hge, hpending⟩
    · have hbefore : attempt.requiredScore ≤ attempt.accumulatedScore := h.satisfied hsatisfied
      have hadded : (attempt.addScore weight).accumulatedScore =
        attempt.accumulatedScore + weight := rfl
      have hrequired : (attempt.addScore weight).requiredScore = attempt.requiredScore := rfl
      omega

theorem AttemptRow.id_counted (weight : Int) (now : Timestamp) (row : AttemptRow) :
    (row.counted weight now).id = row.id := by
  unfold AttemptRow.counted
  split_ifs <;> rfl

theorem Honest.record (h : Honest db) {re : ReProof} {weight : Int} {now : Timestamp}
    (hweight : 0 ≤ weight) (hrow : db.find re.attemptId = some attempt)
    (hproof : db'.proof = db.proof ++ [⟨re.attemptId, re.badgeType, weight⟩])
    (hattempt : db'.attempt = mapWhere (fun row => row.id == re.attemptId)
      (AttemptRow.counted weight now) db.attempt) : Honest db' where
  owned p hp := by
    -- Counting changes no id, so every attempt is still there under its own.
    have hkept : ∀ row ∈ db.attempt, ∃ row' ∈ db'.attempt, row'.id = row.id := by
      intro row hrow
      rw [hattempt]
      refine ⟨_, mem_mapWhere.mpr ⟨row, hrow, rfl⟩, ?_⟩
      split_ifs
      · exact AttemptRow.id_counted weight now row
      · rfl
    rw [hproof] at hp
    rcases List.mem_append.mp hp with hold | hnew
    · obtain ⟨row, hmem, hid⟩ := h.owned p hold
      obtain ⟨row', hmem', hid'⟩ := hkept row hmem
      exact ⟨row', hmem', hid'.trans hid⟩
    · obtain rfl := List.mem_singleton.mp hnew
      obtain ⟨hmem, hid⟩ := AttemptDb.mem_of_find hrow
      obtain ⟨row', hmem', hid'⟩ := hkept attempt hmem
      exact ⟨row', hmem', hid'.trans hid⟩
  counted row hrow := by
    rw [hattempt] at hrow
    obtain ⟨old, hold, rfl⟩ := mem_mapWhere.mp hrow
    rw [hproof]
    split_ifs with hid
    · rw [beq_iff_eq] at hid
      rw [← hid]
      exact (h.counted old hold).counted hweight now
    · rw [beq_iff_eq] at hid
      have hcounted := h.counted old hold
      refine ⟨?_, hcounted.pending, hcounted.satisfied⟩
      rw [scoreOf_append_of_ne fun heq => hid heq.symm]
      exact hcounted.score

/-- Only a satisfied attempt is consumed, and its score stays. -/
theorem Honest.claim (h : Honest db) (attemptId : String) (now : Timestamp) :
    Honest (db.claim attemptId now) where
  owned p hp := by
    obtain ⟨row, hrow, hid⟩ := h.owned p hp
    refine ⟨_, mem_mapWhere.mpr ⟨row, hrow, rfl⟩, ?_⟩
    split_ifs <;> exact hid
  counted row hrow := by
    obtain ⟨old, hold, rfl⟩ := mem_mapWhere.mp hrow
    have hcounted := h.counted old hold
    split_ifs with hclaim
    · simp only [claimable, Bool.and_eq_true, beq_iff_eq] at hclaim
      refine ⟨hcounted.score, fun hpending => ?_, fun _ => hcounted.satisfied (.inl hclaim.2)⟩
      simp [AttemptRow.consume] at hpending
    · exact hcounted

end Honest

/-! ### Consume calls -/

/-- The attempt with this id has been consumed. -/
def Consumed (attempt : List AttemptRow) (attemptId : String) : Prop :=
  ∃ row ∈ attempt, row.id = attemptId ∧ row.status = "consumed"

/-- A rewrite that keeps the ids, and the status of what is consumed. -/
theorem Consumed.mapWhere {t : List AttemptRow} {attemptId : String} (h : Consumed t attemptId)
    {p : AttemptRow → Bool} {f : AttemptRow → AttemptRow} (hid : ∀ row, (f row).id = row.id)
    (hstatus : ∀ row, row.status = "consumed" → (f row).status = "consumed") :
    Consumed (mapWhere p f t) attemptId := by
  obtain ⟨row, hrow, hrid, hrstatus⟩ := h
  refine ⟨_, mem_mapWhere.mpr ⟨row, hrow, rfl⟩, ?_⟩
  split_ifs
  · exact ⟨(hid row).trans hrid, hstatus row hrstatus⟩
  · exact ⟨hrid, hrstatus⟩

/-- What holds of the consume calls: no two have claimed the same attempt, what is claimed is
consumed, and the markers are those of the tickets returned. -/
structure OneTicket (db : AttemptDb) (consumes : List ConsumeCall)
    (tokens : List VerificationToken) : Prop where
  claims : (consumes.filterMap ConsumeCall.claim).Nodup
  consumed : ∀ attemptId ∈ consumes.filterMap ConsumeCall.claim, Consumed db.attempt attemptId
  markers : Perm (tokens.map VerificationToken.token) (consumes.filterMap ConsumeCall.jti)

section OneTicket

variable {db db' : AttemptDb} {consumes : List ConsumeCall} {tokens : List VerificationToken}
  {i : Nat} {attemptId : String} {userId : UserId} {now : Timestamp}

variable (h : OneTicket db consumes tokens)

include h

theorem OneTicket.attempts
    (hkept : ∀ attemptId, Consumed db.attempt attemptId → Consumed db'.attempt attemptId) :
    OneTicket db' consumes tokens :=
  ⟨h.claims, fun attemptId hclaim => hkept attemptId (h.consumed attemptId hclaim), h.markers⟩

/-- The claim is the first on its attempt, which was satisfied and is consumed by it. -/
theorem OneTicket.claim (hcall : consumes[i]? = some (.ready attemptId userId))
    (hone : db.attempt.countP (claimable attemptId) = 1) :
    OneTicket (db.claim attemptId now) (consumes.set i (.claimed attemptId userId)) tokens := by
  obtain ⟨row, hrow, hclaim⟩ : ∃ row ∈ db.attempt, claimable attemptId row = true :=
    List.countP_pos_iff.mp (by omega)
  have hid : row.id = attemptId ∧ row.status = "satisfied" := by
    simpa [claimable] using hclaim
  have hperm := perm_filterMap_set_take (f := ConsumeCall.claim)
    (b := .claimed attemptId userId) hcall rfl rfl
  refine ⟨?_, ?_, ?_⟩
  · rw [hperm.nodup_iff, List.nodup_cons]
    refine ⟨fun hmem => ?_, h.claims⟩
    obtain ⟨other, hother, hoid, hstatus⟩ := h.consumed attemptId hmem
    obtain rfl : other = row := AttemptDb.eq_of_id_eq hother hrow (hoid.trans hid.1.symm)
    rw [hstatus] at hid
    exact absurd hid.2 (by decide)
  · intro claimedId hmem
    rcases List.mem_cons.mp (hperm.mem_iff.mp hmem) with rfl | hold
    · refine ⟨row.consume now, mem_mapWhere.mpr ⟨row, hrow, if_pos hclaim⟩, hid.1, rfl⟩
    · exact (h.consumed claimedId hold).mapWhere (fun _ => rfl) fun _ _ => rfl
  · have hjti := filterMap_set_eq (f := ConsumeCall.jti) (b := .claimed attemptId userId) hcall rfl
    exact hjti ▸ h.markers

/-- The ticket belongs to the claim that was made before. -/
theorem OneTicket.mint {jti : String} (hcall : consumes[i]? = some (.claimed attemptId userId)) :
    OneTicket db (consumes.set i (.done attemptId (.ok ⟨userId, jti⟩)))
      (tokens ++ [ticketMarker jti now]) := by
  have hclaims := filterMap_set_eq (f := ConsumeCall.claim)
    (b := .done attemptId (.ok ⟨userId, jti⟩)) hcall rfl
  refine ⟨hclaims ▸ h.claims, hclaims ▸ h.consumed, ?_⟩
  have hperm := perm_filterMap_set_take (f := ConsumeCall.jti)
    (b := .done attemptId (.ok ⟨userId, jti⟩)) hcall rfl rfl
  refine Perm.trans ?_ hperm.symm
  rw [List.map_append]
  exact List.perm_append_comm.trans (h.markers.cons jti)

end OneTicket

/-! ### Runs -/

/-- A start that is about to create has a positive score. -/
def StartCall.Positive : StartCall → Prop
  | .creating _ score => 0 < score
  | _ => True

/-- A re-proof that is about to be recorded has a weight that is not negative. -/
def ProofCall.Nonneg : ProofCall → Prop
  | .weighed _ weight => 0 ≤ weight
  | _ => True

theorem StartCall.ReadFrom.positive {db : ConfigDb} (hdb : InBounds db) {call : StartCall}
    (h : call.ReadFrom db) : call.Positive := by
  cases call with
  | creating userId score =>
    obtain ⟨cfg, now, hcfg, rfl⟩ := h
    exact hdb.threshold_pos hcfg now
  | loading => trivial
  | done => trivial
  | failed => trivial

theorem ConfigDb.mem_of_recoveryRow {db : ConfigDb} {type : String} {provenance : Option String}
    {row : BadgeWeight} (h : db.recoveryRow type provenance = some row) :
    row ∈ db.badgeWeight := by
  obtain ⟨qualifier, -, hrow⟩ := List.exists_of_findSome?_eq_some h
  exact (ConfigDb.mem_of_weightRow hrow).1

theorem ProofCall.ReadFrom.nonneg {db : ConfigDb} (hdb : InBounds db) {call : ProofCall}
    (h : call.ReadFrom db) : call.Nonneg := by
  cases call with
  | weighed re weight =>
    obtain ⟨row, now, hrow, rfl⟩ := h
    exact hdb.weight_nonneg (ConfigDb.mem_of_recoveryRow hrow) now
  | begun => trivial
  | live => trivial
  | held => trivial
  | done => trivial
  | failed => trivial

/-- The invariant of the interleaved calls. -/
structure Inv (s : State) : Prop where
  bounds : InBounds s.config.db
  starts : ∀ c ∈ s.starts, c.Positive
  reProofs : ∀ c ∈ s.reProofs, c.Nonneg
  honest : Honest s.db
  oneTicket : OneTicket s.db s.consumes s.verificationToken

variable {s s' : State} {a : Action} {as : List Action}

theorem inv_of_step (hs : Inv s) (hstep : step s a = some s') : Inv s' := by
  cases effect_of_step hstep with
  | config h => exact { hs with bounds := inBounds_of_step hs.bounds h }
  | badges => exact { hs with }
  | starts hnew =>
    refine { hs with starts := fun c hc => ?_ }
    rcases hnew c hc with hold | hread
    · exact hs.starts c hold
    · exact hread.positive hs.bounds
  | created hcall hcons =>
    have hscore := hs.starts _ (List.mem_of_getElem? hcall)
    refine { hs with starts := forall_mem_set hs.starts trivial, honest := ?_, oneTicket := ?_ }
    · exact hs.honest.createAttempt hscore hcons
    · refine hs.oneTicket.attempts fun attemptId hconsumed => ?_
      obtain ⟨row, hrow, hid⟩ := hconsumed
      exact ⟨row, List.mem_append_left _ hrow, hid⟩
  | reProofs hnew =>
    refine { hs with reProofs := fun c hc => ?_ }
    rcases hnew c hc with hold | hread
    · exact hs.reProofs c hold
    · exact hread.nonneg hs.bounds
  | recorded hcall hrow hcons hproof hattempt =>
    have hweight := hs.reProofs _ (List.mem_of_getElem? hcall)
    refine { hs with
      reProofs := forall_mem_set hs.reProofs trivial, honest := ?_, oneTicket := ?_ }
    · exact hs.honest.record hweight hrow hproof hattempt
    · refine hs.oneTicket.attempts fun attemptId hconsumed => ?_
      simp only [State.setReProof]
      rw [hattempt]
      refine hconsumed.mapWhere (AttemptRow.id_counted _ _) fun row hstatus => ?_
      -- Only a pending attempt changes its status.
      rw [AttemptRow.counted, if_neg (by simp [hstatus])]
      exact hstatus
  | consumes hclaim hjti =>
    refine { hs with oneTicket := ⟨hs.oneTicket.claims.sublist hclaim, ?_, ?_⟩ }
    · intro attemptId hmem
      exact hs.oneTicket.consumed attemptId (hclaim.subset hmem)
    · rw [hjti]
      exact hs.oneTicket.markers
  | claimed hcall hone =>
    exact { hs with
      honest := hs.honest.claim _ _, oneTicket := hs.oneTicket.claim hcall hone }
  | minted hcall hcons => exact { hs with oneTicket := hs.oneTicket.mint hcall }

/-- A configuration within its bounds, and no attempts, calls or tickets yet. -/
structure State.Initial (s : State) : Prop where
  bounds : InBounds s.config.db
  attempt : s.db.attempt = []
  proof : s.db.proof = []
  verificationToken : s.verificationToken = []
  starts : s.starts = []
  reProofs : s.reProofs = []
  consumes : s.consumes = []

theorem State.Initial.inv (hs : s.Initial) : Inv s where
  bounds := hs.bounds
  starts := by simp [hs.starts]
  reProofs := by simp [hs.reProofs]
  honest := ⟨by simp [hs.proof], by simp [hs.attempt]⟩
  oneTicket := by
    constructor <;> simp [hs.consumes, hs.verificationToken]

theorem inv_of_run (hs : s.Initial) (hrun : run step s as = some s') : Inv s' :=
  run_invariant_always Inv (fun _ _ _ hs hstep => inv_of_step hs hstep) hs.inv hrun

/-- The accounts of the attempts. -/
structure CountsHonestly (s : State) : Prop where
  score_eq : ∀ attempt ∈ s.db.attempt,
    attempt.accumulatedScore = scoreOf attempt.id s.db.proof
  /-- Each badge type is recorded at most once. -/
  type_once : ∀ attempt ∈ s.db.attempt,
    ((s.db.proof.filter fun p => p.attemptId == attempt.id).map RecoveryProof.badgeType).Nodup
  pending_lt : ∀ attempt ∈ s.db.attempt, attempt.status = "pending" →
    attempt.accumulatedScore < attempt.requiredScore
  satisfied_ge : ∀ attempt ∈ s.db.attempt,
    attempt.status = "satisfied" ∨ attempt.status = "consumed" →
      attempt.requiredScore ≤ attempt.accumulatedScore
  /-- Two calls that claimed the same attempt, and so all that return a ticket for it, are the
  same call. -/
  consume_once : ∀ {attemptId} {i j : Nat} {c d : ConsumeCall},
    s.consumes[i]? = some c → s.consumes[j]? = some d →
    c.claim = some attemptId → d.claim = some attemptId → i = j
  /-- The tickets recorded are those the calls returned. -/
  tickets : Perm (s.verificationToken.map VerificationToken.token)
    (s.consumes.filterMap ConsumeCall.jti)

/-- A consistent table of proofs has each type of an attempt once. -/
theorem nodup_types {proof : List RecoveryProof} (h : Consistent proof) (attemptId : String) :
    ((proof.filter fun p => p.attemptId == attemptId).map RecoveryProof.badgeType).Nodup := by
  rw [List.Nodup, List.pairwise_map]
  refine List.Pairwise.imp_of_mem ?_ (h.sublist List.filter_sublist)
  intro p q hp hq hclash htype
  have hpid : p.attemptId = attemptId := by simpa using (List.mem_filter.mp hp).2
  have hqid : q.attemptId = attemptId := by simpa using (List.mem_filter.mp hq).2
  simp [clash, hpid, hqid, htype] at hclash

/-- However the calls interleave, recovery attempts count honestly. -/
theorem countsHonestly_of_run (hs : s.Initial) (hrun : run step s as = some s') :
    CountsHonestly s' := by
  have hinv := inv_of_run hs hrun
  constructor
  case score_eq => exact fun attempt hmem => (hinv.honest.counted attempt hmem).score
  case type_once => exact fun attempt _ => nodup_types s'.db.proof_consistent attempt.id
  case pending_lt => exact fun attempt hmem => (hinv.honest.counted attempt hmem).pending
  case satisfied_ge => exact fun attempt hmem => (hinv.honest.counted attempt hmem).satisfied
  case consume_once =>
    intro attemptId i j c d hc hd hcclaim hdclaim
    exact eq_of_nodup_filterMap hinv.oneTicket.claims hc hd hcclaim hdclaim
  case tickets => exact hinv.oneTicket.markers

def attestation : HeldBadge where
  id := "b"
  userId := "u"
  type := "tlsn-attestation"
  dedupeKey := none
  nullifierRef := none
  isPublic := false

/-- Nothing has been started; the only badge is a private attestation. -/
def quietState : State where
  config := seedState
  badge := [attestation]
  db := { attempt := [], proof := [] }
  verificationToken := []
  starts := []
  reProofs := []
  consumes := []

/-- An attempt is started and satisfied by one attestation. -/
def satisfyAttempt : List Action :=
  [.start "u", .startNext 0 "a" "n", .startNext 0 "a" "n",
    .reProof ⟨"a", "tlsn-attestation", none⟩, .reProofNext 0, .reProofNext 0, .reProofNext 0,
    .reProofNext 0]

/-- Two consume calls both read the attempt as satisfied. -/
def raceToConsume : List Action :=
  [.consume "a", .consume "a", .consumeNext 0 "j", .consumeNext 1 "k", .consumeNext 1 "k",
    .consumeNext 0 "j", .consumeNext 1 "k"]

theorem quietState_initial : quietState.Initial where
  bounds := by
    refine ⟨?_, fun cfg hcfg => ?_⟩
    · intro row hrow
      fin_cases hrow
      · exact ⟨by decide, nofun⟩
      · exact ⟨by decide, nofun⟩
    · cases hcfg
      exact ⟨by decide, nofun⟩
  attempt := rfl
  proof := rfl
  verificationToken := rfl
  starts := rfl
  reProofs := rfl
  consumes := rfl

theorem raceToConsume_countsHonestly :
    ∃ s', run step quietState (satisfyAttempt ++ raceToConsume) = some s' ∧
      s'.consumes.filterMap ConsumeCall.claim = ["a"] ∧
      s'.verificationToken.map VerificationToken.token = ["k"] ∧ CountsHonestly s' := by
  have hrun : run step quietState (satisfyAttempt ++ raceToConsume) = some _ := rfl
  exact ⟨_, hrun, by decide +kernel, by decide +kernel,
    countsHonestly_of_run quietState_initial hrun⟩

end Minister.Recovery
