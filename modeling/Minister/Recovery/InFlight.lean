import Minister.Recovery.Accounting

/-!
# Hardening and the attempts in flight

The guardrails keep every badge type without solo recovery below the threshold, but an attempt
is not measured against the threshold: it is measured against the threshold of the moment it
was started, and its proofs count with the weights of the moments they were read. An attempt in
flight can therefore be satisfied by one badge type that may no longer recover alone.

It cannot if what was read is no laxer than the configuration at the moment the proof is
recorded.
-/

namespace Minister.Recovery

open Relational Transition

/-- A pending attempt is satisfied afterwards. -/
def BecomesSatisfied (db db' : AttemptDb) (attemptId : String) : Prop :=
  (∃ attempt ∈ db.attempt, attempt.id = attemptId ∧ attempt.status = "pending") ∧
    ∃ attempt ∈ db'.attempt, attempt.id = attemptId ∧ attempt.status = "satisfied"

instance (db db' : AttemptDb) (attemptId : String) :
    Decidable (BecomesSatisfied db db' attemptId) :=
  inferInstanceAs (Decidable (_ ∧ _))

/-- If the row of a re-proof has no solo recovery when the re-proof is recorded, the weight it
has read is at most the worst case of the row, and the score its attempt was started with is
at least the worst case of the threshold. -/
def UpToDate (s : State) : Action → Prop
  | .reProofNext i => ∀ re weight row cfg attempt,
    s.reProofs[i]? = some (.weighed re weight) →
    s.config.db.recoveryRow re.badgeType re.provenance = some row →
    row.allowSoloRecovery = false → s.config.db.recoveryConfig = some cfg →
    s.db.find re.attemptId = some attempt →
    weight ≤ worstWeight row ∧ worstThreshold cfg ≤ attempt.requiredScore
  | _ => True

variable {s₀ s s' : State} {a : Action} {as : List Action} {attemptId badgeType : String}

/-! ### Who satisfies an attempt -/

/-- Rows are told apart by their ids, so an attempt that is still the same row is not
satisfied. -/
theorem not_becomesSatisfied {db db' : AttemptDb}
    (h : ∀ row ∈ db'.attempt, row.status = "satisfied" → row ∈ db.attempt) :
    ¬BecomesSatisfied db db' attemptId := by
  rintro ⟨⟨old, hold, hid, hpending⟩, new, hnew, hid', hsatisfied⟩
  obtain rfl : old = new :=
    AttemptDb.eq_of_id_eq hold (h new hnew hsatisfied) (hid.trans hid'.symm)
  rw [hpending] at hsatisfied
  exact absurd hsatisfied (by decide)

/-- An attempt becomes satisfied only when a re-proof of it is recorded that brings its score
to the required one. -/
theorem recorded_of_becomesSatisfied (hstep : step s a = some s')
    (h : BecomesSatisfied s.db s'.db attemptId) :
    ∃ i re weight attempt, a = .reProofNext i ∧ s.reProofs[i]? = some (.weighed re weight) ∧
      re.attemptId = attemptId ∧ s.db.find attemptId = some attempt ∧
      attempt.requiredScore ≤ attempt.accumulatedScore + weight ∧
      Consistent (s.db.proof ++ [⟨attemptId, re.badgeType, weight⟩]) ∧
      s'.db.proof = s.db.proof ++ [⟨attemptId, re.badgeType, weight⟩] := by
  cases effect_of_step hstep with
  -- Six effects leave the attempts alone.
  | config | badges | starts | reProofs | consumes | minted =>
    exact absurd h (not_becomesSatisfied fun _ hrow _ => hrow)
  | created =>
    refine absurd h (not_becomesSatisfied fun row hrow hstatus => ?_)
    rcases List.mem_append.mp hrow with hold | hnew
    · exact hold
    · rw [List.mem_singleton.mp hnew] at hstatus
      simp [newAttempt] at hstatus
  | claimed =>
    refine absurd h (not_becomesSatisfied fun row hrow hstatus => ?_)
    obtain ⟨old, hold, rfl⟩ := mem_mapWhere.mp hrow
    split_ifs at hstatus ⊢
    · simp [AttemptRow.consume] at hstatus
    · exact hold
  | recorded hcall hrow hcons hproof hattempt =>
    rename_i i re weight attempt db result
    obtain ⟨⟨old, hold, hid, hpending⟩, new, hnew, hid', hsatisfied⟩ := h
    simp only [State.setReProof] at hnew
    rw [hattempt] at hnew
    obtain ⟨before, hbefore, rfl⟩ := mem_mapWhere.mp hnew
    obtain ⟨hmem, hrid⟩ := AttemptDb.mem_of_find hrow
    split_ifs at hid' hsatisfied with hkey
    · -- The attempt the proof is for: it was pending, so its score has reached the mark.
      rw [beq_iff_eq] at hkey
      rw [AttemptRow.id_counted, hkey] at hid'
      subst hid'
      obtain rfl : before = attempt :=
        AttemptDb.eq_of_id_eq hbefore hmem (hkey.trans hrid.symm)
      obtain rfl : old = before := AttemptDb.eq_of_id_eq hold hmem (hid.trans hrid.symm)
      refine ⟨i, re, weight, old, rfl, hcall, rfl, hrow, ?_, hcons, hproof⟩
      by_contra hbelow
      rw [AttemptRow.counted, if_neg fun hcond => hbelow hcond.1] at hsatisfied
      exact absurd (hpending.symm.trans hsatisfied) (by decide)
    · -- Any other attempt is the row it was.
      obtain rfl : old = before := AttemptDb.eq_of_id_eq hold hbefore (hid.trans hid'.symm)
      exact absurd (hpending.symm.trans hsatisfied) (by decide)

/-! ### Solo recovery -/

theorem blocked_of_run (hs : SoloBlocked s₀.config.db) (hrun : run step s₀ as = some s) :
    SoloBlocked s.config.db := by
  refine run_invariant_always (fun s => SoloBlocked s.config.db) ?_ hs hrun
  intro s a s' hs hstep
  cases effect_of_step hstep with
  | config h => exact soloBlocked_of_step hs h
  | _ => exact hs

/-- If all proofs of an attempt are of one type after a proof of that type was inserted, there
were none before: each type is inserted once. -/
theorem scoreOf_eq_zero_of_first {proof : List RecoveryProof} {weight : Int}
    (hcons : Consistent (proof ++ [⟨attemptId, badgeType, weight⟩]))
    (hone : ∀ p ∈ proof, p.attemptId = attemptId → p.badgeType = badgeType) :
    scoreOf attemptId proof = 0 := by
  apply scoreOf_eq_zero
  intro p hp hid
  have hclash := (consistent_append_singleton.mp hcons).2 p hp
  simp [clash, hid, hone p hp hid] at hclash

/-- From a blocked configuration, in every run: if a step satisfies an attempt all of whose
proofs are of one badge type, and what it records is up to date, then the weight row of that
proof has solo recovery at that moment. -/
theorem solo_of_becomesSatisfied (hs : s₀.Initial) (hblocked : SoloBlocked s₀.config.db)
    (hrun : run step s₀ as = some s) (hok : UpToDate s a) (hstep : step s a = some s')
    (hsat : BecomesSatisfied s.db s'.db attemptId)
    (hone : ∀ p ∈ s'.db.proof, p.attemptId = attemptId → p.badgeType = badgeType) :
    ∃ i re weight, a = .reProofNext i ∧ s.reProofs[i]? = some (.weighed re weight) ∧
      re.attemptId = attemptId ∧ re.badgeType = badgeType ∧
      ∀ row, s.config.db.recoveryRow badgeType re.provenance = some row →
        row.allowSoloRecovery = true := by
  obtain ⟨i, re, weight, attempt, rfl, hcall, hid, hfind, hscore, hcons, hproof⟩ :=
    recorded_of_becomesSatisfied hstep hsat
  rw [hproof] at hone
  have htype : re.badgeType = badgeType := hone _ (List.mem_append_right _ List.mem_cons_self) rfl
  refine ⟨i, re, weight, rfl, hcall, hid, htype, fun row hrow => ?_⟩
  rw [← Bool.not_eq_false]
  intro hoff
  -- The proof is the first of the attempt, so its weight alone reaches the required score.
  have hzero : attempt.accumulatedScore = 0 := by
    obtain ⟨hmem, hattempt⟩ := AttemptDb.mem_of_find hfind
    rw [((inv_of_run hs hrun).honest.counted attempt hmem).score, hattempt]
    rw [htype] at hcons
    exact scoreOf_eq_zero_of_first hcons fun p hp => hone p (List.mem_append_left _ hp)
  obtain ⟨cfg, hcfg, hrows⟩ := blocked_of_run hblocked hrun
  obtain ⟨hweight, hrequired⟩ :=
    hok re weight row cfg attempt hcall (htype ▸ hrow) hoff hcfg (hid ▸ hfind)
  have hblock := hrows row (ConfigDb.mem_of_recoveryRow hrow) hoff
  omega

theorem quietState_blocked : SoloBlocked quietState.config.db := ⟨_, rfl, by decide⟩

/-- With solo recovery still on, an attestation satisfies the attempt alone. -/
theorem quietState_solo_of_becomesSatisfied :
    ∃ s s', run step quietState (satisfyAttempt.take 7) = some s ∧
      step s (.reProofNext 0) = some s' ∧ BecomesSatisfied s.db s'.db "a" ∧
      ∃ i re weight, Action.reProofNext 0 = .reProofNext i ∧
        s.reProofs[i]? = some (.weighed re weight) ∧ re.attemptId = "a" ∧
        re.badgeType = "tlsn-attestation" ∧
        ∀ row, s.config.db.recoveryRow "tlsn-attestation" re.provenance = some row →
          row.allowSoloRecovery = true := by
  obtain ⟨s, s', hrun, hstep, hsat, hone, hcall, hrow⟩ : ∃ s s',
      run step quietState (satisfyAttempt.take 7) = some s ∧
        step s (.reProofNext 0) = some s' ∧ BecomesSatisfied s.db s'.db "a" ∧
        (∀ p ∈ s'.db.proof, p.attemptId = "a" → p.badgeType = "tlsn-attestation") ∧
        s.reProofs = [.weighed ⟨"a", "tlsn-attestation", none⟩ 100] ∧
        (s.config.db.recoveryRow "tlsn-attestation" none).map BadgeWeight.allowSoloRecovery =
          some true :=
    ⟨_, _, rfl, rfl, by decide +kernel, by decide +kernel, by decide +kernel,
      by decide +kernel⟩
  have hok : UpToDate s (.reProofNext 0) := by
    intro re weight row cfg attempt hweighed hrow' hoff
    rw [hcall] at hweighed
    cases hweighed
    rw [hrow', Option.map_some, hoff] at hrow
    cases hrow
  exact ⟨s, s', hrun, hstep, hsat, solo_of_becomesSatisfied quietState_initial
    quietState_blocked hrun hok hstep hsat hone⟩

/-- An attempt is started under the threshold 100. The threshold is then raised to 150, which
applies at once, solo recovery by attestation is turned off, and an attestation is
re-proven. -/
def hardenInFlight : List Action :=
  [.start "u", .startNext 0 "a" "n", .startNext 0 "a" "n",
    .config (.updateRecoveryThreshold (some admin) (.finite 150)),
    .config (.setAllowSoloRecovery (some admin) ⟨"tlsn-attestation", "*", false⟩),
    .reProof ⟨"a", "tlsn-attestation", none⟩, .reProofNext 0, .reProofNext 0, .reProofNext 0]

/-- The attempt in flight is satisfied by one attestation although solo recovery is off. -/
theorem hardening_missed :
    quietState.Initial ∧ SoloBlocked quietState.config.db ∧
      ∃ s s', run step quietState hardenInFlight = some s ∧ SoloBlocked s.config.db ∧
        s.reProofs[0]? = some (.weighed ⟨"a", "tlsn-attestation", none⟩ 100) ∧
        step s (.reProofNext 0) = some s' ∧ BecomesSatisfied s.db s'.db "a" ∧
        (∀ p ∈ s'.db.proof, p.attemptId = "a" → p.badgeType = "tlsn-attestation") ∧
        ∃ row, s.config.db.recoveryRow "tlsn-attestation" none = some row ∧
          row.allowSoloRecovery = false := by
  have heval : (run step quietState hardenInFlight).any (fun s =>
      (step s (.reProofNext 0)).any fun s' =>
        s.reProofs[0]? = some (.weighed ⟨"a", "tlsn-attestation", none⟩ 100) ∧
        BecomesSatisfied s.db s'.db "a" ∧
        (∀ p ∈ s'.db.proof, p.attemptId = "a" → p.badgeType = "tlsn-attestation") ∧
        (s.config.db.recoveryRow "tlsn-attestation" none).map BadgeWeight.allowSoloRecovery =
          some false) = true := by
    decide +kernel
  obtain ⟨s, hrun, heval⟩ := (Option.any_eq_true _ _).mp heval
  obtain ⟨s', hstep, heval⟩ := (Option.any_eq_true _ _).mp heval
  obtain ⟨hcall, hsat, hone, hrow⟩ := of_decide_eq_true heval
  obtain ⟨row, hrow, hoff⟩ := Option.map_eq_some_iff.mp hrow
  exact ⟨quietState_initial, quietState_blocked, s, s', hrun,
    blocked_of_run quietState_blocked hrun, hcall, hstep, hsat, hone, row, hrow, hoff⟩

end Minister.Recovery
