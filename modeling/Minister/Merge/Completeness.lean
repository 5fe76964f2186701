import Minister.Merge.Subjects

/-!
# What a merge leaves behind

`schema.prisma` has twenty-two tables with a foreign key to `User`. A merge is meant
to leave none of them pointing at the donor, except where the survivor already had a
subject override. It rewrites fifteen; no statement of `runMergeTx` names the seven
tables of `leftOut`.
-/

namespace Minister

open Relational

/-- The tables with a foreign key to `User`. -/
inductive UserTable
  | account | session | authenticator | badge | eligibility | shareLink | oidcAccessToken
  | wizardSession | userEmail | recoveryCode | recoveryAttempt | inviteRedemption | oidcClient
  | oidcGrant | subjectOverride | oidcProfileOverride | userAvatar | group | groupMembership
  | anonSeedEnrollment | anonSeedBlob | anonPairSession
  deriving DecidableEq, Repr

/-- The values of a table's foreign key. -/
def owners (db : Db) : UserTable → List UserId
  | .account => db.account.filterMap owner
  | .session => db.session.filterMap owner
  | .authenticator => db.authenticator.filterMap owner
  | .badge => db.badge.filterMap owner
  | .eligibility => db.eligibility.filterMap owner
  | .shareLink => db.shareLink.filterMap owner
  | .oidcAccessToken => db.oidcAccessToken.filterMap owner
  | .wizardSession => db.wizardSession.filterMap owner
  | .userEmail => db.userEmail.filterMap owner
  | .recoveryCode => db.recoveryCode.filterMap owner
  | .recoveryAttempt => db.recoveryAttempt.filterMap owner
  | .inviteRedemption => db.inviteRedemption.filterMap owner
  | .oidcClient => db.oidcClient.filterMap owner
  | .oidcGrant => db.oidcGrant.filterMap owner
  | .subjectOverride => db.subjectOverride.map (·.userId)
  | .oidcProfileOverride => db.oidcProfileOverride.map (·.userId)
  | .userAvatar => db.userAvatar.map (·.userId)
  | .group => db.group.map (·.ownerUserId)
  | .groupMembership => db.groupMembership.map (·.userId)
  | .anonSeedEnrollment => db.anonSeedEnrollment.map (·.userId)
  | .anonSeedBlob => db.anonSeedBlob.map (·.userId)
  | .anonPairSession => db.anonPairSession.map (·.userId)

/-- No row still points at the donor, except an override of theirs at a client where
the survivor had one before. -/
structure Complete (S D : UserId) (before after : Db) : Prop where
  moved : ∀ table ≠ .subjectOverride, D ∉ owners after table
  skipped : ∀ o ∈ after.subjectOverride, o.userId = D →
    o ∈ before.subjectOverride ∧ o.clientId ∈ overrideClients S before.subjectOverride

/-- The tables no statement of `runMergeTx` names. -/
def leftOut : List UserTable :=
  [.oidcProfileOverride, .userAvatar, .group, .groupMembership, .anonSeedEnrollment,
    .anonSeedBlob, .anonPairSession]

/-! ### The tables a merge rewrites -/

section Tables

variable {S D : UserId}

/-- A re-pointed table has nothing of the donor's left. -/
theorem not_mem_owners_repoint {R K : Type} [Owned R UserId K] {t : List R} (hne : S ≠ D) :
    D ∉ (repoint D S t).filterMap owner := by
  intro h
  obtain ⟨r, hr, howner⟩ := List.mem_filterMap.mp h
  obtain ⟨r₀, -, rfl⟩ := mem_mapWhere.mp hr
  split_ifs at howner with hD
  · rw [Owned.owner_setOwner] at howner
    exact hne (Option.some.inj howner)
  · exact hD (decide_eq_true howner)

/-- Demoting addresses does not change whose they are. -/
theorem owners_demoted (ids : List String) (t : List UserEmail) :
    (mapWhere (fun e => e.id ∈ ids) (fun e => { e with isPrimary := false }) t).filterMap owner =
      t.filterMap owner := by
  unfold mapWhere
  rw [List.filterMap_map]
  congr 1
  funext e
  simp only [Function.comp_apply]
  split_ifs <;> rfl

/-- If every row of the donor's is deleted or moved, none is left. -/
theorem not_mem_owners_resolved {R : Type} [Owned R UserId String] {t : List R}
    {deleted toMove : List String} (hne : S ≠ D)
    (hall : ∀ r ∈ t, owner r = some D → key r ∈ deleted ∨ key r ∈ toMove) :
    D ∉ (resolved deleted toMove S t).filterMap owner := by
  intro h
  obtain ⟨r, hr, howner⟩ := List.mem_filterMap.mp h
  obtain ⟨r₀, hr₀, rfl⟩ := mem_mapWhere.mp hr
  obtain ⟨hmem, hkept⟩ := mem_deleteMany.mp hr₀
  split_ifs at howner with hmove
  · rw [Owned.owner_setOwner] at howner
    exact hne (Option.some.inj howner)
  · rcases hall r₀ hmem howner with hdel | hmv
    · exact of_decide_eq_false hkept hdel
    · exact hmove (decide_eq_true hmv)

/-- The donor's eligibility is moved if it is the earlier one, and deleted if not. -/
theorem eligibility_deleted_or_moved {t : List Eligibility} {e : Eligibility} (he : e ∈ t)
    (hD : e.userId = D) :
    e.id ∈ (eligibilityLosers S D t).map (·.id) ∨ e.id ∈ eligibilityMoved S D t := by
  have hmine : e ∈ findMany (fun e => e.userId = D) t := mem_findMany.mpr ⟨he, decide_eq_true hD⟩
  by_cases hmoves : eligibilityMoves (at? t S) e = true
  · right
    exact List.mem_map.mpr ⟨e, mem_findMany.mpr ⟨he, decide_eq_true ⟨hD, hmoves⟩⟩, rfl⟩
  · left
    cases hs : at? t S e.badgeType with
    | none => simp [eligibilityMoves, hs] at hmoves
    | some s =>
      have hlater : ¬e.eligibleAt < s.eligibleAt := by simpa [eligibilityMoves, hs] using hmoves
      refine List.mem_map.mpr ⟨e, List.mem_filterMap.mpr ⟨e, hmine, ?_⟩, rfl⟩
      simp [eligibilityLoserRow, hs, hlater]

/-- The donor's redemption is deleted if the survivor has redeemed the code too. -/
theorem redemption_deleted_or_moved {t : List InviteRedemption} {r : InviteRedemption}
    (hr : r ∈ t) (hD : r.userId = D) :
    r.id ∈ (redemptionLosers S D t).map (·.id) ∨ r.id ∈ redemptionMoved S D t := by
  by_cases hs : at? t S r.inviteCodeId = none
  · exact .inr (List.mem_map.mpr ⟨r, mem_findMany.mpr ⟨hr, decide_eq_true ⟨hD, hs⟩⟩, rfl⟩)
  · exact .inl (List.mem_map.mpr ⟨r, mem_findMany.mpr ⟨hr, decide_eq_true ⟨hD, hs⟩⟩, rfl⟩)

/-- The donor's grants are moved or folded into the survivor's. -/
theorem not_mem_owners_mergedGrants {t : List OidcGrant} (hne : S ≠ D) :
    D ∉ (mergedGrants S D t).filterMap owner := by
  intro h
  obtain ⟨g, hg, howner⟩ := List.mem_filterMap.mp h
  obtain ⟨g₀, -, hmerged⟩ := List.mem_filterMap.mp hg
  exact (mergedGrant_spec hmerged).2 hne (Option.some.inj howner)

/-- An override the donor still has after the merge was skipped. -/
theorem skipped_of_mem_movedOverrides {t : List SubjectOverride} {o : SubjectOverride}
    (hne : S ≠ D) (ho : o ∈ movedOverrides S D t) (hD : o.userId = D) :
    o ∈ t ∧ o.clientId ∈ overrideClients S t := by
  obtain ⟨o₀, ho₀, rfl⟩ := mem_mapWhere.mp ho
  split_ifs at hD ⊢ with hmove
  · exact absurd hD hne
  · refine ⟨ho₀, ?_⟩
    by_contra hfree
    exact hmove (decide_eq_true ⟨hD, hfree⟩)

end Tables

/-! ### Completeness -/

section Completeness

variable {S D : UserId} {pairwise : UserId → ClientId → String} {db db₁ : Db}

/-- A committed merge leaves the tables it does not name as they were. -/
theorem owners_leftOut {inputs : MergeInputs} {summary : MergeSummary} (hdb : db.Consistent)
    (h : mergeAccounts pairwise inputs S D db = .ok (db₁, summary)) :
    ∀ table ∈ leftOut, owners db₁ table = owners db table := by
  obtain ⟨-, survivor, donor, p, entries, -, -, rfl, -⟩ := settledDb_of_mergeAccounts hdb h
  intro table htable
  cases table with
  | oidcProfileOverride | userAvatar | group | groupMembership | anonSeedEnrollment
  | anonSeedBlob | anonPairSession => rfl
  | _ => exact absurd htable (by decide)

/-- Every other table is rid of the donor, skipped overrides apart. -/
theorem not_mem_owners_of_mergeAccounts {inputs : MergeInputs} {summary : MergeSummary}
    (hdb : db.Consistent) (h : mergeAccounts pairwise inputs S D db = .ok (db₁, summary)) :
    (∀ table, table ∉ leftOut → table ≠ .subjectOverride → D ∉ owners db₁ table) ∧
      ∀ o ∈ db₁.subjectOverride, o.userId = D →
        o ∈ db.subjectOverride ∧ o.clientId ∈ overrideClients S db.subjectOverride := by
  obtain ⟨hne, survivor, donor, p, entries, hready, -, rfl, -⟩ := settledDb_of_mergeAccounts hdb h
  obtain ⟨rfl, rfl⟩ := hready.ids
  constructor
  · intro table hnamed hoverride
    cases table with
    | account | session | authenticator | badge | shareLink | oidcAccessToken | wizardSession
    | recoveryCode | recoveryAttempt | oidcClient => exact not_mem_owners_repoint hne
    | userEmail =>
      have hemails : owners (settledDb survivor donor inputs.now inputs.recordId
          (precomputeSubs pairwise donor.id db) p inputs.handleCandidate entries db) .userEmail =
          (repoint donor.id survivor.id db.userEmail).filterMap owner := owners_demoted _ _
      rw [hemails]
      exact not_mem_owners_repoint hne
    | eligibility =>
      apply not_mem_owners_resolved hne
      intro e he howner
      exact eligibility_deleted_or_moved he (Option.some.inj howner)
    | inviteRedemption =>
      apply not_mem_owners_resolved hne
      intro r hr howner
      exact redemption_deleted_or_moved hr (Option.some.inj howner)
    | oidcGrant => exact not_mem_owners_mergedGrants hne
    | subjectOverride => exact absurd rfl hoverride
    | oidcProfileOverride | userAvatar | group | groupMembership | anonSeedEnrollment
    | anonSeedBlob | anonPairSession => exact absurd (by decide) hnamed
  · intro o ho hD
    rcases List.mem_append.mp ho with hmoved | hcreated
    · exact skipped_of_mem_movedOverrides hne hmoved hD
    · -- The overrides a merge creates are the survivor's.
      obtain ⟨ov, -, rfl⟩ := List.mem_map.mp hcreated
      exact absurd hD hne

/-- A merge that commits is complete exactly when the donor has no profile override,
avatar, group, group membership, or anonymous-identity row. -/
theorem mergeAccounts_complete_iff {inputs : MergeInputs} {summary : MergeSummary}
    (hdb : db.Consistent) (h : mergeAccounts pairwise inputs S D db = .ok (db₁, summary)) :
    Complete S D db db₁ ↔ ∀ table ∈ leftOut, D ∉ owners db table := by
  have hsame := owners_leftOut hdb h
  obtain ⟨hmoved, hskipped⟩ := not_mem_owners_of_mergeAccounts hdb h
  constructor
  · intro hcomplete table htable
    rw [← hsame table htable]
    apply hcomplete.moved table
    rintro rfl
    exact absurd htable (by decide)
  · intro hnone
    refine ⟨fun table hoverride => ?_, hskipped⟩
    by_cases htable : table ∈ leftOut
    · rw [hsame table htable]
      exact hnone table htable
    · exact hmoved table htable hoverride

end Completeness

/-- `A` and `B` with an override each at `shop`; `B` also has a badge. -/
def plainDb : Db where
  user := [liveUser "A" none, liveUser "B" none]
  badge := [⟨"b1", "B", "age-over-18", none, none⟩]
  subjectOverride := [⟨"A", "shop", "sub-a"⟩, ⟨"B", "shop", "sub-b"⟩]

theorem plainDb_complete : ∃ db₁ summary,
    mergeAccounts markedPairwise sampleInputs "A" "B" plainDb = .ok (db₁, summary) ∧
      Complete "A" "B" plainDb db₁ := by
  refine ⟨_, _, rfl, ?_⟩
  exact (mergeAccounts_complete_iff (by constructor <;> decide) rfl).mpr (by decide)

/-- `B` owns a group and belongs to it. -/
def groupDb : Db where
  user := [liveUser "A" none, liveUser "B" none]
  group := [⟨"g1", "acme", "B"⟩]
  groupMembership := [⟨"gm1", "g1", "B", "owner"⟩]

/-- After the merge the group and the membership still belong to the donor. -/
theorem groupDb_incomplete : ∃ db₁ summary, groupDb.Consistent ∧
    mergeAccounts markedPairwise sampleInputs "A" "B" groupDb = .ok (db₁, summary) ∧
      "B" ∈ owners db₁ .group ∧ "B" ∈ owners db₁ .groupMembership ∧
      ¬Complete "A" "B" groupDb db₁ := by
  refine ⟨_, _, by constructor <;> decide, rfl, by decide, by decide, fun hcomplete => ?_⟩
  exact hcomplete.moved .group (by decide) (by decide)

end Minister
