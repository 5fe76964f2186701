import Minister.Merge.Transaction

/-!
# What a merge does to each table

Every statement of `runMergeTx` but the last insert of overrides succeeds on a
consistent database. This module gives the table each of them leaves, and
`runMergeTx_eq_ok_iff` puts them together: a merge commits exactly when its
preconditions hold, and then the database is `mergedDb`.
-/

namespace Minister

open Relational

variable {S D : UserId}

/-! ### Subject overrides -/

section SubjectOverride

variable {t : List SubjectOverride}

theorem mem_overrideClients {u : UserId} {c : ClientId} :
    c ∈ overrideClients u t ↔ at? t u c ≠ none := by
  rw [Ne, at?_eq_none_iff]
  simp [overrideClients, findMany, holder, slot, and_assoc]

/-- The overrides with the donor's in the hands of the survivor, except at
clients where the survivor has one. -/
def movedOverrides (S D : UserId) (t : List SubjectOverride) : List SubjectOverride :=
  mapWhere (fun o => o.userId = D ∧ o.clientId ∉ overrideClients S t) (setHolder S) t

theorem moveOverrides_eq_ok (h : Consistent t) (hne : S ≠ D) :
    moveOverrides S D (overrideClients S t) (overrideClients D t) t =
      .ok (movedOverrides S D t) := by
  let cs := (overrideClients D t).filter fun c => c ∉ overrideClients S t
  have hcs : ∀ c ∈ cs, c ∈ overrideClients D t ∧ c ∉ overrideClients S t := by
    intro c hc
    simpa [cs] using hc
  have hfree : ∀ c ∈ cs, at? t S c = none := by
    intro c hc
    by_contra hsome
    exact (hcs c hc).2 (mem_overrideClients.mpr hsome)
  have hloop : moveOverrides S D (overrideClients S t) (overrideClients D t) t =
      cs.foldlM (fun t c => update (inSlot D c) (setHolder S) t) t := by
    unfold moveOverrides
    rw [List.foldlM_filter]
    simp [pure, Except.pure]
  have hnodup : cs.Nodup := (h.nodup_slots D).filter _
  rw [hloop, foldlM_update_inSlot h hnodup
    (fun c hc => mem_overrideClients.mp (hcs c hc).1) hfree,
    moveSlots_eq_ok hne.symm h fun c hc => .inr (hfree c hc)]
  refine congrArg _ (mapWhere_congr fun o ho => ?_)
  by_cases hD : o.userId = D
  · have hown : o.clientId ∈ overrideClients D t :=
      mem_overrideClients.mpr fun hn => at?_eq_none_iff.mp hn o ho hD rfl
    simp [holder, slot, cs, hD, hown]
  · simp [holder, hD]

theorem consistent_movedOverrides (h : Consistent t) : Consistent (movedOverrides S D t) := by
  refine h.handOver (d := D) (fun o _ ho => (of_decide_eq_true ho).1) ?_
  rintro a _ b hb ha _ ⟨hbS, hba⟩
  refine (of_decide_eq_true ha).2 (mem_overrideClients.mpr fun hnone => ?_)
  exact at?_eq_none_iff.mp hnone b hb hbS hba

end SubjectOverride

/-! ### Grants -/

section OidcGrant

variable {t : List OidcGrant} {cs : List ClientId} {c : ClientId} {g dg : OidcGrant}

/-- What becomes of a grant: the donor's moves, or is deleted where the survivor
has one, which then takes up its fields. -/
def mergedGrant (S D : UserId) (t : List OidcGrant) (g : OidcGrant) : Option OidcGrant :=
  if g.userId = D then
    match at? t S g.clientId with
    | none => some (setHolder S g)
    | some _ => none
  else if g.userId = S then
    match at? t D g.clientId with
    | none => some g
    | some dg => some { g with fields := g.fields.union dg.fields }
  else some g

def mergedGrants (S D : UserId) (t : List OidcGrant) : List OidcGrant :=
  t.filterMap (mergedGrant S D t)

/-- The table once the rounds for the clients `cs` have run. -/
def mergedGrantsAt (S D : UserId) (t : List OidcGrant) (cs : List ClientId) : List OidcGrant :=
  t.filterMap fun g => if g.clientId ∈ cs then mergedGrant S D t g else some g

/-- A grant that is left keeps its key, and is not the donor's. -/
theorem mergedGrant_spec {g' : OidcGrant} (h : mergedGrant S D t g = some g') :
    key g' = key g ∧ (S ≠ D → g'.userId ≠ D) := by
  unfold mergedGrant at h
  split_ifs at h with hD
  · split at h <;> cases h
    exact ⟨rfl, id⟩
  · split at h <;>
    · cases h
      exact ⟨rfl, fun _ => hD⟩
  · cases h
    exact ⟨rfl, fun _ => hD⟩

theorem mergedGrant_clientId {g' : OidcGrant} (h : mergedGrant S D t g = some g') :
    g'.clientId = g.clientId := congrArg Prod.snd (mergedGrant_spec h).1

theorem mem_mergedGrantsAt_of_clientId (hc : g.clientId ∉ cs) :
    g ∈ mergedGrantsAt S D t cs ↔ g ∈ t := by
  unfold mergedGrantsAt
  rw [List.mem_filterMap]
  constructor
  · rintro ⟨g₀, hg₀, hg⟩
    split_ifs at hg with hcs
    · rw [mergedGrant_clientId hg] at hc
      exact absurd hcs hc
    · cases hg
      exact hg₀
  · intro hg
    exact ⟨g, hg, if_neg hc⟩

theorem at?_mergedGrantsAt_eq_none {u : UserId} (hc : c ∉ cs) (hnone : at? t u c = none) :
    at? (mergedGrantsAt S D t cs) u c = none := by
  rw [at?_eq_none_iff] at hnone ⊢
  intro g hg hu hgc
  have hgc' : g.clientId ∉ cs := by rwa [show g.clientId = c from hgc]
  exact hnone g ((mem_mergedGrantsAt_of_clientId hgc').mp hg) hu hgc

/-- A round touches the grants of its own client, and those of the clients done before have kept
their client. -/
theorem filterMap_mergedGrantsAt (hc : c ∉ cs) {f : OidcGrant → Option OidcGrant}
    (hother : ∀ g, g.clientId ≠ c → f g = some g)
    (hround : ∀ g ∈ t, g.clientId = c → f g = mergedGrant S D t g) :
    (mergedGrantsAt S D t cs).filterMap f = mergedGrantsAt S D t (c :: cs) := by
  unfold mergedGrantsAt
  rw [List.filterMap_filterMap]
  refine List.filterMap_congr fun g hg => ?_
  by_cases hcs : g.clientId ∈ cs
  · have hgc : g.clientId ≠ c := fun e => hc (e ▸ hcs)
    cases hm : mergedGrant S D t g with
    | none => simp [hcs]
    | some g' => simp [hcs, hother g' (by rwa [mergedGrant_clientId hm])]
  · by_cases hgc : g.clientId = c
    · simp [hc, hgc, hround g hg hgc]
    · simp [hcs, hgc, hother g hgc]

/-- The round for a client the survivor holds no grant at. -/
theorem mapWhere_mergedGrantsAt (hc : c ∉ cs) (hnone : at? t S c = none) :
    mapWhere (inSlot D c) (setHolder S) (mergedGrantsAt S D t cs) =
      mergedGrantsAt S D t (c :: cs) := by
  rw [mapWhere, ← List.filterMap_eq_map]
  refine filterMap_mergedGrantsAt hc (fun g hgc => ?_) fun g hg hgc => ?_
  · simp [inSlot, slot, hgc]
  · subst hgc
    by_cases hD : g.userId = D
    · simp [mergedGrant, inSlot, holder, slot, hD, hnone]
    · have hS : g.userId ≠ S := fun hS => at?_eq_none_iff.mp hnone g hg hS rfl
      simp [mergedGrant, inSlot, holder, hD, hS]

variable (h : Consistent t) (hne : S ≠ D)

include h hne

/-- The round for a client both accounts hold a grant at. -/
theorem deleteMany_mergedGrantsAt {sg : OidcGrant} (hc : c ∉ cs) (hsg : at? t S c = some sg)
    (hdg : at? t D c = some dg) :
    deleteMany (inSlot D c) (mapWhere (inSlot S c)
      (fun g => { g with fields := sg.fields.union dg.fields }) (mergedGrantsAt S D t cs)) =
      mergedGrantsAt S D t (c :: cs) := by
  rw [deleteMany, mapWhere, ← List.filterMap_eq_map, List.filter_filterMap]
  refine filterMap_mergedGrantsAt hc (fun g hgc => ?_) fun g hg hgc => ?_
  · simp [inSlot, slot, hgc]
  · subst hgc
    by_cases hD : g.userId = D
    · simp [mergedGrant, inSlot, holder, slot, hD, hsg, hne.symm]
    · by_cases hS : g.userId = S
      · obtain rfl : g = sg := by
          have hat := (at?_eq_some_iff h).mpr ⟨hg, show holder g = S from hS, rfl⟩
          exact Option.some_inj.mp (hat.symm.trans hsg)
        simp [mergedGrant, inSlot, holder, slot, hS, hne, hdg]
      · simp [mergedGrant, inSlot, holder, hD, hS]

/-- One round of the grant loop takes the table from the clients done so far to
the next. -/
theorem mergeGrant_eq_ok (hcs : Consistent (mergedGrantsAt S D t cs)) (hdg : dg ∈ t)
    (hD : dg.userId = D) (hc : dg.clientId ∉ cs) :
    mergeGrant S D (findMany (fun g => g.userId = S) t) (mergedGrantsAt S D t cs) dg =
        .ok (mergedGrantsAt S D t (dg.clientId :: cs)) ∧
      Consistent (mergedGrantsAt S D t (dg.clientId :: cs)) := by
  have hfind : (findMany (fun g => g.userId = S) t).find? (fun g => g.clientId = dg.clientId) =
      at? t S dg.clientId := find?_findMany_holder
  unfold mergeGrant
  rw [hfind]
  cases hsg : at? t S dg.clientId with
  | none =>
    have hmap := mapWhere_mergedGrantsAt (D := D) hc hsg
    have hok := hcs.mapWhere_inSlot (s := D) (.inr (at?_mergedGrantsAt_eq_none hc hsg))
    rw [hmap] at hok
    refine ⟨update_eq_ok_iff.mpr ⟨⟨dg, ?_, inSlot_eq_true.mpr ⟨hD, rfl⟩⟩, ?_, hmap⟩, hok⟩
    · exact (mem_mergedGrantsAt_of_clientId hc).mpr hdg
    · rwa [hmap]
  | some sg =>
    obtain ⟨hsgt, hS, hsc⟩ := (at?_eq_some_iff h).mp hsg
    have hat : at? t D dg.clientId = some dg := (at?_eq_some_iff h).mpr ⟨hdg, hD, rfl⟩
    have hdel := deleteMany_mergedGrantsAt h hne hc hsg hat
    have hok := hcs.mapWhere_of_clash (inSlot S dg.clientId)
      (f := fun g : OidcGrant => { g with fields := sg.fields.union dg.fields }) fun _ _ => rfl
    have hupd : update (inSlot S dg.clientId)
        (fun g : OidcGrant => { g with fields := sg.fields.union dg.fields })
        (mergedGrantsAt S D t cs) = .ok (mapWhere (inSlot S dg.clientId)
          (fun g => { g with fields := sg.fields.union dg.fields }) (mergedGrantsAt S D t cs)) := by
      refine update_eq_ok_iff.mpr ⟨⟨sg, ?_, inSlot_eq_true.mpr ⟨hS, hsc⟩⟩, hok, rfl⟩
      refine (mem_mergedGrantsAt_of_clientId ?_).mpr hsgt
      rwa [show sg.clientId = dg.clientId from hsc]
    refine ⟨?_, ?_⟩
    · simp only [hupd, Except.map, hdel]
    · rw [← hdel]
      exact hok.deleteMany

theorem foldlM_mergeGrant_eq_ok :
    ∀ (dgs : List OidcGrant) (cs : List ClientId), Consistent (mergedGrantsAt S D t cs) →
      (∀ dg ∈ dgs, dg ∈ t ∧ dg.userId = D ∧ dg.clientId ∉ cs) → (dgs.map (·.clientId)).Nodup →
      dgs.foldlM (mergeGrant S D (findMany (fun g => g.userId = S) t)) (mergedGrantsAt S D t cs) =
          .ok (mergedGrantsAt S D t ((dgs.map (·.clientId)).reverse ++ cs)) ∧
        Consistent (mergedGrantsAt S D t ((dgs.map (·.clientId)).reverse ++ cs))
  | [], cs, hcs, _, _ => ⟨rfl, hcs⟩
  | dg :: dgs, cs, hcs, hdgs, hnd => by
    obtain ⟨hdg, hD, hc⟩ := hdgs dg List.mem_cons_self
    obtain ⟨hfresh, hnd'⟩ := List.nodup_cons.mp hnd
    obtain ⟨hstep, hcs'⟩ := mergeGrant_eq_ok h hne hcs hdg hD hc
    have hrest : ∀ d ∈ dgs, d ∈ t ∧ d.userId = D ∧ d.clientId ∉ dg.clientId :: cs := by
      intro d hd
      obtain ⟨hd₁, hd₂, hd₃⟩ := hdgs d (List.mem_cons_of_mem _ hd)
      refine ⟨hd₁, hd₂, fun hmem => ?_⟩
      rcases List.mem_cons.mp hmem with heq | hmem
      · exact hfresh (List.mem_map.mpr ⟨d, hd, heq⟩)
      · exact hd₃ hmem
    rw [List.foldlM_cons, hstep, List.map_cons, List.reverse_cons, List.append_assoc]
    exact foldlM_mergeGrant_eq_ok _ _ hcs' hrest hnd'

theorem mergeGrants_eq_ok :
    mergeGrants S D t = .ok (mergedGrants S D t) ∧ Consistent (mergedGrants S D t) := by
  have hnil : mergedGrantsAt S D t [] = t := by simp [mergedGrantsAt]
  have hloop := foldlM_mergeGrant_eq_ok (S := S) (D := D) h hne
    (findMany (fun g => g.userId = D) t) [] (by rwa [hnil]) (fun dg hdg => by
      simpa using mem_findMany.mp hdg) (h.nodup_slots D)
  have hall : mergedGrantsAt S D t
      (((findMany (fun g => g.userId = D) t).map (·.clientId)).reverse ++ []) =
      mergedGrants S D t := by
    refine List.filterMap_congr fun g hg => ?_
    split_ifs with hmem
    · rfl
    -- A client the donor has no grant at is left alone.
    have hno : at? t D g.clientId = none := by
      rw [at?_eq_none_iff]
      intro d hd hdD hdc
      exact hmem (by simpa [mem_findMany] using ⟨d, ⟨hd, hdD⟩, hdc⟩)
    have hgD : g.userId ≠ D := fun hD => at?_eq_none_iff.mp hno g hg hD rfl
    simp [mergedGrant, hgD, hno]
  rw [hall, hnil] at hloop
  exact hloop

end OidcGrant

/-! ### Eligibilities and redemptions -/

/-- The table once its collision losers are gone and the listed rows moved. -/
def resolved {R : Type} [Owned R UserId String] (deleted toMove : List String) (S : UserId)
    (t : List R) : List R :=
  mapWhere (fun r => key r ∈ toMove) (setOwner S) (deleteMany (fun r => key r ∈ deleted) t)

section Eligibility

variable {t : List Eligibility}

/-- A deleted row as the snapshot records it. -/
def deletedEligibility (e : Eligibility) : EligibilityDeleted :=
  ⟨e.id, e.userId, e.badgeType, some e.eligibleAt, e.fuzzDays, e.source⟩

/-- Of the two rows of a badge type, the later one. -/
def eligibilityLoserRow (S : UserId) (t : List Eligibility) (d : Eligibility) :
    Option Eligibility :=
  (at? t S d.badgeType).map fun s => if d.eligibleAt < s.eligibleAt then s else d

def eligibilityLosers (S D : UserId) (t : List Eligibility) : List Eligibility :=
  (findMany (fun e => e.userId = D) t).filterMap (eligibilityLoserRow S t)

/-- A donor row moves unless the survivor's row of its type is no later. -/
def eligibilityMoved (S D : UserId) (t : List Eligibility) : List String :=
  (findMany (fun d => d.userId = D ∧ eligibilityMoves (at? t S) d) t).map (·.id)

/-- The plan records every loser in full, whichever side it was on. -/
theorem eligibilityPlan_eq (h : Consistent t) (hne : S ≠ D) :
    eligibilityPlan S D t =
      ⟨(eligibilityLosers S D t).map deletedEligibility, eligibilityMoved S D t⟩ := by
  have hbyType : (fun ty => (findMany (fun e => e.userId = S) t).find? fun e => e.badgeType = ty) =
      at? t S := funext fun ty => find?_findMany_holder
  unfold eligibilityPlan
  simp only [hbyType, EligibilityPlan.mk.injEq]
  constructor
  · unfold eligibilityLosers
    rw [List.map_filterMap, List.map_filterMap]
    refine List.filterMap_congr fun d hd => ?_
    obtain ⟨hdt, hdD⟩ : d ∈ t ∧ d.userId = D := by simpa using mem_findMany.mp hd
    unfold eligibilityLoser eligibilityLoserRow
    cases hs : at? t S d.badgeType with
    | none => rfl
    | some s =>
      obtain ⟨hst, hsS, hsty⟩ := (at?_eq_some_iff h).mp hs
      simp only [holder, slot] at hsS hsty
      by_cases hlt : d.eligibleAt < s.eligibleAt
      · have hfull : t.find? (fun r => r.id = s.id) = some s := (get?_eq_some_iff h).mpr ⟨hst, rfl⟩
        simp [hlt, fillSurvivorRow, hfull, deletedEligibility, hsS, hsty]
      · simp [hlt, fillSurvivorRow, hne.symm, deletedEligibility, hdD]
  · simp [eligibilityMoved, findMany, List.filter_filter, Bool.and_comm]

theorem mem_eligibilityMoved (h : Consistent t) {e : Eligibility} (he : e ∈ t) :
    e.id ∈ eligibilityMoved S D t ↔ e.userId = D ∧ eligibilityMoves (at? t S) e = true :=
  (h.key_mem_findMany he).trans decide_eq_true_iff

theorem consistent_resolved_eligibility (h : Consistent t) :
    Consistent (resolved ((eligibilityLosers S D t).map (·.id)) (eligibilityMoved S D t) S t) := by
  refine h.deleteMany.handOver (d := D) (fun e he hmv => ?_) ?_
  · exact ((mem_eligibilityMoved h (mem_deleteMany.mp he).1).mp (of_decide_eq_true hmv)).1
  -- The survivor's row of a moving row's type lost to it, and is gone.
  · rintro a ha b hb hpa hpb ⟨hbS, hba⟩
    obtain ⟨hat, -⟩ := mem_deleteMany.mp ha
    obtain ⟨hbt, hbdel⟩ := mem_deleteMany.mp hb
    obtain ⟨haD, hmv⟩ := (mem_eligibilityMoved h hat).mp (of_decide_eq_true hpa)
    have hs : at? t S a.badgeType = some b := (at?_eq_some_iff h).mpr ⟨hbt, hbS, hba⟩
    have hlt : a.eligibleAt < b.eligibleAt := by simpa [eligibilityMoves, hs] using hmv
    have hlost : b ∈ eligibilityLosers S D t := by
      refine List.mem_filterMap.mpr ⟨a, mem_findMany.mpr ⟨hat, by simpa using haD⟩, ?_⟩
      simp [eligibilityLoserRow, hs, hlt]
    exact of_decide_eq_false hbdel (List.mem_map_of_mem hlost)

theorem mergeEligibilities_eq_ok (h : Consistent t) (hne : S ≠ D) :
    mergeEligibilities S D t =
      .ok (resolved ((eligibilityLosers S D t).map (·.id)) (eligibilityMoved S D t) S t) := by
  simp only [mergeEligibilities, eligibilityPlan_eq h hne, List.map_map]
  exact updateMany_eq_ok_iff.mpr ⟨consistent_resolved_eligibility h, rfl⟩

end Eligibility

section InviteRedemption

variable {t : List InviteRedemption}

/-- A deleted redemption as the snapshot records it. -/
def deletedRedemption (r : InviteRedemption) : InviteRedemptionDeleted :=
  ⟨r.id, r.inviteCodeId, r.userId, some r.redeemedAt⟩

/-- The donor's redemptions of codes the survivor redeemed too. -/
def redemptionLosers (S D : UserId) (t : List InviteRedemption) : List InviteRedemption :=
  findMany (fun d => d.userId = D ∧ at? t S d.inviteCodeId ≠ none) t

def redemptionMoved (S D : UserId) (t : List InviteRedemption) : List String :=
  (findMany (fun d => d.userId = D ∧ at? t S d.inviteCodeId = none) t).map (·.id)

theorem redemptionPlan_eq :
    redemptionPlan S D t =
      ⟨(redemptionLosers S D t).map deletedRedemption, redemptionMoved S D t⟩ := by
  have hcodes : ∀ c, c ∈ (findMany (fun r => r.userId = S) t).map (·.inviteCodeId) ↔
      at? t S c ≠ none := by
    intro c
    rw [Ne, at?_eq_none_iff]
    simp [findMany, holder, slot, and_assoc]
  simp only [redemptionPlan, hcodes, RedemptionPlan.mk.injEq, not_not]
  constructor
  · unfold redemptionLosers findMany
    rw [List.filter_filter]
    simp only [Bool.and_comm, Bool.decide_and]
    refine List.map_congr_left fun d hd => ?_
    have hdD : d.userId = D := by
      have := (List.mem_filter.mp hd).2
      simp only [Bool.and_eq_true, decide_eq_true_eq] at this
      exact this.1
    simp [deletedRedemption, hdD]
  · simp [redemptionMoved, findMany, List.filter_filter, Bool.and_comm]

theorem mem_redemptionMoved (h : Consistent t) {r : InviteRedemption} (hr : r ∈ t) :
    r.id ∈ redemptionMoved S D t ↔ r.userId = D ∧ at? t S r.inviteCodeId = none :=
  (h.key_mem_findMany hr).trans decide_eq_true_iff

theorem consistent_resolved_redemption (h : Consistent t) :
    Consistent (resolved ((redemptionLosers S D t).map (·.id)) (redemptionMoved S D t) S t) := by
  refine h.deleteMany.handOver (d := D) (fun r hr hmv => ?_) ?_
  · exact ((mem_redemptionMoved h (mem_deleteMany.mp hr).1).mp (of_decide_eq_true hmv)).1
  · rintro a ha b hb hpa hpb ⟨hbS, hba⟩
    obtain ⟨-, hnone⟩ :=
      (mem_redemptionMoved h (mem_deleteMany.mp ha).1).mp (of_decide_eq_true hpa)
    exact at?_eq_none_iff.mp hnone b (mem_deleteMany.mp hb).1 hbS hba

theorem mergeRedemptions_eq_ok (h : Consistent t) :
    mergeRedemptions S D t =
      .ok (resolved ((redemptionLosers S D t).map (·.id)) (redemptionMoved S D t) S t) := by
  simp only [mergeRedemptions, redemptionPlan_eq, List.map_map]
  exact updateMany_eq_ok_iff.mpr ⟨consistent_resolved_redemption h, rfl⟩

end InviteRedemption

/-! ### The whole transaction -/

/-- The accounts with the donor tombstoned and the survivor's ban flag set. -/
def mergedUsers (S D : UserId) (now : Timestamp) (isBanned : Bool) (t : List User) : List User :=
  mapWhere (fun u => u.id = D) (tombstoned S now)
    (mapWhere (fun u => u.id = S) (withBan isBanned) t)

/-- The overrides a merge writes for clients only the donor used. -/
def createdOverrides (S : UserId) (subs : List SubAtClient) (db : Db) : List SubjectOverride :=
  (seamInputs (survivorUsedClients S db) subs).overridesCreated.map
    fun ov => ⟨S, ov.clientId, ov.sub⟩

/-- The database after a committed merge transaction. -/
def mergedDb (survivor donor : User) (now : Timestamp) (recordId : String)
    (subs : List SubAtClient) (db : Db) : Db :=
  let S := survivor.id
  let D := donor.id
  { db with
    user := mergedUsers S D now (survivor.isBanned || donor.isBanned) db.user
    account := repoint D S db.account
    session := repoint D S db.session
    authenticator := repoint D S db.authenticator
    badge := repoint D S db.badge
    eligibility := resolved ((eligibilityLosers S D db.eligibility).map (·.id))
      (eligibilityMoved S D db.eligibility) S db.eligibility
    shareLink := repoint D S db.shareLink
    oidcAccessToken := repoint D S db.oidcAccessToken
    wizardSession := repoint D S db.wizardSession
    auditLog := repoint D S db.auditLog
    userEmail := mapWhere (fun e => e.id ∈ demotedPrimaryEmailIds D db.userEmail)
      (fun e => { e with isPrimary := false }) (repoint D S db.userEmail)
    recoveryCode := repoint D S db.recoveryCode
    recoveryAttempt := repoint D S db.recoveryAttempt
    subjectOverride := movedOverrides S D db.subjectOverride ++ createdOverrides S subs db
    inviteRedemption := resolved ((redemptionLosers S D db.inviteRedemption).map (·.id))
      (redemptionMoved S D db.inviteRedemption) S db.inviteRedemption
    oidcClient := repoint D S db.oidcClient
    oidcGrant := mergedGrants S D db.oidcGrant
    oidcAuthorizationCode := deleteMany (fun c => c.userId = D) db.oidcAuthorizationCode
    mergeRecord := db.mergeRecord ++
      [newMergeRecord recordId now (mergeSnapshot survivor donor now subs db)] }

/-- When a merge transaction commits. -/
structure MergeReady (S D : UserId) (recordId : String) (subs : List SubAtClient)
    (survivor donor : User) (db : Db) : Prop where
  survivor_found : findUser S db.user = some survivor
  donor_found : findUser D db.user = some donor
  untombstoned : donor.mergedIntoUserId = none
  undrifted : ¬tokenClientsDrifted (tokenClients D db.oidcAccessToken) (subs.map (·.clientId))
  overrides : Consistent (movedOverrides S D db.subjectOverride ++ createdOverrides S subs db)
  recordId_fresh : ∀ m ∈ db.mergeRecord, m.id ≠ recordId

theorem MergeReady.ids {S D : UserId} {recordId : String} {subs : List SubAtClient}
    {survivor donor : User} {db : Db} (h : MergeReady S D recordId subs survivor donor db) :
    survivor.id = S ∧ donor.id = D :=
  ⟨findUser_id h.survivor_found, findUser_id h.donor_found⟩

theorem update_user_eq_ok {t : List User} {userId : UserId} {f : User → User}
    (h : Consistent t) (hex : ∃ u ∈ t, u.id = userId) (hf : ∀ a b, clash (f a) b = clash a b) :
    update (fun u => u.id = userId) f t = .ok (mapWhere (fun u => u.id = userId) f t) ∧
      Consistent (mapWhere (fun u => u.id = userId) f t) := by
  have hcons := h.mapWhere_of_clash (fun u => decide (u.id = userId)) hf
  refine ⟨update_eq_ok_iff.mpr ⟨?_, hcons, rfl⟩, hcons⟩
  simpa using hex

variable {db db' : Db} {survivor donor : User} {now : Timestamp} {recordId : String}
  {subs : List SubAtClient} {result : MergeTxResult} {pairwise : UserId → ClientId → String}
  {inputs : MergeInputs}

theorem mergeChecks_eq_ok_iff :
    mergeChecks S D subs db = .ok (survivor, donor) ↔
      findUser S db.user = some survivor ∧ findUser D db.user = some donor ∧
        donor.mergedIntoUserId = none ∧
        ¬tokenClientsDrifted (tokenClients D db.oidcAccessToken) (subs.map (·.clientId)) := by
  unfold mergeChecks
  cases hS : findUser S db.user with
  | none => simp [throw, throwThe, MonadExceptOf.throw]
  | some s =>
  cases hD : findUser D db.user with
  | none => simp [throw, throwThe, MonadExceptOf.throw]
  | some d =>
  by_cases hlive : d.mergedIntoUserId = none
  · by_cases hdrift : tokenClientsDrifted (tokenClients D db.oidcAccessToken)
        (subs.map (·.clientId))
    · simp [hlive, hdrift, throw, throwThe, MonadExceptOf.throw, bind, Except.bind]
    · simp only [hlive, hdrift, ne_eq, not_true_eq_false, if_false, pure, Except.pure,
        Except.ok.injEq, Prod.mk.injEq, Option.some.injEq, not_false_eq_true, and_true]
      exact ⟨fun ⟨h, h'⟩ => ⟨h, h', h' ▸ hlive⟩, fun ⟨h, h', _⟩ => ⟨h, h'⟩⟩
  · simp only [Option.some.injEq, hlive, throw, throwThe, MonadExceptOf.throw, bind, Except.bind,
      ne_eq, not_false_eq_true, if_true, reduceCtorEq, false_iff]
    rintro ⟨-, rfl, hnone, -⟩
    exact hlive hnone

/-- Past the checks only the inserts of overrides and of the record can fail. -/
theorem runMergeTx_of_checks (hdb : db.Consistent) (hne : survivor.id ≠ donor.id)
    (hchecks : mergeChecks survivor.id donor.id subs db = .ok (survivor, donor)) :
    runMergeTx survivor.id donor.id now recordId subs db = (do
      let subjectOverride ← stmt (creates (createdOverrides survivor.id subs db)
        (movedOverrides survivor.id donor.id db.subjectOverride))
      let mergeRecord ← stmt (create (newMergeRecord recordId now
        (mergeSnapshot survivor donor now subs db)) db.mergeRecord)
      return ({ mergedDb survivor donor now recordId subs db with subjectOverride, mergeRecord },
        mergeTxResult recordId (mergeSnapshot survivor donor now subs db)
          (findMany (fun c => c.userId = donor.id) db.oidcAuthorizationCode).length
          donor.dedupHandle)) := by
  obtain ⟨hS, hD, -, -⟩ := mergeChecks_eq_ok_iff.mp hchecks
  obtain ⟨huser, huser'⟩ := update_user_eq_ok
    (f := withBan (survivor.isBanned || donor.isBanned)) hdb.user
    ⟨survivor, mem_of_findUser hS, rfl⟩ fun _ _ => rfl
  have hdonor : ∃ u ∈ mapWhere (fun u => u.id = survivor.id)
      (withBan (survivor.isBanned || donor.isBanned)) db.user, u.id = donor.id := by
    refine ⟨donor, mem_mapWhere.mpr ⟨donor, mem_of_findUser hD, ?_⟩, rfl⟩
    simp [hne.symm]
  obtain ⟨hdead, -⟩ := update_user_eq_ok (f := tombstoned survivor.id now) huser' hdonor
    fun _ _ => rfl
  have hemail : updateMany
      (fun e => e.id ∈ (mergeSnapshot survivor donor now subs db).demotedPrimaryEmailIds)
      (fun e => { e with isPrimary := false }) (repoint donor.id survivor.id db.userEmail) =
      .ok (mergedDb survivor donor now recordId subs db).userEmail :=
    store_eq_ok ((hdb.userEmail.repoint _ _).mapWhere_of_clash _ fun _ _ => rfl)
  unfold runMergeTx
  simp only [hchecks,
    mergeEligibilities_eq_ok hdb.eligibility hne, mergeRedemptions_eq_ok hdb.inviteRedemption,
    store_eq_ok (hdb.account.repoint _ _), store_eq_ok (hdb.session.repoint _ _),
    store_eq_ok (hdb.authenticator.repoint _ _), store_eq_ok (hdb.badge.repoint _ _),
    store_eq_ok (hdb.shareLink.repoint _ _), store_eq_ok (hdb.oidcAccessToken.repoint _ _),
    store_eq_ok (hdb.wizardSession.repoint _ _), store_eq_ok (hdb.auditLog.repoint _ _),
    store_eq_ok (hdb.userEmail.repoint _ _), store_eq_ok (hdb.recoveryCode.repoint _ _),
    store_eq_ok (hdb.recoveryAttempt.repoint _ _), store_eq_ok (hdb.oidcClient.repoint _ _),
    moveOverrides_eq_ok hdb.subjectOverride hne, (mergeGrants_eq_ok hdb.oidcGrant hne).1,
    hemail, huser, hdead, stmt_ok, ok_bind]
  rfl

theorem consistent_append_newMergeRecord {t : List MergeRecord} (h : Consistent t)
    {snapshot : MergeSnapshot} :
    Consistent (t ++ [newMergeRecord recordId now snapshot]) ↔ ∀ m ∈ t, m.id ≠ recordId := by
  rw [consistent_append_singleton]
  simp [h, clash, newMergeRecord]

/-- A merge transaction commits exactly when it is ready, and then leaves `mergedDb`. -/
theorem runMergeTx_eq_ok_iff (hdb : db.Consistent) (hne : S ≠ D) {out : Db × MergeTxResult} :
    runMergeTx S D now recordId subs db = .ok out ↔
      ∃ survivor donor, MergeReady S D recordId subs survivor donor db ∧
        out = (mergedDb survivor donor now recordId subs db,
          mergeTxResult recordId (mergeSnapshot survivor donor now subs db)
            (findMany (fun c => c.userId = D) db.oidcAuthorizationCode).length
            donor.dedupHandle) := by
  constructor
  · intro h
    obtain ⟨⟨survivor, donor⟩, hchecks, -⟩ := bind_eq_ok_iff.mp h
    obtain ⟨hS, hD, hlive, hdrift⟩ := mergeChecks_eq_ok_iff.mp hchecks
    obtain rfl := findUser_id hS
    obtain rfl := findUser_id hD
    rw [runMergeTx_of_checks hdb hne hchecks] at h
    simp only [bind_eq_ok_iff, stmt_eq_ok_iff,
      creates_eq_ok_iff (consistent_movedOverrides hdb.subjectOverride), create_eq_ok_iff] at h
    obtain ⟨_, ⟨hov, rfl⟩, _, ⟨hrec, rfl⟩, hout⟩ := h
    refine ⟨survivor, donor, ⟨hS, hD, hlive, hdrift, hov, ?_⟩, ?_⟩
    · exact (consistent_append_newMergeRecord hdb.mergeRecord).mp hrec
    · cases hout
      rfl
  · rintro ⟨survivor, donor, hready, rfl⟩
    obtain ⟨rfl, rfl⟩ := hready.ids
    have hchecks := mergeChecks_eq_ok_iff.mpr
      ⟨hready.survivor_found, hready.donor_found, hready.untombstoned, hready.undrifted⟩
    rw [runMergeTx_of_checks hdb hne hchecks, creates_eq_ok hready.overrides, create,
      store_eq_ok ((consistent_append_newMergeRecord hdb.mergeRecord).mpr hready.recordId_fresh)]
    rfl

/-- A merge keeps every unique constraint. -/
theorem consistent_mergedDb (now : Timestamp) (hdb : db.Consistent) (hne : S ≠ D)
    (hready : MergeReady S D recordId subs survivor donor db) :
    (mergedDb survivor donor now recordId subs db).Consistent := by
  obtain ⟨rfl, rfl⟩ := hready.ids
  exact {
    user := (hdb.user.mapWhere_of_clash (f := withBan _) _ fun _ _ => rfl).mapWhere_of_clash
      (f := tombstoned _ _) _ fun _ _ => rfl
    account := hdb.account.repoint _ _
    session := hdb.session.repoint _ _
    authenticator := hdb.authenticator.repoint _ _
    badge := hdb.badge.repoint _ _
    eligibility := consistent_resolved_eligibility hdb.eligibility
    shareLink := hdb.shareLink.repoint _ _
    oidcAccessToken := hdb.oidcAccessToken.repoint _ _
    wizardSession := hdb.wizardSession.repoint _ _
    auditLog := hdb.auditLog.repoint _ _
    userEmail := (hdb.userEmail.repoint _ _).mapWhere_of_clash _ fun _ _ => rfl
    recoveryCode := hdb.recoveryCode.repoint _ _
    recoveryAttempt := hdb.recoveryAttempt.repoint _ _
    subjectOverride := hready.overrides
    inviteRedemption := consistent_resolved_redemption hdb.inviteRedemption
    oidcClient := hdb.oidcClient.repoint _ _
    oidcGrant := (mergeGrants_eq_ok hdb.oidcGrant hne).2
    mergeRecord := (consistent_append_newMergeRecord hdb.mergeRecord).mpr hready.recordId_fresh
    nullifierEntry := hdb.nullifierEntry }

/-! ### What the snapshot records -/

section Snapshot

variable {db : Db} {survivor donor : User} (now : Timestamp) (subs : List SubAtClient)

theorem mergeSnapshot_redemption (survivor donor : User) (db : Db) :
    (mergeSnapshot survivor donor now subs db).moved.inviteRedemption =
        redemptionMoved survivor.id donor.id db.inviteRedemption ∧
      (mergeSnapshot survivor donor now subs db).inviteRedemptionDeleted =
        (redemptionLosers survivor.id donor.id db.inviteRedemption).map deletedRedemption :=
  ⟨congrArg RedemptionPlan.toMove redemptionPlan_eq,
    congrArg RedemptionPlan.deleted redemptionPlan_eq⟩

theorem mergeSnapshot_eligibility (hdb : db.Consistent) (hne : survivor.id ≠ donor.id) :
    (mergeSnapshot survivor donor now subs db).moved.eligibility =
        eligibilityMoved survivor.id donor.id db.eligibility ∧
      (mergeSnapshot survivor donor now subs db).eligibilityDeleted =
        (eligibilityLosers survivor.id donor.id db.eligibility).map deletedEligibility :=
  ⟨congrArg EligibilityPlan.toMove (eligibilityPlan_eq hdb.eligibility hne),
    congrArg EligibilityPlan.deleted (eligibilityPlan_eq hdb.eligibility hne)⟩

/-- An override is only created at a client where the survivor has none. -/
theorem not_mem_overrideClients_of_created (donor : User) {ov : SubAtClient}
    (h : ov ∈ (mergeSnapshot survivor donor now subs db).overridesCreated) :
    ov.clientId ∉ overrideClients survivor.id db.subjectOverride := by
  have hunused := (mem_findMany.mp h).2
  simp only [survivorUsedClients, List.mem_append, not_or, decide_eq_true_eq] at hunused
  exact hunused.2

end Snapshot

/-- The rows of single tables after a committed merge, whatever the others hold. -/
theorem runMergeTx_rows (h : runMergeTx S D now recordId subs db = .ok (db', result)) :
    ∃ survivor donor, findUser S db.user = some survivor ∧ findUser D db.user = some donor ∧
      db'.user = mergedUsers S D now (survivor.isBanned || donor.isBanned) db.user ∧
      Consistent db'.user ∧ db'.badge = repoint D S db.badge ∧ Consistent db'.badge ∧
      db'.nullifierEntry = db.nullifierEntry ∧
      db'.mergeRecord = db.mergeRecord ++
        [newMergeRecord recordId now (mergeSnapshot survivor donor now subs db)] ∧
      result.entryRefs = dedupReassigned donor.id db.badge ∧
      result.donorHandle = donor.dedupHandle ∧ db'.oidcClient = repoint D S db.oidcClient ∧
      db'.oidcAuthorizationCode = deleteMany (fun c => c.userId = D) db.oidcAuthorizationCode ∧
      db'.oidcAccessToken = repoint D S db.oidcAccessToken := by
  simp only [runMergeTx, bind_eq_ok_iff, stmt_eq_ok_iff] at h
  obtain ⟨⟨survivor, donor⟩, hchecks, _, -, _, -, _, -, _, -, _, -, _, hbadge, _, -, _, htoken,
    _, -, _, -, _, -, _, -, _, -, _, -, _, hclient, _, -, _, -, _, -, _, hban, _, huser,
    _, hrecord, hout⟩ := h
  obtain ⟨hS, hD, -, -⟩ := mergeChecks_eq_ok_iff.mp hchecks
  cases hout
  obtain ⟨-, -, rfl⟩ := update_eq_ok_iff.mp hban
  obtain ⟨-, hcons, rfl⟩ := update_eq_ok_iff.mp huser
  obtain ⟨hbcons, rfl⟩ := store_eq_ok_iff.mp hbadge
  obtain ⟨-, rfl⟩ := create_eq_ok_iff.mp hrecord
  obtain ⟨-, rfl⟩ := store_eq_ok_iff.mp htoken
  obtain ⟨-, rfl⟩ := store_eq_ok_iff.mp hclient
  exact ⟨survivor, donor, hS, hD, rfl, hcons, rfl, hbcons, rfl, rfl, rfl, rfl, rfl, rfl, rfl⟩

/-! ### `mergeAccounts` -/

/-- What `mergeAccounts` leaves: the committed transaction and the ledger step. -/
theorem mergeAccounts_eq_ok_iff (hdb : db.Consistent) {out : Db × MergeSummary} :
    mergeAccounts pairwise inputs S D db = .ok out ↔
      S ≠ D ∧ ∃ survivor donor,
        MergeReady S D inputs.recordId (precomputeSubs pairwise D db) survivor donor db ∧
        ∃ result, result = mergeTxResult inputs.recordId
            (mergeSnapshot survivor donor inputs.now (precomputeSubs pairwise D db) db)
            (findMany (fun c => c.userId = D) db.oidcAuthorizationCode).length
            donor.dedupHandle ∧
          out = (runPostCommit (reassignOnMerge S inputs.handleCandidate result)
              (mergedDb survivor donor inputs.now inputs.recordId
                (precomputeSubs pairwise D db) db), result.summary) := by
  unfold mergeAccounts
  by_cases hne : S = D
  · simp [hne, throw, throwThe, MonadExceptOf.throw, bind, Except.bind]
  · simp only [hne, if_false, ne_eq, not_false_eq_true, true_and]
    constructor
    · intro h
      obtain ⟨⟨db', result⟩, htx, hout⟩ := bind_eq_ok_iff.mp h
      obtain ⟨survivor, donor, hready, heq⟩ := (runMergeTx_eq_ok_iff hdb hne).mp htx
      cases heq
      cases hout
      exact ⟨survivor, donor, hready, _, rfl, rfl⟩
    · rintro ⟨survivor, donor, hready, result, rfl, rfl⟩
      exact bind_eq_ok_iff.mpr
        ⟨_, (runMergeTx_eq_ok_iff hdb hne).mpr ⟨survivor, donor, hready, rfl⟩, rfl⟩

/-- The database a merge leaves once handles have been minted and the ledger
re-tagged. -/
def settledDb (survivor donor : User) (now : Timestamp) (recordId : String)
    (subs : List SubAtClient) (p : User → Bool) (candidate : String)
    (entries : List NullifierEntry) (db : Db) : Db :=
  let merged := mergedDb survivor donor now recordId subs db
  { merged with
    user := merged.user.map (claimHandle p candidate)
    nullifierEntry := entries }

/-- The ledger step mints at most the survivor's handle and touches nothing else
outside the ledger. -/
theorem runPostCommit_reassignOnMerge_frame (S : UserId) (candidate : String)
    (result : MergeTxResult) (db : Db) :
    ∃ p entries, (∀ u, p u = true → isUnclaimed S u = true) ∧
      runPostCommit (reassignOnMerge S candidate result) db =
        { db with user := db.user.map (claimHandle p candidate), nullifierEntry := entries } ∧
      (Consistent db.user → Consistent (db.user.map (claimHandle p candidate))) ∧
      (Consistent db.nullifierEntry → Consistent entries) := by
  have hskip : ∃ p entries, (∀ u, p u = true → isUnclaimed S u = true) ∧
      db = { db with user := db.user.map (claimHandle p candidate), nullifierEntry := entries } ∧
      (Consistent db.user → Consistent (db.user.map (claimHandle p candidate))) ∧
      (Consistent db.nullifierEntry → Consistent entries) := by
    have hid : db.user.map (claimHandle (fun _ => false) candidate) = db.user := List.map_id _
    refine ⟨fun _ => false, db.nullifierEntry, by simp, ?_, ?_, id⟩
    · rw [hid]
    · rw [hid]
      exact id
  unfold runPostCommit reassignOnMerge
  cases hd : result.donorHandle with
  | none => exact hskip
  | some donorHandle =>
    by_cases hrefs : result.entryRefs.length = 0
    · simp only [hrefs, if_true]
      exact hskip
    · cases hens : ensureDedupHandle S candidate db.user with
      | error err =>
        simp only [hrefs, if_false, bind, Except.bind]
        exact hskip
      | ok out =>
        obtain ⟨p, hp, huser, hcons⟩ := ensureDedupHandle_frame hens
        refine ⟨p, (reassignOwner result.entryRefs donorHandle out.2 db.nullifierEntry).1, hp,
          ?_, ?_, ?_⟩
        · simp only [hrefs, if_false, ok_bind]
          rw [← huser]
          rfl
        · rw [← huser]
          exact hcons
        · exact fun hentries => consistent_reassignOwner hentries _ _ _

/-- A committed merge leaves a consistent, settled database. -/
theorem settledDb_of_mergeAccounts {db db' : Db} (hdb : db.Consistent)
    {pairwise : UserId → ClientId → String} {inputs : MergeInputs} {summary : MergeSummary}
    (h : mergeAccounts pairwise inputs S D db = .ok (db', summary)) :
    S ≠ D ∧ ∃ survivor donor p entries,
      MergeReady S D inputs.recordId (precomputeSubs pairwise D db) survivor donor db ∧
      (∀ u, p u = true → isUnclaimed S u = true) ∧
      db' = settledDb survivor donor inputs.now inputs.recordId (precomputeSubs pairwise D db) p
        inputs.handleCandidate entries db ∧
      db'.Consistent := by
  obtain ⟨hne, survivor, donor, hready, result, -, hout⟩ := (mergeAccounts_eq_ok_iff hdb).mp h
  obtain ⟨p, entries, hp, hpost, huser, hentries⟩ := runPostCommit_reassignOnMerge_frame S
    inputs.handleCandidate result (mergedDb survivor donor inputs.now inputs.recordId
      (precomputeSubs pairwise D db) db)
  have hM := consistent_mergedDb inputs.now hdb hne hready
  obtain ⟨rfl, -⟩ := Prod.mk.inj hout
  rw [hpost]
  exact ⟨hne, survivor, donor, p, entries, hready, hp, rfl,
    { hM with user := huser hM.user, nullifierEntry := hentries hM.nullifierEntry }⟩

end Minister
