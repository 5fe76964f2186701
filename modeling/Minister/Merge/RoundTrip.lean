import Minister.Merge.ReverseEffect

/-!
# A reversal undoes its merge

Reversing a merge straight after it commits succeeds, and gives back every table
the merge rewrote. The tables come first, one lemma each; the accounts and the
ledger follow, and `Restored` collects what "given back" means.

The ledger is the exception. The merge re-tags the donor's entries that are owned
by the donor's handle, but the reversal re-tags every entry a donor badge refers
to that is owned by the survivor's handle, whether the merge had moved it or not.
-/

namespace Minister

open Relational

variable {S D : UserId}

/-! ### Tables -/

/-- Authenticators move back by `credentialID`, guarded on the survivor. -/
theorem authenticator_restored {t : List Authenticator} (h : Consistent t) :
    mapWhere (fun a => a.userId = S ∧
        a.credentialID ∈ ((keysOf D t).map fun c => (D, c)).map (·.2)) (setHolder D)
      (repoint D S t) = t := by
  have hkeys : ((keysOf D t).map fun c => (D, c)).map (·.2) = keysOf D t := by
    simp [Function.comp_def]
  rw [hkeys]
  refine Eq.trans (mapWhere_congr (q := fun a => key a ∈ keysOf D t) (g := setOwner D) ?_)
    (moveBack_repoint (s := S) h)
  intro a ha
  obtain ⟨a₀, ha₀, rfl⟩ := mem_mapWhere.mp ha
  -- The keys of the donor select exactly the rows that moved.
  have hkey := h.key_mem_keysOf (d := D) ha₀
  by_cases hD : a₀.userId = D
  · have hmem : a₀.credentialID ∈ keysOf D t := hkey.mpr (congrArg some hD)
    simp [owner, setOwner, key, hD, hmem, setHolder]
  · have hmem : a₀.credentialID ∉ keysOf D t := fun hk => hD (Option.some_inj.mp (hkey.mp hk))
    simp [owner, key, hD, hmem]

/-- Emails return to the donor with their primary flags. -/
theorem userEmail_restored {t : List UserEmail} (h : Consistent t) :
    mapWhere (fun e => e.id ∈ demotedPrimaryEmailIds D t) (fun e => { e with isPrimary := true })
      (moveBack (keysOf D t) D
        (mapWhere (fun e => e.id ∈ demotedPrimaryEmailIds D t)
          (fun e => { e with isPrimary := false }) (repoint D S t))) = t := by
  unfold moveBack repoint mapWhere
  simp only [List.map_map]
  conv_rhs => rw [← List.map_id t]
  refine List.map_congr_left fun e he => ?_
  have hkey : e.id ∈ keysOf D t ↔ e.userId = D :=
    (h.key_mem_keysOf (d := D) he).trans Option.some_inj
  have hdem : e.id ∈ demotedPrimaryEmailIds D t ↔ e.userId = D ∧ e.isPrimary = true :=
    (h.key_mem_findMany he).trans decide_eq_true_iff
  obtain ⟨id, userId, email, verifiedAt, isPrimary⟩ := e
  by_cases hD : userId = D
  · cases isPrimary <;> simp_all [owner, setOwner, key]
  · simp_all [owner, key]

/-- Moving rows back and inserting the losers again restores a table with
collisions, up to the order of its rows. -/
theorem resolved_restored {R : Type} [Owned R UserId String] {t : List R} (losers : List R)
    (moved : List String) (h : Consistent t) (hlosers : ∀ r ∈ losers, r ∈ t)
    (hnd : losers.Nodup) (hmoved : ∀ r ∈ t, key r ∈ moved → owner r = some D) :
    ∃ t₁ t₂, store (moveBack moved D (resolved (losers.map key) moved S t)) = .ok t₁ ∧
      creates losers t₁ = .ok t₂ ∧ t₂.Perm t := by
  have hperm := h.deleteMany_append_perm hlosers hnd
  have hback : moveBack moved D (resolved (losers.map key) moved S t) =
      deleteMany (fun r => key r ∈ losers.map key) t :=
    moveBack_mapWhere fun r hr => hmoved r (mem_deleteMany.mp hr).1
  rw [hback]
  exact ⟨_, _, store_eq_ok h.deleteMany, creates_eq_ok (h.perm hperm.symm), hperm⟩

theorem mem_of_mem_eligibilityLosers {t : List Eligibility} {e : Eligibility}
    (h : Consistent t) (he : e ∈ eligibilityLosers S D t) : e ∈ t := by
  obtain ⟨d, hd, hloser⟩ := List.mem_filterMap.mp he
  obtain ⟨s, hs, rfl⟩ := Option.map_eq_some_iff.mp hloser
  split_ifs
  · exact ((at?_eq_some_iff h).mp hs).1
  · exact (mem_findMany.mp hd).1

/-- Losers are of distinct badge types: one per type of the donor's. -/
theorem nodup_eligibilityLosers {t : List Eligibility} (h : Consistent t) :
    (eligibilityLosers S D t).Nodup := by
  have hslot : ∀ d e, eligibilityLoserRow S t d = some e → e.badgeType = d.badgeType := by
    intro d e he
    obtain ⟨s, hs, rfl⟩ := Option.map_eq_some_iff.mp he
    split_ifs
    · exact ((at?_eq_some_iff h).mp hs).2.2
    · rfl
  have hdonor := h.nodup_slots D
  refine List.Nodup.of_map (fun e => e.badgeType) ?_
  rw [List.Nodup, List.pairwise_map] at hdonor ⊢
  refine List.Pairwise.filterMap _ ?_ hdonor
  intro a b hab a' ha' b' hb' heq
  exact hab (((hslot a a' ha').symm.trans heq).trans (hslot b b' hb'))

theorem mem_of_mem_redemptionLosers {t : List InviteRedemption} {r : InviteRedemption}
    (hr : r ∈ redemptionLosers S D t) : r ∈ t :=
  (mem_findMany.mp hr).1

section SubjectOverride

variable {t : List SubjectOverride} {created : List SubAtClient}

/-- The clients whose overrides the snapshot records as moved. -/
def movedClients (S D : UserId) (t : List SubjectOverride) : List ClientId :=
  (overrideClients D t).filter fun c => c ∉ overrideClients S t

theorem mem_movedClients {c : ClientId} :
    c ∈ movedClients S D t ↔ at? t D c ≠ none ∧ at? t S c = none := by
  simp [movedClients, mem_overrideClients]

theorem movedOverrides_eq :
    movedOverrides S D t = handOver D S (movedClients S D t) t := by
  refine mapWhere_congr fun o ho => ?_
  have hiff : (o.userId = D ∧ o.clientId ∉ overrideClients S t) ↔
      holder o = D ∧ slot o ∈ movedClients S D t := by
    refine and_congr_right fun hD => ?_
    have hown : at? t D o.clientId ≠ none := fun hnone => at?_eq_none_iff.mp hnone o ho hD rfl
    rw [mem_movedClients, mem_overrideClients, not_not]
    exact (and_iff_right hown).symm
  simp only [hiff]

/-- Handing the moved overrides back undoes `movedOverrides`. -/
theorem handOver_movedOverrides :
    handOver S D (movedClients S D t) (movedOverrides S D t) = t := by
  unfold movedOverrides handOver
  rw [mapWhere_mapWhere]
  conv_rhs => rw [← List.map_id t]
  refine List.map_congr_left fun o ho => ?_
  by_cases hp : o.userId = D ∧ o.clientId ∉ overrideClients S t
  · have hown : o.clientId ∈ overrideClients D t :=
      mem_overrideClients.mpr fun hn => at?_eq_none_iff.mp hn o ho hp.1 rfl
    have hmoved : slot (setHolder S o) ∈ movedClients S D t := by
      simpa [movedClients, slot, setHolder] using ⟨hown, hp.2⟩
    simp only [hp, not_false_eq_true, and_self, decide_true, if_true, Slotted.holder_setHolder,
      hmoved, Slotted.setHolder_setHolder, id_eq]
    simp [setHolder, ← hp.1]
  · have hno : ¬(holder o = S ∧ slot o ∈ movedClients S D t) := by
      rintro ⟨hS, hc⟩
      exact at?_eq_none_iff.mp (mem_movedClients.mp hc).2 o ho hS rfl
    simp [hp, hno]

/-- Overrides come back in two steps: the moved ones by key, then the ones the
merge created are removed. -/
theorem subjectOverride_restored (h : Consistent t) (hne : S ≠ D)
    (hcons : Consistent (movedOverrides S D t ++ created.map fun ov => ⟨S, ov.clientId, ov.sub⟩))
    (hunused : ∀ ov ∈ created, ov.clientId ∉ overrideClients S t) :
    ∃ t₁, moveOverridesBack S D (movedClients S D t)
        (movedOverrides S D t ++ created.map fun ov => ⟨S, ov.clientId, ov.sub⟩) = .ok t₁ ∧
      deleteCreatedOverrides S created t₁ = t := by
  have hfree : ∀ c ∈ movedClients S D t,
      at? (movedOverrides S D t ++ created.map fun ov => ⟨S, ov.clientId, ov.sub⟩) D c = none := by
    intro c hc
    rw [at?_append, movedOverrides_eq, at?_handOver_self hne.symm hc, Option.none_or,
      at?_eq_none_iff]
    intro o ho hD
    obtain ⟨ov, -, rfl⟩ := List.mem_map.mp ho
    exact absurd hD hne
  refine ⟨_, moveSlots_eq_ok hne hcons fun c hc => .inr (hfree c hc), ?_⟩
  -- A created override at a moved client would clash with the moved one.
  have hcreated : handOver S D (movedClients S D t)
      (created.map fun ov => (⟨S, ov.clientId, ov.sub⟩ : SubjectOverride)) =
      created.map fun ov => ⟨S, ov.clientId, ov.sub⟩ := by
    refine mapWhere_eq_self fun o ho hin => ?_
    obtain ⟨-, hc⟩ := of_decide_eq_true hin
    obtain ⟨hDc, hSc⟩ := mem_movedClients.mp hc
    obtain ⟨d, hd⟩ := Option.ne_none_iff_exists'.mp hDc
    obtain ⟨hdt, hdD, hdc⟩ := (at?_eq_some_iff h).mp hd
    have hmoved : setHolder S d ∈ movedOverrides S D t := by
      refine mem_mapWhere.mpr ⟨d, hdt, if_pos ?_⟩
      refine decide_eq_true ⟨hdD, fun hmem => mem_overrideClients.mp hmem ?_⟩
      rwa [show d.clientId = slot o from hdc]
    obtain ⟨ov, -, rfl⟩ := List.mem_map.mp ho
    have hclash := (List.pairwise_append.mp hcons).2.2 _ hmoved _ ho
    rw [Slotted.clash_of_slot _ _ (by simp [holder, setHolder])
      (by simpa [slot, setHolder] using hdc)] at hclash
    exact Bool.noConfusion hclash
  rw [handOver_append, handOver_movedOverrides, hcreated, deleteCreatedOverrides_eq]
  unfold deleteMany
  rw [List.filter_append, List.filter_eq_self.mpr, List.filter_eq_nil_iff.mpr, List.append_nil]
  · intro o ho
    obtain ⟨ov, hov, rfl⟩ := List.mem_map.mp ho
    simp [hov]
  · intro o ho
    have hno : ¬(o.userId = S ∧ ⟨o.clientId, o.sub⟩ ∈ created) := by
      rintro ⟨hS, hov⟩
      refine hunused _ hov (mem_overrideClients.mpr fun hn => ?_)
      exact at?_eq_none_iff.mp hn o ho hS rfl
    simp only [Bool.not_eq_true', decide_eq_false_iff_not]
    exact hno

end SubjectOverride

section OidcGrant

variable {t : List OidcGrant}

/-- A donor grant at a client where the survivor has one too. -/
def grantCollides (S D : UserId) (t : List OidcGrant) (g : OidcGrant) : Bool :=
  g.userId = D ∧ at? t S g.clientId ≠ none

/-- The survivor's grant at a client, as the plan looks it up. -/
theorem find?_survivorGrants (c : ClientId) :
    (findMany (fun g => g.userId = S) t).find? (fun g => g.clientId = c) = at? t S c :=
  find?_findMany_holder

theorem mem_grantPlan_moved {c : ClientId} :
    c ∈ (grantPlan S D t).moved ↔ at? t D c ≠ none ∧ at? t S c = none := by
  rw [Ne, at?_eq_none_iff]
  simp only [grantPlan, find?_survivorGrants, List.mem_map, mem_findMany, Option.isNone_iff_eq_none,
    decide_eq_true_eq]
  constructor
  · rintro ⟨d, ⟨⟨hd, hdD⟩, hnone⟩, rfl⟩
    exact ⟨fun hno => hno d hd hdD rfl, hnone⟩
  · rintro ⟨hD, hnone⟩
    push Not at hD
    obtain ⟨d, hd, hdD, hdc⟩ := hD
    exact ⟨d, ⟨⟨hd, hdD⟩, by rwa [show d.clientId = c from hdc]⟩, hdc⟩

theorem mem_grantPlan_merged {mg : OidcGrantMerged} :
    mg ∈ (grantPlan S D t).merged ↔ ∃ dg ∈ t, dg.userId = D ∧ ∃ sg,
      at? t S dg.clientId = some sg ∧ mg = ⟨dg.clientId, sg.fields, dg.id, dg.fields⟩ := by
  simp only [grantPlan, find?_survivorGrants, List.mem_filterMap, mem_findMany, decide_eq_true_eq,
    Option.map_eq_some_iff, and_assoc]
  exact exists_congr fun dg => and_congr_right fun _ => and_congr_right fun _ =>
    exists_congr fun sg => and_congr_right fun _ => eq_comm

/-- The rows recreated for the donor are the ones the merge deleted. -/
theorem grantPlan_merged_donorGrant :
    (grantPlan S D t).merged.map (donorGrant D) = findMany (grantCollides S D t) t := by
  simp only [grantPlan, find?_survivorGrants]
  unfold findMany
  rw [List.map_filterMap, List.filterMap_filter, ← List.filterMap_eq_filter]
  refine List.filterMap_congr fun g _ => ?_
  by_cases hD : g.userId = D
  · subst hD
    cases hs : at? t S g.clientId with
    | none => simp [Option.guard, grantCollides, hs]
    | some sg => simp [Option.guard, grantCollides, hs, donorGrant]
  · simp [Option.guard, grantCollides, hD]

/-- One row through the loop that puts fields back. -/
def restoreGrantRow (S : UserId) (merged : List OidcGrantMerged) (g : OidcGrant) : OidcGrant :=
  merged.foldl (fun g mg =>
    if inSlot S mg.clientId g then { g with fields := mg.survivorPrev } else g) g

theorem restoreGrantFields_eq_map (merged : List OidcGrantMerged) (t : List OidcGrant) :
    restoreGrantFields S merged t = t.map (restoreGrantRow S merged) := by
  induction merged generalizing t with
  | nil => exact (List.map_id t).symm
  | cons mg merged ih =>
    unfold restoreGrantFields at ih ⊢
    rw [List.foldl_cons, ih]
    unfold mapWhere
    rw [List.map_map]
    rfl

/-- If every record at the row's slot carries the same fields, and there is one or
the row has them already, the row ends with those fields. -/
theorem restoreGrantRow_eq {merged : List OidcGrantMerged} {g : OidcGrant} {fs : OidcGrantFields}
    (hsame : ∀ mg ∈ merged, inSlot S mg.clientId g = true → mg.survivorPrev = fs)
    (hex : g.fields = fs ∨ ∃ mg ∈ merged, inSlot S mg.clientId g = true) :
    restoreGrantRow S merged g = { g with fields := fs } := by
  induction merged generalizing g with
  | nil =>
    have hfs : g.fields = fs := by simpa using hex
    rw [← hfs]
    rfl
  | cons mg merged ih =>
    unfold restoreGrantRow at ih ⊢
    rw [List.foldl_cons]
    by_cases hin : inSlot S mg.clientId g
    · have hprev := hsame mg List.mem_cons_self hin
      rw [if_pos hin, hprev]
      exact ih (fun m hm hm' => hsame m (List.mem_cons_of_mem _ hm) hm') (.inl rfl)
    · rw [if_neg hin]
      refine ih (fun m hm hm' => hsame m (List.mem_cons_of_mem _ hm) hm') (hex.imp_right ?_)
      rintro ⟨m, hm, hm'⟩
      rcases List.mem_cons.mp hm with rfl | hm
      · exact absurd hm' hin
      · exact ⟨m, hm, hm'⟩

/-- Every row is as before the merge, except that the survivor's grants at shared
clients still carry the union and the donor's are missing. -/
def halfRestoredGrant (S D : UserId) (t : List OidcGrant) (g : OidcGrant) : Option OidcGrant :=
  if g.userId = D then
    match at? t S g.clientId with
    | none => some g
    | some _ => none
  else mergedGrant S D t g

theorem handOver_mergedGrants (hne : S ≠ D) :
    handOver S D (grantPlan S D t).moved (mergedGrants S D t) =
      t.filterMap (halfRestoredGrant S D t) := by
  unfold handOver mapWhere mergedGrants
  rw [List.map_filterMap]
  refine List.filterMap_congr fun g hg => ?_
  simp only [mem_grantPlan_moved]
  by_cases hD : g.userId = D
  · subst hD
    have hown : at? t g.userId g.clientId ≠ none := fun hn =>
      at?_eq_none_iff.mp hn g hg rfl rfl
    cases hs : at? t S g.clientId with
    | none => simp [mergedGrant, halfRestoredGrant, hs, holder, slot, setHolder, hown]
    | some sg => simp [mergedGrant, halfRestoredGrant, hs]
  · by_cases hS : g.userId = S
    · have hown : at? t S g.clientId ≠ none := fun hn => at?_eq_none_iff.mp hn g hg hS rfl
      cases hd : at? t D g.clientId with
      | none => simp [mergedGrant, halfRestoredGrant, hne, hS, hd, holder, slot]
      | some dg => simp [mergedGrant, halfRestoredGrant, hne, hS, hd, holder, slot, hown]
    · simp [mergedGrant, halfRestoredGrant, hD, hS, holder]

theorem restoreGrantFields_halfRestored (h : Consistent t) (hne : S ≠ D) :
    restoreGrantFields S (grantPlan S D t).merged (t.filterMap (halfRestoredGrant S D t)) =
      deleteMany (grantCollides S D t) t := by
  rw [restoreGrantFields_eq_map, List.map_filterMap]
  unfold deleteMany
  rw [← List.filterMap_eq_filter]
  refine List.filterMap_congr fun g hg => ?_
  -- A record at the survivor's slot holds the fields its own row had.
  have hprev : ∀ mg ∈ (grantPlan S D t).merged, ∀ g' : OidcGrant,
      inSlot S mg.clientId g' = true → slot g' = g.clientId → g.userId = S →
      mg.survivorPrev = g.fields := by
    intro mg hmg g' hin hslot hS
    obtain ⟨dg, hdg, hdD, sg, hsg, rfl⟩ := mem_grantPlan_merged.mp hmg
    have hclient : dg.clientId = g.clientId := (inSlot_eq_true.mp hin).2.symm.trans hslot
    have hown : at? t S dg.clientId = some g := (at?_eq_some_iff h).mpr ⟨hg, hS, hclient.symm⟩
    rw [Option.some_inj.mp (hsg.symm.trans hown)]
  have hrow : restoreGrantRow S (grantPlan S D t).merged g = { g with fields := g.fields } :=
    restoreGrantRow_eq (fun mg hmg hin => hprev mg hmg g hin rfl (inSlot_eq_true.mp hin).1)
      (.inl rfl)
  by_cases hD : g.userId = D
  · cases hs : at? t S g.clientId with
    | none => simp [halfRestoredGrant, grantCollides, Option.guard, hD, hs, hrow]
    | some sg => simp [halfRestoredGrant, grantCollides, Option.guard, hD, hs]
  · by_cases hS : g.userId = S
    · subst hS
      cases hd : at? t D g.clientId with
      | none => simp [halfRestoredGrant, mergedGrant, grantCollides, Option.guard, hne, hd, hrow]
      | some dg =>
        obtain ⟨hdgt, hdgD, hdgc⟩ := (at?_eq_some_iff h).mp hd
        have hown : at? t g.userId dg.clientId = some g :=
          (at?_eq_some_iff h).mpr ⟨hg, rfl, hdgc.symm⟩
        have hrow : restoreGrantRow g.userId (grantPlan g.userId D t).merged
            { g with fields := g.fields.union dg.fields } = { g with fields := g.fields } := by
          refine restoreGrantRow_eq (fun mg hmg hin => hprev mg hmg _ hin rfl rfl) (.inr ?_)
          refine ⟨_, mem_grantPlan_merged.mpr ⟨dg, hdgt, hdgD, g, hown, rfl⟩, ?_⟩
          exact inSlot_eq_true.mpr ⟨rfl, hdgc.symm⟩
        simp [halfRestoredGrant, mergedGrant, grantCollides, Option.guard, hne, hd, hrow]
    · simp [halfRestoredGrant, mergedGrant, grantCollides, Option.guard, hD, hS, hrow]

theorem consistent_restoreGrantFields_append (merged : List OidcGrantMerged)
    {t t' : List OidcGrant} :
    Consistent (restoreGrantFields S merged t ++ t') ↔ Consistent (t ++ t') := by
  induction merged generalizing t with
  | nil => rfl
  | cons mg merged ih =>
    refine Iff.trans (ih (t := mapWhere (inSlot S mg.clientId) _ t)) ?_
    exact consistent_mapWhere_append _ fun _ _ => rfl

/-- Grants come back in two steps: the moved ones by key, then the unions are
split. -/
theorem oidcGrant_restored (h : Consistent t) (hne : S ≠ D) :
    ∃ t₁ t₂, moveGrantsBack S D (grantPlan S D t).moved (mergedGrants S D t) = .ok t₁ ∧
      splitGrants S D (grantPlan S D t).merged t₁ = .ok t₂ ∧ t₂.Perm t := by
  have hmerged := (mergeGrants_eq_ok h hne).2
  have hgone : ∀ c, at? (mergedGrants S D t) D c = none := by
    intro c
    rw [at?_eq_none_iff]
    rintro g' hg' hD -
    obtain ⟨g, -, hg⟩ := List.mem_filterMap.mp hg'
    exact (mergedGrant_spec hg).2 hne hD
  have hmove := moveSlots_eq_ok hne hmerged fun c (_ : c ∈ (grantPlan S D t).moved) =>
    .inr (hgone c)
  rw [handOver_mergedGrants hne] at hmove
  have hrestored : (restoreGrantFields S (grantPlan S D t).merged
      (t.filterMap (halfRestoredGrant S D t)) ++
        (grantPlan S D t).merged.map (donorGrant D)).Perm t := by
    rw [restoreGrantFields_halfRestored h hne, grantPlan_merged_donorGrant]
    refine List.perm_append_comm.trans ?_
    exact List.filter_append_perm _ t
  have hcons := (consistent_restoreGrantFields_append (grantPlan S D t).merged).mp
    (h.perm hrestored.symm)
  have hhalf : Consistent (t.filterMap (halfRestoredGrant S D t)) :=
    hcons.sublist (List.sublist_append_left _ _)
  exact ⟨_, _, hmove, (splitGrants_eq_ok_iff hne hhalf).mpr ⟨hcons, rfl⟩, hrestored⟩

end OidcGrant

/-! ### Accounts -/

/-- The same account, up to its session generation and a handle minted where there
was none. -/
structure SameAccount (u u' : User) : Prop where
  id : u'.id = u.id
  email : u'.email = u.email
  isAdmin : u'.isAdmin = u.isAdmin
  isBanned : u'.isBanned = u.isBanned
  mergedIntoUserId : u'.mergedIntoUserId = u.mergedIntoUserId
  mergedAt : u'.mergedAt = u.mergedAt
  dedupHandle : u.dedupHandle ≠ none → u'.dedupHandle = u.dedupHandle

/-- An account that is not tombstoned. -/
def User.IsLive (u : User) : Prop := u.mergedIntoUserId = none ∧ u.mergedAt = none

theorem claimHandle_sameAccount {p : User → Bool} (hp : ∀ u, p u = true → u.dedupHandle = none)
    (candidate : String) (u : User) : SameAccount u (claimHandle p candidate u) := by
  unfold claimHandle
  split_ifs with hpu
  · exact ⟨rfl, rfl, rfl, rfl, rfl, rfl, fun hsome => absurd (hp u hpu) hsome⟩
  · exact ⟨rfl, rfl, rfl, rfl, rfl, rfl, fun _ => rfl⟩

/-- Tombstoning and reviving cancel, and so do the two changes of the ban flag. -/
theorem user_restored {t : List User} (h : Consistent t) {survivor donor : User}
    (hS : findUser survivor.id t = some survivor) (hD : findUser donor.id t = some donor)
    (hne : survivor.id ≠ donor.id) (hlive : donor.IsLive) {now : Timestamp} {isBanned : Bool}
    {p : User → Bool} {candidate : String} (hp : ∀ u, p u = true → u.dedupHandle = none) :
    List.Forall₂ SameAccount t (reversedUsers survivor.id donor.id survivor.isBanned
      ((mergedUsers survivor.id donor.id now isBanned t).map (claimHandle p candidate))) := by
  unfold reversedUsers mergedUsers mapWhere
  simp only [List.map_map, List.forall₂_map_right_iff, List.forall₂_same, Function.comp_apply,
    decide_eq_true_eq]
  intro u hu
  have hid : ∀ v, (claimHandle p candidate v).id = v.id := fun v =>
    (claimHandle_sameAccount hp candidate v).id
  by_cases hidS : u.id = survivor.id
  · obtain rfl := eq_of_findUser h hS hu hidS
    have hclaim := claimHandle_sameAccount hp candidate (withBan isBanned u)
    simp only [if_true, withBan_id, hne, if_false, hid]
    exact ⟨hclaim.id, hclaim.email, hclaim.isAdmin, rfl, hclaim.mergedIntoUserId,
      hclaim.mergedAt, hclaim.dedupHandle⟩
  · by_cases hidD : u.id = donor.id
    · obtain rfl := eq_of_findUser h hD hu hidD
      have hclaim := claimHandle_sameAccount hp candidate (tombstoned survivor.id now u)
      simp only [hne.symm, if_false, if_true, tombstoned_id, hid]
      exact ⟨hclaim.id, hclaim.email, hclaim.isAdmin, hclaim.isBanned, hlive.1.symm,
        hlive.2.symm, hclaim.dedupHandle⟩
    · simp only [hidS, hidD, if_false, hid]
      exact claimHandle_sameAccount hp candidate u

/-! ### The ledger -/

/-- Re-tagging entries from the donor to the survivor and back loses track of the
entries that were the survivor's to begin with, and of no others. -/
theorem ledger_restored_iff {t : List NullifierEntry} {entryRefs : List String}
    {donorHandle survivorHandle : String} (hne : survivorHandle ≠ donorHandle) :
    (reassignOwner entryRefs survivorHandle donorHandle
        (reassignOwner entryRefs donorHandle survivorHandle t).1).1 = t ↔
      ∀ e ∈ t, e.id ∈ entryRefs → e.ownerHandle ≠ survivorHandle := by
  rw [reassignOwner_fst, reassignOwner_fst, mapWhere_mapWhere]
  conv_lhs => rhs; rw [← List.map_id t]
  rw [List.map_inj_left]
  refine forall₂_congr fun e _ => ?_
  obtain ⟨id, value, ownerHandle, badgeType⟩ := e
  by_cases hid : id ∈ entryRefs
  · by_cases hd : ownerHandle = donorHandle
    · simp [isReassigned, hid, hd, hne.symm]
    · by_cases hs : ownerHandle = survivorHandle
      · simp [isReassigned, hid, hs, hne, hne.symm]
      · simp [isReassigned, hid, hd, hs]
  · simp [isReassigned, hid]

/-- The ledger step with nothing to re-tag. -/
theorem runPostCommit_reassignOnMerge_skip {survivorUserId : UserId} {candidate : String}
    {result : MergeTxResult} {db : Db}
    (h : result.donorHandle = none ∨ result.entryRefs = []) :
    runPostCommit (reassignOnMerge survivorUserId candidate result) db = db := by
  unfold runPostCommit reassignOnMerge
  rcases h with h | h
  · simp [h, pure, Except.pure]
  · cases hd : result.donorHandle with
    | none => simp [pure, Except.pure]
    | some donorHandle => simp [h, pure, Except.pure]

/-- The ledger step with a fresh handle candidate. -/
theorem runPostCommit_reassignOnMerge (survivor : User) {candidate donorHandle : String}
    {result : MergeTxResult} {db : Db} (h : Consistent db.user)
    (hS : findUser survivor.id db.user = some survivor)
    (hfresh : ∀ v ∈ db.user, v.dedupHandle ≠ some candidate)
    (hD : result.donorHandle = some donorHandle) (hrefs : result.entryRefs ≠ []) :
    runPostCommit (reassignOnMerge survivor.id candidate result) db =
      { db with
        user := db.user.map (claimHandle (isUnclaimed survivor.id) candidate)
        nullifierEntry := (reassignOwner result.entryRefs donorHandle
          (survivor.dedupHandle.getD candidate) db.nullifierEntry).1 } := by
  unfold runPostCommit reassignOnMerge
  simp only [hD, List.length_eq_zero_iff, hrefs, if_false, ensureDedupHandle_eq_ok h hS hfresh,
    ok_bind]
  rfl

/-- The ledger step of a reversal, on the ledger alone. -/
def retagged (entryRefs : List String) (fromHandle toHandle : Option String)
    (t : List NullifierEntry) : List NullifierEntry :=
  match fromHandle, toHandle with
  | some f, some g => (reassignOwner entryRefs f g t).1
  | _, _ => t

theorem retagged_skip {entryRefs : List String} {fromHandle toHandle : Option String}
    {t : List NullifierEntry} (h : toHandle = none ∨ entryRefs = []) :
    retagged entryRefs fromHandle toHandle t = t := by
  rcases h with rfl | rfl
  · cases fromHandle <;> rfl
  · cases fromHandle <;> cases toHandle <;> rfl

theorem reassignOnReverse_eq (entryRefs : List String) (fromHandle toHandle : Option String)
    (db : Db) : reassignOnReverse (some ⟨entryRefs, fromHandle, toHandle⟩) db =
      { db with nullifierEntry := retagged entryRefs fromHandle toHandle db.nullifierEntry } := by
  cases fromHandle <;> cases toHandle <;> rfl

/-! ### The round trip -/

/-- Every table is as before, up to the order of rows where rows were deleted and
recreated, and up to the generations, handles, codes and record a merge and its
reversal leave behind. -/
structure RestoredRows (donorUserId : UserId) (db db' : Db) : Prop where
  user : List.Forall₂ SameAccount db.user db'.user
  account : db'.account = db.account
  session : db'.session = db.session
  authenticator : db'.authenticator = db.authenticator
  badge : db'.badge = db.badge
  eligibility : db'.eligibility.Perm db.eligibility
  shareLink : db'.shareLink = db.shareLink
  oidcAccessToken : db'.oidcAccessToken = db.oidcAccessToken
  wizardSession : db'.wizardSession = db.wizardSession
  auditLog : db'.auditLog = db.auditLog
  userEmail : db'.userEmail = db.userEmail
  recoveryCode : db'.recoveryCode = db.recoveryCode
  recoveryAttempt : db'.recoveryAttempt = db.recoveryAttempt
  subjectOverride : db'.subjectOverride = db.subjectOverride
  inviteRedemption : db'.inviteRedemption.Perm db.inviteRedemption
  oidcClient : db'.oidcClient = db.oidcClient
  oidcGrant : db'.oidcGrant.Perm db.oidcGrant
  oidcAuthorizationCode : db'.oidcAuthorizationCode =
    deleteMany (fun c => c.userId = donorUserId) db.oidcAuthorizationCode
  mergeRecord : ∃ record, db'.mergeRecord = db.mergeRecord ++ [record]
  oidcProfileOverride : db'.oidcProfileOverride = db.oidcProfileOverride
  userAvatar : db'.userAvatar = db.userAvatar
  group : db'.group = db.group
  groupMembership : db'.groupMembership = db.groupMembership
  anonSeedEnrollment : db'.anonSeedEnrollment = db.anonSeedEnrollment
  anonSeedBlob : db'.anonSeedBlob = db.anonSeedBlob
  anonPairSession : db'.anonPairSession = db.anonPairSession
  verificationToken : db'.verificationToken = db.verificationToken

/-- `RestoredRows`, and every ledger entry has its owner back. -/
structure Restored (donorUserId : UserId) (db db' : Db) : Prop extends
    RestoredRows donorUserId db db' where
  nullifierEntry : db'.nullifierEntry = db.nullifierEntry

theorem findMergeRecord_append {t : List MergeRecord} (record : MergeRecord)
    (hfresh : ∀ m ∈ t, m.id ≠ record.id) :
    findMergeRecord record.id (t ++ [record]) = some record := by
  unfold findMergeRecord
  rw [List.find?_append, List.find?_eq_none.mpr]
  · simp
  · simpa using hfresh

section Reverse

variable {db : Db} {survivor donor : User} {now now' : Timestamp} {recordId candidate : String}
  {subs : List SubAtClient} {p : User → Bool} {entries : List NullifierEntry}
  (hne : survivor.id ≠ donor.id)
  (hready : MergeReady survivor.id donor.id recordId subs survivor donor db)

include hne hready

/-- After the merge alone, the four tables with a per-account unique come back. -/
theorem reversedTables_mergedDb (now : Timestamp) (p : User → Bool) (candidate : String)
    (entries : List NullifierEntry) (hdb : db.Consistent) :
    ∃ eligibility inviteRedemption oidcGrant,
      ReversedTables (mergeSnapshot survivor donor now subs db)
        (settledDb survivor donor now recordId subs p candidate entries db)
        eligibility inviteRedemption db.subjectOverride oidcGrant ∧
      eligibility.Perm db.eligibility ∧ inviteRedemption.Perm db.inviteRedemption ∧
      oidcGrant.Perm db.oidcGrant := by
  obtain ⟨r₁, r₂, hr₁, hr₂, hr₃⟩ := resolved_restored (S := survivor.id) (D := donor.id)
    (redemptionLosers survivor.id donor.id db.inviteRedemption)
    (redemptionMoved survivor.id donor.id db.inviteRedemption) hdb.inviteRedemption
    (fun r hr => mem_of_mem_redemptionLosers hr) (hdb.inviteRedemption.nodup.filter _)
    fun r hr hmv => congrArg some ((mem_redemptionMoved hdb.inviteRedemption hr).mp hmv).1
  obtain ⟨e₁, e₂, he₁, he₂, he₃⟩ := resolved_restored (S := survivor.id) (D := donor.id)
    (eligibilityLosers survivor.id donor.id db.eligibility)
    (eligibilityMoved survivor.id donor.id db.eligibility) hdb.eligibility
    (fun e he => mem_of_mem_eligibilityLosers hdb.eligibility he)
    (nodup_eligibilityLosers hdb.eligibility)
    fun e he hmv => congrArg some ((mem_eligibilityMoved hdb.eligibility he).mp hmv).1
  obtain ⟨so, hso₁, hso₂⟩ := subjectOverride_restored hdb.subjectOverride hne hready.overrides
    fun ov hov => not_mem_overrideClients_of_created now subs donor hov
  obtain ⟨g₁, g₂, hg₁, hg₂, hg₃⟩ := oidcGrant_restored hdb.oidcGrant hne
  obtain ⟨hmovedRed, hdelRed⟩ := mergeSnapshot_redemption now subs survivor donor db
  obtain ⟨hmovedElig, hdelElig⟩ := mergeSnapshot_eligibility now subs hdb hne
  refine ⟨e₂, r₂, g₂, ⟨⟨e₁, ?_, ?_⟩, ⟨r₁, ?_, ?_⟩, ⟨so, hso₁, hso₂.symm⟩, ⟨g₁, hg₁, hg₂⟩⟩,
    he₃, hr₃, hg₃⟩
  · rw [hmovedElig]
    exact he₁
  · rw [hdelElig, recreateEligibilities_map, he₂, stmt_ok]
  · rw [hmovedRed]
    exact hr₁
  · rw [hdelRed, recreateRedemptions_map, hr₂, stmt_ok]

variable
  (huser : Consistent (settledDb survivor donor now recordId subs p candidate entries db).user)
  (hp : ∀ u, p u = true → isUnclaimed survivor.id u = true)

include huser hp

theorem findUser_survivor_settledDb :
    findUser survivor.id (settledDb survivor donor now recordId subs p candidate entries db).user =
      some (claimHandle p candidate (withBan (survivor.isBanned || donor.isBanned) survivor)) := by
  refine (findUser_eq_some_iff huser).mpr ⟨List.mem_map_of_mem ?_, ?_⟩
  · refine mem_mapWhere.mpr ⟨withBan (survivor.isBanned || donor.isBanned) survivor,
      mem_mapWhere.mpr ⟨survivor, mem_of_findUser hready.survivor_found, by simp⟩, by simp [hne]⟩
  · exact (claimHandle_sameAccount (fun u hu => (of_decide_eq_true (hp u hu)).2) _ _).id

theorem findUser_donor_settledDb :
    findUser donor.id (settledDb survivor donor now recordId subs p candidate entries db).user =
      some (tombstoned survivor.id now donor) := by
  -- A handle is only ever minted for the survivor.
  have hclaim : claimHandle p candidate (tombstoned survivor.id now donor) =
      tombstoned survivor.id now donor := by
    refine if_neg fun hpd => hne ?_
    exact ((of_decide_eq_true (hp _ hpd)).1).symm
  refine (findUser_eq_some_iff huser).mpr ⟨hclaim ▸ List.mem_map_of_mem ?_, rfl⟩
  refine mem_mapWhere.mpr ⟨donor, mem_mapWhere.mpr
    ⟨donor, mem_of_findUser hready.donor_found, by simp [hne.symm]⟩, by simp⟩

/-- The reversal of a settled merge passes every check and every constraint, and
restores the rows. -/
theorem reverseMerge_settledDb (hdb : db.Consistent) (hlive : donor.IsLive)
    (hentries : Consistent entries)
    (hwindow : now' < now + mergeReversalDays * 24 * 60 * 60 * 1000) :
    ∃ db' n k, reverseMerge recordId now'
        (settledDb survivor donor now recordId subs p candidate entries db) = .ok (db', .ok n k) ∧
      RestoredRows donor.id db db' ∧
      db'.nullifierEntry = retagged (dedupReassigned donor.id db.badge)
        (claimHandle p candidate (withBan (survivor.isBanned || donor.isBanned)
          survivor)).dedupHandle donor.dedupHandle entries := by
  have hcons : (settledDb survivor donor now recordId subs p candidate entries db).Consistent :=
    { consistent_mergedDb now hdb hne hready with user := huser, nullifierEntry := hentries }
  have hS := findUser_survivor_settledDb hne hready huser hp
  have hD := findUser_donor_settledDb hne hready huser hp
  have hfound := findMergeRecord_append
    (newMergeRecord recordId now (mergeSnapshot survivor donor now subs db)) hready.recordId_fresh
  obtain ⟨el, ir, gr, htables, hel, hir, hgr⟩ := reversedTables_mergedDb hne hready now p
    candidate entries hdb
  have hrows := (reverseRows_eq_ok_iff recordId now' hcons hne hS hD
    ⟨_, List.mem_append_right _ List.mem_cons_self, rfl⟩).mpr ⟨el, ir, _, gr, htables, rfl⟩
  refine ⟨_, _, _, reverseMerge_eq_ok hfound rfl hwindow rfl hD rfl hrows
    (reassignOnReverse_eq _ _ _ _).symm, ?_, ?_⟩
  · exact {
      user := user_restored hdb.user hready.survivor_found hready.donor_found hne hlive
        fun u hu => (of_decide_eq_true (hp u hu)).2
      account := moveBack_repoint hdb.account
      session := moveBack_repoint hdb.session
      authenticator := authenticator_restored hdb.authenticator
      badge := moveBack_repoint hdb.badge
      eligibility := hel
      shareLink := moveBack_repoint hdb.shareLink
      oidcAccessToken := moveBack_repoint hdb.oidcAccessToken
      wizardSession := moveBack_repoint hdb.wizardSession
      auditLog := moveBack_repoint hdb.auditLog
      userEmail := userEmail_restored hdb.userEmail
      recoveryCode := moveBack_repoint hdb.recoveryCode
      recoveryAttempt := moveBack_repoint hdb.recoveryAttempt
      subjectOverride := rfl
      inviteRedemption := hir
      oidcClient := moveBack_repoint hdb.oidcClient
      oidcGrant := hgr
      oidcAuthorizationCode := rfl
      mergeRecord := by
        refine ⟨_, (mapWhere_append).trans (congrArg₂ _ (mapWhere_eq_self ?_) rfl)⟩
        intro m hm hid
        exact absurd (of_decide_eq_true hid) (hready.recordId_fresh m hm)
      oidcProfileOverride := rfl
      userAvatar := rfl
      group := rfl
      groupMembership := rfl
      anonSeedEnrollment := rfl
      anonSeedBlob := rfl
      anonPairSession := rfl
      verificationToken := rfl }
  · have hfrom : (findUser survivor.id (settledDb survivor donor now recordId subs p candidate
        entries db).user).bind (·.dedupHandle) =
        (claimHandle p candidate (withBan (survivor.isBanned || donor.isBanned)
          survivor)).dedupHandle := by rw [hS]; rfl
    rw [← hfrom]
    rfl

end Reverse

/-- The handle minted for the survivor is new: sixteen random bytes. -/
structure FreshHandle (candidate : String) (db : Db) : Prop where
  user : ∀ u ∈ db.user, u.dedupHandle ≠ some candidate
  nullifierEntry : ∀ e ∈ db.nullifierEntry, e.ownerHandle ≠ candidate

/-- Some badge of the donor refers to a ledger entry that is already tagged with
the survivor's handle. -/
def SurvivorHoldsDonorEntry (survivor donor : User) (db : Db) : Prop :=
  donor.dedupHandle ≠ none ∧ ∃ e ∈ db.nullifierEntry,
    e.id ∈ dedupReassigned donor.id db.badge ∧ survivor.dedupHandle = some e.ownerHandle

section Ledger

variable {db : Db} {survivor donor : User} {now : Timestamp} {recordId candidate : String}
  {subs : List SubAtClient}

theorem settledDb_skip (candidate : String) :
    settledDb survivor donor now recordId subs (fun _ => false) candidate db.nullifierEntry db =
      mergedDb survivor donor now recordId subs db := by
  have hid : claimHandle (fun _ => false) candidate = id := funext fun u => rfl
  simp only [settledDb, hid, List.map_id]
  rfl

theorem dedupHandle_mergedUsers (now : Timestamp) (isBanned : Bool) {S D : UserId} {t : List User}
    (h : ∀ u ∈ t, u.dedupHandle ≠ some candidate) :
    ∀ u ∈ mergedUsers S D now isBanned t, u.dedupHandle ≠ some candidate := by
  intro u hu
  obtain ⟨u₁, hu₁, rfl⟩ := mem_mapWhere.mp hu
  obtain ⟨u₀, hu₀, rfl⟩ := mem_mapWhere.mp hu₁
  have h₀ := h u₀ hu₀
  split_ifs <;> exact h₀

theorem dedupHandle_claimHandle (survivor : User) :
    (claimHandle (isUnclaimed survivor.id) candidate survivor).dedupHandle =
      some (survivor.dedupHandle.getD candidate) := by
  cases hs : survivor.dedupHandle <;> simp [claimHandle, isUnclaimed, hs]

/-- The survivor's handle after the ledger step is not the donor's. -/
theorem survivorHandle_ne (hdb : db.Consistent) (hne : survivor.id ≠ donor.id)
    (hS : findUser survivor.id db.user = some survivor)
    (hD : findUser donor.id db.user = some donor) (hfresh : FreshHandle candidate db)
    {donorHandle : String} (hd : donor.dedupHandle = some donorHandle) :
    survivor.dedupHandle.getD candidate ≠ donorHandle := by
  cases hs : survivor.dedupHandle with
  | none =>
    rintro rfl
    exact hfresh.user donor (mem_of_findUser hD) hd
  | some survivorHandle =>
    rintro rfl
    refine hne (congrArg User.id (hdb.user.eq_of_clash (mem_of_findUser hS)
      (mem_of_findUser hD) ?_))
    simp [clash, sameKey, hs, hd]

/-- The survivor before the ledger step: only the ban may have changed. -/
theorem findUser_survivor_mergedDb (hdb : db.Consistent) (hne : survivor.id ≠ donor.id)
    (hready : MergeReady survivor.id donor.id recordId subs survivor donor db) :
    findUser survivor.id (mergedDb survivor donor now recordId subs db).user =
      some (withBan (survivor.isBanned || donor.isBanned) survivor) := by
  have huser := (consistent_mergedDb now hdb hne hready).user
  rw [← settledDb_skip ""] at huser ⊢
  exact findUser_survivor_settledDb hne hready huser (by simp)

/-- For a donor with a handle, in terms of the handle the survivor has afterwards. -/
theorem not_survivorHoldsDonorEntry_iff (hfresh : FreshHandle candidate db)
    (hd : donor.dedupHandle ≠ none) :
    ¬SurvivorHoldsDonorEntry survivor donor db ↔
      ∀ e ∈ db.nullifierEntry, e.id ∈ dedupReassigned donor.id db.badge →
        e.ownerHandle ≠ survivor.dedupHandle.getD candidate := by
  constructor
  · intro hno e he hmem hown
    cases hs : survivor.dedupHandle with
    | none => exact hfresh.nullifierEntry e he (by simpa [hs] using hown)
    | some survivorHandle =>
      refine hno ⟨hd, e, he, hmem, ?_⟩
      simpa [hs] using hown.symm
  · rintro hno ⟨-, e, he, hmem, hown⟩
    exact hno e he hmem (by simp [hown])

/-- With the rows restored, what is left is the ledger. -/
theorem exists_restored_iff {donorUserId : UserId} {x : Except ServerError (Db × ReverseResult)}
    {entries : List NullifierEntry}
    (h : ∃ db' n k, x = .ok (db', .ok n k) ∧ RestoredRows donorUserId db db' ∧
      db'.nullifierEntry = entries) :
    (∃ db' n k, x = .ok (db', .ok n k) ∧ Restored donorUserId db db') ↔
      entries = db.nullifierEntry := by
  obtain ⟨db', n, k, rfl, hrows, hentries⟩ := h
  constructor
  · rintro ⟨db'', n', k', heq, hrestored⟩
    cases heq
    rw [← hentries, hrestored.nullifierEntry]
  · intro heq
    exact ⟨db', n, k, rfl, hrows, hentries.trans heq⟩

end Ledger

/-- Reversing a merge restores the database exactly when no ledger entry behind a
donor badge was the survivor's before the merge. -/
theorem reverseMerge_restores_iff {pairwise : UserId → ClientId → String} {inputs : MergeInputs}
    {db db₁ : Db} {summary : MergeSummary} (survivor donor : User) {now' : Timestamp}
    (hdb : db.Consistent) (hS : findUser survivor.id db.user = some survivor)
    (hD : findUser donor.id db.user = some donor) (hlive : donor.IsLive)
    (hfresh : FreshHandle inputs.handleCandidate db)
    (hmerge : mergeAccounts pairwise inputs survivor.id donor.id db = .ok (db₁, summary))
    (hwindow : now' < inputs.now + mergeReversalDays * 24 * 60 * 60 * 1000) :
    (∃ db₂ n k, reverseMerge summary.mergeRecordId now' db₁ = .ok (db₂, .ok n k) ∧
      Restored donor.id db db₂) ↔ ¬SurvivorHoldsDonorEntry survivor donor db := by
  obtain ⟨hne, survivor', donor', hready, result, hresult, hout⟩ :=
    (mergeAccounts_eq_ok_iff hdb).mp hmerge
  obtain rfl : survivor' = survivor := Option.some_inj.mp (hready.survivor_found.symm.trans hS)
  obtain rfl : donor' = donor := Option.some_inj.mp (hready.donor_found.symm.trans hD)
  obtain ⟨rfl, rfl⟩ := Prod.mk.inj hout
  have hM := consistent_mergedDb inputs.now hdb hne hready
  have hrefs : result.entryRefs = dedupReassigned donor'.id db.badge := by rw [hresult]; rfl
  have hhandle : result.donorHandle = donor'.dedupHandle := by rw [hresult]; rfl
  have hrecord : result.summary.mergeRecordId = inputs.recordId := by rw [hresult]; rfl
  rw [hrecord]
  by_cases hskip : result.donorHandle = none ∨ result.entryRefs = []
  · -- Nothing was re-tagged, and nothing is re-tagged back.
    rw [runPostCommit_reassignOnMerge_skip hskip,
      ← settledDb_skip inputs.handleCandidate,
      exists_restored_iff (reverseMerge_settledDb hne hready
        (by rw [settledDb_skip]; exact hM.user) (by simp) hdb hlive hdb.nullifierEntry hwindow)]
    rw [hrefs, hhandle] at hskip
    refine iff_of_true (retagged_skip hskip) ?_
    rintro ⟨hsome, e, -, hmem, -⟩
    rcases hskip with hnone | hnil
    · exact hsome hnone
    · simp [hnil] at hmem
  · push Not at hskip
    obtain ⟨donorHandle, hd⟩ := Option.ne_none_iff_exists'.mp hskip.1
    have hd' : donor'.dedupHandle = some donorHandle := hhandle.symm.trans hd
    have hfreshM := dedupHandle_mergedUsers inputs.now
      (survivor'.isBanned || donor'.isBanned) (S := survivor'.id) (D := donor'.id) hfresh.user
    have hpost : runPostCommit (reassignOnMerge survivor'.id inputs.handleCandidate result)
        (mergedDb survivor' donor' inputs.now inputs.recordId
          (precomputeSubs pairwise donor'.id db) db) =
        settledDb survivor' donor' inputs.now inputs.recordId (precomputeSubs pairwise donor'.id db)
          (isUnclaimed survivor'.id) inputs.handleCandidate
          (reassignOwner result.entryRefs donorHandle
            (survivor'.dedupHandle.getD inputs.handleCandidate) db.nullifierEntry).1 db :=
      runPostCommit_reassignOnMerge
        (withBan (survivor'.isBanned || donor'.isBanned) survivor') hM.user
        (findUser_survivor_mergedDb hdb hne hready) hfreshM hd hskip.2
    have hentries := consistent_reassignOwner hdb.nullifierEntry result.entryRefs donorHandle
      (survivor'.dedupHandle.getD inputs.handleCandidate)
    have hfrom : (claimHandle (isUnclaimed survivor'.id) inputs.handleCandidate
        (withBan (survivor'.isBanned || donor'.isBanned) survivor')).dedupHandle =
        some (survivor'.dedupHandle.getD inputs.handleCandidate) :=
      dedupHandle_claimHandle (withBan (survivor'.isBanned || donor'.isBanned) survivor')
    rw [hpost, exists_restored_iff (reverseMerge_settledDb hne hready
      (consistent_claim hM.user hfreshM) (fun u hu => hu) hdb hlive hentries hwindow), hfrom, hd',
      hrefs]
    exact (ledger_restored_iff (survivorHandle_ne hdb hne hS hD hfresh hd')).trans
      (not_survivorHoldsDonorEntry_iff hfresh (by simp [hd'])).symm

/-- An account without a tombstone. -/
def liveUser (id : UserId) (dedupHandle : Option String) : User where
  id := id
  email := none
  isAdmin := false
  isBanned := false
  sessionGeneration := 0
  mergedIntoUserId := none
  mergedAt := none
  dedupHandle := dedupHandle

def sampleInputs : MergeInputs := ⟨0, "m1", "hNew"⟩

/-- A donor with a registered badge, a primary email, an eligibility that beats the
survivor's, and a grant and an override at a client the survivor also uses. -/
def twoAccountsDb : Db where
  user := [liveUser "A" none, liveUser "B" (some "hB")]
  badge := [⟨"b1", "B", "oauth-account", none, some "e1"⟩]
  eligibility := [⟨"el1", "A", "age-over-18", 20, 7, "plugin"⟩,
    ⟨"el2", "B", "age-over-18", 10, 0, "import"⟩]
  userEmail := [⟨"ue1", "B", "b@example.org", some 1, true⟩]
  subjectOverride := [⟨"B", "shop", "sub-of-C-at-shop"⟩]
  oidcGrant := [⟨"g1", "A", "forum", ⟨["email-exact"], [], true, false, false⟩⟩,
    ⟨"g2", "B", "forum", ⟨["oauth-account"], ["b1"], false, false, true⟩⟩]
  nullifierEntry := [⟨"e1", [1], "hB", "oauth-account"⟩]

theorem twoAccountsDb_restored : ∃ db₁ summary,
    mergeAccounts (fun u c => u ++ c) sampleInputs "A" "B" twoAccountsDb = .ok (db₁, summary) ∧
      ∃ db₂ n k, reverseMerge summary.mergeRecordId 1 db₁ = .ok (db₂, .ok n k) ∧
        Restored "B" twoAccountsDb db₂ := by
  have hdb : twoAccountsDb.Consistent := by constructor <;> decide
  refine ⟨_, _, rfl, (reverseMerge_restores_iff (liveUser "A" none)
    (liveUser "B" (some "hB")) hdb rfl rfl ⟨rfl, rfl⟩ ⟨by decide, by decide⟩ rfl
    (by decide)).mpr ?_⟩
  rintro ⟨-, e, -, -, hown⟩
  cases hown

/-- The donor's badge refers to an entry tagged with the survivor's handle, as an
earlier merge reversed out of order leaves it. -/
def sharedEntryDb : Db where
  user := [liveUser "A" (some "hA"), liveUser "B" (some "hB")]
  badge := [⟨"b1", "B", "oauth-account", none, some "e1"⟩]
  nullifierEntry := [⟨"e1", [1], "hA", "oauth-account"⟩]

/-- The round trip takes the entry away from the survivor. -/
theorem sharedEntryDb_not_restored : sharedEntryDb.Consistent ∧ ∃ db₁ summary db₂ n k,
    mergeAccounts (fun u c => u ++ c) sampleInputs "A" "B" sharedEntryDb = .ok (db₁, summary) ∧
      reverseMerge summary.mergeRecordId 1 db₁ = .ok (db₂, .ok n k) ∧
      db₁.nullifierEntry = sharedEntryDb.nullifierEntry ∧
      db₂.nullifierEntry = [⟨"e1", [1], "hB", "oauth-account"⟩] ∧
      ¬Restored "B" sharedEntryDb db₂ := by
  have hdb : sharedEntryDb.Consistent := by constructor <;> decide
  refine ⟨hdb, _, _, _, _, _, rfl, rfl, rfl, rfl, fun hrestored => ?_⟩
  exact absurd hrestored.nullifierEntry (by decide)

end Minister
