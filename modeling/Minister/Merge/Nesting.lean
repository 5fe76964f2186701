import Minister.Merge.Subjects
import Minister.Relational.Ownership
import Minister.Transition.Run

/-!
# Reversals of nested merges

A merge into an account that is itself merged away later is recorded twice: its rows
are in the snapshot of both merges. `reverseMerge` selects most rows by primary key
alone, so a record reversed out of turn takes rows from whoever holds them, and a
record reversed after it takes them away again.

A row is followed through its owner, an override through the subject at its account
and client. A merge is a change of these, an accepted reversal undoes it as long as
everything the merge touched is still as the merge left it, and then the order of the
reversals does not matter.
-/

namespace Minister.Nesting

open Relational Transition

variable {S D : UserId}

/-- Where what the change of owners from `t₀` to `t₁` touched is in `t` as it was left, the one from
`t` to `t'` undoes it. -/
def Undoes {R K : Type} [Owned R UserId K] [DecidableEq K] (t₀ t₁ t t' : List R) : Prop :=
  (⟨ownerAt t₀, ownerAt t₁⟩ : Change K (Option UserId)).Intact (ownerAt t) →
    (⟨ownerAt t₀, ownerAt t₁⟩ : Change K (Option UserId)).Undone (ownerAt t) (ownerAt t')

/-! ### Tables whose rows only change hands -/

section Movers

variable {R K : Type} [Movable R UserId K] [DecidableEq K] {t t₀ : List R}

/-- Moving back by key undoes the move, whether or not only what the survivor still holds. -/
theorem undoes_repoint {p : R → Bool} (h₀ : Consistent t₀) (ht : Consistent t) (hne : S ≠ D)
    (hkeys : ∀ r ∈ t, p r = true → key r ∈ keysOf D t₀)
    (hheld : ∀ r ∈ t, key r ∈ keysOf D t₀ → owner r = some S → p r = true) :
    Undoes t₀ (repoint D S t₀) t (mapWhere p (setOwner D) t) := by
  intro hintact
  have hback := (handover_repoint h₀ hne).undone hkeys hheld
    (by simpa using ht.setOwner _ D) hintact
  rwa [List.append_nil] at hback

theorem undoes_moveBack (h₀ : Consistent t₀) (ht : Consistent t) (hne : S ≠ D) :
    Undoes t₀ (repoint D S t₀) t (moveBack (keysOf D t₀) D t) :=
  undoes_repoint h₀ ht hne (fun _ _ hr => of_decide_eq_true hr) fun _ _ hr _ => decide_eq_true hr

end Movers

/-- Authenticators move back one by one, from the survivor only. -/
theorem undoes_authenticators {t t₀ : List Authenticator} (h₀ : Consistent t₀) (ht : Consistent t)
    (hne : S ≠ D) : Undoes t₀ (repoint D S t₀) t (mapWhere (fun a => a.userId = S ∧
      a.credentialID ∈ ((keysOf D t₀).map fun c => (D, c)).map (·.2)) (setHolder D) t) := by
  have hkeys : ((keysOf D t₀).map fun c => (D, c)).map (·.2) = keysOf D t₀ := by
    simp [Function.comp_def]
  rw [hkeys]
  exact undoes_repoint h₀ ht hne (fun a _ ha => (of_decide_eq_true ha).2)
    fun a _ ha hS => decide_eq_true ⟨Option.some_inj.mp hS, ha⟩

/-- Emails move back by key; the primary flag does not matter here. -/
theorem undoes_userEmail {t t₀ : List UserEmail} {demoted : UserEmail → Bool}
    (promoted : UserEmail → Bool) (h₀ : Consistent t₀) (ht : Consistent t) (hne : S ≠ D) :
    Undoes t₀ (mapWhere demoted (fun e => { e with isPrimary := false }) (repoint D S t₀)) t
      (mapWhere promoted (fun e => { e with isPrimary := true })
        (moveBack (keysOf D t₀) D t)) := by
  have hflag : ∀ (p : UserEmail → Bool) (b : Bool) (t : List UserEmail),
      ownerAt (mapWhere p (fun e => { e with isPrimary := b }) t) = ownerAt t :=
    fun p b t => ownerAt_mapWhere (fun _ => rfl) fun _ => rfl
  rw [Undoes, hflag, hflag]
  exact undoes_moveBack h₀ ht hne

/-! ### Tables with collision losers -/

section Losers

variable {R : Type} [Owned R UserId String] {t t₀ t₁ t' losers : List R} {moved : List String}

/-- Moving back by key and recreating the losers undoes the collision rule. -/
theorem undoes_resolved (h₀ : Consistent t₀) (hne : S ≠ D) (hlosers : ∀ r ∈ losers, r ∈ t₀)
    (hmoved : ∀ k ∈ moved, ownerAt t₀ k = some D) (hstore : store (moveBack moved D t) = .ok t₁)
    (hcreates : creates losers t₁ = .ok t') :
    Undoes t₀ (resolved (losers.map key) moved S t₀) t t' := by
  obtain ⟨ht₁, rfl⟩ := store_eq_ok_iff.mp hstore
  obtain ⟨hcons, rfl⟩ := (creates_eq_ok_iff ht₁).mp hcreates
  exact (handover_resolve h₀ hne hlosers hmoved).undone (fun _ _ hr => of_decide_eq_true hr)
    (fun _ _ hr _ => decide_eq_true hr) hcons

end Losers

/-! ### Grants -/

section OidcGrant

variable {t t₀ : List OidcGrant}

/-- The keys of the donor's grants at clients where the survivor has none. -/
def movedGrantKeys (S D : UserId) (t : List OidcGrant) : List (String × ClientId) :=
  (findMany (fun g => g.userId = D ∧ at? t S g.clientId = none) t).map key

theorem mem_movedGrantKeys {k : String × ClientId} :
    k ∈ movedGrantKeys S D t ↔
      ∃ g ∈ t, g.userId = D ∧ at? t S g.clientId = none ∧ key g = k := by
  simp [movedGrantKeys, findMany, and_assoc]

theorem mergedGrant_of_ne {g : OidcGrant} (hD : g.userId ≠ D) :
    ∃ g', mergedGrant S D t g = some g' ∧ g'.userId = g.userId := by
  unfold mergedGrant
  rw [if_neg hD]
  split_ifs
  · split
    · exact ⟨_, rfl, rfl⟩
    · exact ⟨_, rfl, rfl⟩
  · exact ⟨_, rfl, rfl⟩

/-- Merging the grants hands over the donor's, and deletes those the survivor's
take up. -/
theorem handover_mergedGrants (h₀ : Consistent t₀) (hne : S ≠ D) :
    Handover t₀ (findMany (grantCollides S D t₀) t₀) (movedGrantKeys S D t₀) D S
      ⟨ownerAt t₀, ownerAt (mergedGrants S D t₀)⟩ := by
  have hmerged : Consistent (mergedGrants S D t₀) := (mergeGrants_eq_ok h₀ hne).2
  have hmovedOwner : ∀ k ∈ movedGrantKeys S D t₀, ownerAt t₀ k = some D :=
    ownerAt_of_mem_findMany h₀ fun g hg => congrArg some (of_decide_eq_true hg).1
  refine ⟨h₀, hne, fun g hg => (mem_findMany.mp hg).1, hmovedOwner, rfl, fun k => ?_⟩
  -- Every row of the result comes from the row of `t₀` with its key.
  have hsource : ∀ g' ∈ mergedGrants S D t₀, ∀ g ∈ t₀, key g' = key g →
      mergedGrant S D t₀ g = some g' := by
    intro g' hg' g hg hkey
    obtain ⟨g₁, hg₁, hmg⟩ := List.mem_filterMap.mp hg'
    rwa [h₀.eq_of_key_eq hg hg₁ (hkey.symm.trans (mergedGrant_spec hmg).1)]
  cases hk : get? t₀ k with
  | none =>
    have hno := get?_eq_none_iff.mp hk
    have hmergedNone : get? (mergedGrants S D t₀) k = none := by
      refine get?_eq_none_iff.mpr fun g' hg' hkey => ?_
      obtain ⟨g, hg, hmg⟩ := List.mem_filterMap.mp hg'
      exact hno g hg ((mergedGrant_spec hmg).1.symm.trans hkey)
    have hmoved : k ∉ movedGrantKeys S D t₀ := by
      intro hmem
      simpa [ownerAt, hk] using hmovedOwner k hmem
    simp [ownerAt, hk, hmergedNone, hmoved]
  | some g =>
    have hg := mem_of_get? hk
    obtain rfl := key_of_get? hk
    have hmoved : key g ∈ movedGrantKeys S D t₀ ↔ g.userId = D ∧ at? t₀ S g.clientId = none :=
      (h₀.key_mem_findMany hg).trans decide_eq_true_iff
    have hkept : ∀ {g'}, mergedGrant S D t₀ g = some g' →
        ownerAt (mergedGrants S D t₀) (key g) = some g'.userId := by
      intro g' hmg
      rw [← (mergedGrant_spec hmg).1]
      exact ownerAt_of_mem hmerged (List.mem_filterMap.mpr ⟨g, hg, hmg⟩)
    simp only [h₀.key_mem_findMany hg, hmoved, grantCollides, decide_eq_true_eq]
    rw [ownerAt_of_mem h₀ hg]
    by_cases hD : g.userId = D
    · cases hs : at? t₀ S g.clientId with
      | none =>
        have hmg : mergedGrant S D t₀ g = some (setHolder S g) := by simp [mergedGrant, hD, hs]
        simpa [hD, setHolder] using hkept hmg
      | some sg =>
        have hgone : get? (mergedGrants S D t₀) (key g) = none := by
          refine get?_eq_none_iff.mpr fun g' hg' hkey => ?_
          have hmg := hsource g' hg' g hg hkey
          simp [mergedGrant, hD, hs] at hmg
        simp [ownerAt, hgone, hD]
    · obtain ⟨g', hmg, hg'⟩ := mergedGrant_of_ne (S := S) (t := t₀) hD
      simpa [hD, hg', owner] using hkept hmg

theorem restoreGrantRow_key_owner (merged : List OidcGrantMerged) (g : OidcGrant) :
    key (restoreGrantRow S merged g) = key g ∧
      (restoreGrantRow S merged g).userId = g.userId := by
  unfold restoreGrantRow
  induction merged generalizing g with
  | nil => exact ⟨rfl, rfl⟩
  | cons mg merged ih =>
    rw [List.foldl_cons]
    split_ifs
    · exact ih { g with fields := mg.survivorPrev }
    · exact ih g

/-- Moving grants back by client and splitting the unioned ones undoes the merge of
the grants. -/
theorem undoes_grants (h₀ : Consistent t₀) (ht : Consistent t) (hne : S ≠ D)
    {t₂ t' : List OidcGrant} (hback : moveGrantsBack S D (grantPlan S D t₀).moved t = .ok t₂)
    (hsplit : splitGrants S D (grantPlan S D t₀).merged t₂ = .ok t') :
    Undoes t₀ (mergedGrants S D t₀) t t' := by
  intro hintact
  have hhand := handover_mergedGrants h₀ hne
  have ht₂ : Consistent t₂ := ht.of_moveSlots hback
  obtain ⟨hcons, rfl⟩ := (splitGrants_eq_ok_iff hne ht₂).mp hsplit
  rw [grantPlan_merged_donorGrant] at hcons ⊢
  obtain rfl := eq_of_moveSlots_eq_ok hne hback
  have hmovedKey : ∀ g₀ ∈ t₀, g₀.userId = D → at? t₀ S g₀.clientId = none →
      ∃ r ∈ t, key r = key g₀ ∧ r.userId = S := by
    intro g₀ hg₀ hD hnone
    have hmem : key g₀ ∈ movedGrantKeys S D t₀ := mem_movedGrantKeys.mpr ⟨g₀, hg₀, hD, hnone, rfl⟩
    have hkept : key g₀ ∉ (findMany (grantCollides S D t₀) t₀).map key := by
      rw [h₀.key_mem_findMany hg₀]
      intro hcol
      exact (of_decide_eq_true hcol).2 hnone
    have hafter := hhand.after (key g₀)
    rw [if_neg hkept, if_pos hmem] at hafter
    have hnow := hintact (key g₀) (by
      rw [hafter, hhand.before, hhand.moved_owner _ hmem, ne_eq, Option.some_inj]
      exact hne.symm)
    rw [hafter] at hnow
    obtain ⟨r, hr, hS⟩ := Option.bind_eq_some_iff.mp hnow
    exact ⟨r, mem_of_get? hr, key_of_get? hr, Option.some_inj.mp hS⟩
  have hfields : ownerAt (restoreGrantFields S (grantPlan S D t₀).merged
      (handOver S D (grantPlan S D t₀).moved t) ++ findMany (grantCollides S D t₀) t₀) =
      ownerAt (handOver S D (grantPlan S D t₀).moved t ++ findMany (grantCollides S D t₀) t₀) := by
    rw [restoreGrantFields_eq_map]
    exact ownerAt_map_append (fun g => (restoreGrantRow_key_owner _ g).1)
      fun g => congrArg some (restoreGrantRow_key_owner _ g).2
  rw [hfields]
  refine hhand.undone (fun r hr hp => ?_) (fun r hr hkey hS => ?_) hcons hintact
  · obtain ⟨hrS, hrc⟩ := of_decide_eq_true hp
    obtain ⟨hDc, hSc⟩ := mem_grantPlan_moved.mp hrc
    obtain ⟨g₀, hg₀⟩ := Option.ne_none_iff_exists'.mp hDc
    obtain ⟨hg₀, hD, hc⟩ := at?_mem hg₀
    have hnone : at? t₀ S g₀.clientId = none := by rwa [show g₀.clientId = slot r from hc]
    obtain ⟨r', hr', hkey, hr'S⟩ := hmovedKey g₀ hg₀ hD hnone
    have hslot : slot r' = slot r := (congrArg Prod.snd hkey).trans hc
    rw [ht.eq_of_slot_eq hr hr' (hrS.trans hr'S.symm) hslot.symm, hkey]
    exact mem_movedGrantKeys.mpr ⟨g₀, hg₀, hD, hnone, rfl⟩
  · obtain ⟨g₀, hg₀, hD, hnone, hk⟩ := mem_movedGrantKeys.mp hkey
    have hclient : g₀.clientId = r.clientId := congrArg Prod.snd hk
    refine decide_eq_true ⟨Option.some_inj.mp hS, mem_grantPlan_moved.mpr ⟨?_, ?_⟩⟩
    · intro hDnone
      exact at?_eq_none_iff.mp hDnone g₀ hg₀ hD hclient
    · rwa [show slot r = g₀.clientId from hclient.symm]

end OidcGrant

/-! ### Subject overrides -/

section SubjectOverride

variable {t t₀ t₂ : List SubjectOverride} {created : List SubAtClient} {c : ClientId}

/-- The subject an override gives an account at a client. -/
def overrideAt (t : List SubjectOverride) (slot : UserId × ClientId) : Option String :=
  (at? t slot.1 slot.2).map (·.sub)

/-- The rows a merge inserts. -/
def createdRows (S : UserId) (created : List SubAtClient) : List SubjectOverride :=
  created.map fun ov => ⟨S, ov.clientId, ov.sub⟩

theorem at?_createdRows_of_ne {u : UserId} (hu : u ≠ S) :
    at? (createdRows S created) u c = none := by
  refine at?_eq_none_iff.mpr fun o ho hou _ => hu ?_
  obtain ⟨ov, -, rfl⟩ := List.mem_map.mp ho
  exact hou.symm

theorem of_at?_createdRows {u : UserId} {o : SubjectOverride}
    (h : at? (createdRows S created) u c = some o) : u = S ∧ ⟨c, o.sub⟩ ∈ created := by
  obtain ⟨ho, hou, hoc⟩ := at?_mem h
  obtain ⟨ov, hov, rfl⟩ := List.mem_map.mp ho
  obtain rfl : ov.clientId = c := hoc
  exact ⟨hou.symm, hov⟩

/-- Removing the created overrides leaves a slot alone for which nothing was created. -/
theorem at?_deleteCreated_of_not_mem {u : UserId} (hc : at? (createdRows S created) u c = none) :
    at? (deleteCreatedOverrides S created t) u c = at? t u c := by
  rw [deleteCreatedOverrides_eq]
  apply at?_deleteMany_of_spared
  intro o _ hin
  obtain ⟨hou, hoc⟩ := inSlot_eq_true.mp hin
  rw [decide_eq_false_iff_not]
  rintro ⟨hoS, hcr⟩
  exact at?_eq_none_iff.mp hc ⟨S, _, _⟩ (List.mem_map.mpr ⟨_, hcr, rfl⟩) (hoS.symm.trans hou) hoc

theorem at?_deleteCreated_of_none {u : UserId} (h : at? t u c = none) :
    at? (deleteCreatedOverrides S created t) u c = none := by
  rw [deleteCreatedOverrides_eq, at?_eq_none_iff]
  intro o ho hou hoc
  exact at?_eq_none_iff.mp h o (mem_deleteMany.mp ho).1 hou hoc

/-- It empties a slot that holds what was created. -/
theorem at?_deleteCreated_of_mem (ht : Consistent t) {o : SubjectOverride}
    (ho : at? t S c = some o) (hcr : ⟨c, o.sub⟩ ∈ created) :
    at? (deleteCreatedOverrides S created t) S c = none := by
  rw [deleteCreatedOverrides_eq]
  apply at?_deleteMany_of_hit
  intro o' ho' hin
  have hslot := (at?_eq_some_iff ht).mpr ⟨ho', inSlot_eq_true.mp hin⟩
  obtain rfl : o = o' := Option.some_inj.mp (ho.symm.trans hslot)
  obtain ⟨hoS, hoc⟩ := inSlot_eq_true.mp hin
  obtain rfl : o.clientId = c := hoc
  exact decide_eq_true ⟨hoS, hcr⟩

/-- The merge of the overrides as a change. -/
def overrideChange (S D : UserId) (t₀ : List SubjectOverride) (created : List SubAtClient) :
    Change (UserId × ClientId) (Option String) :=
  ⟨overrideAt t₀, overrideAt (movedOverrides S D t₀ ++ createdRows S created)⟩

/-- Where the donor's override moved, the survivor has it now, and the donor has none. -/
theorem overrideChange_moved (created : List SubAtClient) (h₀ : Consistent t₀) (hne : S ≠ D)
    {d : SubjectOverride} (hD : at? t₀ D c = some d) (hS : at? t₀ S c = none) :
    (overrideChange S D t₀ created).after (S, c) = some d.sub ∧
      (overrideChange S D t₀ created).after (D, c) = none := by
  have hc : c ∈ movedClients S D t₀ := mem_movedClients.mpr ⟨by simp [hD], hS⟩
  simp only [overrideChange, overrideAt, at?_append]
  rw [at?_movedOverrides h₀, hS, hD, movedOverrides_eq, at?_handOver_self hne.symm hc,
    at?_createdRows_of_ne hne.symm]
  exact ⟨rfl, rfl⟩

/-- Where no override of the donor moved, or for another account, the merge only inserts. -/
theorem overrideChange_kept (created : List SubAtClient) {u : UserId}
    (h : c ∉ movedClients S D t₀ ∨ u ≠ S ∧ u ≠ D) :
    (overrideChange S D t₀ created).after (u, c) =
      (overrideAt t₀ (u, c)).or (overrideAt (createdRows S created) (u, c)) := by
  have hkept : at? (movedOverrides S D t₀) u c = at? t₀ u c := by
    rw [movedOverrides_eq]
    rcases h with hc | ⟨hS, hD⟩
    · exact at?_handOver_of_not_mem hc
    · exact at?_handOver_of_ne hD hS
  simp only [overrideChange, overrideAt, at?_append, hkept]
  cases at? t₀ u c <;> rfl

/-- Moving overrides back by client and removing the created ones undoes the merge
of the overrides. -/
theorem undone_overrides (h₀ : Consistent t₀) (ht : Consistent t) (hne : S ≠ D)
    (hunused : ∀ ov ∈ created, ov.clientId ∉ overrideClients S t₀)
    (hback : moveOverridesBack S D (movedClients S D t₀) t = .ok t₂)
    (hintact : (overrideChange S D t₀ created).Intact (overrideAt t)) :
    (overrideChange S D t₀ created).Undone (overrideAt t)
      (overrideAt (deleteCreatedOverrides S created t₂)) := by
  have ht₂ : Consistent t₂ := ht.of_moveSlots hback
  obtain rfl := eq_of_moveSlots_eq_ok hne hback
  rw [Change.undone_iff]
  rintro ⟨u, c⟩
  by_cases hc : c ∈ movedClients S D t₀ ∧ (u = S ∨ u = D)
  · -- The override goes back from the survivor to the donor.
    obtain ⟨hc, hu⟩ := hc
    obtain ⟨hD, hS⟩ := mem_movedClients.mp hc
    obtain ⟨d, hd⟩ := Option.ne_none_iff_exists'.mp hD
    obtain ⟨hafterS, hafterD⟩ := overrideChange_moved created h₀ hne hd hS
    have hbeforeS : (overrideChange S D t₀ created).before (S, c) = none := by
      simp [overrideChange, overrideAt, hS]
    have hbeforeD : (overrideChange S D t₀ created).before (D, c) = some d.sub := by
      simp [overrideChange, overrideAt, hd]
    rcases hu with rfl | rfl
    · rw [hafterS, hbeforeS, overrideAt, at?_deleteCreated_of_none (at?_handOver_self hne hc)]
      exact .inr ⟨by simp, rfl⟩
    · have hnow := hintact (S, c) (by simp [hafterS, hbeforeS])
      obtain ⟨o, ho, hsub⟩ := Option.map_eq_some_iff.mp (hnow.trans hafterS)
      rw [hafterD, hbeforeD, overrideAt, at?_deleteCreated_of_not_mem
        (at?_createdRows_of_ne hne.symm), at?_handOver_target ht₂ hc ho]
      exact .inr ⟨by simp, congrArg some hsub⟩
  · have hkept : c ∉ movedClients S D t₀ ∨ u ≠ S ∧ u ≠ D := by
      rwa [not_and_or, not_or] at hc
    have hmoved : at? (handOver S D (movedClients S D t₀) t) u c = at? t u c := by
      rcases hkept with hc | ⟨hS, hD⟩
      · exact at?_handOver_of_not_mem hc
      · exact at?_handOver_of_ne hS hD
    have hafter := overrideChange_kept created hkept
    cases hcr : at? (createdRows S created) u c with
    | none =>
      rw [hafter]
      simp [overrideAt, hcr, overrideChange, at?_deleteCreated_of_not_mem hcr, hmoved]
    | some o =>
      obtain ⟨rfl, hmem⟩ := of_at?_createdRows hcr
      have hnone : at? t₀ u c = none := by
        by_contra hsome
        exact hunused _ hmem (mem_overrideClients.mpr hsome)
      have hbefore : (overrideChange u D t₀ created).before (u, c) = none := by
        simp [overrideChange, overrideAt, hnone]
      replace hafter : (overrideChange u D t₀ created).after (u, c) = some o.sub := by
        simp [hafter, overrideAt, hnone, hcr]
      have hnow := hintact (u, c) (by simp [hafter, hbefore])
      obtain ⟨o', ho', hsub⟩ := Option.map_eq_some_iff.mp (hnow.trans hafter)
      rw [hafter, hbefore, overrideAt,
        at?_deleteCreated_of_mem ht₂ (hmoved.trans ho') (hsub ▸ hmem)]
      exact .inr ⟨by simp, rfl⟩

end SubjectOverride

/-! ### All tables together -/

/-- A row that is followed by its key, or the override slot of an account. -/
inductive Holding
  | badge (id : String)
  | userEmail (id : String)
  | authenticator (credentialID : String)
  | account (providerAccount : String × String)
  | session (sessionToken : String)
  | oidcAccessToken (jti : String)
  | shareLink (id : String)
  | eligibility (id : String)
  | inviteRedemption (id : String)
  | oidcGrant (grant : String × ClientId)
  | subjectOverride (slot : UserId × ClientId)

/-- The owner of a row, or the subject in an override slot. -/
def holdings (db : Db) : Holding → Option String
  | .badge id => ownerAt db.badge id
  | .userEmail id => ownerAt db.userEmail id
  | .authenticator credentialID => ownerAt db.authenticator credentialID
  | .account providerAccount => ownerAt db.account providerAccount
  | .session sessionToken => ownerAt db.session sessionToken
  | .oidcAccessToken jti => ownerAt db.oidcAccessToken jti
  | .shareLink id => ownerAt db.shareLink id
  | .eligibility id => ownerAt db.eligibility id
  | .inviteRedemption id => ownerAt db.inviteRedemption id
  | .oidcGrant grant => ownerAt db.oidcGrant grant
  | .subjectOverride slot => overrideAt db.subjectOverride slot

section Tables

variable {db db₀ : Db} {survivor donor : User} {now now' : Timestamp} {recordId : String}
  {subs : List SubAtClient}

/-- The change a merge makes. -/
def mergeChange (survivor donor : User) (now : Timestamp) (recordId : String)
    (subs : List SubAtClient) (db : Db) : Change Holding (Option String) :=
  ⟨holdings db, holdings (mergedDb survivor donor now recordId subs db)⟩

section Reversed

variable {el : List Eligibility} {ir : List InviteRedemption} {so : List SubjectOverride}
  {gr : List OidcGrant} (h₀ : db₀.Consistent) (hne : survivor.id ≠ donor.id)
  (htables : ReversedTables (mergeSnapshot survivor donor now subs db₀) db el ir so gr)

include h₀ hne htables

theorem undoes_eligibility : Undoes db₀.eligibility
    (mergedDb survivor donor now recordId subs db₀).eligibility db.eligibility el := by
  obtain ⟨t, hstore, hcreates⟩ := htables.eligibility
  obtain ⟨hmoved, hdeleted⟩ := mergeSnapshot_eligibility now subs h₀ hne
  rw [hmoved] at hstore
  rw [hdeleted, recreateEligibilities_map, stmt_eq_ok_iff] at hcreates
  refine undoes_resolved h₀.eligibility hne
    (fun e he => mem_of_mem_eligibilityLosers h₀.eligibility he)
    (ownerAt_of_mem_findMany h₀.eligibility fun e he => ?_) hstore hcreates
  exact congrArg some (of_decide_eq_true he).1

theorem undoes_inviteRedemption : Undoes db₀.inviteRedemption
    (mergedDb survivor donor now recordId subs db₀).inviteRedemption db.inviteRedemption ir := by
  obtain ⟨t, hstore, hcreates⟩ := htables.inviteRedemption
  obtain ⟨hmoved, hdeleted⟩ := mergeSnapshot_redemption now subs survivor donor db₀
  rw [hmoved] at hstore
  rw [hdeleted, recreateRedemptions_map, stmt_eq_ok_iff] at hcreates
  refine undoes_resolved h₀.inviteRedemption hne (fun r hr => mem_of_mem_redemptionLosers hr)
    (ownerAt_of_mem_findMany h₀.inviteRedemption fun r hr => ?_) hstore hcreates
  exact congrArg some (of_decide_eq_true hr).1

/-- The tables an accepted reversal leaves undo the change of an intact merge. -/
theorem undone_reversedTables (hdb : db.Consistent) {mergeRecordId : String}
    {entries : List NullifierEntry}
    (hintact : (mergeChange survivor donor now recordId subs db₀).Intact (holdings db)) :
    (mergeChange survivor donor now recordId subs db₀).Undone (holdings db)
      (holdings { reversedDb mergeRecordId (mergeSnapshot survivor donor now subs db₀) now' db with
        eligibility := el, inviteRedemption := ir, subjectOverride := so, oidcGrant := gr,
        nullifierEntry := entries }) := by
  refine Change.undone_iff.mpr fun c => ?_
  cases c with
  | badge id =>
    exact Change.undone_iff.mp
      (undoes_moveBack h₀.badge hdb.badge hne fun k => hintact (.badge k)) id
  | userEmail id =>
    exact Change.undone_iff.mp
      (undoes_userEmail _ h₀.userEmail hdb.userEmail hne fun k => hintact (.userEmail k)) id
  | authenticator id =>
    exact Change.undone_iff.mp (undoes_authenticators h₀.authenticator hdb.authenticator hne
      fun k => hintact (.authenticator k)) id
  | account id =>
    exact Change.undone_iff.mp
      (undoes_moveBack h₀.account hdb.account hne fun k => hintact (.account k)) id
  | session id =>
    exact Change.undone_iff.mp
      (undoes_moveBack h₀.session hdb.session hne fun k => hintact (.session k)) id
  | oidcAccessToken id =>
    exact Change.undone_iff.mp (undoes_moveBack h₀.oidcAccessToken hdb.oidcAccessToken hne
      fun k => hintact (.oidcAccessToken k)) id
  | shareLink id =>
    exact Change.undone_iff.mp
      (undoes_moveBack h₀.shareLink hdb.shareLink hne fun k => hintact (.shareLink k)) id
  | eligibility id =>
    exact Change.undone_iff.mp
      (undoes_eligibility h₀ hne htables fun k => hintact (.eligibility k)) id
  | inviteRedemption id =>
    exact Change.undone_iff.mp
      (undoes_inviteRedemption h₀ hne htables fun k => hintact (.inviteRedemption k)) id
  | oidcGrant id =>
    obtain ⟨g₂, hback, hsplit⟩ := htables.oidcGrant
    exact Change.undone_iff.mp (undoes_grants h₀.oidcGrant hdb.oidcGrant hne hback hsplit
      fun k => hintact (.oidcGrant k)) id
  | subjectOverride slot =>
    obtain ⟨so₂, hback, rfl⟩ := htables.subjectOverride
    exact Change.undone_iff.mp (undone_overrides h₀.subjectOverride hdb.subjectOverride hne
      (fun ov hov => not_mem_overrideClients_of_created now subs donor hov) hback
      fun k => hintact (.subjectOverride k)) slot

end Reversed

end Tables

/-! ### Runs of merges and reversals -/

/-- What a merge that is not reversed yet changed. -/
structure Entry where
  recordId : String
  change : Change Holding (Option String)

/-- The database, and the merges not reversed yet. -/
structure History where
  db : Db
  log : List Entry

/-- A merge that commits, or a reversal that is accepted. -/
inductive Op
  | merge (inputs : MergeInputs) (survivorUserId donorUserId : UserId)
  | reverse (mergeRecordId : String) (now : Timestamp)

def step (pairwise : UserId → ClientId → String) (h : History) : Op → Option History
  | .merge inputs survivorUserId donorUserId =>
    match mergeAccounts pairwise inputs survivorUserId donorUserId h.db with
    | .ok (db, _) => some ⟨db, ⟨inputs.recordId, ⟨holdings h.db, holdings db⟩⟩ :: h.log⟩
    | .error _ => none
  | .reverse mergeRecordId now =>
    match reverseMerge mergeRecordId now h.db with
    | .ok (db, .ok _ _) => some ⟨db, h.log.filter fun e => e.recordId ≠ mergeRecordId⟩
    | _ => none

/-- A reversal finds everything its merge touched as the merge left it. -/
def ReversesIntact (h : History) : Op → Prop
  | .merge .. => True
  | .reverse mergeRecordId _ =>
    ∀ e ∈ h.log, e.recordId = mergeRecordId → e.change.Intact (holdings h.db)

/-- The snapshot is the one the merge that made the change took. -/
def Recorded (snap : MergeSnapshot) (change : Change Holding (Option String)) : Prop :=
  ∃ survivor donor now recordId subs db₀, Db.Consistent db₀ ∧ survivor.id ≠ donor.id ∧
    snap = mergeSnapshot survivor donor now subs db₀ ∧
    change = mergeChange survivor donor now recordId subs db₀

/-- The log is the unreversed records, each with its change, and balances. -/
structure Accounted (v₀ : Holding → Option String) (h : History) : Prop where
  consistent : h.db.Consistent
  balanced : Balanced v₀ (h.log.map (·.change)) (holdings h.db)
  nodup : (h.log.map (·.recordId)).Nodup
  logged : ∀ m ∈ h.db.mergeRecord, m.reversedAt = none →
    ∃ e ∈ h.log, e.recordId = m.id ∧ Recorded m.snapshot e.change
  unreversed : ∀ e ∈ h.log, ∃ m ∈ h.db.mergeRecord, m.id = e.recordId ∧ m.reversedAt = none

section Runs

variable {pairwise : UserId → ClientId → String} {v₀ : Holding → Option String}
  {h h' : History}

theorem holdings_settledDb {survivor donor : User} {now : Timestamp} {recordId : String}
    {subs : List SubAtClient} {p : User → Bool} {candidate : String}
    {entries : List NullifierEntry} {db : Db} :
    holdings (settledDb survivor donor now recordId subs p candidate entries db) =
      holdings (mergedDb survivor donor now recordId subs db) := by
  funext c
  cases c <;> rfl

theorem accounted_merge {inputs : MergeInputs} {S D : UserId} (hacc : Accounted v₀ h)
    (hstep : step pairwise h (.merge inputs S D) = some h') : Accounted v₀ h' := by
  simp only [step] at hstep
  split at hstep <;> cases hstep
  rename_i db summary hmerge
  obtain ⟨hne, survivor, donor, p, entries, hready, -, hdb, hcons⟩ :=
    settledDb_of_mergeAccounts hacc.consistent hmerge
  obtain ⟨rfl, rfl⟩ := hready.ids
  have hrecords : db.mergeRecord = h.db.mergeRecord ++ [newMergeRecord inputs.recordId
      inputs.now (mergeSnapshot survivor donor inputs.now
        (precomputeSubs pairwise donor.id h.db) h.db)] := by
    rw [hdb]
    rfl
  have hnew : Recorded (mergeSnapshot survivor donor inputs.now
      (precomputeSubs pairwise donor.id h.db) h.db) ⟨holdings h.db, holdings db⟩ := by
    refine ⟨survivor, donor, inputs.now, inputs.recordId, _, h.db, hacc.consistent, hne, rfl, ?_⟩
    rw [hdb, holdings_settledDb]
    rfl
  have hfresh : inputs.recordId ∉ h.log.map (·.recordId) := by
    intro hmem
    obtain ⟨e, he, heq⟩ := List.mem_map.mp hmem
    obtain ⟨m, hm, hid, -⟩ := hacc.unreversed e he
    exact hready.recordId_fresh m hm (hid.trans heq)
  refine ⟨hcons, hacc.balanced.apply, List.nodup_cons.mpr ⟨hfresh, hacc.nodup⟩, ?_, ?_⟩
  · intro m hm hopen
    simp only [hrecords] at hm
    rcases List.mem_append.mp hm with hm | hm
    · obtain ⟨e, he, hid, hrec⟩ := hacc.logged m hm hopen
      exact ⟨e, List.mem_cons_of_mem _ he, hid, hrec⟩
    · obtain rfl := List.mem_singleton.mp hm
      exact ⟨_, List.mem_cons_self, rfl, hnew⟩
  · intro e he
    simp only [hrecords]
    rcases List.mem_cons.mp he with rfl | he
    · exact ⟨_, List.mem_append_right _ List.mem_cons_self, rfl, rfl⟩
    · obtain ⟨m, hm, hid⟩ := hacc.unreversed e he
      exact ⟨m, List.mem_append_left _ hm, hid⟩

/-- Taking one entry out of a log without repeated records. -/
theorem perm_cons_filter {log : List Entry} (hnd : (log.map (·.recordId)).Nodup) {e : Entry}
    (he : e ∈ log) : log.Perm (e :: log.filter fun e' => e'.recordId ≠ e.recordId) := by
  induction log with
  | nil => cases he
  | cons e₁ log ih =>
    obtain ⟨hfresh, hnd⟩ := List.nodup_cons.mp hnd
    rcases List.mem_cons.mp he with rfl | he
    · have hself : (log.filter fun e' => e'.recordId ≠ e.recordId) = log := by
        refine List.filter_eq_self.mpr fun e' he' => decide_eq_true fun heq => hfresh ?_
        exact List.mem_map.mpr ⟨e', he', heq⟩
      rw [List.filter_cons_of_neg (by simp), hself]
    · have hne : e₁.recordId ≠ e.recordId := by
        intro heq
        exact hfresh (List.mem_map.mpr ⟨e, he, heq.symm⟩)
      rw [List.filter_cons_of_pos (by simpa using hne)]
      exact ((ih hnd he).cons e₁).trans (.swap ..)

theorem accounted_reverse {mergeRecordId : String} {now : Timestamp} (hacc : Accounted v₀ h)
    (hintact : ReversesIntact h (.reverse mergeRecordId now))
    (hstep : step pairwise h (.reverse mergeRecordId now) = some h') : Accounted v₀ h' := by
  simp only [step] at hstep
  split at hstep <;> cases hstep
  rename_i db n k hreverse
  obtain ⟨hcons, record, hfound, hopen, htables⟩ :=
    reversedTables_of_reverseMerge hacc.consistent hreverse
  have hmem : record ∈ h.db.mergeRecord := List.mem_of_find?_eq_some hfound
  have hid : record.id = mergeRecordId := by simpa using List.find?_some hfound
  obtain ⟨e, he, heid, survivor, donor, now₀, recordId, subs, db₀, h₀, hne, hsnap, hchange⟩ :=
    hacc.logged record hmem hopen
  rw [hsnap] at htables
  obtain ⟨el, ir, so, gr, entries, htab, hdb⟩ := htables hne
  have hint : e.change.Intact (holdings h.db) := hintact e he (heid.trans hid)
  have hundone : e.change.Undone (holdings h.db) (holdings db) := by
    rw [hchange] at hint ⊢
    rw [hdb]
    exact undone_reversedTables h₀ hne htab hacc.consistent hint
  have hrecords : db.mergeRecord = mapWhere (fun r => r.id = mergeRecordId)
      (fun r => { r with reversedAt := some now }) h.db.mergeRecord := by
    rw [hdb]
    rfl
  have hperm := perm_cons_filter hacc.nodup he
  rw [heid, hid] at hperm
  refine ⟨hcons, ?_, ?_, ?_, ?_⟩
  · exact (hacc.balanced.perm (hperm.map _)).undo hint hundone
  · exact hacc.nodup.sublist (List.filter_sublist.map _)
  · intro m hm hopen'
    simp only [hrecords] at hm
    obtain ⟨m₀, hm₀, rfl⟩ := mem_mapWhere.mp hm
    by_cases hm₀id : m₀.id = mergeRecordId
    · simp [hm₀id] at hopen'
    · simp only [hm₀id, decide_false, Bool.false_eq_true, if_false] at hopen' ⊢
      obtain ⟨e', he', hid', hrec⟩ := hacc.logged m₀ hm₀ hopen'
      refine ⟨e', List.mem_filter.mpr ⟨he', decide_eq_true ?_⟩, hid', hrec⟩
      rwa [hid']
  · intro e' he'
    obtain ⟨he', hother⟩ := List.mem_filter.mp he'
    obtain ⟨m, hm, hmid, hmopen⟩ := hacc.unreversed e' he'
    simp only [hrecords]
    refine ⟨m, mem_mapWhere.mpr ⟨m, hm, if_neg ?_⟩, hmid, hmopen⟩
    simpa [hmid] using hother

/-- Every row is there, with the owner it had. -/
def Kept {R K : Type} [Owned R UserId K] (t t' : List R) : Prop :=
  ∀ r ∈ t, ∃ r' ∈ t', key r' = key r ∧ owner r' = owner r

theorem kept_of_ownerAt {R K : Type} [Owned R UserId K] [DecidableEq K] {t t' : List R}
    (ht : Consistent t) (hall : ∀ r ∈ t, owner r ≠ none)
    (heq : ∀ k, ownerAt t' k = ownerAt t k) : Kept t t' := by
  intro r hr
  obtain ⟨u, hu⟩ := Option.ne_none_iff_exists'.mp (hall r hr)
  have hnow := (heq (key r)).trans ((ownerAt_of_mem ht hr).trans hu)
  obtain ⟨r', hr', hu'⟩ := Option.bind_eq_some_iff.mp hnow
  exact ⟨r', mem_of_get? hr', key_of_get? hr', hu'.trans hu.symm⟩

/-- Every row and every override of `db` belongs in `db'` to the same account. -/
structure SameOwners (db db' : Db) : Prop where
  badge : Kept db.badge db'.badge
  userEmail : Kept db.userEmail db'.userEmail
  authenticator : Kept db.authenticator db'.authenticator
  account : Kept db.account db'.account
  session : Kept db.session db'.session
  oidcAccessToken : Kept db.oidcAccessToken db'.oidcAccessToken
  oidcGrant : Kept db.oidcGrant db'.oidcGrant
  eligibility : Kept db.eligibility db'.eligibility
  inviteRedemption : Kept db.inviteRedemption db'.inviteRedemption
  shareLink : Kept db.shareLink db'.shareLink
  subjectOverride : ∀ o ∈ db.subjectOverride, o ∈ db'.subjectOverride

theorem sameOwners_of_holdings {db db' : Db} (hdb : db.Consistent)
    (heq : holdings db' = holdings db) : SameOwners db db' where
  badge := kept_of_ownerAt hdb.badge (by simp [owner]) fun k => congrFun heq (.badge k)
  userEmail := kept_of_ownerAt hdb.userEmail (by simp [owner]) fun k => congrFun heq (.userEmail k)
  authenticator := kept_of_ownerAt hdb.authenticator (by simp [owner])
    fun k => congrFun heq (.authenticator k)
  account := kept_of_ownerAt hdb.account (by simp [owner]) fun k => congrFun heq (.account k)
  session := kept_of_ownerAt hdb.session (by simp [owner]) fun k => congrFun heq (.session k)
  oidcAccessToken := kept_of_ownerAt hdb.oidcAccessToken (by simp [owner])
    fun k => congrFun heq (.oidcAccessToken k)
  oidcGrant := kept_of_ownerAt hdb.oidcGrant (by simp [owner]) fun k => congrFun heq (.oidcGrant k)
  eligibility := kept_of_ownerAt hdb.eligibility (by simp [owner])
    fun k => congrFun heq (.eligibility k)
  inviteRedemption := kept_of_ownerAt hdb.inviteRedemption (by simp [owner])
    fun k => congrFun heq (.inviteRedemption k)
  shareLink := kept_of_ownerAt hdb.shareLink (by simp [owner]) fun k => congrFun heq (.shareLink k)
  subjectOverride := by
    intro o ho
    have hbefore : at? db.subjectOverride o.userId o.clientId = some o :=
      (at?_eq_some_iff hdb.subjectOverride).mpr ⟨ho, rfl, rfl⟩
    have hnow := congrFun heq (.subjectOverride (o.userId, o.clientId))
    simp only [holdings, overrideAt, hbefore, Option.map_some] at hnow
    obtain ⟨o', ho', hsub⟩ := Option.map_eq_some_iff.mp hnow
    obtain ⟨hmem, hu, hc⟩ := at?_mem ho'
    have hsame : o' = o := by
      cases o
      cases o'
      simp_all [holder, slot]
    exact hsame ▸ hmem

/-- Merges and accepted reversals in any order: once every merge record has been
reversed, each while everything its merge touched was as the merge left it, every row
belongs to the account that owned it at the start. -/
theorem sameOwners_of_run {db : Db} {ops : List Op} (hdb : db.Consistent)
    (hold : ∀ m ∈ db.mergeRecord, m.reversedAt ≠ none)
    (hrun : run (step pairwise) ⟨db, []⟩ ops = some h)
    (hintact : Along (step pairwise) ReversesIntact ⟨db, []⟩ ops)
    (hdone : ∀ m ∈ h.db.mergeRecord, m.reversedAt ≠ none) : SameOwners db h.db := by
  have hstart : Accounted (holdings db) ⟨db, []⟩ := by
    refine ⟨hdb, Balanced.refl _, List.nodup_nil, ?_, by simp⟩
    intro m hm hopen
    exact absurd hopen (hold m hm)
  have hend : Accounted (holdings db) h := by
    apply run_invariant (Accounted (holdings db)) ?_ hstart hintact hrun
    intro h₁ op h₂ hacc hok hstep
    cases op with
    | merge inputs S D => exact accounted_merge hacc hstep
    | reverse mergeRecordId now => exact accounted_reverse hacc hok hstep
  have hlog : h.log = [] := by
    rw [List.eq_nil_iff_forall_not_mem]
    intro e he
    obtain ⟨m, hm, -, hopen⟩ := hend.unreversed e he
    exact hdone m hm hopen
  have hbalanced := hend.balanced
  rw [hlog] at hbalanced
  exact sameOwners_of_holdings hdb hbalanced.eq

end Runs

/-- Three accounts, one of them with a badge. -/
def chainDb : Db where
  user := [liveUser "A" none, liveUser "B" none, liveUser "C" none]
  badge := [⟨"b1", "B", "oauth-account", none, none⟩]

/-- `B` into `A`, then `A` into `C`. -/
def chainMerges : List Op :=
  [.merge ⟨0, "m1", "h1"⟩ "A" "B", .merge ⟨0, "m2", "h2"⟩ "C" "A"]

theorem chain_lastFirst : ∃ h,
    run (step markedPairwise) ⟨chainDb, []⟩ (chainMerges ++ [.reverse "m2" 1, .reverse "m1" 1]) =
      some h ∧ SameOwners chainDb h.db := by
  have hdb : chainDb.Consistent := by constructor <;> decide
  have hrun : run (step markedPairwise) ⟨chainDb, []⟩
      (chainMerges ++ [.reverse "m2" 1, .reverse "m1" 1]) = some _ := rfl
  refine ⟨_, hrun, sameOwners_of_run hdb (by decide) hrun ?_ (by decide)⟩
  refine ⟨trivial, fun h₁ hs₁ => ⟨trivial, fun h₂ hs₂ =>
    ⟨?_, fun h₃ hs₃ => ⟨?_, fun _ _ => trivial⟩⟩⟩⟩
  all_goals
    cases hs₁
    cases hs₂
  · -- The second merge has just been made.
    intro e he hid c _
    rcases List.mem_cons.mp he with rfl | he
    · rfl
    · obtain rfl := List.mem_singleton.mp he
      exact absurd hid (by decide)
  · -- With it undone, everything is as the first merge left it.
    cases hs₃
    intro e he _ c _
    obtain rfl := List.mem_singleton.mp he
    cases c <;> rfl

/-- Reversed first merge first, the badge of `B` ends up with `A`. -/
theorem chain_firstFirst : chainDb.Consistent ∧ ∃ h,
    run (step markedPairwise) ⟨chainDb, []⟩ (chainMerges ++ [.reverse "m1" 1, .reverse "m2" 1]) =
      some h ∧ (∀ m ∈ h.db.mergeRecord, m.reversedAt ≠ none) ∧
      h.db.badge = [⟨"b1", "A", "oauth-account", none, none⟩] ∧ ¬SameOwners chainDb h.db := by
  refine ⟨by constructor <;> decide, _, rfl, by decide, rfl, fun hsame => ?_⟩
  obtain ⟨b, hb, -, howner⟩ := hsame.badge ⟨"b1", "B", "oauth-account", none, none⟩ (by decide)
  obtain rfl := List.mem_singleton.mp hb
  exact absurd howner (by decide)

end Minister.Nesting
