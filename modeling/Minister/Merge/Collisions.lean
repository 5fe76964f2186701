import Minister.Merge.Subjects

/-!
# What a merge does where both accounts have a row

Eligibilities, redemptions and grants are unique per account and badge type, invite code or client.
Where both accounts have a row, `runMergeTx` keeps one of them or folds one into the other. This
module says what the survivor holds afterwards, whatever the two accounts held before.
-/

namespace Minister

open Relational

variable {S D : UserId}

section Either

variable {R C : Type} [Constrained R] [Slotted R UserId C] [DecidableEq C] {c : C} {t : List R}
  {r : R}

/-- The rows that either account has in a slot. -/
def ofEither (S D : UserId) (c : C) (t : List R) : List R :=
  findMany (fun r => inSlot S c r || inSlot D c r) t

theorem mem_ofEither (h : Consistent t) :
    r ∈ ofEither S D c t ↔ at? t S c = some r ∨ at? t D c = some r := by
  rw [ofEither, mem_findMany, Bool.or_eq_true, inSlot_eq_true, inSlot_eq_true, at?_eq_some_iff h,
    at?_eq_some_iff h, and_or_left]

end Either

theorem mem_resolved {R : Type} [Owned R UserId String] {deleted toMove : List String}
    {t : List R} {r' : R} : r' ∈ resolved deleted toMove S t ↔
      ∃ r ∈ t, key r ∉ deleted ∧ (if key r ∈ toMove then setOwner S r else r) = r' := by
  simp only [resolved, mem_mapWhere, mem_deleteMany, decide_eq_true_eq, decide_eq_false_iff_not,
    and_assoc]

/-! ### Eligibilities -/

section Eligibility

variable {t : List Eligibility}

/-- Of the two rows of a type, the one with the earlier date; the survivor's if they agree. -/
def earlier : Option Eligibility → Option Eligibility → Option Eligibility
  | none, d => d
  | some s, none => some s
  | some s, some d => some (if d.eligibleAt < s.eligibleAt then d else s)

/-- The rows that are deleted: the donor's, unless it is earlier, and then the survivor's. -/
theorem mem_eligibilityLosers_iff (h : Consistent t) {e : Eligibility} (he : e ∈ t) :
    e.id ∈ (eligibilityLosers S D t).map (·.id) ↔
      (e.userId = D ∧ ∃ s, at? t S e.badgeType = some s ∧ ¬e.eligibleAt < s.eligibleAt) ∨
        (e.userId = S ∧ ∃ d, at? t D e.badgeType = some d ∧ d.eligibleAt < e.eligibleAt) := by
  constructor
  · intro hmem
    obtain ⟨l, hl, hid⟩ := List.mem_map.mp hmem
    obtain rfl := h.eq_of_key_eq (mem_of_mem_eligibilityLosers h hl) he hid
    obtain ⟨d, hd, hloser⟩ := List.mem_filterMap.mp hl
    obtain ⟨s, hs, rfl⟩ := Option.map_eq_some_iff.mp hloser
    obtain ⟨hdt, hdD⟩ : d ∈ t ∧ d.userId = D := by simpa using mem_findMany.mp hd
    obtain ⟨hst, hsS, hsty⟩ := (at?_eq_some_iff h).mp hs
    split_ifs with hlt
    · exact .inr ⟨hsS, d, (at?_eq_some_iff h).mpr ⟨hdt, hdD, hsty.symm⟩, hlt⟩
    · exact .inl ⟨hdD, s, hs, hlt⟩
  · rintro (⟨hD, s, hs, hlt⟩ | ⟨hS, d, hd, hlt⟩)
    · refine List.mem_map_of_mem (List.mem_filterMap.mpr ⟨e, ?_, ?_⟩)
      · exact mem_findMany.mpr ⟨he, decide_eq_true hD⟩
      · rw [eligibilityLoserRow, hs, Option.map_some, if_neg hlt]
    · obtain ⟨hdt, hdD, hdty⟩ := (at?_eq_some_iff h).mp hd
      have hs : at? t S d.badgeType = some e := (at?_eq_some_iff h).mpr ⟨he, hS, hdty.symm⟩
      refine List.mem_map_of_mem (List.mem_filterMap.mpr ⟨d, ?_, ?_⟩)
      · exact mem_findMany.mpr ⟨hdt, decide_eq_true hdD⟩
      · rw [eligibilityLoserRow, hs, Option.map_some, if_pos hlt]

/-- The donor's row, if the survivor has none that is as early. -/
theorem at?_resolved_of_donor (h : Consistent t) (hne : S ≠ D) {d : Eligibility} {ty : String}
    (hd : at? t D ty = some d)
    (hfirst : ∀ s, at? t S ty = some s → d.eligibleAt < s.eligibleAt) :
    at? (resolved ((eligibilityLosers S D t).map (·.id)) (eligibilityMoved S D t) S t) S ty =
      some (setHolder S d) := by
  obtain ⟨hdt, hdD, rfl⟩ := (at?_eq_some_iff h).mp hd
  refine (at?_eq_some_iff (consistent_resolved_eligibility h)).mpr
    ⟨mem_resolved.mpr ⟨d, hdt, ?_, ?_⟩, rfl, rfl⟩
  · intro hlost
    rcases (mem_eligibilityLosers_iff h hdt).mp hlost with ⟨-, s, hs, hlt⟩ | ⟨hS, -⟩
    · exact hlt (hfirst s hs)
    · exact hne (hS.symm.trans hdD)
  · refine if_pos ((mem_eligibilityMoved h hdt).mpr ⟨hdD, ?_⟩)
    have hslot : slot d = d.badgeType := rfl
    rw [hslot] at hfirst
    cases hs : at? t S d.badgeType with
    | none => simp [eligibilityMoves, hs]
    | some s => simpa [eligibilityMoves, hs] using hfirst s hs

/-- The survivor's row, if the donor has none that is earlier. -/
theorem at?_resolved_of_survivor (h : Consistent t) (hne : S ≠ D) {s : Eligibility} {ty : String}
    (hs : at? t S ty = some s)
    (hfirst : ∀ d, at? t D ty = some d → ¬d.eligibleAt < s.eligibleAt) :
    at? (resolved ((eligibilityLosers S D t).map (·.id)) (eligibilityMoved S D t) S t) S ty =
      some s := by
  obtain ⟨hst, hsS, rfl⟩ := (at?_eq_some_iff h).mp hs
  refine (at?_eq_some_iff (consistent_resolved_eligibility h)).mpr
    ⟨mem_resolved.mpr ⟨s, hst, ?_, ?_⟩, hsS, rfl⟩
  · intro hlost
    rcases (mem_eligibilityLosers_iff h hst).mp hlost with ⟨hD, -⟩ | ⟨-, d, hd, hlt⟩
    · exact hne (hsS.symm.trans hD)
    · exact hfirst d hd hlt
  · exact if_neg fun hmoved => hne (hsS.symm.trans ((mem_eligibilityMoved h hst).mp hmoved).1)

/-- The survivor has no row for a type that neither account had one for. -/
theorem at?_resolved_of_neither (h : Consistent t) {ty : String} (hs : at? t S ty = none)
    (hd : at? t D ty = none) :
    at? (resolved ((eligibilityLosers S D t).map (·.id)) (eligibilityMoved S D t) S t) S ty =
      none := by
  refine at?_eq_none_iff.mpr fun e' he' hS hty => ?_
  obtain ⟨e, he, -, rfl⟩ := mem_resolved.mp he'
  by_cases hmoved : key e ∈ eligibilityMoved S D t
  · rw [if_pos hmoved] at hty
    exact at?_eq_none_iff.mp hd e he ((mem_eligibilityMoved h he).mp hmoved).1 hty
  · rw [if_neg hmoved] at hS hty
    exact at?_eq_none_iff.mp hs e he hS hty

/-- The survivor's eligibility for a type, after the merge. -/
theorem at?_resolved_eligibility (h : Consistent t) (hne : S ≠ D) (ty : String) :
    at? (resolved ((eligibilityLosers S D t).map (·.id)) (eligibilityMoved S D t) S t) S ty =
      (earlier (at? t S ty) (at? t D ty)).map (setHolder S) := by
  cases hs : at? t S ty with
  | none =>
    cases hd : at? t D ty with
    | none => exact at?_resolved_of_neither h hs hd
    | some d => exact at?_resolved_of_donor h hne hd (by simp [hs])
  | some s =>
    have hkeep : setHolder S s = s := by
      rw [← ((at?_eq_some_iff h).mp hs).2.1]
      exact Slotted.setHolder_holder s
    cases hd : at? t D ty with
    | none =>
      rw [earlier, Option.map_some, hkeep]
      exact at?_resolved_of_survivor h hne hs (by simp [hd])
    | some d =>
      rw [earlier, Option.map_some]
      split_ifs with hlt
      · exact at?_resolved_of_donor h hne hd fun s' hs' => by
          obtain rfl := Option.some.inj (hs.symm.trans hs')
          exact hlt
      · rw [hkeep]
        exact at?_resolved_of_survivor h hne hs fun d' hd' => by
          obtain rfl := Option.some.inj (hd.symm.trans hd')
          exact hlt

end Eligibility

/-! ### Redemptions -/

section InviteRedemption

variable {t : List InviteRedemption}

theorem mem_redemptionLosers_iff (h : Consistent t) {r : InviteRedemption} (hr : r ∈ t) :
    r.id ∈ (redemptionLosers S D t).map (·.id) ↔
      r.userId = D ∧ at? t S r.inviteCodeId ≠ none :=
  (h.key_mem_findMany hr).trans decide_eq_true_iff

/-- The survivor's redemption of a code, after the merge. -/
theorem at?_resolved_redemption (h : Consistent t) (hne : S ≠ D) (code : String) :
    at? (resolved ((redemptionLosers S D t).map (·.id)) (redemptionMoved S D t) S t) S code =
      ((at? t S code).or (at? t D code)).map (setHolder S) := by
  have hcons := consistent_resolved_redemption (S := S) (D := D) h
  cases hs : at? t S code with
  | some s =>
    obtain ⟨hst, hsS, rfl⟩ := (at?_eq_some_iff h).mp hs
    have hkeep : setHolder S s = s := by
      rw [← hsS]
      exact Slotted.setHolder_holder s
    rw [Option.some_or, Option.map_some, hkeep]
    refine (at?_eq_some_iff hcons).mpr ⟨mem_resolved.mpr ⟨s, hst, ?_, ?_⟩, hsS, rfl⟩
    · exact fun hlost => hne (hsS.symm.trans ((mem_redemptionLosers_iff h hst).mp hlost).1)
    · exact if_neg fun hmoved => hne (hsS.symm.trans ((mem_redemptionMoved h hst).mp hmoved).1)
  | none =>
    cases hd : at? t D code with
    | some d =>
      obtain ⟨hdt, hdD, rfl⟩ := (at?_eq_some_iff h).mp hd
      refine (at?_eq_some_iff hcons).mpr ⟨mem_resolved.mpr ⟨d, hdt, ?_, ?_⟩, rfl, rfl⟩
      · exact fun hlost => ((mem_redemptionLosers_iff h hdt).mp hlost).2 hs
      · exact if_pos ((mem_redemptionMoved h hdt).mpr ⟨hdD, hs⟩)
    | none =>
      refine at?_eq_none_iff.mpr fun r' hr' hS hcode => ?_
      obtain ⟨r, hr, -, rfl⟩ := mem_resolved.mp hr'
      by_cases hmoved : key r ∈ redemptionMoved S D t
      · rw [if_pos hmoved] at hcode
        exact at?_eq_none_iff.mp hd r hr ((mem_redemptionMoved h hr).mp hmoved).1 hcode
      · rw [if_neg hmoved] at hS hcode
        exact at?_eq_none_iff.mp hs r hr hS hcode

end InviteRedemption

/-! ### Grants -/

section OidcGrant

variable {t : List OidcGrant}

/-- The survivor's grant at a client that either account had one at, after the merge. -/
def unitedGrant : Option OidcGrant → Option OidcGrant → Option OidcGrant
  | none, d => d
  | some s, none => some s
  | some s, some d => some { s with fields := s.fields.union d.fields }

theorem at?_mergedGrants (h : Consistent t) (hne : S ≠ D) (clientId : ClientId) :
    at? (mergedGrants S D t) S clientId =
      (unitedGrant (at? t S clientId) (at? t D clientId)).map (setHolder S) := by
  have hcons := (mergeGrants_eq_ok h hne).2
  cases hs : at? t S clientId with
  | some s =>
    obtain ⟨hst, hsS, rfl⟩ := (at?_eq_some_iff h).mp hs
    have hS : s.userId = S := hsS
    have hkeep : setHolder S s = s := by
      rw [← hsS]
      exact Slotted.setHolder_holder s
    cases hd : at? t D (slot s) with
    | none =>
      rw [unitedGrant, Option.map_some, hkeep]
      refine (at?_eq_some_iff hcons).mpr ⟨List.mem_filterMap.mpr ⟨s, hst, ?_⟩, hsS, rfl⟩
      have hd' : at? t D s.clientId = none := hd
      simp only [mergedGrant, hS, hne, hd', if_false, if_true]
    | some d =>
      refine (at?_eq_some_iff hcons).mpr ⟨List.mem_filterMap.mpr ⟨s, hst, ?_⟩, rfl, rfl⟩
      have hd' : at? t D s.clientId = some d := hd
      simp only [mergedGrant, hS, hne, hd', if_false, if_true]
      rw [← hS]
      rfl
  | none =>
    cases hd : at? t D clientId with
    | some d =>
      obtain ⟨hdt, hdD, rfl⟩ := (at?_eq_some_iff h).mp hd
      refine (at?_eq_some_iff hcons).mpr ⟨List.mem_filterMap.mpr ⟨d, hdt, ?_⟩, rfl, rfl⟩
      have hs' : at? t S d.clientId = none := hs
      simp only [mergedGrant, show d.userId = D from hdD, hs', if_true]
    | none =>
      -- a grant of the survivor comes from one of the two accounts, at the same client
      refine at?_eq_none_iff.mpr fun g' hg' hS hclient => ?_
      obtain ⟨g, hg, hmerged⟩ := List.mem_filterMap.mp hg'
      have hslot : slot g = clientId := (mergedGrant_clientId hmerged).symm.trans hclient
      have hgD : g.userId ≠ D := fun hD => at?_eq_none_iff.mp hd g hg hD hslot
      have hgS : g.userId ≠ S := fun hS => at?_eq_none_iff.mp hs g hg hS hslot
      rw [mergedGrant, if_neg hgD, if_neg hgS] at hmerged
      exact hgS (Option.some.inj hmerged ▸ hS)

/-- The fields of a grant are those of the grants together. -/
structure IsUnion (g : OidcGrantFields) (gs : List OidcGrantFields) : Prop where
  badgeTypes : ∀ x, x ∈ g.badgeTypes ↔ ∃ g' ∈ gs, x ∈ g'.badgeTypes
  badgeIds : ∀ x, x ∈ g.badgeIds ↔ ∃ g' ∈ gs, x ∈ g'.badgeIds
  profileName : g.profileName = gs.any (·.profileName)
  profileAvatar : g.profileAvatar = gs.any (·.profileAvatar)
  sybilScore : g.sybilScore = gs.any (·.sybilScore)

theorem isUnion_self {g : OidcGrantFields} {gs : List OidcGrantFields}
    (h : ∀ g', g' ∈ gs ↔ g' = g) : IsUnion g gs := by
  have hany (f : OidcGrantFields → Bool) : f g = gs.any f := by
    rw [Bool.eq_iff_iff, List.any_eq_true]
    simp only [h, exists_eq_left]
  exact ⟨fun x => by simp only [h, exists_eq_left], fun x => by simp only [h, exists_eq_left],
    hany _, hany _, hany _⟩

theorem isUnion_union {s d : OidcGrantFields} {gs : List OidcGrantFields}
    (h : ∀ g', g' ∈ gs ↔ g' = s ∨ g' = d) : IsUnion (s.union d) gs := by
  have hany (f : OidcGrantFields → Bool) : (f s || f d) = gs.any f := by
    rw [Bool.eq_iff_iff, Bool.or_eq_true, List.any_eq_true]
    simp only [h, or_and_right, exists_or, exists_eq_left]
  have hmem (f : OidcGrantFields → List String) (x : String) :
      x ∈ unionStrings (f s) (f d) ↔ ∃ g' ∈ gs, x ∈ f g' := by
    rw [unionStrings, List.mem_eraseDups, List.mem_append]
    simp only [h, or_and_right, exists_or, exists_eq_left]
  exact ⟨hmem _, hmem _, hany _, hany _, hany _⟩

end OidcGrant

/-! ### The rules -/

/-- What the survivor holds after a merge, by what the two accounts held before. -/
structure CollisionRules (S D : UserId) (db db' : Db) : Prop where
  /-- One eligibility for each type, with the date, the fuzz and the source of the earlier row. -/
  eligibility : ∀ badgeType, ofEither S D badgeType db.eligibility ≠ [] →
    ∃ e ∈ ofEither S D badgeType db.eligibility,
      (∀ e' ∈ ofEither S D badgeType db.eligibility, e.eligibleAt ≤ e'.eligibleAt) ∧
      findMany (inSlot S badgeType) db'.eligibility = [{ e with userId := S }]
  /-- One redemption of each code. -/
  redemption : ∀ code, ofEither S D code db.inviteRedemption ≠ [] →
    ∃ r ∈ ofEither S D code db.inviteRedemption,
      findMany (inSlot S code) db'.inviteRedemption = [{ r with userId := S }]
  /-- One grant at each client, for what either account had granted there. -/
  grant : ∀ clientId, ofEither S D clientId db.oidcGrant ≠ [] →
    ∃ g, findMany (inSlot S clientId) db'.oidcGrant = [g] ∧
      IsUnion g.fields ((ofEither S D clientId db.oidcGrant).map (·.fields))

section Rules

theorem exists_earlier {t : List Eligibility} (h : Consistent t) {ty : String}
    (hany : ofEither S D ty t ≠ []) : ∃ e ∈ ofEither S D ty t,
      (∀ e' ∈ ofEither S D ty t, e.eligibleAt ≤ e'.eligibleAt) ∧
      earlier (at? t S ty) (at? t D ty) = some e := by
  obtain ⟨e₀, he₀⟩ := List.exists_mem_of_ne_nil _ hany
  simp only [mem_ofEither h] at he₀ ⊢
  cases hs : at? t S ty with
  | none =>
    rw [hs] at he₀
    cases hd : at? t D ty with
    | none => simp [hd] at he₀
    | some d => exact ⟨d, .inr rfl, by simp, rfl⟩
  | some s =>
    cases hd : at? t D ty with
    | none => exact ⟨s, .inl rfl, by simp, rfl⟩
    | some d =>
      rw [earlier]
      split_ifs with hlt
      · refine ⟨d, .inr rfl, ?_, rfl⟩
        rintro e' (he' | he') <;> cases he'
        · exact Int.le_of_lt hlt
        · exact Int.le_refl _
      · refine ⟨s, .inl rfl, ?_, rfl⟩
        rintro e' (he' | he') <;> cases he'
        · exact Int.le_refl _
        · exact Int.not_lt.mp hlt

theorem exists_unitedGrant {t : List OidcGrant} (h : Consistent t) {clientId : ClientId}
    (hany : ofEither S D clientId t ≠ []) :
    ∃ g, unitedGrant (at? t S clientId) (at? t D clientId) = some g ∧
      IsUnion g.fields ((ofEither S D clientId t).map (·.fields)) := by
  obtain ⟨g₀, hg₀⟩ := List.exists_mem_of_ne_nil _ hany
  have hfields (f : OidcGrantFields) : f ∈ (ofEither S D clientId t).map (·.fields) ↔
      ∃ g, (at? t S clientId = some g ∨ at? t D clientId = some g) ∧ g.fields = f := by
    rw [List.mem_map]
    simp only [mem_ofEither h]
  rw [mem_ofEither h] at hg₀
  cases hs : at? t S clientId with
  | none =>
    cases hd : at? t D clientId with
    | none => simp [hs, hd] at hg₀
    | some d => exact ⟨d, rfl, isUnion_self fun f => by simp [hfields, hs, hd, eq_comm]⟩
  | some s =>
    cases hd : at? t D clientId with
    | none => exact ⟨s, rfl, isUnion_self fun f => by simp [hfields, hs, hd, eq_comm]⟩
    | some d =>
      refine ⟨_, rfl, isUnion_union fun f => ?_⟩
      simp [hfields, hs, hd, or_and_right, exists_or, eq_comm]

end Rules

/-- After every merge that commits, the survivor holds one row for each badge type, code and client
that either account had one for, by the rules for collisions. -/
theorem collisionRules_of_mergeAccounts {pairwise : UserId → ClientId → String}
    {inputs : MergeInputs} {db db' : Db} {summary : MergeSummary} (hdb : db.Consistent)
    (h : mergeAccounts pairwise inputs S D db = .ok (db', summary)) :
    CollisionRules S D db db' := by
  obtain ⟨hne, survivor, donor, p, entries, hready, -, rfl, hcons⟩ :=
    settledDb_of_mergeAccounts hdb h
  obtain ⟨rfl, rfl⟩ := hready.ids
  constructor
  · intro badgeType hany
    obtain ⟨e, he, hfirst, hearlier⟩ := exists_earlier hdb.eligibility hany
    refine ⟨e, he, hfirst, findMany_inSlot_of_at? hcons.eligibility ?_⟩
    exact (at?_resolved_eligibility hdb.eligibility hne badgeType).trans (by rw [hearlier]; rfl)
  · intro code hany
    obtain ⟨r₀, hr₀⟩ := List.exists_mem_of_ne_nil _ hany
    rw [mem_ofEither hdb.inviteRedemption] at hr₀
    obtain ⟨r, hr⟩ : ∃ r, (at? db.inviteRedemption survivor.id code).or
        (at? db.inviteRedemption donor.id code) = some r := by
      rcases hr₀ with hr₀ | hr₀
      · exact ⟨r₀, by rw [hr₀, Option.some_or]⟩
      · rw [hr₀]
        exact Option.isSome_iff_exists.mp (by simp)
    refine ⟨r, (mem_ofEither hdb.inviteRedemption).mpr ?_,
      findMany_inSlot_of_at? hcons.inviteRedemption ?_⟩
    · exact (Option.or_eq_some_iff.mp hr).imp_right And.right
    · exact (at?_resolved_redemption hdb.inviteRedemption hne code).trans (by rw [hr]; rfl)
  · intro clientId hany
    obtain ⟨g, hg, hunion⟩ := exists_unitedGrant hdb.oidcGrant hany
    refine ⟨setHolder survivor.id g, findMany_inSlot_of_at? hcons.oidcGrant ?_, hunion⟩
    exact (at?_mergedGrants hdb.oidcGrant hne clientId).trans (by rw [hg]; rfl)

/-- `A` and `B` collide in all three tables; the eligibility of `B` is the earlier one. -/
def overlapDb : Db where
  user := [liveUser "A" none, liveUser "B" none]
  eligibility := [⟨"e1", "A", "email-domain", 20, 0, "email"⟩,
    ⟨"e2", "B", "email-domain", 10, 3, "import"⟩]
  inviteRedemption := [⟨"r1", "code", "A", 5⟩, ⟨"r2", "code", "B", 4⟩]
  oidcGrant := [⟨"g1", "A", "shop", ["a"], ["b1"], true, false, false⟩,
    ⟨"g2", "B", "shop", ["a", "c"], [], false, false, true⟩]

theorem overlapDb_collisionRules : ∃ db' summary, overlapDb.Consistent ∧
    mergeAccounts markedPairwise sampleInputs "A" "B" overlapDb = .ok (db', summary) ∧
      db'.eligibility = [⟨"e2", "A", "email-domain", 10, 3, "import"⟩] ∧
      CollisionRules "A" "B" overlapDb db' := by
  have hdb : overlapDb.Consistent := by constructor <;> decide
  exact ⟨_, _, hdb, rfl, rfl, collisionRules_of_mergeAccounts hdb rfl⟩

end Minister
