import Minister.Oidc.Consent

/-!
# What a consent can disclose

The bound on a consent, for any submission: a disclosed badge is one of the user's own, of
a type that was requested, and was submitted or granted before. The scopes that are kept
follow the badges and approvals one by one.
-/

namespace Minister.Oidc

open Relational
open Policy (UserBadge minimizeToPolicy)

/-! ### The badges that are loaded -/

section Loading

variable {badges : List BadgeRow} {userId : UserId} {badgeIds : List String} {b : UserBadge}

theorem mem_loadBadgesForUser :
    b ∈ loadBadgesForUser badges userId badgeIds ↔
      ∃ row ∈ badges, row.userId = userId ∧ row.id ∈ badgeIds ∧ toPolicyUserBadge row = b := by
  unfold loadBadgesForUser
  split_ifs with hempty
  · simp [List.length_eq_zero_iff.mp hempty]
  · simp [findMany, and_assoc]

/-- Ids are unique in the table, so they are in what is loaded from it. -/
theorem nodup_ids_loadBadgesForUser (h : Consistent badges) :
    ((loadBadgesForUser badges userId badgeIds).map (·.id)).Nodup := by
  unfold loadBadgesForUser
  split_ifs
  · exact List.nodup_nil
  · rw [List.map_map]
    exact h.nodup_keys.sublist (List.filter_sublist.map _)

theorem nodup_ids_unionBadgesById {xs ys : List UserBadge} (hxs : (xs.map (·.id)).Nodup)
    (hys : (ys.map (·.id)).Nodup) : ((unionBadgesById xs ys).map (·.id)).Nodup := by
  unfold unionBadgesById
  rw [List.map_append]
  apply hxs.append (hys.sublist (List.filter_sublist.map _))
  intro id hid hnew
  obtain ⟨y, hy, rfl⟩ := List.mem_map.mp hnew
  exact of_decide_eq_true (List.mem_filter.mp hy).2 hid

end Loading

/-- Trimming to a policy only leaves badges out. -/
theorem minimizeToPolicy_sublist (badges : List UserBadge) (holderCounts : Policy.HolderCounts)
    (now : ℚ) (policy : Option Policy.PolicyNode) :
    (minimizeToPolicy badges holderCounts now policy).Sublist badges := by
  cases policy with
  | none => exact List.Sublist.refl badges
  | some p => exact List.filter_sublist

/-! ### The scopes that are kept -/

section Scopes

variable {scopes : List String} {input : EffectiveScopesInput}

theorem mem_requestedBadgeTypes {request : ValidAuthorizeRequest} {type : String} :
    type ∈ requestedBadgeTypes request ↔ "badge:" ++ type ∈ request.scopes := by
  rw [requestedBadgeTypes, List.mem_filterMap]
  constructor
  · intro ⟨scope, hscope, htype⟩
    rwa [← badgeTypeOf_eq_some_iff.mp htype]
  · intro h
    exact ⟨_, h, badgeTypeOf_eq_some_iff.mpr rfl⟩

/-- No other rule applies to a `badge:` scope: the fixed scopes name no badge type. -/
theorem keepsScope_badge (type : String) :
    keepsScope input ("badge:" ++ type) =
      input.userBadges.any fun b => b.type = type && b.id ∈ input.approvedBadgeIds := by
  have hne (scope : String) (hnone : badgeTypeOf scope = none) : "badge:" ++ type ≠ scope := by
    intro heq
    rw [badgeTypeOf_eq_some_iff.mpr heq.symm] at hnone
    cases hnone
  rw [keepsScope, if_neg (hne _ (by decide)), if_neg (hne _ (by decide)),
    if_neg (hne _ (by decide)), badgeTypeOf_eq_some_iff.mpr rfl]

theorem badge_mem_effectiveScopes {type : String} :
    "badge:" ++ type ∈ effectiveScopes scopes input ↔
      "badge:" ++ type ∈ scopes ∧
        ∃ b ∈ input.userBadges, b.type = type ∧ b.id ∈ input.approvedBadgeIds := by
  rw [effectiveScopes, List.mem_filter, keepsScope_badge, List.any_eq_true]
  simp

theorem profile_mem_effectiveScopes :
    "profile" ∈ effectiveScopes scopes input ↔ "profile" ∈ scopes ∧ input.approveProfile = true :=
  List.mem_filter

theorem sybilScore_mem_effectiveScopes :
    "sybil-score" ∈ effectiveScopes scopes input ↔
      "sybil-score" ∈ scopes ∧ input.approveSybilScore = true :=
  List.mem_filter

end Scopes

/-! ### The bound -/

/-- What an authorization code may carry, given who consented, what was requested, what was
submitted, and what was stored before. -/
structure DisclosureBound (userId : UserId) (request : ValidAuthorizeRequest)
    (input : ApproveInput) (db : ConsentDb) (code : AuthorizationCode) : Prop where
  nodup : code.snapshot.approvedBadgeIds.Nodup
  owned : ∀ id ∈ code.snapshot.approvedBadgeIds,
    ∃ b ∈ db.badge, b.id = id ∧ b.userId = userId ∧ "badge:" ++ b.type ∈ request.scopes
  submitted_or_granted : ∀ id ∈ code.snapshot.approvedBadgeIds,
    id ∈ input.approvedBadgeIds ∨
      ∃ g ∈ db.oidcGrant, g.userId = userId ∧ g.clientId = request.clientId ∧
        id ∈ g.fields.badgeIds
  badge_scope : ∀ type, "badge:" ++ type ∈ code.snapshot.scopes ↔
    "badge:" ++ type ∈ request.scopes ∧
      ∃ b ∈ db.badge, b.id ∈ code.snapshot.approvedBadgeIds ∧ b.type = type
  profile_scope : "profile" ∈ code.snapshot.scopes →
    "profile" ∈ request.scopes ∧ (input.approveName = true ∨ input.approveAvatar = true)
  sybilScore_scope : "sybil-score" ∈ code.snapshot.scopes →
    "sybil-score" ∈ request.scopes ∧ input.approveSybilScore = true

section Disclosure

variable {env : ConsentEnv} {userId : UserId} {input : ApproveInput}
  {request : ValidAuthorizeRequest} {db : ConsentDb} {b : UserBadge} {id : String}

theorem mem_loadGrant (h : id ∈ (loadGrant db.oidcGrant userId request.clientId).badgeIds) :
    ∃ g ∈ db.oidcGrant, g.userId = userId ∧ g.clientId = request.clientId ∧
      id ∈ g.fields.badgeIds := by
  unfold loadGrant at h
  split at h
  · cases h
  · rename_i g hg
    have hkey := List.find?_some hg
    simp only [decide_eq_true_eq] at hkey
    exact ⟨g, List.mem_of_find?_eq_some hg, hkey.1, hkey.2, h⟩

/-- Where a candidate comes from: it is a badge of the user, of a requested type, and its
id is among the submitted or among the granted ones. -/
theorem exists_row_of_mem_candidateBadges (h : b ∈ candidateBadges userId input request db) :
    ∃ row ∈ db.badge, toPolicyUserBadge row = b ∧ row.userId = userId ∧
      "badge:" ++ row.type ∈ request.scopes ∧
      (row.id ∈ input.approvedBadgeIds ∨
        row.id ∈ (loadGrant db.oidcGrant userId request.clientId).badgeIds) := by
  have hsource {ids : List String} (hb : b ∈ (loadBadgesForUser db.badge userId ids).filter
      fun b => b.type ∈ requestedBadgeTypes request) :
      ∃ row ∈ db.badge, toPolicyUserBadge row = b ∧ row.userId = userId ∧
        "badge:" ++ row.type ∈ request.scopes ∧ row.id ∈ ids := by
    obtain ⟨hload, htype⟩ := List.mem_filter.mp hb
    obtain ⟨row, hrow, huser, hid, rfl⟩ := mem_loadBadgesForUser.mp hload
    exact ⟨row, hrow, rfl, huser, mem_requestedBadgeTypes.mp (of_decide_eq_true htype), hid⟩
  rcases List.mem_append.mp h with hsubmitted | hgranted
  · obtain ⟨row, hrow, hb, huser, hscope, hid⟩ := hsource hsubmitted
    exact ⟨row, hrow, hb, huser, hscope, .inl hid⟩
  · obtain ⟨row, hrow, hb, huser, hscope, hid⟩ := hsource (List.mem_filter.mp hgranted).1
    exact ⟨row, hrow, hb, huser, hscope, .inr hid⟩

theorem disclosedBadges_sublist :
    (disclosedBadges env userId input request db).Sublist
      (candidateBadges userId input request db) :=
  minimizeToPolicy_sublist _ _ _ _

theorem nodup_ids_disclosedBadges :
    ((disclosedBadges env userId input request db).map (·.id)).Nodup := by
  have hload (ids : List String) :
      (((loadBadgesForUser db.badge userId ids).filter
        fun b => b.type ∈ requestedBadgeTypes request).map (·.id)).Nodup :=
    (nodup_ids_loadBadgesForUser db.badge_consistent).sublist (List.filter_sublist.map _)
  exact (nodup_ids_unionBadgesById (hload _) (hload _)).sublist (disclosedBadges_sublist.map _)

/-- Ids are unique in the table, so a row whose id is disclosed is the disclosed badge. -/
theorem exists_disclosed_iff {type : String} :
    (∃ b ∈ disclosedBadges env userId input request db, b.type = type ∧
      b.id ∈ (disclosedBadges env userId input request db).map (·.id)) ↔
    ∃ row ∈ db.badge, row.id ∈ (disclosedBadges env userId input request db).map (·.id) ∧
      row.type = type := by
  constructor
  · intro ⟨b, hb, htype, hid⟩
    obtain ⟨row, hrow, rfl, -⟩ :=
      exists_row_of_mem_candidateBadges (disclosedBadges_sublist.subset hb)
    exact ⟨row, hrow, hid, htype⟩
  · intro ⟨row, hrow, hid, htype⟩
    obtain ⟨b, hb, hbid⟩ := List.mem_map.mp hid
    obtain ⟨row', hrow', rfl, -⟩ :=
      exists_row_of_mem_candidateBadges (disclosedBadges_sublist.subset hb)
    obtain rfl : row' = row := db.badge_consistent.eq_of_key_eq hrow' hrow hbid
    exact ⟨_, hb, htype, hid⟩

theorem newCode_disclosureBound :
    DisclosureBound userId request input db (newCode env userId input request db) where
  nodup := nodup_ids_disclosedBadges
  owned := by
    intro id hid
    obtain ⟨b, hb, rfl⟩ := List.mem_map.mp hid
    obtain ⟨row, hrow, rfl, huser, hscope, -⟩ :=
      exists_row_of_mem_candidateBadges (disclosedBadges_sublist.subset hb)
    exact ⟨row, hrow, rfl, huser, hscope⟩
  submitted_or_granted := by
    intro id hid
    obtain ⟨b, hb, rfl⟩ := List.mem_map.mp hid
    obtain ⟨row, -, rfl, -, -, hsource⟩ :=
      exists_row_of_mem_candidateBadges (disclosedBadges_sublist.subset hb)
    exact hsource.imp_right mem_loadGrant
  badge_scope type :=
    badge_mem_effectiveScopes.trans (and_congr_right fun _ => exists_disclosed_iff)
  profile_scope := by
    intro h
    obtain ⟨hrequested, happroved⟩ := profile_mem_effectiveScopes.mp h
    refine ⟨hrequested, ?_⟩
    simpa [approvesName, approvesAvatar, hrequested] using happroved
  sybilScore_scope := by
    intro h
    obtain ⟨hrequested, happroved⟩ := sybilScore_mem_effectiveScopes.mp h
    refine ⟨hrequested, ?_⟩
    simpa [approvesSybilScore, hrequested] using happroved

end Disclosure

/-- **The disclosure bound.** Whatever is submitted, an authorization code that a consent
adds is for the user who is signed in and the client of the signed request, and keeps to
the bound. -/
theorem approveConsent_disclosureBound {env : ConsentEnv} {session : Option UserId}
    {input : ApproveInput} {db db' : ConsentDb} {result : ConsentResult}
    (h : approveConsent env session input db = .ok (db', result)) :
    ∀ code ∈ db'.oidcAuthorizationCode, code ∈ db.oidcAuthorizationCode ∨
      ∃ userId request, session = some userId ∧
        env.verifyOidcRequest input.requestToken = some request ∧
        code.userId = userId ∧ code.clientId = request.clientId ∧
        DisclosureBound userId request input db code := by
  intro code hcode
  rcases approveConsent_code h with hsame | ⟨userId, request, hsession, hrequest, hnew⟩
  · rw [hsame] at hcode
    exact .inl hcode
  · rw [hnew, List.mem_append, List.mem_singleton] at hcode
    rcases hcode with hold | rfl
    · exact .inl hold
    · exact .inr ⟨userId, request, hsession, hrequest, rfl, rfl, newCode_disclosureBound⟩

section Tampered

private def forumDb : ConsentDb where
  __ := noGrant
  badge := noGrant.badge ++ [storedBadge "cemail0001" "alice" "email-exact",
    storedBadge "cgithub002" "bob" "oauth-account"]
  oidcGrant := [⟨"cgrant0001", "alice", "forum", ⟨["oauth-account"], ["cgoogle001"], false, false,
    false⟩⟩]
  badge_consistent := by decide

/-- A submission that adds a badge of another account and one of a type that was not
requested, leaves out a badge that was granted before, and approves what was not asked. -/
private def tampered : ApproveInput where
  requestToken := "signed"
  approvedBadgeIds := ["cgithub001", "cemail0001", "cgithub002"]
  approveName := true
  approveAvatar := false
  approveSybilScore := true

theorem tampered_disclosureBound :
    ∃ db' result, approveConsent (forumEnv "code" "grant") (some "alice") tampered forumDb =
        .ok (db', result) ∧
      db'.oidcAuthorizationCode.map (fun c => (c.snapshot.approvedBadgeIds, c.snapshot.scopes)) =
        [(["cgithub001", "cgoogle001"], ["openid", "profile", "badge:oauth-account"])] ∧
      ∀ code ∈ db'.oidcAuthorizationCode, code ∈ forumDb.oidcAuthorizationCode ∨
        ∃ userId request, some "alice" = some userId ∧
          (forumEnv "code" "grant").verifyOidcRequest tampered.requestToken = some request ∧
          code.userId = userId ∧ code.clientId = request.clientId ∧
          DisclosureBound userId request tampered forumDb code := by
  exact ⟨_, _, rfl, by decide +kernel, approveConsent_disclosureBound rfl⟩

end Tampered

end Minister.Oidc
