import Minister.Merge.Effect
import Minister.Merge.Reversal

/-!
# What a reversal does to each table

The tables whose constraints never mention the owner always move back; what can
be refused is putting rows back into a slot that has been taken in the meantime.
`reverseRows_eq` separates the two, and the lemmas before it give the loops in
closed form.
-/

namespace Minister

open Relational

variable {S D : UserId}

/-! ### Loops -/

theorem foldl_deleteMany {R X : Type} (p : X → R → Bool) (xs : List X) (t : List R) :
    xs.foldl (fun t x => deleteMany (p x) t) t = deleteMany (fun r => xs.any (p · r)) t := by
  induction xs generalizing t with
  | nil => simp [deleteMany]
  | cons x xs ih =>
    rw [List.foldl_cons, ih]
    unfold deleteMany
    rw [List.filter_filter]
    refine List.filter_congr fun r _ => ?_
    simp [Bool.and_comm]

theorem deleteCreatedOverrides_eq (created : List SubAtClient) (t : List SubjectOverride) :
    deleteCreatedOverrides S created t =
      deleteMany (fun o => o.userId = S ∧ ⟨o.clientId, o.sub⟩ ∈ created) t := by
  unfold deleteCreatedOverrides
  rw [foldl_deleteMany]
  refine List.filter_congr fun o _ => ?_
  congr 1
  rw [Bool.eq_iff_iff]
  simp only [List.any_eq_true, decide_eq_true_eq, inSlot_eq_true]
  constructor
  · rintro ⟨⟨c, s⟩, hov, ⟨hS, hc⟩, hs⟩
    exact ⟨hS, by rwa [show o.clientId = c from hc, hs]⟩
  · rintro ⟨hS, hov⟩
    exact ⟨_, hov, ⟨hS, rfl⟩, rfl⟩

/-- A loop that recreates recorded rows inserts them as they were. -/
theorem foldlM_map_creates {R X : Type} [Constrained R]
    {round : List R → X → Except ServerError (List R)} {record : R → X}
    (h : ∀ r t, round t (record r) = stmt (create r t)) (losers t : List R) :
    (losers.map record).foldlM round t = stmt (creates losers t) := by
  induction losers generalizing t with
  | nil => rfl
  | cons r losers ih =>
    rw [List.map_cons, List.foldlM_cons, creates_cons, h]
    cases create r t with
    | error err => rfl
    | ok t₁ => exact ih t₁

theorem recreateEligibilities_map (losers t : List Eligibility) :
    recreateEligibilities (losers.map deletedEligibility) t = stmt (creates losers t) :=
  foldlM_map_creates (fun _ _ => rfl) losers t

theorem recreateRedemptions_map (losers t : List InviteRedemption) :
    recreateRedemptions (losers.map deletedRedemption) t = stmt (creates losers t) :=
  foldlM_map_creates (fun _ _ => rfl) losers t

/-- The donor's row of a unioned grant. -/
def donorGrant (D : UserId) (mg : OidcGrantMerged) : OidcGrant :=
  ⟨mg.donorDeletedId, D, mg.clientId, mg.donorDeleted⟩

/-- The survivor's grants with the recorded fields put back. -/
def restoreGrantFields (S : UserId) (merged : List OidcGrantMerged) (t : List OidcGrant) :
    List OidcGrant :=
  merged.foldl (fun t mg =>
    mapWhere (inSlot S mg.clientId) (fun g => { g with fields := mg.survivorPrev }) t) t

theorem restoreGrantFields_append (merged : List OidcGrantMerged) (t t' : List OidcGrant) :
    restoreGrantFields S merged (t ++ t') =
      restoreGrantFields S merged t ++ restoreGrantFields S merged t' := by
  induction merged generalizing t t' with
  | nil => rfl
  | cons mg merged ih =>
    unfold restoreGrantFields at ih ⊢
    simp only [List.foldl_cons, mapWhere_append, ih]

theorem restoreGrantFields_of_holder {g : OidcGrant} (hg : g.userId ≠ S)
    (merged : List OidcGrantMerged) : restoreGrantFields S merged [g] = [g] := by
  induction merged with
  | nil => rfl
  | cons mg merged ih =>
    unfold restoreGrantFields at ih ⊢
    rw [List.foldl_cons, mapWhere_eq_self (t := [g]), ih]
    intro r hr hin
    obtain rfl := List.mem_singleton.mp hr
    exact absurd (inSlot_eq_true.mp hin).1 hg

theorem splitGrant_eq_ok_iff {mg : OidcGrantMerged} {t t' : List OidcGrant} (h : Consistent t) :
    splitGrant S D t mg = .ok t' ↔ Consistent (t ++ [donorGrant D mg]) ∧
      mapWhere (inSlot S mg.clientId) (fun g => { g with fields := mg.survivorPrev }) t ++
        [donorGrant D mg] = t' := by
  have hfields := h.mapWhere_of_clash (inSlot S mg.clientId)
    (f := fun g : OidcGrant => { g with fields := mg.survivorPrev }) fun _ _ => rfl
  unfold splitGrant
  rw [updateMany_eq_ok_iff.mpr ⟨hfields, rfl⟩, ok_bind, create_eq_ok_iff,
    consistent_mapWhere_append]
  · rfl
  · exact fun _ _ => rfl

/-- Splitting unioned grants puts the fields back and inserts the donor's rows. -/
theorem splitGrants_eq_ok_iff (hne : S ≠ D) {merged : List OidcGrantMerged}
    {t t' : List OidcGrant} (h : Consistent t) :
    splitGrants S D merged t = .ok t' ↔ Consistent (t ++ merged.map (donorGrant D)) ∧
      restoreGrantFields S merged t ++ merged.map (donorGrant D) = t' := by
  induction merged generalizing t with
  | nil => simp [splitGrants, restoreGrantFields, h, pure, Except.pure]
  | cons mg merged ih =>
    have hstep : splitGrants S D (mg :: merged) t =
        splitGrant S D t mg >>= splitGrants S D merged := rfl
    have hcons : Consistent ((mapWhere (inSlot S mg.clientId)
        (fun g => { g with fields := mg.survivorPrev }) t ++ [donorGrant D mg]) ++
          merged.map (donorGrant D)) ↔ Consistent (t ++ (mg :: merged).map (donorGrant D)) := by
      rw [List.append_assoc, consistent_mapWhere_append]
      · rfl
      · exact fun _ _ => rfl
    have hrows : restoreGrantFields S merged (mapWhere (inSlot S mg.clientId)
        (fun g => { g with fields := mg.survivorPrev }) t ++ [donorGrant D mg]) ++
          merged.map (donorGrant D) =
        restoreGrantFields S (mg :: merged) t ++ (mg :: merged).map (donorGrant D) := by
      rw [restoreGrantFields_append, restoreGrantFields_of_holder (Ne.symm hne),
        List.append_assoc]
      rfl
    rw [hstep, bind_eq_ok_iff]
    constructor
    · rintro ⟨t₁, h₁, h₂⟩
      obtain ⟨hc₁, rfl⟩ := (splitGrant_eq_ok_iff h).mp h₁
      have ht₁ := (consistent_mapWhere_append (inSlot S mg.clientId)
        (f := fun g : OidcGrant => { g with fields := mg.survivorPrev }) fun _ _ => rfl).mpr hc₁
      obtain ⟨hc₂, rfl⟩ := (ih ht₁).mp h₂
      exact ⟨hcons.mp hc₂, hrows.symm⟩
    · rintro ⟨hc, rfl⟩
      have hc₁ : Consistent (t ++ [donorGrant D mg]) := by
        refine hc.sublist (List.Sublist.append_left ?_ t)
        simp
      refine ⟨_, (splitGrant_eq_ok_iff h).mpr ⟨hc₁, rfl⟩, ?_⟩
      have ht₁ := (consistent_mapWhere_append (inSlot S mg.clientId)
        (f := fun g : OidcGrant => { g with fields := mg.survivorPrev }) fun _ _ => rfl).mpr hc₁
      exact (ih ht₁).mpr ⟨hcons.mpr hc, hrows⟩

/-- A `credentialID` names one row, so the authenticators always move back. -/
theorem moveAuthenticatorsBack_eq_ok (hne : S ≠ D) {moved : List (UserId × String)}
    {t : List Authenticator} (h : Consistent t) :
    moveAuthenticatorsBack S D moved t =
      .ok (mapWhere (fun a => a.userId = S ∧ a.credentialID ∈ moved.map (·.2)) (setHolder D)
        t) := by
  refine moveSlots_eq_ok hne h fun c _ => ?_
  rw [or_iff_not_imp_left]
  intro hS
  rw [at?_eq_none_iff]
  intro b hb hbD hbc
  obtain ⟨a, ha⟩ := Option.ne_none_iff_exists'.mp hS
  obtain ⟨hat, haS, hac⟩ := (at?_eq_some_iff h).mp ha
  obtain rfl := h.eq_of_key_eq (A := UserId) hat hb (hac.trans hbc.symm)
  exact hne (haS.symm.trans hbD)

/-! ### The writes of a reversal -/

/-- The accounts with the donor revived and the survivor's ban flag restored. -/
def reversedUsers (S D : UserId) (isBanned : Bool) (t : List User) : List User :=
  mapWhere (fun u => u.id = D) revived (mapWhere (fun u => u.id = S) (withBan isBanned) t)

/-- The tables a reversal always rewrites. -/
def reversedDb (mergeRecordId : String) (snap : MergeSnapshot) (now : Timestamp) (db : Db) : Db :=
  let S := snap.survivorUserId
  let D := snap.donorUserId
  let m := snap.moved
  { db with
    user := reversedUsers S D snap.survivorPrev.isBanned db.user
    account := moveBack m.account D db.account
    session := moveBack m.session D db.session
    authenticator := mapWhere
      (fun a => a.userId = S ∧ a.credentialID ∈ m.authenticator.map (·.2)) (setHolder D)
      db.authenticator
    badge := moveBack m.badge D db.badge
    shareLink := moveBack m.shareLink D db.shareLink
    oidcAccessToken := moveBack m.oidcAccessToken D db.oidcAccessToken
    wizardSession := moveBack m.wizardSession D db.wizardSession
    auditLog := moveBack m.auditLog D db.auditLog
    userEmail := mapWhere (fun e => e.id ∈ snap.demotedPrimaryEmailIds)
      (fun e => { e with isPrimary := true }) (moveBack m.userEmail D db.userEmail)
    recoveryCode := moveBack m.recoveryCode D db.recoveryCode
    recoveryAttempt := moveBack m.recoveryAttempt D db.recoveryAttempt
    oidcClient := moveBack m.oidcClientOwned D db.oidcClient
    mergeRecord := mapWhere (fun r => r.id = mergeRecordId)
      (fun r => { r with reversedAt := some now }) db.mergeRecord }

/-- What the reversal reports and hands to the post-commit step. -/
def reverseReport (snap : MergeSnapshot) (donor : User) (db : Db) :
    ReverseResult × Option ReverseReassign :=
  (.ok (restoredRows snap db)
      (snap.eligibilityDeleted.length + snap.inviteRedemptionDeleted.length +
        (snap.oidcGrantMerged.getD []).length),
    some
      { entryRefs := snap.dedupReassigned.getD []
        fromHandle := (findUser snap.survivorUserId db.user).bind (·.dedupHandle)
        toHandle := donor.dedupHandle })

variable {mergeRecordId : String} {snap : MergeSnapshot} {now : Timestamp} {survivor donor : User}
  {db db' : Db} {n k : Nat} {out : Db × ReverseResult × Option ReverseReassign}

/-- Only the tables with a per-account unique can refuse a reversal. -/
theorem reverseRows_eq (hdb : db.Consistent) (hne : snap.survivorUserId ≠ snap.donorUserId)
    (hS : findUser snap.survivorUserId db.user = some survivor)
    (hD : findUser snap.donorUserId db.user = some donor)
    (hrec : ∃ m ∈ db.mergeRecord, m.id = mergeRecordId) :
    reverseRows mergeRecordId snap now donor db = (do
      let inviteRedemption ← stmt
        (store (moveBack snap.moved.inviteRedemption snap.donorUserId db.inviteRedemption))
      let eligibility ← stmt
        (store (moveBack snap.moved.eligibility snap.donorUserId db.eligibility))
      let subjectOverride ← stmt (moveOverridesBack snap.survivorUserId snap.donorUserId
        snap.moved.subjectOverride db.subjectOverride)
      let oidcGrant ← stmt (moveGrantsBack snap.survivorUserId snap.donorUserId
        (snap.moved.oidcGrant.getD []) db.oidcGrant)
      let eligibility ← recreateEligibilities snap.eligibilityDeleted eligibility
      let inviteRedemption ← recreateRedemptions snap.inviteRedemptionDeleted inviteRedemption
      let oidcGrant ← stmt (splitGrants snap.survivorUserId snap.donorUserId
        (snap.oidcGrantMerged.getD []) oidcGrant)
      let subjectOverride := deleteCreatedOverrides snap.survivorUserId snap.overridesCreated
        subjectOverride
      return ({ reversedDb mergeRecordId snap now db with
          eligibility, inviteRedemption, subjectOverride, oidcGrant },
        reverseReport snap donor db)) := by
  obtain ⟨huser, huser'⟩ := update_user_eq_ok (f := withBan snap.survivorPrev.isBanned) hdb.user
    ⟨survivor, mem_of_findUser hS, findUser_id hS⟩ fun _ _ => rfl
  have hdonor : ∃ u ∈ mapWhere (fun u => u.id = snap.survivorUserId)
      (withBan snap.survivorPrev.isBanned) db.user, u.id = snap.donorUserId := by
    refine ⟨donor, mem_mapWhere.mpr ⟨donor, mem_of_findUser hD, ?_⟩, findUser_id hD⟩
    simp [findUser_id hD, hne.symm]
  obtain ⟨halive, -⟩ := update_user_eq_ok (f := revived) huser' hdonor fun _ _ => rfl
  have hemail : updateMany (fun e => e.id ∈ snap.demotedPrimaryEmailIds)
      (fun e => { e with isPrimary := true })
      (moveBack snap.moved.userEmail snap.donorUserId db.userEmail) =
      .ok (reversedDb mergeRecordId snap now db).userEmail :=
    store_eq_ok ((hdb.userEmail.moveBack _ _).mapWhere_of_clash _ fun _ _ => rfl)
  have hrecord : update (fun r => r.id = mergeRecordId)
      (fun r => { r with reversedAt := some now }) db.mergeRecord =
      .ok (reversedDb mergeRecordId snap now db).mergeRecord := by
    refine update_eq_ok_iff.mpr ⟨?_, hdb.mergeRecord.mapWhere_of_clash _ fun _ _ => rfl, rfl⟩
    simpa using hrec
  unfold reverseRows
  simp only [store_eq_ok (hdb.account.moveBack _ _), store_eq_ok (hdb.session.moveBack _ _),
    store_eq_ok (hdb.badge.moveBack _ _), store_eq_ok (hdb.shareLink.moveBack _ _),
    store_eq_ok (hdb.oidcAccessToken.moveBack _ _), store_eq_ok (hdb.wizardSession.moveBack _ _),
    store_eq_ok (hdb.auditLog.moveBack _ _), store_eq_ok (hdb.userEmail.moveBack _ _),
    store_eq_ok (hdb.recoveryCode.moveBack _ _), store_eq_ok (hdb.recoveryAttempt.moveBack _ _),
    store_eq_ok (hdb.oidcClient.moveBack _ _),
    moveAuthenticatorsBack_eq_ok hne hdb.authenticator, hemail, huser, halive, hrecord,
    stmt_ok, ok_bind]
  rfl

/-- The tables with a per-account unique, as a reversal that passes leaves them. -/
structure ReversedTables (snap : MergeSnapshot) (db : Db) (eligibility : List Eligibility)
    (inviteRedemption : List InviteRedemption) (subjectOverride : List SubjectOverride)
    (oidcGrant : List OidcGrant) : Prop where
  eligibility : ∃ t, store (moveBack snap.moved.eligibility snap.donorUserId db.eligibility) =
    .ok t ∧ recreateEligibilities snap.eligibilityDeleted t = .ok eligibility
  inviteRedemption : ∃ t,
    store (moveBack snap.moved.inviteRedemption snap.donorUserId db.inviteRedemption) = .ok t ∧
      recreateRedemptions snap.inviteRedemptionDeleted t = .ok inviteRedemption
  subjectOverride : ∃ t, moveOverridesBack snap.survivorUserId snap.donorUserId
      snap.moved.subjectOverride db.subjectOverride = .ok t ∧
    subjectOverride = deleteCreatedOverrides snap.survivorUserId snap.overridesCreated t
  oidcGrant : ∃ t, moveGrantsBack snap.survivorUserId snap.donorUserId
      (snap.moved.oidcGrant.getD []) db.oidcGrant = .ok t ∧
    splitGrants snap.survivorUserId snap.donorUserId (snap.oidcGrantMerged.getD []) t =
      .ok oidcGrant

theorem reverseRows_eq_ok_iff (mergeRecordId : String) (now : Timestamp) (hdb : db.Consistent)
    (hne : snap.survivorUserId ≠ snap.donorUserId)
    (hS : findUser snap.survivorUserId db.user = some survivor)
    (hD : findUser snap.donorUserId db.user = some donor)
    (hrec : ∃ m ∈ db.mergeRecord, m.id = mergeRecordId) :
    reverseRows mergeRecordId snap now donor db = .ok out ↔
      ∃ eligibility inviteRedemption subjectOverride oidcGrant,
        ReversedTables snap db eligibility inviteRedemption subjectOverride oidcGrant ∧
        out = ({ reversedDb mergeRecordId snap now db with
          eligibility, inviteRedemption, subjectOverride, oidcGrant },
          reverseReport snap donor db) := by
  rw [reverseRows_eq hdb hne hS hD hrec]
  simp only [bind_eq_ok_iff, stmt_eq_ok_iff]
  constructor
  · rintro ⟨ir, hir, el, hel, so, hso, gr, hgr, el', hel', ir', hir', gr', hgr', hout⟩
    cases hout
    exact ⟨el', ir', _, gr', ⟨⟨el, hel, hel'⟩, ⟨ir, hir, hir'⟩, ⟨so, hso, rfl⟩, ⟨gr, hgr, hgr'⟩⟩,
      rfl⟩
  · rintro ⟨el', ir', so', gr', ⟨⟨el, hel, hel'⟩, ⟨ir, hir, hir'⟩, ⟨so, hso, rfl⟩,
      ⟨gr, hgr, hgr'⟩⟩, rfl⟩
    exact ⟨ir, hir, el, hel, so, hso, gr, hgr, el', hel', ir', hir', gr', hgr', rfl⟩

/-- A loop that recreates rows, each with the date it had. -/
theorem consistent_of_recreates {X R : Type} [Constrained R] {date : X → Option Timestamp}
    {row : X → Timestamp → R} {deleted : List X} {t t' : List R} (h : Consistent t)
    (hloop : deleted.foldlM (fun t x =>
      match date x with
      | none => Except.error ServerError.invalidDate
      | some day => stmt (create (row x day) t)) t = .ok t') : Consistent t' := by
  refine foldlM_preserves Consistent (fun x t₁ t₂ _ hround => ?_) h hloop
  cases hdate : date x with
  | none => simp [hdate] at hround
  | some day =>
    simp only [hdate, stmt_eq_ok_iff] at hround
    obtain ⟨hcons, rfl⟩ := create_eq_ok_iff.mp hround
    exact hcons

theorem consistent_of_splitGrants {merged : List OidcGrantMerged} {t t' : List OidcGrant}
    (h : Consistent t) (hloop : splitGrants S D merged t = .ok t') : Consistent t' := by
  refine foldlM_preserves Consistent (fun mg t₁ t₂ h₁ hround => ?_) h hloop
  obtain ⟨t₃, -, hcreate⟩ := bind_eq_ok_iff.mp hround
  obtain ⟨hcons, rfl⟩ := create_eq_ok_iff.mp hcreate
  exact hcons

theorem consistent_deleteCreatedOverrides {created : List SubAtClient}
    {t : List SubjectOverride} (h : Consistent t) :
    Consistent (deleteCreatedOverrides S created t) := by
  rw [deleteCreatedOverrides_eq]
  exact h.deleteMany

/-- What a reversal that passes leaves, whatever the snapshot says. -/
structure ReversedRows (mergeRecordId : String) (snap : MergeSnapshot) (now : Timestamp)
    (donor : User) (db : Db) (out : Db × ReverseResult × Option ReverseReassign) : Prop where
  consistent : db.Consistent → out.1.Consistent
  survivor : ∃ u ∈ db.user, u.id = snap.survivorUserId
  record : ∃ m ∈ db.mergeRecord, m.id = mergeRecordId
  user : out.1.user =
    reversedUsers snap.survivorUserId snap.donorUserId snap.survivorPrev.isBanned db.user
  users : Consistent out.1.user
  badge : out.1.badge = moveBack snap.moved.badge snap.donorUserId db.badge
  badges : Consistent out.1.badge
  userEmail : out.1.userEmail = mapWhere (fun e => e.id ∈ snap.demotedPrimaryEmailIds)
    (fun e => { e with isPrimary := true })
    (moveBack snap.moved.userEmail snap.donorUserId db.userEmail)
  mergeRecord : out.1.mergeRecord = mapWhere (fun r => r.id = mergeRecordId)
    (fun r => { r with reversedAt := some now }) db.mergeRecord
  nullifierEntry : out.1.nullifierEntry = db.nullifierEntry
  report : out.2 = reverseReport snap donor db

theorem reversedRows (h : reverseRows mergeRecordId snap now donor db = .ok out) :
    ReversedRows mergeRecordId snap now donor db out := by
  simp only [reverseRows, bind_eq_ok_iff, stmt_eq_ok_iff] at h
  obtain ⟨_, hbadge, _, hshare, _, htoken, _, hwizard, _, hcode, _, hattempt, _, hmoved, _, haudit,
    _, haccount, _, hsession, _, hauth, _, hir, _, hel, _, hso, _, hclient, _, hgr, _, hel',
    _, hir', _, hgr', _, hemail, _, hban, _, huser, _, hrecord, hout⟩ := h
  cases hout
  obtain ⟨hS, -, rfl⟩ := update_eq_ok_iff.mp hban
  obtain ⟨-, hcons, rfl⟩ := update_eq_ok_iff.mp huser
  obtain ⟨hbcons, rfl⟩ := store_eq_ok_iff.mp hbadge
  obtain ⟨-, rfl⟩ := store_eq_ok_iff.mp hmoved
  obtain ⟨hecons, rfl⟩ := updateMany_eq_ok_iff.mp hemail
  obtain ⟨hrec, hrecords, rfl⟩ := update_eq_ok_iff.mp hrecord
  refine ⟨fun hdb => ?_, by simpa using hS, by simpa using hrec, rfl, hcons, rfl, hbcons, rfl, rfl,
    rfl, rfl⟩
  exact { hdb with
    user := hcons
    account := consistent_of_store haccount
    session := consistent_of_store hsession
    authenticator := hdb.authenticator.of_moveSlots hauth
    badge := hbcons
    eligibility := consistent_of_recreates (consistent_of_store hel) hel'
    shareLink := consistent_of_store hshare
    oidcAccessToken := consistent_of_store htoken
    wizardSession := consistent_of_store hwizard
    auditLog := consistent_of_store haudit
    userEmail := hecons
    recoveryCode := consistent_of_store hcode
    recoveryAttempt := consistent_of_store hattempt
    subjectOverride := consistent_deleteCreatedOverrides (hdb.subjectOverride.of_moveSlots hso)
    inviteRedemption := consistent_of_recreates (consistent_of_store hir) hir'
    oidcClient := consistent_of_store hclient
    oidcGrant := consistent_of_splitGrants (hdb.oidcGrant.of_moveSlots hgr) hgr'
    mergeRecord := hrecords }

/-- A reversal that returns is refused without a write, or has passed every guard. -/
theorem reverseMerge_effect {result : ReverseResult}
    (h : reverseMerge mergeRecordId now db = .ok (db', result)) :
    (db' = db ∧ ∃ error, result = .refused error) ∨ ∃ record donor db₀ reassign,
      findMergeRecord mergeRecordId db.mergeRecord = some record ∧ record.reversedAt = none ∧
      findUser record.snapshot.donorUserId db.user = some donor ∧
      donor.mergedIntoUserId = some record.snapshot.survivorUserId ∧
      reverseRows mergeRecordId record.snapshot now donor db = .ok (db₀, result, reassign) ∧
      db' = reassignOnReverse reassign db₀ := by
  unfold reverseMerge at h
  split at h
  · rename_i record hfound
    split_ifs at h with hrev hwin hver
    -- The three refusals change nothing.
    iterate 3
      cases h
      exact .inl ⟨rfl, _, rfl⟩
    obtain ⟨⟨db₀, result₀, reassign⟩, htx, hout⟩ := bind_eq_ok_iff.mp h
    cases hout
    unfold runReverseTx at htx
    split at htx
    · cases htx
      exact .inl ⟨rfl, _, rfl⟩
    · rename_i donor hdonor
      split_ifs at htx with htomb
      · cases htx
        exact .inl ⟨rfl, _, rfl⟩
      · exact .inr ⟨record, donor, db₀, reassign, hfound, not_ne_iff.mp hrev, hdonor,
          not_ne_iff.mp htomb, htx, rfl⟩
  · cases h
    exact .inl ⟨rfl, _, rfl⟩

/-- The merge that a call reverses, if it is not refused. -/
def reversed? (mergeRecordId : String) (now : Timestamp) (db : Db) : Option MergeRecord :=
  match reverseMerge mergeRecordId now db with
  | .ok (_, .ok _ _) => findMergeRecord mergeRecordId db.mergeRecord
  | .ok (_, .refused _) | .error _ => none

theorem reversed?_eq_some {record : MergeRecord} {result : ReverseResult} {db₀ : Db}
    {reassign : Option ReverseReassign} (h : reverseMerge mergeRecordId now db = .ok (db', result))
    (hfound : findMergeRecord mergeRecordId db.mergeRecord = some record)
    (hrows : reverseRows mergeRecordId record.snapshot now donor db = .ok (db₀, result, reassign)) :
    reversed? mergeRecordId now db = some record := by
  obtain ⟨rfl, -⟩ := Prod.mk.inj (reversedRows hrows).report
  rw [reversed?, h]
  exact hfound

/-- A reversal that passes every guard makes its writes. -/
theorem reverseMerge_eq_ok {record : MergeRecord} {db₀ : Db} {reassign : Option ReverseReassign}
    {result : ReverseResult}
    (hfound : findMergeRecord mergeRecordId db.mergeRecord = some record)
    (hopen : record.reversedAt = none) (hwindow : now < record.reversibleUntil)
    (hversion : record.snapshot.version = 1)
    (hD : findUser record.snapshot.donorUserId db.user = some donor)
    (htomb : donor.mergedIntoUserId = some record.snapshot.survivorUserId)
    (hrows : reverseRows mergeRecordId record.snapshot now donor db = .ok (db₀, result, reassign))
    (hdb' : db' = reassignOnReverse reassign db₀) :
    reverseMerge mergeRecordId now db = .ok (db', result) := by
  simp only [reverseMerge, runReverseTx, hfound, hopen, Int.not_le.mpr hwindow, hversion, hD, htomb,
    hrows, hdb', ne_eq, not_true_eq_false, if_false, ok_bind]
  rfl

theorem consistent_reassignOnReverse (hdb : db.Consistent) (reassign : Option ReverseReassign) :
    (reassignOnReverse reassign db).Consistent := by
  unfold reassignOnReverse
  split
  · exact { hdb with nullifierEntry := consistent_reassignOwner hdb.nullifierEntry _ _ _ }
  · exact hdb

/-- The ledger step of a reversal touches the ledger only. -/
theorem reassignOnReverse_frame (reassign : Option ReverseReassign) (db : Db) :
    ∃ entries, reassignOnReverse reassign db = { db with nullifierEntry := entries } := by
  unfold reassignOnReverse
  split
  · exact ⟨_, rfl⟩
  · exact ⟨_, rfl⟩

/-- What an accepted reversal leaves. -/
theorem reversedTables_of_reverseMerge {mergeRecordId : String} {now : Timestamp} {db db' : Db}
    {n k : Nat} (hdb : db.Consistent)
    (h : reverseMerge mergeRecordId now db = .ok (db', .ok n k)) :
    db'.Consistent ∧ ∃ record, findMergeRecord mergeRecordId db.mergeRecord = some record ∧
      record.reversedAt = none ∧
      (record.snapshot.survivorUserId ≠ record.snapshot.donorUserId →
        ∃ eligibility inviteRedemption subjectOverride oidcGrant nullifierEntry,
          ReversedTables record.snapshot db eligibility inviteRedemption subjectOverride oidcGrant ∧
          db' = { reversedDb mergeRecordId record.snapshot now db with
            eligibility, inviteRedemption, subjectOverride, oidcGrant, nullifierEntry }) := by
  obtain ⟨-, error, herror⟩ | ⟨record, donor, db₀, reassign, hfound, hopen, hD, -, hrows, rfl⟩ :=
    reverseMerge_effect h
  · cases herror
  have hrev := reversedRows hrows
  obtain ⟨survivor, hS, hSid⟩ := hrev.survivor
  refine ⟨consistent_reassignOnReverse (hrev.consistent hdb) reassign, record, hfound, hopen,
    fun hne => ?_⟩
  have hS' := (findUser_eq_some_iff hdb.user).mpr ⟨hS, hSid⟩
  obtain ⟨el, ir, so, gr, htables, hout⟩ :=
    (reverseRows_eq_ok_iff mergeRecordId now hdb hne hS' hD hrev.record).mp hrows
  obtain ⟨rfl, -⟩ := Prod.mk.inj hout
  obtain ⟨entries, hentries⟩ := reassignOnReverse_frame reassign
    { reversedDb mergeRecordId record.snapshot now db with
      eligibility := el, inviteRedemption := ir, subjectOverride := so, oidcGrant := gr }
  exact ⟨el, ir, so, gr, entries, htables, hentries⟩

end Minister
