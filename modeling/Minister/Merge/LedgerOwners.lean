import Minister.Merge.RoundTrip
import Minister.Nullifier.SingleIssue

/-!
# Ledger entries across merges

A badge issued for a Sybil anchor refers to a ledger entry, and the entry is owned by the
dedup handle of the badge's holder. A merge hands the donor's badges to the survivor and
re-tags the entries they refer to; its record lists both. A reversal hands the listed
badges back and re-tags the listed entries back, whoever refers to them by then.

Issuance and deletion run as in `Issuance`; merges and reversals run between them.
-/

namespace Minister.LedgerOwners

open Relational Transition Issuance
open Sessions (accountAt account Turn Remains)

/-! ### Sequences -/

inductive Action
  /-- A step of an issuance or a deletion. -/
  | server (a : Issuance.Action)
  | mergeAccounts (pairwise : UserId → ClientId → String) (inputs : MergeInputs)
      (survivorUserId donorUserId : UserId)
  | reverseMerge (mergeRecordId : String) (now : Timestamp)

def isReturned : Call → Bool
  | .returned _ => true
  | _ => false

/-- Merges and reversals do not overlap with other calls, and the handle a merge mints is
new. A call that throws is rolled back. -/
def step (env : MacEnv) (s : State) : Action → Option State
  | .server a => Issuance.step env s a
  | .mergeAccounts pairwise inputs survivorUserId donorUserId =>
    if s.calls.all isReturned ∧ ∀ u ∈ s.db.user, u.dedupHandle ≠ some inputs.handleCandidate then
      match mergeAccounts pairwise inputs survivorUserId donorUserId s.db with
      | .ok (db, _) => some { s with db }
      | .error _ => some s
    else none
  | .reverseMerge mergeRecordId now =>
    if s.calls.all isReturned then
      match reverseMerge mergeRecordId now s.db with
      | .ok (db, _) => some { s with db }
      | .error _ => some s
    else none

/-- The entries a merge has re-tagged. -/
def retaggedRefs (r : MergeRecord) : List String := r.snapshot.dedupReassigned.getD []

/-- When a merge is reversed, the survivor holds what is left of its badges, and no other
badge refers to its entries. -/
def ReversesUnshared (s : State) : Action → Prop
  | .reverseMerge mergeRecordId now => ∀ r ∈ reversed? mergeRecordId now s.db,
    ∀ x ∈ s.db.badge, ∀ ref ∈ x.nullifierRef,
      (x.id ∈ r.snapshot.moved.badge → x.userId = r.snapshot.survivorUserId) ∧
      (ref ∈ retaggedRefs r → x.id ∈ r.snapshot.moved.badge)
  | _ => True

instance (s : State) (a : Action) : Decidable (ReversesUnshared s a) := by
  cases a <;> unfold ReversesUnshared <;> infer_instance

/-! ### What a record says -/

/-- The badges a record lists have been issued, and while they exist they refer to entries
it lists; the donor has a handle to give these back to; and no running batch answers for
them. -/
structure Recorded (s : State) (r : MergeRecord) : Prop where
  ids : ∀ id ∈ r.snapshot.moved.badge, id ∈ s.issuedIds
  refs : ∀ x ∈ s.db.badge, x.id ∈ r.snapshot.moved.badge →
    ∀ ref, x.nullifierRef = some ref → ref ∈ retaggedRefs r
  handle : retaggedRefs r ≠ [] → handleOf r.snapshot.donorUserId s.db.user ≠ none
  idle : ∀ i p, accountAt s i = some p → ∀ id ∈ p.createdIds, id ∉ r.snapshot.moved.badge

structure Sound (env : MacEnv) (s : State) : Prop where
  inv : Inv env s
  listed : ∀ x ∈ s.db.badge, x.id ∈ s.issuedIds
  recorded : ∀ r ∈ s.db.mergeRecord, Recorded s r

/-! ### Issuance and deletion -/

section Server

variable {env : MacEnv} {s s' : State} {a : Issuance.Action}

/-- Issuance and deletion leave the merge records alone. -/
theorem mergeRecord_of_step (h : Issuance.step env s a = some s') :
    s'.db.mergeRecord = s.db.mergeRecord := by
  obtain - | ⟨-, heffect⟩ := effect_of_step h
  · rfl
  · cases heffect <;> rfl

/-- The badge that a call has inserted is one that it answers for. -/
theorem minted_mem_createdIds {c : Call} {id : String} (hok : c.Ok env s)
    (h : c.minted? = some id) : ∃ p, account c = some p ∧ id ∈ p.createdIds := by
  cases c with
  | reregistering =>
    cases h
    exact ⟨_, rfl, MintedOk.created hok⟩
  | probing | repointing | reprobing =>
    cases h
    exact ⟨_, rfl, hok.1.created⟩
  | _ => cases h

/-- A step changes at most a badge that the moving call answers for. -/
theorem frame_of_step (hs : Inv env s) (h : Issuance.step env s a = some s') :
    ∃ touched, Frame touched s s' ∧
      ∀ id, touched = some id → ∃ i p, accountAt s i = some p ∧ id ∈ p.createdIds := by
  obtain - | @⟨i, c, _, _, hcall, heffect⟩ := effect_of_step h
  · exact ⟨none, { Frame.refl none s with }, nofun⟩
  · refine ⟨c.minted?, heffect.frame, fun id hid => ?_⟩
    obtain ⟨p, hp, hmem⟩ := minted_mem_createdIds (hs.call_ok hcall) hid
    exact ⟨i, p, (Sessions.accountAt_of_call hcall).trans hp, hmem⟩

/-- What batches answer for after a step: what they did before, and a new badge. -/
theorem accounts_of_step (hs : Inv env s) (h : Issuance.step env s a = some s') :
    (∀ id, Remains s' id → Remains s id ∨ id ∈ s'.issuedIds) ∧
      ∀ i p, accountAt s' i = some p → ∀ id ∈ p.createdIds,
        id ∉ s.issuedIds ∨ ∃ q, accountAt s i = some q ∧ id ∈ q.createdIds := by
  by_cases hstart : Sessions.isStart (.server a) = false
  · cases Sessions.turn_of_server (s := ⟨s, [], []⟩) hs hstart h with
    | stays haccount hbadge =>
      exact ⟨fun id hid => .inl (hbadge id hid), fun i p hp id hid => .inr ⟨p, haccount ▸ hp, hid⟩⟩
    | mints j q new hold haccount _ hbadge hfresh hissued =>
      constructor
      · intro id hid
        refine (hbadge id hid).symm.imp_right ?_
        rintro rfl
        rw [hissued]
        exact List.mem_cons_self
      · intro i p hp id hid
        change accountAt s' i = some p at hp
        rw [haccount, Function.update_apply] at hp
        split_ifs at hp with hij
        · cases hp
          rcases List.mem_append.mp hid with hmem | hnew
          · exact .inr ⟨q, hij ▸ hold, hmem⟩
          · rw [List.mem_singleton.mp hnew]
            exact .inl hfresh
        · exact .inr ⟨p, hp, hid⟩
    | erases j q hold haccount hbadge =>
      refine ⟨fun id hid => .inl (hbadge id hid).1, fun i p hp id hid => .inr ?_⟩
      change accountAt s' i = some p at hp
      rw [haccount, Function.update_apply] at hp
      split_ifs at hp with hij
      · cases hp
        exact ⟨q, hij ▸ hold, hid⟩
      · exact ⟨p, hp, hid⟩
    | ends j q hold haccount hbadge =>
      refine ⟨fun id hid => .inl ?_, fun i p hp id hid => .inr ?_⟩
      · rw [Remains, ← hbadge]
        exact hid
      · change accountAt s' i = some p at hp
        rw [haccount, Function.update_apply] at hp
        split_ifs at hp
        exact ⟨p, hp, hid⟩
  · cases a with
    | issueBadgesAndComplete sessionId userId pluginId issued anonBackupPending =>
      cases h
      refine ⟨fun _ hid => .inl hid, fun i p hp id hid => ?_⟩
      change accountAt (s.addCall _) i = some p at hp
      rw [Sessions.accountAt_add rfl, Function.update_apply] at hp
      split_ifs at hp
      · cases hp
      · -- A batch starts without badges.
        cases hp
        cases hid
      · exact .inr ⟨p, hp, hid⟩
    | _ => exact absurd rfl hstart

theorem Recorded.server (hs : Inv env s) (h : Issuance.step env s a = some s') {r : MergeRecord}
    (hr : Recorded s r) : Recorded s' r := by
  obtain ⟨touched, hf, htouched⟩ := frame_of_step hs h
  constructor
  · exact fun id hid => hf.issuedIds (hr.ids id hid)
  · intro x hx hid ref href
    obtain ⟨y, hy, hyid, -, -, hsame | htouch⟩ := hf.badge_of_issued hx (hr.ids x.id hid)
    · exact hr.refs y hy (hyid ▸ hid) ref (hsame.trans href)
    · -- Only a running batch points a badge elsewhere.
      obtain ⟨i, p, hp, hmem⟩ := htouched x.id htouch
      exact absurd hid (hr.idle i p hp x.id hmem)
  · intro hrefs hnone
    obtain ⟨handle, hhandle⟩ := Option.ne_none_iff_exists'.mp (hr.handle hrefs)
    rw [hf.handles _ handle hhandle] at hnone
    cases hnone
  · intro i p hp id hid hmoved
    rcases (accounts_of_step hs h).2 i p hp id hid with hnew | ⟨q, hq, hold⟩
    · exact hnew (hr.ids id hmoved)
    · exact hr.idle i q hq id hold hmoved

theorem Sound.server (hs : Sound env s) (h : Issuance.step env s a = some s') : Sound env s' where
  inv := inv_step hs.inv h
  listed := by
    intro x hx
    obtain ⟨touched, hf, -⟩ := frame_of_step hs.inv h
    rcases (accounts_of_step hs.inv h).1 x.id ⟨x, hx, rfl⟩ with ⟨y, hy, hid⟩ | hissued
    · exact hid ▸ hf.issuedIds (hs.listed y hy)
    · exact hissued
  recorded := by
    rw [mergeRecord_of_step h]
    exact fun r hr => (hs.recorded r hr).server hs.inv h

end Server

/-! ### Badges and entries change hands -/

/-- The badges that `p` selects are handed to an account, together with the entries they
refer to; the entries of other badges stay. -/
structure Handover (s : State) (db' : Db) (p : Badge → Bool) (v : UserId) : Prop where
  user : Consistent db'.user
  badge : Consistent db'.badge
  entry : Consistent db'.nullifierEntry
  badges : db'.badge = mapWhere p (setOwner v) s.db.badge
  handles : ∀ u k, handleOf u s.db.user = some k → handleOf u db'.user = some k
  entryIds : ∀ e ∈ db'.nullifierEntry, ∃ e₀ ∈ s.db.nullifierEntry, e₀.id = e.id
  moved : ∀ x ∈ s.db.badge, p x = true → ∀ e ∈ s.db.nullifierEntry,
    x.nullifierRef = some e.id → handleOf x.userId s.db.user = some e.ownerHandle →
      ∃ k, handleOf v db'.user = some k ∧ { e with ownerHandle := k } ∈ db'.nullifierEntry
  kept : ∀ x ∈ s.db.badge, p x = false → ∀ e ∈ s.db.nullifierEntry,
    x.nullifierRef = some e.id → handleOf x.userId s.db.user = some e.ownerHandle →
      e ∈ db'.nullifierEntry

section Handovers

variable {env : MacEnv} {s : State} {db' : Db} {p : Badge → Bool} {v : UserId}

theorem quiescent_of_all (hq : s.calls.all isReturned = true) : Quiescent s := by
  intro c hc
  have hret := List.all_eq_true.mp hq c hc
  cases c with
  | returned error => exact ⟨error, rfl⟩
  | _ => cases hret

theorem accountAt_of_all (hq : s.calls.all isReturned = true) (i : Nat) : accountAt s i = none := by
  unfold accountAt
  cases hcall : s.calls[i]? with
  | none => rfl
  | some c =>
    obtain ⟨error, rfl⟩ := quiescent_of_all hq c (List.mem_of_getElem? hcall)
    rfl

variable (h : Handover s db' p v)

include h

theorem Handover.backed
    (hs : ∀ x ∈ s.db.badge, ∀ ref, x.nullifierRef = some ref → Backed env s x ref) :
    ∀ x ∈ db'.badge, ∀ ref, x.nullifierRef = some ref → Backed env { s with db := db' } x ref := by
  intro x' hx' ref href
  rw [h.badges] at hx'
  obtain ⟨x, hx, rfl⟩ := mem_mapWhere.mp hx'
  split_ifs at href ⊢ with hp
  · obtain ⟨anchor, hissued, e, he, rfl, hvalue, howner⟩ := hs x hx ref href
    obtain ⟨k, hk, hmem⟩ := h.moved x hx hp e he href howner
    exact ⟨anchor, hissued, _, hmem, rfl, hvalue, hk⟩
  · obtain ⟨anchor, hissued, e, he, rfl, hvalue, howner⟩ := hs x hx ref href
    have hmem := h.kept x hx (Bool.eq_false_iff.mpr hp) e he href howner
    exact ⟨anchor, hissued, e, hmem, rfl, hvalue, h.handles _ _ howner⟩

/-- A badge keeps its id and its entry. -/
theorem Handover.exists_badge {x : Badge} (hx : x ∈ db'.badge) :
    ∃ y ∈ s.db.badge, y.id = x.id ∧ y.nullifierRef = x.nullifierRef := by
  rw [h.badges] at hx
  obtain ⟨y, hy, rfl⟩ := mem_mapWhere.mp hx
  refine ⟨y, hy, ?_⟩
  split_ifs <;> exact ⟨rfl, rfl⟩

theorem Handover.inv (hs : Inv env s) (hq : s.calls.all isReturned = true) :
    Inv env { s with db := db' } where
  user := h.user
  badge := h.badge
  entry := h.entry
  entryIds := by
    intro e he
    obtain ⟨e₀, he₀, hid⟩ := h.entryIds e he
    exact hid ▸ hs.entryIds e₀ he₀
  issuedOnce := hs.issuedOnce
  calls := by
    intro c hc
    obtain ⟨error, rfl⟩ := quiescent_of_all hq c hc
    trivial
  mintedOnce := hs.mintedOnce
  backed := fun x hx ref href => .inl (h.backed
    (fun _ hy _ hyref => hs.backed_of_quiescent (quiescent_of_all hq) hy hyref) x hx ref href)

theorem Handover.recorded {r : MergeRecord} (hr : Recorded s r) :
    Recorded { s with db := db' } r where
  ids := hr.ids
  refs := by
    intro x hx hid ref href
    obtain ⟨y, hy, hyid, hyref⟩ := h.exists_badge hx
    exact hr.refs y hy (hyid ▸ hid) ref (hyref.trans href)
  handle := by
    intro hrefs hnone
    obtain ⟨k, hk⟩ := Option.ne_none_iff_exists'.mp (hr.handle hrefs)
    rw [h.handles _ k hk] at hnone
    cases hnone
  idle := hr.idle

theorem Handover.sound (hs : Sound env s) (hq : s.calls.all isReturned = true)
    (hrecords : ∀ r ∈ db'.mergeRecord, Recorded { s with db := db' } r) :
    Sound env { s with db := db' } where
  inv := h.inv hs.inv hq
  listed := by
    intro x hx
    obtain ⟨y, hy, hid, -⟩ := h.exists_badge hx
    exact hid ▸ hs.listed y hy
  recorded := hrecords

end Handovers

/-! ### Merges -/

section Merges

variable {env : MacEnv} {s : State} {db db' : Db} {S D : UserId}

theorem handleOf_mapWhere {t : List User} {q : User → Bool} (f : User → User) (u : UserId)
    (hid : ∀ x, (f x).id = x.id) (hhandle : ∀ x, (f x).dedupHandle = x.dedupHandle) :
    handleOf u (mapWhere q f t) = handleOf u t := by
  unfold handleOf mapWhere
  rw [findUser_map (by intro y; split_ifs <;> simp [hid])]
  cases findUser u t with
  | none => rfl
  | some x =>
    simp only [Option.map_some, Option.bind_some]
    split_ifs
    · exact hhandle x
    · rfl

theorem handleOf_mergedUsers (now : Timestamp) (isBanned : Bool) (u : UserId) (t : List User) :
    handleOf u (mergedUsers S D now isBanned t) = handleOf u t :=
  (handleOf_mapWhere (tombstoned S now) u (fun _ => rfl) fun _ => rfl).trans
    (handleOf_mapWhere (withBan isBanned) u (fun _ => rfl) fun _ => rfl)

theorem handleOf_reversedUsers (isBanned : Bool) (u : UserId) (t : List User) :
    handleOf u (reversedUsers S D isBanned t) = handleOf u t :=
  (handleOf_mapWhere revived u (fun _ => rfl) fun _ => rfl).trans
    (handleOf_mapWhere (withBan isBanned) u (fun _ => rfl) fun _ => rfl)

/-- What a merge does to handles, entries and records. -/
structure Merged (S D : UserId) (db db' : Db) (r : MergeRecord) : Prop where
  ne : S ≠ D
  user : Consistent db'.user
  badge : Consistent db'.badge
  badges : db'.badge = repoint D S db.badge
  handles : ∀ u k, handleOf u db.user = some k → handleOf u db'.user = some k
  entries : db'.nullifierEntry = db.nullifierEntry ∧ dedupReassigned D db.badge = [] ∨
    db'.nullifierEntry = db.nullifierEntry ∧ handleOf D db.user = none ∨
    ∃ k k', handleOf D db.user = some k ∧ handleOf S db'.user = some k' ∧
      db'.nullifierEntry = mapWhere (isReassigned (dedupReassigned D db.badge) k)
        (fun e => { e with ownerHandle := k' }) db.nullifierEntry
  record : db'.mergeRecord = db.mergeRecord ++ [r]
  donor : r.snapshot.donorUserId = D
  movedBadge : r.snapshot.moved.badge = keysOf D db.badge
  refs : retaggedRefs r = dedupReassigned D db.badge

/-- The ledger step of a merge, when there is something to re-tag. -/
theorem postCommit_of_refs {candidate donorHandle : String} {result : MergeTxResult}
    (huser : Consistent db.user) (hS : (findUser S db.user).isSome = true)
    (hfresh : ∀ u ∈ db.user, u.dedupHandle ≠ some candidate)
    (hdonor : result.donorHandle = some donorHandle) (hrefs : result.entryRefs ≠ []) :
    ∃ user k, Consistent user ∧ handleOf S user = some k ∧
      (∀ u h, handleOf u db.user = some h → handleOf u user = some h) ∧
      runPostCommit (reassignOnMerge S candidate result) db = { db with
        user
        nullifierEntry := mapWhere (isReassigned result.entryRefs donorHandle)
          (fun e => { e with ownerHandle := k }) db.nullifierEntry } := by
  obtain ⟨survivor, hsurvivor⟩ := Option.isSome_iff_exists.mp hS
  obtain rfl := findUser_id hsurvivor
  refine ⟨db.user.map (claimHandle (isUnclaimed survivor.id) candidate),
    survivor.dedupHandle.getD candidate, consistent_claim huser hfresh, ?_, ?_, ?_⟩
  · have hclaimed (u : User) : (claimHandle (isUnclaimed survivor.id) candidate u).id = u.id := by
      unfold claimHandle
      split_ifs <;> rfl
    rw [handleOf, findUser_map hclaimed, hsurvivor]
    exact dedupHandle_claimHandle survivor
  · exact fun u h hu => handleOf_claim hu
  · rw [runPostCommit_reassignOnMerge survivor huser hsurvivor hfresh hdonor hrefs,
      reassignOwner_fst]

theorem merged_of_mergeAccounts {pairwise : UserId → ClientId → String} {inputs : MergeInputs}
    {summary : MergeSummary} (hfresh : ∀ u ∈ db.user, u.dedupHandle ≠ some inputs.handleCandidate)
    (h : mergeAccounts pairwise inputs S D db = .ok (db', summary)) :
    ∃ r, Merged S D db db' r := by
  unfold mergeAccounts at h
  by_cases hne : S = D
  · simp [hne, throw, throwThe, MonadExceptOf.throw, bind, Except.bind] at h
  simp only [hne, if_false] at h
  obtain ⟨⟨db₁, result⟩, htx, hout⟩ := bind_eq_ok_iff.mp h
  cases hout
  obtain ⟨survivor, donor, hS, hD, huser, hcons, hbadge, hbcons, hentry, hrecord, hrefs, hhandle,
    -⟩ := runMergeTx_rows htx
  obtain rfl := findUser_id hD
  have hhandles (u : UserId) : handleOf u db₁.user = handleOf u db.user := by
    rw [huser, handleOf_mergedUsers]
  have hdonor : handleOf donor.id db.user = donor.dedupHandle := by
    rw [handleOf, hD, Option.bind_some]
  refine ⟨newMergeRecord inputs.recordId inputs.now (mergeSnapshot survivor donor inputs.now
    (precomputeSubs pairwise donor.id db) db), ?_⟩
  have hskip (hnone : result.donorHandle = none ∨ result.entryRefs = []) :
      runPostCommit (reassignOnMerge S inputs.handleCandidate result) db₁ = db₁ :=
    runPostCommit_reassignOnMerge_skip hnone
  by_cases hempty : result.entryRefs = []
  · rw [hskip (.inr hempty)]
    exact ⟨hne, hcons, hbcons, hbadge, fun u k hu => (hhandles u).trans hu,
      .inl ⟨hentry, hrefs ▸ hempty⟩, hrecord, rfl, rfl, rfl⟩
  cases hd : result.donorHandle with
  | none =>
    rw [hskip (.inl hd)]
    exact ⟨hne, hcons, hbcons, hbadge, fun u k hu => (hhandles u).trans hu,
      .inr (.inl ⟨hentry, hdonor.trans (hhandle.symm.trans hd)⟩), hrecord, rfl, rfl, rfl⟩
  | some donorHandle =>
    have hfound : (findUser S db₁.user).isSome = true := by
      rw [huser, mergedUsers, findUser_mapWhere (by intro x; rfl), if_neg hne,
        findUser_mapWhere (by intro x; rfl), if_pos rfl, hS]
      rfl
    obtain ⟨user, k, hucons, hk, hkeeps, hpost⟩ := postCommit_of_refs hcons hfound
      (huser ▸ dedupHandle_mergedUsers inputs.now _ hfresh) hd hempty
    rw [hpost]
    exact ⟨hne, hucons, hbcons, hbadge, fun u h hu => hkeeps u h ((hhandles u).trans hu),
      .inr (.inr ⟨donorHandle, k, hdonor.trans (hhandle.symm.trans hd), hk, by rw [hrefs, hentry]⟩),
      hrecord, rfl, rfl, rfl⟩

theorem mem_dedupReassigned {t : List Badge} {ref : String} :
    ref ∈ dedupReassigned D t ↔ ∃ x ∈ t, x.userId = D ∧ x.nullifierRef = some ref := by
  simp [dedupReassigned, findMany, and_assoc]

/-- A merge hands the donor's badges and their entries over. -/
theorem Merged.handover {r : MergeRecord} (h : Merged S D s.db db' r) (hs : Inv env s) :
    Handover s db' (fun x => owner x = some D) S where
  user := h.user
  badge := h.badge
  entry := by
    rcases h.entries with ⟨heq, -⟩ | ⟨heq, -⟩ | ⟨k, k', -, -, heq⟩
    · exact heq ▸ hs.entry
    · exact heq ▸ hs.entry
    · rw [heq]
      exact hs.entry.mapWhere_of_clash _ fun _ _ => rfl
  badges := h.badges
  handles := h.handles
  entryIds := by
    intro e he
    rcases h.entries with ⟨heq, -⟩ | ⟨heq, -⟩ | ⟨k, k', -, -, heq⟩
    · exact ⟨e, heq ▸ he, rfl⟩
    · exact ⟨e, heq ▸ he, rfl⟩
    · rw [heq] at he
      obtain ⟨e₀, he₀, rfl⟩ := mem_mapWhere.mp he
      refine ⟨e₀, he₀, ?_⟩
      split_ifs <;> rfl
  moved := by
    intro x hx hxD e he href howner
    have hD : x.userId = D := Option.some.inj (of_decide_eq_true hxD)
    have hmem : e.id ∈ dedupReassigned D s.db.badge := mem_dedupReassigned.mpr ⟨x, hx, hD, href⟩
    rw [hD] at howner
    rcases h.entries with ⟨-, hempty⟩ | ⟨-, hnone⟩ | ⟨k, k', hk, hk', heq⟩
    · rw [hempty] at hmem
      cases hmem
    · rw [hnone] at howner
      cases howner
    · -- The entry was the donor's, so it is re-tagged.
      obtain rfl : k = e.ownerHandle := Option.some.inj (hk.symm.trans howner)
      refine ⟨k', hk', ?_⟩
      rw [heq]
      exact mem_mapWhere.mpr ⟨e, he, by simp [isReassigned, hmem]⟩
  kept := by
    intro x hx hxD e he href howner
    rcases h.entries with ⟨heq, -⟩ | ⟨heq, -⟩ | ⟨k, k', hk, hk', heq⟩
    · exact heq ▸ he
    · exact heq ▸ he
    · -- Handles are unique: the entry of another holder is not the donor's.
      have hother : e.ownerHandle ≠ k := by
        rintro rfl
        exact of_decide_eq_false hxD (congrArg some (eq_of_handleOf hs.user howner hk))
      rw [heq]
      exact mem_mapWhere.mpr ⟨e, he, by simp [isReassigned, hother]⟩

theorem Merged.recorded {r : MergeRecord} (h : Merged S D s.db db' r) (hs : Sound env s)
    (hq : s.calls.all isReturned = true) : Recorded { s with db := db' } r where
  ids := by
    rw [h.movedBadge]
    intro id hid
    obtain ⟨x, hx, -, rfl⟩ := mem_keysOf.mp hid
    exact hs.listed x hx
  refs := by
    rw [h.movedBadge, h.refs]
    intro x' hx' hid ref href
    obtain ⟨x, hx, hxid, hxref⟩ := (h.handover hs.inv).exists_badge hx'
    rw [← hxid] at hid
    have hD := (hs.inv.badge.key_mem_keysOf hx).mp hid
    exact mem_dedupReassigned.mpr ⟨x, hx, Option.some.inj hD, hxref.trans href⟩
  handle := by
    rw [h.refs, h.donor]
    intro hrefs hnone
    obtain ⟨ref, href⟩ := List.exists_mem_of_ne_nil _ hrefs
    obtain ⟨x, hx, hxD, hxref⟩ := mem_dedupReassigned.mp href
    obtain ⟨-, -, e, -, -, -, howner⟩ :=
      hs.inv.backed_of_quiescent (quiescent_of_all hq) hx hxref
    rw [hxD] at howner
    rw [h.handles _ _ howner] at hnone
    cases hnone
  idle := by
    intro i p hp
    change accountAt s i = some p at hp
    rw [accountAt_of_all hq] at hp
    cases hp

theorem Sound.mergeAccounts {pairwise : UserId → ClientId → String} {inputs : MergeInputs}
    {summary : MergeSummary} (hs : Sound env s) (hq : s.calls.all isReturned = true)
    (hfresh : ∀ u ∈ s.db.user, u.dedupHandle ≠ some inputs.handleCandidate)
    (h : mergeAccounts pairwise inputs S D s.db = .ok (db', summary)) :
    Sound env { s with db := db' } := by
  obtain ⟨r, hr⟩ := merged_of_mergeAccounts hfresh h
  have hover := hr.handover hs.inv
  refine hover.sound hs hq (hr.record ▸ ?_)
  exact forall_mem_concat (fun r' hold => hover.recorded (hs.recorded r' hold))
    (hr.recorded hs hq)

end Merges

/-! ### Reversals -/

section Reversals

variable {env : MacEnv} {s s' : State} {db' : Db} {t : List NullifierEntry} {refs : List String}
  {e : NullifierEntry} {fromHandle toHandle : Option String}

/-- Re-tagging keeps ids. -/
theorem exists_of_mem_retagged (h : e ∈ retagged refs fromHandle toHandle t) :
    ∃ e₀ ∈ t, e₀.id = e.id := by
  unfold retagged at h
  split at h
  · rw [reassignOwner_fst] at h
    obtain ⟨e₀, he₀, rfl⟩ := mem_mapWhere.mp h
    refine ⟨e₀, he₀, ?_⟩
    split_ifs <;> rfl
  · exact ⟨e, h, rfl⟩

theorem consistent_retagged (h : Consistent t) :
    Consistent (retagged refs fromHandle toHandle t) := by
  unfold retagged
  split
  · exact consistent_reassignOwner h _ _ _
  · exact h

theorem mem_retagged_of_notMem (he : e ∈ t) (hrefs : e.id ∉ refs) :
    e ∈ retagged refs fromHandle toHandle t := by
  unfold retagged
  split
  · rw [reassignOwner_fst]
    exact mem_mapWhere.mpr ⟨e, he, by simp [isReassigned, hrefs]⟩
  · exact he

theorem mem_retagged {k : String} (he : e ∈ t) (hrefs : e.id ∈ refs) :
    { e with ownerHandle := k } ∈ retagged refs (some e.ownerHandle) (some k) t := by
  change _ ∈ (reassignOwner refs e.ownerHandle k t).1
  rw [reassignOwner_fst]
  exact mem_mapWhere.mpr ⟨e, he, by simp [isReassigned, hrefs]⟩

/-- A reversal whose badges and entries still belong together hands them back. -/
theorem Sound.reverseMerge {mergeRecordId : String} {now : Timestamp} {result : ReverseResult}
    (hs : Sound env s) (hq : s.calls.all isReturned = true)
    (hok : ReversesUnshared s (.reverseMerge mergeRecordId now))
    (h : reverseMerge mergeRecordId now s.db = .ok (db', result)) :
    Sound env { s with db := db' } := by
  rcases reverseMerge_effect h with
    ⟨rfl, -⟩ | ⟨record, donor, db₀, reassign, hfound, -, hdonor, -, hrows, rfl⟩
  · exact hs
  have hrev := reversedRows hrows
  have hrecord := List.mem_of_find?_eq_some hfound
  have hrec := hs.recorded record hrecord
  have hunshared := hok record (reversed?_eq_some h hfound hrows)
  obtain ⟨-, rfl⟩ := Prod.mk.inj hrev.report
  have hdonorHandle : donor.dedupHandle = handleOf record.snapshot.donorUserId s.db.user := by
    rw [handleOf, hdonor, Option.bind_some]
  have hhandles (u : UserId) : handleOf u db₀.user = handleOf u s.db.user := by
    rw [hrev.user, handleOf_reversedUsers]
  rw [reassignOnReverse_eq, hrev.nullifierEntry]
  have hover : Handover s { db₀ with
      nullifierEntry := retagged (retaggedRefs record)
        (handleOf record.snapshot.survivorUserId s.db.user) donor.dedupHandle
        s.db.nullifierEntry }
      (fun x => key x ∈ record.snapshot.moved.badge) record.snapshot.donorUserId :=
    { user := hrev.users
      badge := hrev.badges
      entry := consistent_retagged hs.inv.entry
      badges := hrev.badge
      handles := fun u k hk => (hhandles u).trans hk
      entryIds := fun e he => exists_of_mem_retagged he
      moved := by
        intro x hx hmoved e he href howner
        have hmoved := of_decide_eq_true hmoved
        have hmem := hrec.refs x hx hmoved e.id href
        rw [(hunshared x hx e.id href).1 hmoved] at howner
        obtain ⟨k, hk⟩ := Option.ne_none_iff_exists'.mp (hrec.handle (List.ne_nil_of_mem hmem))
        refine ⟨k, (hhandles _).trans hk, ?_⟩
        rw [howner, hdonorHandle, hk]
        exact mem_retagged he hmem
      kept := by
        intro x hx hkept e he href _
        apply mem_retagged_of_notMem he
        intro hmem
        exact of_decide_eq_false hkept ((hunshared x hx e.id href).2 hmem) }
  refine hover.sound hs hq fun r hr => ?_
  -- The record is closed, and otherwise as it was.
  change r ∈ db₀.mergeRecord at hr
  rw [hrev.mergeRecord] at hr
  obtain ⟨r₀, hr₀, rfl⟩ := mem_mapWhere.mp hr
  have hkept := hover.recorded (hs.recorded r₀ hr₀)
  split_ifs
  · exact ⟨hkept.ids, hkept.refs, hkept.handle, hkept.idle⟩
  · exact hkept

/-- The step lemma. -/
theorem Sound.step {a : Action} (hs : Sound env s) (hok : ReversesUnshared s a)
    (h : step env s a = some s') : Sound env s' := by
  cases a with
  | server a => exact hs.server h
  | mergeAccounts pairwise inputs survivorUserId donorUserId =>
    simp only [LedgerOwners.step] at h
    split_ifs at h with hguard
    split at h
    · rename_i hmerge
      cases h
      exact hs.mergeAccounts hguard.1 hguard.2 hmerge
    · cases h
      exact hs
  | reverseMerge mergeRecordId now =>
    simp only [LedgerOwners.step] at h
    split_ifs at h with hq
    split at h
    · rename_i hreverse
      cases h
      exact hs.reverseMerge hq hok hreverse
    · cases h
      exact hs

/-- A database to start from: badges and ledger agree, every badge is listed as issued, and
the merge records there are say the truth. -/
structure Ready (env : MacEnv) (issued : List (String × Option String)) (db : Db) : Prop where
  settled : Settled env issued db
  listed : ∀ x ∈ db.badge, x.id ∈ issued.map Prod.fst
  recorded : ∀ r ∈ db.mergeRecord, Recorded { db, issued } r

/-- **One credential, one account.** In every sequence of issuances, deletions, merges and
reversals, as long as a merge is reversed only while its badges and entries belong together,
whenever no call is running every badge that refers to the ledger refers to an entry owned
by its holder's handle. -/
theorem dedupSafe_of_merges {issued : List (String × Option String)} {db : Db}
    {as : List Action} {s : State} (hdb : Ready env issued db)
    (hok : Along (step env) ReversesUnshared
      { db, issued, entryIds := db.nullifierEntry.map (·.id) } as)
    (hrun : run (step env) { db, issued, entryIds := db.nullifierEntry.map (·.id) } as = some s)
    (hq : Quiescent s) : DedupSafe s := by
  have hs : Sound env s := by
    apply run_invariant (Sound env) _ _ hok hrun
    · intro s a s' hs hok h
      exact hs.step hok h
    · refine ⟨hdb.settled.inv, hdb.listed, fun r hr => ?_⟩
      have hr := hdb.recorded r hr
      exact ⟨hr.ids, hr.refs, hr.handle, nofun⟩
  exact hs.inv.dedupSafe hq

end Reversals

/-- Two accounts, each with a handle and an open wizard session. -/
def householdDb : Db where
  user := [liveUser "A" (some "hA"), liveUser "B" (some "hB")]
  wizardSession := [⟨"s1", "B", "github", none⟩, ⟨"s2", "A", "github", none⟩]

theorem ready_householdDb : Ready sampleEnv [] householdDb where
  settled := ⟨by decide, by decide, by decide, by decide, by simp [householdDb]⟩
  listed := by simp [householdDb]
  recorded := by simp [householdDb]

/-- A batch of one GitHub badge, from its start to its end. -/
def issueGithub (call : Nat) (sessionId : String) (userId : UserId) (entryId badgeId : String) :
    List Action :=
  [.server (.issueBadgesAndComplete sessionId userId "github" [githubBadge] false),
    .server (.nextBadge call), .server (.readHandle call), .server (.registerDedup call entryId),
    .server (.issueBadge call badgeId), .server (.probe call), .server (.nextBadge call),
    .server (.complete call)]

/-- The donor connects GitHub before the merge. -/
def mergeAfterIssue : List Action :=
  issueGithub 0 "s1" "B" "e1" "b1" ++
    [.mergeAccounts (fun u c => u ++ c) ⟨0, "m1", "hNew"⟩ "A" "B"]

/-- The badge goes to the survivor and back, and its entry with it. -/
theorem mergeAndBack_dedupSafe : Ready sampleEnv [] householdDb ∧ ∃ s,
    run (step sampleEnv) { db := householdDb } (mergeAfterIssue ++ [.reverseMerge "m1" 1]) =
      some s ∧
    s.db.badge = [⟨"b1", "B", "oauth-account", none, some "e1"⟩] ∧
    s.db.nullifierEntry.map (fun e => (e.id, e.ownerHandle)) = [("e1", "hB")] ∧ DedupSafe s := by
  refine ⟨ready_householdDb, exists_run_and (by decide +kernel) fun s hrun => ⟨?_, ?_⟩⟩
  · exact of_run (by decide +kernel) hrun
  · exact dedupSafe_of_merges ready_householdDb (by decide +kernel) hrun
      (quiescent_of_all (of_run (by decide +kernel) hrun))

/-- After the merge the survivor connects the same GitHub account once more: the entry is its
own, and the new badge refers to it. The reversal gives the entry back to the donor, and the
survivor's badge refers to an entry of another account. -/
theorem reissuedBadge_loses_entry : Ready sampleEnv [] householdDb ∧ ∃ s,
    run (step sampleEnv) { db := householdDb }
      (mergeAfterIssue ++ issueGithub 1 "s2" "A" "e2" "b2" ++ [.reverseMerge "m1" 1]) = some s ∧
    Quiescent s ∧
    s.db.badge = [⟨"b1", "B", "oauth-account", none, some "e1"⟩,
      ⟨"b2", "A", "oauth-account", none, some "e1"⟩] ∧
    s.db.nullifierEntry.map (fun e => (e.id, e.ownerHandle)) = [("e1", "hB")] ∧
    ¬ DedupSafe s := by
  refine ⟨ready_householdDb, _, rfl, quiescent_of_all rfl, rfl, rfl, fun hsafe => ?_⟩
  obtain ⟨e, he, -, howner⟩ := hsafe.entry ⟨"b2", "A", "oauth-account", none, some "e1"⟩
    (List.mem_cons_of_mem _ List.mem_cons_self) "e1" rfl
  rw [List.mem_singleton.mp he] at howner
  exact absurd howner (by decide)

end Minister.LedgerOwners
