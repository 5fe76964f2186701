import Minister.Merge.ReverseEffect
import Minister.Oidc.Consent
import Minister.Transition.Run

/-!
# Bans across merges

A merge carries a ban over: the survivor of a banned donor is banned as well. A reversal
writes the survivor's flag back as the merge found it. If an admin has banned the
survivor in between, the flag that comes back is that of an account not yet banned.
-/

namespace Minister.Bans

open Relational Transition

/-! ### The admin action -/

/-- What a session cookie says about the caller. -/
structure Jwt where
  userId : UserId
  sessionGeneration : Nat

/-- `requireAdmin`: the row must be of the session's generation, neither banned nor merged
away, and an admin. -/
def requireAdmin (jwt : Option Jwt) (t : List User) : Except String UserId :=
  match jwt with
  | none => .error "Not authorized"
  | some jwt =>
    match findUser jwt.userId t with
    | none => .error "Not authorized"
    | some fresh =>
      if fresh.sessionGeneration = jwt.sessionGeneration ∧ fresh.isBanned = false ∧
          fresh.mergedIntoUserId = none ∧ fresh.isAdmin = true then .ok fresh.id
      else .error "Not authorized"

/-- Admins cannot be banned. -/
def isTarget (userId : UserId) (u : User) : Bool := u.id = userId ∧ u.isAdmin = false

/-- A ban also ends the user's sessions. -/
def setFlag (banned : Bool) (u : User) : User :=
  if banned then { u with isBanned := true, sessionGeneration := u.sessionGeneration + 1 }
  else { u with isBanned := false }

/-- A ban also revokes the user's access tokens, a column that merges do not read and that is left
to the model of the tokens. -/
def setUserBanned (jwt : Option Jwt) (userId : UserId) (banned : Bool) (db : Db) :
    Except String Db :=
  match requireAdmin jwt db.user with
  | .error e => .error e
  | .ok adminId =>
    if Oidc.isCuid userId = false then .error "Invalid cuid"
    else if userId = adminId then .error "You can't ban yourself"
    else if db.user.any (isTarget userId) = false then .error "User not found (or is an admin)"
    else .ok { db with user := mapWhere (isTarget userId) (setFlag banned) db.user }

/-! ### Sequences -/

inductive Event
  | flagged (userId : UserId) (banned : Bool)
  | merged (recordId : String)
  deriving DecidableEq

/-- The database, and what has been done, newest first. -/
structure State where
  db : Db
  log : List Event := []

inductive Action
  | setUserBanned (jwt : Option Jwt) (userId : UserId) (banned : Bool)
  | mergeAccounts (pairwise : UserId → ClientId → String) (inputs : MergeInputs)
      (survivorUserId donorUserId : UserId)
  | reverseMerge (mergeRecordId : String) (now : Timestamp)

/-- A call that throws is rolled back. -/
def step (s : State) : Action → Option State
  | .setUserBanned jwt userId banned =>
    match setUserBanned jwt userId banned s.db with
    | .ok db => some ⟨db, .flagged userId banned :: s.log⟩
    | .error _ => some s
  | .mergeAccounts pairwise inputs survivorUserId donorUserId =>
    match mergeAccounts pairwise inputs survivorUserId donorUserId s.db with
    | .ok (db, _) => some ⟨db, .merged inputs.recordId :: s.log⟩
    | .error _ => some s
  | .reverseMerge mergeRecordId now =>
    match reverseMerge mergeRecordId now s.db with
    | .ok (db, _) => some { s with db }
    | .error _ => some s

/-- The latest ban (`some true`) or unban of an account. -/
def latest (userId : UserId) : List Event → Option Bool
  | [] => none
  | .flagged u banned :: rest => if u = userId then some banned else latest userId rest
  | .merged _ :: rest => latest userId rest

/-- What has been done since the merge of the record. -/
def since (recordId : String) (log : List Event) : List Event :=
  log.takeWhile fun e => e ≠ .merged recordId

/-- Whoever was last banned, and not unbanned, is banned. -/
def StaysBanned (s : State) : Prop :=
  ∀ u ∈ s.db.user, latest u.id s.log = some true → u.isBanned = true

/-- The survivor of a merge that is reversed was not banned since the merge, or it was
unbanned again. -/
def ReversesUnbanned (s : State) : Action → Prop
  | .reverseMerge mergeRecordId now => ∀ r ∈ reversed? mergeRecordId now s.db,
    latest r.snapshot.survivorUserId (since mergeRecordId s.log) ≠ some true
  | _ => True

instance (s : State) : Decidable (StaysBanned s) :=
  inferInstanceAs (Decidable (∀ u ∈ s.db.user, latest u.id s.log = some true → u.isBanned = true))

instance (s : State) (a : Action) : Decidable (ReversesUnbanned s a) := by
  cases a <;> unfold ReversesUnbanned <;> infer_instance

section Log

variable {userId u : UserId} {recordId id : String} {banned : Bool} {log : List Event}

theorem since_flagged : since id (.flagged u banned :: log) = .flagged u banned :: since id log :=
  List.takeWhile_cons_of_pos (by simp)

theorem since_merged (h : recordId ≠ id) :
    since id (.merged recordId :: log) = .merged recordId :: since id log :=
  List.takeWhile_cons_of_pos (by simp [h])

theorem latest_flagged_self : latest u (.flagged u banned :: log) = some banned := if_pos rfl

theorem latest_flagged_of_ne (h : u ≠ userId) :
    latest userId (.flagged u banned :: log) = latest userId log := if_neg h

end Log

/-! ### The invariant -/

/-- A record whose survivor was banned before the merge, and is still, captured the ban. -/
structure Sticky (s : State) : Prop where
  consistent : s.db.Consistent
  banned : StaysBanned s
  captured : ∀ r ∈ s.db.mergeRecord, latest r.snapshot.survivorUserId s.log = some true →
    latest r.snapshot.survivorUserId (since r.id s.log) ≠ some true →
    r.snapshot.survivorPrev.isBanned = true

section Steps

variable {s s' : State} {db : Db}

theorem setUserBanned_eq_ok {jwt : Option Jwt} {userId : UserId} {banned : Bool} {db' : Db}
    (h : setUserBanned jwt userId banned db = .ok db') :
    (∃ u ∈ db.user, isTarget userId u = true) ∧
      db' = { db with user := mapWhere (isTarget userId) (setFlag banned) db.user } := by
  unfold setUserBanned at h
  split at h
  · cases h
  · split_ifs at h with hcuid hself hany
    cases h
    exact ⟨by simpa using hany, rfl⟩

theorem setFlag_id (banned : Bool) (u : User) : (setFlag banned u).id = u.id := by
  cases banned <;> rfl

theorem setFlag_isBanned (banned : Bool) (u : User) : (setFlag banned u).isBanned = banned := by
  cases banned <;> rfl

theorem clash_setFlag (banned : Bool) (a b : User) : clash (setFlag banned a) b = clash a b := by
  cases banned <;> rfl

theorem Sticky.setUserBanned (hs : Sticky s) {jwt : Option Jwt} {userId : UserId} {banned : Bool}
    (h : setUserBanned jwt userId banned s.db = .ok db) :
    Sticky ⟨db, .flagged userId banned :: s.log⟩ := by
  obtain ⟨⟨target, htarget, hflag⟩, rfl⟩ := setUserBanned_eq_ok h
  have htid := of_decide_eq_true hflag
  constructor
  · exact { hs.consistent with
      user := hs.consistent.user.mapWhere_of_clash _ fun a b => clash_setFlag banned a b }
  · intro u hu hlatest
    obtain ⟨v, hv, rfl⟩ := mem_mapWhere.mp hu
    split_ifs at hlatest ⊢ with hv'
    · -- The row that is flagged.
      have hvid := (of_decide_eq_true hv').1
      rw [setFlag_id, hvid, latest_flagged_self] at hlatest
      rw [setFlag_isBanned]
      exact Option.some.inj hlatest
    · -- No other row has the id, since that of the target is unique.
      have hne : userId ≠ v.id := by
        intro heq
        apply hv'
        rwa [← hs.consistent.user.eq_of_clash htarget hv (clash_of_id_eq (htid.1.trans heq))]
      rw [latest_flagged_of_ne hne] at hlatest
      exact hs.banned v hv hlatest
  · intro r hr hlatest hsince
    rw [since_flagged] at hsince
    by_cases hu : userId = r.snapshot.survivorUserId
    · rw [hu, latest_flagged_self] at hlatest hsince
      exact absurd hlatest hsince
    · rw [latest_flagged_of_ne hu] at hlatest hsince
      exact hs.captured r hr hlatest hsince

/-- Merges and reversals write the flag of the survivor; what they write to the donor
leaves its flag alone. -/
theorem exists_flag {t : List User} {S D : UserId} {isBanned : Bool} {u : User} (f : User → User)
    (hf : ∀ v, (f v).id = v.id ∧ (f v).isBanned = v.isBanned)
    (h : u ∈ mapWhere (fun v => v.id = D) f (mapWhere (fun v => v.id = S) (withBan isBanned) t)) :
    ∃ v ∈ t, u.id = v.id ∧ u.isBanned = if v.id = S then isBanned else v.isBanned := by
  obtain ⟨w, hw, rfl⟩ := mem_mapWhere.mp h
  obtain ⟨v, hv, rfl⟩ := mem_mapWhere.mp hw
  refine ⟨v, hv, ?_⟩
  by_cases hS : v.id = S
  · split_ifs <;> simp_all [withBan]
  · split_ifs <;> simp_all

/-- The new record captures the survivor's flag, and the merge only adds to it. -/
theorem Sticky.mergeAccounts (hs : Sticky s) {pairwise : UserId → ClientId → String}
    {inputs : MergeInputs} {S D : UserId} {summary : MergeSummary}
    (h : mergeAccounts pairwise inputs S D s.db = .ok (db, summary)) :
    Sticky ⟨db, .merged inputs.recordId :: s.log⟩ := by
  obtain ⟨hne, survivor, donor, p, entries, hready, -, rfl, hcons⟩ :=
    settledDb_of_mergeAccounts hs.consistent h
  have hsurvivor := mem_of_findUser hready.survivor_found
  constructor
  · exact hcons
  · intro u hu hlatest
    obtain ⟨w, hw, rfl⟩ := List.mem_map.mp hu
    obtain ⟨v, hv, hid, hflag⟩ := exists_flag (tombstoned survivor.id inputs.now)
      (fun _ => ⟨rfl, rfl⟩) hw
    have hclaim : (claimHandle p inputs.handleCandidate w).id = w.id ∧
        (claimHandle p inputs.handleCandidate w).isBanned = w.isBanned := by
      unfold claimHandle
      split_ifs <;> exact ⟨rfl, rfl⟩
    rw [hclaim.1, hid] at hlatest
    have hbanned := hs.banned v hv hlatest
    rw [hclaim.2, hflag]
    split_ifs with hS
    · rw [← hs.consistent.user.eq_of_clash hv hsurvivor (clash_of_id_eq hS), hbanned, Bool.true_or]
    · exact hbanned
  · intro r hr hlatest hsince
    rcases List.mem_append.mp hr with hold | hnew
    · rw [since_merged (hready.recordId_fresh r hold).symm] at hsince
      exact hs.captured r hold hlatest hsince
    · -- The new record captures the flag that the survivor has.
      rw [List.mem_singleton.mp hnew] at hlatest ⊢
      exact hs.banned survivor hsurvivor hlatest

theorem Sticky.reverseMerge (hs : Sticky s) {mergeRecordId : String} {now : Timestamp}
    {result : ReverseResult} (hok : ReversesUnbanned s (.reverseMerge mergeRecordId now))
    (h : reverseMerge mergeRecordId now s.db = .ok (db, result)) : Sticky { s with db } := by
  rcases reverseMerge_effect h with
    ⟨rfl, -⟩ | ⟨record, donor, db₀, reassign, hfound, -, -, -, hrows, rfl⟩
  · exact hs
  have hrev := reversedRows hrows
  obtain ⟨entries, hframe⟩ := reassignOnReverse_frame reassign db₀
  have hrecord := List.mem_of_find?_eq_some hfound
  have hid : record.id = mergeRecordId := by simpa using List.find?_some hfound
  constructor
  · exact consistent_reassignOnReverse (hrev.consistent hs.consistent) reassign
  · intro u hu hlatest
    rw [hframe, hrev.user] at hu
    obtain ⟨v, hv, hvid, hflag⟩ := exists_flag revived (fun _ => ⟨rfl, rfl⟩) hu
    rw [hvid] at hlatest
    rw [hflag]
    split_ifs with hS
    · rw [hS] at hlatest
      apply hs.captured record hrecord hlatest
      rw [hid]
      exact hok record (reversed?_eq_some h hfound hrows)
    · exact hs.banned v hv hlatest
  · intro r hr hlatest hsince
    rw [hframe, hrev.mergeRecord] at hr
    obtain ⟨r₀, hr₀, rfl⟩ := mem_mapWhere.mp hr
    have hkept : (if decide (r₀.id = mergeRecordId) = true then { r₀ with reversedAt := some now }
        else r₀).snapshot = r₀.snapshot ∧
        (if decide (r₀.id = mergeRecordId) = true then { r₀ with reversedAt := some now }
        else r₀).id = r₀.id := by
      split_ifs <;> exact ⟨rfl, rfl⟩
    rw [hkept.1] at hlatest hsince ⊢
    rw [hkept.2] at hsince
    exact hs.captured r₀ hr₀ hlatest hsince

/-- The step lemma. -/
theorem Sticky.step {a : Action} (hs : Sticky s) (hok : ReversesUnbanned s a)
    (h : step s a = some s') : Sticky s' := by
  cases a with
  | setUserBanned jwt userId banned =>
    simp only [Bans.step] at h
    split at h
    · rename_i db hdb
      cases h
      exact hs.setUserBanned hdb
    · cases h
      exact hs
  | mergeAccounts pairwise inputs survivorUserId donorUserId =>
    simp only [Bans.step] at h
    split at h
    · rename_i db summary hdb
      cases h
      exact hs.mergeAccounts hdb
    · cases h
      exact hs
  | reverseMerge mergeRecordId now =>
    simp only [Bans.step] at h
    split at h
    · rename_i db result hdb
      cases h
      exact hs.reverseMerge hok hdb
    · cases h
      exact hs

theorem Sticky.init (hdb : db.Consistent) : Sticky { db } where
  consistent := hdb
  banned u _ hflag := by simp only [latest, reduceCtorEq] at hflag
  captured r _ hflag := by simp only [latest, reduceCtorEq] at hflag

end Steps

/-- **Bans last.** In every sequence of bans, unbans, merges and reversals, as long as no
merge is reversed whose survivor was banned since, an account whose latest ban or unban is
a ban is banned. -/
theorem staysBanned_of_run {db : Db} {as : List Action} {s : State} (hdb : db.Consistent)
    (hok : Along step ReversesUnbanned { db } as) (hrun : run step { db } as = some s) :
    StaysBanned s := by
  have hs : Sticky s := by
    apply run_invariant Sticky _ _ hok hrun
    · intro s a s' hs hok h
      exact hs.step hok h
    · exact .init hdb
  exact hs.banned

/-- An admin and two accounts. -/
def officeDb : Db where
  user := [⟨"cadmin0001", none, true, false, 0, none, none, none⟩,
    ⟨"calice0001", none, false, false, 0, none, none, none⟩,
    ⟨"cbob000001", none, false, false, 0, none, none, none⟩]

def mergeBobIntoAlice : Action :=
  .mergeAccounts (fun u c => u ++ c) ⟨0, "m1", "h1"⟩ "calice0001" "cbob000001"

def banAlice : Action := .setUserBanned (some ⟨"cadmin0001", 0⟩) "calice0001" true

theorem consistent_officeDb : officeDb.Consistent := by
  constructor <;> decide

/-- The survivor was banned before the merge: the reversal keeps the ban. -/
theorem banBeforeMerge_stays : ∃ s,
    run step { db := officeDb } [banAlice, mergeBobIntoAlice, .reverseMerge "m1" 1] = some s ∧
      latest "calice0001" s.log = some true ∧
      s.db.user.map (fun u => (u.id, u.isBanned, u.mergedIntoUserId)) =
        [("cadmin0001", false, none), ("calice0001", true, none), ("cbob000001", false, none)] ∧
      StaysBanned s := by
  exact exists_run_and (by decide +kernel) fun s hrun => ⟨of_run (by decide +kernel) hrun,
    staysBanned_of_run consistent_officeDb (by decide +kernel) hrun⟩

/-- An admin bans the survivor after the merge, and the reversal lifts the ban. -/
theorem banThenReverse_lifts : officeDb.Consistent ∧ ∃ s,
    run step { db := officeDb } [mergeBobIntoAlice, banAlice, .reverseMerge "m1" 1] = some s ∧
      latest "calice0001" s.log = some true ∧ ¬ StaysBanned s := by
  refine ⟨consistent_officeDb, ?_⟩
  apply exists_run
  decide +kernel

end Minister.Bans
