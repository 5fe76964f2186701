import Minister.Merge.Subjects
import Minister.Transition.Forest
import Minister.Transition.Run

/-!
# Merges and reversals side by side

Calls of `mergeAccounts` and `reverseMerge` run against one database. A call reads
before its transaction, attempts the transaction up to five times, and settles the
ledger afterwards; between any two of these steps other calls take theirs. Each
transaction is one atomic step, and an attempt either runs to its end or is aborted
by a write conflict and tried again from a fresh snapshot.

Tombstones are meant to lead to a live account. `runMergeTx` reads the donor's
tombstone inside the transaction but not the survivor's: whether the chain from the
survivor leads to the donor is never asked there, and exactly the merges that commit
while it does break the property.
-/

namespace Minister.Interleaving

open Relational Transition

/-! ### Calls in progress -/

/-- `MAX_TX_ATTEMPTS`. -/
def maxTxAttempts : Nat := 5

/-- Where a call stands. -/
inductive Call
  /-- A merge past its caller's checks, before it has read anything. -/
  | called (survivorUserId donorUserId : UserId) (distinct : survivorUserId ≠ donorUserId)
  /-- The donor's subjects are computed; the next attempt has this number. -/
  | merging (survivorUserId donorUserId : UserId) (distinct : survivorUserId ≠ donorUserId)
      (donorSubByClient : List SubAtClient) (attempt : Nat)
  /-- The merge has committed; the ledger is not settled yet. -/
  | merged (survivorUserId : UserId) (result : MergeTxResult)
  /-- The record has been read and may be reversed. -/
  | reversing (mergeRecordId : String) (snap : MergeSnapshot) (attempt : Nat)
  /-- The reversal has committed; the ledger is not settled yet. -/
  | reversed (reassign : Option ReverseReassign)
  | finished

/-- The database and the calls made on it so far. -/
structure Server where
  db : Db
  calls : List Call

/-- The steps of the server. A call is named by its place in the list. -/
inductive Action
  /-- `confirmMerge` re-reads both accounts and calls `mergeAccounts`. -/
  | confirmMerge (survivorUserId donorUserId : UserId)
  /-- `mergeAccounts` called without that check. -/
  | mergeAccounts (survivorUserId donorUserId : UserId)
  /-- `reverseMerge` reads the record. -/
  | reverseMerge (mergeRecordId : String) (now : Timestamp)
  | precompute (call : Nat)
  /-- An attempt of the transaction that no write conflict aborts. -/
  | attempt (call : Nat) (now : Timestamp) (recordId : String)
  /-- An attempt aborted by a write conflict. -/
  | conflict (call : Nat)
  | postCommit (call : Nat) (handleCandidate : String)

/-- The account exists and is not tombstoned. -/
def isLive (userId : UserId) (t : List User) : Bool :=
  match findUser userId t with
  | some u => u.mergedIntoUserId = none
  | none => false

namespace Server

variable (s : Server)

def setCall (i : Nat) (c : Call) : Server := { s with calls := s.calls.set i c }

/-- `mergeAccounts` refuses to merge an account into itself. -/
def callMerge (survivorUserId donorUserId : UserId) : Server :=
  if h : survivorUserId ≠ donorUserId then
    { s with calls := s.calls ++ [.called survivorUserId donorUserId h] }
  else s

/-- The checks of `reverseMerge` before its transaction. -/
def callReverse (mergeRecordId : String) (now : Timestamp) : Server :=
  match findMergeRecord mergeRecordId s.db.mergeRecord with
  | none => s
  | some record =>
    if record.reversedAt = none ∧ now < record.reversibleUntil ∧ record.snapshot.version = 1 then
      { s with calls := s.calls ++ [.reversing mergeRecordId record.snapshot 1] }
    else s

/-- A transaction that runs to its end commits or throws. -/
def attempt (i : Nat) (now : Timestamp) (recordId : String) : Option Server :=
  match s.calls[i]? with
  | some (.merging survivorUserId donorUserId _ subs _) =>
    match runMergeTx survivorUserId donorUserId now recordId subs s.db with
    | .ok (db, result) => some { db, calls := s.calls.set i (.merged survivorUserId result) }
    | .error _ => some (s.setCall i .finished)
  | some (.reversing mergeRecordId snap _) =>
    match runReverseTx mergeRecordId snap now s.db with
    | .ok (db, _, reassign) => some { db, calls := s.calls.set i (.reversed reassign) }
    | .error _ => some (s.setCall i .finished)
  | _ => none

/-- `runWithWriteConflictRetry`: try again, unless this was the last attempt. -/
def conflict (i : Nat) : Option Server :=
  match s.calls[i]? with
  | some (.merging survivorUserId donorUserId h subs n) =>
    some (s.setCall i (if n < maxTxAttempts
      then .merging survivorUserId donorUserId h subs (n + 1) else .finished))
  | some (.reversing mergeRecordId snap n) =>
    some (s.setCall i (if n < maxTxAttempts
      then .reversing mergeRecordId snap (n + 1) else .finished))
  | _ => none

def postCommit (i : Nat) (handleCandidate : String) : Option Server :=
  match s.calls[i]? with
  | some (.merged survivorUserId result) =>
    some { db := runPostCommit (reassignOnMerge survivorUserId handleCandidate result) s.db
           calls := s.calls.set i .finished }
  | some (.reversed reassign) =>
    some { db := reassignOnReverse reassign s.db, calls := s.calls.set i .finished }
  | _ => none

end Server

/-- One step of the server, unless the named call is not at that point. -/
def step (pairwise : UserId → ClientId → String) (s : Server) : Action → Option Server
  | .confirmMerge survivorUserId donorUserId =>
    some (if isLive survivorUserId s.db.user && isLive donorUserId s.db.user
      then s.callMerge survivorUserId donorUserId else s)
  | .mergeAccounts survivorUserId donorUserId => some (s.callMerge survivorUserId donorUserId)
  | .reverseMerge mergeRecordId now => some (s.callReverse mergeRecordId now)
  | .precompute i =>
    match s.calls[i]? with
    | some (.called survivorUserId donorUserId h) =>
      some (s.setCall i (.merging survivorUserId donorUserId h
        (precomputeSubs pairwise donorUserId s.db) 1))
    | _ => none
  | .attempt i now recordId => s.attempt i now recordId
  | .conflict i => s.conflict i
  | .postCommit i handleCandidate => s.postCommit i handleCandidate

/-! ### What a step does to the database -/

section Steps

variable {pairwise : UserId → ClientId → String} {s s' : Server}

@[simp] theorem callMerge_db (S D : UserId) : (s.callMerge S D).db = s.db := by
  unfold Server.callMerge
  split_ifs <;> rfl

@[simp] theorem callReverse_db (mergeRecordId : String) (now : Timestamp) :
    (s.callReverse mergeRecordId now).db = s.db := by
  unfold Server.callReverse
  split
  · rfl
  · split_ifs <;> rfl

/-- A step leaves the database alone, commits a merge or a reversal, or settles
the ledger after one. -/
theorem step_db {a : Action} (h : step pairwise s a = some s') :
    s'.db = s.db ∨
    (∃ i now recordId S D, ∃ hne : S ≠ D, ∃ subs n result,
      a = .attempt i now recordId ∧ s.calls[i]? = some (.merging S D hne subs n) ∧
        runMergeTx S D now recordId subs s.db = .ok (s'.db, result)) ∨
    (∃ mergeRecordId snap now out, runReverseTx mergeRecordId snap now s.db = .ok (s'.db, out)) ∨
    (∃ S candidate result,
      s'.db = runPostCommit (reassignOnMerge S candidate result) s.db) ∨
    ∃ reassign, s'.db = reassignOnReverse reassign s.db := by
  cases a with
  | confirmMerge S D =>
    cases h
    left
    split_ifs <;> simp
  | mergeAccounts S D =>
    cases h
    exact .inl (callMerge_db S D)
  | reverseMerge id now =>
    cases h
    exact .inl (callReverse_db id now)
  | precompute i =>
    simp only [step] at h
    split at h <;> cases h
    exact .inl rfl
  | attempt i now recordId =>
    simp only [step, Server.attempt] at h
    split at h
    · rename_i S D hne subs n hcall
      split at h
      · rename_i db' result htx
        cases h
        exact .inr (.inl ⟨i, now, recordId, S, D, hne, subs, n, result, rfl, hcall, htx⟩)
      · cases h
        exact .inl rfl
    · rename_i id snap n hcall
      split at h
      · rename_i db' result reassign htx
        cases h
        exact .inr (.inr (.inl ⟨id, snap, now, _, htx⟩))
      · cases h
        exact .inl rfl
    · cases h
  | conflict i =>
    simp only [step, Server.conflict] at h
    split at h <;> cases h
    · exact .inl rfl
    · exact .inl rfl
  | postCommit i candidate =>
    simp only [step, Server.postCommit] at h
    split at h <;> cases h
    · exact .inr (.inr (.inr (.inl ⟨_, _, _, rfl⟩)))
    · exact .inr (.inr (.inr (.inr ⟨_, rfl⟩)))

end Steps

/-! ### Where tombstones lead -/

/-- The account an account is tombstoned into. -/
def parentOf (t : List User) (userId : UserId) : Option UserId :=
  (findUser userId t).bind (·.mergedIntoUserId)

/-- Tombstones form no cycle, and the chain from every account ends at a live one. -/
structure TombstonesLead (t : List User) : Prop where
  acyclic : ∀ u, ¬Relation.TransGen (fun a b => parentOf t a = some b) u u
  live : ∀ u ∈ t, ∃ v ∈ t, Relation.ReflTransGen (fun a b => parentOf t a = some b) u.id v.id ∧
    v.mergedIntoUserId = none

section Tombstones

variable {t : List User} {S D u v : UserId} {now : Timestamp} {isBanned : Bool}

theorem mem_of_parentOf (h : parentOf t u = some v) : ∃ x ∈ t, x.id = u := by
  obtain ⟨x, hx, -⟩ := Option.bind_eq_some_iff.mp h
  exact ⟨x, mem_of_findUser hx, findUser_id hx⟩

theorem parentOf_of_mem (ht : Consistent t) {x : User} (hx : x ∈ t) :
    parentOf t x.id = x.mergedIntoUserId := by
  simp [parentOf, (findUser_eq_some_iff ht).mpr ⟨hx, rfl⟩]

theorem parentOf_of_live (h : ∀ x ∈ t, x.mergedIntoUserId = none) (u : UserId) :
    parentOf t u = none := by
  cases hx : findUser u t with
  | none => simp [parentOf, hx]
  | some x => simp [parentOf, hx, h x (mem_of_findUser hx)]

/-- With no account tombstoned there is nowhere to go wrong. -/
theorem tombstonesLead_of_live (h : ∀ x ∈ t, x.mergedIntoUserId = none) : TombstonesLead t := by
  constructor
  · intro u hcycle
    obtain ⟨v, hv, -⟩ := Relation.TransGen.head'_iff.mp hcycle
    rw [parentOf_of_live h] at hv
    cases hv
  · exact fun x hx => ⟨x, hx, .refl, h x hx⟩

/-- In terms of parent pointers: a forest, all of whose parents are accounts. -/
theorem tombstonesLead_iff (ht : Consistent t) :
    TombstonesLead t ↔
      Forest.Rooted (parentOf t) ∧ ∀ u v, parentOf t u = some v → ∃ x ∈ t, x.id = v := by
  constructor
  · intro h
    have hroot : Forest.Rooted (parentOf t) := by
      intro u
      cases hu : parentOf t u with
      | none => exact ⟨u, .refl, hu⟩
      | some v =>
        obtain ⟨x, hx, rfl⟩ := mem_of_parentOf hu
        obtain ⟨w, hw, hlead, hlive⟩ := h.live x hx
        exact ⟨w.id, hlead, by rw [parentOf_of_mem ht hw, hlive]⟩
    refine ⟨hroot, fun u v huv => ?_⟩
    obtain ⟨x, hx, rfl⟩ := mem_of_parentOf huv
    obtain ⟨w, hw, hlead, hlive⟩ := h.live x hx
    -- The chain from `x` starts with `v`, which is its end or has a parent itself.
    rcases Relation.ReflTransGen.cases_head hlead with heq | ⟨v', hv', hrest⟩
    · rw [heq, parentOf_of_mem ht hw, hlive] at huv
      cases huv
    · obtain rfl : v' = v := Option.some_inj.mp (hv'.symm.trans huv)
      rcases Relation.ReflTransGen.cases_head hrest with heq | ⟨v₂, hv₂, -⟩
      · exact ⟨w, hw, heq.symm⟩
      · exact mem_of_parentOf hv₂
  · rintro ⟨hroot, hclosed⟩
    refine ⟨hroot.acyclic, fun x hx => ?_⟩
    obtain ⟨r, hlead, hr⟩ := hroot x.id
    obtain ⟨w, hw, rfl⟩ : r ∈ {a | ∃ y ∈ t, y.id = a} := hlead.mem ⟨x, hx, rfl⟩ hclosed
    exact ⟨w, hw, hlead, by rwa [parentOf_of_mem ht hw] at hr⟩

theorem parentOf_mergedUsers (hne : S ≠ D) {donor : User} (hD : findUser D t = some donor) :
    parentOf (mergedUsers S D now isBanned t) = Function.update (parentOf t) D (some S) := by
  funext u
  unfold parentOf mergedUsers
  rw [findUser_mapWhere (by intro x; rfl), findUser_mapWhere (by intro x; rfl)]
  by_cases hu : u = D
  · subst hu
    simp [hne.symm, hD, tombstoned]
  · rw [Function.update_of_ne hu, if_neg hu]
    split_ifs
    · rw [Option.bind_map]
      rfl
    · rfl

theorem parentOf_reversedUsers :
    parentOf (reversedUsers S D isBanned t) = Function.update (parentOf t) D none := by
  funext u
  unfold parentOf reversedUsers
  rw [findUser_mapWhere (by intro x; rfl), findUser_mapWhere (by intro x; rfl)]
  by_cases hu : u = D
  · simp [hu, revived, Option.bind_map, Function.comp_def]
  · rw [Function.update_of_ne hu, if_neg hu]
    split_ifs
    · rw [Option.bind_map]
      rfl
    · rfl

theorem parentOf_claimHandle (p : User → Bool) (candidate : String) :
    parentOf (t.map (claimHandle p candidate)) = parentOf t := by
  have hid : ∀ x, (claimHandle p candidate x).id = x.id ∧
      (claimHandle p candidate x).mergedIntoUserId = x.mergedIntoUserId := by
    intro x
    unfold claimHandle
    split_ifs <;> exact ⟨rfl, rfl⟩
  funext u
  unfold parentOf
  rw [findUser_map fun x => (hid x).1]
  cases findUser u t with
  | none => rfl
  | some x => exact (hid x).2

/-- A rewrite of other columns has the same account ids. -/
theorem exists_id_map {g : User → User} (hg : ∀ x, (g x).id = x.id) :
    (∃ x ∈ t.map g, x.id = u) ↔ ∃ x ∈ t, x.id = u := by
  simp [hg]

end Tombstones

/-! ### Runs -/

section Runs

variable {pairwise : UserId → ClientId → String} {s s' : Server} {a : Action}

theorem runReverseTx_frame {mergeRecordId : String} {snap : MergeSnapshot} {now : Timestamp}
    {db db' : Db} {out : ReverseResult × Option ReverseReassign} (hdb : db.Consistent)
    (h : runReverseTx mergeRecordId snap now db = .ok (db', out)) :
    db'.Consistent ∧ (db'.user = db.user ∨
      db'.user = reversedUsers snap.survivorUserId snap.donorUserId snap.survivorPrev.isBanned
        db.user) := by
  unfold runReverseTx at h
  split at h
  · cases h
    exact ⟨hdb, .inl rfl⟩
  · split_ifs at h
    · cases h
      exact ⟨hdb, .inl rfl⟩
    · have hrev := reversedRows h
      exact ⟨hrev.consistent hdb, .inr hrev.user⟩

/-- What a step does to the tombstones: nothing, hang a live donor below its
survivor, or revive an account. Every step keeps the unique constraints. -/
theorem step_parentOf (hs : s.db.Consistent) (h : step pairwise s a = some s') :
    s'.db.Consistent ∧
    (∀ u, (∃ x ∈ s'.db.user, x.id = u) ↔ ∃ x ∈ s.db.user, x.id = u) ∧
    (parentOf s'.db.user = parentOf s.db.user ∨
      (∃ i now recordId S D, ∃ hne : S ≠ D, ∃ subs n survivor donor,
        a = .attempt i now recordId ∧ s.calls[i]? = some (.merging S D hne subs n) ∧
          MergeReady S D recordId subs survivor donor s.db ∧
          parentOf s'.db.user = Function.update (parentOf s.db.user) D (some S)) ∨
      ∃ D, parentOf s'.db.user = Function.update (parentOf s.db.user) D none) := by
  rcases step_db h with heq | ⟨i, now, recordId, S, D, hne, subs, n, result, rfl, hcall, htx⟩ |
    ⟨id, snap, now, out, htx⟩ | ⟨S, candidate, result, heq⟩ | ⟨reassign, heq⟩
  · rw [heq]
    exact ⟨hs, fun _ => Iff.rfl, .inl rfl⟩
  · obtain ⟨survivor, donor, hready, hout⟩ := (runMergeTx_eq_ok_iff hs hne).mp htx
    obtain ⟨hdb', -⟩ := Prod.mk.inj hout
    obtain ⟨rfl, rfl⟩ := hready.ids
    rw [hdb']
    refine ⟨consistent_mergedDb now hs hne hready, fun u => ?_, .inr (.inl ?_)⟩
    · refine (exists_id_map ?_).trans (exists_id_map ?_) <;>
      · intro x
        split_ifs <;> rfl
    · exact ⟨i, now, recordId, _, _, hne, subs, n, survivor, donor, rfl, hcall, hready,
        parentOf_mergedUsers hne hready.donor_found⟩
  · obtain ⟨hcons, huser | huser⟩ := runReverseTx_frame hs htx
    · rw [huser]
      exact ⟨hcons, fun _ => Iff.rfl, .inl rfl⟩
    · rw [huser]
      refine ⟨hcons, fun u => ?_, .inr (.inr ⟨snap.donorUserId, parentOf_reversedUsers⟩)⟩
      refine (exists_id_map ?_).trans (exists_id_map ?_) <;>
      · intro x
        split_ifs <;> rfl
  · obtain ⟨p, entries, -, hpost, huser, hentries⟩ :=
      runPostCommit_reassignOnMerge_frame S candidate result s.db
    rw [heq, hpost]
    refine ⟨{ hs with user := huser hs.user, nullifierEntry := hentries hs.nullifierEntry },
      fun u => exists_id_map fun x => ?_, .inl (parentOf_claimHandle p candidate)⟩
    unfold claimHandle
    split_ifs <;> rfl
  · have huser : (reassignOnReverse reassign s.db).user = s.db.user := by
      unfold reassignOnReverse
      split <;> rfl
    rw [heq, huser]
    exact ⟨consistent_reassignOnReverse hs reassign, fun _ => Iff.rfl, .inl rfl⟩

/-- A merge that is about to commit does so with a survivor whose chain of
tombstones does not lead to the donor. -/
def SurvivorNotUnderDonor (s : Server) : Action → Prop
  | .attempt i _ recordId =>
    ∀ S D, ∀ hne : S ≠ D, ∀ subs n survivor donor,
      s.calls[i]? = some (.merging S D hne subs n) →
        MergeReady S D recordId subs survivor donor s.db →
          ¬Forest.Leads (parentOf s.db.user) S D
  | _ => True

/-- The step lemma: a step that meets the condition keeps tombstones leading to
live accounts. -/
theorem tombstonesLead_step (hs : s.db.Consistent) (hlead : TombstonesLead s.db.user)
    (hok : SurvivorNotUnderDonor s a) (h : step pairwise s a = some s') :
    TombstonesLead s'.db.user := by
  obtain ⟨hs', hids, hparent⟩ := step_parentOf hs h
  obtain ⟨hroot, hclosed⟩ := (tombstonesLead_iff hs.user).mp hlead
  rw [tombstonesLead_iff hs'.user]
  rcases hparent with heq | ⟨i, now, recordId, S, D, hne, subs, n, survivor, donor, rfl, hcall,
    hready, heq⟩ | ⟨D, heq⟩
  · rw [heq]
    exact ⟨hroot, fun u v huv => (hids v).mpr (hclosed u v huv)⟩
  · rw [heq]
    refine ⟨hroot.hang (hok S D hne subs n survivor donor hcall hready), fun u v huv => ?_⟩
    rw [hids]
    by_cases hu : u = D
    · rw [hu, Function.update_self, Option.some_inj] at huv
      exact ⟨survivor, mem_of_findUser hready.survivor_found,
        (findUser_id hready.survivor_found).trans huv⟩
    · rw [Function.update_of_ne hu] at huv
      exact hclosed u v huv
  · rw [heq]
    refine ⟨hroot.cut, fun u v huv => ?_⟩
    rw [hids]
    by_cases hu : u = D
    · rw [hu, Function.update_self] at huv
      cases huv
    · rw [Function.update_of_ne hu] at huv
      exact hclosed u v huv

/-- A merge that commits although its survivor's chain leads to the donor closes a cycle. -/
theorem exists_step_not_tombstonesLead (hs : s.db.Consistent)
    (hbad : ¬SurvivorNotUnderDonor s a) :
    ∃ s', step pairwise s a = some s' ∧ ¬TombstonesLead s'.db.user := by
  cases a with
  | attempt i now recordId =>
    simp only [SurvivorNotUnderDonor, not_forall, not_not] at hbad
    obtain ⟨S, D, hne, subs, n, survivor, donor, hcall, hready, hlead⟩ := hbad
    have htx : ∃ result, runMergeTx S D now recordId subs s.db =
        .ok (mergedDb survivor donor now recordId subs s.db, result) :=
      ⟨_, (runMergeTx_eq_ok_iff hs hne).mpr ⟨survivor, donor, hready, rfl⟩⟩
    obtain ⟨result, htx⟩ := htx
    have hstep : step pairwise s (.attempt i now recordId) =
        some ⟨mergedDb survivor donor now recordId subs s.db,
          s.calls.set i (.merged S result)⟩ := by
      simp only [step, Server.attempt, hcall, htx]
    refine ⟨_, hstep, fun hgood => ?_⟩
    have hcons := consistent_mergedDb now hs hne hready
    have hroot := ((tombstonesLead_iff hcons.user).mp hgood).1
    obtain ⟨rfl, rfl⟩ := hready.ids
    have hparent : parentOf (mergedDb survivor donor now recordId subs s.db).user =
        Function.update (parentOf s.db.user) donor.id (some survivor.id) :=
      parentOf_mergedUsers hne hready.donor_found
    rw [hparent] at hroot
    exact Forest.not_rooted_hang hlead hroot
  | _ => exact absurd trivial hbad

/-- From a consistent database in which tombstones lead to live accounts, they do
so in every state of a run exactly when no merge commits under its donor. -/
theorem tombstonesLead_run_iff {db : Db} (hdb : db.Consistent) (hlead : TombstonesLead db.user)
    (actions : List Action) :
    (∀ before s, before <+: actions → run (step pairwise) ⟨db, []⟩ before = some s →
        TombstonesLead s.db.user) ↔
      Along (step pairwise) SurvivorNotUnderDonor ⟨db, []⟩ actions := by
  constructor
  · apply along_of_forall_prefix (fun s : Server => s.db.Consistent)
      (fun s : Server => TombstonesLead s.db.user)
    · intro s a s' hs h
      exact (step_parentOf hs h).1
    · intro s a hs _ hbad
      exact exists_step_not_tombstonesLead hs hbad
    · exact hdb
  · intro hok before s hpre hrun
    have hinv : s.db.Consistent ∧ TombstonesLead s.db.user := by
      apply run_invariant (fun s => s.db.Consistent ∧ TombstonesLead s.db.user) ?_ ⟨hdb, hlead⟩
        (hok.of_prefix hpre) hrun
      intro s a s' hs hok h
      exact ⟨(step_parentOf hs.1 h).1, tombstonesLead_step hs.1 hs.2 hok h⟩
    exact hinv.2

end Runs

/-- Two live accounts. -/
def pairDb : Db where
  user := [liveUser "A" none, liveUser "B" none]

/-- One merge, with an aborted attempt, and its reversal. -/
def mergeThenReverse : List Action :=
  [.confirmMerge "A" "B", .precompute 0, .conflict 0, .attempt 0 0 "m1", .postCommit 0 "h",
    .reverseMerge "m1" 1, .attempt 1 1 "m2"]

theorem mergeThenReverse_tombstonesLead :
    ∃ s, run (step markedPairwise) ⟨pairDb, []⟩ mergeThenReverse = some s ∧
      TombstonesLead s.db.user := by
  have hlive : ∀ u ∈ pairDb.user, u.mergedIntoUserId = none := by decide
  have hdb : pairDb.Consistent := by constructor <;> decide
  refine ⟨_, rfl, (tombstonesLead_run_iff hdb (tombstonesLead_of_live hlive)
    mergeThenReverse).mpr ?_ mergeThenReverse _ List.prefix_rfl rfl⟩
  refine .cons trivial rfl (.cons trivial rfl (.cons trivial rfl (.cons ?_ rfl
    (.cons trivial rfl (.cons trivial rfl (.cons ?_ rfl trivial))))))
  · -- The merge commits while neither account is tombstoned.
    intro S D hne subs n survivor donor _ _ hunder
    rcases Relation.ReflTransGen.cases_head hunder with heq | ⟨v, hv, -⟩
    · exact hne heq
    · cases (parentOf_of_live hlive S).symm.trans hv
  · -- The second attempt is the reversal's.
    intro S D hne subs n survivor donor hcall
    cases Option.some.inj hcall

/-- Both accounts ask to absorb the other while both are live. The second
transaction is aborted once by a write conflict, and commits when tried again. -/
def crossMerges : List Action :=
  [.confirmMerge "A" "B", .confirmMerge "B" "A", .precompute 0, .precompute 1,
    .attempt 0 0 "m1", .conflict 1, .attempt 1 0 "m2"]

/-- The two merges tombstone each account into the other. -/
theorem crossMerges_cycle : pairDb.Consistent ∧ TombstonesLead pairDb.user ∧
    ∃ s, run (step markedPairwise) ⟨pairDb, []⟩ crossMerges = some s ∧
      parentOf s.db.user "A" = some "B" ∧ parentOf s.db.user "B" = some "A" ∧
      ¬TombstonesLead s.db.user := by
  have hlive : ∀ u ∈ pairDb.user, u.mergedIntoUserId = none := by decide
  refine ⟨by constructor <;> decide, tombstonesLead_of_live hlive, _, rfl, rfl, rfl, fun h => ?_⟩
  exact h.acyclic "A" (.tail (.single (b := "B") rfl) rfl)

end Minister.Interleaving
