import Minister.Groups.Actions
import Minister.Transition.Run

/-!
# A membership that is gone is revoked

The badge of a member is anchored on the id of the membership, and `removeMember` and `deleteGroup`
revoke the anchors of the memberships they delete. Both read the ids they revoke before they delete
the rows: `removeMember` outside of its transaction, `deleteGroup` in an earlier statement of it.
The rows are then deleted by group and account, or by group. A row that takes the place of one that
was read, or joins the group in between, is deleted and not revoked.

Calls run side by side, one statement at a time. Of a revocation only the tombstone is kept here.
-/

namespace Minister.GroupTombstones

open Relational Transition Groups Vc
open StatusLists (Revocation StatusAnchorRevocation)

/-- The tables, the calls made so far, and the ids of all memberships that were ever created; the
code does not keep the last. -/
structure State where
  tables : Tables
  tombstones : List StatusAnchorRevocation := []
  calls : List Call := []
  created : List String := []

inductive Action
  | start (request : Request)
  | advance (i : Nat) (o : Outside)

/-- The upsert of `revokeStatusAnchor`: a tombstone that is there stays. -/
def upsertTombstone (tombstones : List StatusAnchorRevocation) (r : Revocation) :
    List StatusAnchorRevocation :=
  if tombstones.any fun t => t.statusAnchor = r.anchor then tombstones
  else tombstones ++ [StatusLists.State.tombstoneOf r]

/-- The ids of the memberships that a statement inserts. -/
def insertedIds (before after : Tables) : List String :=
  (after.memberships.map (·.id)).filter fun id => id ∉ before.memberships.map (·.id)

/-- The call's statement; the ids it takes for new rows were never used. -/
def State.advance (env : IssuerEnv) (s : State) (i : Nat) (o : Outside) : Option State :=
  match s.calls[i]? with
  | none | some (.done _) => none
  | some c =>
    if o.membershipId ∈ s.created then none
    else
      let out := Groups.advance env o s.tables c
      some {
        tables := out.tables
        tombstones := out.revocations.foldl upsertTombstone s.tombstones
        calls := s.calls.set i out.call
        created := s.created ++ insertedIds s.tables out.tables }

def step (env : IssuerEnv) (s : State) : Action → Option State
  | .start request => some { s with calls := s.calls ++ [request.start env.text] }
  | .advance i o => s.advance env i o

/-- A call that advances does what `Groups.advance` says. -/
theorem advance_eq_some {env : IssuerEnv} {s s' : State} {i : Nat} {o : Outside}
    (h : s.advance env i o = some s') : ∃ c, s.calls[i]? = some c ∧ s' =
      let out := Groups.advance env o s.tables c
      { tables := out.tables
        tombstones := out.revocations.foldl upsertTombstone s.tombstones
        calls := s.calls.set i out.call
        created := s.created ++ insertedIds s.tables out.tables } := by
  unfold State.advance at h
  split at h
  · cases h
  · cases h
  · rename_i c hnot hcall
    split_ifs at h
    cases h
    exact ⟨c, hcall, rfl⟩

/-! ### The property -/

def State.Revoked (s : State) (membershipId : String) : Prop :=
  ∃ t ∈ s.tombstones, t.statusAnchor = groupMembershipAnchor membershipId

/-- Every membership that was created and is no longer there has a tombstone for its own anchor. -/
def Accounted (s : State) : Prop :=
  ∀ id ∈ s.created, id ∉ s.tables.memberships.map (·.id) → s.Revoked id

/-- The rows that the call's transaction is about to delete are those whose ids it has read. -/
def CallDeletesRead (t : Tables) : Call → Prop
  | .removing r _ target =>
    ∀ m ∈ t.memberships, m.isOf r.groupId r.targetUserId = true → m.id = target.id
  | .deleting r _ ids => ∀ m ∈ t.memberships, m.groupId = r.groupId → m.id ∈ ids
  | _ => True

def DeletesRead (s : State) : Action → Prop
  | .advance i _ => ∀ c ∈ s.calls[i]?, CallDeletesRead s.tables c
  | .start _ => True

instance (s : State) (id : String) : Decidable (s.Revoked id) :=
  inferInstanceAs (Decidable (∃ t ∈ s.tombstones, t.statusAnchor = groupMembershipAnchor id))

instance (s : State) : Decidable (Accounted s) :=
  inferInstanceAs (Decidable (∀ id ∈ s.created, _ → _))

instance (t : Tables) : (c : Call) → Decidable (CallDeletesRead t c)
  | .removing r _ target =>
    inferInstanceAs (Decidable (∀ m ∈ t.memberships, m.isOf r.groupId r.targetUserId = true →
      m.id = target.id))
  | .deleting r _ ids =>
    inferInstanceAs (Decidable (∀ m ∈ t.memberships, m.groupId = r.groupId → m.id ∈ ids))
  | .checkingSlug _ | .checkingTombstone _ | .checkingQuota _ | .founding _ | .authorizingDelete _
  | .readingMembers _ _ | .authorizingAdd _ | .findingUser _ _ | .findingMember _ _ | .adding _ _
  | .authorizingRemove _ | .findingTarget _ _ | .authorizingRole _ | .findingRole _
  | .settingRole _ _ | .done _ => isTrue trivial

instance (s : State) (a : Action) : Decidable (DeletesRead s a) := by
  cases a <;> unfold DeletesRead <;> infer_instance

/-! ### Tombstones -/

section Tombstones

variable {tombstones : List StatusAnchorRevocation} {r : Revocation} {rs : List Revocation}

theorem mem_upsertTombstone {t : StatusAnchorRevocation} (h : t ∈ tombstones) :
    t ∈ upsertTombstone tombstones r := by
  unfold upsertTombstone
  split_ifs
  · exact h
  · exact List.mem_append_left _ h

theorem exists_upsertTombstone : ∃ t ∈ upsertTombstone tombstones r, t.statusAnchor = r.anchor := by
  unfold upsertTombstone
  split_ifs with hany
  · obtain ⟨t, ht, hanchor⟩ := List.any_eq_true.mp hany
    exact ⟨t, ht, of_decide_eq_true hanchor⟩
  · exact ⟨_, List.mem_append_right _ (List.mem_singleton_self _), rfl⟩

/-- A loop over revocations keeps the tombstones that are there. -/
theorem mem_foldl_upsertTombstone {t : StatusAnchorRevocation} (h : t ∈ tombstones) :
    t ∈ rs.foldl upsertTombstone tombstones := by
  induction rs generalizing tombstones with
  | nil => exact h
  | cons r rs ih => exact ih (mem_upsertTombstone h)

/-- And writes one for each of them. -/
theorem exists_foldl_upsertTombstone (tombstones : List StatusAnchorRevocation) (h : r ∈ rs) :
    ∃ t ∈ rs.foldl upsertTombstone tombstones, t.statusAnchor = r.anchor := by
  induction rs generalizing tombstones with
  | nil => cases h
  | cons r' rs ih =>
    rw [List.foldl_cons]
    rcases List.mem_cons.mp h with rfl | hrest
    · obtain ⟨t, ht, hanchor⟩ : ∃ t ∈ upsertTombstone tombstones r, t.statusAnchor = r.anchor :=
        exists_upsertTombstone
      exact ⟨t, mem_foldl_upsertTombstone ht, hanchor⟩
    · exact ih _ hrest

end Tombstones

/-! ### One statement -/

section Step

variable {env : IssuerEnv} {o : Outside} {t t' : Tables} {c : Call} {rs : List Revocation}

/-- A row that a statement deletes is among those it revokes. -/
theorem revoked_of_turn (h : Turn env o t c t' rs) (hread : CallDeletesRead t c) {m : Membership}
    (hm : m ∈ t.memberships) (hgone : m.id ∉ t'.memberships.map (·.id)) :
    ∃ r ∈ rs, r.anchor = groupMembershipAnchor m.id := by
  have hkept (h : m ∈ t'.memberships) : False := hgone (List.mem_map_of_mem h)
  cases h with
  | reads => exact (hkept hm).elim
  | founds h =>
    obtain ⟨_, -, -, -, rfl⟩ := createGroupTx_eq_ok h
    exact (hkept (List.mem_append_left _ hm)).elim
  | adds h =>
    obtain ⟨_, -, -, -, rfl⟩ := addMemberTx_eq_ok h
    exact (hkept (List.mem_append_left _ hm)).elim
  | sets h =>
    -- the row stays under its id
    obtain rfl := setMemberRoleTx_eq_ok h
    refine (hgone (List.mem_map.mpr ⟨_, mem_mapWhere.mpr ⟨m, hm, rfl⟩, ?_⟩)).elim
    split_ifs <;> rfl
  | @removes r ctx target _ h =>
    obtain rfl := removeMemberTx_eq_ok h
    cases hof : m.isOf r.groupId r.targetUserId with
    | false => exact (hkept (mem_deleteMany.mpr ⟨hm, hof⟩)).elim
    | true =>
      refine ⟨_, List.mem_singleton_self _, ?_⟩
      rw [hread m hm hof]
      rfl
  | @deletes r group ids _ h =>
    obtain rfl := deleteGroupTx_eq_ok h
    by_cases hgroup : m.groupId = r.groupId
    · exact ⟨_, List.mem_map_of_mem (hread m hm hgroup), rfl⟩
    · exact (hkept (mem_deleteMany.mpr ⟨hm, by simp [hgroup]⟩)).elim

theorem mem_insertedIds {id : String} :
    id ∈ insertedIds t t' ↔
      id ∈ t'.memberships.map (·.id) ∧ id ∉ t.memberships.map (·.id) := by
  simp [insertedIds]

end Step

theorem accounted_step (env : IssuerEnv) (s : State) (a : Action) (s' : State) (hs : Accounted s)
    (hok : DeletesRead s a) (h : step env s a = some s') : Accounted s' := by
  cases a with
  | start request =>
    cases h
    exact hs
  | advance i o =>
    obtain ⟨c, hcall, rfl⟩ := advance_eq_some h
    have hread : CallDeletesRead s.tables c := hok c hcall
    have hturn : Turn env o s.tables c _ _ := turn_of_advance
    intro id hid hgone
    rcases List.mem_append.mp hid with hold | hnew
    · by_cases hthere : id ∈ s.tables.memberships.map (·.id)
      · obtain ⟨m, hm, rfl⟩ := List.mem_map.mp hthere
        obtain ⟨r, hr, hanchor⟩ := revoked_of_turn hturn hread hm hgone
        obtain ⟨t, ht, hr⟩ := exists_foldl_upsertTombstone s.tombstones hr
        exact ⟨t, ht, hr.trans hanchor⟩
      · obtain ⟨t, ht, hanchor⟩ := hs id hold hthere
        exact ⟨t, mem_foldl_upsertTombstone ht, hanchor⟩
    · exact absurd (mem_insertedIds.mp hnew).1 hgone

/-! ### Runs -/

/-- No call is in progress, and the memberships that were ever created are there or revoked. -/
structure State.Settled (s : State) : Prop where
  calls : s.calls = []
  present : ∀ m ∈ s.tables.memberships, m.id ∈ s.created
  accounted : Accounted s

/-- **No membership disappears unrevoked**, as long as every transaction deletes the rows that its
call has read. -/
theorem accounted_of_run (env : IssuerEnv) {s₀ s : State} {as : List Action} (hs : s₀.Settled)
    (hok : Along (step env) DeletesRead s₀ as) (hrun : run (step env) s₀ as = some s) :
    Accounted s :=
  run_invariant Accounted (accounted_step env) hs.accounted hok hrun

/-! ### A group that is deleted while a member joins -/

/-- One group with its owner. -/
def sampleState : State where
  tables := {
    users := ["cowner000", "cuser0000"]
    groups := [⟨"cgroup000", "acme", "cowner000"⟩]
    memberships := [⟨"m1", "cgroup000", "cowner000", .owner⟩] }
  created := ["m1"]

theorem sampleState_settled : sampleState.Settled := ⟨rfl, by decide, by decide +kernel⟩

def joining : Request := .addMember ⟨⟨"cowner000", "cgroup000", "cuser0000"⟩, .member⟩

def leaving : Request := .removeMember ⟨"cowner000", "cgroup000", "cuser0000"⟩

def deletion : Request := .deleteGroup ⟨"cowner000", "cgroup000"⟩

/-- The insert of the new member. -/
def insertion : Outside := { membershipId := "m2", minting := ⟨"b2", 0, 0⟩ }

/-- A member joins and is removed, and the group is deleted. -/
def joinLeaveDelete : List Action :=
  [.start joining, .advance 0 {}, .advance 0 {}, .advance 0 {}, .advance 0 insertion,
    .start leaving, .advance 1 {}, .advance 1 {}, .advance 1 { nowMs := 5 },
    .start deletion, .advance 2 {}, .advance 2 {}, .advance 2 { nowMs := 6 }]

theorem joinLeaveDelete_accounted : ∃ s,
    run (step sampleIssuerEnv) sampleState joinLeaveDelete = some s ∧
      s.created = ["m1", "m2"] ∧ s.tables.memberships = [] ∧ Accounted s := by
  have hrun : run (step sampleIssuerEnv) sampleState joinLeaveDelete = some _ := rfl
  exact ⟨_, hrun, by decide +kernel, by decide +kernel,
    accounted_of_run sampleIssuerEnv sampleState_settled (by decide +kernel) hrun⟩

/-- The deletion has read the members when the new one is inserted, and deletes both. -/
def joinDuringDelete : List Action :=
  [.start deletion, .start joining, .advance 1 {}, .advance 1 {}, .advance 1 {},
    .advance 0 {}, .advance 0 {}, .advance 1 insertion, .advance 0 { nowMs := 6 }]

theorem joinDuringDelete_unrevoked : ∃ s,
    run (step sampleIssuerEnv) sampleState joinDuringDelete = some s ∧
      s.calls = [.done .ok, .done .ok] ∧ "m2" ∈ s.created ∧ s.tables.memberships = [] ∧
        ¬ s.Revoked "m2" ∧ ¬ Accounted s := by
  exact exists_run (by decide +kernel)

end Minister.GroupTombstones
