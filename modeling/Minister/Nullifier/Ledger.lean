import Minister.Schema

/-!
# The dedup ledger

The interim backend of the nullifier service (`lib/nullifier/interim.ts`) and the
owner handles of `lib/nullifier/index.ts`. An entry holds the keyed value of one
credential and the opaque handle of the account that registered it; the unique
index on the value is what makes a credential usable by one account only.

Handles are 16 random bytes in base64url, so a handle that is present is never
the empty string and the source's truthiness tests are tests for presence.
-/

namespace Minister

open Relational

inductive RegisterDedupResult
  | registered (entryRef : String)
  | alreadyYours (entryRef : String)
  | taken
  deriving DecidableEq, Repr

/-- `registerDedup`: record-first insert. `freshId` is the id the database
assigns to a new row. -/
def registerDedup (value : List UInt8) (badgeType ownerHandle freshId : String)
    (t : List NullifierEntry) :
    Except ServerError (List NullifierEntry × RegisterDedupResult) :=
  match create { id := freshId, value, ownerHandle, badgeType } t with
  | .ok t' => .ok (t', .registered freshId)
  | .error _ =>
    match t.find? fun e => e.value = value with
    | none => .error (.thrown "nullifier: register raced a release; retry")
    | some existing =>
      if existing.ownerHandle = ownerHandle then .ok (t, .alreadyYours existing.id)
      else .ok (t, .taken)

/-- An entry with another id and another value does not change what the ledger answers. -/
theorem registerDedup_append {value : List UInt8} {badgeType ownerHandle freshId : String}
    {t t' : List NullifierEntry} {e : NullifierEntry} {r : RegisterDedupResult}
    (hcons : Consistent (t ++ [e])) (hid : e.id ≠ freshId) (hvalue : e.value ≠ value)
    (h : registerDedup value badgeType ownerHandle freshId t = .ok (t', r)) :
    ∃ t'', registerDedup value badgeType ownerHandle freshId (t ++ [e]) = .ok (t'', r) := by
  unfold registerDedup at h ⊢
  split at h
  case h_1 t₁ hcreate =>
    obtain ⟨hcons', -⟩ := create_eq_ok_iff.mp hcreate
    obtain ⟨-, rfl⟩ := Prod.mk.inj (Except.ok.inj h)
    rw [create, store_eq_ok (hcons.append_append hcons' (by simp [clash, hid, hvalue]))]
    exact ⟨_, rfl⟩
  case h_2 err hcreate =>
    -- What the new row clashed with is still there.
    have hcreate' : create ⟨freshId, value, ownerHandle, badgeType⟩ (t ++ [e]) =
        .error .uniqueViolation := by
      refine if_neg fun hcons' => ?_
      have hsub := hcons'.sublist (((List.sublist_append_left t [e]).append_right _))
      rw [create, store_eq_ok hsub] at hcreate
      cases hcreate
    rw [hcreate']
    split at h
    · cases h
    · rename_i existing hfind
      have hfind' : (t ++ [e]).find? (fun e => e.value = value) = some existing := by
        rw [List.find?_append, hfind, Option.some_or]
      simp only [hfind']
      split_ifs at h ⊢ with howner
      · exact ⟨_, by rw [(Prod.mk.inj (Except.ok.inj h)).2]⟩
      · exact ⟨_, by rw [(Prod.mk.inj (Except.ok.inj h)).2]⟩

def findEntry (entryRef : String) (t : List NullifierEntry) : Option NullifierEntry :=
  t.find? fun e => e.id = entryRef

/-- `entryExistsForOwner`: the owner-checked probe. -/
def entryExistsForOwner (entryRef ownerHandle : String) (t : List NullifierEntry) : Bool :=
  match findEntry entryRef t with
  | none => false
  | some entry => entry.ownerHandle = ownerHandle

/-- `release`: one statement that deletes the entry only if no badge refers to it. -/
def release (entryRef ownerHandle : String) (badge : List Badge) (t : List NullifierEntry) :
    List NullifierEntry :=
  deleteMany (fun e => e.id = entryRef ∧ e.ownerHandle = ownerHandle ∧
    ∀ b ∈ badge, b.nullifierRef ≠ some entryRef) t

/-- The rows `reassignOwner` selects. -/
def isReassigned (entryRefs : List String) (fromOwnerHandle : String) (e : NullifierEntry) : Bool :=
  e.id ∈ entryRefs ∧ e.ownerHandle = fromOwnerHandle

/-- `reassignOwner`: re-tag an explicit list of entries, reporting how many moved. -/
def reassignOwner (entryRefs : List String) (fromOwnerHandle toOwnerHandle : String)
    (t : List NullifierEntry) : List NullifierEntry × Nat :=
  if entryRefs.length = 0 then (t, 0)
  else if fromOwnerHandle = toOwnerHandle then (t, 0)
  else
    (mapWhere (isReassigned entryRefs fromOwnerHandle)
      (fun e => { e with ownerHandle := toOwnerHandle }) t,
      (findMany (isReassigned entryRefs fromOwnerHandle) t).length)

/-- The early exits of `reassignOwner` only skip updates that change nothing. -/
theorem reassignOwner_fst (entryRefs : List String) (h h' : String) (t : List NullifierEntry) :
    (reassignOwner entryRefs h h' t).1 =
      mapWhere (isReassigned entryRefs h) (fun e => { e with ownerHandle := h' }) t := by
  unfold reassignOwner
  split_ifs with hnil heq
  · obtain rfl : entryRefs = [] := List.length_eq_zero_iff.mp hnil
    exact (mapWhere_eq_self fun e _ he => by simp [isReassigned] at he).symm
  · subst heq
    refine (mapWhere_eq_self fun e _ he => ?_).symm
    obtain ⟨-, rfl⟩ : e.id ∈ entryRefs ∧ e.ownerHandle = h := by simpa [isReassigned] using he
    rfl
  · rfl

theorem consistent_reassignOwner {t : List NullifierEntry} (h : Consistent t)
    (entryRefs : List String) (fromHandle toHandle : String) :
    Consistent (reassignOwner entryRefs fromHandle toHandle t).1 := by
  rw [reassignOwner_fst]
  exact h.mapWhere_of_clash _ fun _ _ => rfl

/-- The account whose handle slot is still empty. -/
def isUnclaimed (userId : UserId) (u : User) : Bool := u.id = userId ∧ u.dedupHandle = none

/-- `ensureDedupHandle`: read the handle, or claim the empty slot with a fresh
candidate. -/
def ensureDedupHandle (userId : UserId) (candidate : String) (t : List User) :
    Except ServerError (List User × String) := do
  match (findUser userId t).bind (·.dedupHandle) with
  | some handle => return (t, handle)
  | none =>
    let after ← stmt (updateMany (isUnclaimed userId)
      (fun u => { u with dedupHandle := some candidate }) t)
    if (findMany (isUnclaimed userId) t).length = 1 then return (after, candidate)
    match (findUser userId after).bind (·.dedupHandle) with
    | some handle => return (after, handle)
    | none => throw (.thrown s!"Failed to mint dedupHandle for user {userId}")

/-- Accounts with the same id clash. -/
theorem clash_of_id_eq {a b : User} (h : a.id = b.id) : clash a b = true := by
  simp [clash, h]

variable {t : List User} {userId : UserId} {u : User} {candidate : String}

theorem eq_of_findUser {v : User} (h : Consistent t) (hu : findUser u.id t = some u) (hv : v ∈ t)
    (hid : v.id = u.id) : v = u :=
  h.eq_of_clash hv (List.mem_of_find?_eq_some hu) (clash_of_id_eq hid)

theorem findUser_id (h : findUser userId t = some u) : u.id = userId := by
  simpa using List.find?_some h

theorem mem_of_findUser (h : findUser userId t = some u) : u ∈ t :=
  List.mem_of_find?_eq_some h

/-- An id names one account. -/
theorem findUser_eq_some_iff (h : Consistent t) :
    findUser userId t = some u ↔ u ∈ t ∧ u.id = userId := by
  rw [findUser, h.find?_eq_some_iff, decide_eq_true_eq]
  intro a b ha hb
  exact clash_of_id_eq ((of_decide_eq_true ha).trans (of_decide_eq_true hb).symm)

/-- A rewrite that keeps ids commutes with the lookup. -/
theorem findUser_map {g : User → User} (hg : ∀ x, (g x).id = x.id) :
    findUser userId (t.map g) = (findUser userId t).map g :=
  find?_map_of_keeps fun x => by rw [hg]

/-- The rewrite of one account shows in its lookup only. -/
theorem findUser_mapWhere {v : UserId} {g : User → User} (hg : ∀ x, (g x).id = x.id) :
    findUser userId (mapWhere (fun x => x.id = v) g t) =
      if userId = v then (findUser userId t).map g else findUser userId t := by
  rw [mapWhere, findUser_map fun x => by split_ifs <;> simp [hg]]
  cases hx : findUser userId t with
  | none => simp
  | some x =>
    simp only [Option.map_some, findUser_id hx, decide_eq_true_eq]
    split_ifs <;> rfl

/-- The accounts after the empty slot of one was claimed. -/
abbrev claimed (userId : UserId) (candidate : String) (t : List User) : List User :=
  mapWhere (isUnclaimed userId) (fun u => { u with dedupHandle := some candidate }) t

/-- A handle no account carries may be claimed. -/
theorem consistent_claim (h : Consistent t) (hfresh : ∀ v ∈ t, v.dedupHandle ≠ some candidate) :
    Consistent (claimed userId candidate t) := by
  refine h.mapWhere (fun a _ b _ ha hb hab => ?_) fun a _ b hb _ _ hab => ?_
  · have haid : a.id = userId := (of_decide_eq_true ha).1
    have hbid : b.id = userId := (of_decide_eq_true hb).1
    rw [clash_of_id_eq (haid.trans hbid.symm)] at hab
    exact Bool.noConfusion hab
  · have hb' : some candidate ≠ b.dedupHandle := fun e => hfresh b hb e.symm
    simp only [clash, sameKey, Bool.or_eq_false_iff] at hab ⊢
    exact ⟨hab.1, by simpa using hb'⟩

/-- With a fresh candidate `ensureDedupHandle` returns the account's handle,
minting it exactly if there was none. -/
theorem ensureDedupHandle_eq_ok (h : Consistent t) (hu : findUser userId t = some u)
    (hfresh : ∀ v ∈ t, v.dedupHandle ≠ some candidate) :
    ensureDedupHandle userId candidate t =
      .ok (claimed userId candidate t, u.dedupHandle.getD candidate) := by
  obtain ⟨hut, rfl⟩ := (findUser_eq_some_iff h).mp hu
  unfold ensureDedupHandle
  cases hh : u.dedupHandle with
  | some handle =>
    have hself : claimed u.id candidate t = t := by
      refine mapWhere_eq_self fun v hv hun => ?_
      obtain ⟨hid, hnone⟩ := of_decide_eq_true hun
      rw [eq_of_findUser h hu hv hid, hh] at hnone
      cases hnone
    simp [hu, hh, hself, pure, Except.pure]
  | none =>
    have hone : (findMany (isUnclaimed u.id) t).length = 1 := by
      have hmem : u ∈ findMany (isUnclaimed u.id) t :=
        mem_findMany.mpr ⟨hut, by simp [isUnclaimed, hh]⟩
      have hall : ∀ v ∈ findMany (isUnclaimed u.id) t, v.id = u.id := fun v hv =>
        (of_decide_eq_true (mem_findMany.mp hv).2).1
      have hpair : (findMany (isUnclaimed u.id) t).Pairwise fun a b => clash a b = false :=
        List.Pairwise.filter _ h
      match hl : findMany (isUnclaimed u.id) t with
      | [] => simp [hl] at hmem
      | [_] => rfl
      | a :: b :: l =>
        rw [hl] at hpair hall
        have hab : clash a b = false := List.rel_of_pairwise_cons hpair List.mem_cons_self
        have hid : a.id = b.id := (hall a (by simp)).trans (hall b (by simp)).symm
        simp [clash_of_id_eq hid] at hab
    rw [updateMany_eq_ok_iff.mpr ⟨consistent_claim h hfresh, rfl⟩]
    simp [hu, hh, hone, pure, Except.pure]

/-- Mint a handle for a selected account. -/
def claimHandle (p : User → Bool) (candidate : String) (u : User) : User :=
  if p u then { u with dedupHandle := some candidate } else u

/-- Whatever `ensureDedupHandle` does, it leaves the accounts consistent and only
mints a handle for its own account. -/
theorem ensureDedupHandle_frame {t' : List User} {handle : String}
    (h : ensureDedupHandle userId candidate t = .ok (t', handle)) :
    ∃ p, (∀ u, p u = true → isUnclaimed userId u = true) ∧ t' = t.map (claimHandle p candidate) ∧
      (Consistent t → Consistent t') := by
  unfold ensureDedupHandle at h
  cases hf : (findUser userId t).bind (·.dedupHandle) with
  | some handle' =>
    rw [hf] at h
    cases h
    exact ⟨fun _ => false, by simp, (List.map_id t).symm, id⟩
  | none =>
    rw [hf] at h
    obtain ⟨after, hupd, hrest⟩ := bind_eq_ok_iff.mp h
    obtain ⟨hcons, rfl⟩ := updateMany_eq_ok_iff.mp (stmt_eq_ok_iff.mp hupd)
    refine ⟨isUnclaimed userId, fun _ hu => hu, ?_⟩
    split_ifs at hrest
    · cases hrest
      exact ⟨rfl, fun _ => hcons⟩
    · split at hrest
      · cases hrest
        exact ⟨rfl, fun _ => hcons⟩
      · cases hrest

end Minister
