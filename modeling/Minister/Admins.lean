import Minister.Merge.Bans
import Minister.Transition.Pool

/-!
# Admins

An admin can make others admins, or take that from them, but not change their own flag. Whether the
caller is an admin is read when a call starts, and its update comes later. Calls run side by side,
so by then another call may have taken the flag from the caller.
-/

namespace Minister.Admins

open Relational Transition
open Bans (Jwt requireAdmin)

/-- Where a call stands. -/
inductive Call
  | updating (adminId userId : UserId) (admin : Bool)
  | done (result : Except String Unit)

structure State where
  users : List User
  calls : List Call := []

inductive Action
  | setUserAdmin (jwt : Option Jwt) (userId : UserId) (admin : Bool)
  /-- The update of a call. -/
  | advance (i : Nat)

def setUserAdmin (jwt : Option Jwt) (userId : UserId) (admin : Bool) (users : List User) : Call :=
  match requireAdmin jwt users with
  | .error e => .done (.error e)
  | .ok adminId =>
    if Oidc.isCuid userId = false then .done (.error "Invalid cuid")
    else if userId = adminId then .done (.error "You can't change your own admin status")
    else .updating adminId userId admin

/-- The rows that are updated; who is banned is not made an admin. -/
def isTarget (userId : UserId) (admin : Bool) (u : User) : Bool :=
  u.id = userId ∧ (admin = true → u.isBanned = false)

def step (s : State) : Action → Option State
  | .setUserAdmin jwt userId admin =>
    some { s with calls := s.calls ++ [setUserAdmin jwt userId admin s.users] }
  | .advance i =>
    match s.calls[i]? with
    | some (.updating _ userId admin) =>
      if s.users.any (isTarget userId admin) then
        some ⟨mapWhere (isTarget userId admin) (fun u => { u with isAdmin := admin }) s.users,
          s.calls.set i (.done (.ok ()))⟩
      else some { s with calls := s.calls.set i (.done (.error "User not found (or is banned)")) }
    | some (.done _) | none => none

def IsAdmin (users : List User) (id : UserId) : Prop := ∃ u ∈ users, u.id = id ∧ u.isAdmin = true

def HasAdmin (users : List User) : Prop := ∃ u ∈ users, u.isAdmin = true

instance (users : List User) (id : UserId) : Decidable (IsAdmin users id) :=
  inferInstanceAs (Decidable (∃ u ∈ users, u.id = id ∧ u.isAdmin = true))

instance (users : List User) : Decidable (HasAdmin users) :=
  inferInstanceAs (Decidable (∃ u ∈ users, u.isAdmin = true))

/-- The caller, if the call takes the flag from someone who has it. -/
def Call.demoter (users : List User) : Call → Option UserId
  | .updating adminId userId false => if IsAdmin users userId then some adminId else none
  | .updating _ _ true | .done _ => none

/-- When the flag is taken from someone, the caller still has it. -/
def DemotesAsAdmin (s : State) : Action → Prop
  | .advance i => ∀ id ∈ s.calls[i]?.bind (Call.demoter s.users), IsAdmin s.users id
  | .setUserAdmin .. => True

instance (s : State) (a : Action) : Decidable (DemotesAsAdmin s a) := by
  cases a <;> unfold DemotesAsAdmin <;> infer_instance

/-- Nobody changes their own flag. -/
def Call.Other : Call → Prop
  | .updating adminId userId _ => userId ≠ adminId
  | .done _ => True

section Steps

variable {users : List User} {s s' : State} {a : Action} {jwt : Option Jwt} {userId : UserId}
  {admin : Bool}

theorem other_setUserAdmin : (setUserAdmin jwt userId admin users).Other := by
  rw [setUserAdmin]
  split
  · trivial
  · split_ifs with _ hself
    · trivial
    · trivial
    · exact hself

/-- Whoever is not updated is an admin still. -/
theorem hasAdmin_mapWhere {id : UserId} (h : IsAdmin users id) (hne : userId ≠ id) :
    HasAdmin (mapWhere (isTarget userId admin) (fun u => { u with isAdmin := admin }) users) := by
  obtain ⟨u, hu, rfl, hadmin⟩ := h
  exact ⟨u, mem_mapWhere.mpr ⟨u, hu, if_neg (by simp [isTarget, hne.symm])⟩, hadmin⟩

/-- An update that makes admins leaves one. -/
theorem hasAdmin_mapWhere_true (h : HasAdmin users) :
    HasAdmin (mapWhere (isTarget userId true) (fun u => { u with isAdmin := true }) users) := by
  obtain ⟨u, hu, hadmin⟩ := h
  refine ⟨_, List.mem_map_of_mem hu, ?_⟩
  split_ifs
  · rfl
  · exact hadmin

theorem step_keeps (hs : HasAdmin s.users ∧ ∀ c ∈ s.calls, c.Other) (hok : DemotesAsAdmin s a)
    (h : step s a = some s') : HasAdmin s'.users ∧ ∀ c ∈ s'.calls, c.Other := by
  cases a with
  | setUserAdmin jwt userId admin =>
    cases h
    exact ⟨hs.1, forall_mem_concat hs.2 other_setUserAdmin⟩
  | advance i =>
    simp only [step] at h
    cases hcall : s.calls[i]? with
    | none => simp [hcall] at h
    | some c =>
      cases c with
      | done result => simp [hcall] at h
      | updating adminId userId admin =>
        simp only [hcall] at h
        split_ifs at h <;> cases h
        · refine ⟨?_, forall_mem_set hs.2 trivial⟩
          cases admin with
          | true => exact hasAdmin_mapWhere_true hs.1
          | false =>
            by_cases htarget : IsAdmin s.users userId
            · have hcaller : IsAdmin s.users adminId :=
                hok adminId (by simp [hcall, Call.demoter, htarget])
              exact hasAdmin_mapWhere hcaller (hs.2 _ (List.mem_of_getElem? hcall))
            · obtain ⟨u, hu, hadmin⟩ := hs.1
              apply hasAdmin_mapWhere ⟨u, hu, rfl, hadmin⟩
              rintro rfl
              exact htarget ⟨u, hu, rfl, hadmin⟩
        · exact ⟨hs.1, forall_mem_set hs.2 trivial⟩

end Steps

/-- From any set of users with an admin, there is an admin in every state of every run of calls in
which nobody is demoted by someone who is no longer an admin. -/
theorem hasAdmin_of_run {s₀ s : State} {as : List Action} (hstart : HasAdmin s₀.users)
    (hcalls : s₀.calls = []) (hok : Along step DemotesAsAdmin s₀ as)
    (h : run step s₀ as = some s) : HasAdmin s.users := by
  refine (run_invariant (fun s => HasAdmin s.users ∧ ∀ c ∈ s.calls, c.Other) ?_ ?_ hok h).1
  · exact fun _ _ _ => step_keeps
  · exact ⟨hstart, by simp [hcalls]⟩

def twoAdmins : List User :=
  [⟨"calice0001", none, true, false, 0, none, none, none⟩,
    ⟨"cbob000001", none, true, false, 0, none, none, none⟩]

/-- Each of two admins starts to demote the other before either update. -/
def demoteEachOther : List Action :=
  [.setUserAdmin (some ⟨"calice0001", 0⟩) "cbob000001" false,
    .setUserAdmin (some ⟨"cbob000001", 0⟩) "calice0001" false, .advance 0]

theorem demoteEachOther_leaves_none : HasAdmin twoAdmins ∧
    ∃ s, run step { users := twoAdmins } (demoteEachOther ++ [.advance 1]) = some s ∧
      ¬HasAdmin s.users :=
  ⟨by decide, exists_run (by decide +kernel)⟩

theorem demoteEachOther_first : ∃ s, run step { users := twoAdmins } demoteEachOther = some s ∧
    s.users.map User.isAdmin = [true, false] ∧ HasAdmin s.users := by
  exact exists_run_and (by decide +kernel) fun s hrun =>
    hasAdmin_of_run (by decide) rfl (by decide +kernel) hrun

end Minister.Admins
