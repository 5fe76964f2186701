import Minister.Groups.Actions

/-!
# Group actions one after the other

A call that runs alone writes to the tables that it has read. So what its transaction does is
determined by the tables before the call: the row that is removed is the one that was found, and the
members whose anchors are revoked are those of the group.
-/

namespace Minister.Groups

open Relational Vc
open StatusLists (Revocation)

/-- The next statement of the call; what it hands to `revokeStatusAnchor` comes last. -/
def Outcome.next (env : IssuerEnv) (o : Outside) (out : Outcome) : Outcome :=
  let after := advance env o out.tables out.call
  { after with revocations := out.revocations ++ after.revocations }

/-- No call has more than four statements. -/
def complete (env : IssuerEnv) (o : Outside) (t : Tables) (request : Request) : Outcome :=
  ((((reads t (request.start env.text)).next env o).next env o).next env o).next env o

/-- What a call knows of the tables, and of the request it came from. -/
def Current (request : Request) (t : Tables) : Call → Prop
  | .authorizingAdd r | .findingUser r _ | .findingMember r _ | .adding r _ =>
    request = .addMember r
  | .removing r _ target => t.findMembership r.groupId r.targetUserId = some target
  | .deleting r _ ids => ids = memberIds t r.groupId
  | _ => True

/-- The call takes no further statement. -/
def Call.IsDone : Call → Prop
  | .done _ => True
  | _ => False

/-- The statements that a call has left at most. -/
def Call.left : Call → Nat
  | .checkingSlug _ | .authorizingAdd _ => 4
  | .checkingTombstone _ | .authorizingDelete _ | .findingUser _ _ | .authorizingRemove _
  | .authorizingRole _ => 3
  | .checkingQuota _ | .readingMembers _ _ | .findingMember _ _ | .findingTarget _ _
  | .findingRole _ => 2
  | .founding _ | .deleting _ _ _ | .adding _ _ | .removing _ _ _ | .settingRole _ _ => 1
  | .done _ => 0

section Alone

variable {env : IssuerEnv} {o : Outside} {t : Tables} {request : Request} {c : Call} {n : Nat}

theorem Call.IsDone.exists_done (h : c.IsDone) : ∃ result, c = .done result := by
  cases c with
  | done result => exact ⟨result, rfl⟩
  | _ => exact h.elim

theorem current_start (env : IssuerEnv) (t : Tables) (request : Request) :
    Current request t (request.start env.text) ∧ (request.start env.text).left ≤ 4 := by
  cases request with
  | createGroup userId input =>
    simp only [Request.start]
    split
    · exact ⟨trivial, Nat.zero_le _⟩
    · split_ifs <;> exact ⟨trivial, by simp [Call.left]⟩
  | _ =>
    simp only [Request.start]
    split_ifs <;> exact ⟨by trivial, by simp [Call.left]⟩

/-- A statement that only reads keeps what is known and leaves fewer statements, and one that
writes is the last. -/
theorem current_advance (env : IssuerEnv) (o : Outside) (h : Current request t c) :
    ((advance env o t c).tables = t ∧ (advance env o t c).revocations = [] ∧
        Current request t (advance env o t c).call ∧ (advance env o t c).call.left < c.left) ∨
      (advance env o t c).call.IsDone := by
  have hcommits (tx : Except ServerError Tables) (rs : List Revocation) (committed : Result)
      (failed : ServerError → Result) : (commits t tx rs committed failed).call.IsDone := by
    cases tx <;> trivial
  have hreads {c' : Call} (hc' : c'.IsDone ∨ Current request t c' ∧ c'.left < c.left) :
      ((reads t c').tables = t ∧ (reads t c').revocations = [] ∧
        Current request t (reads t c').call ∧ (reads t c').call.left < c.left) ∨
      (reads t c').call.IsDone :=
    hc'.symm.imp_left fun hc' => ⟨rfl, rfl, hc'⟩
  cases c with
  | founding | deleting | adding | removing | settingRole => exact .inr (hcommits _ _ _ _)
  | done result => exact .inr trivial
  | checkingSlug f =>
    refine hreads ?_
    unfold checkSlug
    split_ifs
    · exact .inl trivial
    · exact .inr ⟨trivial, Nat.le_refl _⟩
  | checkingTombstone f =>
    refine hreads ?_
    unfold checkTombstone
    split
    · split_ifs
      · exact .inl trivial
      · exact .inr ⟨trivial, Nat.le_refl _⟩
    · exact .inr ⟨trivial, Nat.le_refl _⟩
  | checkingQuota f =>
    refine hreads ?_
    unfold checkQuota
    split
    · exact .inl trivial
    · split_ifs
      · exact .inl trivial
      · split
        · exact .inl trivial
        · split_ifs
          · exact .inl trivial
          · exact .inr ⟨trivial, Nat.le_refl _⟩
  | authorizingDelete r =>
    refine hreads ?_
    unfold authorizeDelete
    split
    · exact .inl trivial
    · exact .inr ⟨trivial, Nat.le_refl _⟩
  | readingMembers r group => exact hreads (.inr ⟨rfl, Nat.le_refl _⟩)
  | authorizingAdd r =>
    refine hreads ?_
    unfold authorizeAdd
    split
    · exact .inl trivial
    · split_ifs
      · exact .inl trivial
      · exact .inr ⟨h, Nat.le_refl _⟩
  | findingUser r ctx =>
    refine hreads ?_
    unfold Groups.findUser
    split_ifs
    · exact .inr ⟨h, Nat.le_refl _⟩
    · exact .inl trivial
  | findingMember r ctx =>
    refine hreads ?_
    unfold findMember
    split
    · exact .inl trivial
    · exact .inr ⟨h, Nat.le_refl _⟩
  | authorizingRemove r =>
    refine hreads ?_
    unfold authorizeRemove
    split
    · exact .inl trivial
    · exact .inr ⟨trivial, Nat.le_refl _⟩
  | findingTarget r ctx =>
    refine hreads ?_
    unfold findTarget
    split
    · exact .inl trivial
    · rename_i target hfind
      split_ifs
      · exact .inl trivial
      · exact .inl trivial
      · exact .inr ⟨hfind, Nat.le_refl _⟩
  | authorizingRole r =>
    refine hreads ?_
    unfold authorizeRole
    split
    · exact .inl trivial
    · exact .inr ⟨trivial, Nat.le_refl _⟩
  | findingRole r =>
    refine hreads ?_
    unfold findRole
    split
    · exact .inl trivial
    · split_ifs
      · exact .inl trivial
      · exact .inl trivial
      · exact .inr ⟨trivial, Nat.le_refl _⟩

/-- Where a call that runs alone can stand: nothing is written yet and what was read is current, or
the call is done, by one statement from there. -/
def Progress (env : IssuerEnv) (o : Outside) (t : Tables) (request : Request) (out : Outcome) :
    Prop :=
  (out.tables = t ∧ out.revocations = [] ∧ Current request t out.call) ∨
    out.call.IsDone ∧ ∃ c, Current request t c ∧ Turn env o t c out.tables out.revocations

theorem Progress.next {out : Outcome} (h : Progress env o t request out)
    (hleft : out.call.left ≤ n + 1) :
    Progress env o t request (out.next env o) ∧ (out.next env o).call.left ≤ n := by
  rcases h with ⟨htables, hnone, hcurrent⟩ | ⟨hdone, c, hcurrent, hturn⟩
  · simp only [Outcome.next, Progress, htables, hnone, List.nil_append]
    rcases current_advance env o hcurrent with ⟨hsame, hnone', hcurrent', hless⟩ | hdone
    · exact ⟨.inl ⟨hsame, hnone', hcurrent'⟩, by omega⟩
    · refine ⟨.inr ⟨hdone, out.call, hcurrent, turn_of_advance⟩, ?_⟩
      obtain ⟨result, hcall⟩ := hdone.exists_done
      exact hcall ▸ Nat.zero_le n
  · obtain ⟨result, hcall⟩ := hdone.exists_done
    simp only [Outcome.next, hcall, advance, reads, List.append_nil]
    exact ⟨.inr ⟨trivial, c, hcurrent, hturn⟩, Nat.zero_le n⟩

/-- Four statements are enough. -/
theorem progress_complete (env : IssuerEnv) (o : Outside) (t : Tables) (request : Request) :
    Progress env o t request (complete env o t request) ∧
      (complete env o t request).call.left ≤ 0 := by
  obtain ⟨hcurrent, h₀⟩ := current_start env t request
  have hstart : Progress env o t request (reads t (request.start env.text)) :=
    .inl ⟨rfl, rfl, hcurrent⟩
  obtain ⟨hfirst, h₁⟩ := hstart.next h₀
  obtain ⟨hsecond, h₂⟩ := hfirst.next h₁
  obtain ⟨hthird, h₃⟩ := hsecond.next h₂
  exact hthird.next h₃

/-- **A call that runs alone takes one turn**, from where it has read the tables as they are. -/
theorem turn_of_complete (env : IssuerEnv) (o : Outside) (t : Tables) (request : Request) :
    ∃ c, Current request t c ∧
      Turn env o t c (complete env o t request).tables (complete env o t request).revocations := by
  rcases (progress_complete env o t request).1 with ⟨htables, hnone, hcurrent⟩ |
    ⟨-, c, hcurrent, hturn⟩
  · refine ⟨_, hcurrent, ?_⟩
    rw [htables, hnone]
    exact .reads
  · exact ⟨c, hcurrent, hturn⟩

end Alone

end Minister.Groups
