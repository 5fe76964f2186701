import Minister.Relational.Table
import Minister.Transition.Undo

/-!
# Who owns which row

`ownerAt` reads a table as a map from keys to owners. Handing rows over is a change
of that map, and handing them back undoes it, as long as the rows handed over are
still where they went.
-/

namespace Relational

open Transition

variable {R A K : Type*} [Owned R A K] [DecidableEq K] {t t₀ : List R} {k : K} {a d s : A}
  {p : R → Bool}

/-- The owner of the row with a given key, if there is such a row. -/
def ownerAt (t : List R) (k : K) : Option A := (get? t k).bind owner

theorem get?_map {g : R → R} (hg : ∀ r, key (g r) = key r) :
    get? (t.map g) k = (get? t k).map g :=
  find?_map_of_keeps fun r => by rw [hg]

theorem get?_mapWhere {f : R → R} (hf : ∀ r, key (f r) = key r) :
    get? (mapWhere p f t) k = (get? t k).map fun r => if p r then f r else r :=
  find?_mapWhere fun r => by rw [hf]

theorem key_of_get? {r : R} (h : get? t k = some r) : key r = k := by
  simpa using List.find?_some h

theorem mem_of_get? {r : R} (h : get? t k = some r) : r ∈ t := List.mem_of_find?_eq_some h

theorem ownerAt_of_mem (h : Consistent t) {r : R} (hr : r ∈ t) : ownerAt t (key r) = owner r := by
  simp [ownerAt, (get?_eq_some_iff h).mpr ⟨hr, rfl⟩]

/-- The keys of selected rows of `d` name rows of `d`. -/
theorem ownerAt_of_mem_findMany (h : Consistent t) (hp : ∀ r, p r = true → owner r = some d) :
    ∀ k ∈ (findMany p t).map key, ownerAt t k = some d := by
  intro k hk
  obtain ⟨r, hr, rfl⟩ := List.mem_map.mp hk
  obtain ⟨hrt, hpr⟩ := mem_findMany.mp hr
  exact (ownerAt_of_mem h hrt).trans (hp r hpr)

/-- Rewriting columns other than key and owner changes no owner. -/
theorem ownerAt_mapWhere {f : R → R} (hkey : ∀ r, key (f r) = key r)
    (howner : ∀ r, owner (f r) = owner r) : ownerAt (mapWhere p f t) = ownerAt t := by
  funext k
  unfold ownerAt
  rw [get?_mapWhere hkey]
  cases get? t k with
  | none => rfl
  | some r =>
    by_cases hp : p r
    · simp [hp, howner]
    · simp [hp]

/-- What handing rows to `a` does to the owner map. -/
theorem ownerAt_setOwner : ownerAt (mapWhere p (setOwner a) t) k =
    (get? t k).bind fun r => if p r then some a else owner r := by
  unfold ownerAt
  rw [get?_mapWhere fun r => Owned.key_setOwner a r]
  cases get? t k with
  | none => rfl
  | some r =>
    by_cases hp : p r
    · simp [hp]
    · simp [hp]

/-- Deleting by key empties exactly the listed keys. -/
theorem get?_deleteMany (ks : List K) :
    get? (deleteMany (fun r => key r ∈ ks) t) k = if k ∈ ks then none else get? t k := by
  unfold get? deleteMany
  rw [List.find?_filter]
  split_ifs with hk
  · rw [List.find?_eq_none]
    intro r _
    by_cases hr : key r = k
    · simp [hr, hk]
    · simp [hr]
  · congr 1
    funext r
    by_cases hr : key r = k
    · simp [hr, hk]
    · simp [hr]

theorem get?_append {t' : List R} : get? (t ++ t') k = (get? t k).or (get? t' k) :=
  List.find?_append

/-- Rewriting other columns of some rows changes no owner. -/
theorem ownerAt_map_append {t' : List R} {g : R → R} (hkey : ∀ r, key (g r) = key r)
    (howner : ∀ r, owner (g r) = owner r) : ownerAt (t.map g ++ t') = ownerAt (t ++ t') := by
  funext k
  unfold ownerAt
  rw [get?_append, get?_append, get?_map hkey]
  cases get? t k with
  | none => rfl
  | some r => exact howner r

/-- The change `e` of the owners of `t₀`: the rows `moved` names went from `d` to
`s`, and the rows `losers` were deleted. -/
structure Handover (t₀ losers : List R) (moved : List K) (d s : A) (e : Change K (Option A)) :
    Prop where
  consistent : Consistent t₀
  distinct : s ≠ d
  losers_mem : ∀ r ∈ losers, r ∈ t₀
  moved_owner : ∀ k ∈ moved, ownerAt t₀ k = some d
  before : e.before = ownerAt t₀
  after : ∀ k, e.after k =
    if k ∈ losers.map key then none else if k ∈ moved then some s else ownerAt t₀ k

/-- Deleting the losers and handing the moved rows over is a handover. -/
theorem handover_resolve {losers : List R} {moved : List K} (h₀ : Consistent t₀) (hne : s ≠ d)
    (hlosers : ∀ r ∈ losers, r ∈ t₀) (hmoved : ∀ k ∈ moved, ownerAt t₀ k = some d) :
    Handover t₀ losers moved d s ⟨ownerAt t₀, ownerAt (mapWhere (fun r => key r ∈ moved)
      (setOwner s) (deleteMany (fun r => key r ∈ losers.map key) t₀))⟩ := by
  refine ⟨h₀, hne, hlosers, hmoved, rfl, fun k => ?_⟩
  simp only
  rw [ownerAt_setOwner, get?_deleteMany]
  by_cases hk : k ∈ losers.map key
  · simp [hk]
  · by_cases hm : k ∈ moved
    · obtain ⟨r, hr, -⟩ := Option.bind_eq_some_iff.mp (hmoved k hm)
      simp [hk, hm, hr, key_of_get? hr]
    · unfold ownerAt
      cases hr : get? t₀ k with
      | none => simp [hk, hm]
      | some r => simp [hk, hm, key_of_get? hr]

theorem mem_keysOf_iff [DecidableEq A] (h : Consistent t) :
    k ∈ keysOf d t ↔ ownerAt t k = some d := by
  rw [mem_keysOf]
  constructor
  · rintro ⟨r, hr, ho, rfl⟩
    rw [ownerAt_of_mem h hr, ho]
  · intro ho
    obtain ⟨r, hr, hor⟩ := Option.bind_eq_some_iff.mp ho
    exact ⟨r, mem_of_get? hr, hor, key_of_get? hr⟩

/-- Handing over every row of an account is a handover that deletes nothing. -/
theorem handover_repoint [DecidableEq A] (h₀ : Consistent t₀) (hne : s ≠ d) :
    Handover t₀ [] (keysOf d t₀) d s ⟨ownerAt t₀, ownerAt (repoint d s t₀)⟩ := by
  refine ⟨h₀, hne, by simp, fun k hk => (mem_keysOf_iff h₀).mp hk, rfl, fun k => ?_⟩
  simp only [repoint, ownerAt_setOwner, List.map_nil, List.not_mem_nil, if_false,
    mem_keysOf_iff h₀]
  unfold ownerAt
  cases get? t₀ k with
  | none => simp
  | some r =>
    by_cases ho : owner r = some d
    · simp [ho]
    · simp [ho]

/-- Where a row can be inserted, the table has none, whoever its rows were handed to. -/
theorem ownerAt_eq_none_of_insert {losers : List R}
    (hcons : Consistent (mapWhere p (setOwner d) t ++ losers)) (hk : k ∈ losers.map key) :
    ownerAt t k = none := by
  obtain ⟨r, hr, rfl⟩ := List.mem_map.mp hk
  have hnone : get? t (key r) = none := by
    refine get?_eq_none_iff.mpr fun r' hr' hkey => ?_
    have hmem : (if p r' then setOwner d r' else r') ∈ mapWhere p (setOwner d) t :=
      mem_mapWhere.mpr ⟨r', hr', rfl⟩
    have hclash := (List.pairwise_append.mp hcons).2.2 _ hmem r hr
    rw [Owned.clash_of_key_eq] at hclash
    · cases hclash
    · split_ifs <;> simpa using hkey
  simp [ownerAt, hnone]

/-- Away from the inserted rows only the selected ones change hands. -/
theorem ownerAt_setOwner_append {losers : List R} (hk : k ∉ losers.map key) :
    ownerAt (mapWhere p (setOwner d) t ++ losers) k =
      (get? t k).bind fun r => if p r then some d else owner r := by
  have hnone : get? losers k = none := by
    refine get?_eq_none_iff.mpr fun r hr hkey => hk ?_
    exact hkey ▸ List.mem_map_of_mem hr
  rw [← ownerAt_setOwner]
  unfold ownerAt
  rw [get?_append, hnone, Option.or_none]

section Undo

variable {losers : List R} {moved : List K} {e : Change K (Option A)}

/-- An inserted row has the owner it had before the handover. -/
theorem Handover.ownerAt_loser (h : Handover t₀ losers moved d s e)
    (hcons : Consistent (mapWhere p (setOwner d) t ++ losers)) (hk : k ∈ losers.map key) :
    ownerAt (mapWhere p (setOwner d) t ++ losers) k = ownerAt t₀ k := by
  obtain ⟨r, hr, rfl⟩ := List.mem_map.mp hk
  rw [ownerAt_of_mem hcons (List.mem_append_right _ hr),
    ownerAt_of_mem h.consistent (h.losers_mem r hr)]

/-- Handing the moved rows back and inserting the deleted ones undoes an intact
handover. The rows are selected by `p`, which may or may not ask that they are still
with `s`. -/
theorem Handover.undone (h : Handover t₀ losers moved d s e)
    (hkeys : ∀ r ∈ t, p r = true → key r ∈ moved)
    (hheld : ∀ r ∈ t, key r ∈ moved → owner r = some s → p r = true)
    (hcons : Consistent (mapWhere p (setOwner d) t ++ losers)) (hintact : e.Intact (ownerAt t)) :
    e.Undone (ownerAt t) (ownerAt (mapWhere p (setOwner d) t ++ losers)) := by
  refine Change.undone_iff.mpr fun k => ?_
  by_cases hk : k ∈ losers.map key
  · -- A row that was deleted is inserted again.
    rw [h.before, h.after, if_pos hk, h.ownerAt_loser hcons hk, ownerAt_eq_none_of_insert hcons hk]
    by_cases hnone : ownerAt t₀ k = none
    · exact .inl ⟨hnone, hnone⟩
    · exact .inr ⟨hnone, rfl⟩
  · rw [ownerAt_setOwner_append hk]
    have hafter := h.after k
    rw [if_neg hk] at hafter
    split_ifs at hafter with hm
    · -- A row that went to `s` is still there, and selected.
      have htouch : e.before k ≠ e.after k := by
        rw [hafter, h.before, h.moved_owner k hm, ne_eq, Option.some_inj]
        exact h.distinct.symm
      obtain ⟨r, hr, hor⟩ := Option.bind_eq_some_iff.mp ((hintact k htouch).trans hafter)
      have hp : p r = true := hheld r (mem_of_get? hr) (by rwa [key_of_get? hr]) hor
      refine .inr ⟨htouch, ?_⟩
      rw [hr, Option.bind_some, if_pos hp, h.before, h.moved_owner k hm]
    · -- Any other row is not selected.
      refine .inl ⟨h.before ▸ hafter.symm, ?_⟩
      unfold ownerAt
      cases hr : get? t k with
      | none => rfl
      | some r =>
        have hp : ¬p r = true := fun hp => hm (key_of_get? hr ▸ hkeys r (mem_of_get? hr) hp)
        simp [hp]

end Undo

end Relational
