import Mathlib.Data.List.Basic
import Mathlib.Data.List.Perm.Basic

/-!
# A pool of calls

The calls in progress are a list, and a step rewrites one of them in place. What
the calls hold between them (tokens, locks, tickets) is read off with a partial
function; rewriting one call passes on, takes or gives up what that call holds
and nothing else.
-/

namespace Transition

open List (Perm)

variable {α β : Type*} {calls : List α} {i : Nat} {a b : α} {f : α → Option β} {x : β}

/-- A place in the list splits it, and rewriting that place changes nothing else. -/
theorem exists_split_set (h : calls[i]? = some a) :
    ∃ pre post, calls = pre ++ a :: post ∧ ∀ b, calls.set i b = pre ++ b :: post := by
  induction calls generalizing i with
  | nil => cases h
  | cons c rest ih =>
    cases i with
    | zero =>
      obtain rfl : c = a := by simpa using h
      exact ⟨[], rest, rfl, fun _ => rfl⟩
    | succ i =>
      obtain ⟨pre, post, hrest, hset⟩ := ih (by simpa using h)
      refine ⟨c :: pre, post, by rw [hrest, List.cons_append], fun b => ?_⟩
      rw [List.set_cons_succ, hset b, List.cons_append]

/-- The rewritten call is the only new one. -/
theorem forall_mem_set {P : α → Prop} (hall : ∀ c ∈ calls, P c) (hb : P b) :
    ∀ c ∈ calls.set i b, P c := by
  intro c hc
  rcases List.mem_or_eq_of_mem_set hc with hold | rfl
  · exact hall c hold
  · exact hb

/-- A new call is the only new one. -/
theorem forall_mem_concat {P : α → Prop} (hall : ∀ c ∈ calls, P c) (hb : P b) :
    ∀ c ∈ calls ++ [b], P c :=
  List.forall_mem_append.mpr ⟨hall, List.forall_mem_singleton.mpr hb⟩

/-- The rule for properties that name the place of a call. -/
theorem forall_getElem?_set {P : Nat → α → Prop} (hall : ∀ j c, calls[j]? = some c → P j c)
    (hb : P i b) : ∀ j c, (calls.set i b)[j]? = some c → P j c := by
  intro j c hc
  rw [List.getElem?_set] at hc
  split_ifs at hc with hij hlt
  · cases hc
    exact hij ▸ hb
  · exact hall j c hc

/-- A new call comes last. -/
theorem forall_getElem?_append {P : Nat → α → Prop} (hall : ∀ j c, calls[j]? = some c → P j c)
    (hb : P calls.length b) : ∀ j c, (calls ++ [b])[j]? = some c → P j c := by
  intro j c hc
  rw [List.getElem?_append] at hc
  split_ifs at hc with hlt
  · exact hall j c hc
  · rw [List.getElem?_singleton] at hc
    split_ifs at hc with hj
    cases hc
    obtain rfl : j = calls.length := by omega
    exact hb

/-- If no two calls hold the same thing, a thing is held in one place. -/
theorem eq_of_nodup_filterMap {j : Nat} (honce : (calls.filterMap f).Nodup)
    (ha : calls[i]? = some a) (hb : calls[j]? = some b) (hax : f a = some x)
    (hbx : f b = some x) : i = j := by
  induction calls generalizing i j with
  | nil => cases ha
  | cons c rest ih =>
    have hrest : (rest.filterMap f).Nodup :=
      honce.sublist ((List.sublist_cons_self c rest).filterMap f)
    have hfresh {k : Nat} {d : α} (hd : rest[k]? = some d) (hdx : f d = some x) : f c ≠ some x := by
      intro hcx
      rw [List.filterMap_cons_some hcx] at honce
      exact (List.nodup_cons.mp honce).1
        (List.mem_filterMap.mpr ⟨d, List.mem_of_getElem? hd, hdx⟩)
    cases i with
    | zero =>
      cases j with
      | zero => rfl
      | succ j =>
        obtain rfl : c = a := by simpa using ha
        exact absurd hax (hfresh (by simpa using hb) hbx)
    | succ i =>
      cases j with
      | zero =>
        obtain rfl : c = b := by simpa using hb
        exact absurd hbx (hfresh (by simpa using ha) hax)
      | succ j => exact congrArg Nat.succ (ih hrest (by simpa using ha) (by simpa using hb))

/-- The call that was rewritten is the only one that is gone. -/
theorem mem_set_of_mem {c : α} (h : calls[i]? = some a) (hc : c ∈ calls) :
    c ∈ calls.set i b ∨ c = a := by
  obtain ⟨pre, post, hcalls, hset⟩ := exists_split_set h
  rw [hcalls, List.mem_append, List.mem_cons] at hc
  rw [hset, List.mem_append, List.mem_cons]
  rcases hc with hpre | hmid | hpost
  · exact .inl (.inl hpre)
  · exact .inr hmid
  · exact .inl (.inr (.inr hpost))

/-- After a call is rewritten, a call is the new one or another one. -/
theorem eq_or_exists_ne_of_mem_set {c : α} (hc : c ∈ calls.set i b) :
    c = b ∨ ∃ j, j ≠ i ∧ calls[j]? = some c := by
  obtain ⟨j, hj⟩ := List.mem_iff_getElem?.mp hc
  rw [List.getElem?_set] at hj
  split_ifs at hj with hij hlt
  · exact .inl (Option.some.inj hj).symm
  · exact .inr ⟨j, fun h => hij h.symm, hj⟩

variable (h : calls[i]? = some a)

include h

/-- If no two calls hold the same thing, what the others satisfy on account of holding
something else, and the rewritten call satisfies, every call satisfies. -/
theorem forall_mem_set_of_nodup {P : α → Prop} (honce : (calls.filterMap f).Nodup)
    (hothers : ∀ c ∈ calls, (∀ x, f c = some x → f a ≠ some x) → P c) (hb : P b) :
    ∀ c ∈ calls.set i b, P c := by
  obtain ⟨pre, post, hcalls, hset⟩ := exists_split_set h
  have hperm : Perm calls (a :: (pre ++ post)) := by
    rw [hcalls]
    exact List.perm_middle
  have honce' := (hperm.filterMap f).nodup_iff.mp honce
  intro c hc
  rw [hset] at hc
  rcases List.mem_cons.mp (List.perm_middle.mem_iff.mp hc) with rfl | hother
  · exact hb
  · apply hothers c (hperm.mem_iff.mpr (List.mem_cons_of_mem a hother))
    intro x hcx hax
    rw [List.filterMap_cons_some hax] at honce'
    exact (List.nodup_cons.mp honce').1 (List.mem_filterMap.mpr ⟨c, hother, hcx⟩)

/-- How many calls are of some kind, after one of them was rewritten. -/
theorem countP_set (p : α → Bool) :
    (calls.set i b).countP p + (if p a then 1 else 0) =
      calls.countP p + if p b then 1 else 0 := by
  obtain ⟨pre, post, hcalls, hset⟩ := exists_split_set h
  rw [hset, hcalls]
  simp only [List.countP_append, List.countP_cons]
  omega

/-- The case of a call that was not of this kind. -/
theorem countP_set_of_false {p : α → Bool} (ha : p a = false) :
    (calls.set i b).countP p = calls.countP p + if p b then 1 else 0 := by
  have hset := countP_set (b := b) h p
  simpa only [ha, Bool.false_eq_true, if_false, Nat.add_zero] using hset

/-- A call that keeps what it holds. -/
theorem filterMap_set_eq (hb : f b = f a) : (calls.set i b).filterMap f = calls.filterMap f := by
  obtain ⟨pre, post, hcalls, hset⟩ := exists_split_set h
  rw [hset, hcalls, List.filterMap_append, List.filterMap_append, List.filterMap_cons,
    List.filterMap_cons, hb]

theorem filterMap_set_sublist (hb : f b = f a ∨ f b = none) :
    ((calls.set i b).filterMap f).Sublist (calls.filterMap f) := by
  obtain ⟨pre, post, hcalls, hset⟩ := exists_split_set h
  rw [hset, hcalls, List.filterMap_append, List.filterMap_append]
  apply List.Sublist.append (List.Sublist.refl _)
  rcases hb with hb | hb
  · rw [List.filterMap_cons, List.filterMap_cons, hb]
  · rw [List.filterMap_cons_none hb]
    exact (List.sublist_cons_self a post).filterMap f

theorem perm_filterMap_set_take (ha : f a = none) (hb : f b = some x) :
    Perm ((calls.set i b).filterMap f) (x :: calls.filterMap f) := by
  obtain ⟨pre, post, hcalls, hset⟩ := exists_split_set h
  rw [hset, hcalls, List.filterMap_append, List.filterMap_append, List.filterMap_cons_none ha,
    List.filterMap_cons_some hb]
  exact List.perm_middle

theorem perm_filterMap_set_give (ha : f a = some x) (hb : f b = none) :
    Perm (calls.filterMap f) (x :: (calls.set i b).filterMap f) := by
  obtain ⟨pre, post, hcalls, hset⟩ := exists_split_set h
  rw [hset, hcalls, List.filterMap_append, List.filterMap_append, List.filterMap_cons_none hb,
    List.filterMap_cons_some ha]
  exact List.perm_middle

end Transition
