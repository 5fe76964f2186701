import Mathlib.Logic.Function.Basic
import Mathlib.Logic.Relation

/-!
# Parent pointers

A partial function `p` sends a node to its parent. The nodes form a forest when
following parents from any node ends at a root. Hanging a root below a node that
does not lead to it keeps a forest a forest, and so does cutting a node loose;
hanging it below a node that leads to it does not.
-/

namespace Forest

open Relation

variable {α : Type*} {p : α → Option α} {a b d r s : α}

/-- Following parents leads from `a` to `b`. -/
def Leads (p : α → Option α) : α → α → Prop := ReflTransGen fun a b => p a = some b

/-- From every node the parents lead to a root. -/
def Rooted (p : α → Option α) : Prop := ∀ a, ∃ r, Leads p a r ∧ p r = none

theorem Rooted.acyclic (h : Rooted p) (a : α) : ¬TransGen (fun a b => p a = some b) a a := by
  obtain ⟨r, hlead, hroot⟩ := h a
  -- A cycle through `a` is handed on to its parent, and a root has none.
  induction hlead using ReflTransGen.head_induction_on with
  | refl =>
    intro hcycle
    obtain ⟨c, hc, -⟩ := TransGen.head'_iff.mp hcycle
    rw [hroot] at hc
    cases hc
  | head hstep _ ih =>
    intro hcycle
    obtain ⟨c, hc, hback⟩ := TransGen.head'_iff.mp hcycle
    rw [hstep] at hc
    cases hc
    exact ih (TransGen.tail' hback hstep)

/-- A set that holds every parent holds whatever its members lead to. -/
theorem Leads.mem {S : Set α} (h : Leads p a r) (ha : a ∈ S)
    (hS : ∀ a b, p a = some b → b ∈ S) : r ∈ S := by
  induction h with
  | refl => exact ha
  | tail _ hstep _ => exact hS _ _ hstep

variable [DecidableEq α] {v : Option α}

/-- After an update at `d` a path is still there, unless it now stops at `d`. -/
theorem Leads.update (h : Leads p a b) :
    Leads (Function.update p d v) a b ∨ Leads (Function.update p d v) a d := by
  induction h using ReflTransGen.head_induction_on with
  | refl => exact .inl .refl
  | @head a c hstep _ ih =>
    by_cases had : a = d
    · subst had
      exact .inr .refl
    · have hstep' : Function.update p d v a = some c := by
        rwa [Function.update_of_ne had]
      rcases ih with hb | hd
      · exact .inl (ReflTransGen.head hstep' hb)
      · exact .inr (ReflTransGen.head hstep' hd)

/-- An update at `d` leaves alone the paths from nodes that do not lead to `d`. -/
theorem Leads.update_of_not (h : Leads p a b) (hd : ¬Leads p a d) :
    Leads (Function.update p d v) a b := by
  refine h.update.resolve_right fun hstops => hd ?_
  -- The update is undone by another one.
  have hback := hstops.update (d := d) (v := p d)
  rwa [Function.update_idem, Function.update_eq_self, or_self] at hback

/-- Hanging `d` below a node that does not lead to it. -/
theorem Rooted.hang (h : Rooted p) (hs : ¬Leads p s d) :
    Rooted (Function.update p d (some s)) := by
  -- The root of `s` is reached by a path that avoids `d`, and stays a root.
  obtain ⟨r, hlead, hroot⟩ := h s
  have hrd : r ≠ d := fun heq => hs (heq ▸ hlead)
  have hsr : Leads (Function.update p d (some s)) s r := hlead.update_of_not hs
  have hr : Function.update p d (some s) r = none := by
    rwa [Function.update_of_ne hrd]
  have hds : Function.update p d (some s) d = some s := Function.update_self ..
  intro a
  obtain ⟨r', hlead', hroot'⟩ := h a
  rcases hlead'.update (d := d) (v := some s) with hr' | hd
  · by_cases hrd' : r' = d
    · subst hrd'
      exact ⟨r, hr'.trans (ReflTransGen.head hds hsr), hr⟩
    · exact ⟨r', hr', by rwa [Function.update_of_ne hrd']⟩
  · exact ⟨r, hd.trans (ReflTransGen.head hds hsr), hr⟩

/-- Making a node a root. -/
theorem Rooted.cut (h : Rooted p) : Rooted (Function.update p d none) := by
  have hd : Function.update p d none d = none := Function.update_self ..
  intro a
  obtain ⟨r, hlead, hroot⟩ := h a
  rcases hlead.update (d := d) (v := none) with hr | hd'
  · by_cases hrd : r = d
    · exact ⟨r, hr, hrd ▸ hd⟩
    · exact ⟨r, hr, by rwa [Function.update_of_ne hrd]⟩
  · exact ⟨d, hd', hd⟩

/-- Hanging a node below one that leads to it closes a cycle. -/
theorem not_rooted_hang (h : Leads p s d) : ¬Rooted (Function.update p d (some s)) := by
  intro hrooted
  have hsd : Leads (Function.update p d (some s)) s d := by
    rcases h.update (d := d) (v := some s) with hd | hd <;> exact hd
  have hds : Function.update p d (some s) d = some s := Function.update_self ..
  exact hrooted.acyclic d (TransGen.head' hds hsd)

end Forest
