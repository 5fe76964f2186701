import Mathlib.Data.List.Perm.Basic

/-!
# Changes that are undone later

Cells hold values. A change records what the cells held before it and after it.
Undoing it writes the values from before back into the cells it changed, and is
in order when these still hold what the change left there. Changes may be undone
in any order: when each has been undone in order, every cell holds what it held
at the start.

The reason is a balance. For one cell, each outstanding change has taken a value
out and put one in, so the current value together with the values taken out is a
rearrangement of the first value together with the values put in.
-/

namespace Transition

variable {ι V : Type*}

/-- What the cells held before and after a change. -/
structure Change (ι V : Type*) where
  before : ι → V
  after : ι → V

/-- The cells the change touched still hold what it left there. -/
def Change.Intact (e : Change ι V) (v : ι → V) : Prop :=
  ∀ c, e.before c ≠ e.after c → v c = e.after c

/-- `v'` is `v` with the change undone. -/
structure Change.Undone (e : Change ι V) (v v' : ι → V) : Prop where
  touched : ∀ c, e.before c ≠ e.after c → v' c = e.before c
  untouched : ∀ c, e.before c = e.after c → v' c = v c

/-- The current values and the values taken out are, cell by cell, the first values
and the values put in. -/
def Balanced (v₀ : ι → V) (log : List (Change ι V)) (v : ι → V) : Prop :=
  ∀ c, (v c :: log.map (·.before c)).Perm (v₀ c :: log.map (·.after c))

variable {v₀ v v' : ι → V} {log log' : List (Change ι V)} {e : Change ι V}

/-- A change is undone cell by cell. -/
theorem Change.undone_iff : e.Undone v v' ↔ ∀ c,
    e.before c = e.after c ∧ v' c = v c ∨ e.before c ≠ e.after c ∧ v' c = e.before c := by
  constructor
  · intro h c
    by_cases hc : e.before c = e.after c
    · exact .inl ⟨hc, h.untouched c hc⟩
    · exact .inr ⟨hc, h.touched c hc⟩
  · intro h
    exact ⟨fun c hc => ((h c).resolve_left fun h => hc h.1).2,
      fun c hc => ((h c).resolve_right fun h => h.1 hc).2⟩

theorem Balanced.refl (v : ι → V) : Balanced v [] v := fun _ => .refl _

theorem Balanced.perm (h : Balanced v₀ log v) (hp : log.Perm log') : Balanced v₀ log' v := by
  intro c
  have hbefore := (hp.map (·.before c)).cons (v c)
  have hafter := (hp.map (·.after c)).cons (v₀ c)
  exact hbefore.symm.trans ((h c).trans hafter)

/-- A change adds the value it took out to one side and the one it put in to the other. -/
theorem Balanced.apply (h : Balanced v₀ log v) : Balanced v₀ (⟨v, v'⟩ :: log) v' := by
  intro c
  have hswap : (v' c :: v₀ c :: log.map (·.after c)).Perm (v₀ c :: v' c :: log.map (·.after c)) :=
    .swap ..
  exact ((h c).cons (v' c)).trans hswap

/-- Undoing an intact change removes what it added. -/
theorem Balanced.undo (h : Balanced v₀ (e :: log) v) (hintact : e.Intact v)
    (hundone : e.Undone v v') : Balanced v₀ log v' := by
  intro c
  have hc : (v c :: e.before c :: log.map (·.before c)).Perm
      (v₀ c :: e.after c :: log.map (·.after c)) := h c
  have hc' : (v c :: e.before c :: log.map (·.before c)).Perm
      (e.after c :: v₀ c :: log.map (·.after c)) := hc.trans (.swap ..)
  by_cases htouch : e.before c = e.after c
  · rw [hundone.untouched c htouch]
    rw [htouch] at hc'
    exact ((List.Perm.swap ..).trans hc').cons_inv
  · rw [hundone.touched c htouch]
    rw [hintact c htouch] at hc'
    exact hc'.cons_inv

theorem Balanced.eq (h : Balanced v₀ [] v) : v = v₀ := by
  funext c
  exact List.singleton_inj.mp (List.perm_singleton.mp (h c))

end Transition
