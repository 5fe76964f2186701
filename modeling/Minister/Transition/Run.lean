import Mathlib.Data.List.Infix

/-!
# Runs of a step function

A system is a step function that says, for a state and a label, what the state
becomes, or that the label cannot happen there. A run is a list of labels. What
one step keeps, every run keeps; what one step keeps under a condition on the
state before it, every run keeps whose steps all meet the condition.
-/

namespace Transition

variable {σ ℓ : Type*} (step : σ → ℓ → Option σ)

/-- The state the labels lead to, if each of them can happen. -/
def run (step : σ → ℓ → Option σ) : σ → List ℓ → Option σ
  | s, [] => some s
  | s, a :: as => (step s a).bind fun s' => run step s' as

/-- Each step of the run that happens meets the condition in the state before it. -/
def Along (step : σ → ℓ → Option σ) (ok : σ → ℓ → Prop) : σ → List ℓ → Prop
  | _, [] => True
  | s, a :: as => ok s a ∧ ∀ s', step s a = some s' → Along step ok s' as

/-- Some state the labels lead through, the first and the last included, has the property. -/
def Sometime (step : σ → ℓ → Option σ) (P : σ → Prop) (s : σ) (as : List ℓ) : Prop :=
  ∃ bs s', bs <+: as ∧ run step s bs = some s' ∧ P s'

/-- Some step that the labels take has the property, which is about the label and the state
before it. -/
def Happens (step : σ → ℓ → Option σ) (Q : σ → ℓ → Prop) (s : σ) (as : List ℓ) : Prop :=
  ∃ bs a s', bs ++ [a] <+: as ∧ run step s bs = some s' ∧ Q s' a

variable {step} {ok Q : σ → ℓ → Prop} {P : σ → Prop} {s s' : σ} {a : ℓ} {as bs : List ℓ}

@[simp] theorem run_nil : run step s [] = some s := rfl

theorem run_cons_eq_some_iff :
    run step s (a :: as) = some s' ↔ ∃ s₁, step s a = some s₁ ∧ run step s₁ as = some s' := by
  simp [run, Option.bind_eq_some_iff]

theorem run_append_eq_some_iff :
    run step s (as ++ bs) = some s' ↔ ∃ s₁, run step s as = some s₁ ∧ run step s₁ bs = some s' := by
  induction as generalizing s with
  | nil => simp
  | cons a as ih =>
    rw [List.cons_append, run_cons_eq_some_iff]
    constructor
    · rintro ⟨s₂, hstep, hrun⟩
      obtain ⟨s₁, has, hbs⟩ := ih.mp hrun
      exact ⟨s₁, run_cons_eq_some_iff.mpr ⟨s₂, hstep, has⟩, hbs⟩
    · rintro ⟨s₁, has, hbs⟩
      obtain ⟨s₂, hstep, hrun⟩ := run_cons_eq_some_iff.mp has
      exact ⟨s₂, hstep, ih.mpr ⟨s₁, hrun, hbs⟩⟩

/-- Where a run leads, and a property it has there, can be evaluated together. -/
theorem exists_run [DecidablePred P] (h : (run step s as).any (fun s => P s) = true) :
    ∃ s', run step s as = some s' ∧ P s' := by
  obtain ⟨s', hrun, hP⟩ := (Option.any_eq_true _ _).mp h
  exact ⟨s', hrun, of_decide_eq_true hP⟩

/-- What evaluates to true of the end of a run holds there. -/
@[elab_as_elim]
theorem of_run [DecidablePred P] (h : (run step s as).all (fun s => P s) = true)
    (hrun : run step s as = some s') : P s' := by
  rw [hrun] at h
  exact of_decide_eq_true h

/-- The same beside a property that every such run leads to. -/
theorem exists_run_and {R : σ → Prop} [DecidablePred P]
    (h : (run step s as).any (fun s => P s) = true)
    (hR : ∀ s', run step s as = some s' → R s') :
    ∃ s', run step s as = some s' ∧ P s' ∧ R s' := by
  obtain ⟨s', hrun, hP⟩ := exists_run h
  exact ⟨s', hrun, hP, hR s' hrun⟩

/-- The invariant rule: what each step that meets the condition keeps holds at
the end of every run whose steps all meet it. -/
theorem run_invariant (I : σ → Prop)
    (hstep : ∀ s a s', I s → ok s a → step s a = some s' → I s')
    (hs : I s) (hok : Along step ok s as) (hrun : run step s as = some s') : I s' := by
  induction as generalizing s with
  | nil =>
    obtain rfl : s = s' := Option.some_inj.mp hrun
    exact hs
  | cons a as ih =>
    obtain ⟨s₁, hfirst, hrest⟩ := run_cons_eq_some_iff.mp hrun
    exact ih (hstep s a s₁ hs hok.1 hfirst) (hok.2 s₁ hfirst) hrest

/-- The invariant rule for properties of the labels so far together with the state. -/
theorem run_invariant_history (I : List ℓ → σ → Prop) (hs : I [] s)
    (hstep : ∀ as s₁ a s₂, run step s as = some s₁ → I as s₁ → step s₁ a = some s₂ →
      I (as ++ [a]) s₂)
    (hrun : run step s as = some s') : I as s' := by
  induction as using List.reverseRecOn generalizing s' with
  | nil =>
    obtain rfl : s = s' := Option.some_inj.mp hrun
    exact hs
  | append_singleton as a ih =>
    obtain ⟨s₁, hpre, hlast⟩ := run_append_eq_some_iff.mp hrun
    obtain ⟨s₂, hfirst, hnil⟩ := run_cons_eq_some_iff.mp hlast
    obtain rfl : s₂ = s' := Option.some_inj.mp hnil
    exact hstep as s₁ a s₂ hpre (ih hpre) hfirst

/-- What the last state has was so at some time. -/
theorem Sometime.last (hrun : run step s as = some s') (h : P s') : Sometime step P s as :=
  ⟨as, s', List.prefix_refl as, hrun, h⟩

theorem Sometime.append (h : Sometime step P s as) : Sometime step P s (as ++ bs) := by
  obtain ⟨cs, s', hpre, hrun, hP⟩ := h
  exact ⟨cs, s', hpre.trans (List.prefix_append as bs), hrun, hP⟩

/-- The last step that was taken. -/
theorem Happens.last (hrun : run step s as = some s') (h : Q s' a) :
    Happens step Q s (as ++ [a]) :=
  ⟨as, a, s', List.prefix_refl _, hrun, h⟩

theorem Happens.append (h : Happens step Q s as) : Happens step Q s (as ++ bs) := by
  obtain ⟨cs, a, s', hpre, hrun, hQ⟩ := h
  exact ⟨cs, a, s', hpre.trans (List.prefix_append as bs), hrun, hQ⟩

theorem Happens.mono {Q' : σ → ℓ → Prop} (h : Happens step Q s as)
    (hQ : ∀ s a, Q s a → Q' s a) : Happens step Q' s as := by
  obtain ⟨cs, a, s', hpre, hrun, hQs⟩ := h
  exact ⟨cs, a, s', hpre, hrun, hQ s' a hQs⟩

/-- A condition every step meets. -/
theorem along_of_forall (h : ∀ s a, ok s a) : Along step ok s as := by
  induction as generalizing s with
  | nil => trivial
  | cons a as ih => exact ⟨h s a, fun _ _ => ih⟩

/-- The invariant rule for what every step keeps. -/
theorem run_invariant_always (I : σ → Prop) (hstep : ∀ s a s', I s → step s a = some s' → I s')
    (hs : I s) (hrun : run step s as = some s') : I s' :=
  run_invariant I (fun s a s' hs _ h => hstep s a s' hs h) hs
    (along_of_forall fun _ _ => trivial) hrun

/-- A condition every label of the run meets in whatever state. -/
theorem along_of_forall_mem (h : ∀ a ∈ as, ∀ s, ok s a) : Along step ok s as := by
  induction as generalizing s with
  | nil => trivial
  | cons a as ih =>
    refine ⟨h a List.mem_cons_self s, fun _ _ => ih ?_⟩
    intro b hb
    exact h b (List.mem_cons_of_mem a hb)

/-- A first step that meets the condition, and a run that does from where it leads. -/
theorem Along.cons (hok : ok s a) (hstep : step s a = some s') (h : Along step ok s' as) :
    Along step ok s (a :: as) := by
  refine ⟨hok, fun s₁ hs₁ => ?_⟩
  obtain rfl : s' = s₁ := Option.some_inj.mp (hstep.symm.trans hs₁)
  exact h

/-- Whether the steps of a run meet a condition can be evaluated along the run. -/
instance decidableAlong [∀ s a, Decidable (ok s a)] :
    (as : List ℓ) → (s : σ) → Decidable (Along step ok s as)
  | [], _ => .isTrue trivial
  | a :: as, s =>
    match hstep : step s a with
    | none => decidable_of_iff (ok s a) ⟨fun h => ⟨h, by simp [hstep]⟩, fun h => h.1⟩
    | some s' =>
      have := decidableAlong as s'
      decidable_of_iff (ok s a ∧ Along step ok s' as)
        ⟨fun h => Along.cons h.1 hstep h.2, fun h => ⟨h.1, h.2 s' hstep⟩⟩

/-- A condition on labels alone may be added if every label of the run meets it. -/
theorem Along.and_mem {p : ℓ → Prop} (h : Along step ok s as) (hp : ∀ a ∈ as, p a) :
    Along step (fun s a => ok s a ∧ p a) s as := by
  induction as generalizing s with
  | nil => trivial
  | cons a as ih =>
    refine ⟨⟨h.1, hp a List.mem_cons_self⟩, fun s₁ hs₁ => ih (h.2 s₁ hs₁) ?_⟩
    intro b hb
    exact hp b (List.mem_cons_of_mem a hb)

/-- The last step of a run meets the condition, too. -/
theorem Along.last (h : Along step ok s (as ++ [a])) (hrun : run step s as = some s') :
    ok s' a := by
  induction as generalizing s with
  | nil =>
    obtain rfl : s = s' := Option.some_inj.mp hrun
    exact h.1
  | cons b as ih =>
    obtain ⟨s₁, hfirst, hrest⟩ := run_cons_eq_some_iff.mp hrun
    exact ih (h.2 s₁ hfirst) hrest

/-- A prefix of a run whose steps meet the condition is one. -/
theorem Along.of_append (h : Along step ok s (as ++ bs)) : Along step ok s as := by
  induction as generalizing s with
  | nil => trivial
  | cons a as ih => exact ⟨h.1, fun s₁ hs₁ => ih (h.2 s₁ hs₁)⟩

theorem Along.of_prefix (h : Along step ok s bs) (hpre : as <+: bs) : Along step ok s as := by
  obtain ⟨cs, rfl⟩ := hpre
  exact h.of_append

/-- The rule for invariants that look back, in runs whose steps meet a condition. -/
theorem run_invariant_history_along (I : List ℓ → σ → Prop) (hs : I [] s)
    (hstep : ∀ as s₁ a s₂, run step s as = some s₁ → I as s₁ → ok s₁ a → step s₁ a = some s₂ →
      I (as ++ [a]) s₂)
    (hok : Along step ok s as) (hrun : run step s as = some s') : I as s' := by
  refine run_invariant_history (fun as s' => Along step ok s as → I as s') (fun _ => hs) ?_ hrun hok
  intro as s₁ a s₂ hpre hI hlast hok
  exact hstep as s₁ a s₂ hpre (hI hok.of_append) (hok.last hpre) hlast

/-- If in a state with property `P` a step that breaks the condition leads out of
`P`, then a run that never leaves `P` meets the condition throughout. The
invariant `I` is what every run keeps anyway. -/
theorem along_of_forall_prefix (I P : σ → Prop)
    (hinv : ∀ s a s', I s → step s a = some s' → I s')
    (hbreak : ∀ s a, I s → P s → ¬ok s a → ∃ s', step s a = some s' ∧ ¬P s')
    (hs : I s) (hP : ∀ bs s', bs <+: as → run step s bs = some s' → P s') :
    Along step ok s as := by
  induction as generalizing s with
  | nil => trivial
  | cons a as ih =>
    have hhead : ok s a := by
      by_contra hno
      obtain ⟨s₁, hstep, hout⟩ := hbreak s a hs (hP [] s (List.nil_prefix) rfl) hno
      exact hout (hP [a] s₁ ⟨as, rfl⟩ (run_cons_eq_some_iff.mpr ⟨s₁, hstep, rfl⟩))
    refine ⟨hhead, fun s₁ hstep => ih (hinv s a s₁ hs hstep) fun bs s₂ hpre hrun => ?_⟩
    exact hP (a :: bs) s₂ (List.cons_prefix_cons.mpr ⟨rfl, hpre⟩)
      (run_cons_eq_some_iff.mpr ⟨s₁, hstep, hrun⟩)

end Transition
