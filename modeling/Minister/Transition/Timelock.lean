import Mathlib.Order.Lattice
import Mathlib.Order.MinMax
import Minister.Transition.Run

/-!
# Settings with a time lock

A setting holds a live value and at most one scheduled value with the time from which it
counts. Values are ordered from strict to lax. A request for a value at most as lax as the
live one is applied at once and drops what was scheduled; a request for a laxer value is
scheduled, a fixed delay ahead, in place of what was scheduled before. Nothing ever moves a
scheduled value into the live column.

A system is time-locked in one of its settings when each of its steps either leaves the
setting alone or is an accepted request for it.
-/

namespace Transition

variable {σ ℓ α : Type*}

/-- A value in force, and a value scheduled for later. -/
@[ext]
structure Setting (α : Type*) where
  live : α
  pending : Option α
  effectiveAt : Option ℤ

namespace Setting

/-- The value that counts at a time. -/
def effective (x : Setting α) (now : ℤ) : α :=
  match x.pending, x.effectiveAt with
  | some p, some t => if t ≤ now then p else x.live
  | _, _ => x.live

/-- The value at a time is the live one, or a scheduled one whose time has come. -/
theorem effective_cases (x : Setting α) (now : ℤ) :
    x.effective now = x.live ∨
      ∃ p t, x.pending = some p ∧ x.effectiveAt = some t ∧ t ≤ now ∧ x.effective now = p := by
  obtain ⟨live, pending, effectiveAt⟩ := x
  cases pending with
  | none => exact .inl rfl
  | some p =>
    cases effectiveAt with
    | none => exact .inl rfl
    | some t =>
      by_cases ht : t ≤ now
      · exact .inr ⟨p, t, rfl, rfl, ht, if_pos ht⟩
      · exact .inl (if_neg ht)

/-- The live and the scheduled value have a property. -/
def Forall (P : α → Prop) (x : Setting α) : Prop :=
  P x.live ∧ ∀ p, x.pending = some p → P p

theorem Forall.effective {P : α → Prop} {x : Setting α} (h : x.Forall P) (now : ℤ) :
    P (x.effective now) := by
  rcases x.effective_cases now with hlive | ⟨p, t, hp, -, -, heff⟩
  · exact hlive ▸ h.1
  · exact heff ▸ h.2 p hp

variable [LinearOrder α]

/-- The laxest value that may come to count if nothing more is requested. -/
def worst (x : Setting α) : α :=
  match x.pending with
  | some p => max x.live p
  | none => x.live

/-- What a request for a value at a time makes of the setting. -/
def request (delay now : ℤ) (r : α) (x : Setting α) : Setting α :=
  if r ≤ x.live then ⟨r, none, none⟩
  else { x with pending := some r, effectiveAt := some (now + delay) }

/-- The scheduled value, if any, is laxer than the live one. -/
def Weakens (x : Setting α) : Prop := ∀ p, x.pending = some p → x.live < p

variable {x : Setting α} {delay now t : ℤ} {r : α}

theorem live_le_worst : x.live ≤ x.worst := by
  unfold worst
  split
  · exact le_max_left _ _
  · exact le_rfl

theorem pending_le_worst {p : α} (hp : x.pending = some p) : p ≤ x.worst := by
  simp only [worst, hp]
  exact le_max_right _ _

theorem effective_le_worst : x.effective now ≤ x.worst := by
  rcases x.effective_cases now with hlive | ⟨p, t, hp, -, -, heff⟩
  · exact hlive ▸ live_le_worst
  · exact heff ▸ pending_le_worst hp

/-- After a request, the requested value is the worst that can come to count. -/
theorem worst_request : (x.request delay now r).worst = r := by
  unfold request
  split_ifs with hr
  · rfl
  · exact max_eq_right (not_le.mp hr).le

/-- Requests never make the live value laxer. -/
theorem live_request_le : (x.request delay now r).live ≤ x.live := by
  unfold request
  split_ifs with hr
  · exact hr
  · exact le_rfl

/-- What a request leaves scheduled is the requested value, for a delay later. -/
theorem request_of_pending {p : α} (hp : (x.request delay now r).pending = some p) :
    p = r ∧ (x.request delay now r).live < p ∧
      (x.request delay now r).effectiveAt = some (now + delay) := by
  unfold request at hp ⊢
  split_ifs at hp ⊢ with hr
  · obtain rfl : r = p := Option.some_inj.mp hp
    exact ⟨rfl, not_le.mp hr, rfl⟩

/-- Until a scheduled value counts, the live value does. -/
theorem effective_request (hr : x.live < r) (ht : t < now + delay) :
    (x.request delay now r).effective t = x.live := by
  rw [request, if_neg (not_le.mpr hr)]
  exact if_neg (not_le.mpr ht)

theorem Forall.request {P : α → Prop} (h : x.Forall P) (hr : P r) (delay now : ℤ) :
    (x.request delay now r).Forall P := by
  unfold Setting.request
  split_ifs
  · exact ⟨hr, fun _ hp => nomatch hp⟩
  · refine ⟨h.1, fun p hp => ?_⟩
    obtain rfl : r = p := Option.some_inj.mp hp
    exact hr

theorem Weakens.live_le_effective (h : x.Weakens) : x.live ≤ x.effective now := by
  rcases x.effective_cases now with hlive | ⟨p, t, hp, -, -, heff⟩
  · exact hlive.ge
  · exact heff ▸ (h p hp).le

end Setting

/-! ### Systems -/

variable [LinearOrder α]

/-- Each step of the system leaves the setting alone or is an accepted request for it. The
setting may be absent; it then stays absent. -/
structure Timelocked (step : σ → ℓ → Option σ) (delay : ℤ) (clock : σ → ℤ)
    (setting : σ → Option (Setting α)) (accepts : σ → ℓ → Option α) : Prop where
  setting_of_accepts : ∀ {s a s' r}, step s a = some s' → accepts s a = some r →
    setting s' = (setting s).map (Setting.request delay (clock s) r)
  setting_of_not_accepts : ∀ {s a s'}, step s a = some s' → accepts s a = none →
    setting s' = setting s

namespace Timelocked

variable {step : σ → ℓ → Option σ} {delay : ℤ} {clock : σ → ℤ}
  {setting : σ → Option (Setting α)} {accepts : σ → ℓ → Option α}
  {s s₁ s₂ : σ} {a : ℓ} {as bs : List ℓ} {x x₁ x₂ : Setting α} {r : α} {t : ℤ}

variable (h : Timelocked step delay clock setting accepts)

include h

/-- A step keeps the setting or requests a value for it. -/
theorem setting_cases (hstep : step s a = some s₁) (hx₁ : setting s₁ = some x₁) :
    accepts s a = none ∧ setting s = some x₁ ∨
      ∃ r x, accepts s a = some r ∧ setting s = some x ∧ x₁ = x.request delay (clock s) r := by
  cases hacc : accepts s a with
  | none => exact .inl ⟨rfl, (h.setting_of_not_accepts hstep hacc).symm.trans hx₁⟩
  | some r =>
    rw [h.setting_of_accepts hstep hacc, Option.map_eq_some_iff] at hx₁
    obtain ⟨x, hx, rfl⟩ := hx₁
    exact .inr ⟨r, x, rfl, hx, rfl⟩

/-- The live value never gets laxer. -/
theorem live_le (hx : setting s = some x) (hrun : run step s as = some s₁)
    (hx₁ : setting s₁ = some x₁) : x₁.live ≤ x.live := by
  refine run_invariant_always (fun s₂ => ∀ x₂, setting s₂ = some x₂ → x₂.live ≤ x.live) ?_ ?_
    hrun x₁ hx₁
  · intro s₂ a s₃ hle hstep x₃ hx₃
    rcases h.setting_cases hstep hx₃ with ⟨-, hkept⟩ | ⟨r, x₂, -, hx₂, rfl⟩
    · exact hle x₃ hkept
    · exact Setting.live_request_le.trans (hle x₂ hx₂)
  · intro x₂ hx₂
    obtain rfl : x = x₂ := Option.some_inj.mp (hx.symm.trans hx₂)
    exact le_rfl

/-- If nothing is scheduled at first, what is scheduled later is laxer than the live value
and was requested a delay before its time. -/
theorem of_pending (hnone : ∀ x, setting s = some x → x.pending = none)
    (hrun : run step s as = some s₁) (hx₁ : setting s₁ = some x₁) {p : α}
    (hp : x₁.pending = some p) :
    x₁.live < p ∧ ∃ t, x₁.effectiveAt = some t ∧
      Happens step (fun s a => accepts s a = some p ∧ clock s + delay = t) s as := by
  refine run_invariant_history
    (fun as s₁ => ∀ x₁, setting s₁ = some x₁ → ∀ p, x₁.pending = some p →
      x₁.live < p ∧ ∃ t, x₁.effectiveAt = some t ∧
        Happens step (fun s a => accepts s a = some p ∧ clock s + delay = t) s as)
    ?_ ?_ hrun x₁ hx₁ p hp
  · intro x hx p hp
    rw [hnone x hx] at hp
    cases hp
  · intro as s₁ a s₂ hrun hinv hstep x₂ hx₂ p hp
    rcases h.setting_cases hstep hx₂ with ⟨-, hkept⟩ | ⟨r, x₁, hacc, -, rfl⟩
    · obtain ⟨hlt, t, ht, hhappens⟩ := hinv x₂ hkept p hp
      exact ⟨hlt, t, ht, hhappens.append⟩
    · obtain ⟨rfl, hlt, hat⟩ := Setting.request_of_pending hp
      exact ⟨hlt, _, hat, Happens.last hrun ⟨hacc, rfl⟩⟩

theorem weakens (hnone : ∀ x, setting s = some x → x.pending = none)
    (hrun : run step s as = some s₁) (hx₁ : setting s₁ = some x₁) : x₁.Weakens :=
  fun _ hp => (h.of_pending hnone hrun hx₁ hp).1

/-- If nothing is scheduled at first and the value got laxer between two states, exactly the
later value was requested, and accepted, a full delay before the later state. -/
theorem happens_of_lt (hnone : ∀ x, setting s = some x → x.pending = none)
    (hrun₁ : run step s as = some s₁) (hrun₂ : run step s₁ bs = some s₂)
    (hx₁ : setting s₁ = some x₁) (hx₂ : setting s₂ = some x₂)
    (hlt : x₁.effective (clock s₁) < x₂.effective (clock s₂)) :
    Happens step (fun s a => accepts s a = some (x₂.effective (clock s₂)) ∧
      clock s + delay ≤ clock s₂) s (as ++ bs) := by
  have hrun : run step s (as ++ bs) = some s₂ :=
    run_append_eq_some_iff.mpr ⟨s₁, hrun₁, hrun₂⟩
  rcases x₂.effective_cases (clock s₂) with hlive | ⟨p, t, hp, ht, hle, heff⟩
  · -- The live value only gets stricter, and what counts is never stricter than it.
    have hback : x₂.effective (clock s₂) ≤ x₁.effective (clock s₁) := by
      rw [hlive]
      exact (h.live_le hx₁ hrun₂ hx₂).trans (h.weakens hnone hrun₁ hx₁).live_le_effective
    exact absurd hlt hback.not_gt
  · obtain ⟨-, t', ht', hhappens⟩ := h.of_pending hnone hrun hx₂ hp
    obtain rfl : t = t' := Option.some_inj.mp (ht.symm.trans ht')
    rw [heff]
    exact hhappens.mono fun s a hQ => ⟨hQ.1, hQ.2.trans_le hle⟩

/-- Without an accepted request the setting stays as it is. -/
theorem setting_of_quiet (hquiet : Along step (fun s a => accepts s a = none) s as)
    (hrun : run step s as = some s₁) : setting s₁ = setting s :=
  run_invariant (fun s₁ => setting s₁ = setting s)
    (fun _ _ _ hinv hnone hstep => (h.setting_of_not_accepts hstep hnone).trans hinv) rfl hquiet
    hrun

/-- After an accepted request the value is at most as lax as requested, at every time and
until the next accepted request. -/
theorem effective_le_of_accepts (hacc : accepts s a = some r) (hstep : step s a = some s₁)
    (hquiet : Along step (fun s a => accepts s a = none) s₁ as) (hrun : run step s₁ as = some s₂)
    (hx₂ : setting s₂ = some x₂) : x₂.effective t ≤ r := by
  rw [h.setting_of_quiet hquiet hrun, h.setting_of_accepts hstep hacc,
    Option.map_eq_some_iff] at hx₂
  obtain ⟨x, -, rfl⟩ := hx₂
  exact Setting.effective_le_worst.trans Setting.worst_request.le

/-- A request for a laxer value changes nothing before its time, unless something else than the
live value was in force. -/
theorem steady_iff (hx : setting s = some x) (hacc : accepts s a = some r) (hlax : x.live < r)
    (hstep : step s a = some s₁) (hclock : clock s₁ = clock s) (hdelay : 0 < delay) :
    (∀ bs s₂, Along step (fun s a => accepts s a = none) s₁ bs → run step s₁ bs = some s₂ →
      clock s₂ < clock s + delay →
        (setting s₂).map (·.effective (clock s₂)) = some (x.effective (clock s))) ↔
      x.effective (clock s) = x.live := by
  have hafter (bs : List ℓ) (s₂ : σ) (hquiet : Along step (fun s a => accepts s a = none) s₁ bs)
      (hrun : run step s₁ bs = some s₂) (hlt : clock s₂ < clock s + delay) :
      (setting s₂).map (·.effective (clock s₂)) = some x.live := by
    rw [h.setting_of_quiet hquiet hrun, h.setting_of_accepts hstep hacc, hx]
    exact congrArg some (Setting.effective_request hlax hlt)
  constructor
  · intro hsteady
    have hlt : clock s₁ < clock s + delay := by omega
    have hbefore := hsteady [] s₁ trivial rfl hlt
    exact Option.some.inj (hbefore.symm.trans (hafter [] s₁ trivial rfl hlt))
  · intro hlive bs s₂ hquiet hrun hlt
    rw [hafter bs s₂ hquiet hrun hlt, hlive]

end Timelocked

end Transition
