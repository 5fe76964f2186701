import Minister.AnonSeed.Calls

/-!
# The cooldown of re-keys

A re-key reads the log before it bumps the epoch and writes its entry after that, so two re-keys
that both read before either has its entry pass the cooldown together. If no re-key reads the log
while another one is under way, every two that succeed are a cooldown apart, whatever enrollments,
confirmations and resets come between.
-/

namespace Minister.SeedCalls

open Relational Transition AnonSeed

/-- When a re-key that has succeeded bumped the epoch, and when it was logged. -/
def Call.times? : Call → Option (Timestamp × Timestamp)
  | .rekeyed bumpedAt auditedAt => some (bumpedAt, auditedAt)
  | _ => none

/-- One re-key is logged a cooldown before the other one bumps the epoch. -/
def Apart (x y : Timestamp × Timestamp) : Prop :=
  x.2 + rekeyCooldownMs ≤ y.1 ∨ y.2 + rekeyCooldownMs ≤ x.1

instance : DecidableRel Apart := fun x y =>
  inferInstanceAs (Decidable (x.2 + rekeyCooldownMs ≤ y.1 ∨ y.2 + rekeyCooldownMs ≤ x.1))

/-- A re-key that has read the log and is not in it. -/
def Call.underWay? : Call → Option Unit
  | .reading | .rekeying | .auditing _ => some ()
  | _ => none

/-- When a re-key reads the log, no other one is under way. -/
def Alone (s : State) : Action → Prop
  | .call (.rekeyAnonSeed _ _ _ _) => s.calls.filterMap Call.underWay? = []
  | _ => True

instance (s : State) (a : Action) : Decidable (Alone s a) := by
  unfold Alone
  split <;> infer_instance

/-- What the log says about a call: a re-key under way is past the cooldown of every entry, and
one that has succeeded has an entry. -/
def Call.Logged (userId : UserId) (now : Timestamp) (rekey : List Rekey) : Call → Prop
  | .reading | .rekeying => ∀ r ∈ rekey, r.userId = userId → r.createdAt + rekeyCooldownMs ≤ now
  | .auditing bumpedAt =>
    ∀ r ∈ rekey, r.userId = userId → r.createdAt + rekeyCooldownMs ≤ bumpedAt
  | .rekeyed _ auditedAt => ⟨userId, auditedAt⟩ ∈ rekey
  | _ => True

structure Spaced (userId : UserId) (s : State) : Prop where
  once : (s.calls.filterMap Call.underWay?).Nodup
  logged : ∀ c ∈ s.calls, c.Logged userId s.now s.server.rekey
  apart : (s.calls.filterMap Call.times?).Pairwise Apart

section Spaced

variable {env : Env} {userId : UserId} {s s' : State} {a : Action} {as : List Action}
  {server : Server} {i : Nat} {c c' : Call}

theorem Call.Logged.tick {now now' : Timestamp} {rekey : List Rekey}
    (h : c.Logged userId now rekey) (hle : now ≤ now') : c.Logged userId now' rekey := by
  cases c with
  | reading | rekeying => exact fun r hr huser => (h r hr huser).trans hle
  | _ => exact h

variable (h : Spaced userId s)

include h

/-- A call that does not touch the log. -/
theorem Spaced.set (hcall : s.calls[i]? = some c) (hrekey : server.rekey = s.server.rekey)
    (hunderWay : c'.underWay? = c.underWay? ∨ c'.underWay? = none) (htimes : c'.times? = none)
    (hlogged : c'.Logged userId s.now s.server.rekey) :
    Spaced userId { s with server, calls := s.calls.set i c' } where
  once := h.once.sublist (filterMap_set_sublist hcall hunderWay)
  logged := by
    rw [hrekey]
    exact forall_mem_set h.logged hlogged
  apart := h.apart.sublist (filterMap_set_sublist hcall (.inr htimes))

theorem Spaced.concat (hrekey : server.rekey = s.server.rekey)
    (hunderWay : c.underWay? = none ∨ s.calls.filterMap Call.underWay? = [])
    (htimes : c.times? = none) (hlogged : c.Logged userId s.now s.server.rekey) :
    Spaced userId { s with server, calls := s.calls ++ [c] } where
  once := by
    rw [List.filterMap_append]
    rcases hunderWay with hnone | hnil
    · simpa [hnone] using h.once
    · rw [hnil]
      cases hc : c.underWay? <;> simp [hc]
  logged := by
    rw [hrekey]
    exact forall_mem_concat h.logged hlogged
  apart := by simpa [List.filterMap_append, htimes] using h.apart

/-- A re-key is logged. No other one is under way, and every other one that has succeeded was
logged a cooldown before this one bumped the epoch. -/
theorem Spaced.audit {bumpedAt : Timestamp} (hcall : s.calls[i]? = some (.auditing bumpedAt)) :
    Spaced userId { s with
      server := { s.server with rekey := s.server.rekey ++ [⟨userId, s.now⟩] }
      calls := s.calls.set i (.rekeyed bumpedAt s.now) } where
  once := h.once.sublist (filterMap_set_sublist hcall (.inr rfl))
  logged := by
    intro c hc
    rcases eq_or_exists_ne_of_mem_set hc with rfl | ⟨j, hne, hj⟩
    · exact List.mem_append_right _ (List.mem_singleton_self _)
    · have hold := h.logged c (List.mem_of_getElem? hj)
      have hother : c.underWay? = none := by
        refine Option.eq_none_iff_forall_ne_some.mpr fun u hu => ?_
        exact hne (eq_of_nodup_filterMap h.once hj hcall hu rfl)
      cases c with
      | reading => cases hother
      | rekeying => cases hother
      | auditing t => cases hother
      | rekeyed t t' => exact List.mem_append_left _ hold
      | _ => trivial
  apart := by
    have hperm : ((s.calls.set i (.rekeyed bumpedAt s.now)).filterMap Call.times?).Perm
        ((bumpedAt, s.now) :: s.calls.filterMap Call.times?) :=
      perm_filterMap_set_take hcall rfl rfl
    refine (hperm.pairwise_iff ?_).mpr ?_
    · exact fun h => h.symm
    · refine List.pairwise_cons.mpr ⟨fun y hy => ?_, h.apart⟩
      obtain ⟨c, hc, htimes⟩ := List.mem_filterMap.mp hy
      cases c with
      | rekeyed t t' =>
        cases htimes
        have hentry : (⟨userId, t'⟩ : Rekey) ∈ s.server.rekey := h.logged _ hc
        exact .inr (h.logged _ (List.mem_of_getElem? hcall) _ hentry rfl)
      | _ => cases htimes

theorem spaced_step (hok : Alone s a) (hstep : step env userId s a = some s') :
    Spaced userId s' := by
  cases turn_of_step hstep with
  | tick ms =>
    refine ⟨h.once, fun c hc => (h.logged c hc).tick ?_, h.apart⟩
    exact Int.le_add_of_nonneg_right (Int.natCast_nonneg ms)
  | refuse request refusal => exact h.concat rfl (.inl rfl) rfl trivial
  | begins request server c hbegins =>
    cases hbegins with
    | reading limited session gate confirmPhrase hcooldown =>
      exact h.concat rfl (.inr hok) rfl hcooldown
    | _ => exact h.concat rfl (.inl rfl) rfl trivial
  | moves i c server c' hcall hmoves =>
    have hc := h.logged c (List.mem_of_getElem? hcall)
    cases hmoves with
    | stamps existing =>
      refine h.set hcall ?_ (.inr rfl) rfl trivial
      unfold Server.stampGenerated
      split <;> rfl
    | upserts input enrollment =>
      refine h.set hcall ?_ (.inr rfl) rfl trivial
      unfold Server.upsertBlob
      dsimp only
      split <;> rfl
    | finds input enrollment c' hc' =>
      rcases hc' with rfl | rfl
      · exact h.set hcall rfl (.inr rfl) rfl trivial
      · exact h.set hcall rfl (.inr rfl) rfl trivial
    | reads | rekeys => exact h.set hcall rfl (.inl rfl) rfl hc
    | audits bumpedAt => exact h.audit hcall
    | _ => exact h.set hcall rfl (.inr rfl) rfl trivial

end Spaced

/-- Any two re-keys that succeed are a cooldown apart. -/
theorem apart_of_run {env : Env} {userId : UserId} {s s' : State} {as : List Action}
    (hs : s.calls = []) (hok : Along (step env userId) Alone s as)
    (hrun : run (step env userId) s as = some s') :
    (s'.calls.filterMap Call.times?).Pairwise Apart := by
  have hinit : Spaced userId s := ⟨by simp [hs], by simp [hs], by simp [hs]⟩
  exact (run_invariant (Spaced userId) (fun _ _ _ h hok hstep => spaced_step h hok hstep) hinit hok
    hrun).apart

/-- A re-key by a session that has signed in with a passkey at that second. -/
def rekeys (authTime : Int) : Action :=
  .call (.rekeyAnonSeed none ⟨some 2, false, some (.finite authTime)⟩ none
    (some "re-key my identity"))

/-- Re-keyed, enrolled again and re-keyed a week later. -/
def aWeekApart : List Action :=
  enrolls 0 ++ [rekeys 0, .advance 2, .advance 2, .advance 2, .tick 604800000] ++ enrolls 3 ++
    [rekeys 604800, .advance 5, .advance 5, .advance 5]

theorem aWeekApart_apart : ∃ s, run (step enabledEnv "cann000001") {} aWeekApart = some s ∧
    s.calls.filterMap Call.times? = [(0, 0), (604800000, 604800000)] ∧
    (s.calls.filterMap Call.times?).Pairwise Apart := by
  exact exists_run_and (by decide +kernel) fun s hrun =>
    apart_of_run rfl (by decide +kernel) hrun

/-- Two re-keys that both read the log before either is in it. -/
def rekeysTwice : List Action :=
  enrolls 0 ++ [rekeys 0, rekeys 0, .advance 2, .advance 3, .advance 2, .advance 3, .advance 2,
    .advance 3]

theorem rekeysTwice_together : ∃ s, run (step enabledEnv "cann000001") {} rekeysTwice = some s ∧
    s.calls.filterMap Call.times? = [(0, 0), (0, 0)] ∧ ¬Apart (0, 0) (0, 0) ∧
    s.server.epochOf "cann000001" = 3 :=
  exists_run (by decide +kernel)

end Minister.SeedCalls
