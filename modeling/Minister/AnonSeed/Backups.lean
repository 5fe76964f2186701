import Minister.AnonSeed.Calls

/-!
# Confirmed backups and stored copies

A reset or a re-key that comes between the read and the write of another call moves the epoch on
under it: a confirmation then confirms a root that it was not called for, and a copy is stored
after the purge. Two calls that store copies can both count four of them. As long as what a call
has read is still so when it writes, a confirmed backup is one of the root of the epoch, and every
copy was stored while the user was active at this epoch.
-/

namespace Minister.SeedCalls

open Relational Transition AnonSeed

/-! ### The properties -/

/-- `confirmSeedBackup` is called when the user is at the epoch and a root was generated for it
at that time. -/
def Confirms (userId : UserId) (epoch : Nat) (generatedAt : Option Timestamp) (s : State)
    (a : Action) : Prop :=
  ∃ limited row, a = .call (.confirmSeedBackup limited) ∧
    s.server.findEnrollment userId = some row ∧ row.enrollmentEpoch = epoch ∧
    row.seedGeneratedAt = generatedAt ∧ generatedAt ≠ none

/-- A call stores the copy when the user is active at the epoch. -/
def Stores (userId : UserId) (epoch : Nat) (b : SeedBlob) (s : State) (a : Action) : Prop :=
  ∃ i input enrollment, a = .advance i ∧ s.calls[i]? = some (.upserting input enrollment) ∧
    b = PutBlobInput.blob userId input ∧
    stateOf (s.server.findEnrollment userId) = ⟨.active, epoch⟩

/-- The row that the call writes is the one that it has read. -/
def Call.RowUpToDate (userId : UserId) (s : State) : Call → Prop
  | .stamping existing => s.server.findEnrollment userId = existing
  | .confirming existing => s.server.findEnrollment userId = some existing
  | _ => True

/-- The row is the one that the call has read, and the copy that it stores is one that may be
stored. -/
def Call.CopyUpToDate (userId : UserId) (s : State) : Call → Prop
  | .upserting input enrollment => s.server.findEnrollment userId = some enrollment ∧
    (s.server.blob.any (SeedBlob.isFor userId input.credentialId) = true ∨
      (blobsOf userId s.server).length < maxBlobsPerUser)
  | _ => True

instance (userId : UserId) (s : State) (c : Call) : Decidable (c.RowUpToDate userId s) := by
  cases c <;> unfold Call.RowUpToDate <;> infer_instance

instance (userId : UserId) (s : State) (c : Call) : Decidable (c.CopyUpToDate userId s) := by
  cases c <;> unfold Call.CopyUpToDate <;> infer_instance

/-- What has to hold of a call before its next statement. -/
def AtAdvance (P : State → Call → Prop) (s : State) : Action → Prop
  | .advance i => ∀ c ∈ s.calls[i]?, P s c
  | .tick _ | .call _ => True

instance {P : State → Call → Prop} [∀ s, DecidablePred (P s)] (s : State) (a : Action) :
    Decidable (AtAdvance P s a) := by
  cases a <;> unfold AtAdvance <;> infer_instance

/-- The enrollment is written as it was read. -/
abbrev RowUpToDate (userId : UserId) : State → Action → Prop := AtAdvance (Call.RowUpToDate userId)

/-- What a call has read is still so whenever it writes. -/
abbrev UpToDate (userId : UserId) : State → Action → Prop :=
  AtAdvance fun s c => c.RowUpToDate userId s ∧ c.CopyUpToDate userId s

theorem UpToDate.row {userId : UserId} {s : State} {a : Action} (h : UpToDate userId s a) :
    RowUpToDate userId s a := by
  cases a with
  | advance i => exact fun c hc => (h c hc).1
  | tick | call => trivial

section Confirmed

variable {env : Env} {userId : UserId} {s₀ s s' : State} {a : Action} {as : List Action}
  {server : Server} {now : Timestamp}

/-- A backup is confirmed only for a root that was generated, and by a call after that. -/
def Sound (env : Env) (userId : UserId) (s₀ : State) (as : List Action) (row : Enrollment) : Prop :=
  row.backupConfirmedAt ≠ none → row.seedGeneratedAt ≠ none ∧
    Happens (step env userId) (Confirms userId row.enrollmentEpoch row.seedGeneratedAt) s₀ as

/-- What a call has read when it began. -/
def Call.Ok (env : Env) (userId : UserId) (s₀ : State) (as : List Action) : Call → Prop
  | .stamping existing => ∀ row ∈ existing, row.seedGeneratedAt = none
  | .confirming existing => existing.seedGeneratedAt ≠ none ∧
    Happens (step env userId)
      (Confirms userId existing.enrollmentEpoch existing.seedGeneratedAt) s₀ as
  | .finding _ enrollment | .counting _ enrollment | .upserting _ enrollment =>
    enrollment.backupConfirmedAt ≠ none
  | _ => True

structure Inv (env : Env) (userId : UserId) (s₀ : State) (as : List Action) (s : State) :
    Prop where
  row : ∀ row ∈ s.server.findEnrollment userId, Sound env userId s₀ as row
  calls : ∀ c ∈ s.calls, c.Ok env userId s₀ as

/-- There are at most five copies, and each was stored at this epoch. -/
structure Copies (env : Env) (userId : UserId) (s₀ : State) (as : List Action) (s : State) :
    Prop where
  atMost : (blobsOf userId s.server).length ≤ maxBlobsPerUser
  stored : ∀ b ∈ blobsOf userId s.server,
    Happens (step env userId) (Stores userId (s.server.epochOf userId) b) s₀ as

theorem Call.Ok.append {c : Call} {bs : List Action} (h : c.Ok env userId s₀ as) :
    c.Ok env userId s₀ (as ++ bs) := by
  cases c with
  | confirming existing => exact ⟨h.1, h.2.append⟩
  | _ => exact h

theorem Inv.append {bs : List Action} (h : Inv env userId s₀ as s) :
    Inv env userId s₀ (as ++ bs) s where
  row := fun row hrow hconfirmed => (h.row row hrow hconfirmed).imp_right Happens.append
  calls := fun c hc => (h.calls c hc).append

/-! #### What the writes do to the row and the copies -/

theorem findEnrollment_upsertBlob {b : SeedBlob} :
    (server.upsertBlob b).findEnrollment userId = server.findEnrollment userId := by
  unfold Server.upsertBlob
  dsimp only
  split <;> rfl

theorem findEnrollment_bump : (bumpEpochAndPurge userId server).findEnrollment userId =
    (server.findEnrollment userId).map Enrollment.bumped :=
  findEnrollment_update_self advances_bumped

theorem blobsOf_bump : blobsOf userId (bumpEpochAndPurge userId server) = [] := by
  refine List.eq_nil_iff_forall_not_mem.mpr fun b hb => ?_
  obtain ⟨hkept, huser⟩ := mem_findMany.mp hb
  exact absurd huser (by simpa using (mem_deleteMany.mp hkept).2)

theorem length_blobsOf_upsertBlob {input : PutBlobInput}
    (hroom : server.blob.any (SeedBlob.isFor userId input.credentialId) = true ∨
      (blobsOf userId server).length < maxBlobsPerUser)
    (h : (blobsOf userId server).length ≤ maxBlobsPerUser) :
    (blobsOf userId (server.upsertBlob (PutBlobInput.blob userId input))).length ≤
      maxBlobsPerUser := by
  unfold Server.upsertBlob
  dsimp only
  split
  · -- the owner of a copy does not change
    rename_i hsame
    refine Nat.le_trans (Nat.le_of_eq ?_) h
    unfold blobsOf findMany mapWhere
    rw [← List.countP_eq_length_filter, ← List.countP_eq_length_filter, List.countP_map]
    refine List.countP_congr fun b _ => ?_
    dsimp only [Function.comp]
    split
    · rename_i hb
      have huser : b.userId = userId := (of_decide_eq_true hb).1
      simp [PutBlobInput.blob, huser]
    · rfl
  · rename_i hnew
    have hlt := hroom.resolve_left hnew
    unfold blobsOf findMany at hlt ⊢
    dsimp only
    rw [List.filter_append, List.length_append]
    have hone : ([PutBlobInput.blob userId input].filter fun b => b.userId = userId).length ≤ 1 :=
      List.length_filter_le _ _
    omega

theorem epochOf_upsertBlob {b : SeedBlob} :
    (server.upsertBlob b).epochOf userId = server.epochOf userId := by
  rw [epochOf_eq, epochOf_eq, findEnrollment_upsertBlob]

theorem epochOf_confirmed : (server.updateEnrollment userId fun row =>
    { row with backupConfirmedAt := some now }).epochOf userId = server.epochOf userId := by
  rw [epochOf_eq, epochOf_eq, findEnrollment_update_self advances_confirmed]
  cases server.findEnrollment userId <;> rfl

/-! #### The row -/

section

variable (h : Inv env userId s₀ as s)

include h

theorem Inv.begins {request : Request} {c : Call} (hrun : run (step env userId) s₀ as = some s)
    (hbegins : Begins userId s request server c) :
    Inv env userId s₀ (as ++ [.call request]) { s with server, calls := s.calls ++ [c] } := by
  have hnow : Inv env userId s₀ (as ++ [.call request]) s := h.append
  cases hbegins with
  | stamping limited hnone => exact ⟨hnow.row, forall_mem_concat hnow.calls hnone⟩
  | confirming limited existing hread hgenerated =>
    refine ⟨hnow.row, forall_mem_concat hnow.calls ⟨hgenerated, ?_⟩⟩
    exact Happens.last hrun ⟨limited, existing, rfl, hread, rfl, rfl, hgenerated⟩
  | answered | resetting | reading | deletes =>
    exact ⟨hnow.row, forall_mem_concat hnow.calls trivial⟩
  | finding limited input enrollment hconfirmed =>
    exact ⟨hnow.row, forall_mem_concat hnow.calls hconfirmed⟩

/-- A statement that writes the row. -/
theorem Inv.rewrite {i : Nat} {c' : Call} {row : Enrollment}
    (hrow : server.findEnrollment userId = some row) (hsound : Sound env userId s₀ as row)
    (hc' : c'.Ok env userId s₀ as) :
    Inv env userId s₀ as { s with server, calls := s.calls.set i c' } := by
  refine ⟨fun row' hrow' => ?_, forall_mem_set h.calls hc'⟩
  cases hrow.symm.trans hrow'
  exact hsound

/-- The next epoch has no confirmed backup. -/
theorem Inv.bump {i : Nat} {c' : Call} (hc' : c'.Ok env userId s₀ as) :
    Inv env userId s₀ as
      { s with server := bumpEpochAndPurge userId s.server, calls := s.calls.set i c' } := by
  refine ⟨fun row hrow hconfirmed => ?_, forall_mem_set h.calls hc'⟩
  obtain ⟨row, -, rfl⟩ := Option.map_eq_some_iff.mp (findEnrollment_bump.symm.trans hrow)
  exact absurd rfl hconfirmed

theorem inv_moves {i : Nat} {c c' : Call} (hcall : s.calls[i]? = some c)
    (hok : c.RowUpToDate userId s) (hmoves : Moves userId s c server c') :
    Inv env userId s₀ (as ++ [.advance i]) { s with server, calls := s.calls.set i c' } := by
  have hnow : Inv env userId s₀ (as ++ [.advance i]) s := h.append
  have hc := hnow.calls c (List.mem_of_getElem? hcall)
  -- a statement that only reads
  have hreads {c' : Call} (hc' : c'.Ok env userId s₀ (as ++ [.advance i])) :
      Inv env userId s₀ (as ++ [.advance i]) { s with calls := s.calls.set i c' } :=
    ⟨hnow.row, forall_mem_set hnow.calls hc'⟩
  cases hmoves with
  | stamps existing =>
    refine hnow.rewrite findEnrollment_stampGenerated (fun hconfirmed => ?_) trivial
    cases hrow : s.server.findEnrollment userId with
    | none =>
      rw [hrow] at hconfirmed
      exact absurd rfl hconfirmed
    | some row =>
      -- the row that was read had no root, so its backup was not confirmed
      rw [hrow] at hconfirmed
      exact absurd (hc row (hok ▸ hrow)) (hnow.row row hrow hconfirmed).1
  | confirms existing =>
    have hread : s.server.findEnrollment userId = some existing := hok
    have hrow : (s.server.updateEnrollment userId fun row =>
        { row with backupConfirmedAt := some s.now }).findEnrollment userId =
        some { existing with backupConfirmedAt := some s.now } := by
      rw [findEnrollment_update_self advances_confirmed, hread, Option.map_some]
    exact hnow.rewrite hrow (fun _ => hc) trivial
  | finds input enrollment c' hc' =>
    rcases hc' with rfl | rfl
    · exact hreads hc
    · exact hreads hc
  | counts input enrollment => exact hreads hc
  | upserts input enrollment =>
    refine ⟨fun row hrow => ?_, forall_mem_set hnow.calls trivial⟩
    rw [findEnrollment_upsertBlob] at hrow
    exact hnow.row row hrow
  | resets | rekeys => exact hnow.bump trivial
  | reads | refuses => exact hreads trivial
  | audits bumpedAt => exact ⟨hnow.row, forall_mem_set hnow.calls trivial⟩

theorem inv_step (hrun : run (step env userId) s₀ as = some s) (hok : RowUpToDate userId s a)
    (hstep : step env userId s a = some s') : Inv env userId s₀ (as ++ [a]) s' := by
  cases turn_of_step hstep with
  | tick ms => exact { h.append with }
  | refuse request refusal =>
    exact { h.append with calls := forall_mem_concat h.append.calls trivial }
  | begins request server c hbegins => exact h.begins hrun hbegins
  | moves i c server c' hcall hmoves => exact inv_moves h hcall (hok c hcall) hmoves

end

/-! #### The copies -/

section

variable (h : Copies env userId s₀ as s)

include h

/-- Nothing is stored, and the epoch stays. -/
theorem Copies.sublist {bs : List Action}
    (hsub : (blobsOf userId s'.server).Sublist (blobsOf userId s.server))
    (hepoch : s'.server.epochOf userId = s.server.epochOf userId) :
    Copies env userId s₀ (as ++ bs) s' where
  atMost := hsub.length_le.trans h.atMost
  stored b hb := hepoch ▸ (h.stored b (hsub.subset hb)).append

/-- A copy is stored only for a user who is active. -/
theorem copies_moves {i : Nat} {c c' : Call} (hinv : Inv env userId s₀ as s)
    (hrun : run (step env userId) s₀ as = some s) (hcall : s.calls[i]? = some c)
    (hok : c.CopyUpToDate userId s) (hmoves : Moves userId s c server c') :
    Copies env userId s₀ (as ++ [.advance i]) { s with server, calls := s.calls.set i c' } := by
  cases hmoves with
  | stamps => exact h.sublist (by rw [blobsOf, stampGenerated_blob, blobsOf]) epochOf_stampGenerated
  | confirms => exact h.sublist (.refl _) epochOf_confirmed
  | finds | counts | reads | refuses | audits => exact h.sublist (.refl _) rfl
  | upserts input enrollment =>
    obtain ⟨hread, hroom⟩ := hok
    refine ⟨length_blobsOf_upsertBlob hroom h.atMost, fun b hb => ?_⟩
    obtain ⟨hmem, huser⟩ := mem_findMany.mp hb
    rw [epochOf_upsertBlob]
    rcases mem_upsertBlob hmem with hold | rfl
    · exact (h.stored b (mem_findMany.mpr ⟨hold, huser⟩)).append
    · refine Happens.last hrun ⟨i, input, enrollment, rfl, hcall, rfl, ?_⟩
      have hconfirmed : enrollment.backupConfirmedAt ≠ none :=
        hinv.calls _ (List.mem_of_getElem? hcall)
      have hgenerated := (hinv.row enrollment hread hconfirmed).1
      rw [epochOf_eq, hread]
      simp only [stateOf, if_neg hgenerated, if_neg hconfirmed, Option.map_some, Option.getD_some]
  | resets | rekeys => exact ⟨by simp [blobsOf_bump], by simp [blobsOf_bump]⟩

theorem copies_step (hinv : Inv env userId s₀ as s) (hrun : run (step env userId) s₀ as = some s)
    (hok : UpToDate userId s a) (hstep : step env userId s a = some s') :
    Copies env userId s₀ (as ++ [a]) s' := by
  cases turn_of_step hstep with
  | tick | refuse => exact h.sublist (.refl _) rfl
  | begins request server c hbegins =>
    cases hbegins with
    | deletes => exact h.sublist (List.filter_sublist.filter _) rfl
    | _ => exact h.sublist (.refl _) rfl
  | moves i c server c' hcall hmoves =>
    exact copies_moves h hinv hrun hcall (hok c hcall).2 hmoves

end

/-- The user has no private identity yet, and no call is under way. -/
structure State.Initial (userId : UserId) (s : State) : Prop where
  enrollment : s.server.findEnrollment userId = none
  blobs : blobsOf userId s.server = []
  calls : s.calls = []

theorem State.Initial.inv (h : s.Initial userId) : Inv env userId s [] s where
  row := by simp [h.enrollment]
  calls := by simp [h.calls]

theorem inv_of_run (hs : s.Initial userId) (hok : Along (step env userId) (RowUpToDate userId) s as)
    (hrun : run (step env userId) s as = some s') : Inv env userId s as s' :=
  run_invariant_history_along (Inv env userId s) hs.inv
    (fun _ _ _ _ hpre h hok hstep => inv_step h hpre hok hstep) hok hrun

theorem copies_of_run (hs : s.Initial userId) (hok : Along (step env userId) (UpToDate userId) s as)
    (hrun : run (step env userId) s as = some s') : Copies env userId s as s' :=
  (run_invariant_history_along (fun as s' => Inv env userId s as s' ∧ Copies env userId s as s')
    ⟨hs.inv, by simp [hs.blobs], by simp [hs.blobs]⟩
    (fun _ _ _ _ hpre h hok hstep =>
      ⟨inv_step h.1 hpre hok.row hstep, copies_step h.2 h.1 hpre hok hstep⟩) hok hrun).2

/-! #### Epochs -/

theorem epochOf_le_bump :
    server.epochOf userId ≤ (bumpEpochAndPurge userId server).epochOf userId := by
  rw [epochOf_eq, epochOf_eq, findEnrollment_bump]
  cases server.findEnrollment userId with
  | none => exact Nat.le_refl 1
  | some row => exact Nat.le_succ row.enrollmentEpoch

theorem epochOf_le_of_step (hstep : step env userId s a = some s') :
    s.server.epochOf userId ≤ s'.server.epochOf userId := by
  cases turn_of_step hstep with
  | tick ms => exact Nat.le_refl _
  | refuse request refusal => exact Nat.le_refl _
  | begins request server c hbegins => cases hbegins <;> exact Nat.le_refl _
  | moves i c server c' hcall hmoves =>
    cases hmoves with
    | stamps existing =>
      rw [epochOf_eq, epochOf_eq, findEnrollment_stampGenerated]
      cases s.server.findEnrollment userId <;> exact Nat.le_refl _
    | confirms existing =>
      rw [epochOf_eq, epochOf_eq, findEnrollment_update_self advances_confirmed]
      cases s.server.findEnrollment userId <;> exact Nat.le_refl _
    | upserts input enrollment => rw [epochOf_eq, epochOf_eq, findEnrollment_upsertBlob]
    | resets | rekeys => exact epochOf_le_bump
    | _ => exact Nat.le_refl _

theorem epochOf_le_of_run (hrun : run (step env userId) s as = some s') :
    s.server.epochOf userId ≤ s'.server.epochOf userId :=
  run_invariant_always (fun s' => s.server.epochOf userId ≤ s'.server.epochOf userId)
    (fun _ _ _ hle hstep => hle.trans (epochOf_le_of_step hstep)) (Nat.le_refl _) hrun

end Confirmed

/-- A backup is confirmed only for a root, an active user called `confirmSeedBackup` at this epoch
after the root was generated, and the epoch has never gone back. -/
theorem confirmed_of_run {env : Env} {userId : UserId} {s s' : State} {as : List Action}
    (hs : s.Initial userId) (hok : Along (step env userId) (RowUpToDate userId) s as)
    (hrun : run (step env userId) s as = some s') :
    (∀ row ∈ s'.server.findEnrollment userId,
      (row.backupConfirmedAt ≠ none → row.seedGeneratedAt ≠ none) ∧
      ((stateOf (some row)).status = .active → Happens (step env userId)
        (Confirms userId row.enrollmentEpoch row.seedGeneratedAt) s as)) ∧
    ∀ bs s₁, bs <+: as → run (step env userId) s bs = some s₁ →
      s₁.server.epochOf userId ≤ s'.server.epochOf userId := by
  have hinv := inv_of_run hs hok hrun
  refine ⟨fun row hrow => ⟨?_, fun hactive => ?_⟩, ?_⟩
  · exact fun hconfirmed => (hinv.row row hrow hconfirmed).1
  · refine (hinv.row row hrow fun hnone => ?_).2
    simp only [stateOf, hnone] at hactive
    split at hactive <;> cases hactive
  · rintro bs s₁ ⟨cs, rfl⟩ hpre
    obtain ⟨s₂, hbs, hcs⟩ := run_append_eq_some_iff.mp hrun
    cases hpre.symm.trans hbs
    exact epochOf_le_of_run hcs

/-! #### Runs -/

def resets : Action := .call (.resetAnonSeed none (some "reset my anonymous key"))

/-- Enrolled, reset, and enrolled again. -/
def twoEpochs : List Action := enrolls 0 ++ [resets, .advance 2] ++ enrolls 3

theorem twoEpochs_confirmed : ∃ s, run (step enabledEnv "cann000001") {} twoEpochs = some s ∧
    stateOf (s.server.findEnrollment "cann000001") = ⟨.active, 2⟩ ∧
    Happens (step enabledEnv "cann000001") (Confirms "cann000001" 2 (some 0)) {} twoEpochs := by
  refine exists_run_and (by decide +kernel) fun s hrun => ?_
  have hrow : s.server.findEnrollment "cann000001" =
      some ⟨⟨"cann000001", 2⟩, some 0, some 0⟩ := of_run (by decide +kernel) hrun
  exact ((confirmed_of_run ⟨rfl, rfl, rfl⟩ (by decide +kernel) hrun).1 _ hrow).2 rfl

/-- The backup is confirmed for a root that a reset has discarded in the meantime. -/
def lateConfirm : List Action :=
  [.call (.beginAnonSeedEnrollment none), .advance 0, .call (.confirmSeedBackup none),
    .call (.resetAnonSeed none none), .advance 2, .advance 1]

/-- The next root needs no confirmation. -/
theorem lateConfirm_unsound :
    (∃ s, run (step enabledEnv "cann000001") {} lateConfirm = some s ∧
      s.server.findEnrollment "cann000001" = some ⟨⟨"cann000001", 2⟩, none, some 0⟩) ∧
    ∃ s, run (step enabledEnv "cann000001") {}
        (lateConfirm ++ [.call (.beginAnonSeedEnrollment none), .advance 3]) = some s ∧
      stateOf (s.server.findEnrollment "cann000001") = ⟨.active, 2⟩ :=
  ⟨exists_run (by decide +kernel), exists_run (by decide +kernel)⟩

/-- The user has at most five copies, each of them stored when they were active at this epoch. -/
theorem stored_of_run {env : Env} {userId : UserId} {s s' : State} {as : List Action}
    (hs : s.Initial userId) (hok : Along (step env userId) (UpToDate userId) s as)
    (hrun : run (step env userId) s as = some s') :
    (blobsOf userId s'.server).length ≤ maxBlobsPerUser ∧
      ∀ b ∈ blobsOf userId s'.server,
        Happens (step env userId) (Stores userId (s'.server.epochOf userId) b) s as :=
  have hcopies := copies_of_run hs hok hrun
  ⟨hcopies.atMost, hcopies.stored⟩

/-- A root of sixteen zeros, wrapped for a phone. -/
def phoneInput : PutBlobInput := ⟨"phone", ⟨[], [], List.replicate 16 0⟩, 1⟩

def putsBlob : Action := .call (.putSeedBlob none phoneInput)

def putsAfterEnrolling : List Action :=
  enrolls 0 ++ [putsBlob, .advance 2, .advance 2, .advance 2]

theorem putsAfterEnrolling_stored :
    ∃ s, run (step enabledEnv "cann000001") {} putsAfterEnrolling = some s ∧
      blobsOf "cann000001" s.server = [PutBlobInput.blob "cann000001" phoneInput] ∧
      Happens (step enabledEnv "cann000001")
        (Stores "cann000001" 1 (PutBlobInput.blob "cann000001" phoneInput)) {}
        putsAfterEnrolling := by
  refine exists_run_and (by decide +kernel) fun s hrun => ?_
  have hepoch : s.server.epochOf "cann000001" = 1 := of_run (by decide +kernel) hrun
  have hstored := (stored_of_run ⟨rfl, rfl, rfl⟩ (by decide +kernel) hrun).2
  rw [hepoch] at hstored
  exact hstored _ (of_run (by decide +kernel) hrun)

/-- The copy is stored after a reset that has purged the others. -/
def latePut : List Action :=
  enrolls 0 ++ [putsBlob, .advance 2, .advance 2, resets, .advance 3, .advance 2]

theorem latePut_stale : ∃ s, run (step enabledEnv "cann000001") {} latePut = some s ∧
    s.calls = List.replicate 4 .done ∧ (blobsOf "cann000001" s.server).length = 1 ∧
    stateOf (s.server.findEnrollment "cann000001") = ⟨.none, 2⟩ :=
  exists_run (by decide +kernel)

end Minister.SeedCalls
