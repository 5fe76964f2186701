import Minister.SignIn.Otp

/-!
# Lockout and single use of sign-in codes

A code is meant to be compared with at most `OTP_MAX_ATTEMPTS` guesses and to let one guess
in. Both hold for guesses made one after the other. They do not hold for guesses that overlap:
the count is raised after the comparison, so guesses that have all read the row before any of
them counts are all compared; and the deletion after a right guess does not say whether there
still was something to delete, so two right guesses that have both read the row both succeed.

The lockout holds in every run in which no guess reads a code that another guess, not yet
finished, has read. Single use holds in every run in which a right guess still finds the code
it deletes.
-/

namespace Minister.SignIn

open Relational Transition

/-! ### Counting comparisons -/

/-- The wrong guesses at a code. -/
def wrong (judged : List Guess) (codeId : String) : Nat :=
  judged.countP fun g => g.codeId = codeId ∧ g.matched = false

/-- The right guesses at a code. -/
def right (judged : List Guess) (codeId : String) : Nat :=
  judged.countP fun g => g.codeId = codeId ∧ g.matched = true

/-- All guesses at a code. -/
def compared (judged : List Guess) (codeId : String) : Nat :=
  judged.countP fun g => g.codeId = codeId

section Counting

variable {judged : List Guess} {g : Guess} {codeId : String}

theorem compared_eq : compared judged codeId = wrong judged codeId + right judged codeId := by
  induction judged with
  | nil => rfl
  | cons g judged ih =>
    simp only [compared, wrong, right, List.countP_cons] at ih ⊢
    rw [ih]
    by_cases hcode : g.codeId = codeId <;> cases hmatched : g.matched <;> simp [hcode] <;> omega

theorem wrong_append : wrong (judged ++ [g]) codeId =
    wrong judged codeId + if g.codeId = codeId ∧ g.matched = false then 1 else 0 := by
  simp [wrong, List.countP_append, List.countP_cons]

theorem right_append : right (judged ++ [g]) codeId =
    right judged codeId + if g.codeId = codeId ∧ g.matched = true then 1 else 0 := by
  simp [right, List.countP_append, List.countP_cons]

end Counting

/-- Before each right guess there were fewer wrong guesses at the code than the ceiling. -/
def RightInTime (judged : List Guess) : Prop :=
  ∀ before g after, judged = before ++ g :: after → g.matched = true →
    wrong before g.codeId < otpMaxAttempts

theorem RightInTime.append {judged : List Guess} {g : Guess} (h : RightInTime judged)
    (hg : g.matched = true → wrong judged g.codeId < otpMaxAttempts) :
    RightInTime (judged ++ [g]) := by
  intro before g' after hsplit hmatched
  rcases List.eq_nil_or_concat after with rfl | ⟨after, last, rfl⟩
  · obtain ⟨rfl, hlast⟩ := List.append_inj' hsplit rfl
    obtain rfl : g = g' := List.singleton_inj.mp hlast
    exact hg hmatched
  · rw [List.concat_eq_append, ← List.cons_append, ← List.append_assoc] at hsplit
    obtain ⟨hearlier, -⟩ := List.append_inj' hsplit rfl
    exact h before g' after hearlier hmatched

/-! ### Codes and the calls that have read them -/

/-- Stored codes have ids of their own, and a call that has read a code is about its address. -/
structure Known (s : State) : Prop where
  codes : Consistent s.codes
  drawn : ∀ row ∈ s.codes, row.id ∈ s.drawn
  held : ∀ c ∈ s.calls, ∀ codeId, c.busy = some codeId → codeId ∈ s.drawn ∧
    ∀ row ∈ s.codes, row.id = codeId → c.address = some row.identifier

/-- No call is in progress, and the stored codes have not been guessed at. -/
structure State.Initial (s : State) : Prop where
  codes : Consistent s.codes
  drawn : ∀ row ∈ s.codes, row.id ∈ s.drawn
  attempts : ∀ row ∈ s.codes, row.attempts = 0
  mints : s.mints = []
  calls : s.calls = []
  judged : s.judged = []

theorem State.Initial.known {s : State} (h : s.Initial) : Known s where
  codes := h.codes
  drawn := h.drawn
  held := by
    rw [h.calls]
    exact nofun

section Known

variable {env : Env} {s s' : State} {a : Action} {i : Nat} {c c' : VerifyCall}
  {codes : List SignInOtp} {row : SignInOtp} {deleted : List String} {judged : List Guess}
  {identifier codeId : String}

theorem mem_of_latest {pick : Nat} (h : (latest identifier codes)[pick]? = some row) :
    row ∈ codes ∧ row.identifier = identifier := by
  have hmem := (List.mem_filter.mp (List.mem_of_getElem? h)).1
  exact ⟨(mem_findMany.mp hmem).1, of_decide_eq_true (mem_findMany.mp hmem).2⟩

/-- The row of a code is the only one with its id. -/
theorem Known.eq_of_id (hinv : Known s) {row' : SignInOtp} (hrow : row ∈ s.codes)
    (hrow' : row' ∈ s.codes) (hid : row.id = row'.id) : row = row' :=
  hinv.codes.eq_of_clash hrow hrow' (beq_iff_eq.mpr hid)

/-- The time and the mints before their commit do not matter. -/
theorem Known.congr (hinv : Known s) (hcodes : s'.codes = s.codes) (hcalls : s'.calls = s.calls)
    (hdrawn : s'.drawn = s.drawn) : Known s' := by
  obtain ⟨now', codes', mints', calls', judged', drawn'⟩ := s'
  subst hcodes hcalls hdrawn
  exact { hinv with }

theorem mem_minted {r : SignInOtp} (h : r ∈ minted codes deleted row) : r ∈ codes ∨ r = row := by
  rcases List.mem_append.mp h with hold | hnew
  · exact .inl (mem_deleteMany.mp hold).1
  · exact .inr (List.mem_singleton.mp hnew)

/-- No call has read a code that is yet to be stored. -/
theorem Known.commit (hinv : Known s) (hfresh : row.id ∉ s.drawn) :
    Known { s with codes := minted s.codes deleted row, drawn := s.drawn ++ [row.id] } := by
  refine ⟨?_, fun r hr => ?_, fun c hc k hk => ?_⟩
  · refine consistent_append_singleton.mpr ⟨hinv.codes.deleteMany, fun r hr => ?_⟩
    apply beq_false_of_ne
    intro heq
    exact hfresh (heq ▸ hinv.drawn r (mem_deleteMany.mp hr).1)
  · rcases mem_minted hr with hold | rfl
    · exact List.mem_append_left _ (hinv.drawn r hold)
    · exact List.mem_append_right _ (List.mem_singleton.mpr rfl)
  · obtain ⟨hdrawn, haddress⟩ := hinv.held c hc k hk
    refine ⟨List.mem_append_left _ hdrawn, fun r hr hid => ?_⟩
    rcases mem_minted hr with hold | rfl
    · exact haddress r hold hid
    · exact absurd (hid ▸ hdrawn) hfresh

/-- A call moves on with a code it has read before, or with none. -/
theorem Known.moveCall (hinv : Known s) (hcons : Consistent codes)
    (hrows : ∀ row ∈ codes, ∃ row₀ ∈ s.codes, row.id = row₀.id ∧ row.identifier = row₀.identifier)
    (hc : ∀ codeId, c'.busy = some codeId → codeId ∈ s.drawn ∧
      ∀ row ∈ s.codes, row.id = codeId → c'.address = some row.identifier) :
    Known (s.moveCall i c' codes judged) := by
  have hkeep {d : VerifyCall} {k : String}
      (hd : k ∈ s.drawn ∧ ∀ row ∈ s.codes, row.id = k → d.address = some row.identifier) :
      k ∈ s.drawn ∧ ∀ row ∈ codes, row.id = k → d.address = some row.identifier := by
    refine ⟨hd.1, fun row hrow hid => ?_⟩
    obtain ⟨row₀, hrow₀, hid₀, hident⟩ := hrows row hrow
    rw [hident]
    exact hd.2 row₀ hrow₀ (hid₀.symm.trans hid)
  refine ⟨hcons, fun row hrow => ?_, ?_⟩
  · obtain ⟨row₀, hrow₀, hid, -⟩ := hrows row hrow
    exact hid ▸ hinv.drawn row₀ hrow₀
  · exact forall_mem_set (fun d hd k hk => hkeep (hinv.held d hd k hk)) fun k hk => hkeep (hc k hk)

/-- A call that goes on with the code it has read, or is done with it. -/
theorem Known.keep (hinv : Known s) (hcall : s.calls[i]? = some c) (hcons : Consistent codes)
    (hrows : ∀ row ∈ codes, ∃ row₀ ∈ s.codes, row.id = row₀.id ∧ row.identifier = row₀.identifier)
    (hc : c'.busy = none ∨ c'.busy = c.busy ∧ c'.address = c.address) :
    Known (s.moveCall i c' codes judged) := by
  refine hinv.moveCall hcons hrows fun k hk => ?_
  rcases hc with hnone | ⟨hbusy, haddress⟩
  · rw [hnone] at hk
    cases hk
  · rw [haddress]
    exact hinv.held c (List.mem_of_getElem? hcall) k (hbusy ▸ hk)

/-- Counting a miss keeps what identifies a row. -/
theorem exists_of_mem_bumped {codes : List SignInOtp} {codeId : String} {row : SignInOtp}
    (h : row ∈ mapWhere (countsMiss codeId) (fun r => { r with attempts := r.attempts + 1 })
      codes) : ∃ row₀ ∈ codes, row.id = row₀.id ∧ row.identifier = row₀.identifier := by
  obtain ⟨row₀, hrow₀, rfl⟩ := mem_mapWhere.mp h
  exact ⟨row₀, hrow₀, by split_ifs <;> exact ⟨rfl, rfl⟩⟩

theorem Known.step (hinv : Known s) (h : Effect env s a s') : Known s' := by
  have hself : ∀ row ∈ s.codes, ∃ row₀ ∈ s.codes, row.id = row₀.id ∧
      row.identifier = row₀.identifier := fun row hrow => ⟨row, hrow, rfl, rfl⟩
  have hless {p : SignInOtp → Bool} : ∀ row ∈ deleteMany p s.codes, ∃ row₀ ∈ s.codes,
      row.id = row₀.id ∧ row.identifier = row₀.identifier :=
    fun row hrow => hself row (mem_deleteMany.mp hrow).1
  cases h with
  | frame hcodes hcalls hjudged hdrawn => exact hinv.congr hcodes hcalls hdrawn
  | commit deleted row hzero hfresh hcodes hcalls hjudged hdrawn =>
    exact (hinv.commit hfresh).congr hcodes hcalls hdrawn
  | verify identifier submitted =>
    exact ⟨hinv.codes, hinv.drawn, forall_mem_concat hinv.held nofun⟩
  | noCode _ _ _ hcall | mismatch _ _ _ hcall => exact hinv.keep hcall hinv.codes hself (.inl rfl)
  | read i pick haction identifier submitted hcall row hrow =>
    obtain ⟨hmem, hident⟩ := mem_of_latest hrow
    refine hinv.moveCall hinv.codes hself fun k hk => ?_
    obtain rfl : row.id = k := Option.some_inj.mp hk
    refine ⟨hinv.drawn row hmem, fun r hr hid => ?_⟩
    rw [hinv.eq_of_id hr hmem hid, hident]
    rfl
  | expire _ _ _ _ hcall | hit _ _ _ _ hcall | miss _ _ _ _ hcall =>
    exact hinv.keep hcall hinv.codes hself (.inr ⟨rfl, rfl⟩)
  | burn _ _ _ _ hcall | consume _ _ _ _ _ hcall =>
    exact hinv.keep hcall hinv.codes.deleteMany hless (.inl rfl)
  | bump i identifier codeId hcall =>
    refine hinv.keep hcall ?_ (fun row => exists_of_mem_bumped) (.inr ⟨rfl, rfl⟩)
    exact hinv.codes.mapWhere_of_clash _ fun _ _ => rfl
  | lockOut i identifier codeId c hcall hc =>
    refine hinv.keep hcall hinv.codes hself (.inr ?_)
    rcases hc with rfl | rfl <;> exact ⟨rfl, rfl⟩

/-- A deletion for the address of a call leaves nothing of the code that it has read. -/
theorem Known.ne_of_deleted (hinv : Known s) (hcall : s.calls[i]? = some c)
    (hbusy : c.busy = some codeId) (haddress : c.address = some identifier)
    (hrow : row ∈ deleteMany (fun r => r.identifier = identifier) s.codes) : row.id ≠ codeId := by
  intro hid
  obtain ⟨hstored, hkept⟩ := mem_deleteMany.mp hrow
  have hsame := (hinv.held c (List.mem_of_getElem? hcall) codeId hbusy).2 row hstored hid
  exact of_decide_eq_false hkept (Option.some_inj.mp (hsame.symm.trans haddress))

end Known

/-! ### Guesses that do not overlap -/

/-- The code that a step reads. -/
def State.reads (s : State) : Action → Option String
  | .advance i pick =>
    match s.calls[i]? with
    | some (.reading identifier _) => ((latest identifier s.codes)[pick]?).map (·.id)
    | _ => none
  | _ => none

/-- A guess reads no code that another guess has read and is not done with. -/
def ReadsAlone (s : State) (a : Action) : Prop :=
  ∀ codeId ∈ s.reads a, codeId ∉ s.calls.filterMap VerifyCall.busy

instance (s : State) (a : Action) : Decidable (ReadsAlone s a) :=
  inferInstanceAs (Decidable (∀ codeId ∈ s.reads a, _))

/-- What a guess that has read a code knows of the record. -/
def CallOk (judged : List Guess) : VerifyCall → Prop
  | .judging _ _ row => wrong judged row.id < otpMaxAttempts ∧ right judged row.id = 0
  | .bumping _ codeId => right judged codeId = 0
  | .rereading _ codeId => right judged codeId = 0
  | _ => True

/-- The count of a stored code while a guess that has read it is not done. -/
def Pending (judged : List Guess) (row : SignInOtp) : VerifyCall → Prop
  | .judging _ _ _ => wrong judged row.id = row.attempts
  | .bumping _ _ => wrong judged row.id = row.attempts + 1
  | .rereading _ _ => wrong judged row.id = row.attempts
  | _ => True

/-- The count of a stored code that no guess is busy with. -/
def Idle (judged : List Guess) (row : SignInOtp) : Prop :=
  wrong judged row.id = row.attempts ∧ row.attempts < otpMaxAttempts ∧ right judged row.id = 0

/-- The stored counts are what the record says. -/
structure Counted (s : State) : Prop where
  busy : (s.calls.filterMap VerifyCall.busy).Nodup
  calls : ∀ c ∈ s.calls, CallOk s.judged c
  pending : ∀ row ∈ s.codes, ∀ c ∈ s.calls, c.busy = some row.id → Pending s.judged row c
  idle : ∀ row ∈ s.codes, row.id ∉ s.calls.filterMap VerifyCall.busy → Idle s.judged row
  total : ∀ codeId, wrong s.judged codeId + right s.judged codeId ≤ otpMaxAttempts
  unseen : ∀ codeId ∉ s.drawn, wrong s.judged codeId = 0 ∧ right s.judged codeId = 0
  inTime : RightInTime s.judged

theorem State.Initial.counted {s : State} (h : s.Initial) : Counted s := by
  obtain ⟨now, codes, mints, calls, judged, drawn⟩ := s
  obtain ⟨-, -, hattempts, -, rfl, rfl⟩ := h
  refine ⟨List.nodup_nil, nofun, fun _ _ => nofun, fun row hrow _ => ?_, fun _ => Nat.zero_le _,
    fun _ _ => ⟨rfl, rfl⟩, fun before g after hsplit => ?_⟩
  · rw [Idle, hattempts row hrow]
    exact ⟨rfl, by decide, rfl⟩
  · simp at hsplit

section Steps

variable {env : Env} {s s' : State} {a : Action} {i : Nat} {c c' : VerifyCall} {row : SignInOtp}
  {identifier submitted codeId : String}

variable (hinv : Counted s)

include hinv

/-- The time and the mints before their commit are not counted. -/
theorem Counted.congr (hcodes : s'.codes = s.codes) (hcalls : s'.calls = s.calls)
    (hjudged : s'.judged = s.judged) (hdrawn : s'.drawn = s.drawn) : Counted s' := by
  obtain ⟨now', codes', mints', calls', judged', drawn'⟩ := s'
  subst hcodes hcalls hjudged hdrawn
  exact { hinv with }

/-- A new code has not been guessed at. -/
theorem Counted.commit (hknown : Known s) {deleted : List String} (hzero : row.attempts = 0)
    (hfresh : row.id ∉ s.drawn) :
    Counted { s with codes := minted s.codes deleted row, drawn := s.drawn ++ [row.id] } := by
  refine { hinv with
    pending := fun r hr c hc hbusy => ?_
    idle := fun r hr hfree => ?_
    unseen := fun k hk => hinv.unseen k fun hdrawn => hk (List.mem_append_left _ hdrawn) }
  · rcases mem_minted hr with hold | rfl
    · exact hinv.pending r hold c hc hbusy
    · exact absurd (hknown.held c hc r.id hbusy).1 hfresh
  · rcases mem_minted hr with hold | rfl
    · exact hinv.idle r hold hfree
    · obtain ⟨hwrong, hright⟩ := hinv.unseen r.id hfresh
      exact ⟨hwrong.trans hzero.symm, hzero ▸ (by decide), hright⟩

/-- A new call has read nothing. -/
theorem Counted.verify {identifier submitted : String} :
    Counted { s with calls := s.calls ++ [.reading identifier submitted] } := by
  have hsame : (s.calls ++ [VerifyCall.reading identifier submitted]).filterMap VerifyCall.busy =
      s.calls.filterMap VerifyCall.busy := by
    rw [List.filterMap_append, List.filterMap_cons_none rfl, List.filterMap_nil, List.append_nil]
  exact { hinv with
    busy := hsame.symm ▸ hinv.busy
    calls := forall_mem_concat hinv.calls trivial
    pending := fun row hrow => forall_mem_concat (hinv.pending row hrow) nofun
    idle := fun row hrow hfree => hinv.idle row hrow (hsame ▸ hfree) }

/-- A call that reads a code which no other call is busy with. -/
theorem Counted.read (hknown : Known s)
    (hcall : s.calls[i]? = some (.reading identifier submitted)) (hrow : row ∈ s.codes)
    (halone : row.id ∉ s.calls.filterMap VerifyCall.busy) :
    Counted (s.moveCall i (.judging identifier submitted row) s.codes s.judged) := by
  have hperm := perm_filterMap_set_take (f := VerifyCall.busy)
    (b := .judging identifier submitted row) hcall rfl rfl
  obtain ⟨hcount, hbelow, hnone⟩ := hinv.idle row hrow halone
  refine { hinv with
    busy := hperm.nodup_iff.mpr (List.nodup_cons.mpr ⟨halone, hinv.busy⟩)
    calls := forall_mem_set hinv.calls ⟨hcount ▸ hbelow, hnone⟩
    pending := fun r hr => forall_mem_set (hinv.pending r hr) fun hbusy => ?_
    idle := fun r hr hfree => hinv.idle r hr fun hheld =>
      hfree (hperm.mem_iff.mpr (List.mem_cons_of_mem _ hheld)) }
  obtain rfl := hknown.eq_of_id hrow hr (Option.some_inj.mp hbusy)
  exact hcount

/-- A call that goes on with the code it is busy with. -/
theorem Counted.continue (hcall : s.calls[i]? = some c) (hbusy : c'.busy = c.busy)
    (hok : CallOk s.judged c') (hpending : ∀ row ∈ s.codes, Pending s.judged row c') :
    Counted (s.moveCall i c' s.codes s.judged) := by
  have hsame := filterMap_set_eq (f := VerifyCall.busy) hcall hbusy
  refine { hinv with
    busy := ?_
    calls := forall_mem_set hinv.calls hok
    pending := fun row hrow => forall_mem_set (hinv.pending row hrow) fun _ => hpending row hrow
    idle := fun row hrow hfree => ?_ }
  · rw [State.moveCall, hsame]
    exact hinv.busy
  · rw [State.moveCall, hsame] at hfree
    exact hinv.idle row hrow hfree

/-- A call that is done with a code: what is left of the code has the right count. -/
theorem Counted.finish {codes : List SignInOtp} (hcall : s.calls[i]? = some c)
    (hdone : c'.busy = none) (hok : CallOk s.judged c') (hsub : ∀ row ∈ codes, row ∈ s.codes)
    (hleft : ∀ row ∈ codes, c.busy = some row.id → Idle s.judged row) :
    Counted (s.moveCall i c' codes s.judged) := by
  have hbusy := filterMap_set_sublist (f := VerifyCall.busy) hcall (.inr hdone)
  refine { hinv with
    busy := hinv.busy.sublist hbusy
    calls := forall_mem_set hinv.calls hok
    pending := fun row hrow => forall_mem_set (hinv.pending row (hsub row hrow)) fun hc => ?_
    idle := fun row hrow hfree => ?_ }
  · rw [hdone] at hc
    cases hc
  · by_cases hown : c.busy = some row.id
    · exact hleft row hrow hown
    · refine hinv.idle row (hsub row hrow) fun hheld => hfree ?_
      -- another call is busy with it, and still is
      obtain ⟨d, hd, hdbusy⟩ := List.mem_filterMap.mp hheld
      rcases mem_set_of_mem (b := c') hcall hd with hstays | rfl
      · exact List.mem_filterMap.mpr ⟨d, hstays, hdbusy⟩
      · exact absurd hdbusy hown

/-- A call that compares its guess with the code it has read. -/
theorem Counted.judge (hknown : Known s) {matched : Bool} (hcall : s.calls[i]? = some c)
    (hc : c.busy = some codeId) (hbusy : c'.busy = some codeId)
    (hroom : wrong s.judged codeId < otpMaxAttempts) (hnone : right s.judged codeId = 0)
    (hok : CallOk (s.judged ++ [⟨i, codeId, matched⟩]) c')
    (hpending : ∀ row ∈ s.codes, row.id = codeId →
      Pending (s.judged ++ [⟨i, codeId, matched⟩]) row c') :
    Counted (s.moveCall i c' s.codes (s.judged ++ [⟨i, codeId, matched⟩])) := by
  have hsame := filterMap_set_eq (f := VerifyCall.busy) (b := c') hcall (hbusy.trans hc.symm)
  have hmem := List.mem_of_getElem? hcall
  -- the counts of other codes are what they were
  have hwrong {k : String} (hk : codeId ≠ k) :
      wrong (s.judged ++ [⟨i, codeId, matched⟩]) k = wrong s.judged k := by
    rw [wrong_append, if_neg fun h => hk h.1, Nat.add_zero]
  have hright {k : String} (hk : codeId ≠ k) :
      right (s.judged ++ [⟨i, codeId, matched⟩]) k = right s.judged k := by
    rw [right_append, if_neg fun h => hk h.1, Nat.add_zero]
  refine { hinv with
    busy := ?_
    calls := ?_
    pending := fun row hrow => ?_
    idle := fun row hrow hfree => ?_
    total := fun k => ?_
    unseen := fun k hk => ?_
    inTime := hinv.inTime.append fun _ => hroom }
  · rw [State.moveCall, hsame]
    exact hinv.busy
  · refine forall_mem_set_of_nodup hcall hinv.busy (fun d hd hother => ?_) hok
    have hd' := hinv.calls d hd
    have hne {k : String} (hk : d.busy = some k) : codeId ≠ k := by
      rintro rfl
      exact hother codeId hk hc
    cases d with
    | judging identifier submitted row =>
      exact ⟨(hwrong (hne rfl)).symm ▸ hd'.1, (hright (hne rfl)).trans hd'.2⟩
    | bumping | rereading => exact (hright (hne rfl)).trans hd'
    | _ => trivial
  · refine forall_mem_set_of_nodup hcall hinv.busy (fun d hd hother hdbusy => ?_) fun hc' => ?_
    · have hne : codeId ≠ row.id := by
        intro heq
        exact hother row.id hdbusy (hc.trans (congrArg some heq))
      have hd' := hinv.pending row hrow d hd hdbusy
      cases d with
      | judging | bumping | rereading => exact (hwrong hne).trans hd'
      | _ => trivial
    · exact hpending row hrow (Option.some_inj.mp (hc'.symm.trans hbusy))
  · rw [State.moveCall, hsame] at hfree
    have hne : codeId ≠ row.id := by
      intro heq
      exact hfree (List.mem_filterMap.mpr ⟨c, hmem, hc.trans (congrArg some heq)⟩)
    obtain ⟨hcount, hbelow, hzero⟩ := hinv.idle row hrow hfree
    exact ⟨(hwrong hne).trans hcount, hbelow, (hright hne).trans hzero⟩
  · by_cases hk : codeId = k
    · subst hk
      simp only [State.moveCall, wrong_append, right_append, true_and, hnone]
      cases matched <;> simp <;> omega
    · simp only [State.moveCall, hwrong hk, hright hk]
      exact hinv.total k
  · have hne : codeId ≠ k := by
      rintro rfl
      exact hk (hknown.held c hmem codeId hc).1
    simp only [State.moveCall, hwrong hne, hright hne]
    exact hinv.unseen k hk

/-- The count goes up by the miss that was recorded already. -/
theorem Counted.bump {identifier codeId : String}
    (hcall : s.calls[i]? = some (.bumping identifier codeId)) :
    Counted (s.moveCall i (.rereading identifier codeId)
      (mapWhere (countsMiss codeId) (fun r => { r with attempts := r.attempts + 1 }) s.codes)
      s.judged) := by
  have hmem := List.mem_of_getElem? hcall
  have hsame := filterMap_set_eq (f := VerifyCall.busy) (b := .rereading identifier codeId) hcall
    rfl
  have hheld : codeId ∈ s.calls.filterMap VerifyCall.busy :=
    List.mem_filterMap.mpr ⟨_, hmem, rfl⟩
  -- a row of another code is as it was
  have hother {r : SignInOtp} (hne : r.id ≠ codeId) :
      (if countsMiss codeId r then { r with attempts := r.attempts + 1 } else r) = r :=
    if_neg fun h => hne (of_decide_eq_true h).1
  refine { hinv with
    busy := ?_
    calls := forall_mem_set hinv.calls (hinv.calls (.bumping identifier codeId) hmem)
    pending := fun r hr => ?_
    idle := fun r hr hfree => ?_ }
  · rw [State.moveCall, hsame]
    exact hinv.busy
  · obtain ⟨r₀, hr₀, rfl⟩ := mem_mapWhere.mp hr
    by_cases hid : r₀.id = codeId
    · -- the call is the only one that is busy with this code
      have hcount : wrong s.judged r₀.id = r₀.attempts + 1 :=
        hinv.pending r₀ hr₀ _ hmem (congrArg some hid.symm)
      have hbelow : r₀.attempts < otpMaxAttempts := by
        have htotal := hinv.total r₀.id
        omega
      have hcounts : countsMiss codeId r₀ = true := decide_eq_true ⟨hid, hbelow⟩
      rw [if_pos hcounts]
      refine forall_mem_set_of_nodup hcall hinv.busy (fun d hd hdother hdbusy => ?_) fun _ => ?_
      · exact absurd (congrArg some hid.symm) (hdother r₀.id hdbusy)
      · exact hcount
    · rw [hother hid]
      refine forall_mem_set (hinv.pending r₀ hr₀) fun hbusy => ?_
      exact absurd (Option.some_inj.mp hbusy).symm hid
  · obtain ⟨r₀, hr₀, rfl⟩ := mem_mapWhere.mp hr
    rw [State.moveCall, hsame] at hfree
    have hne : r₀.id ≠ codeId := by
      rintro rfl
      split_ifs at hfree <;> exact hfree hheld
    rw [hother hne] at hfree ⊢
    exact hinv.idle r₀ hr₀ hfree

/-- **The stored count is the number of wrong guesses**, as long as no two guesses are busy
with one code. -/
theorem Counted.step (hknown : Known s) (h : Effect env s a s') (hok : ReadsAlone s a) :
    Counted s' := by
  cases h with
  | frame hcodes hcalls hjudged hdrawn => exact hinv.congr hcodes hcalls hjudged hdrawn
  | commit deleted row hzero hfresh hcodes hcalls hjudged hdrawn =>
    exact (hinv.commit hknown hzero hfresh).congr hcodes hcalls hjudged hdrawn
  | verify identifier submitted => exact hinv.verify
  | noCode i identifier submitted hcall =>
    exact hinv.finish hcall rfl trivial (fun _ => id) nofun
  | read i pick haction identifier submitted hcall row hrow =>
    refine hinv.read hknown hcall (mem_of_latest hrow).1 (hok row.id ?_)
    simp [haction, State.reads, hcall, hrow]
  | expire i identifier submitted row hcall =>
    exact hinv.continue hcall rfl trivial fun _ _ => trivial
  | hit i identifier submitted row hcall =>
    obtain ⟨hroom, hnone⟩ := hinv.calls _ (List.mem_of_getElem? hcall)
    exact hinv.judge hknown hcall rfl rfl hroom hnone trivial fun _ _ _ => trivial
  | miss i identifier submitted row hcall =>
    obtain ⟨hroom, hnone⟩ := hinv.calls _ (List.mem_of_getElem? hcall)
    refine hinv.judge hknown hcall rfl rfl hroom hnone ?_ fun row' hrow' hid => ?_
    · rw [CallOk, right_append, hnone]
      simp
    · have hcount : wrong s.judged row'.id = row'.attempts :=
        hinv.pending row' hrow' _ (List.mem_of_getElem? hcall) (congrArg some hid.symm)
      rw [Pending, wrong_append, if_pos ⟨hid.symm, rfl⟩, hcount]
  | burn i identifier codeId reason hcall | consume i pick haction identifier codeId hcall =>
    refine hinv.finish hcall rfl trivial (fun _ hrow => (mem_deleteMany.mp hrow).1) ?_
    intro row hrow hbusy
    exact absurd rfl (hknown.ne_of_deleted hcall hbusy rfl hrow)
  | bump i identifier codeId hcall => exact hinv.bump hcall
  | lockOut i identifier codeId c hcall hc =>
    refine hinv.continue hcall ?_ trivial fun _ _ => trivial
    rcases hc with rfl | rfl <;> rfl
  | mismatch i identifier codeId hcall after hafter hid hbelow =>
    have hmem := List.mem_of_getElem? hcall
    refine hinv.finish hcall rfl trivial (fun _ => id) fun row hrow hbusy => ?_
    obtain rfl : after = row :=
      hknown.eq_of_id hafter hrow (hid.trans (Option.some_inj.mp hbusy))
    refine ⟨hinv.pending after hrow _ hmem hbusy, hbelow, ?_⟩
    rw [hid]
    exact hinv.calls _ hmem

end Steps

/-! ### Calls that succeed -/

/-- The code for which a call has found its guess to be right. -/
def VerifyCall.accepts : VerifyCall → Option String
  | .consuming _ codeId => some codeId
  | .succeeded codeId => some codeId
  | _ => none

/-- The code for which a call has returned `ok`. -/
def VerifyCall.success : VerifyCall → Option String
  | .succeeded codeId => some codeId
  | _ => none

/-- A call that accepts a guess has compared it. -/
def Recorded (s : State) : Prop :=
  ∀ i c, s.calls[i]? = some c → ∀ codeId, c.accepts = some codeId →
    ⟨i, codeId, true⟩ ∈ s.judged

/-- The code that a step deletes because the guess was right. -/
def State.consumes (s : State) : Action → Option String
  | .advance i _ =>
    match s.calls[i]? with
    | some (.consuming _ codeId) => some codeId
    | _ => none
  | _ => none

/-- A right guess that deletes its code finds the code stored. -/
def FindsCode (s : State) (a : Action) : Prop :=
  ∀ codeId ∈ s.consumes a, ∃ row ∈ s.codes, row.id = codeId

instance (s : State) (a : Action) : Decidable (FindsCode s a) :=
  inferInstanceAs (Decidable (∀ codeId ∈ s.consumes a, _))

/-- No two calls have returned `ok` for one code, and such a code is gone for good. -/
structure Spent (s : State) : Prop where
  once : (s.calls.filterMap VerifyCall.success).Nodup
  gone : ∀ codeId ∈ s.calls.filterMap VerifyCall.success,
    codeId ∈ s.drawn ∧ ∀ row ∈ s.codes, row.id ≠ codeId

section Success

variable {env : Env} {s s' : State} {a : Action} {i : Nat} {c c' : VerifyCall}
  {codes : List SignInOtp} {judged : List Guess}

theorem Recorded.moveCall (hinv : Recorded s) (hgrows : ∀ g ∈ s.judged, g ∈ judged)
    (hc : ∀ codeId, c'.accepts = some codeId → ⟨i, codeId, true⟩ ∈ judged) :
    Recorded (s.moveCall i c' codes judged) :=
  forall_getElem?_set (fun j d hd k hk => hgrows _ (hinv j d hd k hk)) hc

theorem Recorded.step (h : Effect env s a s') (hinv : Recorded s) : Recorded s' := by
  have hself : ∀ g ∈ s.judged, g ∈ s.judged := fun _ hg => hg
  cases h with
  | frame _ hcalls hjudged | commit _ _ _ _ _ hcalls hjudged =>
    unfold Recorded
    rw [hcalls, hjudged]
    exact hinv
  | verify identifier submitted => exact forall_getElem?_append hinv nofun
  | hit i identifier submitted row hcall =>
    refine hinv.moveCall (fun g hg => List.mem_append_left _ hg) fun k hk => ?_
    obtain rfl : row.id = k := Option.some_inj.mp hk
    exact List.mem_append_right _ (List.mem_singleton.mpr rfl)
  | miss i identifier submitted row hcall =>
    exact hinv.moveCall (fun g hg => List.mem_append_left _ hg) nofun
  | consume i pick haction identifier codeId hcall =>
    exact hinv.moveCall hself fun k hk => hinv i _ hcall k hk
  | _ => exact hinv.moveCall hself nofun

/-- Steps that let nobody in. -/
theorem Spent.of_sublist (hinv : Spent s)
    (hcalls : (s'.calls.filterMap VerifyCall.success).Sublist
      (s.calls.filterMap VerifyCall.success))
    (hdrawn : ∀ k ∈ s.drawn, k ∈ s'.drawn)
    (hcodes : ∀ row ∈ s'.codes, row.id ∈ s.drawn → ∃ row₀ ∈ s.codes, row₀.id = row.id) :
    Spent s' := by
  refine ⟨hinv.once.sublist hcalls, fun k hk => ?_⟩
  obtain ⟨hkdrawn, hgone⟩ := hinv.gone k (hcalls.subset hk)
  refine ⟨hdrawn k hkdrawn, fun row hrow hid => ?_⟩
  obtain ⟨row₀, hrow₀, hid₀⟩ := hcodes row hrow (hid ▸ hkdrawn)
  exact hgone row₀ hrow₀ (hid₀.trans hid)

theorem Spent.moveCall (hinv : Spent s) (hcall : s.calls[i]? = some c) (hc : c'.success = none)
    (hcodes : ∀ row ∈ codes, ∃ row₀ ∈ s.codes, row₀.id = row.id) :
    Spent (s.moveCall i c' codes judged) :=
  hinv.of_sublist (filterMap_set_sublist hcall (.inr hc)) (fun _ => id)
    fun row hrow _ => hcodes row hrow

/-- **A code lets one guess in**, as long as a right guess still finds it. -/
theorem Spent.step (hknown : Known s) (h : Effect env s a s') (hok : FindsCode s a)
    (hinv : Spent s) : Spent s' := by
  have hself : ∀ row ∈ s.codes, ∃ row₀ ∈ s.codes, row₀.id = row.id :=
    fun row hrow => ⟨row, hrow, rfl⟩
  cases h with
  | frame hcodes hcalls hjudged hdrawn =>
    refine hinv.of_sublist ?_ ?_ ?_
    · rw [hcalls]
    · rw [hdrawn]
      exact fun _ => id
    · rw [hcodes]
      exact fun row hrow _ => hself row hrow
  | commit deleted row hzero hfresh hcodes hcalls hjudged hdrawn =>
    refine hinv.of_sublist ?_ ?_ ?_
    · rw [hcalls]
    · rw [hdrawn]
      exact fun k hk => List.mem_append_left _ hk
    · rw [hcodes]
      intro r hr hold
      rcases mem_minted hr with hmem | rfl
      · exact hself r hmem
      · exact absurd hold hfresh
  | verify identifier submitted =>
    refine hinv.of_sublist ?_ (fun _ => id) fun row hrow _ => hself row hrow
    rw [List.filterMap_append, List.filterMap_cons_none rfl, List.filterMap_nil, List.append_nil]
  | burn i identifier codeId reason hcall =>
    exact hinv.moveCall hcall rfl fun row hrow => hself row (mem_deleteMany.mp hrow).1
  | bump i identifier codeId hcall =>
    refine hinv.moveCall hcall rfl fun row hrow => ?_
    obtain ⟨row₀, hrow₀, hid, -⟩ := exists_of_mem_bumped hrow
    exact ⟨row₀, hrow₀, hid.symm⟩
  | consume i pick haction identifier codeId hcall =>
    -- the code is stored, so nobody was let in for it before
    obtain ⟨row, hrow, hid⟩ := hok codeId (by simp [haction, State.consumes, hcall])
    have hfree : codeId ∉ s.calls.filterMap VerifyCall.success :=
      fun hspent => (hinv.gone codeId hspent).2 row hrow hid
    have hperm := perm_filterMap_set_take (f := VerifyCall.success) (b := .succeeded codeId) hcall
      rfl rfl
    refine ⟨hperm.nodup_iff.mpr (List.nodup_cons.mpr ⟨hfree, hinv.once⟩), fun k hk => ?_⟩
    rcases List.mem_cons.mp (hperm.mem_iff.mp hk) with rfl | hold
    · exact ⟨(hknown.held _ (List.mem_of_getElem? hcall) k rfl).1,
        fun r hr => hknown.ne_of_deleted hcall rfl rfl hr⟩
    · obtain ⟨hdrawn, hgone⟩ := hinv.gone k hold
      exact ⟨hdrawn, fun r hr => hgone r (mem_deleteMany.mp hr).1⟩
  | noCode _ _ _ hcall | read _ _ _ _ _ hcall | expire _ _ _ _ hcall | hit _ _ _ _ hcall
  | miss _ _ _ _ hcall | lockOut _ _ _ _ hcall | mismatch _ _ _ hcall =>
    exact hinv.moveCall hcall rfl hself

theorem State.Initial.spent (h : s.Initial) : Spent s := by
  constructor <;> rw [h.calls]
  · exact List.nodup_nil
  · exact nofun

end Success

/-! ### Every run -/

/-- **Lockout.** In every run in which no guess reads a code that another unfinished guess has
read: when a call returns `ok` for a code, fewer wrong guesses than the ceiling had been
compared with the code before its own; and no code is ever compared with more guesses than the
ceiling. -/
theorem lockout_of_run {env : Env} {s₀ s : State} {as : List Action} (h₀ : s₀.Initial)
    (halone : Along (step env) ReadsAlone s₀ as) (hrun : run (step env) s₀ as = some s) :
    (∀ i codeId, s.calls[i]? = some (.succeeded codeId) →
      ∃ before after, s.judged = before ++ ⟨i, codeId, true⟩ :: after ∧
        wrong before codeId < otpMaxAttempts) ∧
    ∀ codeId, compared s.judged codeId ≤ otpMaxAttempts := by
  obtain ⟨-, hcounted⟩ : Known s ∧ Counted s := by
    refine run_invariant (fun s => Known s ∧ Counted s) ?_ ⟨h₀.known, h₀.counted⟩ halone hrun
    intro s a s' ⟨hknown, hinv⟩ hok hstep
    exact ⟨hknown.step (effect_of_step hstep), hinv.step hknown (effect_of_step hstep) hok⟩
  have hrecorded : Recorded s := by
    refine run_invariant_always Recorded (fun _ _ _ hinv hstep => hinv.step (effect_of_step hstep))
      ?_ hrun
    intro i c hc
    rw [h₀.calls] at hc
    cases hc
  constructor
  · intro i codeId hcall
    obtain ⟨before, after, hsplit⟩ := List.append_of_mem (hrecorded i _ hcall codeId rfl)
    exact ⟨before, after, hsplit, hcounted.inTime before _ after hsplit rfl⟩
  · intro codeId
    rw [compared_eq]
    exact hcounted.total codeId

/-- **Single use.** In every run in which a right guess that deletes its code finds the code
stored, no two calls return `ok` for one code. -/
theorem single_use_of_run {env : Env} {s₀ s : State} {as : List Action} (h₀ : s₀.Initial)
    (hfinds : Along (step env) FindsCode s₀ as) (hrun : run (step env) s₀ as = some s) :
    ∀ (i j : Nat) (codeId : String), s.calls[i]? = some (.succeeded codeId) →
      s.calls[j]? = some (.succeeded codeId) → i = j := by
  obtain ⟨-, hspent⟩ : Known s ∧ Spent s := by
    refine run_invariant (fun s => Known s ∧ Spent s) ?_ ⟨h₀.known, h₀.spent⟩ hfinds hrun
    intro s a s' ⟨hknown, hinv⟩ hok hstep
    exact ⟨hknown.step (effect_of_step hstep), hinv.step hknown (effect_of_step hstep) hok⟩
  intro i j codeId hi hj
  exact eq_of_nodup_filterMap hspent.once hi hj rfl rfl

section Races

/-- A hash to evaluate runs with. -/
def plainEnv : Env := ⟨id⟩

theorem initial_empty : State.Initial {} where
  codes := .nil
  drawn := nofun
  attempts := nofun
  mints := rfl
  calls := rfl
  judged := rfl

/-- The code `22222222` is stored for an address. -/
def mintCode : List Action :=
  [.mint "ann@mail.example" fun _ => ⟨0, by decide⟩, .mintDelete 0, .mintCommit 0 "code"]

/-- Two guesses, the second one right, that do not overlap. -/
def missThenHit : List Action :=
  mintCode ++ [.verify "ann@mail.example" "33333333", .advance 0 0, .advance 0 0, .advance 0 0,
    .advance 0 0, .verify "ann@mail.example" "2222-2222", .advance 1 0, .advance 1 0, .advance 1 0]

theorem missThenHit_locked :
    ∃ s, run (step plainEnv) {} missThenHit = some s ∧
      s.calls = [.refused .mismatch, .succeeded "code"] ∧
      (∀ i codeId, s.calls[i]? = some (.succeeded codeId) →
        ∃ before after, s.judged = before ++ ⟨i, codeId, true⟩ :: after ∧
          wrong before codeId < otpMaxAttempts) ∧
      ∀ codeId, compared s.judged codeId ≤ otpMaxAttempts := by
  exact exists_run_and (by decide +kernel) fun s hrun =>
    lockout_of_run initial_empty (by decide +kernel) hrun

theorem missThenHit_single :
    ∃ s, run (step plainEnv) {} missThenHit = some s ∧
      s.calls = [.refused .mismatch, .succeeded "code"] ∧
      ∀ (i j : Nat) (codeId : String), s.calls[i]? = some (.succeeded codeId) →
        s.calls[j]? = some (.succeeded codeId) → i = j := by
  exact exists_run_and (by decide +kernel) fun s hrun =>
    single_use_of_run initial_empty (by decide +kernel) hrun

/-- Five wrong guesses and a right one that all read the row before any is counted. -/
def sixGuesses : List Action :=
  mintCode ++ List.replicate 5 (.verify "ann@mail.example" "33333333") ++
    [.verify "ann@mail.example" "22222222"] ++ (List.range 6).map (.advance · 0) ++
    (List.range 6).map (.advance · 0) ++ [.advance 5 0]

/-- The right guess succeeds after five wrong ones were compared with the code. -/
theorem sixGuesses_compared :
    State.Initial {} ∧ ∃ s, run (step plainEnv) {} sixGuesses = some s ∧
      s.calls[5]? = some (.succeeded "code") ∧
      (∃ before, s.judged = before ++ [⟨5, "code", true⟩] ∧
        wrong before "code" = otpMaxAttempts) ∧
      compared s.judged "code" = otpMaxAttempts + 1 := by
  refine ⟨initial_empty, _, rfl, by decide +kernel, ?_, by decide +kernel⟩
  exact ⟨(List.range 5).map fun i => ⟨i, "code", false⟩, by decide +kernel, by decide +kernel⟩

/-- Two right guesses that both read the row before either deletes it. -/
def twoGuesses : List Action :=
  mintCode ++ [.verify "ann@mail.example" "22222222", .verify "ann@mail.example" "22222222",
    .advance 0 0, .advance 1 0, .advance 0 0, .advance 1 0, .advance 0 0, .advance 1 0]

/-- Both succeed. -/
theorem twoGuesses_succeed :
    State.Initial {} ∧ ∃ s, run (step plainEnv) {} twoGuesses = some s ∧
      s.calls[0]? = some (.succeeded "code") ∧ s.calls[1]? = some (.succeeded "code") := by
  exact ⟨initial_empty, _, rfl, by decide +kernel, by decide +kernel⟩

end Races

end Minister.SignIn
