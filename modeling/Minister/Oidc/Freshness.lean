import Minister.Vc.IssueBadge

/-!
# Freshness at consent and at the relying party

A policy may ask for a badge that is no older than some days. Consent takes the age from the row: it
counts from the start of the month of `Badge.issuedAt`. A relying party takes it from the
credential: from the start of the month in `issuanceMonth`, which `reMintVc` derives from the `iat`
of the stored credential. `issueBadge` reads the clock for the one when it creates the row, and for
the other when it signs, later in the same transaction. At the turn of a month they differ.

Two more differences are in the years: a year from 0 to 99 is one of the twentieth century to
`Date.UTC`, and a year that has not four digits leaves no month in the credential.
-/

namespace Minister.Freshness

open Codec Relational Vc Oidc
open Policy (BadgeLeaf UserBadge badgeSatisfiesLeaf)

/-! ### The start of a month -/

/-- The month is one of a year with four digits, and this is the first second of it. -/
def IsFirstInstant (month : String) (start : Int) : Prop :=
  ∃ m : YearMonth, FourDigits m.year ∧ month = String.ofList (isoMonth m) ∧
    IsLeast {ms : Timestamp | monthOfMs ms = m} (start * 1000)

theorem isLeast_firstDay {m : YearMonth} (hlow : 1 ≤ m.month) (hhigh : m.month ≤ 12) :
    IsLeast {ms : Timestamp | monthOfMs ms = m} (firstDay m * 86400 * 1000) := by
  constructor
  · have hday : firstDay m * 86400 * 1000 / 86400000 = firstDay m := by omega
    have hmonth : yearMonth (firstDay m * 86400 * 1000 / 86400000) = m := by
      rw [hday]
      exact yearMonth_firstDay hlow hhigh
    exact hmonth
  · rintro ms rfl
    have hle : firstDay (monthOfMs ms) ≤ ms / 86400000 := firstDay_yearMonth_le (ms / 86400000)
    have hms : firstDay (monthOfMs ms) * 86400 * 1000 ≤ (ms : Int) := by omega
    exact hms

theorem monthOfMs_bounds (ms : Timestamp) :
    1 ≤ (monthOfMs ms).month ∧ (monthOfMs ms).month ≤ 12 :=
  yearMonth_month_bounds _

/-- The month that is cut out of `toISOString` has a first instant if its year has four digits. -/
theorem isFirstInstant_take_iff {ms : Timestamp} {start : Int} :
    IsFirstInstant (String.ofList ((isoMonth (monthOfMs ms)).take 7)) start ↔
      FourDigits (monthOfMs ms).year ∧ start = firstDay (monthOfMs ms) * 86400 := by
  have hbounds := monthOfMs_bounds ms
  constructor
  · rintro ⟨m, hdigits, htext, hleast⟩
    have hmonth : m.month < 100 := hleast.1 ▸ month_lt (start * 1000)
    obtain ⟨rfl, -⟩ := (take_isoMonth_eq_iff (month_lt ms) hmonth).mp (String.ofList_inj.mp htext)
    have hstart : start * 1000 = firstDay (monthOfMs ms) * 86400 * 1000 :=
      hleast.unique (isLeast_firstDay hbounds.1 hbounds.2)
    exact ⟨hdigits, by omega⟩
  · rintro ⟨hdigits, rfl⟩
    exact ⟨monthOfMs ms, hdigits, by rw [take_isoMonth_of_fourDigits hdigits],
      isLeast_firstDay hbounds.1 hbounds.2⟩

/-! ### Decisions -/

/-- The month of a disclosed credential has a first instant, and every leaf is decided alike with
the age from there and with the age that consent takes. -/
def SameDecisions (row : BadgeRow) (c : Credential) : Prop :=
  ∃ month start, c.payload.keys? ["vc", "credentialSubject", "issuanceMonth"] = some (.str month) ∧
    IsFirstInstant month start ∧ ∀ (leaf : BadgeLeaf) (now : ℚ),
      badgeSatisfiesLeaf leaf (toPolicyUserBadge row) now =
        badgeSatisfiesLeaf leaf { toPolicyUserBadge row with issuedAt := start } now

/-- A badge is as old as another if both pass at the same times. -/
theorem issuedAt_le_of_decisions {b : UserBadge} {t : ℚ}
    (h : ∀ (leaf : BadgeLeaf) (now : ℚ), badgeSatisfiesLeaf leaf b now = true →
      badgeSatisfiesLeaf leaf { b with issuedAt := t } now = true) : b.issuedAt ≤ t := by
  -- one day after it was issued, a badge passes a limit of one day for the last time
  have hday : nearest 86400 = 86400 := by decide +kernel
  have hpass := h ⟨b.type, [], some 1⟩ (b.issuedAt + 86400)
    (by simp [badgeSatisfiesLeaf, Policy.secondsPerDay, hday])
  have hage : ¬ 86400 < b.issuedAt + 86400 - t := by
    simpa [badgeSatisfiesLeaf, Policy.secondsPerDay, hday] using hpass
  linarith

theorem decisions_iff {b : UserBadge} {t : ℚ} :
    (∀ (leaf : BadgeLeaf) (now : ℚ), badgeSatisfiesLeaf leaf b now =
      badgeSatisfiesLeaf leaf { b with issuedAt := t } now) ↔ b.issuedAt = t := by
  constructor
  · intro h
    apply le_antisymm
    · exact issuedAt_le_of_decisions fun leaf now hb => (h leaf now).symm.trans hb
    · exact issuedAt_le_of_decisions (b := { b with issuedAt := t })
        fun leaf now hb => (h leaf now).trans hb
  · rintro rfl leaf now
    rfl

/-- The month that is stamped is the month of the second read of the clock. -/
theorem month_of_reMintVc {env : IssuerEnv} {args : IssueBadgeArgs} {minting : Minting}
    {payload : Members} {jwt : String} {vc : Vc.Env} {now : Timestamp} {options : ReMintOptions}
    {c : Credential} (hpayload : signedPayload env args minting = some payload)
    (hread : ReadsBack vc env.issuer jwt payload)
    (hmint : reMintVc vc env.issuer now jwt options = .ok c) :
    c.payload.keys? ["vc", "credentialSubject", "issuanceMonth"] =
      some (.str (String.ofList ((isoMonth (monthOfMs minting.signedAt)).take 7))) := by
  obtain ⟨info, -, hclaims⟩ := Option.bind_eq_some_iff.mp hpayload
  obtain ⟨claims, -, rfl⟩ := Option.map_eq_some_iff.mp hclaims
  obtain ⟨o, month, ttl, ho, hmonth, -, -, rfl⟩ := reMintVc_eq_ok_iff.mp hmint
  obtain rfl := ho.unique (issuedOriginal_isSigned hread)
  obtain ⟨ms, hms, rfl⟩ := issuanceMonthOf_eq_ok_iff.mp hmonth
  obtain rfl := dateOfSeconds_intCast hms
  -- whole seconds are in the month of the millisecond they were cut from
  have hday (ms : Int) : ms / 1000 * 1000 / 86400000 = ms / 86400000 := by omega
  rw [keys?_issuanceMonth, monthOfMs, hday]
  rfl

/-- **Consent and the relying party decide alike** about a badge exactly when the clock read the
same month twice, of a year with four digits. -/
theorem sameDecisions_iff {env : IssuerEnv} {args : IssueBadgeArgs} {minting : Minting}
    {badges : List StoredBadge} {row : StoredBadge} {payload : Members} {vc : Vc.Env}
    {now : Timestamp} {options : ReMintOptions} {c : Credential}
    (hissue : issueBadge env args minting badges = .ok (badges ++ [row]))
    (hpayload : signedPayload env args minting = some payload)
    (hread : ReadsBack vc env.issuer row.vcJwt payload)
    (hmint : reMintVc vc env.issuer now row.vcJwt options = .ok c) :
    SameDecisions row.toBadgeRow c ↔
      dateUtcMonth (monthOfMs minting.createdAt) = monthOfMs minting.signedAt ∧
        FourDigits (monthOfMs minting.signedAt).year := by
  have hstamped := month_of_reMintVc hpayload hread hmint
  obtain ⟨info, claims, -, -, -, hrow⟩ := issueBadge_eq_ok_iff.mp hissue
  obtain rfl := List.singleton_inj.mp (List.append_cancel_left hrow)
  have hconsent : (toPolicyUserBadge (newBadge env args minting info claims).toBadgeRow).issuedAt =
      ((firstDay (dateUtcMonth (monthOfMs minting.createdAt)) * 86400 : Int) : ℚ) := rfl
  have hcreated := monthOfMs_bounds minting.createdAt
  constructor
  · rintro ⟨month, start, hkeys, hfirst, hdecisions⟩
    obtain rfl := Json.str.inj (Option.some.inj (hstamped.symm.trans hkeys))
    obtain ⟨hdigits, rfl⟩ := isFirstInstant_take_iff.mp hfirst
    refine ⟨?_, hdigits⟩
    -- the starts agree, and a start belongs to one month only
    have hstarts := hconsent.symm.trans (decisions_iff.mp hdecisions)
    have hdays : firstDay (dateUtcMonth (monthOfMs minting.createdAt)) =
        firstDay (monthOfMs minting.signedAt) := by
      have := Int.cast_injective hstarts
      omega
    have hmonths := congrArg yearMonth hdays
    rwa [yearMonth_firstDay (m := dateUtcMonth (monthOfMs _)) hcreated.1 hcreated.2,
      yearMonth_firstDay (monthOfMs_bounds _).1 (monthOfMs_bounds _).2] at hmonths
  · rintro ⟨hmonths, hdigits⟩
    refine ⟨_, _, hstamped, isFirstInstant_take_iff.mpr ⟨hdigits, rfl⟩, ?_⟩
    apply decisions_iff.mpr
    rw [hconsent, hmonths]

/-! ### The turn of a month -/

def sampleArgs : IssueBadgeArgs where
  userId := "cuser0000"
  badge := ⟨"wallet-control", [("chain", .str "bitcoin")], [("chain", .str "bitcoin")], none⟩

/-- The check of signatures knows one credential. -/
def sampleVc (minting : Minting) : Vc.Env where
  compactVerify _ _ := some ⟨some (.str "vc+jwt"),
    (signedPayload sampleIssuerEnv sampleArgs minting).map fun payload =>
      (Json.obj payload).written⟩

def sampleOptions : ReMintOptions := { subjectId := "did:web:ministry.id:u:2", jti := "j" }

/-- The columns of the row that consent reads. -/
def sampleRow (createdAt : Timestamp) : BadgeRow where
  id := "b1"
  userId := "cuser0000"
  type := "wallet-control"
  dedupeKey := none
  nullifierRef := none
  attributes := [("chain", .scalar (.string "bitcoin"))]
  issuedAt := createdAt

/-- The badge is issued, and disclosed if the second read is a valid date. -/
theorem sample_discloses (createdAt signedAt : Timestamp) {month : String}
    (hmonth : issuanceMonthOf (.fin (signedAt / 1000 : Int)) = .ok month) :
    ∃ row payload c,
      issueBadge sampleIssuerEnv sampleArgs ⟨"b1", createdAt, signedAt⟩ [] = .ok ([] ++ [row]) ∧
      row.toBadgeRow = sampleRow createdAt ∧
      signedPayload sampleIssuerEnv sampleArgs ⟨"b1", createdAt, signedAt⟩ = some payload ∧
      ReadsBack (sampleVc ⟨"b1", createdAt, signedAt⟩) sampleIssuerEnv.issuer row.vcJwt payload ∧
      reMintVc (sampleVc ⟨"b1", createdAt, signedAt⟩) sampleIssuerEnv.issuer 0 row.vcJwt
        sampleOptions = .ok c := by
  have hsigned : Original.IsSigned (issuedOriginal sampleIssuerEnv.issuer "wallet-control"
      (buildUserDid sampleIssuerEnv.domain sampleArgs.userId) "b1" [("chain", .str "bitcoin")]
      signedAt) (sampleVc ⟨"b1", createdAt, signedAt⟩) sampleIssuerEnv.issuer "jwt" :=
    issuedOriginal_isSigned rfl
  refine ⟨_, _, _, issueBadge_eq_ok_iff.mpr ⟨_, _, rfl, rfl, List.pairwise_singleton _ _, rfl⟩, rfl,
    rfl, rfl, reMintVc_eq_ok_iff.mpr ⟨_, month, 3600, hsigned, hmonth, ?_, ?_, rfl⟩⟩
  · exact requireTtl_eq_ok_iff.mpr ⟨by decide +kernel, by decide⟩
  · rintro ⟨hexp, -⟩
    rw [issuedOriginal_exp] at hexp
    cases hexp

/-- Both reads in the first second of February 2024. -/
theorem sample_sameDecisions : ∃ row payload c,
    issueBadge sampleIssuerEnv sampleArgs ⟨"b1", 1706745600000, 1706745600001⟩ [] =
        .ok ([] ++ [row]) ∧
      signedPayload sampleIssuerEnv sampleArgs ⟨"b1", 1706745600000, 1706745600001⟩ =
        some payload ∧
      SameDecisions row.toBadgeRow c := by
  obtain ⟨row, payload, c, hissue, -, hpayload, hread, hmint⟩ := sample_discloses
    1706745600000 1706745600001
    (by decide +kernel : issuanceMonthOf (.fin (1706745600001 / 1000 : Int)) = .ok "2024-02")
  exact ⟨row, payload, c, hissue, hpayload,
    (sameDecisions_iff hissue hpayload hread hmint).mpr (by decide)⟩

/-- One read in the last millisecond of January 2024 and one in the next. A month later the badge
passes a limit of thirty days at the relying party, and not at consent. -/
theorem turnOfMonth_differs : ∃ row payload c,
    issueBadge sampleIssuerEnv sampleArgs ⟨"b1", 1706745599999, 1706745600000⟩ [] =
        .ok ([] ++ [row]) ∧
      signedPayload sampleIssuerEnv sampleArgs ⟨"b1", 1706745599999, 1706745600000⟩ =
        some payload ∧
      ReadsBack (sampleVc ⟨"b1", 1706745599999, 1706745600000⟩) sampleIssuerEnv.issuer row.vcJwt
        payload ∧
      reMintVc (sampleVc ⟨"b1", 1706745599999, 1706745600000⟩) sampleIssuerEnv.issuer 0 row.vcJwt
        sampleOptions = .ok c ∧
      c.payload.keys? ["vc", "credentialSubject", "issuanceMonth"] = some (.str "2024-02") ∧
      IsFirstInstant "2024-02" 1706745600 ∧
      badgeSatisfiesLeaf ⟨"wallet-control", [], some 30⟩ (toPolicyUserBadge row.toBadgeRow)
        1709337600 = false ∧
      badgeSatisfiesLeaf ⟨"wallet-control", [], some 30⟩
        { toPolicyUserBadge row.toBadgeRow with issuedAt := 1706745600 } 1709337600 = true := by
  obtain ⟨row, payload, c, hissue, hrow, hpayload, hread, hmint⟩ := sample_discloses
    1706745599999 1706745600000
    (by decide +kernel : issuanceMonthOf (.fin (1706745600000 / 1000 : Int)) = .ok "2024-02")
  have hstamped := month_of_reMintVc hpayload hread hmint
  have htext : String.ofList ((isoMonth (monthOfMs 1706745600000)).take 7) = "2024-02" := by
    decide +kernel
  have hfirst : IsFirstInstant "2024-02" 1706745600 :=
    htext ▸ isFirstInstant_take_iff.mpr ⟨by decide, by decide⟩
  refine ⟨row, payload, c, hissue, hpayload, hread, hmint, htext ▸ hstamped, hfirst, ?_, ?_⟩
  · rw [hrow]
    decide +kernel
  · rw [hrow]
    decide +kernel

end Minister.Freshness
