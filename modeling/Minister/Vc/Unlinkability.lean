import Minister.Vc.ReMint

/-!
# What a re-minted credential gives away

Two stored credentials that agree in what is meant to be disclosed, and have more than the
disclosure's lifetime left, are re-minted to the same payload: neither the subject, the id, the
exact instants, a stored status nor a reserved claim of the original comes through.

What is meant to be disclosed of the issuance instant is its month. The code rounds the milliseconds
to a double and takes the month of the whole one nearer to 1970, so two instants of one month can be
told apart if one of them is rounded out of it, or out of the range of a `Date`.
-/

namespace Minister.Vc

open Codec Relational

/-- More than the lifetime of a disclosure is left, until an instant that is a double. -/
def Outlives (now : Timestamp) (options : ReMintOptions) (o : Original) : Prop :=
  ∃ (exp : Number) (ttl : Int), o.exp = some exp ∧ requireTtl options = .ok ttl ∧
    Number.lt (.fin (now / 1000 + ttl : Int)) exp ∧ ∀ q, exp = .fin q → IsDouble q

/-- Two originals agree in what a disclosure is to show: context, type, the claims as the hook
leaves them, and the UTC month of issuance. -/
structure Alike (options : ReMintOptions) (o₁ o₂ : Original) (iat₁ iat₂ : Rat) : Prop where
  context : Json.SameOption (member o₁.vc "@context") (member o₂.vc "@context")
  types : Json.Same (.arr o₁.types) (.arr o₂.types)
  claims : ∀ key, key ∉ reservedKeys →
    Json.SameOption (member (sanitizedClaims options o₁) key)
      (member (sanitizedClaims options o₂) key)
  iat₁_eq : o₁.iat = .fin iat₁
  iat₂_eq : o₂.iat = .fin iat₂
  month : utcMonth iat₁ = utcMonth iat₂

/-- Both calls sign the same payload, or neither signs one. -/
def SamePayload : Except String Credential → Except String Credential → Prop
  | .ok c₁, .ok c₂ => Json.Same c₁.payload c₂.payload
  | .error _, .error _ => True
  | _, _ => False

/-- As whole milliseconds both instants are dates of one month, or of one year without four digits,
or neither is a date. -/
def DatesAgree (iat₁ iat₂ : Rat) : Prop :=
  match dateOfSeconds (.fin iat₁), dateOfSeconds (.fin iat₂) with
  | some ms₁, some ms₂ => (monthOfMs ms₁).year = (monthOfMs ms₂).year ∧
    ((monthOfMs ms₁).month = (monthOfMs ms₂).month ∨ ¬ FourDigits (monthOfMs ms₁).year)
  | none, none => True
  | _, _ => False

section Unlinkability

variable {env : Env} {issuer : Issuer} {now : Timestamp} {options : ReMintOptions}
  {jwt₁ jwt₂ : String} {o₁ o₂ : Original} {iat₁ iat₂ : Rat} {month : String} {ttl : Int}

/-- The stored `exp` does not show. -/
theorem expSeconds_of_outlives {o : Original} (h : Outlives now options o)
    (httl : requireTtl options = .ok ttl) :
    expSeconds (now / 1000) ttl o.exp options.cap =
      expSeconds (now / 1000) ttl none options.cap := by
  obtain ⟨exp, ttl', hexp, httl', hlt, hdouble⟩ := h
  obtain rfl : ttl' = ttl := Except.ok.inj (httl'.symm.trans httl)
  -- the sum is not rounded beyond a double
  have hnot : ¬ Number.lt exp (.fin (nearest (now / 1000 + ttl' : Int))) := by
    cases exp with
    | negInf => exact hlt.elim
    | posInf => exact id
    | fin q => exact not_lt.mpr (nearest_le (hdouble q rfl) (le_of_lt hlt))
  rw [hexp]
  unfold expSeconds
  dsimp only
  rw [Number.min_eq_left hnot]

/-- The new subject shows the sanitized claims and what was stamped. -/
theorem same_credentialSubject (h : Alike options o₁ o₂ iat₁ iat₂) :
    Json.Same (.obj (credentialSubject options (sanitizedClaims options o₁) month))
      (.obj (credentialSubject options (sanitizedClaims options o₂) month)) := by
  rw [Json.same_obj_iff]
  intro key
  by_cases hres : key ∈ reservedKeys
  · -- A reserved key has the stamp in both.
    simp only [reservedKeys, List.mem_cons, List.not_mem_nil, or_false] at hres
    rcases hres with rfl | rfl | rfl
    · rw [member_credentialSubject_id, member_credentialSubject_id]
      exact .refl _
    · rw [member_credentialSubject_issuanceMonth, member_credentialSubject_issuanceMonth]
      exact .refl _
    · rw [member_credentialSubject_nullifier, member_credentialSubject_nullifier]
      exact .refl _
  · rw [member_credentialSubject_of_not_reserved hres,
      member_credentialSubject_of_not_reserved hres]
    split_ifs
    · exact .refl _
    · exact h.claims key hres

theorem same_contextOrDefault {x y : Option Json} (h : Json.SameOption x y) :
    Json.Same (contextOrDefault x) (contextOrDefault y) := by
  have hsome := h.isSome_eq
  cases x with
  | none =>
    cases y with
    | none => exact .refl _
    | some y => cases hsome
  | some x =>
    cases y with
    | none => cases hsome
    | some y =>
      -- Both are `null`, or neither is.
      have hsame : Json.Same x y := Json.sameOption_some_iff.mp h
      have hshape := hsame.shape_eq
      cases x with
      | null => cases y <;> first | exact .refl _ | cases hshape
      | _ => cases y <;> first | exact hsame | cases hshape

theorem same_vcClaim (h : Alike options o₁ o₂ iat₁ iat₂) :
    Json.Same (.obj (vcClaim options o₁ month)) (.obj (vcClaim options o₂ month)) := by
  rw [Json.same_obj_iff]
  intro key
  unfold vcClaim
  simp only [List.cons_append, List.nil_append]
  by_cases hcontext : "@context" = key
  · subst hcontext
    rw [member_cons_self, member_cons_self]
    exact same_contextOrDefault h.context
  · rw [member_cons_ne hcontext, member_cons_ne hcontext]
    by_cases htype : "type" = key
    · subst htype
      rw [member_cons_self, member_cons_self]
      exact h.types
    · rw [member_cons_ne htype, member_cons_ne htype]
      by_cases hsubject : "credentialSubject" = key
      · subst hsubject
        rw [member_cons_self, member_cons_self]
        exact same_credentialSubject h
      · rw [member_cons_ne hsubject, member_cons_ne hsubject]
        exact .refl _

/-- With the same month stamped, the payloads are the same. -/
theorem same_payload (h : Alike options o₁ o₂ iat₁ iat₂) (hout₁ : Outlives now options o₁)
    (hout₂ : Outlives now options o₂) (httl : requireTtl options = .ok ttl) :
    Json.Same (mint issuer now options o₁ month ttl).payload
      (mint issuer now options o₂ month ttl).payload := by
  apply Json.Same.written
  rw [Json.same_obj_iff]
  intro key
  unfold newPayload
  rw [expSeconds_of_outlives hout₁ httl, expSeconds_of_outlives hout₂ httl]
  by_cases hvc : "vc" = key
  · subst hvc
    rw [member_cons_self, member_cons_self]
    exact same_vcClaim h
  · rw [member_cons_ne hvc, member_cons_ne hvc]
    exact .refl _

/-- Payloads that are the same have the same month. -/
theorem month_eq_of_same {m₁ m₂ : String}
    (h : Json.Same (mint issuer now options o₁ m₁ ttl).payload
      (mint issuer now options o₂ m₂ ttl).payload) : m₁ = m₂ := by
  have hmonth (o : Original) (m : String) : (mint issuer now options o m ttl).payload.at?
      (["vc", "credentialSubject", "issuanceMonth"].map .key) = some (.str m) :=
    keys?_issuanceMonth
  have hpath := h (["vc", "credentialSubject", "issuanceMonth"].map .key)
  rw [hmonth, hmonth] at hpath
  exact Json.Shape.str.inj (Option.some.inj hpath)

/-- After the original has been read, only the date can be at fault. -/
theorem reMintVc_of_outlives {jwt : String} {o : Original} (ho : o.IsSigned env issuer jwt)
    (hout : Outlives now options o) (httl : requireTtl options = .ok ttl) :
    reMintVc env issuer now jwt options =
      (issuanceMonthOf o.iat).map fun month => mint issuer now options o month ttl := by
  obtain ⟨exp, -, hexp, -, -⟩ := hout
  unfold reMintVc
  rw [readOriginal_eq_ok_iff.mpr ho, ok_bind]
  cases issuanceMonthOf o.iat with
  | error e => rfl
  | ok month =>
    rw [ok_bind, httl, ok_bind, if_neg (by simp [hexp])]
    rfl

/-- Two originals that agree in what is disclosed, with more than the lifetime of the disclosure
left, are re-minted to the same payload exactly when their dates agree. -/
theorem samePayload_iff (h₁ : o₁.IsSigned env issuer jwt₁) (h₂ : o₂.IsSigned env issuer jwt₂)
    (halike : Alike options o₁ o₂ iat₁ iat₂) (hout₁ : Outlives now options o₁)
    (hout₂ : Outlives now options o₂) :
    SamePayload (reMintVc env issuer now jwt₁ options) (reMintVc env issuer now jwt₂ options) ↔
      DatesAgree iat₁ iat₂ := by
  obtain ⟨-, ttl, -, httl, -⟩ := id hout₁
  rw [reMintVc_of_outlives h₁ hout₁ httl, reMintVc_of_outlives h₂ hout₂ httl, halike.iat₁_eq,
    halike.iat₂_eq]
  unfold issuanceMonthOf DatesAgree
  cases hdate₁ : dateOfSeconds (.fin iat₁) with
  | none => cases hdate₂ : dateOfSeconds (.fin iat₂) <;> exact Iff.rfl
  | some ms₁ =>
    cases hdate₂ : dateOfSeconds (.fin iat₂) with
    | none => exact Iff.rfl
    | some ms₂ =>
      dsimp only
      rw [← take_isoMonth_inj (month_lt _) (month_lt _) (year_of_dateOfSeconds hdate₁)
        (year_of_dateOfSeconds hdate₂)]
      constructor
      · intro hsame
        exact String.ofList_inj.mp (month_eq_of_same hsame)
      · intro hmonth
        rw [hmonth]
        exact same_payload halike hout₁ hout₂ httl

end Unlinkability

/-- Two stored credentials, told apart by the string. -/
def twoEnv (iat₁ iat₂ : Rat) : Env where
  compactVerify := fun jwt _ => some ⟨some (.str "vc+jwt"),
    some (.obj (samplePayload (if jwt = "first" then iat₁ else iat₂) []))⟩

theorem twoEnv_isSigned (iat₁ iat₂ : Rat) :
    (sampleOriginal iat₁ []).IsSigned (twoEnv iat₁ iat₂) sampleIssuer "first" ∧
      (sampleOriginal iat₂ []).IsSigned (twoEnv iat₁ iat₂) sampleIssuer "second" :=
  ⟨⟨rfl, rfl, rfl, rfl, List.cons_ne_nil _ _, rfl, rfl⟩,
    ⟨rfl, rfl, rfl, rfl, List.cons_ne_nil _ _, rfl, rfl⟩⟩

theorem sample_alike {iat₁ iat₂ : Rat} (h : utcMonth iat₁ = utcMonth iat₂) :
    Alike sampleOptions (sampleOriginal iat₁ []) (sampleOriginal iat₂ []) iat₁ iat₂ :=
  ⟨.refl _, .refl _, fun _ _ => .refl _, rfl, rfl, h⟩

theorem sample_outlives {iat : Rat} {ms : Timestamp}
    (h : ((ms / 1000 + 3600 : Int) : Rat) < iat + 31557600) (hdouble : IsDouble (iat + 31557600)) :
    Outlives ms sampleOptions (sampleOriginal iat []) :=
  ⟨_, 3600, rfl, requireTtl_eq_ok_iff.mpr ⟨by decide +kernel, by decide⟩, h,
    fun _ hq => Number.fin.inj hq ▸ hdouble⟩

/-- Two credentials issued a day apart cannot be told apart. -/
theorem sample_samePayload : SamePayload
    (reMintVc (twoEnv 1709210096 1709123696) sampleIssuer 1710000000000 "first" sampleOptions)
    (reMintVc (twoEnv 1709210096 1709123696) sampleIssuer 1710000000000 "second"
      sampleOptions) := by
  have hdate₁ : dateOfSeconds (.fin 1709210096) = some 1709210096000 := by decide +kernel
  have hdate₂ : dateOfSeconds (.fin 1709123696) = some 1709123696000 := by decide +kernel
  refine (samePayload_iff (twoEnv_isSigned _ _).1 (twoEnv_isSigned _ _).2
    (sample_alike (by decide +kernel)) (sample_outlives (by decide +kernel) (by decide +kernel))
    (sample_outlives (by decide +kernel) (by decide +kernel))).mpr ?_
  unfold DatesAgree
  rw [hdate₁, hdate₂]
  decide +kernel

/-- Half a millisecond, almost, and a hundred seconds before 1970: both instants are in December
1969, but the first is disclosed as January 1970. -/
theorem december_distinguished :
    (sampleOriginal (-1 / 2048) []).IsSigned (twoEnv (-1 / 2048) (-100)) sampleIssuer "first" ∧
    (sampleOriginal (-100) []).IsSigned (twoEnv (-1 / 2048) (-100)) sampleIssuer "second" ∧
    Alike sampleOptions (sampleOriginal (-1 / 2048) []) (sampleOriginal (-100) []) (-1 / 2048)
      (-100) ∧
    Outlives 0 sampleOptions (sampleOriginal (-1 / 2048) []) ∧
    Outlives 0 sampleOptions (sampleOriginal (-100) []) ∧
    ¬ SamePayload
      (reMintVc (twoEnv (-1 / 2048) (-100)) sampleIssuer 0 "first" sampleOptions)
      (reMintVc (twoEnv (-1 / 2048) (-100)) sampleIssuer 0 "second" sampleOptions) := by
  have hout₁ : Outlives 0 sampleOptions (sampleOriginal (-1 / 2048) []) :=
    sample_outlives (by decide +kernel) (by decide +kernel)
  have hout₂ : Outlives 0 sampleOptions (sampleOriginal (-100) []) :=
    sample_outlives (by decide +kernel) (by decide +kernel)
  have httl : requireTtl sampleOptions = .ok 3600 := by decide +kernel
  have hmonth₁ : issuanceMonthOf (.fin (-1 / 2048)) = .ok "1970-01" := by decide +kernel
  have hmonth₂ : issuanceMonthOf (.fin (-100)) = .ok "1969-12" := by decide +kernel
  refine ⟨(twoEnv_isSigned _ _).1, (twoEnv_isSigned _ _).2, sample_alike (by decide +kernel), hout₁,
    hout₂, ?_⟩
  rw [reMintVc_of_outlives (twoEnv_isSigned _ _).1 hout₁ httl,
    reMintVc_of_outlives (twoEnv_isSigned _ _).2 hout₂ httl]
  change ¬ SamePayload ((issuanceMonthOf (.fin (-1 / 2048))).map _)
    ((issuanceMonthOf (.fin (-100))).map _)
  rw [hmonth₁, hmonth₂]
  intro hsame
  have hmonth := month_eq_of_same hsame
  revert hmonth
  decide

end Minister.Vc
