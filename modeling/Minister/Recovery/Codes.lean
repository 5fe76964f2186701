import Mathlib.Data.List.FinRange
import Minister.Oidc.Consent
import Minister.Transition.Pool
import Minister.Transition.Run

/-!
# Recovery codes

`generateRecoveryCodes` replaces the unused codes of an account by ten new ones, in one transaction.
`redeemRecoveryCode` reads the account's unused rows, looks for one whose hash its input verifies
against, and marks that row as used if it is still there and unused. Calls run side by side, one
statement or transaction at a time.

Hashing is a parameter; what it is assumed to do is that a hash verifies against exactly the text
that was hashed. `createdAt` is left out, which no function here reads.
-/

namespace Minister.RecoveryCodes

open Relational Transition
open Oidc (isJsSpace trim jsLength)

/-! ### Codes -/

def alphabet : List Char := "ABCDEFGHJKMNPQRSTVWXYZ0123456789".toList

/-- `RECOVERY_CODE_COUNT`. -/
def recoveryCodeCount : Nat := 10

def groupCount : Nat := 3

def groupLen : Nat := 4

/-- `CODE_SYMBOLS`. -/
def codeSymbols : Nat := groupCount * groupLen

/-- The symbols of a code, each a draw of `randomInt`. -/
abbrev Draw := Fin groupCount → Fin groupLen → Fin 32

def generateCode (draw : Draw) : String :=
  "-".intercalate (List.ofFn fun g =>
    String.ofList (List.ofFn fun i => alphabet.get (Fin.cast (by decide) (draw g i))))

structure CodeEnv where
  /-- `String.prototype.toUpperCase`. -/
  toUpperCase : String → String
  /-- `hashClientSecret`, given the salt it draws. -/
  hash : String → String → String
  /-- `verifyClientSecret`, for a text and a hash. -/
  verify : String → String → Bool
  verify_hash : ∀ text hashed salt, verify text (hash hashed salt) = true ↔ text = hashed

/-- The replacements for the letters that the alphabet leaves out. -/
def repaired (c : Char) : Char :=
  if c = 'I' ∨ c = 'L' then '1' else if c = 'O' then '0' else if c = 'U' then 'V' else c

def normalizeRecoveryCode (env : CodeEnv) (input : String) : String :=
  let upper := env.toUpperCase (String.ofList (trim input.toList))
  String.ofList ((upper.toList.filter fun c => !(isJsSpace c || c = '-')).map repaired)

/-! ### Calls -/

/-- A call of `generateRecoveryCodes`: what is drawn for each code, and the ids of the rows. -/
structure Generation where
  userId : UserId
  draws : Fin recoveryCodeCount → Draw
  salts : Fin recoveryCodeCount → String
  ids : Fin recoveryCodeCount → String

/-- Where a call of `redeemRecoveryCode` stands. -/
inductive Call
  | reading (userId : UserId) (normalized : String)
  | consuming (userId : UserId) (normalized matchedId : String)
  | done (userId : UserId) (normalized : String) (result : Bool)
  deriving DecidableEq, Repr

/-- The rows and the calls, with the ids that rows have ever had; the code does not keep these. -/
structure State where
  rows : List RecoveryCode := []
  calls : List Call := []
  ids : List String := []

inductive Action
  | generate (g : Generation)
  | redeem (userId : UserId) (code : String)
  | advance (i : Nat) (now : Timestamp)

section Model

variable (env : CodeEnv)

def Generation.codes (g : Generation) : List String := List.ofFn fun k => generateCode (g.draws k)

def Generation.row (g : Generation) (k : Fin recoveryCodeCount) : RecoveryCode where
  id := g.ids k
  userId := g.userId
  codeHash := env.hash (normalizeRecoveryCode env (generateCode (g.draws k))) (g.salts k)
  usedAt := none

def Generation.rows (g : Generation) : List RecoveryCode := List.ofFn (g.row env)

/-- The unused rows of an account. -/
def isUnusedOf (userId : UserId) (r : RecoveryCode) : Bool := r.userId = userId ∧ r.usedAt = none

@[irreducible] def startRedeem (userId : UserId) (code : String) : Call :=
  let normalized := normalizeRecoveryCode env code
  if jsLength normalized ≠ codeSymbols then .done userId normalized false
  else .reading userId normalized

/-- The first of the rows that the input verifies against. -/
def matched (normalized : String) (rows : List RecoveryCode) : Option String :=
  (rows.find? fun r => env.verify normalized r.codeHash).map (·.id)

def State.read (s : State) (i : Nat) (userId : UserId) (normalized : String) : State :=
  match matched env normalized (findMany (isUnusedOf userId) s.rows) with
  | none => { s with calls := s.calls.set i (.done userId normalized false) }
  | some id => { s with calls := s.calls.set i (.consuming userId normalized id) }

def isUnused (id : String) (r : RecoveryCode) : Bool := r.id = id ∧ r.usedAt = none

/-- The guarded update, and the call's answer. -/
def State.consume (s : State) (i : Nat) (userId : UserId) (normalized matchedId : String)
    (now : Timestamp) : State where
  rows := mapWhere (isUnused matchedId) (fun r => { r with usedAt := some now }) s.rows
  calls := s.calls.set i
    (.done userId normalized ((findMany (isUnused matchedId) s.rows).length = 1))
  ids := s.ids

/-- Ids of new rows are new. -/
def step (s : State) : Action → Option State
  | .generate g =>
    if (List.ofFn g.ids).Nodup ∧ ∀ k, g.ids k ∉ s.ids then
      some { s with
        rows := deleteMany (isUnusedOf g.userId) s.rows ++ g.rows env
        ids := s.ids ++ List.ofFn g.ids }
    else none
  | .redeem userId code => some { s with calls := s.calls ++ [startRedeem env userId code] }
  | .advance i now =>
    match s.calls[i]? with
    | some (.reading userId normalized) => some (s.read env i userId normalized)
    | some (.consuming userId normalized matchedId) =>
      some (s.consume i userId normalized matchedId now)
    | some (.done _ _ _) | none => none

/-! ### The property -/

/-- How many calls for the code returned `true`. -/
def redeemed (s : State) (userId : UserId) (normalized : String) : Nat :=
  s.calls.count (.done userId normalized true)

/-- The codes that an action generates, as their hashes are taken. -/
def generatedCodes : Action → List (UserId × String)
  | .generate g => g.codes.map fun code => (g.userId, normalizeRecoveryCode env code)
  | .redeem _ _ | .advance _ _ => []

/-- How many times a run has generated the code. -/
def generated (as : List Action) (userId : UserId) (normalized : String) : Nat :=
  (as.flatMap (generatedCodes env)).count (userId, normalized)

/-- The row is the account's, and its code is this one. -/
def isCode (userId : UserId) (normalized : String) (r : RecoveryCode) : Bool :=
  r.userId = userId && env.verify normalized r.codeHash

/-- The step is the update of the call, and finds its row there and unused. -/
def Consumes (i : Nat) (userId : UserId) (normalized : String) (s : State) (a : Action) : Prop :=
  ∃ now, a = .advance i now ∧ ∃ r ∈ s.rows, r.usedAt = none ∧
    isCode env userId normalized r = true ∧
    s.calls[i]? = some (.consuming userId normalized r.id)

end Model

/-! ### Counting -/

section Counts

variable {env : CodeEnv} {userId : UserId} {normalized : String} {rows : List RecoveryCode}
  {now : Timestamp} {id : String}

/-- A used row of the code. -/
def isUsedCode (env : CodeEnv) (userId : UserId) (normalized : String) (r : RecoveryCode) : Bool :=
  isCode env userId normalized r && r.usedAt.isSome

theorem generated_append {as : List Action} {a : Action} :
    generated env (as ++ [a]) userId normalized =
      generated env as userId normalized + (generatedCodes env a).count (userId, normalized) := by
  simp [generated, List.flatMap_append]

/-- A new row is a row of the code it was generated with. -/
theorem countP_generation (g : Generation) : (g.rows env).countP (isCode env userId normalized) =
    (generatedCodes env (.generate g)).count (userId, normalized) := by
  rw [Generation.rows, generatedCodes, Generation.codes, List.map_ofFn, List.ofFn_eq_map,
    List.ofFn_eq_map, List.countP_map, List.count, List.countP_map]
  refine List.countP_congr fun k _ => ?_
  simp only [Function.comp_apply, isCode, Generation.row, Bool.and_eq_true, env.verify_hash,
    beq_iff_eq, Prod.mk.injEq]
  exact and_congr decide_eq_true_iff eq_comm

/-- The rows of a generation are unused. -/
theorem countP_used_generation (g : Generation) :
    (g.rows env).countP (isUsedCode env userId normalized) = 0 := by
  rw [List.countP_eq_zero]
  intro r hr
  obtain ⟨k, rfl⟩ := List.mem_ofFn.mp hr
  simp [isUsedCode, Generation.row]

/-- Used rows are not deleted. -/
theorem countP_used_deleteMany {deleted : UserId} :
    (deleteMany (isUnusedOf deleted) rows).countP (isUsedCode env userId normalized) =
      rows.countP (isUsedCode env userId normalized) := by
  rw [deleteMany, List.countP_filter]
  refine List.countP_congr fun r _ => ?_
  simp only [isUsedCode, isUnusedOf, Bool.and_eq_true, Option.isSome_iff_ne_none]
  simp only [Bool.not_eq_true', decide_eq_false_iff_not, not_and, and_iff_left_iff_imp]
  exact fun hused _ => hused.2

/-- The update uses the rows that it matches. -/
theorem countP_used_mapWhere :
    (mapWhere (isUnused id) (fun r => { r with usedAt := some now }) rows).countP
        (isUsedCode env userId normalized) =
      rows.countP (isUsedCode env userId normalized) +
        (findMany (isUnused id) rows).countP (isCode env userId normalized) := by
  induction rows with
  | nil => rfl
  | cons r rows ih =>
    rw [mapWhere, findMany] at *
    rw [List.map_cons, List.countP_cons, List.countP_cons, ih, List.filter_cons]
    cases hr : isUnused id r with
    | false => simp; omega
    | true =>
      have hnone : r.usedAt = none := (of_decide_eq_true hr).2
      simp [isUsedCode, isCode, hnone, List.countP_cons]
      omega

theorem countP_isCode_mapWhere :
    (mapWhere (isUnused id) (fun r => { r with usedAt := some now }) rows).countP
        (isCode env userId normalized) = rows.countP (isCode env userId normalized) := by
  rw [mapWhere, List.countP_map]
  refine List.countP_congr fun r _ => ?_
  simp only [Function.comp_apply]
  split_ifs <;> rfl

end Counts

/-! ### The invariant -/

/-- What a call knows about the row it is about to use: it was there, and if it still is, it is a
row of the call's code. -/
def Call.Knows (env : CodeEnv) (rows : List RecoveryCode) (ids : List String) : Call → Prop
  | .consuming userId normalized id =>
    id ∈ ids ∧ ∀ r ∈ rows, r.id = id → isCode env userId normalized r = true
  | .reading _ _ | .done _ _ _ => True

/-- A call that returned `true` has used a row. -/
def Call.Earned (env : CodeEnv) (as : List Action) (i : Nat) (c : Call) : Prop :=
  ∀ userId normalized, c = .done userId normalized true →
    Happens (step env) (Consumes env i userId normalized) {} as

structure Inv (env : CodeEnv) (as : List Action) (s : State) : Prop where
  nodup : (s.rows.map (·.id)).Nodup
  ids : ∀ r ∈ s.rows, r.id ∈ s.ids
  knows : ∀ c ∈ s.calls, c.Knows env s.rows s.ids
  redeemed_le : ∀ userId normalized, redeemed s userId normalized ≤
    s.rows.countP (isUsedCode env userId normalized)
  le_generated : ∀ userId normalized, s.rows.countP (isCode env userId normalized) ≤
    generated env as userId normalized
  earned : ∀ i (c : Call), s.calls[i]? = some c → c.Earned env as i

section Steps

variable {env : CodeEnv} {as : List Action} {s : State} {i : Nat} {a : Action} {c : Call}
  {userId : UserId} {normalized id : String}

theorem Call.Earned.append (h : c.Earned env as i) : c.Earned env (as ++ [a]) i :=
  fun userId normalized hc => (h userId normalized hc).append

theorem Call.Knows.mono {rows rows' : List RecoveryCode} {ids ids' : List String}
    (h : c.Knows env rows ids) (hids : ∀ id ∈ ids, id ∈ ids')
    (hrows : ∀ r ∈ rows', r.id ∈ ids →
      ∃ r₀ ∈ rows, r₀.id = r.id ∧ ∀ userId normalized,
        isCode env userId normalized r = isCode env userId normalized r₀) :
    c.Knows env rows' ids' := by
  cases c with
  | consuming userId normalized id =>
    refine ⟨hids id h.1, fun r hr hid => ?_⟩
    obtain ⟨r₀, hr₀, hid₀, hcode⟩ := hrows r hr (hid ▸ h.1)
    rw [hcode]
    exact h.2 r₀ hr₀ (hid₀.trans hid)
  | reading => trivial
  | done => trivial

/-- The calls that returned `true`, after one call took a step. -/
theorem count_set {calls : List Call} {a b : Call} (h : calls[i]? = some a) (ha : a ≠ c) :
    (calls.set i b).count c = calls.count c + if b = c then 1 else 0 := by
  have hset := countP_set_of_false (p := (· == c)) (b := b) h (beq_false_of_ne ha)
  simpa only [List.count, beq_iff_eq] using hset

theorem inv_generate {g : Generation} (hs : Inv env as s) (hnodup : (List.ofFn g.ids).Nodup)
    (hnew : ∀ k, g.ids k ∉ s.ids) : Inv env (as ++ [.generate g]) { s with
      rows := deleteMany (isUnusedOf g.userId) s.rows ++ g.rows env
      ids := s.ids ++ List.ofFn g.ids } where
  nodup := by
    have hids : (g.rows env).map (·.id) = List.ofFn g.ids := by
      rw [Generation.rows, List.map_ofFn]
      rfl
    rw [List.map_append, hids]
    refine List.Nodup.append (hs.nodup.sublist (List.Sublist.map _ List.filter_sublist)) hnodup ?_
    intro id hold hid
    obtain ⟨r, hr, rfl⟩ := List.mem_map.mp hold
    obtain ⟨k, hk⟩ := List.mem_ofFn.mp hid
    exact hnew k (hk ▸ hs.ids r (mem_deleteMany.mp hr).1)
  ids := by
    intro r hr
    rcases List.mem_append.mp hr with hold | hrow
    · exact List.mem_append_left _ (hs.ids r (mem_deleteMany.mp hold).1)
    · obtain ⟨k, rfl⟩ := List.mem_ofFn.mp hrow
      exact List.mem_append_right _ (List.mem_ofFn.mpr ⟨k, rfl⟩)
  knows := by
    intro c hc
    refine (hs.knows c hc).mono (fun id hid => List.mem_append_left _ hid) fun r hr hid => ?_
    rcases List.mem_append.mp hr with hold | hrow
    · exact ⟨r, (mem_deleteMany.mp hold).1, rfl, fun _ _ => rfl⟩
    · obtain ⟨k, rfl⟩ := List.mem_ofFn.mp hrow
      exact absurd hid (hnew k)
  redeemed_le userId normalized := by
    rw [List.countP_append, countP_used_deleteMany, countP_used_generation]
    exact hs.redeemed_le userId normalized
  le_generated userId normalized := by
    rw [List.countP_append, countP_generation, generated_append]
    have hdeleted : (deleteMany (isUnusedOf g.userId) s.rows).countP _ ≤ _ :=
      List.Sublist.countP_le (p := isCode env userId normalized) List.filter_sublist
    have hold := hs.le_generated userId normalized
    omega
  earned j c hc := (hs.earned j c hc).append

/-- A step that rewrites a call and leaves the rows. -/
theorem inv_set {c' : Call} (hs : Inv env as s) (hcall : s.calls[i]? = some c)
    (hc : ∀ userId normalized, c ≠ .done userId normalized true)
    (hc' : ∀ userId normalized, c' ≠ .done userId normalized true)
    (hknows : c'.Knows env s.rows s.ids) (ha : generatedCodes env a = []) :
    Inv env (as ++ [a]) { s with calls := s.calls.set i c' } where
  nodup := hs.nodup
  ids := hs.ids
  knows := forall_mem_set hs.knows hknows
  redeemed_le userId normalized := by
    rw [redeemed, count_set hcall (hc userId normalized), if_neg (hc' userId normalized)]
    exact hs.redeemed_le userId normalized
  le_generated userId normalized := by
    rw [generated_append, ha]
    exact hs.le_generated userId normalized
  earned := forall_getElem?_set (fun j c hc => (hs.earned j c hc).append)
    fun userId normalized h => absurd h (hc' userId normalized)

/-- An update of one row has found a row of the call's code. -/
theorem exists_of_consumes (hs : Inv env as s)
    (hcall : s.calls[i]? = some (.consuming userId normalized id))
    (hone : (findMany (isUnused id) s.rows).length = 1) :
    ∃ r ∈ findMany (isUnused id) s.rows, r.id = id ∧ r.usedAt = none ∧
      isCode env userId normalized r = true := by
  obtain ⟨r, hr⟩ := List.length_eq_one_iff.mp hone
  have hmem : r ∈ findMany (isUnused id) s.rows := hr ▸ List.mem_singleton_self r
  obtain ⟨hrow, hunused⟩ := mem_findMany.mp hmem
  have hunused' : r.id = id ∧ r.usedAt = none := of_decide_eq_true hunused
  have hknows := hs.knows _ (List.mem_of_getElem? hcall)
  exact ⟨r, hmem, hunused'.1, hunused'.2, hknows.2 r hrow hunused'.1⟩

theorem inv_consume {now : Timestamp} (hrun : run (step env) {} as = some s) (hs : Inv env as s)
    (hcall : s.calls[i]? = some (.consuming userId normalized id)) :
    Inv env (as ++ [.advance i now]) (s.consume i userId normalized id now) where
  nodup := by
    have hids : (mapWhere (isUnused id) (fun r => { r with usedAt := some now }) s.rows).map
        (·.id) = s.rows.map (·.id) := by
      rw [mapWhere, List.map_map]
      refine List.map_congr_left fun r _ => ?_
      simp only [Function.comp_apply]
      split_ifs <;> rfl
    rw [State.consume, hids]
    exact hs.nodup
  ids := by
    intro r hr
    obtain ⟨r₀, hr₀, rfl⟩ := mem_mapWhere.mp hr
    split_ifs <;> exact hs.ids r₀ hr₀
  knows := by
    refine forall_mem_set (fun c hc => ?_) trivial
    refine (hs.knows c hc).mono (fun _ h => h) fun r hr _ => ?_
    obtain ⟨r₀, hr₀, rfl⟩ := mem_mapWhere.mp hr
    refine ⟨r₀, hr₀, ?_, fun _ _ => ?_⟩ <;> split_ifs <;> rfl
  redeemed_le userId' normalized' := by
    have hold := hs.redeemed_le userId' normalized'
    rw [redeemed] at hold
    rw [redeemed, State.consume, count_set hcall (by simp), countP_used_mapWhere]
    split_ifs with hdone
    · simp only [Call.done.injEq, decide_eq_true_eq] at hdone
      obtain ⟨rfl, rfl, hone⟩ := hdone
      obtain ⟨r, hr, -, -, hcode⟩ := exists_of_consumes hs hcall hone
      have hpos := List.countP_pos_iff.mpr ⟨r, hr, hcode⟩
      omega
    · omega
  le_generated userId' normalized' := by
    rw [State.consume, countP_isCode_mapWhere, generated_append]
    exact le_trans (hs.le_generated userId' normalized') (Nat.le_add_right _ _)
  earned := by
    refine forall_getElem?_set (fun j c hc => (hs.earned j c hc).append) ?_
    intro userId' normalized' hdone
    simp only [Call.done.injEq, decide_eq_true_eq] at hdone
    obtain ⟨rfl, rfl, hone⟩ := hdone
    obtain ⟨r, hr, rfl, hunused, hcode⟩ := exists_of_consumes hs hcall hone
    exact Happens.last hrun ⟨now, rfl, r, (mem_findMany.mp hr).1, hunused, hcode, hcall⟩

theorem startRedeem_cases (env : CodeEnv) (userId : UserId) (code : String) :
    startRedeem env userId code = .done userId (normalizeRecoveryCode env code) false ∨
      startRedeem env userId code = .reading userId (normalizeRecoveryCode env code) := by
  simp only [startRedeem]
  generalize normalizeRecoveryCode env code = normalized
  rcases eq_or_ne (jsLength normalized) codeSymbols with hlength | hlength
  · exact .inr (if_neg (not_not.mpr hlength))
  · exact .inl (if_pos hlength)

theorem startRedeem_ne (env : CodeEnv) (userId : UserId) (code : String) (u : UserId) (n : String) :
    startRedeem env userId code ≠ .done u n true := by
  rcases startRedeem_cases env userId code with hstart | hstart <;> simp [hstart]

theorem knows_startRedeem (env : CodeEnv) (userId : UserId) (code : String) :
    (startRedeem env userId code).Knows env s.rows s.ids := by
  rcases startRedeem_cases env userId code with hstart | hstart <;> simp [hstart, Call.Knows]

/-- A new call has done nothing yet. -/
theorem inv_append (hs : Inv env as s)
    (hc : ∀ userId normalized, c ≠ .done userId normalized true)
    (hknows : c.Knows env s.rows s.ids) :
    Inv env (as ++ [a]) { s with calls := s.calls ++ [c] } where
  nodup := hs.nodup
  ids := hs.ids
  knows := forall_mem_concat hs.knows hknows
  redeemed_le userId normalized := by
    rw [redeemed, List.count_append, List.count_singleton,
      if_neg (by simpa using hc userId normalized)]
    exact hs.redeemed_le userId normalized
  le_generated userId normalized := by
    rw [generated_append]
    exact le_trans (hs.le_generated userId normalized) (Nat.le_add_right _ _)
  earned := forall_getElem?_append (fun j c hc => (hs.earned j c hc).append)
    fun userId normalized hdone => absurd hdone (hc userId normalized)

theorem inv_step {s' : State} (hrun : run (step env) {} as = some s) (hs : Inv env as s)
    (h : step env s a = some s') : Inv env (as ++ [a]) s' := by
  cases a with
  | generate g =>
    simp only [step] at h
    split_ifs at h with hids
    cases h
    exact inv_generate hs hids.1 hids.2
  | redeem userId code =>
    cases h
    exact inv_append (c := startRedeem env userId code) hs (startRedeem_ne env userId code)
      (knows_startRedeem env userId code)
  | advance i now =>
    simp only [step] at h
    split at h
    · rename_i userId normalized hcall
      cases h
      unfold State.read
      split
      · exact inv_set hs hcall (by simp) (by simp) trivial rfl
      · rename_i id hmatched
        refine inv_set hs hcall (by simp) (by simp) ?_ rfl
        -- the id is that of a row, and ids are unique
        obtain ⟨r, hr, rfl⟩ := Option.map_eq_some_iff.mp hmatched
        obtain ⟨hrow, hunused⟩ := mem_findMany.mp (List.mem_of_find?_eq_some hr)
        have huser : r.userId = userId ∧ r.usedAt = none := of_decide_eq_true hunused
        have hverify : env.verify normalized r.codeHash = true := by simpa using List.find?_some hr
        refine ⟨hs.ids r hrow, fun r' hr' hid => ?_⟩
        obtain rfl := List.inj_on_of_nodup_map hs.nodup hr' hrow hid
        simp [isCode, huser.1, hverify]
    · rename_i userId normalized id hcall
      cases h
      exact inv_consume hrun hs hcall
    · cases h
    · cases h

end Steps

/-- **Recovery codes are single-use**: in every run no code is redeemed more often than it was
generated, and a call that returned `true` has used a row of its code that was there and unused. -/
theorem singleUse_of_run (env : CodeEnv) {as : List Action} {s : State}
    (hrun : run (step env) {} as = some s) :
    (∀ userId normalized, redeemed s userId normalized ≤ generated env as userId normalized) ∧
    ∀ i userId normalized, s.calls[i]? = some (.done userId normalized true) →
      Happens (step env) (Consumes env i userId normalized) {} as := by
  have hempty : Inv env [] {} :=
    ⟨List.nodup_nil, nofun, nofun, fun _ _ => Nat.le_refl 0, fun _ _ => Nat.le_refl 0, nofun⟩
  have hinv : Inv env as s := run_invariant_history (Inv env) hempty
    (fun _ _ _ _ hrun hs h => inv_step hrun hs h) hrun
  constructor
  · intro userId normalized
    have hused : s.rows.countP (isUsedCode env userId normalized) ≤
        s.rows.countP (isCode env userId normalized) :=
      List.countP_mono_left fun r _ hr => (Bool.and_eq_true _ _ ▸ hr).1
    exact le_trans (hinv.redeemed_le userId normalized)
      (le_trans hused (hinv.le_generated userId normalized))
  · exact fun i userId normalized hc => hinv.earned i _ hc userId normalized rfl

/-! ### Two calls for one code -/

def sampleEnv : CodeEnv where
  toUpperCase := id
  hash text _ := text
  verify text hashed := text == hashed
  verify_hash _ _ _ := beq_iff_eq

/-- Ten codes that differ in their first symbol. -/
def sampleGeneration : Generation where
  userId := "u"
  draws k g i := if g.val = 0 ∧ i.val = 0 then k.castLE (by decide) else 0
  salts _ := ""
  ids k := "r" ++ toString k.val

/-- Both calls read before either of them writes. -/
def race : List Action :=
  [.generate sampleGeneration, .redeem "u" "AAAA-AAAA-AAAA", .redeem "u" " AAAAAAAA AAAA",
    .advance 0 0, .advance 1 0, .advance 1 5, .advance 0 6]

theorem race_singleUse : ∃ s, run (step sampleEnv) {} race = some s ∧
    s.calls = [.done "u" "AAAAAAAAAAAA" false, .done "u" "AAAAAAAAAAAA" true] ∧
    generated sampleEnv race "u" "AAAAAAAAAAAA" = 1 ∧ redeemed s "u" "AAAAAAAAAAAA" ≤ 1 := by
  have hgenerated : generated sampleEnv race "u" "AAAAAAAAAAAA" = 1 := by decide +kernel
  refine exists_run_and (by decide +kernel) fun s hrun => ⟨hgenerated, ?_⟩
  exact hgenerated ▸ (singleUse_of_run sampleEnv hrun).1 "u" "AAAAAAAAAAAA"

end Minister.RecoveryCodes
