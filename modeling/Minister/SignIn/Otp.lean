import Minister.Codec.LengthPrefix
import Minister.Schema
import Minister.Transition.Pool
import Minister.Transition.Run

/-!
# Sign-in codes

A sign-in code is mailed to an address and stored as a keyed hash with a count of wrong
guesses. A guess reads the row, compares the hashes, and then either deletes the codes of the
address and succeeds, or counts the miss and deletes the codes once too many are counted. Each
of these is a statement of its own, and the statements of any number of guesses and of the
transactions that store new codes interleave.

The state keeps a record of the comparisons in the order in which they were made. No function
of the repository reads it.
-/

namespace Minister.SignIn

open Relational Transition Codec

/-! ### Codes -/

/-- `OTP_TTL_MS`. -/
def otpTtlMs : Int := 60 * 60 * 1000

/-- `OTP_MAX_ATTEMPTS`. -/
def otpMaxAttempts : Nat := 5

/-- `OTP_LENGTH`. -/
def otpLength : Nat := 8

/-- `OTP_ALPHABET`. -/
def otpAlphabet : List Char := "23456789ABCDEFGHJKMNPQRSTUVWXYZ".toList

/-- What `toUpperCase` followed by the removal of all but `[0-9A-Z]` leaves of a character.
Besides the letters and digits, these are the characters whose upper case holds an ASCII
letter: the dotless i, the long s, the sharp s, the ligatures, and letters with a mark that
has no composed capital. -/
def keptUpper (c : Char) : List Char :=
  if c.isDigit || c.isUpper then [c]
  else if c.isLower then [c.toUpper]
  else
    match c.toNat with
    | 0xDF => ['S', 'S']
    | 0x131 => ['I']
    | 0x149 => ['N']
    | 0x17F => ['S']
    | 0x1F0 => ['J']
    | 0x1E96 => ['H']
    | 0x1E97 => ['T']
    | 0x1E98 => ['W']
    | 0x1E99 => ['Y']
    | 0x1E9A => ['A']
    | 0xFB00 => ['F', 'F']
    | 0xFB01 => ['F', 'I']
    | 0xFB02 => ['F', 'L']
    | 0xFB03 => ['F', 'F', 'I']
    | 0xFB04 => ['F', 'F', 'L']
    | 0xFB05 => ['S', 'T']
    | 0xFB06 => ['S', 'T']
    | _ => []

def normalizeOtp (input : String) : String := String.ofList (input.toList.flatMap keptUpper)

example : normalizeOtp "abcd-2345 " = "ABCD2345" := by decide +kernel

/-- A code from the indices that `randomInt` returns. -/
def generateCode (draws : Fin otpLength → Fin otpAlphabet.length) : String :=
  String.ofList ((List.finRange otpLength).map fun i => otpAlphabet.get (draws i))

/-- The HMAC under the secret of the app, as a hex digest. -/
structure Env where
  hmac : String → String

def hashCode (env : Env) (code : String) : String := env.hmac (normalizeOtp code)

/-- Buffers of different lengths differ; `timingSafeEqual` compares buffers of one length. -/
def hashesEqual (a b : String) : Bool :=
  (utf8 a).length = (utf8 b).length ∧ utf8 a = utf8 b

structure SignInOtp where
  id : String
  identifier : String
  codeHash : String
  expires : Timestamp
  attempts : Nat
  createdAt : Timestamp
  deriving DecidableEq, Repr

instance : Constrained SignInOtp where
  clash a b := a.id == b.id

/-- The newest codes of an address. Where several are equally new, the database returns any. -/
def latest (identifier : String) (codes : List SignInOtp) : List SignInOtp :=
  let rows := findMany (fun r => r.identifier = identifier) codes
  rows.filter fun r => rows.all fun r' => r'.createdAt ≤ r.createdAt

/-! ### Calls -/

/-- A call of `createSignInOtp`. Its deletion and its insertion commit together. -/
inductive MintCall
  | deleting (identifier codeHash : String) (expires : Timestamp)
  | creating (identifier codeHash : String) (expires createdAt : Timestamp)
      (deleted : List String)
  | minted (id : String)
  | aborted
  deriving DecidableEq, Repr

inductive RefusalReason
  | noCode
  | expired
  | mismatch
  | lockedOut
  deriving DecidableEq, Repr

/-- A call of `verifySignInOtp`, by what it does next. -/
inductive VerifyCall
  /-- Find the newest code of the address. -/
  | reading (identifier submitted : String)
  /-- Compare the guess with the code that was found. -/
  | judging (identifier submitted : String) (row : SignInOtp)
  /-- Delete the codes of the address and refuse. -/
  | burning (identifier codeId : String) (reason : RefusalReason)
  /-- The guess is right: delete the codes of the address and succeed. -/
  | consuming (identifier codeId : String)
  /-- The guess is wrong: count it. -/
  | bumping (identifier codeId : String)
  /-- Read the count again. -/
  | rereading (identifier codeId : String)
  | succeeded (codeId : String)
  | refused (reason : RefusalReason)
  deriving DecidableEq, Repr

/-- The code that an unfinished call has read. -/
def VerifyCall.busy : VerifyCall → Option String
  | .judging _ _ row => some row.id
  | .burning _ codeId _ => some codeId
  | .consuming _ codeId => some codeId
  | .bumping _ codeId => some codeId
  | .rereading _ codeId => some codeId
  | _ => none

/-- The address whose codes a call deletes or counts. -/
def VerifyCall.address : VerifyCall → Option String
  | .reading identifier _ => some identifier
  | .judging identifier _ _ => some identifier
  | .burning identifier _ _ => some identifier
  | .consuming identifier _ => some identifier
  | .bumping identifier _ => some identifier
  | .rereading identifier _ => some identifier
  | .succeeded _ => none
  | .refused _ => none

/-- A comparison of a guess with a code. -/
structure Guess where
  call : Nat
  codeId : String
  matched : Bool
  deriving DecidableEq, Repr

structure State where
  now : Timestamp := 0
  codes : List SignInOtp := []
  mints : List MintCall := []
  calls : List VerifyCall := []
  /-- The comparisons so far, in order. -/
  judged : List Guess := []
  /-- The ids that were given to codes so far. -/
  drawn : List String := []
  deriving DecidableEq, Repr

/-- What a comparison finds, if the code has not expired. -/
def comparison (env : Env) (now : Timestamp) : VerifyCall → Option (String × Bool)
  | .judging _ submitted row =>
    if row.expires ≤ now then none
    else some (row.id, hashesEqual row.codeHash (hashCode env submitted))
  | _ => none

/-- What a call makes of the row it has read. -/
def judge (env : Env) (now : Timestamp) (identifier submitted : String) (row : SignInOtp) :
    VerifyCall :=
  if row.expires ≤ now then .burning identifier row.id .expired
  else if hashesEqual row.codeHash (hashCode env submitted) then .consuming identifier row.id
  else .bumping identifier row.id

/-- Whether the guarded increment counts a miss of this code. -/
def countsMiss (codeId : String) (r : SignInOtp) : Bool :=
  r.id = codeId ∧ r.attempts < otpMaxAttempts

/-- The next statement of a guess, or its comparison. `pick` is the row that the database
returns where several are the newest. -/
def callStep (env : Env) (now : Timestamp) (codes : List SignInOtp) (pick : Nat) :
    VerifyCall → Option (List SignInOtp × VerifyCall)
  | .reading identifier submitted =>
    if findMany (fun r => r.identifier = identifier) codes = [] then
      some (codes, .refused .noCode)
    else
      (latest identifier codes)[pick]?.map fun row => (codes, .judging identifier submitted row)
  | .judging identifier submitted row => some (codes, judge env now identifier submitted row)
  | .burning identifier _ reason =>
    some (deleteMany (fun r => r.identifier = identifier) codes, .refused reason)
  | .consuming identifier codeId =>
    some (deleteMany (fun r => r.identifier = identifier) codes, .succeeded codeId)
  | .bumping identifier codeId =>
    if codes.any (countsMiss codeId) then
      some (mapWhere (countsMiss codeId) (fun r => { r with attempts := r.attempts + 1 }) codes,
        .rereading identifier codeId)
    else some (codes, .burning identifier codeId .lockedOut)
  | .rereading identifier codeId =>
    match codes.find? fun r => r.id = codeId with
    | none => some (codes, .burning identifier codeId .lockedOut)
    | some after =>
      if otpMaxAttempts ≤ after.attempts then
        some (codes, .burning identifier codeId .lockedOut)
      else some (codes, .refused .mismatch)
  | .succeeded _ => none
  | .refused _ => none

inductive Action
  /-- Time passes. -/
  | tick (ms : Nat)
  /-- `createSignInOtp` is called. -/
  | mint (identifier : String) (draws : Fin otpLength → Fin otpAlphabet.length)
  /-- The transaction of a mint finds the codes it deletes. -/
  | mintDelete (k : Nat)
  /-- The transaction of a mint commits, with a new id for the code. -/
  | mintCommit (k : Nat) (id : String)
  /-- The transaction of a mint is lost. -/
  | mintAbort (k : Nat)
  /-- `verifySignInOtp` is called. -/
  | verify (identifier submitted : String)
  /-- A guess takes its next step. -/
  | advance (i pick : Nat)

/-- The codes after a mint. -/
def minted (codes : List SignInOtp) (deleted : List String) (row : SignInOtp) : List SignInOtp :=
  deleteMany (fun r => r.id ∈ deleted) codes ++ [row]

def State.setMint (s : State) (k : Nat) (c : MintCall) : State :=
  { s with mints := s.mints.set k c }

def step (env : Env) (s : State) : Action → Option State
  | .tick ms => some { s with now := s.now + ms }
  | .mint identifier draws =>
    let codeHash := hashCode env (generateCode draws)
    some { s with mints := s.mints ++ [.deleting identifier codeHash (s.now + otpTtlMs)] }
  | .mintDelete k =>
    match s.mints[k]? with
    | some (.deleting identifier codeHash expires) =>
      let deleted := (findMany (fun r => r.identifier = identifier) s.codes).map (·.id)
      some (s.setMint k (.creating identifier codeHash expires s.now deleted))
    | _ => none
  | .mintCommit k id =>
    match s.mints[k]? with
    | some (.creating identifier codeHash expires createdAt deleted) =>
      if id ∈ s.drawn then none
      else some
        { s with
          codes := minted s.codes deleted ⟨id, identifier, codeHash, expires, 0, createdAt⟩
          mints := s.mints.set k (.minted id)
          drawn := s.drawn ++ [id] }
    | _ => none
  | .mintAbort k =>
    match s.mints[k]? with
    | some (.deleting _ _ _) => some (s.setMint k .aborted)
    | some (.creating _ _ _ _ _) => some (s.setMint k .aborted)
    | _ => none
  | .verify identifier submitted =>
    some { s with calls := s.calls ++ [.reading identifier submitted] }
  | .advance i pick => do
    let c ← s.calls[i]?
    let (codes, c') ← callStep env s.now s.codes pick c
    let guesses := (comparison env s.now c).toList.map fun g => ⟨i, g.1, g.2⟩
    return { s with
      codes := codes
      calls := s.calls.set i c'
      judged := s.judged ++ guesses }

/-! ### What a step can do -/

/-- A call moves on, the codes and the record becoming these. -/
def State.moveCall (s : State) (i : Nat) (c : VerifyCall) (codes : List SignInOtp)
    (judged : List Guess) : State :=
  { s with codes := codes, calls := s.calls.set i c, judged := judged }

/-- What a step can do to the codes, the guesses and the record. -/
inductive Effect (env : Env) (s : State) (a : Action) : State → Prop
  /-- Time, and a mint before its commit. -/
  | frame {s' : State} (hcodes : s'.codes = s.codes) (hcalls : s'.calls = s.calls)
      (hjudged : s'.judged = s.judged) (hdrawn : s'.drawn = s.drawn) : Effect env s a s'
  | commit (deleted : List String) (row : SignInOtp) (hzero : row.attempts = 0)
      (hfresh : row.id ∉ s.drawn) {s' : State} (hcodes : s'.codes = minted s.codes deleted row)
      (hcalls : s'.calls = s.calls) (hjudged : s'.judged = s.judged)
      (hdrawn : s'.drawn = s.drawn ++ [row.id]) : Effect env s a s'
  | verify (identifier submitted : String) :
      Effect env s a { s with calls := s.calls ++ [.reading identifier submitted] }
  | noCode (i : Nat) (identifier submitted : String)
      (hcall : s.calls[i]? = some (.reading identifier submitted)) :
      Effect env s a (s.moveCall i (.refused .noCode) s.codes s.judged)
  | read (i pick : Nat) (haction : a = .advance i pick) (identifier submitted : String)
      (hcall : s.calls[i]? = some (.reading identifier submitted)) (row : SignInOtp)
      (hrow : (latest identifier s.codes)[pick]? = some row) :
      Effect env s a (s.moveCall i (.judging identifier submitted row) s.codes s.judged)
  | expire (i : Nat) (identifier submitted : String) (row : SignInOtp)
      (hcall : s.calls[i]? = some (.judging identifier submitted row)) :
      Effect env s a (s.moveCall i (.burning identifier row.id .expired) s.codes s.judged)
  | hit (i : Nat) (identifier submitted : String) (row : SignInOtp)
      (hcall : s.calls[i]? = some (.judging identifier submitted row)) :
      Effect env s a (s.moveCall i (.consuming identifier row.id) s.codes
        (s.judged ++ [⟨i, row.id, true⟩]))
  | miss (i : Nat) (identifier submitted : String) (row : SignInOtp)
      (hcall : s.calls[i]? = some (.judging identifier submitted row)) :
      Effect env s a (s.moveCall i (.bumping identifier row.id) s.codes
        (s.judged ++ [⟨i, row.id, false⟩]))
  | burn (i : Nat) (identifier codeId : String) (reason : RefusalReason)
      (hcall : s.calls[i]? = some (.burning identifier codeId reason)) :
      Effect env s a (s.moveCall i (.refused reason)
        (deleteMany (fun r => r.identifier = identifier) s.codes) s.judged)
  | consume (i pick : Nat) (haction : a = .advance i pick) (identifier codeId : String)
      (hcall : s.calls[i]? = some (.consuming identifier codeId)) :
      Effect env s a (s.moveCall i (.succeeded codeId)
        (deleteMany (fun r => r.identifier = identifier) s.codes) s.judged)
  | bump (i : Nat) (identifier codeId : String)
      (hcall : s.calls[i]? = some (.bumping identifier codeId)) :
      Effect env s a (s.moveCall i (.rereading identifier codeId)
        (mapWhere (countsMiss codeId) (fun r => { r with attempts := r.attempts + 1 }) s.codes)
        s.judged)
  | lockOut (i : Nat) (identifier codeId : String) (c : VerifyCall)
      (hcall : s.calls[i]? = some c)
      (hc : c = .bumping identifier codeId ∨ c = .rereading identifier codeId) :
      Effect env s a (s.moveCall i (.burning identifier codeId .lockedOut) s.codes s.judged)
  | mismatch (i : Nat) (identifier codeId : String)
      (hcall : s.calls[i]? = some (.rereading identifier codeId)) (after : SignInOtp)
      (hafter : after ∈ s.codes) (hid : after.id = codeId)
      (hbelow : after.attempts < otpMaxAttempts) :
      Effect env s a (s.moveCall i (.refused .mismatch) s.codes s.judged)

section Effects

variable {env : Env} {s s' : State} {a : Action}

theorem effect_of_callStep {i pick : Nat} {c c' : VerifyCall} {codes : List SignInOtp}
    (hcall : s.calls[i]? = some c) (h : callStep env s.now s.codes pick c = some (codes, c')) :
    Effect env s (.advance i pick) (s.moveCall i c' codes
      (s.judged ++ (comparison env s.now c).toList.map fun g => ⟨i, g.1, g.2⟩)) := by
  -- only a comparison is recorded
  have hsame (hnone : comparison env s.now c = none) :
      s.judged ++ (comparison env s.now c).toList.map (fun g => (⟨i, g.1, g.2⟩ : Guess)) =
        s.judged := by
    rw [hnone, Option.toList_none, List.map_nil, List.append_nil]
  cases c with
  | reading identifier submitted =>
    rw [hsame rfl]
    simp only [callStep] at h
    split_ifs at h
    · cases h
      exact .noCode i identifier submitted hcall
    · obtain ⟨row, hrow, hout⟩ := Option.map_eq_some_iff.mp h
      cases hout
      exact .read i pick rfl identifier submitted hcall row hrow
  | judging identifier submitted row =>
    cases h
    unfold judge
    by_cases hexpired : row.expires ≤ s.now
    · rw [hsame (if_pos hexpired), if_pos hexpired]
      exact .expire i identifier submitted row hcall
    · simp only [comparison, if_neg hexpired]
      by_cases hequal : hashesEqual row.codeHash (hashCode env submitted) = true
      · rw [hequal, if_pos rfl]
        exact .hit i identifier submitted row hcall
      · rw [Bool.not_eq_true _ |>.mp hequal, if_neg Bool.false_ne_true]
        exact .miss i identifier submitted row hcall
  | burning identifier codeId reason =>
    cases h
    rw [hsame rfl]
    exact .burn i identifier codeId reason hcall
  | consuming identifier codeId =>
    cases h
    rw [hsame rfl]
    exact .consume i pick rfl identifier codeId hcall
  | bumping identifier codeId =>
    rw [hsame rfl]
    simp only [callStep] at h
    split_ifs at h <;> cases h
    · exact .bump i identifier codeId hcall
    · exact .lockOut i identifier codeId _ hcall (.inl rfl)
  | rereading identifier codeId =>
    rw [hsame rfl]
    simp only [callStep] at h
    split at h
    · cases h
      exact .lockOut i identifier codeId _ hcall (.inr rfl)
    · rename_i after hfind
      split_ifs at h with hceiling <;> cases h
      · exact .lockOut i identifier codeId _ hcall (.inr rfl)
      · have hmatch := List.find?_some hfind
        exact .mismatch i identifier codeId hcall after (List.mem_of_find?_eq_some hfind)
          (of_decide_eq_true hmatch) (not_le.mp hceiling)
  | succeeded codeId => cases h
  | refused reason => cases h

theorem effect_of_step (h : step env s a = some s') : Effect env s a s' := by
  cases a with
  | tick | mint =>
    cases h
    exact .frame rfl rfl rfl rfl
  | mintDelete k =>
    simp only [step] at h
    split at h <;> cases h
    exact .frame rfl rfl rfl rfl
  | mintCommit k id =>
    simp only [step] at h
    split at h
    · rename_i identifier codeHash expires createdAt deleted hcall
      split_ifs at h with hdrawn
      cases h
      exact .commit deleted ⟨id, identifier, codeHash, expires, 0, createdAt⟩ rfl hdrawn rfl rfl
        rfl rfl
    · cases h
  | mintAbort k =>
    simp only [step] at h
    split at h <;> cases h <;> exact .frame rfl rfl rfl rfl
  | verify identifier submitted =>
    cases h
    exact .verify identifier submitted
  | advance i pick =>
    simp only [step, Option.bind_eq_bind, Option.bind_eq_some_iff] at h
    obtain ⟨c, hcall, ⟨codes, c'⟩, hnext, hs'⟩ := h
    cases hs'
    exact effect_of_callStep hcall hnext

end Effects

end Minister.SignIn
