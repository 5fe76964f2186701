import Minister.Codec.LengthPrefix
import Minister.Relational.Table
import Minister.Transition.Pool
import Minister.Transition.Run

/-!
# The drift check of disclosed nullifiers

The first disclosure of a ledger entry to a client stores a salted digest of the value. Each later
one is compared with what is stored, and so is a first one that another call has overtaken. Calls
run side by side, one statement at a time, and a stored row is never written again.
-/

namespace Minister.DriftCache

open Relational Transition

structure NullifierRpCheck where
  id : String
  entryRef : String
  clientId : String
  salt : List UInt8
  check : List UInt8
  deriving DecidableEq, Repr

instance : Constrained NullifierRpCheck where
  clash a b := a.id == b.id || a.entryRef == b.entryRef && a.clientId == b.clientId

/-- The hash of the salt and the bytes of the value. -/
def digest (sha256 : List UInt8 → List UInt8) (salt : List UInt8) (nrp : String) : List UInt8 :=
  sha256 (salt ++ Codec.utf8 nrp)

/-- The arguments of a call. -/
structure Disclosure where
  entryRef : String
  clientId : String
  nrp : String
  deriving DecidableEq, Repr

inductive Outcome
  | returned
  /-- `NullifierDriftError`, with its message. -/
  | drift (message : String)
  /-- The database failed. -/
  | thrown
  deriving DecidableEq, Repr

def driftMessage (entryRef clientId detail : String) : String :=
  s!"nullifier drift detected for entryRef {entryRef} at client {clientId}: {detail}"

/-- Where a call stands. -/
inductive Call
  | finding (d : Disclosure)
  | creating (d : Disclosure)
  | findingWinner (d : Disclosure)
  | done (d : Disclosure) (outcome : Outcome)
  deriving DecidableEq, Repr

structure State where
  rows : List NullifierRpCheck := []
  calls : List Call := []

inductive Action
  | assertNullifierDriftConsistent (d : Disclosure)
  /-- The next statement of a call: the id and the salt of a new row. -/
  | advance (i : Nat) (id : String) (salt : List UInt8)
  /-- A statement of the call fails. -/
  | fail (i : Nat)

variable (sha256 : List UInt8 → List UInt8)

def findUnique (d : Disclosure) (rows : List NullifierRpCheck) : Option NullifierRpCheck :=
  rows.find? fun r => r.entryRef = d.entryRef ∧ r.clientId = d.clientId

/-- A stored row is compared with the value, and the call ends. -/
def compare (d : Disclosure) (row : NullifierRpCheck) (detail : String) : Call :=
  if row.check = digest sha256 row.salt d.nrp then .done d .returned
  else .done d (.drift (driftMessage d.entryRef d.clientId detail))

/-- The rows and the call after its next statement. -/
def Call.advance (rows : List NullifierRpCheck) (id : String) (salt : List UInt8) :
    Call → Option (List NullifierRpCheck × Call)
  | .finding d =>
    match findUnique d rows with
    | some row =>
      some (rows, compare sha256 d row "Signet returned a different value than first recorded")
    | none => some (rows, .creating d)
  | .creating d =>
    match create ⟨id, d.entryRef, d.clientId, salt, digest sha256 salt d.nrp⟩ rows with
    | .ok rows => some (rows, .done d .returned)
    | .error _ => some (rows, .findingWinner d)
  | .findingWinner d =>
    let detail := "concurrent first disclosure disagreed"
    match findUnique d rows with
    | some winner => some (rows, compare sha256 d winner detail)
    | none => some (rows, .done d (.drift (driftMessage d.entryRef d.clientId detail)))
  | .done _ _ => none

def Call.fail : Call → Option Call
  | .finding d | .creating d | .findingWinner d => some (.done d .thrown)
  | .done _ _ => none

def step (s : State) : Action → Option State
  | .assertNullifierDriftConsistent d => some { s with calls := s.calls ++ [.finding d] }
  | .advance i id salt => s.calls[i]?.bind fun c => (c.advance sha256 s.rows id salt).map
      fun (rows, c') => ⟨rows, s.calls.set i c'⟩
  | .fail i => s.calls[i]?.bind fun c => c.fail.map fun c' => { s with calls := s.calls.set i c' }

/-! ### The invariant -/

/-- The row is the one of the entry and the client, and holds the digest of the value. -/
def Records (d : Disclosure) (row : NullifierRpCheck) : Prop :=
  row.entryRef = d.entryRef ∧ row.clientId = d.clientId ∧
    row.check = digest sha256 row.salt d.nrp

/-- If the call has returned, the row of its entry and client holds the digest of its value. -/
def Call.Recorded (rows : List NullifierRpCheck) (c : Call) : Prop :=
  ∀ d, c = .done d .returned → ∃ row ∈ rows, Records sha256 d row

structure Inv (s : State) : Prop where
  consistent : Consistent s.rows
  recorded : ∀ c ∈ s.calls, c.Recorded sha256 s.rows

section Steps

variable {sha256} {s s' : State} {a : Action} {rows rows' : List NullifierRpCheck} {c c' : Call}
  {id : String} {salt : List UInt8} {d d' : Disclosure} {row row' : NullifierRpCheck}

theorem recorded_compare {detail : String} (h : findUnique d rows = some row) :
    (compare sha256 d row detail).Recorded sha256 rows := by
  intro d' hd'
  rw [compare] at hd'
  split_ifs at hd' with hcheck <;> cases hd'
  obtain ⟨hentry, hclient⟩ := of_decide_eq_true (List.find?_some h :)
  exact ⟨row, List.mem_of_find?_eq_some h, hentry, hclient, hcheck⟩

/-- A statement only adds to the rows, and keeps them apart; a call that returns is recorded. -/
theorem advance_spec (hcons : Consistent rows)
    (h : c.advance sha256 rows id salt = some (rows', c')) :
    Consistent rows' ∧ rows ⊆ rows' ∧ c'.Recorded sha256 rows' := by
  cases c with
  | done d outcome => cases h
  | finding d | findingWinner d =>
    simp only [Call.advance] at h
    split at h <;> cases h
    · next hfind => exact ⟨hcons, List.Subset.refl _, recorded_compare hfind⟩
    · exact ⟨hcons, List.Subset.refl _, nofun⟩
  | creating d =>
    simp only [Call.advance] at h
    split at h <;> cases h
    · next hcreate =>
      obtain ⟨hcons', rfl⟩ := create_eq_ok_iff.mp hcreate
      refine ⟨hcons', List.subset_append_left _ _, ?_⟩
      rintro d' ⟨⟩
      exact ⟨_, List.mem_append_right _ List.mem_cons_self, rfl, rfl, rfl⟩
    · exact ⟨hcons, List.Subset.refl _, nofun⟩

theorem Call.Recorded.mono (h : c.Recorded sha256 rows) (hsub : rows ⊆ rows') :
    c.Recorded sha256 rows' := by
  intro d hd
  obtain ⟨row, hrow, hrecords⟩ := h d hd
  exact ⟨row, hsub hrow, hrecords⟩

theorem inv_step (hs : Inv sha256 s) (h : step sha256 s a = some s') : Inv sha256 s' := by
  cases a with
  | assertNullifierDriftConsistent d =>
    cases h
    exact ⟨hs.consistent, forall_mem_concat hs.recorded nofun⟩
  | advance i id salt =>
    obtain ⟨c, -, hmap⟩ := Option.bind_eq_some_iff.mp h
    obtain ⟨⟨rows, c'⟩, hadvance, rfl⟩ := Option.map_eq_some_iff.mp hmap
    obtain ⟨hcons, hsub, hrecorded⟩ := advance_spec hs.consistent hadvance
    exact ⟨hcons, forall_mem_set (fun c hc => (hs.recorded c hc).mono hsub) hrecorded⟩
  | fail i =>
    obtain ⟨c, -, hmap⟩ := Option.bind_eq_some_iff.mp h
    obtain ⟨c', hfail, rfl⟩ := Option.map_eq_some_iff.mp hmap
    refine ⟨hs.consistent, forall_mem_set hs.recorded ?_⟩
    cases c with
    | done d outcome => cases hfail
    | finding d | creating d | findingWinner d =>
      cases hfail
      exact nofun

/-- One row cannot hold the digests of two values. -/
theorem nrp_eq_of_records (hinj : ∀ salt, Function.Injective (digest sha256 salt))
    (hcons : Consistent rows) (hrow : row ∈ rows) (hrow' : row' ∈ rows)
    (h : Records sha256 d row) (h' : Records sha256 d' row') (hentry : d.entryRef = d'.entryRef)
    (hclient : d.clientId = d'.clientId) : d.nrp = d'.nrp := by
  obtain ⟨hentry₁, hclient₁, hcheck⟩ := h
  obtain ⟨hentry₂, hclient₂, hcheck'⟩ := h'
  have hclash : clash row row' = true := by
    simp [clash, hentry₁, hentry₂, hclient₁, hclient₂, hentry, hclient]
  obtain rfl := hcons.eq_of_clash hrow hrow' hclash
  exact hinj row.salt (hcheck.symm.trans hcheck')

end Steps

/-- In every run of calls, from any table that keeps the unique key, the calls for an entry and a
client that return were all given the same value, if no two values have one salted digest. -/
theorem nrp_eq_of_returned {sha256 : List UInt8 → List UInt8}
    (hinj : ∀ salt, Function.Injective (digest sha256 salt)) {s₀ s : State} {as : List Action}
    (hrows : Consistent s₀.rows) (hcalls : s₀.calls = []) (h : run (step sha256) s₀ as = some s)
    {d d' : Disclosure} (hd : .done d .returned ∈ s.calls) (hd' : .done d' .returned ∈ s.calls)
    (hentry : d.entryRef = d'.entryRef) (hclient : d.clientId = d'.clientId) : d.nrp = d'.nrp := by
  have hinv : Inv sha256 s := run_invariant_always (Inv sha256) (fun _ _ _ => inv_step)
    ⟨hrows, by simp [hcalls]⟩ h
  obtain ⟨row, hrow, hrecords⟩ := hinv.recorded _ hd d rfl
  obtain ⟨row', hrow', hrecords'⟩ := hinv.recorded _ hd' d' rfl
  exact nrp_eq_of_records hinj hinv.consistent hrow hrow' hrecords hrecords' hentry hclient

/-- Three first disclosures race for the row; the second creates it, and the third disagrees. -/
def racingDisclosures : List Action :=
  [.assertNullifierDriftConsistent ⟨"e", "rp", "n"⟩,
    .assertNullifierDriftConsistent ⟨"e", "rp", "n"⟩,
    .assertNullifierDriftConsistent ⟨"e", "rp", "m"⟩, .advance 0 "r" [0], .advance 1 "r" [0],
    .advance 2 "r" [0], .advance 1 "r" [1], .advance 0 "r'" [2], .advance 2 "r''" [3],
    .advance 0 "" [], .advance 2 "" []]

theorem racingDisclosures_agree : ∃ s, run (step id) {} racingDisclosures = some s ∧
    s.calls = [.done ⟨"e", "rp", "n"⟩ .returned, .done ⟨"e", "rp", "n"⟩ .returned,
      .done ⟨"e", "rp", "m"⟩ (.drift (driftMessage "e" "rp"
        "concurrent first disclosure disagreed"))] ∧
    ∀ d d', .done d .returned ∈ s.calls → .done d' .returned ∈ s.calls →
      d.entryRef = d'.entryRef → d.clientId = d'.clientId → d.nrp = d'.nrp := by
  refine exists_run_and (by decide +kernel) fun s hrun d d' hd hd' => ?_
  refine nrp_eq_of_returned (fun salt n m h => ?_) Consistent.nil rfl hrun hd hd'
  exact Codec.utf8_injective (List.append_cancel_left h)

end Minister.DriftCache
