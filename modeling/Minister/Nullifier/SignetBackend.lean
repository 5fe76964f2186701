import Mathlib.Data.List.Infix
import Minister.Codec.Json
import Minister.Nullifier.Ledger

/-!
# Re-tagging on Signet

Merges re-tag entries of the ledger from one owner handle to another. The interim backend does it
by one update. The Signet backend (`lib/nullifier/signet-backend.ts`) sends a request for each
entry, skips those that are gone or somebody else's, and adds up the counts.
-/

namespace Minister.SignetBackend

open Codec Relational

structure Response where
  status : Nat
  json : Json

def asRecord : Json → Except ServerError (List (String × Json))
  | .obj body => .ok body
  | .arr _ => .ok []
  | _ => .error (.thrown "nullifier: signet returned a non-object body")

def isOwnerMismatchForbidden (json : Json) : Bool :=
  match (asRecord json).toOption.bind (member · "message") with
  | some (.str message) => "owned by neither".toList <:+: message.toList.map Char.toLower
  | _ => false

/-- The count in a body; `none` is one that is not finite. -/
def reassignedCount (json : Json) : Except ServerError (Option Rat) := do
  match member (← asRecord json) "reassigned" with
  | some (.num (.fin n)) => return some n
  | some (.num _) => return none
  | _ => throw (.thrown "nullifier: signet /dedup/reassign response lacks reassigned count")

def Response.Moved (r : Response) (n : Nat) : Prop :=
  r.status = 200 ∧ reassignedCount r.json = .ok (some n)

def Response.Refused (r : Response) : Prop :=
  r.status = 404 ∨ r.status = 403 ∧ isOwnerMismatchForbidden r.json = true

/-- The entries `refs` of the handle `src` go to `dst`. -/
def reassigned (refs : List String) (src dst : String) (t : List NullifierEntry) :
    List NullifierEntry :=
  mapWhere (isReassigned refs src) (fun e => { e with ownerHandle := dst }) t

/-- A Signet with the pinned key. A request moves its entry if that belongs to the source handle,
and is refused if not; whatever else the answers depend on is in the state. -/
structure Signet (σ : Type) where
  entries : σ → List NullifierEntry
  ensurePinVerified : σ → σ × Except ServerError Unit
  reassign (ref src dst : String) : σ → σ × Response
  pinned : ∀ s, ∃ s', ensurePinVerified s = (s', .ok ()) ∧ entries s' = entries s
  moves : ∀ ref src dst s, entries (reassign ref src dst s).1 = reassigned [ref] src dst (entries s)
  answers : ∀ ref src dst s, if findMany (isReassigned [ref] src) (entries s) = []
    then (reassign ref src dst s).2.Refused
    else (reassign ref src dst s).2.Moved (findMany (isReassigned [ref] src) (entries s)).length

variable {σ : Type} (signet : Signet σ)

/-- The loop: the references still to send, and the count so far. -/
def reassignEach (src dst : String) :
    List String → Option Rat → σ → σ × Except ServerError (Option Rat)
  | [], moved, s => (s, .ok moved)
  | ref :: refs, moved, s =>
    let (s, res) := signet.reassign ref src dst s
    if res.status = 404 then reassignEach src dst refs moved s
    else if res.status = 403 then
      if isOwnerMismatchForbidden res.json then reassignEach src dst refs moved s
      else (s, .error (.thrown ("nullifier: signet /dedup/reassign denied authorization (403) — " ++
        "Minister's client identity is not authorized for the PRF/dedup surface (fail closed)")))
    else if res.status ≠ 200 then
      let status := res.status
      (s, .error (.thrown s!"nullifier: signet /dedup/reassign returned {status}"))
    else
      match reassignedCount res.json with
      | .error e => (s, .error e)
      | .ok n => reassignEach src dst refs (Option.map₂ (· + ·) moved n) s

def reassignOwner (entryRefs : List String) (fromOwnerHandle toOwnerHandle : String) (s : σ) :
    σ × Except ServerError (Option Rat) :=
  if entryRefs.length = 0 then (s, .ok (some 0))
  else if fromOwnerHandle = toOwnerHandle then (s, .ok (some 0))
  else
    match signet.ensurePinVerified s with
    | (s, .error e) => (s, .error e)
    | (s, .ok ()) => reassignEach signet fromOwnerHandle toOwnerHandle entryRefs (some 0) s

section Requests

variable {ref src dst : String} (refs : List String) (s : σ) (t : List NullifierEntry) (moved : Rat)

/-- An entry that has moved is not moved again. -/
theorem reassigned_cons (hne : src ≠ dst) :
    reassigned (ref :: refs) src dst t = reassigned refs src dst (reassigned [ref] src dst t) := by
  rw [reassigned, reassigned, reassigned, mapWhere_mapWhere]
  refine List.map_congr_left fun e _ => ?_
  by_cases hsrc : e.ownerHandle = src
  · by_cases href : e.id = ref <;> simp [isReassigned, hsrc, href, hne.symm]
  · simp [isReassigned, hsrc]

theorem length_isReassigned_cons (hne : src ≠ dst) :
    (findMany (isReassigned (ref :: refs) src) t).length =
      (findMany (isReassigned [ref] src) t).length +
        (findMany (isReassigned refs src) (reassigned [ref] src dst t)).length := by
  induction t with
  | nil => rfl
  | cons e t ih =>
    simp only [reassigned, mapWhere, findMany, List.map_cons, List.filter_cons] at ih ⊢
    by_cases hsrc : e.ownerHandle = src
    · by_cases href : e.id = ref
      · simp [isReassigned, hsrc, href, hne.symm] at ih ⊢
        omega
      · by_cases hrefs : e.id ∈ refs <;> simp [isReassigned, hsrc, href, hrefs] at ih ⊢ <;> omega
    · simpa [isReassigned, hsrc] using ih

/-- One request adds what it moved, which is nothing if it is refused. -/
theorem reassignEach_cons :
    reassignEach signet src dst (ref :: refs) (some moved) s =
      reassignEach signet src dst refs
        (some (moved + (findMany (isReassigned [ref] src) (signet.entries s)).length))
        (signet.reassign ref src dst s).1 := by
  have hanswer := signet.answers ref src dst s
  rw [reassignEach]
  split_ifs at hanswer with hnone
  · rcases hanswer with hgone | ⟨hforbidden, hmismatch⟩
    · simp [hgone, hnone]
    · simp [hforbidden, hmismatch, hnone]
  · simp [hanswer.1, hanswer.2]

theorem reassignEach_eq (hne : src ≠ dst) :
    (reassignEach signet src dst refs (some moved) s).2 =
        .ok (some (moved + (findMany (isReassigned refs src) (signet.entries s)).length)) ∧
      signet.entries (reassignEach signet src dst refs (some moved) s).1 =
        reassigned refs src dst (signet.entries s) := by
  induction refs generalizing moved s with
  | nil =>
    have hnone : isReassigned [] src = fun _ => false := by simp [isReassigned, funext_iff]
    simp [reassignEach, reassigned, hnone, findMany, mapWhere]
  | cons ref refs ih =>
    rw [reassignEach_cons, (ih _ _).1, (ih _ _).2, signet.moves, ← reassigned_cons refs _ hne,
      length_isReassigned_cons refs _ hne, Nat.cast_add, add_assoc]
    exact ⟨rfl, rfl⟩

end Requests

/-- The Signet backend leaves the owners and gives the count that the interim backend does. -/
theorem reassignOwner_eq_interim (refs : List String) (src dst : String) (s : σ) :
    (reassignOwner signet refs src dst s).2 =
        .ok (some (Minister.reassignOwner refs src dst (signet.entries s)).2) ∧
      signet.entries (reassignOwner signet refs src dst s).1 =
        (Minister.reassignOwner refs src dst (signet.entries s)).1 := by
  unfold reassignOwner Minister.reassignOwner
  split_ifs with hnil hsame
  · exact ⟨rfl, rfl⟩
  · exact ⟨rfl, rfl⟩
  · obtain ⟨s', hpin, hentries⟩ := signet.pinned s
    have hrefs := reassignEach_eq signet refs s' 0 hsame
    rw [zero_add, hentries] at hrefs
    rw [hpin]
    exact hrefs

def ownerMismatch : Json := .obj [("message", .str "Entry is owned by neither handle")]

theorem isOwnerMismatchForbidden_ownerMismatch : isOwnerMismatchForbidden ownerMismatch = true := by
  decide +kernel

/-- A table as a Signet: 404 for an entry that is not there, 403 for one of another handle. -/
def tableSignet : Signet (List NullifierEntry) where
  entries t := t
  ensurePinVerified t := (t, .ok ())
  reassign ref src dst t := (reassigned [ref] src dst t,
    if findMany (isReassigned [ref] src) t = [] then
      if t.any (·.id = ref) then ⟨403, ownerMismatch⟩ else ⟨404, .null⟩
    else ⟨200, .obj [("reassigned", .num (.fin (findMany (isReassigned [ref] src) t).length))]⟩)
  pinned t := ⟨t, rfl, rfl⟩
  moves _ _ _ _ := rfl
  answers ref src dst t := by
    dsimp only
    split_ifs with hnone hany
    · exact .inr ⟨rfl, isOwnerMismatchForbidden_ownerMismatch⟩
    · exact .inl rfl
    · exact ⟨rfl, by simp [reassignedCount, asRecord, member, bind, Except.bind, pure, Except.pure]⟩

def twoOwners : List NullifierEntry :=
  [⟨"e", [0], "h", "email-exact"⟩, ⟨"f", [1], "l", "email-exact"⟩]

/-- An entry named twice moves once; one that is gone and a foreign one are skipped. -/
theorem tableSignet_reassigns :
    (reassignOwner tableSignet ["e", "f", "g", "e"] "h" "k" twoOwners).2 = .ok (some 1) := by
  have hcount : (Minister.reassignOwner ["e", "f", "g", "e"] "h" "k" twoOwners).2 = 1 := by decide
  obtain ⟨hsame, -⟩ := reassignOwner_eq_interim tableSignet ["e", "f", "g", "e"] "h" "k" twoOwners
  simp only [tableSignet] at hsame
  rw [hcount, Nat.cast_one] at hsame
  exact hsame

end Minister.SignetBackend
