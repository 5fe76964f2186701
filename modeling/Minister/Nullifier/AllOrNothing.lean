import Minister.Nullifier.DedupSafety

/-!
# A batch that throws leaves nothing behind

`issueBadgesAndComplete` undoes what it has done before it throws: `compensateBatch`
deletes the badges the batch has inserted and releases the entries it has registered.
Here any statement, ledger call or signature of a batch may throw, and `startWizard`,
which deletes the unfinished sessions of an account and plugin, runs beside it.

Three of the batch's statements are outside every `try`: those of `ensureDedupHandle`,
the first registration of an anchor, and the update that completes the session. What
they throw is not compensated, so a batch that throws there keeps the badges and the
entries it has. The last of them throws whenever the session is gone, and a second
`startWizard` of the same account deletes it.
-/

namespace Minister.Wizard

open Relational Transition Issuance

/-! ### Failures and other wizards -/

/-- Where a `startWizard` stands. -/
inductive Start
  | sweeping (userId : UserId) (pluginId : String)
  | dropping (userId : UserId) (pluginId : String)
  | creating (userId : UserId) (pluginId : String)
  /-- The id of the new session, unless the insert threw. -/
  | returned (sessionId : Option String)

/-- The batches and deletions on the server, the sessions with a `completedAt`, and the
wizards being started. -/
structure State where
  server : Issuance.State
  completed : List String := []
  starts : List Start := []

inductive Action
  | server (a : Issuance.Action)
  /-- What the call is about to do throws. -/
  | fails (call : Nat) (error : String)
  | startWizard (userId : UserId) (pluginId : String)
  /-- `sweepExpiredWizardSessions`, given the sessions whose `expiresAt` has passed; a
  sweep that throws deletes none. -/
  | sweep (start : Nat) (expired : List String)
  | dropUnfinished (start : Nat)
  | createSession (start : Nat) (sessionId : String) (pendingToken : Option String)

/-- The statements outside every `try`. -/
def exposed : Call → Option Batch
  | .readingHandle b _ _ | .claimingHandle b _ _ | .rereadingHandle b _ _
  | .registering b _ _ _ | .completing b => some b
  | _ => none

/-- What a call does when its next statement throws. The mint has its own action, and
the statements of `compensateBatch` do not throw here. -/
def failed (error : String) : Call → Option Call
  | .readingHandle _ _ _ | .claimingHandle _ _ _ | .rereadingHandle _ _ _
  | .registering _ _ _ _ | .completing _ => some (.returned (some error))
  | .probing b _ _ _ | .reregistering b _ _ _ _ _ | .repointing b _ _ _ _
  | .reprobing b _ _ _ _ => some (.compensating b error)
  | _ => none

/-- The session that a step of the server completes. -/
def ended (s : Issuance.State) : Issuance.Action → List String
  | .scrub i =>
    match s.calls[i]? with
    | some (.scrubbing b _) => (findMany (·.id = b.sessionId) s.db.wizardSession).map (·.id)
    | _ => []
  | .complete i =>
    match s.calls[i]? with
    | some (.completing b) => (findMany (·.id = b.sessionId) s.db.wizardSession).map (·.id)
    | _ => []
  | _ => []

namespace State

variable (s : State)

def setStart (i : Nat) (c : Start) : State := { s with starts := s.starts.set i c }

def setSessions (t : List WizardSession) : State :=
  { s with server := { s.server with db := { s.server.db with wizardSession := t } } }

def fails (i : Nat) (error : String) : Option State :=
  match s.server.calls[i]?.bind (failed error) with
  | some c => some { s with server := s.server.setCall i c }
  | none => none

def sweep (i : Nat) (expired : List String) : Option State :=
  match s.starts[i]? with
  | some (.sweeping userId pluginId) =>
    some ((s.setSessions (deleteMany (fun w => w.id ∉ s.completed ∧ w.id ∈ expired)
      s.server.db.wizardSession)).setStart i (.dropping userId pluginId))
  | _ => none

def dropUnfinished (i : Nat) : Option State :=
  match s.starts[i]? with
  | some (.dropping userId pluginId) =>
    some ((s.setSessions (deleteMany
      (fun w => w.userId = userId ∧ w.pluginId = pluginId ∧ w.id ∉ s.completed)
      s.server.db.wizardSession)).setStart i (.creating userId pluginId))
  | _ => none

def createSession (i : Nat) (sessionId : String) (pendingToken : Option String) :
    Option State :=
  match s.starts[i]? with
  | some (.creating userId pluginId) =>
    match create ⟨sessionId, userId, pluginId, pendingToken⟩ s.server.db.wizardSession with
    | .ok t => some ((s.setSessions t).setStart i (.returned (some sessionId)))
    | .error _ => some (s.setStart i (.returned none))
  | _ => none

end State

def step (env : MacEnv) (s : State) : Action → Option State
  | .server a => (Issuance.step env s.server a).map fun t =>
    { s with server := t, completed := ended s.server a ++ s.completed }
  | .fails i error => s.fails i error
  | .startWizard userId pluginId =>
    some { s with starts := s.starts ++ [.sweeping userId pluginId] }
  | .sweep i expired => s.sweep i expired
  | .dropUnfinished i => s.dropUnfinished i
  | .createSession i sessionId pendingToken => s.createSession i sessionId pendingToken

/-! ### What is left of a batch -/

/-- What a batch in progress has done so far. -/
def batch? : Call → Option Batch
  | .next b | .readingHandle b _ _ | .claimingHandle b _ _ | .rereadingHandle b _ _
  | .registering b _ _ _ | .minting b _ _ | .probing b _ _ _ | .reregistering b _ _ _ _ _
  | .repointing b _ _ _ _ | .reprobing b _ _ _ _ | .compensating b _ | .releasing b _ _
  | .scrubbing b _ | .completing b => some b
  | _ => none

/-- The batch of the call throws in this step. -/
def Throws (s s' : Issuance.State) (i : Nat) (b : Batch) : Prop :=
  s.calls[i]?.bind batch? = some b ∧ ∃ error, s'.calls[i]? = some (.returned (some error))

/-- No badge of the batch remains, and no entry it registered, unless some other badge
refers to it. -/
structure Undone (s : Issuance.State) (b : Batch) : Prop where
  badges : ∀ x ∈ s.db.badge, x.id ∉ b.createdIds
  entries : ∀ r ∈ b.freshRegs, ∀ e ∈ s.db.nullifierEntry, e.id = r.1 →
    ∃ x ∈ s.db.badge, x.nullifierRef = some r.1

/-! ### When batches are undone -/

/-- The batch that throws outside every `try` when the server takes the step. -/
def uncaught (env : MacEnv) (s : Issuance.State) : Issuance.Action → Option Batch
  | .claimHandle i candidate =>
    match s.calls[i]? with
    | some (.claimingHandle b _ _) =>
      match updateMany (isUnclaimed b.userId) (fun u => { u with dedupHandle := some candidate })
        s.db.user with
      | .ok _ => none
      | .error _ => some b
    | _ => none
  | .rereadHandle i =>
    match s.calls[i]? with
    | some (.rereadingHandle b _ _) =>
      if handleOf b.userId s.db.user = none then some b else none
    | _ => none
  | .registerDedup i freshId =>
    match s.calls[i]? with
    | some (.registering b badge anchor handle) =>
      match register env anchor badge.type handle freshId s.db.nullifierEntry with
      | .ok _ => none
      | .error _ => some b
    | _ => none
  | .complete i =>
    match s.calls[i]? with
    | some (.completing b) =>
      match update (fun w => w.id = b.sessionId) (fun w => { w with pendingToken := none })
        s.db.wizardSession with
      | .ok _ => none
      | .error _ => some b
    | _ => none
  | _ => none

def State.uncaught (env : MacEnv) (s : State) : Action → Option Batch
  | .server a => Wizard.uncaught env s.server a
  | .fails i _ => s.server.calls[i]?.bind exposed
  | _ => none

/-- A compensation that has deleted its badges, with the releases that are left. -/
def releases? : Call → Option (Batch × List (String × String))
  | .releasing b refs _ => some (b, refs)
  | .scrubbing b _ => some (b, [])
  | _ => none

/-- The call that deletes or re-points badges in the step. -/
def remover? : Issuance.Action → Option Nat
  | .deleteCreated i | .repoint i | .deleteRow i => some i
  | _ => none

/-- A statement outside a `try` throws only in a batch that has done nothing. -/
def ThrowsEmptyHanded (env : MacEnv) (s : State) (a : Action) : Prop :=
  ∀ b ∈ s.uncaught env a, b.createdIds = [] ∧ b.freshRegs = []

/-- While a batch compensates, no other call takes a badge away. -/
def Undisturbed (s : State) : Action → Prop
  | .server a => ∀ i ∈ remover? a, ∀ p ∈ s.server.calls.zipIdx, p.2 ≠ i →
    (releases? p.1).isNone = true
  | _ => True

/-- A release of the compensation that is given up. -/
def givesUp : Action → Bool
  | .server (.releaseNextFails _) => true
  | _ => false

structure Orderly (env : MacEnv) (s : State) (a : Action) : Prop where
  throwsEmptyHanded : ThrowsEmptyHanded env s a
  undisturbed : Undisturbed s a
  releases : givesUp a = false

instance (env : MacEnv) (s : State) (a : Action) : Decidable (ThrowsEmptyHanded env s a) :=
  inferInstanceAs (Decidable (∀ b ∈ s.uncaught env a, b.createdIds = [] ∧ b.freshRegs = []))

instance (s : State) (a : Action) : Decidable (Undisturbed s a) := by
  cases a <;> unfold Undisturbed <;> infer_instance

instance (env : MacEnv) (s : State) (a : Action) : Decidable (Orderly env s a) :=
  decidable_of_iff (ThrowsEmptyHanded env s a ∧ Undisturbed s a ∧ givesUp a = false)
    ⟨fun h => ⟨h.1, h.2.1, h.2.2⟩, fun h => ⟨h.1, h.2, h.3⟩⟩

/-! ### What a batch can rely on -/

/-- The entry was registered by a batch under the handle, and keeps it while it exists. -/
structure Owned (s : Issuance.State) (r : String × String) : Prop where
  used : r.1 ∈ s.entryIds
  owner : ∀ e ∈ s.db.nullifierEntry, e.id = r.1 → e.ownerHandle = r.2

/-- The badges of the batch are deleted; their ids are not used again. -/
structure Erased (s : Issuance.State) (b : Batch) : Prop where
  recorded : ∀ id ∈ b.createdIds, id ∈ s.issuedIds
  gone : ∀ x ∈ s.db.badge, x.id ∉ b.createdIds

/-- The entry is deleted, or some badge refers to it. -/
structure Released (s : Issuance.State) (ref : String) : Prop where
  used : ref ∈ s.entryIds
  referenced : ∀ e ∈ s.db.nullifierEntry, e.id = ref → ∃ x ∈ s.db.badge, x.nullifierRef = some ref

structure Tracked (s : Issuance.State) (c : Call) : Prop where
  fresh : ∀ b, batch? c = some b → ∀ r ∈ b.freshRegs, Owned s r
  erased : ∀ b refs, releases? c = some (b, refs) → Erased s b
  released : ∀ b refs, releases? c = some (b, refs) → ∀ r ∈ b.freshRegs, r ∈ refs ∨ Released s r.1

section Frames

variable {touched : Option String} {s s' : Issuance.State} {b : Batch} {c : Call}
  {r : String × String} {ref : String}

theorem Owned.frame (hf : Frame touched s s') (h : Owned s r) : Owned s' r where
  used := hf.entryIds _ h.used
  owner := by
    intro e he hid
    rcases hf.entries e he with hnew | hold
    · exact absurd (hid ▸ h.used) hnew
    · exact h.owner e hold hid

theorem Erased.frame (hf : Frame touched s s') (h : Erased s b) : Erased s' b where
  recorded := fun id hid => hf.issuedIds (h.recorded id hid)
  gone := by
    intro x hx hid
    obtain ⟨y, hy, hyid, -⟩ := hf.badge_of_issued hx (h.recorded _ hid)
    exact h.gone y hy (hyid ▸ hid)

/-- A badge that refers to the entry goes on doing so if no badge is taken away. -/
theorem Released.frame (hf : Frame touched s s')
    (hkeeps : ∀ x ∈ s.db.badge, ∃ y ∈ s'.db.badge, y.nullifierRef = x.nullifierRef)
    (h : Released s ref) : Released s' ref where
  used := hf.entryIds _ h.used
  referenced := by
    intro e he hid
    rcases hf.entries e he with hnew | hold
    · exact absurd (hid ▸ h.used) hnew
    · obtain ⟨x, hx, hxref⟩ := h.referenced e hold hid
      obtain ⟨y, hy, hyref⟩ := hkeeps x hx
      exact ⟨y, hy, hyref.trans hxref⟩

/-- What a batch relies on survives the steps of the others, as long as no badge is taken
away while it compensates. -/
theorem Tracked.frame (hf : Frame touched s s') (hkeeps : releases? c = none ∨
      ∀ x ∈ s.db.badge, ∃ y ∈ s'.db.badge, y.nullifierRef = x.nullifierRef)
    (h : Tracked s c) : Tracked s' c where
  fresh := fun b hb r hr => (h.fresh b hb r hr).frame hf
  erased := fun b refs hb => (h.erased b refs hb).frame hf
  released := by
    intro b refs hb r hr
    rcases hkeeps with hnone | hkeeps
    · rw [hnone] at hb
      cases hb
    · exact (h.released b refs hb r hr).imp_right (·.frame hf hkeeps)

/-- A batch whose compensation has come to its end. -/
theorem Tracked.undone (h : Tracked s c) (hend : releases? c = some (b, [])) : Undone s b where
  badges := (h.erased b [] hend).gone
  entries := fun r hr => ((h.released b [] hend r hr).resolve_left List.not_mem_nil).referenced

theorem undone_of_empty (hids : b.createdIds = []) (hregs : b.freshRegs = []) : Undone s b where
  badges := by simp [hids]
  entries := by simp [hregs]

end Frames

/-! ### One call takes a step -/

/-- A step of one call, which may take badges away if `removes`, and in which the batch
`hole` may throw without compensating. -/
structure Move (hole : Option Batch) (removes : Bool) (s s' : Issuance.State) (i : Nat)
    (c c' : Call) : Prop where
  call : s.calls[i]? = some c
  calls : s'.calls = s.calls.set i c'
  frame : Frame c.minted? s s'
  keeps : removes = false →
    ∀ x ∈ s.db.badge, ∃ y ∈ s'.db.badge, y.nullifierRef = x.nullifierRef
  tracked : Tracked s c → Tracked s' c'
  throws : ∀ b error, batch? c = some b → c' = .returned (some error) → Tracked s c →
    Undone s' b ∨ hole = some b

section Moves

variable {env : MacEnv} {hole : Option Batch} {removes : Bool} {s s' t : Issuance.State}
  {a : Issuance.Action} {i : Nat} {c c' : Call} {b : Batch} {error handle : String}

/-- Every call is tracked after the step. -/
theorem Move.tracked_of_mem (hm : Move hole removes s s' i c c')
    (hs : ∀ d ∈ s.calls, Tracked s d)
    (halone : removes = true → ∀ j d, j ≠ i → s.calls[j]? = some d → releases? d = none) :
    ∀ d ∈ s'.calls, Tracked s' d := by
  intro d hd
  obtain ⟨j, hj⟩ := List.getElem?_of_mem hd
  rw [hm.calls, List.getElem?_set] at hj
  split_ifs at hj with hij hlt
  · cases hj
    exact hm.tracked (hs c (List.mem_of_getElem? hm.call))
  · apply (hs d (List.mem_of_getElem? hj)).frame hm.frame
    cases removes with
    | false => exact .inr (hm.keeps rfl)
    | true => exact .inl (halone rfl j d (Ne.symm hij) hj)

/-- The batch that throws is undone, or throws where nothing compensates it. -/
theorem Move.undone (hm : Move hole removes s s' i c c') (hs : ∀ d ∈ s.calls, Tracked s d)
    {j : Nat} (hthrows : Throws s s' j b) : Undone s' b ∨ hole = some b := by
  obtain ⟨hb, error, herror⟩ := hthrows
  obtain ⟨d, hd, hdb⟩ := Option.bind_eq_some_iff.mp hb
  rw [hm.calls, List.getElem?_set] at herror
  split_ifs at herror with hij hlt
  · -- It is the call that has moved.
    subst hij
    obtain rfl : c = d := Option.some.inj (hm.call.symm.trans hd)
    exact hm.throws b error hdb (Option.some.inj herror) (hs c (List.mem_of_getElem? hd))
  · -- A call that had returned is no batch.
    obtain rfl : d = .returned (some error) := Option.some.inj (hd.symm.trans herror)
    cases hdb

/-- The batch is where it was, or is not a batch any more, and does not compensate. -/
theorem Tracked.carry (h : Tracked s c) (hf : Frame c.minted? s s')
    (hbatch : ∀ b', batch? c' = some b' → ∃ b, batch? c = some b ∧ b'.freshRegs = b.freshRegs)
    (hreleases : releases? c' = none) : Tracked s' c' where
  fresh := by
    intro b' hb' r hr
    obtain ⟨b, hb, hregs⟩ := hbatch b' hb'
    exact (h.fresh b hb r (hregs ▸ hr)).frame hf
  erased := by simp [hreleases]
  released := by simp [hreleases]

/-- A step after which the batch is where it was, or is not a batch any more, and does not
compensate. -/
theorem move_of_frame (hcall : s.calls[i]? = some c) (hf : Frame c.minted? s s')
    (hcalls : s'.calls = s.calls.set i c') (hkeeps : removes = false →
      ∀ x ∈ s.db.badge, ∃ y ∈ s'.db.badge, y.nullifierRef = x.nullifierRef)
    (hthrows : ∀ b error, batch? c = some b → c' = .returned (some error) → hole = some b := by
      rintro _ _ hb ⟨⟩ <;> cases hb)
    (hbatch : ∀ b', batch? c' = some b' → ∃ b, batch? c = some b ∧ b'.freshRegs = b.freshRegs := by
      rintro _ ⟨⟩ <;> exact ⟨_, rfl, rfl⟩)
    (hreleases : releases? c' = none := by rfl) : Move hole removes s s' i c c' where
  call := hcall
  calls := hcalls
  frame := hf
  keeps := hkeeps
  tracked := fun h => h.carry hf hbatch hreleases
  throws := fun b error hb hret _ => .inr (hthrows b error hb hret)

theorem Undone.congr (h : Undone s b) (hbadge : s'.db.badge = s.db.badge)
    (hentry : s'.db.nullifierEntry = s.db.nullifierEntry) : Undone s' b where
  badges := hbadge ▸ h.badges
  entries := by
    rw [hbadge, hentry]
    exact h.entries

/-- A compensation that has come to its end throws. -/
theorem move_compensated (hcall : s.calls[i]? = some c) (hf : Frame c.minted? s s')
    (hcalls : s'.calls = s.calls.set i (.returned (some error)))
    (hbadge : s'.db.badge = s.db.badge) (hentry : s'.db.nullifierEntry = s.db.nullifierEntry)
    (hb : batch? c = some b) (hend : releases? c = some (b, [])) :
    Move hole removes s s' i c (.returned (some error)) where
  call := hcall
  calls := hcalls
  frame := hf
  keeps := fun _ x hx => ⟨x, hbadge ▸ hx, rfl⟩
  tracked := fun h => h.carry hf (by rintro _ ⟨⟩) rfl
  throws := by
    intro b' _ hb' _ ht
    obtain rfl := Option.some.inj (hb.symm.trans hb')
    exact .inl ((ht.undone hend).congr hbadge hentry)

/-! ### The steps of a batch -/

/-- What throws here throws outside every `try`, or compensates. -/
theorem move_of_pass (hcall : s.calls[i]? = some c) (h : Pass env s i a c c')
    (hreleases : givesUp (.server a) = false) :
    Move (uncaught env s a) (remover? a).isSome s (s.setCall i c') i c c' := by
  have hf : Frame c.minted? s (s.setCall i c') := (Frame.refl _ s).setCall i c'
  have hsame : ∀ x ∈ s.db.badge, ∃ y ∈ s.db.badge, y.nullifierRef = x.nullifierRef :=
    fun x hx => ⟨x, hx, rfl⟩
  cases h with
  | claimThrows hfails | completeThrows hfails | rereadThrows hfails | registerThrows hfails =>
    refine move_of_frame hcall hf rfl (fun _ => hsame) ?_
    rintro _ _ ⟨⟩ -
    simp [uncaught, hcall, hfails]
  | released =>
    refine ⟨hcall, rfl, hf, fun _ => hsame, fun ht => ?_, by rintro _ _ - ⟨⟩⟩
    have ht' := ht.frame hf (.inr hsame)
    exact ⟨by rintro _ ⟨⟩; exact ht'.fresh _ rfl, by rintro _ _ ⟨⟩; exact ht'.erased _ [] rfl,
      by rintro _ _ ⟨⟩; exact ht'.released _ [] rfl⟩
  | compensated | scrubThrows => exact move_compensated hcall hf rfl rfl rfl rfl rfl
  | releaseThrows => cases hreleases
  | _ => exact move_of_frame hcall hf rfl fun _ => hsame

/-- An entry the batch has just registered. -/
theorem Tracked.registered {b : Batch} {freshId handle type : String} {value : List UInt8}
    (h : Tracked s c)
    (hs : Inv env s) (hf : Frame c.minted? s s') (hb : batch? c = some b)
    (hfresh : freshId ∉ s.entryIds) (hused : freshId ∈ s'.entryIds)
    (hentries : s'.db.nullifierEntry = s.db.nullifierEntry ++ [⟨freshId, value, handle, type⟩])
    (hb' : batch? c' = some { b with freshRegs := b.freshRegs ++ [(freshId, handle)] })
    (hreleases : releases? c' = none) : Tracked s' c' where
  fresh := by
    intro b' hbatch r hr
    obtain rfl := Option.some.inj (hb'.symm.trans hbatch)
    rcases List.mem_append.mp hr with hold | hnew
    · exact (h.fresh b hb r hold).frame hf
    · rw [List.mem_singleton.mp hnew]
      refine ⟨hused, ?_⟩
      intro e he hid
      rw [hentries] at he
      rcases List.mem_append.mp he with hold | hlast
      · have hmem := hs.entryIds e hold
        rw [hid] at hmem
        exact absurd hmem hfresh
      · rw [List.mem_singleton.mp hlast]
  erased := by simp [hreleases]
  released := by simp [hreleases]

/-- A release leaves the entry only if a badge refers to it. -/
theorem released_of_release {ref : String} (h : Owned s (ref, handle)) (hused : ref ∈ s'.entryIds)
    (hbadge : s'.db.badge = s.db.badge)
    (hentry : s'.db.nullifierEntry = release ref handle s.db.badge s.db.nullifierEntry) :
    Released s' ref where
  used := hused
  referenced := by
    intro e he hid
    rw [hentry] at he
    obtain ⟨hmem, hkept⟩ := mem_deleteMany.mp he
    have hguard := of_decide_eq_false hkept
    rw [hbadge]
    by_contra hnone
    refine hguard ⟨hid, h.owner e hmem hid, ?_⟩
    intro x hx href
    exact hnone ⟨x, hx, href⟩

theorem move_of_effect (hs : Inv env s) (hcall : s.calls[i]? = some c)
    (h : Effect env s i a c t c') (hreleases : givesUp (.server a) = false) :
    Move (uncaught env s a) (remover? a).isSome s (t.setCall i c') i c c' := by
  have hf := h.frame
  have hsame {x : Badge} {l : List Badge} (hx : x ∈ l) :
      ∃ y ∈ l, y.nullifierRef = x.nullifierRef := ⟨x, hx, rfl⟩
  cases h with
  | pass hp => exact move_of_pass hcall hp hreleases
  | claims | losesClaim | completes | releasesEntry =>
    exact move_of_frame hcall hf rfl fun _ _ => hsame
  | registers hfresh | reregisters hfresh =>
    exact ⟨hcall, rfl, hf, fun _ _ => hsame,
      fun ht => ht.registered hs hf rfl hfresh List.mem_cons_self rfl rfl rfl,
      by rintro _ _ - ⟨⟩⟩
  | inserts | insertsAnchored =>
    exact move_of_frame hcall hf rfl fun _ x hx => ⟨x, List.mem_append_left _ hx, rfl⟩
  | repoints | findsNone | deletes | deletesAnchored => exact move_of_frame hcall hf rfl nofun
  | erases =>
    -- All badges of the batch go, since they are all its account's.
    have hb : BatchOk s _ := hs.call_ok hcall
    refine ⟨hcall, rfl, hf, nofun, fun ht => ⟨?_, ?_, ?_⟩, by rintro _ _ - ⟨⟩⟩
    · rintro _ ⟨⟩ r hr
      exact (ht.fresh _ rfl r hr).frame hf
    · rintro _ _ ⟨⟩
      refine ⟨fun id hid => hf.issuedIds (hb.recorded id hid), ?_⟩
      intro x hx hid
      obtain ⟨hmem, hkept⟩ := mem_deleteMany.mp hx
      exact of_decide_eq_false hkept ⟨hid, hb.owned x hmem hid⟩
    · rintro _ _ ⟨⟩ r hr
      exact .inl hr
  | releases =>
    refine ⟨hcall, rfl, hf, fun _ _ => hsame, fun ht => ?_, by rintro _ _ - ⟨⟩⟩
    have ht' := ht.frame hf (.inr fun _ => hsame)
    refine ⟨by rintro _ ⟨⟩; exact ht'.fresh _ rfl, by rintro _ _ ⟨⟩; exact ht'.erased _ _ rfl, ?_⟩
    rintro _ _ ⟨⟩ r hr
    rcases ht'.released _ _ rfl r hr with hleft | hdone
    · rcases List.mem_cons.mp hleft with rfl | hrest
      · have howned := ht.fresh _ rfl _ hr
        exact .inr (released_of_release howned howned.used rfl rfl)
      · exact .inl hrest
    · exact .inr hdone
  | scrubs => exact move_compensated hcall hf rfl rfl rfl rfl rfl

/-- A statement throws: outside a `try` the call throws as well, elsewhere it compensates. -/
theorem move_failed (hcall : s.calls[i]? = some c) (hfailed : failed error c = some c') :
    Move (s.calls[i]?.bind exposed) removes s (s.setCall i c') i c c' := by
  have hf : Frame c.minted? s (s.setCall i c') := (Frame.refl _ s).setCall i c'
  have hkeeps : removes = false → ∀ x ∈ s.db.badge, ∃ y ∈ s.db.badge,
      y.nullifierRef = x.nullifierRef := fun _ x hx => ⟨x, hx, rfl⟩
  cases c with
  | readingHandle b | claimingHandle b | rereadingHandle b | registering b | completing b =>
    cases hfailed
    refine move_of_frame hcall hf rfl hkeeps ?_
    rintro _ _ ⟨⟩ -
    rw [hcall]
    rfl
  | probing b | reregistering b | repointing b | reprobing b =>
    cases hfailed
    exact move_of_frame hcall hf rfl hkeeps
  | _ => cases hfailed

/-- Only the call that moves takes badges away. -/
theorem remover?_of_effect (h : Effect env s i a c t c') :
    remover? a = none ∨ remover? a = some i := by
  cases h with
  | pass hp =>
    cases hp with
    | repointThrows => exact .inr rfl
    | _ => exact .inl rfl
  | repoints | erases | findsNone | deletes | deletesAnchored => exact .inr rfl
  | _ => exact .inl rfl

end Moves

/-! ### Runs -/

section Runs

variable {env : MacEnv} {s s' : State} {a : Action} {i : Nat} {c c' : Call} {b : Batch}
  {error : String}

/-- What a step of the server does: it starts a call, or moves one. -/
theorem move_of_step {s s' : Issuance.State} {a : Issuance.Action} (hs : Inv env s)
    (h : Issuance.step env s a = some s') (hreleases : givesUp (.server a) = false) :
    (∃ c, s' = s.addCall c ∧ releases? c = none ∧ ∀ b, batch? c = some b → b.freshRegs = []) ∨
      ∃ i c c', (remover? a = none ∨ remover? a = some i) ∧
        Move (uncaught env s a) (remover? a).isSome s s' i c c' := by
  obtain hopens | ⟨hcall, heffect⟩ := Issuance.effect_of_step h
  · refine .inl ⟨_, rfl, ?_⟩
    cases hopens with
    | starts => exact ⟨rfl, by rintro _ ⟨⟩; rfl⟩
    | _ => exact ⟨rfl, by rintro _ ⟨⟩⟩
  · exact .inr ⟨_, _, _, remover?_of_effect heffect, move_of_effect hs hcall heffect hreleases⟩

structure Safe (env : MacEnv) (s : State) : Prop where
  inv : Inv env s.server
  tracked : ∀ c ∈ s.server.calls, Tracked s.server c

/-- A call whose next statement throws keeps the invariant of the ledger. -/
theorem inv_failed {s : Issuance.State} (hs : Inv env s) (hcall : s.calls[i]? = some c)
    (hfailed : failed error c = some c') : Inv env (s.setCall i c') := by
  have hok := hs.call_ok hcall
  cases c with
  | readingHandle b | claimingHandle b | rereadingHandle b | registering b | completing b =>
    cases hfailed
    exact hs.setCall_of_pendingIds (.returned _) hcall trivial rfl rfl
  | reregistering b =>
    cases hfailed
    exact hs.giveUp error hcall hok rfl
  | probing b | repointing b | reprobing b =>
    cases hfailed
    exact hs.giveUp error hcall hok.1 rfl
  | _ => cases hfailed

/-- Sessions are outside the frame. -/
theorem frame_setSessions (s : State) (t : List WizardSession) :
    Frame none s.server (s.setSessions t).server :=
  .setSessions t

theorem inv_setSessions (h : Inv env s.server) (t : List WizardSession) :
    Inv env (s.setSessions t).server :=
  { h with calls := fun c hc => (h.calls c hc).frame (frame_setSessions s t) (by simp) }

theorem Safe.setSessions (h : Safe env s) (t : List WizardSession) :
    Safe env (s.setSessions t) where
  inv := inv_setSessions h.inv t
  tracked := fun c hc =>
    (h.tracked c hc).frame (frame_setSessions s t) (.inr fun x hx => ⟨x, hx, rfl⟩)

/-- Which wizards are being started is outside the invariant. -/
theorem Safe.congr (h : Safe env s) (hserver : s'.server = s.server) : Safe env s' where
  inv := hserver ▸ h.inv
  tracked := hserver ▸ h.tracked

/-- A step of the server, a failure included, keeps every call tracked. -/
theorem tracked_of_move {s s' : Issuance.State} {hole : Option Batch} {who : Option Nat}
    (hs : ∀ d ∈ s.calls, Tracked s d) (hwho : who = none ∨ who = some i)
    (hm : Move hole who.isSome s s' i c c')
    (halone : ∀ j ∈ who, ∀ p ∈ s.calls.zipIdx, p.2 ≠ j → (releases? p.1).isNone = true) :
    ∀ d ∈ s'.calls, Tracked s' d := by
  apply hm.tracked_of_mem hs
  intro hremoves j d hj hd
  rcases hwho with rfl | rfl
  · cases hremoves
  · exact Option.isNone_iff_eq_none.mp
      (halone i rfl (d, j) (List.mk_mem_zipIdx_iff_getElem?.mpr hd) hj)

theorem tracked_of_failed {s : Issuance.State} (hs : ∀ d ∈ s.calls, Tracked s d)
    (hcall : s.calls[i]? = some c) (hfailed : failed error c = some c') :
    ∀ d ∈ (s.setCall i c').calls, Tracked (s.setCall i c') d := by
  have hm : Move _ false s _ i c c' := move_failed hcall hfailed
  exact hm.tracked_of_mem hs nofun

/-- A new call relies on nothing yet. -/
theorem tracked_addCall {s : Issuance.State} (hs : ∀ d ∈ s.calls, Tracked s d)
    (hreleases : releases? c = none) (hfresh : ∀ b, batch? c = some b → b.freshRegs = []) :
    ∀ d ∈ (s.addCall c).calls, Tracked (s.addCall c) d := by
  have hf : Frame none s (s.addCall c) := { Frame.refl none s with }
  intro d hd
  rcases List.mem_append.mp hd with hold | hnew
  · exact (hs d hold).frame hf (.inr fun x hx => ⟨x, hx, rfl⟩)
  · rw [List.mem_singleton.mp hnew]
    refine ⟨?_, by simp [hreleases], by simp [hreleases]⟩
    intro b hb r hr
    rw [hfresh b hb] at hr
    cases hr

/-- The server takes a step, a statement of a call throws, or sessions are deleted and
inserted. -/
theorem effect_of_step (h : step env s a = some s') :
    (∃ b t, a = .server b ∧ Issuance.step env s.server b = some t ∧
        s' = { s with server := t, completed := ended s.server b ++ s.completed }) ∨
      (∃ i error c c', a = .fails i error ∧ s.server.calls[i]? = some c ∧
        failed error c = some c' ∧ s' = { s with server := s.server.setCall i c' }) ∨
      (∀ b, a ≠ .server b) ∧ (∃ t, s'.server = (s.setSessions t).server) ∧
        s'.completed = s.completed := by
  cases a with
  | server b =>
    obtain ⟨t, ht, rfl⟩ := Option.map_eq_some_iff.mp h
    exact .inl ⟨b, t, rfl, ht, rfl⟩
  | fails i error =>
    change s.fails i error = some s' at h
    unfold State.fails at h
    split at h
    · rename_i c' hc'
      obtain ⟨c, hcall, hfailed⟩ := Option.bind_eq_some_iff.mp hc'
      cases h
      exact .inr (.inl ⟨i, error, c, c', rfl, hcall, hfailed, rfl⟩)
    · cases h
  | startWizard userId pluginId =>
    cases h
    exact .inr (.inr ⟨nofun, ⟨s.server.db.wizardSession, rfl⟩, rfl⟩)
  | sweep i expired =>
    change s.sweep i expired = some s' at h
    unfold State.sweep at h
    split at h <;> cases h
    exact .inr (.inr ⟨nofun, ⟨_, rfl⟩, rfl⟩)
  | dropUnfinished i =>
    change s.dropUnfinished i = some s' at h
    unfold State.dropUnfinished at h
    split at h <;> cases h
    exact .inr (.inr ⟨nofun, ⟨_, rfl⟩, rfl⟩)
  | createSession i sessionId pendingToken =>
    change s.createSession i sessionId pendingToken = some s' at h
    unfold State.createSession at h
    split at h
    · split at h
      · cases h
        exact .inr (.inr ⟨nofun, ⟨_, rfl⟩, rfl⟩)
      · cases h
        exact .inr (.inr ⟨nofun, ⟨s.server.db.wizardSession, rfl⟩, rfl⟩)
    · cases h

/-- The step lemma. -/
theorem Safe.step (hs : Safe env s) (hok : Orderly env s a) (h : step env s a = some s') :
    Safe env s' := by
  rcases effect_of_step h with ⟨b, t, rfl, hb, rfl⟩ |
    ⟨i, error, c, c', rfl, hcall, hfailed, rfl⟩ | ⟨-, ⟨t, hs'⟩, -⟩
  · refine ⟨inv_step hs.inv hb, ?_⟩
    rcases move_of_step hs.inv hb hok.releases with ⟨c, hs', hrel, hfresh⟩ | ⟨i, c, c', hwho, hm⟩
    · change ∀ d ∈ t.calls, Tracked t d
      rw [hs']
      exact tracked_addCall hs.tracked hrel hfresh
    · exact tracked_of_move hs.tracked hwho hm hok.undisturbed
  · exact ⟨inv_failed hs.inv hcall hfailed, tracked_of_failed hs.tracked hcall hfailed⟩
  · exact (hs.setSessions t).congr hs'

/-- A call that did not move throws nothing. -/
theorem not_throws_of_calls {s s' : Issuance.State}
    (hcalls : ∀ c, s.calls[i]? = some c → s'.calls[i]? = some c) : ¬ Throws s s' i b := by
  rintro ⟨hb, error, herror⟩
  obtain ⟨c, hc, hcb⟩ := Option.bind_eq_some_iff.mp hb
  rw [hcalls c hc] at herror
  cases herror
  cases hcb

/-- A batch that throws is undone, or it throws where nothing compensates it. -/
theorem Safe.undone_or_uncaught (hs : Safe env s) (hok : Orderly env s a)
    (h : Wizard.step env s a = some s') (hthrows : Throws s.server s'.server i b) :
    Undone s'.server b ∨ s.uncaught env a = some b := by
  rcases effect_of_step h with ⟨_, t, rfl, hb, rfl⟩ |
    ⟨j, error, c, c', rfl, hcall, hfailed, rfl⟩ | ⟨-, ⟨t, hs'⟩, -⟩
  · rcases move_of_step hs.inv hb hok.releases with ⟨c, hs', -⟩ | ⟨_, c, c', -, hm⟩
    · refine absurd hthrows (not_throws_of_calls fun d hd => ?_)
      change t.calls[i]? = some d
      rw [hs']
      exact (List.getElem?_append_left (List.getElem?_eq_some_iff.mp hd).1).trans hd
    · exact hm.undone hs.tracked hthrows
  · have hm : Move _ false s.server _ j c c' := move_failed hcall hfailed
    exact hm.undone hs.tracked hthrows
  · refine absurd hthrows (not_throws_of_calls fun d hd => ?_)
    rw [hs']
    exact hd

/-- A database before any call, with some sessions completed. -/
def start (issued : List (String × Option String)) (db : Db) (completed : List String) : State where
  server := { db, issued, entryIds := db.nullifierEntry.map (·.id) }
  completed := completed

/-- Whatever fails and whatever wizards are started, a batch that throws leaves none of its
badges, and of the entries it registered only those some other badge refers to. -/
theorem undone_of_throw {issued : List (String × Option String)} {db : Db}
    {completed : List String} {as : List Action} {i : Nat} {b : Batch}
    (hdb : Settled env issued db)
    (hok : Along (step env) (Orderly env) (start issued db completed) as)
    (hrun : run (step env) (start issued db completed) as = some s)
    (hlast : Orderly env s a) (hstep : step env s a = some s')
    (hthrows : Throws s.server s'.server i b) : Undone s'.server b := by
  have hs : Safe env s := by
    apply run_invariant (Safe env) _ _ hok hrun
    · intro s a s' hs hok h
      exact hs.step hok h
    · exact ⟨hdb.inv, by simp [start]⟩
  rcases hs.undone_or_uncaught hlast hstep hthrows with hundone | huncaught
  · exact hundone
  · obtain ⟨hids, hregs⟩ := hlast.throwsEmptyHanded b huncaught
    exact undone_of_empty hids hregs

end Runs

theorem settled_walletDb : Settled sampleEnv [] walletDb :=
  ⟨by decide, by decide, by decide, by decide, by simp [walletDb]⟩

/-- A badge is inserted under a new entry. -/
def mintOne : List Action :=
  [.server (.issueBadgesAndComplete "s1" "A" "github" [githubBadge] false),
    .server (.nextBadge 0), .server (.readHandle 0), .server (.registerDedup 0 "e1"),
    .server (.issueBadge 0 "b1")]

/-- The account opens the wizard once more, in another tab. -/
def secondWizard : List Action :=
  [.startWizard "A" "github", .sweep 0 [], .dropUnfinished 0, .createSession 0 "s3" none]

/-- The ledger cannot be reached after the badge was inserted, and the batch compensates
while the account opens a second wizard. -/
theorem unreachableLedger_undone : ∃ s s' b,
    run (step sampleEnv) (start [] walletDb [])
        (mintOne ++ .fails 0 "ledger unreachable" :: secondWizard ++
          [.server (.deleteCreated 0), .server (.releaseNext 0), .server (.releaseNext 0)]) =
      some s ∧
    step sampleEnv s (.server (.scrub 0)) = some s' ∧ Throws s.server s'.server 0 b ∧
      b.createdIds = ["b1"] ∧ b.freshRegs = [("e1", "hA")] ∧ Undone s'.server b := by
  have hok : Along (step sampleEnv) (Orderly sampleEnv) (start [] walletDb [])
      (mintOne ++ .fails 0 "ledger unreachable" :: secondWizard ++
        [.server (.deleteCreated 0), .server (.releaseNext 0), .server (.releaseNext 0)]) := by
    decide +kernel
  obtain ⟨s, s', b, hrun, hlast, hstep, hthrows, hids, hregs⟩ : ∃ s s' b,
      run (step sampleEnv) (start [] walletDb [])
          (mintOne ++ .fails 0 "ledger unreachable" :: secondWizard ++
            [.server (.deleteCreated 0), .server (.releaseNext 0), .server (.releaseNext 0)]) =
        some s ∧
      Orderly sampleEnv s (.server (.scrub 0)) ∧ step sampleEnv s (.server (.scrub 0)) = some s' ∧
        Throws s.server s'.server 0 b ∧ b.createdIds = ["b1"] ∧ b.freshRegs = [("e1", "hA")] :=
    ⟨_, _, _, rfl, by decide +kernel, rfl, ⟨rfl, _, rfl⟩, rfl, rfl⟩
  exact ⟨s, s', b, hrun, hstep, hthrows, hids, hregs,
    undone_of_throw settled_walletDb hok hrun hlast hstep hthrows⟩

/-- The batch has issued its badge when the second wizard deletes its session: the update
that completes the session throws, and the badge stays. -/
theorem secondWizard_strands : Settled sampleEnv [] walletDb ∧ ∃ s s' b,
    run (step sampleEnv) (start [] walletDb [])
        (mintOne ++ [.server (.probe 0), .server (.nextBadge 0)] ++ secondWizard) = some s ∧
    step sampleEnv s (.server (.complete 0)) = some s' ∧ Throws s.server s'.server 0 b ∧
      s'.server.db.badge = [⟨"b1", "A", "oauth-account", none, some "e1"⟩] ∧
      b.createdIds = ["b1"] ∧ ¬ Undone s'.server b := by
  refine ⟨settled_walletDb, _, _, _, rfl, rfl, ⟨rfl, _, rfl⟩, rfl, rfl, fun hundone => ?_⟩
  exact hundone.badges _ List.mem_cons_self List.mem_cons_self

end Minister.Wizard
