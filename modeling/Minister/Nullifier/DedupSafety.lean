import Minister.Nullifier.Issuance
import Minister.Transition.Pool
import Minister.Transition.Run

/-!
# One credential, one account

Whenever no call is running, every badge that refers to the dedup ledger refers to an
entry that exists and belongs to the badge's holder, and so no two accounts hold a
badge for one anchor and badge type.

In between this is not so: a badge is inserted after its anchor was registered, and
the entry may have been released in the meantime. The invariant says which calls may
be responsible for a badge without an entry: one that has inserted it and has not yet
seen its entry, or one that is about to delete it. Once the entry has been seen, the
badge itself keeps it from being released.
-/

namespace Minister.Issuance

open Relational Transition

/-! ### What calls rely on -/

def State.issuedIds (s : State) : List String := s.issued.map Prod.fst

/-- The entry exists, belongs to the badge's holder, and is that of the anchor the
badge was issued for. -/
def Backed (env : MacEnv) (s : State) (x : Badge) (ref : String) : Prop :=
  ∃ anchor, (x.id, some anchor) ∈ s.issued ∧ ∃ e ∈ s.db.nullifierEntry, e.id = ref ∧
    deriveDedupValue env anchor x.type = .ok e.value ∧
      handleOf x.userId s.db.user = some e.ownerHandle

structure BatchOk (s : State) (b : Batch) : Prop where
  owned : ∀ x ∈ s.db.badge, x.id ∈ b.createdIds → x.userId = b.userId
  recorded : ∀ id ∈ b.createdIds, id ∈ s.issuedIds
  handle : ∀ h, b.ownerHandle = some h → handleOf b.userId s.db.user = some h

/-- The entry, if it is still there, is that of the anchor. -/
structure RefOk (env : MacEnv) (s : State) (anchor badgeType ref : String) : Prop where
  used : ref ∈ s.entryIds
  value : ∀ e ∈ s.db.nullifierEntry, e.id = ref →
    deriveDedupValue env anchor badgeType = .ok e.value

/-- The badge a call has inserted, if it is still there. -/
structure MintedOk (s : State) (b : Batch) (badge : IssuedBadge)
    (createdId anchor handle : String) : Prop where
  batch : BatchOk s b
  created : createdId ∈ b.createdIds
  issued : (createdId, some anchor) ∈ s.issued
  type : ∀ x ∈ s.db.badge, x.id = createdId → x.type = badge.type
  handle : handleOf b.userId s.db.user = some handle

/-- The badge a call has inserted, if it is still there, refers to this entry. -/
def PointsTo (s : State) (createdId ref : String) : Prop :=
  ∀ x ∈ s.db.badge, x.id = createdId → x.nullifierRef = some ref

/-- What a call relies on. -/
def Call.Ok (env : MacEnv) (s : State) : Call → Prop
  | .next b | .readingHandle b _ _ | .claimingHandle b _ _ | .rereadingHandle b _ _
  | .compensating b _ | .minting b _ none => BatchOk s b
  | .registering b _ _ handle => BatchOk s b ∧ handleOf b.userId s.db.user = some handle
  | .minting b badge (some target) =>
    BatchOk s b ∧ handleOf b.userId s.db.user = some target.handle ∧
      RefOk env s target.anchor badge.type target.ref
  | .reregistering b badge createdId anchor handle _ =>
    MintedOk s b badge createdId anchor handle
  | .repointing b badge createdId target _ =>
    MintedOk s b badge createdId target.anchor target.handle ∧
      RefOk env s target.anchor badge.type target.ref
  | .probing b badge createdId target | .reprobing b badge createdId target _ =>
    MintedOk s b badge createdId target.anchor target.handle ∧
      RefOk env s target.anchor badge.type target.ref ∧ PointsTo s createdId target.ref
  | _ => True

/-- The badge a call has inserted and not yet seen the entry of. -/
def Call.minted? : Call → Option String
  | .probing _ _ createdId _ | .reregistering _ _ createdId _ _ _
  | .repointing _ _ createdId _ _ | .reprobing _ _ createdId _ _ => some createdId
  | _ => none

/-- The badges a call answers for: the one it has inserted, or all those it is about
to delete. -/
def Call.pendingIds : Call → List String
  | .compensating b _ => b.createdIds
  | c => c.minted?.toList

/-- What a step of one call may change. Handles, once minted, stay; new badges and
entries have new ids; a badge is changed only by the call that inserted it; an entry
that a badge refers to is not deleted. -/
structure Frame (touched : Option String) (s s' : State) : Prop where
  handles : ∀ u h, handleOf u s.db.user = some h → handleOf u s'.db.user = some h
  issued : ∀ x ∈ s.issued, x ∈ s'.issued
  entryIds : ∀ r ∈ s.entryIds, r ∈ s'.entryIds
  badges : ∀ x ∈ s'.db.badge, x.id ∉ s.issuedIds ∧ (∀ y ∈ s.db.badge, y.id ≠ x.id) ∨
    ∃ y ∈ s.db.badge, y.id = x.id ∧ y.userId = x.userId ∧ y.type = x.type ∧
      (y.nullifierRef = x.nullifierRef ∨ touched = some x.id)
  entries : ∀ e ∈ s'.db.nullifierEntry, e.id ∉ s.entryIds ∨ e ∈ s.db.nullifierEntry
  kept : ∀ e ∈ s.db.nullifierEntry, (∃ x ∈ s.db.badge, x.nullifierRef = some e.id) →
    e ∈ s'.db.nullifierEntry

structure Inv (env : MacEnv) (s : State) : Prop where
  user : Consistent s.db.user
  badge : Consistent s.db.badge
  entry : Consistent s.db.nullifierEntry
  entryIds : ∀ e ∈ s.db.nullifierEntry, e.id ∈ s.entryIds
  issuedOnce : s.issuedIds.Nodup
  calls : ∀ c ∈ s.calls, c.Ok env s
  mintedOnce : (s.calls.filterMap Call.minted?).Nodup
  backed : ∀ x ∈ s.db.badge, ∀ ref, x.nullifierRef = some ref →
    Backed env s x ref ∨ ∃ c ∈ s.calls, x.id ∈ c.pendingIds

section Frames

variable {env : MacEnv} {touched : Option String} {s s' : State} {b : Batch} {c : Call}
  {badge : IssuedBadge} {createdId anchor handle badgeType ref : String}

theorem mem_issuedIds {a : Option String} (h : (createdId, a) ∈ s.issued) :
    createdId ∈ s.issuedIds :=
  List.mem_map_of_mem h

section

variable (hf : Frame touched s s')

include hf

theorem Frame.issuedIds {id : String} (h : id ∈ s.issuedIds) : id ∈ s'.issuedIds := by
  obtain ⟨x, hx, rfl⟩ := List.mem_map.mp h
  exact List.mem_map_of_mem (hf.issued x hx)

/-- A badge with an id issued before was there before. -/
theorem Frame.badge_of_issued {x : Badge} (hx : x ∈ s'.db.badge) (hid : x.id ∈ s.issuedIds) :
    ∃ y ∈ s.db.badge, y.id = x.id ∧ y.userId = x.userId ∧ y.type = x.type ∧
      (y.nullifierRef = x.nullifierRef ∨ touched = some x.id) := by
  rcases hf.badges x hx with ⟨hnew, -⟩ | hold
  · exact absurd hid hnew
  · exact hold

theorem BatchOk.frame (h : BatchOk s b) : BatchOk s' b where
  owned := by
    intro x hx hid
    obtain ⟨y, hy, hyid, hyuser, -⟩ := hf.badge_of_issued hx (h.recorded _ hid)
    rw [← hyuser]
    exact h.owned y hy (hyid ▸ hid)
  recorded := fun id hid => hf.issuedIds (h.recorded id hid)
  handle := fun k hk => hf.handles _ k (h.handle k hk)

theorem RefOk.frame (h : RefOk env s anchor badgeType ref) : RefOk env s' anchor badgeType ref where
  used := hf.entryIds ref h.used
  value := by
    intro e he hid
    rcases hf.entries e he with hnew | hold
    · exact absurd (hid ▸ h.used) hnew
    · exact h.value e hold hid

theorem MintedOk.frame (h : MintedOk s b badge createdId anchor handle) :
    MintedOk s' b badge createdId anchor handle where
  batch := h.batch.frame hf
  created := h.created
  issued := hf.issued _ h.issued
  type := by
    intro x hx hid
    obtain ⟨y, hy, hyid, -, hytype, -⟩ :=
      hf.badge_of_issued hx (hid ▸ mem_issuedIds h.issued)
    rw [← hytype]
    exact h.type y hy (hyid.trans hid)
  handle := hf.handles _ _ h.handle

theorem PointsTo.frame (hid : createdId ∈ s.issuedIds) (hother : touched ≠ some createdId)
    (h : PointsTo s createdId ref) : PointsTo s' createdId ref := by
  intro x hx hxid
  obtain ⟨y, hy, hyid, -, -, hsame | htouched⟩ := hf.badge_of_issued hx (hxid ▸ hid)
  · rw [← hsame]
    exact h y hy (hyid.trans hxid)
  · exact absurd (hxid ▸ htouched) hother

/-- What a call relies on survives the steps of the others. -/
theorem Call.Ok.frame (hother : ∀ id, c.minted? = some id → touched ≠ some id) (h : c.Ok env s) :
    c.Ok env s' := by
  cases c with
  | next b | readingHandle b | claimingHandle b | rereadingHandle b | compensating b =>
    exact BatchOk.frame hf h
  | registering b badge anchor handle => exact ⟨h.1.frame hf, hf.handles _ _ h.2⟩
  | minting b badge target =>
    cases target with
    | none => exact BatchOk.frame hf h
    | some target => exact ⟨h.1.frame hf, hf.handles _ _ h.2.1, h.2.2.frame hf⟩
  | reregistering b badge createdId anchor handle attempt => exact MintedOk.frame hf h
  | repointing b badge createdId target attempt => exact ⟨h.1.frame hf, h.2.frame hf⟩
  | probing | reprobing =>
    exact ⟨h.1.frame hf, h.2.1.frame hf,
      h.2.2.frame hf (mem_issuedIds h.1.issued) (hother _ rfl)⟩
  | _ => trivial

/-- A backed badge stays so as long as it is there. -/
theorem Backed.frame {x y : Badge} (hy : y ∈ s.db.badge) (hid : y.id = x.id)
    (huser : y.userId = x.userId) (htype : y.type = x.type) (hyref : y.nullifierRef = some ref)
    (h : Backed env s y ref) : Backed env s' x ref := by
  obtain ⟨anchor, hissued, e, he, heid, hvalue, howner⟩ := h
  refine ⟨anchor, hid ▸ hf.issued _ hissued, e, hf.kept e he ⟨y, hy, heid ▸ hyref⟩, heid, ?_, ?_⟩
  · rw [← htype]
    exact hvalue
  · rw [← huser]
    exact hf.handles _ _ howner

end

theorem minted_mem_pendingIds {id : String} (h : c.minted? = some id) : id ∈ c.pendingIds := by
  cases c with
  | probing | reregistering | repointing | reprobing =>
    cases h
    exact List.mem_singleton_self _
  | _ => cases h

theorem minted_mem_issuedIds {id : String} (hok : c.Ok env s) (h : c.minted? = some id) :
    id ∈ s.issuedIds := by
  cases c with
  | reregistering =>
    cases h
    exact mem_issuedIds (MintedOk.issued hok)
  | probing | repointing | reprobing =>
    cases h
    exact mem_issuedIds hok.1.issued
  | _ => cases h

theorem Frame.refl (touched : Option String) (s : State) : Frame touched s s where
  handles := fun _ _ h => h
  issued := fun _ h => h
  entryIds := fun _ h => h
  badges := fun x hx => .inr ⟨x, hx, rfl, rfl, rfl, .inl rfl⟩
  entries := fun _ h => .inr h
  kept := fun _ h _ => h

/-- Badges are deleted. -/
theorem Frame.deleteBadges (p : Badge → Bool) :
    Frame touched s (s.setBadges (deleteMany p s.db.badge)) :=
  { Frame.refl touched s with
    badges := fun x hx => (Frame.refl touched s).badges x (mem_deleteMany.mp hx).1 }

/-- An entry no badge refers to is released. -/
theorem Frame.release (ref handle : String) :
    Frame touched s (s.setEntries (release ref handle s.db.badge s.db.nullifierEntry)) := by
  refine { Frame.refl touched s with
    entries := fun e he => .inr (mem_deleteMany.mp he).1
    kept := ?_ }
  rintro e he ⟨x, hx, hxref⟩
  refine mem_deleteMany.mpr ⟨he, decide_eq_false ?_⟩
  rintro ⟨heid, -, hnone⟩
  exact hnone x hx (heid ▸ hxref)

/-- Where calls stand is outside the frame. -/
theorem Frame.setCall (hf : Frame touched s s') (i : Nat) (c : Call) :
    Frame touched s (s'.setCall i c) :=
  ⟨hf.handles, hf.issued, hf.entryIds, hf.badges, hf.entries, hf.kept⟩

/-- A minted handle is not minted again. -/
theorem handleOf_claim {t : List User} {u v : UserId} {h candidate : String}
    (hu : handleOf u t = some h) : handleOf u (claimed v candidate t) = some h := by
  obtain ⟨x, hx, hxh⟩ := Option.bind_eq_some_iff.mp hu
  have hclaimed : isUnclaimed v x = false := by simp [isUnclaimed, hxh]
  unfold handleOf claimed mapWhere
  rw [findUser_map (by intro y; split_ifs <;> rfl), hx]
  simp [hclaimed, hxh]

/-- The slot that was empty holds the candidate. -/
theorem handleOf_claim_self {t : List User} {u : UserId} (candidate : String)
    (h : (findMany (isUnclaimed u) t).length = 1) (ht : Consistent t) :
    handleOf u (claimed u candidate t) = some candidate := by
  obtain ⟨x, hx⟩ := List.length_eq_one_iff.mp h
  obtain ⟨hmem, hun⟩ := mem_findMany.mp (hx ▸ List.mem_singleton_self x)
  obtain ⟨hid, -⟩ := of_decide_eq_true hun
  unfold handleOf claimed mapWhere
  rw [findUser_map (by intro y; split_ifs <;> rfl), (findUser_eq_some_iff ht).mpr ⟨hmem, hid⟩]
  simp [hun]

/-- An empty handle slot is claimed. -/
theorem Frame.claimHandle (v : UserId) (candidate : String) :
    Frame touched s (s.setUsers (claimed v candidate s.db.user)) :=
  { Frame.refl touched s with handles := fun _ _ h => handleOf_claim h }

/-- An entry with a new id is created. -/
theorem Frame.createEntry {new : NullifierEntry} {entryIds : List String}
    (hnew : new.id ∉ s.entryIds) (hids : ∀ r ∈ s.entryIds, r ∈ entryIds) :
    Frame touched s { s.setEntries (s.db.nullifierEntry ++ [new]) with entryIds } := by
  refine { Frame.refl touched s with
    entryIds := hids, entries := ?_, kept := fun e he _ => List.mem_append_left _ he }
  intro e he
  rcases List.mem_append.mp he with hold | hlast
  · exact .inr hold
  · rw [List.mem_singleton.mp hlast]
    exact .inl hnew

/-- No row has the id of a badge that could be inserted. -/
theorem id_not_mem_of_create {t : List Badge} {new : Badge} (hcons : Consistent (t ++ [new])) :
    new.id ∉ t.map (·.id) := by
  intro hmem
  obtain ⟨y, hy, hid⟩ := List.mem_map.mp hmem
  have hclash := (consistent_append_singleton.mp hcons).2 y hy
  simp [clash, hid] at hclash

/-- A badge with a new id is inserted. -/
theorem Frame.createBadge {new : Badge} {issued : List (String × Option String)}
    (hnew : new.id ∉ s.issuedIds) (hcons : Consistent (s.db.badge ++ [new]))
    (hissued : ∀ x ∈ s.issued, x ∈ issued) :
    Frame touched s { s.setBadges (s.db.badge ++ [new]) with issued } := by
  refine { Frame.refl touched s with issued := hissued, badges := ?_ }
  intro x hx
  rcases List.mem_append.mp hx with hold | hlast
  · exact (Frame.refl touched s).badges x hold
  · rw [List.mem_singleton.mp hlast]
    refine .inl ⟨hnew, fun y hy hid => id_not_mem_of_create hcons ?_⟩
    exact List.mem_map.mpr ⟨y, hy, hid⟩

/-- The badge a call has inserted is re-pointed. -/
theorem Frame.repoint (createdId ref : String) :
    Frame (some createdId) s (s.setBadges (mapWhere (fun x => x.id = createdId)
      (fun x => { x with nullifierRef := some ref }) s.db.badge)) := by
  refine { Frame.refl (some createdId) s with badges := fun x hx => ?_ }
  obtain ⟨y, hy, rfl⟩ := mem_mapWhere.mp hx
  right
  by_cases hid : y.id = createdId
  · exact ⟨y, hy, by simp [hid]⟩
  · exact ⟨y, hy, by simp [hid]⟩

/-- Wizard sessions are outside the frame. -/
theorem Frame.setSessions (t : List WizardSession) :
    Frame touched s { s with db := { s.db with wizardSession := t } } :=
  { Frame.refl touched s with }

end Frames

/-! ### One call takes a step -/

section Steps

variable {env : MacEnv} {s s' t : State} {i : Nat} {a : Action} {c c' : Call} {b : Batch}
  {badge : IssuedBadge} {anchor handle badgeType createdId : String} {x : Badge}

/-- What a step does to the rest of the state is within the frame. -/
theorem Effect.frame (h : Effect env s i a c t c') : Frame c.minted? s (t.setCall i c') := by
  have hcons {α : Type} {x : α} {l : List α} : ∀ y ∈ l, y ∈ x :: l :=
    fun _ hy => List.mem_cons_of_mem _ hy
  cases h with
  | pass => exact (Frame.refl _ s).setCall i _
  | claims | losesClaim => exact (Frame.claimHandle _ _).setCall i _
  | registers hfresh | reregisters hfresh => exact (Frame.createEntry hfresh hcons).setCall i _
  | inserts hfresh ht | insertsAnchored hfresh ht =>
    exact (Frame.createBadge hfresh ht hcons).setCall i _
  | repoints => exact (Frame.repoint _ _).setCall i _
  | erases | findsNone | deletes | deletesAnchored => exact (Frame.deleteBadges _).setCall i _
  | releases | releasesEntry => exact (Frame.release _ _).setCall i _
  | scrubs | completes => exact (Frame.setSessions _).setCall i _

/-- A step of one call keeps the invariant if it stays within its frame and answers for
the badges the call answered for and for those it inserts. -/
theorem Inv.of_step (hs : Inv env s) (c' : Call) (hcall : s.calls[i]? = some c)
    (hf : Frame c.minted? s s') (hcalls : s'.calls = s.calls.set i c')
    (huser : Consistent s'.db.user) (hbadge : Consistent s'.db.badge)
    (hentry : Consistent s'.db.nullifierEntry)
    (hids : ∀ e ∈ s'.db.nullifierEntry, e.id ∈ s'.entryIds) (honce : s'.issuedIds.Nodup)
    (hok : c'.Ok env s')
    (hminted : c'.minted? = c.minted? ∨ c'.minted? = none ∨
      ∃ id, c.minted? = none ∧ c'.minted? = some id ∧ id ∉ s.issuedIds)
    (hpending : ∀ x ∈ s'.db.badge,
      (x.id ∈ c.pendingIds ∨ ∀ y ∈ s.db.badge, y.id ≠ x.id) →
        ∀ ref, x.nullifierRef = some ref → Backed env s' x ref ∨ x.id ∈ c'.pendingIds) :
    Inv env s' where
  user := huser
  badge := hbadge
  entry := hentry
  entryIds := hids
  issuedOnce := honce
  calls := by
    rw [hcalls]
    apply forall_mem_set_of_nodup hcall hs.mintedOnce _ hok
    intro d hd hother
    exact (hs.calls d hd).frame hf hother
  mintedOnce := by
    rw [hcalls]
    rcases hminted with hsame | hnone | ⟨id, hnone, hsome, hnew⟩
    · exact hs.mintedOnce.sublist (filterMap_set_sublist hcall (.inl hsame))
    · exact hs.mintedOnce.sublist (filterMap_set_sublist hcall (.inr hnone))
    · rw [(perm_filterMap_set_take hcall hnone hsome).nodup_iff]
      refine hs.mintedOnce.cons fun hmem => hnew ?_
      obtain ⟨d, hd, hdid⟩ := List.mem_filterMap.mp hmem
      exact minted_mem_issuedIds (hs.calls d hd) hdid
  backed := by
    have hnew : c' ∈ s'.calls := by
      rw [hcalls]
      exact List.mem_set (List.getElem?_eq_some_iff.mp hcall).1 c'
    have hmine : ∀ x ∈ s'.db.badge,
        (x.id ∈ c.pendingIds ∨ ∀ y ∈ s.db.badge, y.id ≠ x.id) → ∀ ref,
          x.nullifierRef = some ref →
          Backed env s' x ref ∨ ∃ d ∈ s'.calls, x.id ∈ d.pendingIds := by
      intro x hx hcase ref href
      rcases hpending x hx hcase ref href with hb | hp
      · exact .inl hb
      · exact .inr ⟨c', hnew, hp⟩
    intro x hx ref href
    rcases hf.badges x hx with ⟨-, hfresh⟩ | ⟨y, hy, hid, hyuser, hytype, hsame | htouched⟩
    · exact hmine x hx (.inr hfresh) ref href
    · rcases hs.backed y hy ref (hsame.trans href) with hb | ⟨d, hd, hdp⟩
      · exact .inl (hb.frame hf hy hid hyuser hytype (hsame.trans href))
      · -- The call that answered for it still does, unless it is the one that moved.
        rcases mem_set_of_mem (b := c') hcall hd with hstill | rfl
        · exact .inr ⟨d, hcalls ▸ hstill, hid ▸ hdp⟩
        · exact hmine x hx (.inl (hid ▸ hdp)) ref href
    · exact hmine x hx (.inl (minted_mem_pendingIds htouched)) ref href

/-- A step that changes nothing but where the call stands. -/
theorem Inv.setCall (hs : Inv env s) (c' : Call) (hcall : s.calls[i]? = some c)
    (hok : c'.Ok env s) (hminted : c'.minted? = c.minted? ∨ c'.minted? = none)
    (hpending : ∀ x ∈ s.db.badge, x.id ∈ c.pendingIds →
      ∀ ref, x.nullifierRef = some ref → Backed env s x ref ∨ x.id ∈ c'.pendingIds) :
    Inv env (s.setCall i c') := by
  have hframe {t : Option String} : Frame t s (s.setCall i c') :=
    (Frame.refl t s).setCall i c'
  have hok' : c'.Ok env (s.setCall i c') := hok.frame (hframe (t := none)) (by simp)
  apply hs.of_step c' hcall hframe rfl hs.user hs.badge hs.entry hs.entryIds hs.issuedOnce hok'
    (hminted.imp_right .inl)
  intro x hx hcase ref href
  rcases hcase with hmine | hfresh
  · exact hpending x hx hmine ref href
  · exact absurd rfl (hfresh x hx)

/-- A step of a call that answers for no badge, and changes only where it stands. -/
theorem Inv.setCall_of_pendingIds (hs : Inv env s) (c' : Call) (hcall : s.calls[i]? = some c)
    (hok : c'.Ok env s) (hnone : c.pendingIds = []) (hminted : c'.minted? = none) :
    Inv env (s.setCall i c') := by
  apply hs.setCall c' hcall hok (.inr hminted)
  intro x _ hmine
  rw [hnone] at hmine
  cases hmine

/-- A new call, which answers for no badge. -/
theorem Inv.addCall (hs : Inv env s) (c' : Call) (hok : c'.Ok env s)
    (hminted : c'.minted? = none) : Inv env (s.addCall c') := by
  refine { hs with calls := ?_, mintedOnce := ?_, backed := ?_ }
  · have hframe : Frame none s (s.addCall c') := { Frame.refl none s with }
    intro d hd
    rcases List.mem_append.mp hd with hold | hnew
    · exact (hs.calls d hold).frame hframe (by simp)
    · rw [List.mem_singleton.mp hnew]
      exact hok.frame hframe (by simp)
  · unfold State.addCall
    rw [List.filterMap_append, List.filterMap_cons_none hminted, List.filterMap_nil,
      List.append_nil]
    exact hs.mintedOnce
  · intro x hx ref href
    rcases hs.backed x hx ref href with hb | ⟨d, hd, hdp⟩
    · exact .inl hb
    · exact .inr ⟨d, List.mem_append_left _ hd, hdp⟩

theorem Inv.call_ok (hs : Inv env s) (hcall : s.calls[i]? = some c) : c.Ok env s :=
  hs.calls c (List.mem_of_getElem? hcall)

/-! ### The steps of a call -/

/-- Only the created ids, the account and its handle matter. -/
theorem BatchOk.congr {b' : Batch} (h : BatchOk s b) (hids : b'.createdIds = b.createdIds)
    (huser : b'.userId = b.userId)
    (hhandle : ∀ k, b'.ownerHandle = some k → handleOf b.userId s.db.user = some k) :
    BatchOk s b' where
  owned := by
    rw [hids, huser]
    exact h.owned
  recorded := by
    rw [hids]
    exact h.recorded
  handle := by
    rw [huser]
    exact hhandle

/-- A batch that has done nothing yet. -/
theorem batchOk_start (hids : b.createdIds = []) (hhandle : b.ownerHandle = none) :
    BatchOk s b where
  owned := by simp [hids]
  recorded := by simp [hids]
  handle := by simp [hhandle]

/-- A step whose call answers for no badge, before and after, and which inserts none. -/
theorem Inv.of_frame (hs : Inv env s) (c' : Call) (hcall : s.calls[i]? = some c)
    (hf : Frame c.minted? s s') (hcalls : s'.calls = s.calls.set i c')
    (huser : Consistent s'.db.user) (hbadge : Consistent s'.db.badge)
    (hentry : Consistent s'.db.nullifierEntry)
    (hids : ∀ e ∈ s'.db.nullifierEntry, e.id ∈ s'.entryIds) (hissued : s'.issued = s.issued)
    (hok : c'.Ok env s') (hminted : c'.minted? = c.minted?)
    (hpending : ∀ id ∈ c.pendingIds, id ∈ c'.pendingIds)
    (hbadges : ∀ x ∈ s'.db.badge, ∃ y ∈ s.db.badge, y.id = x.id) : Inv env s' := by
  have honce : s'.issuedIds.Nodup := by
    unfold State.issuedIds
    rw [hissued]
    exact hs.issuedOnce
  apply hs.of_step c' hcall hf hcalls huser hbadge hentry hids honce hok (.inl hminted)
  intro x hx hcase ref _
  rcases hcase with hmine | hfresh
  · exact .inr (hpending _ hmine)
  · obtain ⟨y, hy, hid⟩ := hbadges x hx
    exact absurd hid (hfresh y hy)

/-- Deleting badges takes nothing from the others, and whoever answered for them need
not any more. -/
theorem Inv.deleteBadges (hs : Inv env s) (c' : Call) (p : Badge → Bool)
    (hcall : s.calls[i]? = some c) (hok : ∀ s', c'.Ok env s') (hminted : c'.minted? = none)
    (hgone : ∀ x ∈ s.db.badge, x.id ∈ c.pendingIds → p x = true) :
    Inv env ((s.setBadges (deleteMany p s.db.badge)).setCall i c') := by
  have hf : Frame c.minted? s (s.setBadges (deleteMany p s.db.badge)) := .deleteBadges p
  apply hs.of_step c' hcall (hf.setCall i c') rfl hs.user hs.badge.deleteMany hs.entry
    hs.entryIds hs.issuedOnce (hok _) (.inr (.inl hminted))
  intro x hx hcase ref _
  obtain ⟨hmem, hkept⟩ := mem_deleteMany.mp hx
  rcases hcase with hmine | hfresh
  · rw [hgone x hmem hmine] at hkept
    cases hkept
  · exact absurd rfl (hfresh x hmem)

/-- The handle that was read is the account's. -/
theorem registering_ok (h : BatchOk s b) (hhandle : handleOf b.userId s.db.user = some handle) :
    (Call.registering { b with ownerHandle := some handle } badge anchor handle).Ok env s := by
  refine ⟨h.congr rfl rfl ?_, hhandle⟩
  intro k hk
  rw [← Option.some.inj hk]
  exact hhandle

/-- An entry that is there now is the anchor's, since ids are not used twice. -/
theorem refOk_of_mem (hs : Inv env s) {e : NullifierEntry} (he : e ∈ s.db.nullifierEntry)
    (hvalue : deriveDedupValue env anchor badgeType = .ok e.value) :
    RefOk env s anchor badgeType e.id where
  used := hs.entryIds e he
  value := by
    intro e' he' hid
    rw [hs.entry.eq_of_clash he' he (by simp [clash, hid])]
    exact hvalue

theorem batchOk_of_minting {target : Option Anchored} (h : (Call.minting b badge target).Ok env s) :
    BatchOk s b := by
  cases target with
  | none => exact h
  | some target => exact h.1

/-- A badge whose entry was seen is backed. -/
theorem backed_of_entryExists {target : Anchored}
    (hm : MintedOk s b badge createdId target.anchor target.handle)
    (href : RefOk env s target.anchor badge.type target.ref)
    (hp : PointsTo s createdId target.ref)
    (hseen : entryExistsForOwner target.ref target.handle s.db.nullifierEntry = true)
    (hx : x ∈ s.db.badge) (hid : x.id = createdId) {ref : String}
    (hxref : x.nullifierRef = some ref) : Backed env s x ref := by
  obtain rfl : target.ref = ref := Option.some.inj ((hp x hx hid).symm.trans hxref)
  unfold entryExistsForOwner findEntry at hseen
  split at hseen
  · cases hseen
  · rename_i e hfind
    have he := List.mem_of_find?_eq_some hfind
    have heid : e.id = target.ref := by simpa using List.find?_some hfind
    refine ⟨target.anchor, hid ▸ hm.issued, e, he, heid, ?_, ?_⟩
    · rw [hm.type x hx hid]
      exact href.value e he heid
    · rw [hm.batch.owned x hx (hid ▸ hm.created), of_decide_eq_true hseen]
      exact hm.handle

/-- Giving up, the call answers for everything the batch has created. -/
theorem Inv.giveUp (hs : Inv env s) (error : String) (hcall : s.calls[i]? = some c)
    (hm : MintedOk s b badge createdId anchor handle) (hmine : c.pendingIds = [createdId]) :
    Inv env (s.setCall i (.compensating b error)) := by
  apply hs.setCall (.compensating b error) hcall hm.batch (.inr rfl)
  intro x _ hx _ _
  rw [hmine] at hx
  rw [List.mem_singleton.mp hx]
  exact .inr hm.created

/-- A call that moves on and changes nothing else. -/
theorem Inv.pass (hs : Inv env s) (hcall : s.calls[i]? = some c) (h : Pass env s i a c c') :
    Inv env (s.setCall i c') := by
  have hok := hs.call_ok hcall
  cases h with
  | unanchored | needsHandle =>
    exact hs.setCall_of_pendingIds _ hcall (BatchOk.congr hok rfl rfl hok.handle) rfl rfl
  | leaks | readsNone => exact hs.setCall_of_pendingIds _ hcall hok rfl rfl
  | hasHandle hhandle =>
    exact hs.setCall_of_pendingIds _ hcall
      ⟨BatchOk.congr hok rfl rfl hok.handle, hok.handle _ hhandle⟩ rfl rfl
  | readsHandle hhandle | rereadsHandle hhandle =>
    exact hs.setCall_of_pendingIds _ hcall (registering_ok hok hhandle) rfl rfl
  | yours he hvalue =>
    exact hs.setCall_of_pendingIds _ hcall ⟨hok.1, hok.2, refOk_of_mem hs he hvalue⟩ rfl rfl
  | taken => exact hs.setCall_of_pendingIds _ hcall hok.1 rfl rfl
  | insertThrows | mintThrows =>
    exact hs.setCall_of_pendingIds _ hcall (batchOk_of_minting hok) rfl rfl
  | seen hseen | seenAgain hseen =>
    obtain ⟨hm, href, hp⟩ := hok
    apply hs.setCall (.next _) hcall hm.batch (.inr rfl)
    intro x hx hmine ref hxref
    exact .inl (backed_of_entryExists hm href hp hseen hx (List.mem_singleton.mp hmine) hxref)
  | gone | goneAgain =>
    exact hs.setCall _ hcall hok.1 (.inl rfl) fun x _ hmine _ _ => .inr hmine
  | yoursAgain he hvalue =>
    exact hs.setCall _ hcall ⟨hok, refOk_of_mem hs he hvalue⟩ (.inl rfl)
      fun x _ hmine _ _ => .inr hmine
  | reregisterThrows => exact hs.giveUp _ hcall hok rfl
  | repointThrows | givesUp => exact hs.giveUp _ hcall hok.1 rfl
  | _ => exact hs.setCall_of_pendingIds _ hcall trivial rfl rfl

/-! ### Registration -/

theorem refOk_new {id : String} {value : List UInt8} (hs : Inv env s) (hfresh : id ∉ s.entryIds)
    (hvalue : deriveDedupValue env anchor badgeType = .ok value)
    (hentries : s'.db.nullifierEntry = s.db.nullifierEntry ++ [⟨id, value, handle, badgeType⟩])
    (hused : id ∈ s'.entryIds) : RefOk env s' anchor badgeType id where
  used := hused
  value := by
    intro e he heid
    rw [hentries] at he
    rcases List.mem_append.mp he with hold | hlast
    · exact absurd (heid ▸ hs.entryIds e hold) hfresh
    · rw [List.mem_singleton.mp hlast]
      exact hvalue

/-- Every entry of the extended ledger has a used id. -/
theorem entryIds_cons (hs : Inv env s) {new : NullifierEntry} :
    ∀ e ∈ s.db.nullifierEntry ++ [new], e.id ∈ new.id :: s.entryIds := by
  intro e he
  rcases List.mem_append.mp he with hold | hlast
  · exact List.mem_cons_of_mem _ (hs.entryIds e hold)
  · rw [List.mem_singleton.mp hlast]
    exact List.mem_cons_self

/-! ### Mint -/

/-- The batch after a badge was inserted. -/
theorem BatchOk.created (h : BatchOk s b) (new : Badge) (huser : new.userId = b.userId)
    (hfresh : new.id ∉ s.db.badge.map (·.id)) (hbadges : s'.db.badge = s.db.badge ++ [new])
    (husers : s'.db.user = s.db.user) (hissued : ∀ id ∈ s.issuedIds, id ∈ s'.issuedIds)
    (hnew : new.id ∈ s'.issuedIds) :
    BatchOk s' { b with createdIds := b.createdIds ++ [new.id] } where
  owned := by
    rw [hbadges]
    intro x hx hmem
    rcases List.mem_append.mp hx with hold | hlast
    · rcases List.mem_append.mp hmem with hcreated | hthis
      · exact h.owned x hold hcreated
      · rw [← List.mem_singleton.mp hthis] at hfresh
        exact absurd (List.mem_map_of_mem hold) hfresh
    · rw [List.mem_singleton.mp hlast]
      exact huser
  recorded := by
    intro id hmem
    rcases List.mem_append.mp hmem with hcreated | hthis
    · exact hissued id (h.recorded id hcreated)
    · rw [List.mem_singleton.mp hthis]
      exact hnew
  handle := by
    rw [husers]
    exact h.handle

/-- The inserted badge is the one that was not there before, and the only one with its id. -/
theorem eq_new_of_mem {t : List Badge} {new : Badge} (hcons : Consistent (t ++ [new]))
    (hx : x ∈ t ++ [new]) (hcase : (∀ y ∈ t, y.id ≠ x.id) ∨ x.id = new.id) : x = new := by
  rcases List.mem_append.mp hx with hold | hthis
  · rcases hcase with hne | hid
    · exact absurd rfl (hne x hold)
    · exact absurd (hid ▸ List.mem_map_of_mem hold) (id_not_mem_of_create hcons)
  · exact List.mem_singleton.mp hthis

/-- The step lemma for a call that is running. -/
theorem Inv.effect (hs : Inv env s) (hcall : s.calls[i]? = some c)
    (h : Effect env s i a c t c') : Inv env (t.setCall i c') := by
  have hf := h.frame
  have hok := hs.call_ok hcall
  have hsame {x : Badge} {l : List Badge} (hx : x ∈ l) : ∃ y ∈ l, y.id = x.id := ⟨x, hx, rfl⟩
  cases h with
  | pass hp => exact hs.pass hcall hp
  | claims hcons hone =>
    exact hs.of_frame _ hcall hf rfl hcons hs.badge hs.entry hs.entryIds rfl (registering_ok
      (BatchOk.frame hf hok) (handleOf_claim_self _ hone hs.user)) rfl (fun _ hid => hid)
      fun _ => hsame
  | losesClaim hcons =>
    exact hs.of_frame _ hcall hf rfl hcons hs.badge hs.entry hs.entryIds rfl
      (BatchOk.frame hf hok) rfl (fun _ hid => hid) fun _ => hsame
  | registers hfresh hvalue hcons =>
    have hb := hok.1.frame hf
    exact hs.of_frame _ hcall hf rfl hs.user hs.badge hcons (entryIds_cons hs) rfl
      ⟨hb.congr rfl rfl hb.handle, hok.2, refOk_new hs hfresh hvalue rfl List.mem_cons_self⟩
      rfl (fun _ hid => hid) fun _ => hsame
  | reregisters hfresh hvalue hcons =>
    have hm := MintedOk.frame hf hok
    exact hs.of_frame _ hcall hf rfl hs.user hs.badge hcons (entryIds_cons hs) rfl
      ⟨{ hm with batch := hm.batch.congr rfl rfl hm.batch.handle },
        refOk_new hs hfresh hvalue rfl List.mem_cons_self⟩ rfl (fun _ hid => hid) fun _ => hsame
  | inserts hfresh hcons =>
    have hunused := id_not_mem_of_create hcons
    apply hs.of_step _ hcall hf rfl hs.user hcons hs.entry hs.entryIds (hs.issuedOnce.cons hfresh)
      (BatchOk.created hok _ rfl hunused rfl rfl (fun _ hid => List.mem_cons_of_mem _ hid)
        List.mem_cons_self) (.inr (.inl rfl))
    -- Before the insert the call answered for no badge, so only the new row is in question.
    intro x hx hcase ref href
    rw [eq_new_of_mem hcons hx (.inl (hcase.resolve_left nofun))] at href
    cases href
  | insertsAnchored hfresh hcons =>
    have hunused := id_not_mem_of_create hcons
    obtain ⟨hb, hhandle, href⟩ := hok
    apply hs.of_step _ hcall hf rfl hs.user hcons hs.entry hs.entryIds (hs.issuedOnce.cons hfresh)
      _ (.inr (.inr ⟨_, rfl, rfl, hfresh⟩))
    · intro x hx hcase ref _
      rw [eq_new_of_mem hcons hx (.inl (hcase.resolve_left nofun))]
      exact .inr (List.mem_singleton_self _)
    · refine ⟨⟨hb.created _ rfl hunused rfl rfl (fun _ hid => List.mem_cons_of_mem _ hid)
        List.mem_cons_self, List.mem_append_right _ (List.mem_singleton_self _),
        List.mem_cons_self, ?_, hhandle⟩, href.frame hf, ?_⟩
      · intro x hx hid
        rw [eq_new_of_mem hcons hx (.inr hid)]
      · intro x hx hid
        rw [eq_new_of_mem hcons hx (.inr hid)]
  | repoints hcons =>
    obtain ⟨hm, href⟩ := hok
    apply hs.of_frame _ hcall hf rfl hs.user hcons hs.entry hs.entryIds rfl _ rfl
      (fun _ hid => hid)
    · intro x hx
      obtain ⟨y, hy, rfl⟩ := mem_mapWhere.mp hx
      exact ⟨y, hy, by split_ifs <;> rfl⟩
    · refine ⟨hm.frame hf, href.frame hf, ?_⟩
      intro x hx hid
      obtain ⟨y, hy, rfl⟩ := mem_mapWhere.mp hx
      split_ifs at hid ⊢ with hthis
      · rfl
      · exact absurd (decide_eq_true hid) hthis
  | erases =>
    refine hs.deleteBadges _ _ hcall (fun _ => trivial) rfl fun x hx hmine => ?_
    exact decide_eq_true ⟨hmine, BatchOk.owned hok x hx hmine⟩
  | findsNone | deletes | deletesAnchored =>
    exact hs.deleteBadges _ _ hcall (fun _ => trivial) rfl nofun
  | releases | releasesEntry =>
    exact hs.of_frame _ hcall hf rfl hs.user hs.badge hs.entry.deleteMany
      (fun e he => hs.entryIds e (mem_deleteMany.mp he).1) rfl trivial rfl nofun fun _ => hsame
  | scrubs | completes =>
    exact hs.of_frame _ hcall hf rfl hs.user hs.badge hs.entry hs.entryIds rfl trivial rfl nofun
      fun _ => hsame

end Steps

/-! ### Runs -/

section Runs

variable {env : MacEnv} {s s' : State} {a : Action}

/-- The step lemma. -/
theorem inv_step (hs : Inv env s) (h : step env s a = some s') : Inv env s' := by
  obtain hopens | ⟨hcall, heffect⟩ := effect_of_step h
  · cases hopens with
    | starts => exact hs.addCall _ (batchOk_start rfl rfl) rfl
    | _ => exact hs.addCall _ trivial rfl
  · exact hs.effect hcall heffect

/-- No call is running. -/
def Quiescent (s : State) : Prop := ∀ c ∈ s.calls, ∃ error, c = .returned error

/-- Badges and ledger agree: a badge that refers to the ledger refers to an entry owned
by its holder's handle, and two badges for one anchor and badge type have one holder. -/
structure DedupSafe (s : State) : Prop where
  entry : ∀ x ∈ s.db.badge, ∀ ref, x.nullifierRef = some ref →
    ∃ e ∈ s.db.nullifierEntry, e.id = ref ∧ handleOf x.userId s.db.user = some e.ownerHandle
  oneHolder : ∀ x ∈ s.db.badge, ∀ y ∈ s.db.badge, x.nullifierRef ≠ none →
    y.nullifierRef ≠ none → ∀ anchor, (x.id, some anchor) ∈ s.issued →
      (y.id, some anchor) ∈ s.issued → x.type = y.type → x.userId = y.userId

/-- Handles are unique. -/
theorem eq_of_handleOf {t : List User} {u v : UserId} {handle : String} (ht : Consistent t)
    (hu : handleOf u t = some handle) (hv : handleOf v t = some handle) : u = v := by
  obtain ⟨x, hx, hxh⟩ := Option.bind_eq_some_iff.mp hu
  obtain ⟨y, hy, hyh⟩ := Option.bind_eq_some_iff.mp hv
  have hclash : clash x y = true := by simp [clash, sameKey, hxh, hyh]
  rw [← findUser_id hx, ← findUser_id hy,
    ht.eq_of_clash (mem_of_findUser hx) (mem_of_findUser hy) hclash]

/-- An id was issued for one anchor. -/
theorem issued_inj (h : s.issuedIds.Nodup) {id : String} {x y : Option String}
    (hx : (id, x) ∈ s.issued) (hy : (id, y) ∈ s.issued) : x = y :=
  (Prod.mk.inj (List.inj_on_of_nodup_map h hx hy rfl)).2

/-- With no call running, nobody answers for a badge without an entry. -/
theorem Inv.backed_of_quiescent (hs : Inv env s) (hq : Quiescent s) {x : Badge}
    (hx : x ∈ s.db.badge) {ref : String} (href : x.nullifierRef = some ref) :
    Backed env s x ref := by
  rcases hs.backed x hx ref href with hb | ⟨c, hc, hpending⟩
  · exact hb
  · obtain ⟨error, rfl⟩ := hq c hc
    cases hpending

theorem Inv.dedupSafe (hs : Inv env s) (hq : Quiescent s) : DedupSafe s where
  entry := by
    intro x hx ref href
    obtain ⟨-, -, e, he, hid, -, howner⟩ := hs.backed_of_quiescent hq hx href
    exact ⟨e, he, hid, howner⟩
  oneHolder := by
    intro x hx y hy hxref hyref anchor hxa hya htype
    obtain ⟨r, hr⟩ := Option.ne_none_iff_exists'.mp hxref
    obtain ⟨r', hr'⟩ := Option.ne_none_iff_exists'.mp hyref
    obtain ⟨a, ha, e, he, -, hvalue, howner⟩ := hs.backed_of_quiescent hq hx hr
    obtain ⟨a', ha', e', he', -, hvalue', howner'⟩ := hs.backed_of_quiescent hq hy hr'
    obtain rfl : anchor = a := Option.some.inj (issued_inj hs.issuedOnce hxa ha)
    obtain rfl : anchor = a' := Option.some.inj (issued_inj hs.issuedOnce hya ha')
    -- The two entries have the same value, and values are unique.
    rw [htype] at hvalue
    have hsame : e.value = e'.value := Except.ok.inj (hvalue.symm.trans hvalue')
    have heq : e = e' := hs.entry.eq_of_clash he he' (by simp [clash, hsame])
    rw [heq] at howner
    exact eq_of_handleOf hs.user howner howner'

/-- A database before any call: every badge that refers to the ledger is backed. -/
structure Settled (env : MacEnv) (issued : List (String × Option String)) (db : Db) : Prop where
  user : Consistent db.user
  badge : Consistent db.badge
  entry : Consistent db.nullifierEntry
  issuedOnce : (issued.map Prod.fst).Nodup
  backed : ∀ x ∈ db.badge, ∀ ref, x.nullifierRef = some ref → Backed env { db, issued } x ref

theorem Settled.inv {issued : List (String × Option String)} {db : Db}
    (h : Settled env issued db) :
    Inv env { db, issued, entryIds := db.nullifierEntry.map (·.id) } where
  user := h.user
  badge := h.badge
  entry := h.entry
  entryIds := fun e he => List.mem_map_of_mem he
  issuedOnce := h.issuedOnce
  calls := by simp
  mintedOnce := List.nodup_nil
  backed := fun x hx ref href => .inl (h.backed x hx ref href)

/-- Whatever batches and deletions have run side by side, whenever none is running
badges and ledger agree. -/
theorem dedupSafe_of_run {issued : List (String × Option String)} {db : Db}
    (hdb : Settled env issued db) {actions : List Action}
    (hrun : run (step env) { db, issued, entryIds := db.nullifierEntry.map (·.id) } actions =
      some s)
    (hq : Quiescent s) : DedupSafe s := by
  have hinv : Inv env s := by
    apply run_invariant_always (Inv env) _ hdb.inv hrun
    intro s a s' hs h
    exact inv_step hs h
  exact hinv.dedupSafe hq

end Runs

/-- A secret is set, and the hash keeps its message. -/
def sampleEnv : MacEnv where
  pairwiseSecret := some "secret"
  hkdf := fun _ _ => []
  hmac := fun _ message => message

def githubBadge : IssuedBadge := ⟨"oauth-account", some "42", false, false, some "github"⟩

/-- One account with a handle and two open wizard sessions. -/
def walletDb : Db where
  user := [⟨"A", none, false, false, 0, none, none, some "hA"⟩]
  wizardSession := [⟨"s1", "A", "github", none⟩, ⟨"s2", "A", "github", none⟩]

/-- A badge is issued. A second batch finds the entry its own, but before it inserts its
badge the first badge is deleted and the entry released; the batch notices, registers
the anchor again and re-points its badge. -/
def deleteWhileReissuing : List Action :=
  [.issueBadgesAndComplete "s1" "A" "github" [githubBadge] false, .nextBadge 0, .readHandle 0,
    .registerDedup 0 "e1", .issueBadge 0 "b1", .probe 0, .nextBadge 0, .complete 0,
    .issueBadgesAndComplete "s2" "A" "github" [githubBadge] false, .nextBadge 1, .readHandle 1,
    .registerDedup 1 "e2", .deleteBadge "A" "b1", .readOwner 2, .deleteRow 2, .countSiblings 2,
    .releaseEntry 2, .issueBadge 1 "b2", .probe 1, .reregister 1 "e3", .repoint 1, .reprobe 1,
    .nextBadge 1, .complete 1]

theorem deleteWhileReissuing_dedupSafe : ∃ s,
    run (step sampleEnv) { db := walletDb } deleteWhileReissuing = some s ∧
      s.db.badge = [⟨"b2", "A", "oauth-account", none, some "e3"⟩] ∧ DedupSafe s := by
  have hdb : Settled sampleEnv [] walletDb :=
    ⟨by decide, by decide, by decide, by decide, by simp [walletDb]⟩
  have hrun : run (step sampleEnv) { db := walletDb } deleteWhileReissuing = some _ := rfl
  refine ⟨_, hrun, rfl, dedupSafe_of_run hdb hrun ?_⟩
  intro c hc
  change c ∈ List.replicate 3 (.returned none) at hc
  exact ⟨none, List.eq_of_mem_replicate hc⟩

/-! ### Handles -/

/-- What `ensureDedupHandle` returns by a step, and for which account: the call goes on with the
handle. -/
def returnedHandle (s' : State) : Action → Option (UserId × String)
  | .readHandle i | .claimHandle i _ | .rereadHandle i =>
    match s'.calls[i]? with
    | some (.registering b _ _ handle) => some (b.userId, handle)
    | _ => none
  | _ => none

/-- All that is returned in a run. -/
def returnedHandles (env : MacEnv) : State → List Action → List (UserId × String)
  | _, [] => []
  | s, a :: as =>
    match step env s a with
    | none => []
    | some s' => (returnedHandle s' a).toList ++ returnedHandles env s' as

section Handles

variable {env : MacEnv} {s s' : State} {a : Action} {as : List Action}

/-- The step lemma: a stored handle stays, and a returned one is stored. -/
theorem handles_step (hs : Consistent s.db.user) (h : step env s a = some s') :
    Consistent s'.db.user ∧
      (∀ u k, handleOf u s.db.user = some k → handleOf u s'.db.user = some k) ∧
      ∀ u k, returnedHandle s' a = some (u, k) → handleOf u s'.db.user = some k := by
  obtain hopens | ⟨hcall, heffect⟩ := effect_of_step h
  · exact ⟨hs, fun _ _ hk => hk, by cases hopens <;> nofun⟩
  · have hset (d : Call) : (s.calls.set _ d)[_]? = some d :=
      List.getElem?_set_self (List.getElem?_eq_some_iff.mp hcall).1
    have hkeeps := heffect.frame.handles
    cases heffect with
    | claims hcons hone =>
      refine ⟨hcons, hkeeps, ?_⟩
      simp only [returnedHandle, State.setCall, State.setUsers, hset]
      rintro u k ⟨⟩
      exact handleOf_claim_self _ hone hs
    | losesClaim hcons =>
      exact ⟨hcons, hkeeps, by simp [returnedHandle, State.setCall, State.setUsers, hset]⟩
    | pass hpass =>
      refine ⟨hs, hkeeps, ?_⟩
      cases hpass with
      | readsHandle hhandle | rereadsHandle hhandle =>
        simp only [returnedHandle, State.setCall, hset]
        rintro u k ⟨⟩
        exact hhandle
      | _ => simp [returnedHandle, State.setCall, hset]
    | _ => exact ⟨hs, hkeeps, nofun⟩

/-- The run lemma. -/
theorem handles_run (hs : Consistent s.db.user) (h : run (step env) s as = some s') :
    (∀ u k, handleOf u s.db.user = some k → handleOf u s'.db.user = some k) ∧
      ∀ u k, (u, k) ∈ returnedHandles env s as → handleOf u s'.db.user = some k := by
  induction as generalizing s with
  | nil =>
    cases h
    exact ⟨fun _ _ hk => hk, nofun⟩
  | cons a as ih =>
    obtain ⟨s₁, hstep, hrest⟩ := run_cons_eq_some_iff.mp h
    obtain ⟨hs₁, hkeeps, hreturned⟩ := handles_step hs hstep
    obtain ⟨hkeeps', hreturned'⟩ := ih hs₁ hrest
    refine ⟨fun u k hk => hkeeps' u k (hkeeps u k hk), fun u k hmem => ?_⟩
    simp only [returnedHandles, hstep, List.mem_append, Option.mem_toList] at hmem
    rcases hmem with hnow | hlater
    · exact hkeeps' u k (hreturned u k hnow)
    · exact hreturned' u k hlater

end Handles

/-- In every run, from any table of accounts and with any calls under way, the calls of
`ensureDedupHandle` for one account return the same handle, and a stored handle stays. -/
theorem dedupHandle_stable {env : MacEnv} {s s' : State} {as : List Action}
    (hs : Consistent s.db.user) (h : run (step env) s as = some s') :
    (∀ u k k', (u, k) ∈ returnedHandles env s as → (u, k') ∈ returnedHandles env s as → k = k') ∧
      ∀ u k, handleOf u s.db.user = some k → handleOf u s'.db.user = some k := by
  obtain ⟨hkeeps, hreturned⟩ := handles_run hs h
  refine ⟨fun u k k' hk hk' => ?_, hkeeps⟩
  exact Option.some.inj ((hreturned u k hk).symm.trans (hreturned u k' hk'))

/-- Two batches find the slot of an account empty; the second claims it first. -/
def racingMints : List Action :=
  [.issueBadgesAndComplete "s1" "A" "github" [githubBadge] false,
    .issueBadgesAndComplete "s2" "A" "github" [githubBadge] false, .nextBadge 0, .nextBadge 1,
    .readHandle 0, .readHandle 1, .claimHandle 1 "h", .claimHandle 0 "k", .rereadHandle 0]

theorem racingMints_stable :
    let s : State := { db := { user := [⟨"A", none, false, false, 0, none, none, none⟩] } }
    returnedHandles sampleEnv s racingMints = [("A", "h"), ("A", "h")] ∧
      ∃ s', run (step sampleEnv) s racingMints = some s' ∧ ∀ u k k',
        (u, k) ∈ returnedHandles sampleEnv s racingMints →
          (u, k') ∈ returnedHandles sampleEnv s racingMints → k = k' :=
  ⟨rfl, _, rfl, (dedupHandle_stable (by decide) rfl).1⟩

end Minister.Issuance
