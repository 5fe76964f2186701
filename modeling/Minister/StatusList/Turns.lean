import Minister.StatusList.Reach

/-!
# What becomes of an entry

Facts about every interleaving of allocations and revocations, read off the cases of `Turn`: an
entry keeps its place and stays revoked, an entry is revoked only if its anchor has a tombstone, and
the place of an anchor at a client is the same for every call and in a list of the client.
-/

namespace Minister.StatusLists

open Relational Transition

/-! ### Entries -/

/-- What becomes of an entry: it keeps its id, its anchor and its place, and stays revoked. -/
structure BadgeStatusEntry.Later (e e' : BadgeStatusEntry) : Prop where
  id : e'.id = e.id
  statusAnchor : e'.statusAnchor = e.statusAnchor
  clientId : e'.clientId = e.clientId
  listId : e'.listId = e.listId
  bitIndex : e'.bitIndex = e.bitIndex
  revoked : e.revokedAt ≠ none → e'.revokedAt ≠ none

/-- Every entry of the one table is in the other, possibly revoked since. -/
def Keeps (t t' : List BadgeStatusEntry) : Prop := ∀ e ∈ t, ∃ e' ∈ t', e.Later e'

section Entries

variable {t : List BadgeStatusEntry} {e : BadgeStatusEntry} {p : BadgeStatusEntry → Bool}
  {f : BadgeStatusEntry → BadgeStatusEntry} {writes : List (String × Nat)} {nowMs : Nat}

theorem BadgeStatusEntry.Later.refl (e : BadgeStatusEntry) : e.Later e :=
  ⟨rfl, rfl, rfl, rfl, rfl, fun h => h⟩

theorem BadgeStatusEntry.Later.trans {e₁ e₂ e₃ : BadgeStatusEntry} (h : e₁.Later e₂)
    (h' : e₂.Later e₃) : e₁.Later e₃ :=
  ⟨h'.id.trans h.id, h'.statusAnchor.trans h.statusAnchor, h'.clientId.trans h.clientId,
    h'.listId.trans h.listId, h'.bitIndex.trans h.bitIndex, fun hr => h'.revoked (h.revoked hr)⟩

theorem Keeps.refl (t : List BadgeStatusEntry) : Keeps t t := fun e he => ⟨e, he, .refl e⟩

/-- Marking an entry revoked keeps the rest. -/
theorem later_mark (e : BadgeStatusEntry) (n m : Nat) :
    e.Later { e with revokedAt := some n, revealAfter := some m } :=
  ⟨rfl, rfl, rfl, rfl, rfl, fun _ => Option.some_ne_none n⟩

theorem keeps_mapWhere (hf : ∀ e : BadgeStatusEntry, e.Later (f e)) : Keeps t (mapWhere p f t) := by
  intro e h
  refine ⟨_, mem_mapWhere.mpr ⟨e, h, rfl⟩, ?_⟩
  split_ifs
  · exact hf e
  · exact .refl e

/-- Where an entry of the new table comes from. -/
theorem exists_of_mem_mapWhere (hf : ∀ e : BadgeStatusEntry, e.Later (f e))
    (h : e ∈ mapWhere p f t) : ∃ e₀ ∈ t, e₀.Later e ∧ (e = e₀ ∨ p e₀ = true) := by
  obtain ⟨e₀, he₀, rfl⟩ := mem_mapWhere.mp h
  refine ⟨e₀, he₀, ?_⟩
  split_ifs with hp
  · exact ⟨hf e₀, .inr hp⟩
  · exact ⟨.refl e₀, .inl rfl⟩

theorem keeps_commitEntries : Keeps t (commitEntries nowMs writes t) := by
  induction writes generalizing t with
  | nil => exact .refl t
  | cons u writes ih =>
    intro e he
    obtain ⟨e₁, h₁, hlater₁⟩ := keeps_mapWhere (fun e => later_mark e nowMs u.2) e he
    obtain ⟨e', h', hlater⟩ := ih e₁ h₁
    exact ⟨e', h', hlater₁.trans hlater⟩

theorem exists_of_mem_commitEntries (h : e ∈ commitEntries nowMs writes t) :
    ∃ e₀ ∈ t, e₀.Later e ∧ (e = e₀ ∨ e₀.id ∈ writes.map Prod.fst) := by
  induction writes generalizing t with
  | nil => exact ⟨e, h, .refl e, .inl rfl⟩
  | cons u writes ih =>
    obtain ⟨e₁, h₁, hlater₁, hfrom₁⟩ := ih h
    obtain ⟨e₀, h₀, hlater₀, hfrom₀⟩ :=
      exists_of_mem_mapWhere (fun e => later_mark e nowMs u.2) h₁
    refine ⟨e₀, h₀, hlater₀.trans hlater₁, ?_⟩
    rcases hfrom₀ with rfl | hid
    · rcases hfrom₁ with rfl | hmem
      · exact .inl rfl
      · exact .inr (List.mem_cons_of_mem _ hmem)
    · rw [of_decide_eq_true hid]
      exact .inr List.mem_cons_self

end Entries

section Later

variable {s s' : State} {i : Nat} {c : Call} {e : BadgeStatusEntry}

/-- An entry is never dropped, moved or cleared. -/
theorem keeps_of_turn (h : Turn s i c s') : Keeps s.entries s'.entries := by
  cases h with
  | moves | creates | writes => exact .refl _
  | inserts _ _ => exact fun e he => ⟨e, List.mem_append_left _ he, .refl e⟩
  | forces | marks => exact keeps_mapWhere fun e => later_mark e _ _
  | commits => exact keeps_commitEntries

theorem keeps_of_step {a : Action} (h : step s a = some s') : Keeps s.entries s'.entries := by
  rcases turn_of_step h with ⟨c, -, rfl⟩ | ⟨i, c, -, -, hturn⟩
  · exact .refl _
  · exact keeps_of_turn hturn

/-- A tombstone stays. -/
theorem tombstoned_of_turn (h : Turn s i c s') {anchor : String} (ht : s.Tombstoned anchor) :
    s'.Tombstoned anchor := by
  cases h with
  | writes | commits => exact tombstoned_append.mpr (.inl ht)
  | _ => exact ht

end Later

/-! ### No revoked entry without a tombstone -/

/-- What a call relies on: the tombstone it has seen or written, and entries of its own anchor. -/
def Call.Backed (s : State) : Call → Prop
  | .findingExisting a | .findingShard a | .countingEntries a _ | .creatingShard a _ _
  | .rereadingShard a _ _ | .attempting a _ _ _ | .findingRaced a _ _ _ =>
    a.revokedAt ≠ none → s.Tombstoned a.statusAnchor
  | .forcing statusAnchor _ _ => s.Tombstoned statusAnchor
  | .scanning r w => TombstoneOk s r w ∧ w.revealAfter = []
  | .updating r w remaining _ =>
    TombstoneOk s r w ∧ ∀ id ∈ remaining ++ w.revealAfter.map Prod.fst,
      ∃ e ∈ s.entries, e.id = id ∧ e.statusAnchor = r.anchor
  | .revoked anchor _ => s.Tombstoned anchor
  | _ => True

structure Backed (s : State) : Prop where
  entries : ∀ e ∈ s.entries, e.revokedAt ≠ none → s.Tombstoned e.statusAnchor
  /-- Entries of one id have one anchor. -/
  anchors : ∀ e ∈ s.entries, ∀ e' ∈ s.entries, e.id = e'.id → e.statusAnchor = e'.statusAnchor
  calls : ∀ c ∈ s.calls, c.Backed s

section Backed

variable {s s' : State} {i : Nat} {c c' : Call}

theorem Call.Backed.mono (htomb : ∀ a, s.Tombstoned a → s'.Tombstoned a)
    (hkeeps : Keeps s.entries s'.entries) (h : c.Backed s) : c.Backed s' := by
  cases c with
  | forcing statusAnchor clientId alloc => exact htomb _ h
  | scanning r w => exact ⟨h.1.mono htomb, h.2⟩
  | updating r w remaining found =>
    refine ⟨h.1.mono htomb, fun id hid => ?_⟩
    obtain ⟨e, he, heid, hanchor⟩ := h.2 id hid
    obtain ⟨e', he', hl⟩ := hkeeps e he
    exact ⟨e', he', hl.id.trans heid, hl.statusAnchor.trans hanchor⟩
  | revoked anchor found => exact htomb _ h
  | _ => first | exact fun ha => htomb _ (h ha) | trivial

theorem backed_of_searching {a : Allocation} (hc : c.searching? = some a) :
    c.Backed s ↔ (a.revokedAt ≠ none → s.Tombstoned a.statusAnchor) := by
  cases c <;> cases hc <;> exact Iff.rfl

theorem tombstoned_of_anchorRevokedAt {anchor : String} {n : Nat}
    (h : s.anchorRevokedAt anchor = some n) : s.Tombstoned anchor := by
  obtain ⟨t, hfind, -⟩ := Option.map_eq_some_iff.mp h
  exact ⟨t, List.mem_of_find?_eq_some hfind, by simpa using List.find?_some hfind⟩

theorem backed_reconcile {a : Allocation} {alloc : AllocatedStatus}
    (h : a.revokedAt ≠ none → s.Tombstoned a.statusAnchor) : (reconcile a alloc).Backed s := by
  unfold reconcile
  split
  · rename_i n hn
    exact h (by simp [hn])
  · trivial

theorem exists_of_mem_clearIds {anchor id : String} (h : id ∈ s.clearIds anchor) :
    ∃ e ∈ s.entries, e.id = id ∧ e.statusAnchor = anchor := by
  obtain ⟨e, he, rfl⟩ := List.mem_map.mp h
  obtain ⟨hmem, hclear⟩ := List.mem_filter.mp he
  exact ⟨e, hmem, rfl, (of_decide_eq_true hclear).1⟩

theorem backed_of_moves (hm : Moves s c c') (h : c.Backed s) : c'.Backed s := by
  cases hm with
  | readsAnchor =>
    intro hne
    obtain ⟨n, hn⟩ := Option.ne_none_iff_exists'.mp hne
    exact tombstoned_of_anchorRevokedAt hn
  | misses _ => exact h
  | finds _ _ => trivial
  | findsRevoked _ hrevoked => exact h (by simp [hrevoked])
  | searches hc hc' => exact (backed_of_searching hc').mpr ((backed_of_searching hc).mp h)
  | givesUp _ => trivial
  | raced _ => exact backed_reconcile h
  | rechecks _ => trivial
  | rechecksRevoked hrevoked => exact tombstoned_of_anchorRevokedAt hrevoked
  | keeps ht => exact ⟨.inl ⟨rfl, ht⟩, rfl⟩
  | holds htx => exact ⟨.inr ⟨htx, _, rfl, rfl⟩, rfl⟩
  | scans =>
    refine ⟨h.1, fun id hid => ?_⟩
    rw [h.2, List.map_nil, List.append_nil] at hid
    exact exists_of_mem_clearIds hid
  | @queues r w entryId remaining found jitter htx =>
    refine ⟨h.1, fun id hid => h.2 id ?_⟩
    -- the id goes from those to come to those written
    simp only [List.map_append, List.map_cons, List.map_nil, List.mem_append, List.mem_cons,
      List.not_mem_nil, or_false] at hid ⊢
    tauto
  | rollsBack _ _ => trivial

/-- Outside of a transaction the tombstone is committed. -/
theorem tombstoned_of_tombstoneOk {r : Revocation} {w : Writes} (h : Call.TombstoneOk s r w)
    (htx : r.inTransaction = false) : s.Tombstoned r.anchor := by
  rcases h with ⟨-, ht⟩ | ⟨htx', -⟩
  · exact ht
  · rw [htx] at htx'
    cases htx'

/-- The rule for a step that only rewrites entries: each comes from one before, and those that are
newly revoked have an anchor with a tombstone. -/
theorem Backed.of_rewrite (hs : Backed s) (htomb : ∀ a, s.Tombstoned a → s'.Tombstoned a)
    (hkeeps : Keeps s.entries s'.entries)
    (hfrom : ∀ e ∈ s'.entries, ∃ e₀ ∈ s.entries, e₀.Later e ∧
      (e = e₀ ∨ s'.Tombstoned e₀.statusAnchor))
    (hcalls : ∀ c ∈ s'.calls, c ∈ s.calls ∨ c.Backed s') : Backed s' := by
  refine ⟨?_, ?_, ?_⟩
  · intro e he hrevoked
    obtain ⟨e₀, he₀, hl, rfl | ht⟩ := hfrom e he
    · exact htomb _ (hs.entries e he₀ hrevoked)
    · exact hl.statusAnchor ▸ ht
  · intro e he e' he' hid
    obtain ⟨e₀, he₀, hl, -⟩ := hfrom e he
    obtain ⟨e₁, he₁, hl₁, -⟩ := hfrom e' he'
    rw [hl.statusAnchor, hl₁.statusAnchor]
    exact hs.anchors e₀ he₀ e₁ he₁ (by rw [← hl.id, hid, hl₁.id])
  · intro c hc
    rcases hcalls c hc with hold | hnew
    · exact (hs.calls c hold).mono htomb hkeeps
    · exact hnew

theorem backed_of_turn (hs : Backed s) (hcall : s.calls[i]? = some c) (h : Turn s i c s') :
    Backed s' := by
  have hc : c.Backed s := hs.calls c (List.mem_of_getElem? hcall)
  have htomb (a : String) (ha : s.Tombstoned a) : s'.Tombstoned a := tombstoned_of_turn h ha
  have hkeeps := keeps_of_turn h
  have hself (e : BadgeStatusEntry) (he : e ∈ s.entries) : ∃ e₀ ∈ s.entries, e₀.Later e ∧
      (e = e₀ ∨ s'.Tombstoned e₀.statusAnchor) := ⟨e, he, .refl e, .inl rfl⟩
  have hset {c' : Call} (hc' : c'.Backed s') : ∀ d ∈ s.calls.set i c', d ∈ s.calls ∨ d.Backed s' :=
    forall_mem_set (fun d hd => .inl hd) (.inr hc')
  cases h with
  | moves hm =>
    exact hs.of_rewrite htomb hkeeps hself (hset ((backed_of_moves hm hc).mono htomb hkeeps))
  | creates _ => exact hs.of_rewrite htomb hkeeps hself (hset hc)
  | @inserts a list attempt bitIndex rolled freshId _ hcons =>
    -- the new entry is revoked only if the tombstone was seen, and no other has its id
    refine ⟨?_, ?_, ?_⟩
    · exact forall_mem_concat (fun e he hrevoked => hs.entries e he hrevoked) hc
    · intro e he e' he' hid
      rcases List.mem_append.mp he with hold | hnew <;>
        rcases List.mem_append.mp he' with hold' | hnew'
      · exact hs.anchors e hold e' hold' hid
      all_goals
        rw [hcons.eq_of_clash he he' (by simp [clash, hid])]
    · intro d hd
      rcases hset (backed_reconcile hc) d hd with hold | hnew
      · exact (hs.calls d hold).mono htomb hkeeps
      · exact hnew
  | @forces statusAnchor clientId alloc now =>
    refine hs.of_rewrite htomb hkeeps ?_ (hset trivial)
    intro e he
    obtain ⟨e₀, he₀, hl, rfl | hp⟩ := exists_of_mem_mapWhere (fun e => later_mark e _ _) he
    · exact hself e he₀
    · have hanchor : e₀.statusAnchor = statusAnchor := (of_decide_eq_true hp).1
      exact ⟨e₀, he₀, hl, .inr (hanchor ▸ hc)⟩
  | @writes r htx =>
    refine hs.of_rewrite htomb hkeeps hself (hset ⟨.inl ⟨rfl, ?_⟩, rfl⟩)
    exact tombstoned_append.mpr (.inr ⟨_, List.mem_singleton_self _, rfl⟩)
  | @marks r w entryId remaining found jitter htx =>
    have ht : s.Tombstoned r.anchor := tombstoned_of_tombstoneOk hc.1 htx
    refine hs.of_rewrite htomb hkeeps ?_ (hset ?_)
    · intro e he
      obtain ⟨e₀, he₀, hl, rfl | hp⟩ := exists_of_mem_mapWhere (fun e => later_mark e _ _) he
      · exact hself e he₀
      · obtain ⟨e₁, he₁, hid, hanchor⟩ := hc.2 entryId (by simp)
        refine ⟨e₀, he₀, hl, .inr ?_⟩
        rw [hs.anchors e₀ he₀ e₁ he₁ ((of_decide_eq_true hp).trans hid.symm), hanchor]
        exact ht
    · have hrest : (Call.updating r w remaining found).Backed s :=
        ⟨hc.1, fun id hid => hc.2 id (List.mem_cons_of_mem _ hid)⟩
      exact hrest.mono htomb hkeeps
  | @commits r w found =>
    have ht : State.Tombstoned { s with
        tombstones := s.tombstones ++ w.tombstone.toList
        entries := commitEntries r.nowMs w.revealAfter s.entries
        calls := s.calls.set i (.revoked r.anchor found) } r.anchor := by
      rcases hc.1 with ⟨-, ht⟩ | ⟨-, t, hw, hanchor⟩
      · exact htomb _ ht
      · exact ⟨t, List.mem_append_right _ (by simp [hw]), hanchor⟩
    refine hs.of_rewrite htomb hkeeps ?_ (hset ht)
    intro e he
    obtain ⟨e₀, he₀, hl, rfl | hid⟩ := exists_of_mem_commitEntries he
    · exact hself e he₀
    · obtain ⟨e₁, he₁, hid₁, hanchor⟩ := hc.2 e₀.id (List.mem_append_right _ hid)
      refine ⟨e₀, he₀, hl, .inr ?_⟩
      rw [hs.anchors e₀ he₀ e₁ he₁ hid₁.symm, hanchor]
      exact ht

theorem backed_step (s : State) (a : Action) (s' : State) (hs : Backed s) (h : step s a = some s') :
    Backed s' := by
  rcases turn_of_step h with ⟨c, hstart, rfl⟩ | ⟨i, c, -, hcall, hturn⟩
  · refine ⟨hs.entries, hs.anchors, forall_mem_concat hs.calls ?_⟩
    cases a <;> cases hstart <;> trivial
  · exact backed_of_turn hs hcall hturn

/-- **An entry is revoked only if its anchor is**, in every interleaving. -/
theorem backed_of_run {as : List Action} (hs : Backed s) (hrun : run step s as = some s') :
    Backed s' :=
  run_invariant_always Backed backed_step hs hrun

end Backed

/-! ### What an allocation returns -/

/-- The entry of the anchor at the client has this place. -/
def State.Places (s : State) (statusAnchor clientId : String) (alloc : AllocatedStatus) : Prop :=
  ∃ e ∈ s.entries, e.statusAnchor = statusAnchor ∧ e.clientId = clientId ∧
    e.listId = alloc.listId ∧ e.bitIndex = alloc.bitIndex

/-- The call allocates for the anchor at the client, and what it has found or inserted is theirs. -/
def Call.Allocates (s : State) (statusAnchor clientId : String) : Call → Prop
  | .readingAnchor anchor client => anchor = statusAnchor ∧ client = clientId
  | .findingExisting a | .findingShard a | .countingEntries a _ | .creatingShard a _ _
  | .rereadingShard a _ _ | .attempting a _ _ _ | .findingRaced a _ _ _ =>
    a.statusAnchor = statusAnchor ∧ a.clientId = clientId
  | .rechecking anchor client alloc | .forcing anchor client alloc =>
    (anchor = statusAnchor ∧ client = clientId) ∧ s.Places statusAnchor clientId alloc
  | .allocated alloc => s.Places statusAnchor clientId alloc
  | .failed _ => True
  | _ => False

section Allocates

variable {s s' : State} {i : Nat} {c c' : Call} {statusAnchor clientId : String}
  {alloc : AllocatedStatus} {a : Allocation}

theorem State.Places.mono (hkeeps : Keeps s.entries s'.entries)
    (h : s.Places statusAnchor clientId alloc) : s'.Places statusAnchor clientId alloc := by
  obtain ⟨e, he, hanchor, hclient, hlist, hbit⟩ := h
  obtain ⟨e', he', hl⟩ := hkeeps e he
  exact ⟨e', he', hl.statusAnchor.trans hanchor, hl.clientId.trans hclient, hl.listId.trans hlist,
    hl.bitIndex.trans hbit⟩

theorem Call.Allocates.mono (hkeeps : Keeps s.entries s'.entries)
    (h : c.Allocates s statusAnchor clientId) : c.Allocates s' statusAnchor clientId := by
  cases c with
  | rechecking | forcing => exact ⟨h.1, h.2.mono hkeeps⟩
  | allocated alloc => exact h.mono hkeeps
  | _ => exact h

theorem allocates_of_searching (hc : c.searching? = some a) :
    c.Allocates s statusAnchor clientId ↔
      a.statusAnchor = statusAnchor ∧ a.clientId = clientId := by
  cases c <;> cases hc <;> exact Iff.rfl

theorem places_of_findExisting (h : s.findExisting statusAnchor clientId = some alloc) :
    s.Places statusAnchor clientId alloc := by
  obtain ⟨e, hfind, rfl⟩ := Option.map_eq_some_iff.mp h
  have hof : e.statusAnchor = statusAnchor ∧ e.clientId = clientId := by
    simpa using List.find?_some hfind
  exact ⟨e, List.mem_of_find?_eq_some hfind, hof.1, hof.2, rfl, rfl⟩

theorem allocates_reconcile (h : a.statusAnchor = statusAnchor ∧ a.clientId = clientId)
    (hplace : s.Places statusAnchor clientId alloc) :
    (reconcile a alloc).Allocates s statusAnchor clientId := by
  unfold reconcile
  split <;> exact ⟨h, hplace⟩

theorem allocates_of_moves (hm : Moves s c c') (h : c.Allocates s statusAnchor clientId) :
    c'.Allocates s statusAnchor clientId := by
  cases hm with
  | readsAnchor => exact h
  | misses _ => exact h
  | finds hfind _ =>
    obtain ⟨rfl, rfl⟩ := h
    exact places_of_findExisting hfind
  | findsRevoked hfind _ =>
    obtain ⟨rfl, rfl⟩ := h
    exact ⟨⟨rfl, rfl⟩, places_of_findExisting hfind⟩
  | searches hc hc' => exact (allocates_of_searching hc').mpr ((allocates_of_searching hc).mp h)
  | givesUp _ => trivial
  | raced hfind =>
    obtain ⟨rfl, rfl⟩ := h
    exact allocates_reconcile ⟨rfl, rfl⟩ (places_of_findExisting hfind)
  | rechecks _ => exact h.2
  | rechecksRevoked _ => exact h
  | keeps _ => exact h.elim
  | holds _ => exact h.elim
  | scans => exact h.elim
  | queues _ => exact h.elim
  | rollsBack hc _ => cases c <;> cases hc <;> exact h.elim

/-- A statement of the call itself. -/
theorem allocates_of_turn (hcall : s.calls[i]? = some c) (h : Turn s i c s')
    (halloc : c.Allocates s statusAnchor clientId) :
    ∃ c', s'.calls[i]? = some c' ∧ c'.Allocates s' statusAnchor clientId := by
  have hlt : i < s.calls.length := (List.getElem?_eq_some_iff.mp hcall).1
  have hset (d : Call) : (s.calls.set i d)[i]? = some d := List.getElem?_set_self hlt
  cases h with
  | moves hm =>
    refine ⟨_, hset _, (allocates_of_moves hm halloc).mono (.refl _)⟩
  | creates _ => exact ⟨_, hset _, halloc⟩
  | inserts _ _ =>
    obtain ⟨rfl, rfl⟩ := halloc
    refine ⟨_, hset _, allocates_reconcile ⟨rfl, rfl⟩ ?_⟩
    exact ⟨_, List.mem_append_right _ (List.mem_singleton_self _), rfl, rfl, rfl, rfl⟩
  | forces =>
    exact ⟨_, hset _, halloc.2.mono (keeps_mapWhere fun e => later_mark e _ _)⟩
  | writes | marks | commits => exact halloc.elim

/-- The call at a place of the pool allocates for the anchor at the client. -/
def State.AllocatesAt (s : State) (i : Nat) (statusAnchor clientId : String) : Prop :=
  ∃ c, s.calls[i]? = some c ∧ c.Allocates s statusAnchor clientId

theorem allocatesAt_step (s : State) (a : Action) (s' : State)
    (hs : s.AllocatesAt i statusAnchor clientId) (h : step s a = some s') :
    s'.AllocatesAt i statusAnchor clientId := by
  obtain ⟨c, hc, halloc⟩ := hs
  rcases turn_of_step h with ⟨d, -, rfl⟩ | ⟨j, d, -, hd, hturn⟩
  · refine ⟨c, ?_, halloc⟩
    rw [List.getElem?_append_left (List.getElem?_eq_some_iff.mp hc).1]
    exact hc
  · by_cases hij : j = i
    · subst hij
      obtain rfl := Option.some.inj (hc.symm.trans hd)
      exact allocates_of_turn hc hturn halloc
    · -- another call's statement leaves this one where it is
      refine ⟨c, ?_, halloc.mono (keeps_of_step h)⟩
      rw [← hc]
      cases hturn <;> exact List.getElem?_set_ne hij

end Allocates

/-! ### Handles -/

/-- A shard that the call has chosen is one of its client's. -/
def Call.PerClient (s : State) (c : Call) : Prop :=
  ∀ a, c.searching? = some a → ∀ row, c.shard? = some row → s.Shard a.clientId row

/-- Every entry is in a list of its client, and no other entry has its place. -/
structure State.Handles (s : State) : Prop where
  ids : (s.lists.map (·.id)).Nodup
  entries : Consistent s.entries
  lists : ∀ e ∈ s.entries, ∃ l ∈ s.lists, l.id = e.listId ∧ l.clientId = e.clientId
  calls : ∀ c ∈ s.calls, c.PerClient s

section Handles

variable {s s' : State} {i : Nat} {c c' : Call} {statusAnchor clientId : String}
  {alloc : AllocatedStatus} {t : List BadgeStatusEntry} {nowMs : Nat}

theorem perClient_reconcile {a : Allocation} : (reconcile a alloc).PerClient s := by
  unfold reconcile
  split <;> exact nofun

theorem perClient_of_moves (hm : Moves s c c') (h : c.PerClient s) : c'.PerClient s := by
  cases hm with
  | misses _ => exact fun _ _ => nofun
  | @searches _ _ a hc hc' hshard =>
    intro a' ha' row hrow
    obtain rfl : a = a' := Option.some.inj (hc'.symm.trans ha')
    rcases hshard row hrow with hold | hnew
    · exact h a hc row hold
    · exact hnew
  | raced _ => exact perClient_reconcile
  | _ => exact nofun

theorem consistent_revokeEntry {revealAfter : Nat} {id : String} (h : Consistent t) :
    Consistent (revokeEntry nowMs id revealAfter t) :=
  h.mapWhere_of_clash _ fun _ _ => rfl

theorem consistent_commitEntries {writes : List (String × Nat)} (h : Consistent t) :
    Consistent (commitEntries nowMs writes t) := by
  induction writes generalizing t with
  | nil => exact h
  | cons u writes ih => exact ih (consistent_revokeEntry h)

theorem handles_of_turn (hs : s.Handles) (hcall : s.calls[i]? = some c) (h : Turn s i c s') :
    s'.Handles := by
  have hc : c.PerClient s := hs.calls c (List.mem_of_getElem? hcall)
  have hfrom {t : List BadgeStatusEntry} {p : BadgeStatusEntry → BadgeStatusEntry → Prop}
      (ht : ∀ e ∈ t, ∃ e₀ ∈ s.entries, e₀.Later e ∧ p e₀ e) :
      ∀ e ∈ t, ∃ l ∈ s.lists, l.id = e.listId ∧ l.clientId = e.clientId := by
    intro e he
    obtain ⟨e₀, he₀, hl, -⟩ := ht e he
    rw [hl.listId, hl.clientId]
    exact hs.lists e₀ he₀
  cases h with
  | moves hm =>
    have hc' := perClient_of_moves hm hc
    exact ⟨hs.ids, hs.entries, hs.lists, forall_mem_set hs.calls hc'⟩
  | @creates a shardNo rolled freshId hid =>
    have hold {l : StatusList} (hl : l ∈ s.lists) :
        l ∈ s.lists ++ [⟨freshId, a.clientId, shardNo⟩] := List.mem_append_left _ hl
    have hids : ((s.lists ++ [StatusList.mk freshId a.clientId shardNo]).map (·.id)).Nodup := by
      rw [List.map_append]
      exact hs.ids.append (List.nodup_singleton _) (List.disjoint_singleton.mpr hid)
    refine ⟨hids, hs.entries, fun e he => ?_, forall_mem_set (fun d hd => ?_) ?_⟩
    · obtain ⟨l, hl, hof⟩ := hs.lists e he
      exact ⟨l, hold hl, hof⟩
    · intro b hb row hrow
      obtain ⟨l, hl, hof⟩ := hs.calls d hd b hb row hrow
      exact ⟨l, hold hl, hof⟩
    · rintro b hb row hrow
      cases hb
      cases hrow
      exact ⟨_, List.mem_append_right _ (List.mem_singleton_self _), rfl, rfl⟩
  | @inserts a list attempt bitIndex rolled freshId _ hcons =>
    refine ⟨hs.ids, hcons, ?_, forall_mem_set hs.calls perClient_reconcile⟩
    exact forall_mem_concat hs.lists (hc a rfl list rfl)
  | forces =>
    refine ⟨hs.ids, hs.entries.mapWhere_of_clash _ fun _ _ => rfl, ?_,
      forall_mem_set hs.calls nofun⟩
    exact hfrom fun e => exists_of_mem_mapWhere fun e => later_mark e _ _
  | writes _ => exact ⟨hs.ids, hs.entries, hs.lists, forall_mem_set hs.calls nofun⟩
  | marks _ =>
    refine ⟨hs.ids, consistent_revokeEntry hs.entries, ?_, forall_mem_set hs.calls nofun⟩
    exact hfrom fun e => exists_of_mem_mapWhere fun e => later_mark e _ _
  | commits =>
    refine ⟨hs.ids, consistent_commitEntries hs.entries, ?_, forall_mem_set hs.calls nofun⟩
    exact hfrom fun e => exists_of_mem_commitEntries

theorem handles_step (s : State) (a : Action) (s' : State) (hs : s.Handles)
    (h : step s a = some s') : s'.Handles := by
  rcases turn_of_step h with ⟨c, hstart, rfl⟩ | ⟨i, c, -, hcall, hturn⟩
  · refine ⟨hs.ids, hs.entries, hs.lists, forall_mem_concat hs.calls ?_⟩
    cases a <;> cases hstart <;> exact nofun
  · exact handles_of_turn hs hcall hturn

theorem length_calls_of_turn (h : Turn s i c s') : s'.calls.length = s.calls.length := by
  cases h <;> exact List.length_set

/-- The calls of a run, in the order they were started in. -/
def starts (as : List Action) : List Call := as.filterMap Action.started?

/-- A call allocates for what it was started for. -/
theorem allocatesAt_of_run {s₀ : State} {as : List Action} (hcalls : s₀.calls = [])
    (hrun : run step s₀ as = some s) :
    ∀ i, (starts as)[i]? = some (.readingAnchor statusAnchor clientId) →
      s.AllocatesAt i statusAnchor clientId := by
  -- the calls stand in the pool in the order they were started in
  have hinv : s.calls.length = (starts as).length ∧ ∀ i c, (starts as)[i]? = some c →
      c = .readingAnchor statusAnchor clientId → s.AllocatesAt i statusAnchor clientId := by
    refine run_invariant_history (fun as s => s.calls.length = (starts as).length ∧ ∀ i c,
      (starts as)[i]? = some c → c = .readingAnchor statusAnchor clientId →
        s.AllocatesAt i statusAnchor clientId) ⟨congrArg List.length hcalls, nofun⟩ ?_ hrun
    rintro as s₁ a s₂ - ⟨hlength, hall⟩ hstep
    have hall' (i : Nat) (c : Call) (hi : (starts as)[i]? = some c)
        (hc : c = .readingAnchor statusAnchor clientId) : s₂.AllocatesAt i statusAnchor clientId :=
      allocatesAt_step s₁ a s₂ (hall i c hi hc) hstep
    have happend : starts (as ++ [a]) = starts as ++ starts [a] := List.filterMap_append
    rw [happend]
    rcases turn_of_step hstep with ⟨c, hc, rfl⟩ | ⟨j, c, hj, hcall, hturn⟩
    · have hnew : starts [a] = [c] := by simp [starts, hc]
      rw [hnew]
      refine ⟨by simpa using hlength, forall_getElem?_append hall' ?_⟩
      rintro rfl
      refine ⟨.readingAnchor statusAnchor clientId, ?_, rfl, rfl⟩
      rw [← hlength]
      exact List.getElem?_concat_length
    · have hnone : starts [a] = [] := by
        cases a <;> first | rfl | cases hj
      rw [hnone, List.append_nil]
      exact ⟨(length_calls_of_turn hturn).trans hlength, hall'⟩
  exact fun i hi => hinv.2 i _ hi rfl

/-- An anchor has one place at a client. -/
theorem eq_of_places (hs : s.Handles) {alloc' : AllocatedStatus}
    (h : s.Places statusAnchor clientId alloc) (h' : s.Places statusAnchor clientId alloc') :
    alloc = alloc' := by
  obtain ⟨e, he, hanchor, hclient, hlist, hbit⟩ := h
  obtain ⟨e', he', hanchor', hclient', hlist', hbit'⟩ := h'
  obtain rfl : e = e' := hs.entries.eq_of_clash he he'
    (by simp [clash, hanchor, hanchor', hclient, hclient'])
  obtain ⟨listId, bitIndex⟩ := alloc
  obtain ⟨listId', bitIndex'⟩ := alloc'
  rw [AllocatedStatus.mk.injEq]
  exact ⟨hlist.symm.trans hlist', hbit.symm.trans hbit'⟩

/-- **A handle is stable and belongs to one client**, in every interleaving. -/
theorem handles_of_run {s₀ : State} {as : List Action} (hs : s₀.Handles) (hcalls : s₀.calls = [])
    (hrun : run step s₀ as = some s) :
    (∀ e ∈ s.entries, ∃ l ∈ s.lists, l.id = e.listId ∧ l.clientId = e.clientId ∧
      ∀ l' ∈ s.lists, l'.id = e.listId → l' = l) ∧
    (s.entries.Pairwise fun e e' => ¬(e.listId = e'.listId ∧ e.bitIndex = e'.bitIndex)) ∧
    ∀ (i j : Nat) (statusAnchor clientId : String) (alloc alloc' : AllocatedStatus),
      (starts as)[i]? = some (.readingAnchor statusAnchor clientId) →
      (starts as)[j]? = some (.readingAnchor statusAnchor clientId) →
      s.calls[i]? = some (.allocated alloc) → s.calls[j]? = some (.allocated alloc') →
        alloc = alloc' := by
  have hinv : s.Handles := run_invariant_always State.Handles handles_step hs hrun
  refine ⟨fun e he => ?_, ?_, ?_⟩
  · obtain ⟨l, hl, hid, hclient⟩ := hinv.lists e he
    refine ⟨l, hl, hid, hclient, fun l' hl' hid' => ?_⟩
    exact List.inj_on_of_nodup_map hinv.ids hl' hl (hid'.trans hid.symm)
  · refine hinv.entries.imp fun {e e'} hclash hplace => ?_
    simp [clash, hplace.1, hplace.2] at hclash
  · intro i j statusAnchor clientId alloc alloc' hi hj halloc halloc'
    obtain ⟨c, hc, hplaces⟩ := allocatesAt_of_run hcalls hrun i hi
    obtain ⟨c', hc', hplaces'⟩ := allocatesAt_of_run hcalls hrun j hj
    obtain rfl := Option.some.inj (hc.symm.trans halloc)
    obtain rfl := Option.some.inj (hc'.symm.trans halloc')
    exact eq_of_places hinv hplaces hplaces'

/-- Two disclosures of one badge to one client, which both find no entry and draw the same shard;
the second finds the entry of the first. -/
def twoDisclosures : List Action :=
  [.allocate "badge:b1" "mc_rp", .allocate "badge:b1" "mc_rp", .readAnchor 0, .readAnchor 1,
    .findExisting 0, .findExisting 1, .findShard 0, .findShard 1, .createShard 0 "L0",
    .createShard 1 "L1", .rereadShard 1, .attempt 0 123 "e0" .anchor, .attempt 1 456 "e1" .anchor,
    .findRaced 1, .recheck 0, .recheck 1]

theorem twoDisclosures_handle : ∃ s, run step {} twoDisclosures = some s ∧
    s.calls = [.allocated ⟨"L0", 123⟩, .allocated ⟨"L0", 123⟩] ∧
    s.entries.Pairwise fun e e' => ¬(e.listId = e'.listId ∧ e.bitIndex = e'.bitIndex) := by
  have hnone : State.Handles {} := ⟨List.nodup_nil, .nil, nofun, nofun⟩
  exact exists_run_and (by decide +kernel) fun s hrun => (handles_of_run hnone rfl hrun).2.1

end Handles

/-! ### Which anchors get tombstones -/

/-- What the call may write a tombstone for. -/
def Call.Within (P : String → Prop) : Call → Prop
  | .upserting r => P r.anchor
  | .scanning r w | .updating r w _ _ => P r.anchor ∧ ∀ t ∈ w.tombstone, P t.statusAnchor
  | _ => True

/-- Only these anchors have tombstones, or get them. -/
structure Within (P : String → Prop) (s : State) : Prop where
  tombstones : ∀ anchor, s.Tombstoned anchor → P anchor
  calls : ∀ c ∈ s.calls, c.Within P

section Within

variable {s s' : State} {i : Nat} {c c' : Call} {P : String → Prop}

theorem within_of_searching {a : Allocation} (hc : c.searching? = some a) : c.Within P := by
  cases c <;> cases hc <;> trivial

theorem within_reconcile {a : Allocation} {alloc : AllocatedStatus} :
    (reconcile a alloc).Within P := by
  unfold reconcile
  split <;> trivial

theorem within_of_moves (hm : Moves s c c') (h : c.Within P) : c'.Within P := by
  cases hm with
  | searches _ hc' => exact within_of_searching hc'
  | raced _ => exact within_reconcile
  | keeps _ => exact ⟨h, nofun⟩
  | holds _ =>
    refine ⟨h, fun t ht => ?_⟩
    cases ht
    exact h
  | scans => exact h
  | queues _ => exact h
  | _ => trivial

theorem within_of_turn (hs : Within P s) (hcall : s.calls[i]? = some c) (h : Turn s i c s') :
    Within P s' := by
  have hc : c.Within P := hs.calls c (List.mem_of_getElem? hcall)
  cases h with
  | moves hm => exact ⟨hs.tombstones, forall_mem_set hs.calls (within_of_moves hm hc)⟩
  | creates | forces => exact ⟨hs.tombstones, forall_mem_set hs.calls trivial⟩
  | inserts _ _ => exact ⟨hs.tombstones, forall_mem_set hs.calls within_reconcile⟩
  | writes _ =>
    refine ⟨fun anchor ht => ?_, forall_mem_set hs.calls ⟨hc, nofun⟩⟩
    rcases tombstoned_append.mp ht with hold | ⟨t, hnew, rfl⟩
    · exact hs.tombstones anchor hold
    · obtain rfl := List.mem_singleton.mp hnew
      exact hc
  | marks _ => exact ⟨hs.tombstones, forall_mem_set hs.calls hc⟩
  | commits =>
    refine ⟨fun anchor ht => ?_, forall_mem_set hs.calls trivial⟩
    rcases tombstoned_append.mp ht with hold | ⟨t, hnew, rfl⟩
    · exact hs.tombstones anchor hold
    · exact hc.2 t (Option.mem_toList.mp hnew)

/-- A step that starts no revocation, or one of an anchor that may be revoked. -/
theorem within_step (s : State) (a : Action) (s' : State) (hs : Within P s)
    (hok : ∀ c ∈ a.started?, c.Within P) (h : step s a = some s') : Within P s' := by
  rcases turn_of_step h with ⟨c, hstart, rfl⟩ | ⟨i, c, -, hcall, hturn⟩
  · exact ⟨hs.tombstones, forall_mem_concat hs.calls (hok c hstart)⟩
  · exact within_of_turn hs hcall hturn

end Within

end Minister.StatusLists
