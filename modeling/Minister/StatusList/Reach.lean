import Minister.StatusList.Calls
import Minister.Transition.Pool
import Minister.Transition.Run

/-!
# Revocation reaches every entry

An allocation and a revocation of one anchor each look for what the other has written:
the revocation scans for entries after it has written its tombstone, and the allocation
reads the tombstone again after it has inserted its entry. Without a transaction one of
the two always sees the other. Within a transaction the tombstone cannot be seen before
the commit, and an entry inserted after the scan is then missed by both if its
allocation reads the tombstone before the commit.

The theorem is about runs in which this does not happen. Its invariant says who is going
to revoke an entry that is still clear: once the tombstone is committed, an allocation
that has not read it yet or has seen it, or a revocation that has not scanned yet or has
found the entry; and as long as a transaction that has missed the entry is open, an
allocation that will read the tombstone again.
-/

namespace Minister.StatusLists

open Relational Transition

/-! ### Who revokes an entry -/

namespace Call

/-- The call is going to read the tombstone of the entry's anchor again. -/
def Rechecks (e : BadgeStatusEntry) : Call → Prop
  | rechecking statusAnchor clientId _ => statusAnchor = e.statusAnchor ∧ clientId = e.clientId
  | _ => False

/-- If the tombstone is committed, the call is going to revoke the entry. -/
def Guards (e : BadgeStatusEntry) : Call → Prop
  | rechecking statusAnchor clientId _ => statusAnchor = e.statusAnchor ∧ clientId = e.clientId
  | forcing statusAnchor clientId _ => statusAnchor = e.statusAnchor ∧ clientId = e.clientId
  | scanning r _ => r.inTransaction = false ∧ r.anchor = e.statusAnchor
  | updating r _ remaining _ =>
    r.inTransaction = false ∧ r.anchor = e.statusAnchor ∧ e.id ∈ remaining
  | _ => False

/-- The call is in a transaction that revokes the entry's anchor, and its scan has not
found the entry. -/
def Misses (e : BadgeStatusEntry) : Call → Prop
  | updating r w remaining _ =>
    r.inTransaction = true ∧ r.anchor = e.statusAnchor ∧ e.id ∉ remaining ∧
      e.id ∉ w.revealAfter.map Prod.fst
  | _ => False

/-- The tombstone is committed, or written by the call's own transaction. -/
def TombstoneOk (s : State) (r : Revocation) (w : Writes) : Prop :=
  w.tombstone = none ∧ s.Tombstoned r.anchor ∨
    r.inTransaction = true ∧ ∃ t, w.tombstone = some t ∧ t.statusAnchor = r.anchor

def Ok (s : State) : Call → Prop
  | scanning r w => TombstoneOk s r w
  | updating r w _ _ => TombstoneOk s r w
  | revoked anchor _ => s.Tombstoned anchor
  | _ => True

/-- The call has returned. -/
def Finished : Call → Prop
  | allocated _ => True
  | failed _ => True
  | revoked _ _ => True
  | rolledBack => True
  | _ => False

end Call

/-- Before an allocation reads the tombstone again, no open transaction has scanned for
entries of the anchor without finding the allocation's entry. -/
def Timely (s : State) : Action → Prop
  | .recheck i => ∀ statusAnchor clientId alloc,
    s.calls[i]? = some (.rechecking statusAnchor clientId alloc) →
      ∀ e ∈ s.entries, e.statusAnchor = statusAnchor → e.clientId = clientId →
        e.revokedAt = none → ∀ c ∈ s.calls, ¬c.Misses e
  | _ => True

structure Inv (s : State) : Prop where
  /-- A clear entry whose tombstone is committed is going to be revoked. -/
  guarded : ∀ e ∈ s.entries, e.revokedAt = none → s.Tombstoned e.statusAnchor →
    ∃ c ∈ s.calls, c.Guards e
  /-- A clear entry that an open transaction has missed waits for a second read. -/
  rechecked : ∀ e ∈ s.entries, e.revokedAt = none → ∀ c ∈ s.calls, c.Misses e →
    ∃ c' ∈ s.calls, c'.Rechecks e
  ok : ∀ c ∈ s.calls, c.Ok s

section Steps

variable {s s' : State} {i : Nat} {c c' : Call} {e : BadgeStatusEntry} {r : Revocation} {w : Writes}
  {a : Allocation} {alloc : AllocatedStatus} {found revealAfter : Nat} {remaining : List String}
  {statusAnchor clientId anchor entryId : String} {t : List BadgeStatusEntry}

theorem Call.Rechecks.guards (h : c.Rechecks e) : c.Guards e := by
  cases c <;> first | exact h | cases h

theorem Call.TombstoneOk.mono (htomb : ∀ a, s.Tombstoned a → s'.Tombstoned a)
    (h : TombstoneOk s r w) : TombstoneOk s' r w := by
  rcases h with ⟨hw, ht⟩ | htx
  · exact .inl ⟨hw, htomb _ ht⟩
  · exact .inr htx

theorem Call.Ok.mono (htomb : ∀ a, s.Tombstoned a → s'.Tombstoned a) (h : c.Ok s) : c.Ok s' := by
  cases c with
  | scanning | updating => exact Call.TombstoneOk.mono htomb h
  | revoked anchor found => exact htomb _ h
  | _ => trivial

/-- What a step of one call has to show. -/
theorem Inv.of_step (hs : Inv s) (hcall : s.calls[i]? = some c)
    (hcalls : s'.calls = s.calls.set i c')
    (htomb : ∀ a, s.Tombstoned a → s'.Tombstoned a)
    (hentry : ∀ e ∈ s'.entries, e.revokedAt = none → e ∈ s.entries ∨ c'.Rechecks e)
    (hnew : ∀ e ∈ s.entries, e ∈ s'.entries → e.revokedAt = none → s'.Tombstoned e.statusAnchor →
      ¬s.Tombstoned e.statusAnchor → c'.Guards e ∨ ∃ c₁ ∈ s.calls, c₁.Guards e)
    (hguards : ∀ e ∈ s.entries, e ∈ s'.entries → e.revokedAt = none →
      s'.Tombstoned e.statusAnchor → c.Guards e → c'.Guards e)
    (hrechecks : ∀ e ∈ s.entries, e.revokedAt = none → c.Rechecks e →
      c'.Rechecks e ∨ ∀ c₁ ∈ s.calls, ¬c₁.Misses e)
    (hmisses : ∀ e ∈ s.entries, e ∈ s'.entries → e.revokedAt = none → c'.Misses e → c.Misses e)
    (hok : c'.Ok s') : Inv s' := by
  have hc : c ∈ s.calls := List.mem_of_getElem? hcall
  have hc' : c' ∈ s'.calls := by
    rw [hcalls]
    exact List.mem_set (List.getElem?_eq_some_iff.mp hcall).1 c'
  have hold {c₁ : Call} (h₁ : c₁ ∈ s.calls) : c₁ ∈ s'.calls ∨ c₁ = c := by
    rw [hcalls]
    exact mem_set_of_mem hcall h₁
  refine ⟨?_, ?_, ?_⟩
  · intro e he hclear ht
    rcases hentry e he hclear with he₀ | hre
    · have hguard : c'.Guards e ∨ ∃ c₁ ∈ s.calls, c₁.Guards e := by
        by_cases ht₀ : s.Tombstoned e.statusAnchor
        · exact .inr (hs.guarded e he₀ hclear ht₀)
        · exact hnew e he₀ he hclear ht ht₀
      rcases hguard with h' | ⟨c₁, h₁, hg⟩
      · exact ⟨c', hc', h'⟩
      · rcases hold h₁ with h₁' | rfl
        · exact ⟨c₁, h₁', hg⟩
        · exact ⟨c', hc', hguards e he₀ he hclear ht hg⟩
    · exact ⟨c', hc', hre.guards⟩
  · intro e he hclear c₁ h₁ hmiss
    rcases hentry e he hclear with he₀ | hre
    · -- Whoever misses the entry now missed it before the step.
      have hmiss₀ : ∃ c₀ ∈ s.calls, c₀.Misses e := by
        rw [hcalls] at h₁
        rcases List.mem_or_eq_of_mem_set h₁ with h₁ | rfl
        · exact ⟨c₁, h₁, hmiss⟩
        · exact ⟨c, hc, hmisses e he₀ he hclear hmiss⟩
      obtain ⟨c₀, h₀, hmiss₀⟩ := hmiss₀
      obtain ⟨c₂, h₂, hre⟩ := hs.rechecked e he₀ hclear c₀ h₀ hmiss₀
      rcases hold h₂ with h₂' | rfl
      · exact ⟨c₂, h₂', hre⟩
      · rcases hrechecks e he₀ hclear hre with hre' | hnone
        · exact ⟨c', hc', hre'⟩
        · exact absurd hmiss₀ (hnone c₀ h₀)
    · exact ⟨c', hc', hre⟩
  · rw [hcalls]
    exact forall_mem_set (fun c₁ h₁ => (hs.ok c₁ h₁).mono htomb) hok

/-- A step of a call that no entry depends on, and that writes no row. -/
theorem Inv.setCall (hs : Inv s) (hcall : s.calls[i]? = some c) (hg : ∀ e, ¬c.Guards e)
    (hm : ∀ e, ¬c'.Misses e) (hok : c'.Ok s) : Inv (s.setCall i c') :=
  hs.of_step hcall rfl (fun _ h => h) (fun _ he _ => .inl he) (fun _ _ _ _ h hn => absurd h hn)
    (fun e _ _ _ _ h => absurd h (hg e)) (fun e _ _ h => absurd h.guards (hg e))
    (fun e _ _ _ h => absurd h (hm e)) hok

/-! ### Allocation -/

theorem not_misses_reconcile (a : Allocation) (alloc : AllocatedStatus) :
    ¬(reconcile a alloc).Misses e := by
  unfold reconcile
  split <;> exact id

theorem reconcile_ok (a : Allocation) (alloc : AllocatedStatus) : (reconcile a alloc).Ok s := by
  unfold reconcile
  split <;> trivial

/-- A call that looks for a free index has inserted no entry. -/
theorem not_guards_of_searching (h : c.searching? = some a) : ¬c.Guards e := by
  cases c <;> first | exact id | cases h

theorem not_misses_of_searching (h : c.searching? = some a) : ¬c.Misses e := by
  cases c <;> first | exact id | cases h

theorem ok_of_searching (h : c.searching? = some a) : c.Ok s := by
  cases c <;> cases h <;> trivial

/-- The new entry is revoked from the start, or its allocation will read the tombstone
again. -/
theorem inv_insert {list : ShardRow} {attempt bitIndex : Nat} {rolled : Bool} {freshId : String}
    (hs : Inv s) (hcall : s.calls[i]? = some (.attempting a list attempt rolled)) :
    Inv ({ s with entries := s.entries ++ [newEntry a list bitIndex freshId] }.setCall i
      (reconcile a ⟨list.id, bitIndex⟩)) := by
  refine hs.of_step hcall rfl (fun _ h => h) ?_ (fun _ _ _ _ h hn => absurd h hn)
    (fun _ _ _ _ _ => False.elim) (fun _ _ _ => False.elim)
    (fun _ _ _ _ hmiss => absurd hmiss (not_misses_reconcile a _)) (reconcile_ok a _)
  intro e he hclear
  rcases List.mem_append.mp he with he | he
  · exact .inl he
  · obtain rfl := List.mem_singleton.mp he
    have hread : a.revokedAt = none := hclear
    refine .inr ?_
    rw [reconcile, hread]
    exact ⟨rfl, rfl⟩

theorem anchorRevokedAt_eq_none (h : s.anchorRevokedAt anchor = none) : ¬s.Tombstoned anchor := by
  rintro ⟨t, ht, rfl⟩
  have hfind := List.find?_eq_none.mp (Option.map_eq_none_iff.mp h) t ht
  exact hfind (by simp)

/-- The second read: no transaction may rely on it, and if it does not see the tombstone
there is none. -/
theorem inv_recheck (hs : Inv s) (hok : Timely s (.recheck i))
    (hcall : s.calls[i]? = some (.rechecking statusAnchor clientId alloc))
    (hguards : ∀ e, s.Tombstoned statusAnchor →
      (Call.rechecking statusAnchor clientId alloc).Guards e → c'.Guards e)
    (hmisses : ∀ e, ¬c'.Misses e) (hok' : c'.Ok s) : Inv (s.setCall i c') := by
  refine hs.of_step hcall rfl (fun _ h => h) (fun _ he _ => .inl he)
    (fun _ _ _ _ h hn => absurd h hn) ?_ ?_ (fun e _ _ _ h => absurd h (hmisses e)) hok'
  · intro e _ _ _ ht hg
    exact hguards e (hg.1 ▸ ht) hg
  · intro e he hclear hre
    exact .inr (hok _ _ _ hcall e he hre.1.symm hre.2.symm hclear)

/-- Rows that a rewrite leaves clear are old ones it did not select. -/
theorem mem_of_mem_mapWhere {p : BadgeStatusEntry → Bool}
    {f : BadgeStatusEntry → BadgeStatusEntry} (hf : ∀ e, (f e).revokedAt ≠ none)
    (he : e ∈ mapWhere p f t) (hclear : e.revokedAt = none) : e ∈ t ∧ p e = false := by
  obtain ⟨e₀, he₀, rfl⟩ := List.mem_map.mp he
  by_cases hp : p e₀
  · simp only [hp, if_true] at hclear
    exact absurd hclear (hf e₀)
  · simp only [hp] at hclear ⊢
    exact ⟨he₀, by simpa using hp⟩

theorem inv_force {now : Nat} (hs : Inv s)
    (hcall : s.calls[i]? = some (.forcing statusAnchor clientId alloc)) :
    Inv ({ s with
      entries := mapWhere (State.isClear statusAnchor clientId)
        (fun e => { e with revokedAt := some now, revealAfter := some now }) s.entries }.setCall i
      (.allocated alloc)) := by
  refine hs.of_step hcall rfl (fun _ h => h) ?_ (fun _ _ _ _ h hn => absurd h hn) ?_
    (fun _ _ _ => False.elim) (fun _ _ _ _ => False.elim) trivial
  · intro e he hclear
    exact .inl (mem_of_mem_mapWhere (by simp) he hclear).1
  · intro e _ he hclear _ hg
    have hp := (mem_of_mem_mapWhere (by simp) he hclear).2
    simp [State.isClear, hg.1, hg.2, hclear] at hp

/-! ### Revocation -/

theorem tombstoned_append {ts : List StatusAnchorRevocation} :
    State.Tombstoned { s with tombstones := s.tombstones ++ ts } anchor ↔
      s.Tombstoned anchor ∨ ∃ t ∈ ts, t.statusAnchor = anchor := by
  simp only [State.Tombstoned, List.mem_append, or_and_right, exists_or]

/-- The scan is still to come, and the tombstone is there for everyone to see. -/
theorem inv_write (hs : Inv s) (hcall : s.calls[i]? = some (.upserting r))
    (htx : r.inTransaction = false) :
    Inv ({ s with tombstones := s.tombstones ++ [State.tombstoneOf r] }.setCall i
      (.scanning r {})) := by
  refine hs.of_step hcall rfl (fun _ h => tombstoned_append.mpr (.inl h))
    (fun _ he _ => .inl he) ?_ (fun _ _ _ _ _ => False.elim) (fun _ _ _ => False.elim)
    (fun _ _ _ _ => False.elim) ?_
  · intro e _ _ _ ht hn
    rcases tombstoned_append.mp ht with ht | ⟨t, ht, hanchor⟩
    · exact absurd ht hn
    · obtain rfl := List.mem_singleton.mp ht
      exact .inl ⟨htx, hanchor⟩
  · exact .inl ⟨rfl, tombstoned_append.mpr (.inr ⟨_, List.mem_singleton.mpr rfl, rfl⟩)⟩

/-- The scan finds every entry that is clear. -/
theorem mem_clearIds (he : e ∈ s.entries) (hclear : e.revokedAt = none) :
    e.id ∈ s.clearIds e.statusAnchor :=
  List.mem_map.mpr ⟨e, List.mem_filter.mpr ⟨he, by simp [hclear]⟩, rfl⟩

theorem inv_scan (hs : Inv s) (hcall : s.calls[i]? = some (.scanning r w)) :
    Inv (s.setCall i (.updating r w (s.clearIds r.anchor) found)) := by
  have hfound (e : BadgeStatusEntry) (he : e ∈ s.entries) (hclear : e.revokedAt = none)
      (hanchor : r.anchor = e.statusAnchor) : e.id ∈ s.clearIds r.anchor := by
    rw [hanchor]
    exact mem_clearIds he hclear
  refine hs.of_step hcall rfl (fun _ h => h) (fun _ he _ => .inl he)
    (fun _ _ _ _ h hn => absurd h hn) ?_ (fun _ _ _ => False.elim) ?_
    (hs.ok _ (List.mem_of_getElem? hcall))
  · intro e he _ hclear _ hg
    exact ⟨hg.1, hg.2, hfound e he hclear hg.2⟩
  · intro e he _ hclear hmiss
    exact absurd (hfound e he hclear hmiss.2.1) hmiss.2.2.1

/-- The entry moves from those to be written to those written. -/
theorem inv_queue (hs : Inv s)
    (hcall : s.calls[i]? = some (.updating r w (entryId :: remaining) found))
    (htx : r.inTransaction = true) :
    Inv (s.setCall i (.updating r
      { w with revealAfter := w.revealAfter ++ [(entryId, revealAfter)] } remaining found)) := by
  have hok : (Call.updating r w (entryId :: remaining) found).Ok s :=
    hs.ok _ (List.mem_of_getElem? hcall)
  refine hs.of_step hcall rfl (fun _ h => h) (fun _ he _ => .inl he)
    (fun _ _ _ _ h hn => absurd h hn) ?_ (fun _ _ _ => False.elim) ?_ hok
  · intro e _ _ _ _ hg
    exact absurd hg.1 (by simp [htx])
  · intro e _ _ _ hmiss
    obtain ⟨-, hanchor, hrem, hwritten⟩ := hmiss
    simp only [List.map_append, List.mem_append, not_or, List.map_cons, List.map_nil,
      List.mem_singleton] at hwritten
    exact ⟨htx, hanchor, List.not_mem_cons_of_ne_of_not_mem hwritten.2 hrem, hwritten.1⟩

theorem inv_mark (hs : Inv s)
    (hcall : s.calls[i]? = some (.updating r w (entryId :: remaining) found))
    (htx : r.inTransaction = false) :
    Inv ({ s with entries := revokeEntry r.nowMs entryId revealAfter s.entries }.setCall i
      (.updating r w remaining found)) := by
  have hok : (Call.updating r w (entryId :: remaining) found).Ok s :=
    hs.ok _ (List.mem_of_getElem? hcall)
  refine hs.of_step hcall rfl (fun _ h => h) ?_ (fun _ _ _ _ h hn => absurd h hn) ?_
    (fun _ _ _ => False.elim) (fun e _ _ _ hmiss => absurd hmiss.1 (by simp [htx])) hok
  · intro e he hclear
    exact .inl (mem_of_mem_mapWhere (by simp) he hclear).1
  · intro e _ he hclear _ hg
    have hne : e.id ≠ entryId := of_decide_eq_false (mem_of_mem_mapWhere (by simp) he hclear).2
    exact ⟨hg.1, hg.2.1, List.mem_of_ne_of_mem hne hg.2.2⟩

/-- What a commit leaves clear, the transaction has not written to. -/
theorem mem_of_mem_commitEntries {nowMs : Nat} {writes : List (String × Nat)}
    (he : e ∈ commitEntries nowMs writes t) (hclear : e.revokedAt = none) :
    e ∈ t ∧ e.id ∉ writes.map Prod.fst := by
  induction writes generalizing t with
  | nil => exact ⟨he, by simp⟩
  | cons u writes ih =>
    obtain ⟨hfirst, hrest⟩ := ih he
    obtain ⟨het, hne⟩ := mem_of_mem_mapWhere (by simp) hfirst hclear
    exact ⟨het, List.not_mem_cons_of_ne_of_not_mem (of_decide_eq_false hne) hrest⟩

/-- The commit: an entry it leaves clear was missed, so its allocation has yet to read the
tombstone again. -/
theorem inv_commit (hs : Inv s) (hcall : s.calls[i]? = some (.updating r w [] found)) :
    Inv ({ s with
      tombstones := s.tombstones ++ w.tombstone.toList
      entries := commitEntries r.nowMs w.revealAfter s.entries }.setCall i
      (.revoked r.anchor found)) := by
  have hok : Call.TombstoneOk s r w := hs.ok _ (List.mem_of_getElem? hcall)
  refine hs.of_step hcall rfl (fun _ h => tombstoned_append.mpr (.inl h)) ?_ ?_ ?_
    (fun _ _ _ => False.elim) (fun _ _ _ _ => False.elim) ?_
  · intro e he hclear
    exact .inl (mem_of_mem_commitEntries he hclear).1
  · intro e he he' hclear ht hn
    rcases tombstoned_append.mp ht with ht | ⟨t, ht, hanchor⟩
    · exact absurd ht hn
    · have hmiss : (Call.updating r w [] found).Misses e := by
        rcases hok with ⟨hnone, -⟩ | ⟨htx, t', ht', hanchor'⟩
        · simp [hnone] at ht
        · obtain rfl : t = t' := by simpa [ht', eq_comm] using ht
          exact ⟨htx, hanchor'.symm.trans hanchor, List.not_mem_nil,
            (mem_of_mem_commitEntries he' hclear).2⟩
      obtain ⟨c₁, h₁, hre⟩ := hs.rechecked e he hclear _ (List.mem_of_getElem? hcall) hmiss
      exact .inr ⟨c₁, h₁, hre.guards⟩
  · intro e _ _ _ _ hg
    exact absurd hg.2.2 List.not_mem_nil
  · rcases hok with ⟨-, ht⟩ | ⟨-, t, ht, hanchor⟩
    · exact tombstoned_append.mpr (.inl ht)
    · exact tombstoned_append.mpr (.inr ⟨t, by simp [ht], hanchor⟩)

theorem not_guards_of_revoking (h : c.revoking? = some r) (htx : r.inTransaction = true) :
    ¬c.Guards e := by
  intro hg
  cases c <;> cases h
  · exact hg
  · exact Bool.false_ne_true (hg.1.symm.trans htx)
  · exact Bool.false_ne_true (hg.1.symm.trans htx)

theorem Inv.start (hs : Inv s) (hm : ∀ e, ¬c.Misses e) (hok : c.Ok s) :
    Inv { s with calls := s.calls ++ [c] } := by
  refine ⟨?_, ?_, ?_⟩
  · intro e he hclear ht
    obtain ⟨c₁, h₁, hg⟩ := hs.guarded e he hclear ht
    exact ⟨c₁, List.mem_append_left _ h₁, hg⟩
  · intro e he hclear
    refine forall_mem_concat (fun c₁ h₁ hmiss => ?_) fun hmiss => absurd hmiss (hm e)
    obtain ⟨c₂, h₂, hre⟩ := hs.rechecked e he hclear c₁ h₁ hmiss
    exact ⟨c₂, List.mem_append_left _ h₂, hre⟩
  · refine forall_mem_concat (fun c₁ h₁ => ?_) (hok.mono fun _ h => h)
    exact (hs.ok c₁ h₁).mono fun _ h => h

end Steps

/-! ### Runs -/

/-- Only `recheck` reads the tombstone a second time. -/
theorem eq_recheck {s s' : State} {a : Action} {i : Nat} {statusAnchor clientId : String}
    {alloc : AllocatedStatus} (ha : a.call? = some i)
    (hcall : s.calls[i]? = some (.rechecking statusAnchor clientId alloc))
    (h : step s a = some s') : a = .recheck i := by
  cases a <;> cases ha <;>
    first
    | rfl
    | simp [step, State.readAnchor, State.lookUp, State.findShard, State.countEntries,
        State.createShard, State.rereadShard, State.attempt, State.findRaced, State.force,
        State.upsert, State.scan, State.update, State.finish, State.rollback, hcall] at h

theorem inv_moves {s : State} {i : Nat} {c c' : Call} (hs : Inv s) (hcall : s.calls[i]? = some c)
    (hok : ∀ statusAnchor clientId alloc, c = .rechecking statusAnchor clientId alloc →
      Timely s (.recheck i)) (h : Moves s c c') : Inv (s.setCall i c') := by
  cases h with
  | readsAnchor | misses | finds | findsRevoked =>
    exact hs.setCall hcall (fun _ => id) (fun _ => id) trivial
  | searches hc hc' _ =>
    exact hs.setCall hcall (fun _ => not_guards_of_searching hc)
      (fun _ => not_misses_of_searching hc') (ok_of_searching hc')
  | givesUp hc => exact hs.setCall hcall (fun _ => not_guards_of_searching hc) (fun _ => id) trivial
  | raced _ =>
    exact hs.setCall hcall (fun _ => id) (fun _ => not_misses_reconcile _ _) (reconcile_ok _ _)
  | rechecks hread =>
    exact inv_recheck hs (hok _ _ _ rfl) hcall
      (fun _ ht _ => absurd ht (anchorRevokedAt_eq_none hread)) (fun _ => id) trivial
  | rechecksRevoked _ =>
    exact inv_recheck hs (hok _ _ _ rfl) hcall (fun _ _ hg => hg) (fun _ => id) trivial
  | keeps ht => exact hs.setCall hcall (fun _ => id) (fun _ => id) (.inl ⟨rfl, ht⟩)
  | holds htx =>
    exact hs.setCall hcall (fun _ => id) (fun _ => id) (.inr ⟨htx, _, rfl, rfl⟩)
  | scans => exact inv_scan hs hcall
  | queues htx => exact inv_queue hs hcall htx
  | rollsBack hc htx =>
    exact hs.setCall hcall (fun _ => not_guards_of_revoking hc htx) (fun _ => id) trivial

theorem inv_step (s : State) (a : Action) (s' : State) (hs : Inv s) (hok : Timely s a)
    (h : step s a = some s') : Inv s' := by
  rcases turn_of_step h with ⟨c, hc, rfl⟩ | ⟨i, c, hi, hcall, hturn⟩
  · cases a <;> cases hc <;> exact hs.start (fun _ => id) trivial
  · cases hturn with
    | moves hmoves =>
      refine inv_moves hs hcall (fun _ _ _ hc => ?_) hmoves
      exact eq_recheck hi (hc ▸ hcall) h ▸ hok
    | @creates a shardNo rolled freshId _ =>
      have hs' : Inv (s.setCall i (.attempting a ⟨freshId, shardNo⟩ 0 rolled)) :=
        hs.setCall hcall (fun _ => id) (fun _ => id) trivial
      exact ⟨hs'.guarded, hs'.rechecked, hs'.ok⟩
    | inserts _ _ => exact inv_insert hs hcall
    | forces => exact inv_force hs hcall
    | writes htx => exact inv_write hs hcall htx
    | marks htx => exact inv_mark hs hcall htx
    | commits => exact inv_commit hs hcall

/-- A call that has returned leaves nothing to be done. -/
theorem Call.Finished.not_guards {c : Call} {e : BadgeStatusEntry} (h : c.Finished) :
    ¬c.Guards e := by
  cases c <;> first | exact id | cases h

/-- Nothing is running, and every entry of an anchor with a tombstone is revoked. -/
structure State.Settled (s : State) : Prop where
  calls : s.calls = []
  revoked : ∀ e ∈ s.entries, s.Tombstoned e.statusAnchor → e.revokedAt ≠ none

theorem State.Settled.inv {s : State} (h : s.Settled) : Inv s where
  guarded e he hclear ht := absurd hclear (h.revoked e he ht)
  rechecked := by simp [h.calls]
  ok := by simp [h.calls]

/-- A call of `revokeStatusAnchor` has returned and its transaction is committed, or one
had before. -/
def State.WasRevoked (s : State) (anchor : String) : Prop :=
  (∃ found, Call.revoked anchor found ∈ s.calls) ∨ s.Tombstoned anchor

theorem Inv.tombstoned_of_wasRevoked {s : State} (hs : Inv s) {anchor : String}
    (h : s.WasRevoked anchor) : s.Tombstoned anchor := by
  rcases h with ⟨found, hcall⟩ | ht
  · exact hs.ok _ hcall
  · exact ht

/-- If no allocation reads the tombstone again while a transaction that has missed its
entry is open, then whenever all calls have returned every entry of an anchor that was
revoked is marked revoked. -/
theorem revoked_of_run {s₀ s : State} {as : List Action} (hs : s₀.Settled)
    (hok : Along step Timely s₀ as) (hrun : run step s₀ as = some s)
    (hdone : ∀ c ∈ s.calls, c.Finished) :
    ∀ e ∈ s.entries, s.WasRevoked e.statusAnchor → e.revokedAt ≠ none := by
  have hinv : Inv s := run_invariant Inv inv_step hs.inv hok hrun
  intro e he hrevoked hclear
  obtain ⟨c, hc, hg⟩ := hinv.guarded e he hclear (hinv.tombstoned_of_wasRevoked hrevoked)
  exact (hdone c hc).not_guards hg

/-! ### A member removed during a disclosure -/

def removal : Revocation := ⟨"gm:m1", "group.member_removed", 7, true⟩

/-- A member is removed while their badge is disclosed to a client for the first time. The
removal has scanned, and found nothing, when the entry is inserted. -/
def disclosure : List Action :=
  [.revoke removal, .allocate "gm:m1" "mc_rp", .upsert 0, .scan 0, .readAnchor 1,
    .findExisting 1, .findShard 1, .createShard 1 "L0", .attempt 1 123 "e1" .anchor]

/-- The removal commits before the disclosure reads the tombstone again. -/
theorem disclosure_commit_revoked : ∃ s,
    run step {} (disclosure ++ [.finish 0, .recheck 1, .force 1 9]) = some s ∧
      s.WasRevoked "gm:m1" ∧
        s.entries = [⟨"e1", "gm:m1", "mc_rp", "L0", 123, some 9, some 9⟩] ∧
          ∀ e ∈ s.entries, s.WasRevoked e.statusAnchor → e.revokedAt ≠ none := by
  obtain ⟨s, hrun, hcalls, hentries⟩ : ∃ s,
      run step {} (disclosure ++ [.finish 0, .recheck 1, .force 1 9]) = some s ∧
        s.calls = [.revoked "gm:m1" 0, .allocated ⟨"L0", 123⟩] ∧
        s.entries = [⟨"e1", "gm:m1", "mc_rp", "L0", 123, some 9, some 9⟩] := ⟨_, rfl, rfl, rfl⟩
  have hok : Along step Timely {} (disclosure ++ [.finish 0, .recheck 1, .force 1 9]) := by
    refine .cons trivial rfl (.cons trivial rfl (.cons trivial rfl (.cons trivial rfl
      (.cons trivial rfl (.cons trivial rfl (.cons trivial rfl (.cons trivial rfl
        (.cons trivial rfl (.cons trivial rfl (.cons ?_ rfl (.cons trivial rfl trivial)))))))))))
    intro _ _ _ _ e _ _ _ _ c hc
    rcases List.mem_pair.mp hc with rfl | rfl
    · exact id
    · exact id
  refine ⟨s, hrun, .inl ⟨0, by simp [hcalls]⟩, hentries,
    revoked_of_run ⟨rfl, by simp⟩ hok hrun ?_⟩
  intro c hc
  rw [hcalls] at hc
  rcases List.mem_pair.mp hc with rfl | rfl
  · trivial
  · trivial

/-- The disclosure reads the tombstone again before the removal commits. Both have returned,
and the entry is clear. -/
theorem disclosure_missed : ∃ s,
    run step {} (disclosure ++ [.recheck 1, .finish 0]) = some s ∧
      (∀ c ∈ s.calls, c.Finished) ∧
        ∃ e ∈ s.entries, s.WasRevoked e.statusAnchor ∧ e.revokedAt = none := by
  refine ⟨_, rfl, ?_, ⟨"e1", "gm:m1", "mc_rp", "L0", 123, none, none⟩, List.mem_cons_self,
    .inl ⟨0, List.mem_cons_self⟩, rfl⟩
  intro c hc
  rcases List.mem_pair.mp hc with rfl | rfl
  · trivial
  · trivial

end Minister.StatusLists
