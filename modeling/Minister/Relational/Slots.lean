import Mathlib.Data.List.Find
import Minister.Relational.Table

/-!
# Tables with one row per account and slot

Rows of such a table are held by an account and fill one of its slots; a unique
constraint on the pair allows each account at most one row per slot. Handing a
row over can therefore be refused, and a loop that hands rows over one slot at a
time has to be shown to pass.
-/

namespace Relational

/-- Rows unique per holder and slot. -/
class Slotted (R : Type*) [Constrained R] (A : outParam (Type*)) (C : outParam (Type*)) where
  holder : R → A
  slot : R → C
  setHolder : A → R → R
  holder_setHolder : ∀ u r, holder (setHolder u r) = u := by intros; rfl
  slot_setHolder : ∀ u r, slot (setHolder u r) = slot r := by intros; rfl
  setHolder_setHolder : ∀ u v r, setHolder u (setHolder v r) = setHolder u r := by intros; rfl
  setHolder_holder : ∀ r, setHolder (holder r) r = r := by intros; rfl
  clash_of_slot : ∀ a b, holder a = holder b → slot a = slot b → clash a b = true := by
    intros; simp_all [clash]
  clash_setHolder : ∀ u a b, clash a b = false → ¬(u = holder b ∧ slot a = slot b) →
    clash (setHolder u a) b = false := by
    intro u a b hab hslot; simp_all [clash]

export Slotted (holder slot setHolder)

attribute [simp] Slotted.holder_setHolder Slotted.slot_setHolder Slotted.setHolder_setHolder
  Slotted.setHolder_holder

section Slots

variable {R A C : Type*} [Constrained R] [Slotted R A C] {t t' : List R}

theorem Consistent.eq_of_slot_eq (h : Consistent t) {a b : R} (ha : a ∈ t) (hb : b ∈ t)
    (hh : holder a = holder b) (hs : slot a = slot b) : a = b :=
  h.eq_of_clash ha hb (Slotted.clash_of_slot a b hh hs)

/-- Handing rows of `d` to `s` is allowed when no other row of `s` fills one of
their slots. -/
theorem Consistent.handOver (h : Consistent t) {p : R → Bool} {d s : A}
    (hp : ∀ r ∈ t, p r = true → holder r = d)
    (hfree : ∀ a ∈ t, ∀ b ∈ t, p a = true → p b = false → ¬(holder b = s ∧ slot b = slot a)) :
    Consistent (Relational.mapWhere p (setHolder s) t) := by
  refine h.mapWhere (fun a ha b hb hpa hpb hab => ?_) fun a ha b hb hpa hpb hab =>
    Slotted.clash_setHolder s a b hab fun hs => hfree a ha b hb hpa hpb ⟨hs.1.symm, hs.2.symm⟩
  have hslot : slot a ≠ slot b := by
    intro hs
    rw [Slotted.clash_of_slot a b ((hp a ha hpa).trans (hp b hb hpb).symm) hs] at hab
    exact Bool.noConfusion hab
  have hb' : clash (setHolder s b) a = false := by
    rw [Constrained.clash_comm] at hab
    exact Slotted.clash_setHolder s b a hab fun hs => hslot hs.2.symm
  refine Slotted.clash_setHolder s a _ ?_ ?_
  · rwa [Constrained.clash_comm]
  · simpa using hslot

/-- One holder fills each slot at most once. -/
theorem Consistent.nodup_slots [DecidableEq A] (h : Consistent t) (u : A) :
    ((findMany (fun r => holder r = u) t).map slot).Nodup := by
  rw [List.Nodup, List.pairwise_map]
  refine List.Pairwise.imp_of_mem ?_ (List.Pairwise.filter _ h)
  intro a b ha hb hab hc
  have hau : holder a = u := by simpa using (List.mem_filter.mp ha).2
  have hbu : holder b = u := by simpa using (List.mem_filter.mp hb).2
  rw [Slotted.clash_of_slot a b (hau.trans hbu.symm) hc] at hab
  exact Bool.noConfusion hab

variable [DecidableEq A] [DecidableEq C]

/-- The row that fills slot `c` of `u`. -/
def inSlot (u : A) (c : C) (r : R) : Bool := holder r = u ∧ slot r = c

/-- Look up a slot. -/
def at? (t : List R) (u : A) (c : C) : Option R := t.find? (inSlot u c)

/-- Hand the rows of `s` in the listed slots to `d`. -/
def handOver (s d : A) (cs : List C) (t : List R) : List R :=
  mapWhere (fun r => holder r = s ∧ slot r ∈ cs) (setHolder d) t

/-- The same, one statement per slot. -/
def moveSlots (s d : A) (cs : List C) (t : List R) : Except DbError (List R) :=
  cs.foldlM (fun t c => updateMany (inSlot s c) (setHolder d) t) t

variable {u s d : A} {c : C} {cs : List C} {r : R}

@[simp] theorem inSlot_eq_true : inSlot u c r = true ↔ holder r = u ∧ slot r = c := by
  simp [inSlot]

theorem at?_mem (h : at? t u c = some r) : r ∈ t ∧ holder r = u ∧ slot r = c :=
  ⟨List.mem_of_find?_eq_some h, inSlot_eq_true.mp (List.find?_some h)⟩

theorem at?_eq_some_iff (h : Consistent t) :
    at? t u c = some r ↔ r ∈ t ∧ holder r = u ∧ slot r = c := by
  rw [at?, h.find?_eq_some_iff, inSlot_eq_true]
  intro a b ha hb
  obtain ⟨hau, hac⟩ := inSlot_eq_true.mp ha
  obtain ⟨hbu, hbc⟩ := inSlot_eq_true.mp hb
  exact Slotted.clash_of_slot a b (hau.trans hbu.symm) (hac.trans hbc.symm)

/-- The row in a slot is the only one there. -/
theorem findMany_inSlot_of_at? (h : Consistent t) (hr : at? t u c = some r) :
    findMany (inSlot u c) t = [r] := by
  have hnodup : (findMany (inSlot u c) t).Nodup := by
    refine (h.sublist List.filter_sublist).imp fun {a b} hab heq => ?_
    rw [heq, Slotted.clash_of_slot b b rfl rfl] at hab
    cases hab
  rw [← List.perm_singleton, List.perm_ext_iff_of_nodup hnodup (List.nodup_singleton r)]
  intro r'
  rw [mem_findMany, inSlot_eq_true, ← at?_eq_some_iff h, hr, List.mem_singleton, Option.some_inj,
    eq_comm]

theorem at?_eq_none_iff : at? t u c = none ↔ ∀ r ∈ t, holder r = u → slot r ≠ c := by
  simp [at?]

/-- Searching the rows of one holder for a slot is looking the slot up. -/
theorem find?_findMany_holder :
    (findMany (fun r => holder r = u) t).find? (fun r => slot r = c) = at? t u c := by
  unfold findMany at?
  rw [List.find?_filter]
  refine congrFun (congrArg _ (funext fun r => ?_)) _
  simp [inSlot]

theorem handOver_append : handOver s d cs (t ++ t') = handOver s d cs t ++ handOver s d cs t' :=
  mapWhere_append

/-- A fold of single-slot rewrites is one rewrite of all listed slots. -/
theorem foldl_mapWhere_inSlot (hne : s ≠ d) :
    cs.foldl (fun t c => mapWhere (inSlot s c) (setHolder d) t) t =
      handOver s d cs t := by
  induction cs generalizing t with
  | nil =>
    refine (mapWhere_eq_self fun r _ hr => ?_).symm
    simp at hr
  | cons c cs ih =>
    rw [List.foldl_cons, ih, handOver, mapWhere_mapWhere]
    refine List.map_congr_left fun r _ => ?_
    by_cases hs : holder r = s
    · by_cases hc : slot r = c
      · simp [hs, hc, hne.symm]
      · simp [inSlot, hs, hc]
    · simp [inSlot, hs]

/-- A loop that passed handed over every row in a listed slot. -/
theorem eq_of_moveSlots_eq_ok (hne : s ≠ d) (h : moveSlots s d cs t = .ok t') :
    t' = handOver s d cs t := by
  rw [← foldl_mapWhere_inSlot hne]
  exact eq_foldl_of_foldlM_eq_ok (fun c t₁ t₂ h₁ => (updateMany_eq_ok_iff.mp h₁).2.symm) h

/-- A loop that passed kept the table consistent. -/
theorem Consistent.of_moveSlots (h : Consistent t) (hloop : moveSlots s d cs t = .ok t') :
    Consistent t' := by
  refine foldlM_preserves Consistent (fun c t₁ t₂ _ hround => ?_) h hloop
  obtain ⟨hcons, rfl⟩ := updateMany_eq_ok_iff.mp hround
  exact hcons

/-- A rewrite that takes no row out of the slot, and puts none in, leaves it alone. -/
theorem at?_mapWhere_of_inSlot {p : R → Bool} {f : R → R}
    (hf : ∀ r ∈ t, p r = true → inSlot u c r = false ∧ inSlot u c (f r) = false) :
    at? (mapWhere p f t) u c = at? t u c := by
  induction t with
  | nil => rfl
  | cons r t ih =>
    have hrest := ih fun r' hr' => hf r' (List.mem_cons_of_mem _ hr')
    unfold at? at hrest ⊢
    rw [mapWhere_cons, List.find?_cons, List.find?_cons, hrest]
    by_cases hp : p r
    · obtain ⟨hold, hnew⟩ := hf r List.mem_cons_self hp
      rw [if_pos hp, hold, hnew]
    · rw [if_neg hp]

/-- Handing over slot `c` leaves every other slot as it was. -/
theorem at?_mapWhere_inSlot_of_ne {c' : C} (hc : c' ≠ c) :
    at? (mapWhere (inSlot s c) (setHolder d) t) u c' = at? t u c' := by
  apply at?_mapWhere_of_inSlot
  intro r _ hr
  have hrc : slot r = c := (inSlot_eq_true.mp hr).2
  simp [inSlot, hrc, hc.symm]

/-- A slot whose row is handed over is empty afterwards. -/
theorem at?_mapWhere_self {p : R → Bool} (hne : s ≠ d)
    (hp : ∀ r, holder r = s → slot r = c → p r = true) :
    at? (mapWhere p (setHolder d) t) s c = none := by
  rw [at?_eq_none_iff]
  intro r hr hrs hrc
  obtain ⟨r₀, -, rfl⟩ := mem_mapWhere.mp hr
  split_ifs at hrs hrc with hr₀
  · exact hne (by simpa using hrs.symm)
  · exact hr₀ (hp r₀ hrs hrc)

/-- One slot may be handed over when it is empty on one of the two sides. -/
theorem Consistent.mapWhere_inSlot (h : Consistent t)
    (hfree : at? t s c = none ∨ at? t d c = none) :
    Consistent (Relational.mapWhere (inSlot s c) (Slotted.setHolder d) t) := by
  refine h.handOver (d := s) (fun r _ hr => (inSlot_eq_true.mp hr).1) ?_
  rintro a ha b hb hpa hpb ⟨hbd, hba⟩
  obtain ⟨has, hac⟩ := inSlot_eq_true.mp hpa
  rcases hfree with hnone | hnone
  · exact at?_eq_none_iff.mp hnone a ha has hac
  · exact at?_eq_none_iff.mp hnone b hb hbd (hba.trans hac)

/-- The loop passes when no listed slot is filled on both sides. -/
theorem moveSlots_eq_ok (hne : s ≠ d) (h : Consistent t)
    (hfree : ∀ c ∈ cs, at? t s c = none ∨ at? t d c = none) :
    moveSlots s d cs t = .ok (handOver s d cs t) := by
  rw [← foldl_mapWhere_inSlot hne]
  refine foldlM_eq_ok (fun cs t => Consistent t ∧
    ∀ c ∈ cs, at? t s c = none ∨ at? t d c = none) ?_ ⟨h, hfree⟩
  rintro c cs t ⟨ht, hcs⟩
  have hstep := ht.mapWhere_inSlot (hcs c List.mem_cons_self)
  refine ⟨updateMany_eq_ok_iff.mpr ⟨hstep, rfl⟩, hstep, fun c' hc' => ?_⟩
  by_cases hcc : c' = c
  · subst hcc
    exact .inl (at?_mapWhere_self hne fun r hs hc => inSlot_eq_true.mpr ⟨hs, hc⟩)
  · simpa only [at?_mapWhere_inSlot_of_ne hcc] using hcs c' (List.mem_cons_of_mem _ hc')

/-- With every listed slot filled, single-row updates do what `moveSlots` does. -/
theorem foldlM_update_inSlot (h : Consistent t) (hcs : cs.Nodup)
    (hrow : ∀ c ∈ cs, at? t s c ≠ none) (hfree : ∀ c ∈ cs, at? t d c = none) :
    cs.foldlM (fun t c => update (inSlot s c) (setHolder d) t) t = moveSlots s d cs t := by
  induction cs generalizing t with
  | nil => rfl
  | cons c cs ih =>
    rw [List.nodup_cons] at hcs
    have hstep := h.mapWhere_inSlot (s := s) (.inr (hfree c List.mem_cons_self))
    have hex : ∃ r ∈ t, inSlot s c r = true := by
      by_contra hno
      refine hrow c List.mem_cons_self (List.find?_eq_none.mpr fun r hr => ?_)
      exact fun hin => hno ⟨r, hr, hin⟩
    have hother : ∀ v, ∀ c' ∈ cs,
        at? (mapWhere (inSlot s c) (setHolder d) t) v c' = at? t v c' := by
      rintro v c' hc'
      exact at?_mapWhere_inSlot_of_ne fun hcc => hcs.1 (hcc ▸ hc')
    unfold moveSlots
    rw [List.foldlM_cons, List.foldlM_cons, update_eq_ok_iff.mpr ⟨hex, hstep, rfl⟩,
      updateMany_eq_ok_iff.mpr ⟨hstep, rfl⟩]
    refine ih hstep hcs.2 (fun c' hc' => ?_) fun c' hc' => ?_
    · rw [hother s c' hc']
      exact hrow c' (List.mem_cons_of_mem _ hc')
    · rw [hother d c' hc']
      exact hfree c' (List.mem_cons_of_mem _ hc')

/-! ### Slots after rows changed hands -/

theorem at?_append : at? (t ++ t') u c = (at? t u c).or (at? t' u c) := List.find?_append

/-- The slots not listed keep their rows. -/
theorem at?_handOver_of_not_mem (hc : c ∉ cs) :
    at? (handOver s d cs t) u c = at? t u c := by
  apply at?_mapWhere_of_inSlot
  intro r _ hr
  have hrc : slot r ≠ c := by
    intro heq
    exact hc (heq ▸ (of_decide_eq_true hr).2)
  simp [inSlot, hrc]

/-- The slots of accounts that neither give nor take keep their rows. -/
theorem at?_handOver_of_ne (hus : u ≠ s) (hud : u ≠ d) :
    at? (handOver s d cs t) u c = at? t u c := by
  apply at?_mapWhere_of_inSlot
  intro r _ hr
  have hrs := (of_decide_eq_true hr).1
  simp [inSlot, hrs, hus.symm, hud.symm]

/-- The listed slots of the account that gives are empty afterwards. -/
theorem at?_handOver_self (hne : s ≠ d) (hc : c ∈ cs) :
    at? (handOver s d cs t) s c = none :=
  at?_mapWhere_self hne fun _ hs hsc => decide_eq_true ⟨hs, hsc ▸ hc⟩

/-- What was in a listed slot is in the slot of the account that takes. -/
theorem at?_handOver_target (h : Consistent (handOver s d cs t)) (hc : c ∈ cs)
    (hr : at? t s c = some r) :
    at? (handOver s d cs t) d c = some (setHolder d r) := by
  obtain ⟨hrt, hrs, hrc⟩ := at?_mem hr
  refine (at?_eq_some_iff h).mpr ⟨mem_mapWhere.mpr ⟨r, hrt, ?_⟩, ?_, ?_⟩
  · rw [if_pos (decide_eq_true ⟨hrs, hrc ▸ hc⟩)]
  · simp
  · simpa using hrc

/-- A deletion that spares every row in the slot. -/
theorem at?_deleteMany_of_spared {q : R → Bool} (hq : ∀ r ∈ t, inSlot u c r = true → q r = false) :
    at? (deleteMany q t) u c = at? t u c := by
  rw [at?, deleteMany, List.find?_filter]
  refine List.find?_congr fun r hr => ?_
  cases hslot : inSlot u c r with
  | false => exact decide_eq_false fun h => Bool.noConfusion h.2
  | true => simp [hq r hr hslot]

/-- A deletion that hits every row in the slot. -/
theorem at?_deleteMany_of_hit {q : R → Bool} (hq : ∀ r ∈ t, inSlot u c r = true → q r = true) :
    at? (deleteMany q t) u c = none := by
  rw [at?_eq_none_iff]
  intro r hr hru hrc
  obtain ⟨hrt, hspared⟩ := mem_deleteMany.mp hr
  rw [hq r hrt (inSlot_eq_true.mpr ⟨hru, hrc⟩)] at hspared
  cases hspared

end Slots

end Relational
