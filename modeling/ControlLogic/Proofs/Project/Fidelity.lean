import ControlLogic.Project.Fidelity
import ControlLogic.Proofs.Table
import Mathlib.Algebra.Order.Field.Basic
import Mathlib.Data.List.Nodup
import Mathlib.Data.Rat.Cast.Order

/-!
# Shares

The share of one list that is found again in another, as a fraction.

* `get?_byName_eq_some_iff`: under a name stands its last bearer, `IsLast`.
* `part_share_eq_whole_iff`: the share is the whole exactly if the last bearer of every name is
  found again, `FoundIn`.
* `share_map_filter` gives the share where the other list holds some members of the first, each in
  a form that counts as alike: it is the share of these members.

`ratio_fidelity` says the same of projects: their fidelity is a fraction of at most one, and is one
exactly if all three kinds of parts are found again.
-/

namespace ControlLogic.Project

namespace Share

/-- The share as a fraction; all of nothing counts as all. -/
def ratio (s : Share) : Rat := if s.whole = 0 then 1 else s.part / s.whole

/-- What is less than the whole is less than one. -/
theorem ratio_lt_one {s : Share} (h : s.part < s.whole) : s.ratio < 1 := by
  have hwhole : (0 : Rat) < s.whole := by
    exact_mod_cast Nat.zero_lt_of_lt h
  rw [ratio, if_neg (Nat.ne_zero_of_lt h), div_lt_one hwhole]
  exact_mod_cast h

theorem ratio_nonneg (s : Share) : 0 ≤ s.ratio := by
  unfold ratio
  split
  · exact zero_le_one
  · exact div_nonneg (Nat.cast_nonneg _) (Nat.cast_nonneg _)

/-- All of a whole is one. -/
theorem ratio_of_part_eq_whole {s : Share} (h : s.part = s.whole) : s.ratio = 1 := by
  unfold ratio
  split
  · rfl
  · rename_i hwhole
    rw [h, div_self (Nat.cast_ne_zero.2 hwhole)]

/-- The share is at most one, and one only if the part is the whole. -/
theorem ratio_le_one_and_eq_one_iff {s : Share} (h : s.part ≤ s.whole) :
    s.ratio ≤ 1 ∧ (s.ratio = 1 ↔ s.part = s.whole) := by
  rcases Nat.lt_or_eq_of_le h with hlt | heq
  · have hratio := ratio_lt_one hlt
    exact ⟨hratio.le, fun hone => absurd hone hratio.ne, fun heq => absurd heq hlt.ne⟩
  · have hratio := ratio_of_part_eq_whole heq
    exact ⟨hratio.le, fun _ => heq, fun _ => hratio⟩

end Share

variable {α κ : Type} [DecidableEq κ] {name : α → κ}

/-! ## The last bearer of a name -/

/-- The last of a list with its name. -/
def IsLast (name : α → κ) (l : List α) (a : α) : Prop :=
  ∃ front back, l = front ++ a :: back ∧ name a ∉ back.map name

/-- The last bearer of every name of a list is alike to the last bearer of the same name in
another. -/
def FoundIn (name : α → κ) (alike : α → α → Prop) (l m : List α) : Prop :=
  ∀ a, IsLast name l a → ∃ b, IsLast name m b ∧ name b = name a ∧ alike a b

omit [DecidableEq κ] in
/-- A list is found again in itself. -/
theorem foundIn_self {alike : α → α → Prop} (halike : ∀ a, alike a a) (l : List α) :
    FoundIn name alike l l :=
  fun a ha => ⟨a, ha, rfl, halike a⟩

theorem entries_byName {l : List α} (h : (l.map name).Nodup) :
    (byName name l).entries = l.map fun a => (name a, a) := by
  refine Table.entries_ofList ?_
  rwa [List.map_map]

theorem get?_byName_of_mem {l : List α} (h : (l.map name).Nodup) {a : α} (ha : a ∈ l) :
    (byName name l).get? (name a) = some a := by
  refine Table.get?_ofList_of_mem ?_ (List.mem_map.2 ⟨a, ha, rfl⟩)
  rwa [List.map_map]

theorem get?_byName_of_not_mem {l : List α} {k : κ} (h : k ∉ l.map name) :
    (byName name l).get? k = none := by
  refine Table.get?_ofList_of_not_mem ?_
  rwa [List.map_map]

/-- Under a name stands its last bearer. -/
theorem get?_byName_eq_some_iff {l : List α} {k : κ} {a : α} :
    (byName name l).get? k = some a ↔ IsLast name l a ∧ name a = k := by
  constructor
  · intro h
    induction l with
    | nil => cases h
    | cons d l ih =>
      have hcons : (byName name (d :: l)).get? k =
          ((byName name l).get? k).or (if name d = k then some d else none) :=
        Table.get?_ofList_cons (name d, d) _ k
      rw [hcons] at h
      cases hlater : (byName name l).get? k with
      | some b =>
        rw [hlater, Option.some_or] at h
        obtain ⟨⟨front, back, hl, hback⟩, hname⟩ := ih (hlater.trans h)
        exact ⟨⟨d :: front, back, congrArg (d :: ·) hl, hback⟩, hname⟩
      | none =>
        rw [hlater, Option.none_or] at h
        split at h
        · rename_i hname
          cases h
          refine ⟨⟨[], l, rfl, fun hmem => ?_⟩, hname⟩
          -- a later bearer of the name would have been found
          have hkey : k ∈ (l.map fun a => (name a, a)).map (·.1) := by
            rw [List.map_map]
            exact hname ▸ hmem
          have hcontains := (Table.contains_ofList _ k).2 hkey
          rw [Table.contains] at hcontains
          rw [byName] at hlater
          rw [hlater] at hcontains
          cases hcontains
        · cases h
  · rintro ⟨⟨front, back, rfl, hback⟩, rfl⟩
    rw [byName, List.map_append, List.map_cons]
    refine Table.get?_ofList_append_cons a ?_
    rwa [List.map_map]

theorem mem_entries_byName {l : List α} {e : κ × α} :
    e ∈ (byName name l).entries ↔ IsLast name l e.2 ∧ name e.2 = e.1 := by
  rw [← get?_byName_eq_some_iff]
  exact Table.mem_entries_iff (Table.nodup_keys_ofList _)

/-! ## The share -/

theorem part_share_le_whole (name : α → κ) (alike : α → α → Bool) (l m : List α) :
    (share name alike l m).part ≤ (share name alike l m).whole :=
  List.length_filter_le _ _

/-- The part is the whole exactly if the last bearer of every name is found again. -/
theorem part_share_eq_whole_iff (name : α → κ) (alike : α → α → Bool) (l m : List α) :
    (share name alike l m).part = (share name alike l m).whole ↔
      FoundIn name (fun a b => alike a b = true) l m := by
  have hall : (share name alike l m).part = (share name alike l m).whole ↔
      ∀ e ∈ (byName name l).entries, ((byName name m).get? e.1).any (alike e.2) = true :=
    List.length_filter_eq_length_iff
  rw [hall]
  constructor
  · intro h a ha
    have hfound := h (name a, a) (mem_entries_byName.2 ⟨ha, rfl⟩)
    obtain ⟨b, hb, halike⟩ := (Option.any_eq_true _ _).1 hfound
    obtain ⟨hlast, hname⟩ := get?_byName_eq_some_iff.1 hb
    exact ⟨b, hlast, hname, halike⟩
  · intro h e he
    obtain ⟨hlast, hname⟩ := mem_entries_byName.1 he
    obtain ⟨b, hb, hname', halike⟩ := h e.2 hlast
    have hget := get?_byName_eq_some_iff.2 ⟨hb, hname'.trans hname⟩
    exact (Option.any_eq_true _ _).2 ⟨b, hget, halike⟩

/-- Where the other list holds some members of a list, in forms of the same name that are alike
to them, their share is what is found again. -/
theorem share_map_filter (alike : α → α → Bool) {l : List α} (h : (l.map name).Nodup)
    (kept : α → Bool) (form : α → α) (hname : ∀ a, name (form a) = name a)
    (halike : ∀ a ∈ l, alike a (form a) = true) :
    share name alike l ((l.filter kept).map form) = ⟨(l.filter kept).length, l.length⟩ := by
  have hnames : ((l.filter kept).map form).map name = (l.filter kept).map name := by
    rw [List.map_map]
    exact List.map_congr_left fun a _ => hname a
  have hnodup : (((l.filter kept).map form).map name).Nodup := by
    rw [hnames]
    exact h.sublist (List.filter_sublist.map name)
  -- a member is found under its name if it was kept, and nothing is otherwise
  have hfound : ∀ a ∈ l,
      ((byName name ((l.filter kept).map form)).get? (name a)).any (alike a) = kept a := by
    intro a ha
    cases hkept : kept a with
    | true =>
      have hmem : form a ∈ (l.filter kept).map form :=
        List.mem_map.2 ⟨a, List.mem_filter.2 ⟨ha, hkept⟩, rfl⟩
      rw [← hname a, get?_byName_of_mem hnodup hmem, Option.any_some, halike a ha]
    | false =>
      have hnot : name a ∉ ((l.filter kept).map form).map name := by
        rw [hnames]
        intro hmem
        obtain ⟨b, hb, hba⟩ := List.mem_map.1 hmem
        obtain ⟨hb, hkept'⟩ := List.mem_filter.1 hb
        rw [List.inj_on_of_nodup_map h hb ha hba, hkept] at hkept'
        cases hkept'
      rw [get?_byName_of_not_mem hnot, Option.any_none]
  have hpart : ((byName name l).entries.filter fun e =>
      ((byName name ((l.filter kept).map form)).get? e.1).any (alike e.2)).length =
      (l.filter kept).length := by
    rw [entries_byName h, List.filter_map, List.length_map]
    exact congrArg List.length (List.filter_congr hfound)
  have hwhole : (byName name l).size = l.length := by
    rw [Table.size, entries_byName h, List.length_map]
  exact congrArg₂ Share.mk hpart hwhole

/-! ## Projects -/

theorem part_fidelity_le_whole (p q : Project) : (p.fidelity q).part ≤ (p.fidelity q).whole :=
  Nat.add_le_add
    (Nat.add_le_add (part_share_le_whole _ _ _ _) (part_share_le_whole _ _ _ _))
    (part_share_le_whole _ _ _ _)

/-- A project is wholly found again exactly if its tags, its data types and its programs are. -/
theorem part_fidelity_eq_whole_iff (p q : Project) :
    (p.fidelity q).part = (p.fidelity q).whole ↔
      FoundIn Tag.key (fun a b => a.dataType = b.dataType ∧ a.scope = b.scope)
        p.controller.tags q.controller.tags ∧
      FoundIn (·.name) (fun a b => a.members.length = b.members.length)
        p.controller.dataTypes q.controller.dataTypes ∧
      FoundIn (·.name) (fun a b => a.routines.length = b.routines.length)
        p.programs q.programs := by
  have htags := part_share_le_whole Tag.key
    (fun a b => a.dataType == b.dataType && a.scope == b.scope)
    p.controller.tags q.controller.tags
  have htypes := part_share_le_whole (fun a : DataType => a.name)
    (fun a b => a.members.length == b.members.length) p.controller.dataTypes q.controller.dataTypes
  have hprograms := part_share_le_whole (fun a : Program => a.name)
    (fun a b => a.routines.length == b.routines.length) p.programs q.programs
  have htags' := part_share_eq_whole_iff Tag.key
    (fun a b => a.dataType == b.dataType && a.scope == b.scope)
    p.controller.tags q.controller.tags
  have htypes' := part_share_eq_whole_iff (fun a : DataType => a.name)
    (fun a b => a.members.length == b.members.length) p.controller.dataTypes q.controller.dataTypes
  have hprograms' := part_share_eq_whole_iff (fun a : Program => a.name)
    (fun a b => a.routines.length == b.routines.length) p.programs q.programs
  simp only [Bool.and_eq_true, beq_iff_eq] at htags' htypes' hprograms'
  rw [← htags', ← htypes', ← hprograms']
  simp only [fidelity, Share.add]
  omega

/-- The fidelity is a fraction between zero and one.  A project has all of itself, and another has
all of it exactly if it has a tag of the same type and scope, a data type with as many members and a
program with as many routines under each of its names, the last of a name counting. -/
theorem ratio_fidelity (p q : Project) :
    0 ≤ (p.fidelity q).ratio ∧ (p.fidelity q).ratio ≤ 1 ∧ (p.fidelity p).ratio = 1 ∧
    ((p.fidelity q).ratio = 1 ↔
      FoundIn Tag.key (fun a b => a.dataType = b.dataType ∧ a.scope = b.scope)
        p.controller.tags q.controller.tags ∧
      FoundIn (·.name) (fun a b => a.members.length = b.members.length)
        p.controller.dataTypes q.controller.dataTypes ∧
      FoundIn (·.name) (fun a b => a.routines.length = b.routines.length)
        p.programs q.programs) := by
  obtain ⟨hle, hone⟩ := Share.ratio_le_one_and_eq_one_iff (part_fidelity_le_whole p q)
  have hself : (p.fidelity p).part = (p.fidelity p).whole := by
    refine (part_fidelity_eq_whole_iff p p).2 ⟨?_, ?_, ?_⟩
    · apply foundIn_self
      exact fun _ => ⟨rfl, rfl⟩
    · apply foundIn_self
      exact fun _ => rfl
    · apply foundIn_self
      exact fun _ => rfl
  exact ⟨Share.ratio_nonneg _, hle, Share.ratio_of_part_eq_whole hself,
    hone.trans (part_fidelity_eq_whole_iff p q)⟩

end ControlLogic.Project
