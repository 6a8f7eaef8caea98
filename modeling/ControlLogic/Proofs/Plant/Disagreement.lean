import ControlLogic.Proofs.Plant.Conflicts
import ControlLogic.Proofs.Plant.Dependencies

/-!
# Conflicts are exact

A tag is in conflict exactly if two controllers define it differently.

* `Difference.said` is what a definition says in the matter of a difference, and `Disagree` that two
  controllers say different things.
* `mem_conflicts` goes from a record to the row of the tag in the table of definitions, and
  `details_of_mem_conflicts` from there to what each controller says.
* `exists_mem_conflicts_iff`: there is a record where controllers disagree, and
  `nodup_conflicts`: there is one for each tag and difference.
* `rearranged_of_key`: lists of records with the same distinct keys are rearrangements of each
  other.  With it the order of controllers does not matter.
-/

namespace ControlLogic

namespace Table

/-- Tables with distinct keys in which the same is found have the same entries. -/
theorem entries_perm {α β : Type} [DecidableEq α] {t u : Table α β} (ht : t.keys.Nodup)
    (hu : u.keys.Nodup) (h : ∀ k, t.get? k = u.get? k) : t.entries.Perm u.entries := by
  refine (List.perm_ext_iff_of_nodup ht.of_map hu.of_map).2 ?_
  rintro ⟨k, v⟩
  rw [mem_entries_iff ht, mem_entries_iff hu, h]

end Table

namespace Plant

/-- What a definition says in the matter of a difference. -/
def Difference.said : Difference → Definition → String
  | .dataTypes, v => v.dataType
  | .scopes, v => v.scope.name

/-- Two controllers say different things of the tag. -/
def Disagree (p : Plant) (tag : String) (d : Difference) : Prop :=
  ∃ a b v w, p.definition? a tag = some v ∧ p.definition? b tag = some w ∧ d.said v ≠ d.said w

theorem agree_eq_false_iff {l : List String} : agree l = false ↔ ∃ a ∈ l, ∃ b ∈ l, a ≠ b := by
  refine ⟨exists_ne_of_agree_eq_false, ?_⟩
  rintro ⟨a, ha, b, hb, hab⟩
  cases l with
  | nil => exact absurd ha List.not_mem_nil
  | cons c rest =>
    rw [← Bool.not_eq_true, agree, List.all_eq_true]
    intro hall
    have hsame : ∀ x ∈ c :: rest, c = x := by
      intro x hx
      rcases List.mem_cons.1 hx with rfl | hx
      · rfl
      · exact beq_iff_eq.1 (hall x hx)
    exact hab ((hsame a ha).symm.trans (hsame b hb))

/-! ## Records -/

theorem mem_conflictsOf {tag : String} {t : Table String Definition} {c : Conflict} :
    c ∈ conflictsOf tag t ↔ c.tag = tag ∧ c.details = t.map c.difference.said ∧
      agree (t.values.map c.difference.said) = false := by
  have hin : ∀ d : Difference, c ∈ (conflictIn tag d d.said t).toList ↔
      agree (t.values.map d.said) = false ∧ c = ⟨tag, d, t.map d.said⟩ := by
    intro d
    rw [Option.mem_toList, conflictIn]
    cases agree (t.values.map d.said) with
    | true => simp
    | false => simp [eq_comm]
  have hboth : conflictsOf tag t =
      (conflictIn tag .dataTypes (Difference.said .dataTypes) t).toList ++
        (conflictIn tag .scopes (Difference.said .scopes) t).toList := rfl
  rw [hboth, List.mem_append, hin, hin]
  obtain ⟨tag', difference, details⟩ := c
  cases difference <;> simp [and_comm, and_left_comm]

theorem wellKeyed_definitions (p : Plant) : p.definitions.WellKeyed :=
  definitions_eq_fill p ▸ Table.wellKeyed_fill _ _

/-- The row of a tag holds what the controllers say of it. -/
theorem row_definitions {p : Plant} (hp : p.controllers.keys.Nodup) {tag : String}
    {t : Table String Definition} (ht : p.definitions.get? tag = some t) :
    t.keys.Nodup ∧ ∀ controller, t.get? controller = p.definition? controller tag := by
  have hrow : p.definitions.getD tag Table.empty = t := by rw [Table.getD, ht, Option.getD_some]
  refine ⟨hrow ▸ (wellKeyed_definitions p).2 tag, fun controller => ?_⟩
  rw [← cell_definitions hp, Table.cell, ht, Option.bind_some]

/-- A record is made from the row of its tag. -/
theorem mem_conflicts {p : Plant} {c : Conflict} :
    c ∈ p.conflicts ↔ ∃ t, p.definitions.get? c.tag = some t ∧
      c.details = t.map c.difference.said ∧ agree (t.values.map c.difference.said) = false := by
  have hkeys := (wellKeyed_definitions p).1
  simp only [conflicts, List.mem_flatMap, mem_conflictsOf]
  constructor
  · rintro ⟨⟨tag, t⟩, he, rfl, hc⟩
    exact ⟨t, (Table.mem_entries_iff hkeys).1 he, hc⟩
  · rintro ⟨t, ht, hc⟩
    exact ⟨(c.tag, t), (Table.mem_entries_iff hkeys).2 ht, rfl, hc⟩

/-- A record lists the controllers that define its tag, each with what it says. -/
theorem details_of_mem_conflicts {p : Plant} (hp : p.controllers.keys.Nodup) {c : Conflict}
    (hc : c ∈ p.conflicts) :
    c.details.keys.Nodup ∧ ∀ controller,
      c.details.get? controller = (p.definition? controller c.tag).map c.difference.said := by
  obtain ⟨t, ht, hdetails, -⟩ := mem_conflicts.1 hc
  obtain ⟨hkeys, hrow⟩ := row_definitions hp ht
  rw [hdetails, Table.keys_map]
  refine ⟨hkeys, fun controller => ?_⟩
  rw [Table.get?_map, hrow]

/-- The definitions in the row of a tag say different things if controllers disagree. -/
theorem agree_row_eq_false_iff {p : Plant} (hp : p.controllers.keys.Nodup) {tag : String}
    {t : Table String Definition} (ht : p.definitions.get? tag = some t) (d : Difference) :
    agree (t.values.map d.said) = false ↔ p.Disagree tag d := by
  obtain ⟨hkeys, hrow⟩ := row_definitions hp ht
  have hvalue : ∀ s, s ∈ t.values.map d.said ↔
      ∃ controller v, p.definition? controller tag = some v ∧ d.said v = s := by
    intro s
    simp only [Table.values, List.mem_map, ← hrow, ← Table.mem_entries_iff hkeys]
    constructor
    · rintro ⟨_, ⟨⟨controller, v⟩, he, rfl⟩, hs⟩
      exact ⟨controller, v, he, hs⟩
    · rintro ⟨controller, v, he, hs⟩
      exact ⟨v, ⟨(controller, v), he, rfl⟩, hs⟩
  simp only [agree_eq_false_iff, hvalue, Disagree]
  constructor
  · rintro ⟨_, ⟨a, v, hv, rfl⟩, _, ⟨b, w, hw, rfl⟩, hne⟩
    exact ⟨a, b, v, w, hv, hw, hne⟩
  · rintro ⟨a, b, v, w, hv, hw, hne⟩
    exact ⟨_, ⟨a, v, hv, rfl⟩, _, ⟨b, w, hw, rfl⟩, hne⟩

/-- There is a record where controllers disagree. -/
theorem exists_mem_conflicts_iff {p : Plant} (hp : p.controllers.keys.Nodup) (tag : String)
    (d : Difference) :
    (∃ c ∈ p.conflicts, c.tag = tag ∧ c.difference = d) ↔ p.Disagree tag d := by
  constructor
  · rintro ⟨c, hc, rfl, rfl⟩
    obtain ⟨t, ht, -, hagree⟩ := mem_conflicts.1 hc
    exact (agree_row_eq_false_iff hp ht c.difference).1 hagree
  · intro hdisagree
    obtain ⟨a, b, v, w, hv, hw, hne⟩ := id hdisagree
    -- a tag that is defined has a row
    cases ht : p.definitions.get? tag with
    | none =>
      rw [← cell_definitions hp, Table.cell, ht] at hv
      cases hv
    | some t =>
      refine ⟨⟨tag, d, t.map d.said⟩, mem_conflicts.2 ⟨t, ht, rfl, ?_⟩, rfl, rfl⟩
      exact (agree_row_eq_false_iff hp ht d).2 hdisagree

/-- There is one record for each tag and difference. -/
theorem nodup_conflicts (p : Plant) :
    (p.conflicts.map fun c => (c.tag, c.difference)).Nodup := by
  rw [conflicts, List.map_flatMap]
  refine List.nodup_flatMap.2 ⟨?_, ?_⟩
  · -- the two records of one tag are of different kinds
    rintro ⟨tag, t⟩ -
    show ((conflictsOf tag t).map fun c => (c.tag, c.difference)).Nodup
    rw [conflictsOf, conflictIn, conflictIn]
    split <;> split <;> simp
  · refine (List.pairwise_map.1 (wellKeyed_definitions p).1).imp fun {e f} hne => ?_
    intro x hx hx'
    obtain ⟨c, hc, rfl⟩ := List.mem_map.1 hx
    obtain ⟨c', hc', heq⟩ := List.mem_map.1 hx'
    have htag : c'.tag = c.tag := congrArg Prod.fst heq
    rw [(mem_conflictsOf.1 hc).1, (mem_conflictsOf.1 hc').1] at htag
    exact hne htag.symm

/-! ## Order -/

/-- Lists of records with the same distinct keys are rearrangements of each other. -/
theorem rearranged_of_key {α κ : Type} {R : α → α → Prop} {k : α → κ} {l m : List α}
    (hl : (l.map k).Nodup) (hm : (m.map k).Nodup) (hkeys : ∀ x, x ∈ l.map k ↔ x ∈ m.map k)
    (hR : ∀ a ∈ l, ∀ b ∈ m, k a = k b → R a b) : Rearranged R l m := by
  induction m generalizing l with
  | nil =>
    cases l with
    | nil => exact ⟨[], .refl _, .nil⟩
    | cons a l => exact absurd ((hkeys (k a)).1 List.mem_cons_self) List.not_mem_nil
  | cons b m ih =>
    -- the record with the key of `b` goes first
    obtain ⟨a, ha, hab⟩ := List.mem_map.1 ((hkeys (k b)).2 List.mem_cons_self)
    obtain ⟨s, t, rfl⟩ := List.append_of_mem ha
    have hperm : (s ++ a :: t).Perm (a :: (s ++ t)) := List.perm_middle
    have hl' := List.nodup_cons.1 ((hperm.map k).nodup_iff.1 hl)
    have hm' := List.nodup_cons.1 hm
    have hkeys' : ∀ x, x ∈ (s ++ t).map k ↔ x ∈ m.map k := by
      intro x
      have hx := hkeys x
      rw [(hperm.map k).mem_iff, List.map_cons, List.map_cons, List.mem_cons, List.mem_cons,
        hab] at hx
      by_cases hxb : x = k b
      · rw [hxb]
        exact iff_of_false (hab ▸ hl'.1) hm'.1
      · rwa [or_iff_right hxb, or_iff_right hxb] at hx
    obtain ⟨l', hperm', hall⟩ := ih hl'.2 hm'.2 hkeys' fun a' ha' b' hb' =>
      hR a' (hperm.mem_iff.2 (List.mem_cons_of_mem _ ha')) b' (List.mem_cons_of_mem _ hb')
    exact ⟨a :: l', hperm.trans (hperm'.cons a), .cons (hR a ha b List.mem_cons_self hab) hall⟩

/-- The records are about the same tag and difference and list the same controllers, with the same
said by each, in any order. -/
def SameRecord (c d : Conflict) : Prop :=
  c.tag = d.tag ∧ c.difference = d.difference ∧ c.details.entries.Perm d.details.entries

theorem Reordered.of_perm {p q : Plant} (h : p.controllers.entries.Perm q.controllers.entries) :
    p.Reordered q := by
  refine ⟨_, h, List.forall₂_same.2 fun e _ => ⟨rfl, rfl, ?_⟩⟩
  refine ⟨_, .refl _, List.forall₂_same.2 fun a _ => ?_⟩
  exact ⟨_, .refl _, List.forall₂_same.2 fun r _ => List.Perm.refl _⟩

/-- Conflicts are exact.  There is a record of different data types for a tag exactly if two
controllers give it different data types by the last of their tags with the name, one of different
scopes exactly if they give it different scopes, and at most one of each kind.  A record lists the
controllers that define the tag and no other, each with what it says.  If the controllers come in
another order, so do the records and what they list, and nothing else changes. -/
theorem conflicts_exact (p : Plant) (hp : p.controllers.keys.Nodup) :
    (∀ tag, (∃ c ∈ p.conflicts, c.tag = tag ∧ c.difference = .dataTypes) ↔
      ∃ a b v w, p.definition? a tag = some v ∧ p.definition? b tag = some w ∧
        v.dataType ≠ w.dataType) ∧
    (∀ tag, (∃ c ∈ p.conflicts, c.tag = tag ∧ c.difference = .scopes) ↔
      ∃ a b v w, p.definition? a tag = some v ∧ p.definition? b tag = some w ∧
        v.scope ≠ w.scope) ∧
    (p.conflicts.map fun c => (c.tag, c.difference)).Nodup ∧
    (∀ c ∈ p.conflicts, c.details.keys.Nodup ∧ ∀ controller,
      c.details.get? controller = (p.definition? controller c.tag).map c.difference.said) ∧
    ∀ q : Plant, p.controllers.entries.Perm q.controllers.entries →
      Rearranged SameRecord p.conflicts q.conflicts := by
  have hscope : ∀ s s' : Project.Scope, s.name ≠ s'.name ↔ s ≠ s' := by
    intro s s'
    cases s <;> cases s' <;> decide
  refine ⟨fun tag => exists_mem_conflicts_iff hp tag .dataTypes, fun tag => ?_, nodup_conflicts p,
    fun c hc => details_of_mem_conflicts hp hc, fun q hq => ?_⟩
  · simp only [exists_mem_conflicts_iff hp, Disagree, Difference.said, hscope]
  · have hqkeys : q.controllers.keys.Nodup := (hq.map Prod.fst).nodup_iff.1 hp
    have hdefinition := (Reordered.of_perm hq).definition?_eq hp
    refine rearranged_of_key (nodup_conflicts p) (nodup_conflicts q) ?_ ?_
    · rintro ⟨tag, d⟩
      have hmem : ∀ l : List Conflict, (tag, d) ∈ l.map (fun c => (c.tag, c.difference)) ↔
          ∃ c ∈ l, c.tag = tag ∧ c.difference = d := by simp
      rw [hmem, hmem, exists_mem_conflicts_iff hp, exists_mem_conflicts_iff hqkeys]
      simp only [Disagree, hdefinition]
    · intro c hc c' hc' hkey
      obtain ⟨htag, hdifference⟩ := Prod.mk.injEq .. ▸ hkey
      obtain ⟨hkeys, hsaid⟩ := details_of_mem_conflicts hp hc
      obtain ⟨hkeys', hsaid'⟩ := details_of_mem_conflicts hqkeys hc'
      refine ⟨htag, hdifference, Table.entries_perm hkeys hkeys' fun controller => ?_⟩
      rw [hsaid, hsaid', hdefinition, htag, hdifference]

/-- A controller that defines a level twice, and another that sees it differently. -/
def twoLevels : Plant where
  controllers := ⟨[
    ("Tank", oneRoutine [{ name := "Level", dataType := "REAL", scope := .controller },
      { name := "Level", dataType := "DINT", scope := .controller }] []),
    ("Pump", oneRoutine [{ name := "Level", dataType := "REAL", scope := .program }] [])]⟩

/-- The same with the controllers the other way round. -/
def twoLevelsSwapped : Plant where
  controllers := ⟨twoLevels.controllers.entries.reverse⟩

theorem conflicts_exact_twoLevels :
    twoLevels.controllers.keys.Nodup ∧
      twoLevels.controllers.entries.Perm twoLevelsSwapped.controllers.entries ∧
      (∃ c ∈ twoLevels.conflicts, c.tag = "Level" ∧ c.difference = .dataTypes ∧
        c.details.get? "Tank" = some "DINT" ∧ c.details.get? "Pump" = some "REAL" ∧
        c.details.get? "Valve" = none) ∧
      (∃ c ∈ twoLevels.conflicts, c.tag = "Level" ∧ c.difference = .scopes) ∧
      Rearranged SameRecord twoLevels.conflicts twoLevelsSwapped.conflicts := by
  have hkeys : twoLevels.controllers.keys.Nodup := by decide
  have hperm : twoLevels.controllers.entries.Perm twoLevelsSwapped.controllers.entries :=
    (List.reverse_perm _).symm
  obtain ⟨htypes, hscopes, -, hdetails, horder⟩ := conflicts_exact twoLevels hkeys
  have htank : twoLevels.definition? "Tank" "Level" = some ⟨"DINT", .controller, none⟩ := by decide
  have hpump : twoLevels.definition? "Pump" "Level" = some ⟨"REAL", .program, none⟩ := by decide
  have hvalve : twoLevels.definition? "Valve" "Level" = none := by decide
  refine ⟨hkeys, hperm, ?_, ?_, horder _ hperm⟩
  · obtain ⟨c, hc, htag, hdifference⟩ :=
      (htypes "Level").2 ⟨"Tank", "Pump", _, _, htank, hpump, by decide⟩
    have hsaid := (hdetails c hc).2
    rw [htag, hdifference] at hsaid
    refine ⟨c, hc, htag, hdifference, ?_, ?_, ?_⟩
    · rw [hsaid, htank]
      rfl
    · rw [hsaid, hpump]
      rfl
    · rw [hsaid, hvalve]
      rfl
  · exact (hscopes "Level").2 ⟨"Tank", "Pump", _, _, htank, hpump, by decide⟩

end Plant

end ControlLogic
