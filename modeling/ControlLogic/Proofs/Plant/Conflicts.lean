import ControlLogic.Plant.Basic
import Mathlib.Data.List.Basic

/-!
# Conflicts come from tags

A conflict is found in the table of definitions, which is filled controller by controller and
tag by tag.  `mem_definitions` goes back from an entry of the table to the tag it was made from,
and `exists_of_mem_conflicts` from a conflict in the data types to two tags of one name that
differ in their types.
-/

namespace ControlLogic

namespace Plant

/-- A controller of the plant declares a tag in this way. -/
def Declares (p : Plant) (tag : String) (v : Definition) : Prop :=
  ∃ e ∈ p.controllers.entries, ∃ t ∈ e.2.controller.tags, t.name = tag ∧ v = .ofTag t

/-- All definitions in a table have a property. -/
def AllDefinitions (Q : String → Definition → Prop) (t : Table String (Table String Definition)) :
    Prop :=
  ∀ e ∈ t.entries, ∀ v ∈ e.2.values, Q e.1 v

theorem AllDefinitions.insert {Q : String → Definition → Prop}
    {t : Table String (Table String Definition)} (h : AllDefinitions Q t) {tag : String}
    {v : Definition} (hv : Q tag v) (controller : String) :
    AllDefinitions Q (t.alter tag Table.empty (·.insert controller v)) := by
  intro e he w hw
  rcases Table.mem_insertEntry he with rfl | he
  · obtain ⟨f, hf, rfl⟩ := List.mem_map.1 hw
    rcases Table.mem_insertEntry hf with rfl | hf
    · exact hv
    · -- the other definitions of the tag were in the table
      rw [Table.getD] at hf
      cases hold : t.get? tag with
      | none =>
        rw [hold] at hf
        exact absurd hf List.not_mem_nil
      | some u =>
        rw [hold] at hf
        exact h _ (Table.mem_entries_of_get? hold) _ (List.mem_map_of_mem hf)
  · exact h e he w hw

/-- Every definition was declared. -/
theorem mem_definitions (p : Plant) : AllDefinitions p.Declares p.definitions := by
  rw [definitions]
  refine List.foldlRecOn _ _ (List.forall_mem_nil _) fun t ht e he => ?_
  refine List.foldlRecOn _ _ ht fun t ht tag htag => ?_
  exact ht.insert ⟨e, he, tag, htag, rfl, rfl⟩ e.1

theorem exists_ne_of_agree_eq_false {l : List String} (h : agree l = false) :
    ∃ a ∈ l, ∃ b ∈ l, a ≠ b := by
  cases l with
  | nil => cases h
  | cons a rest =>
    obtain ⟨b, hb, hab⟩ := List.all_eq_false.1 h
    exact ⟨a, List.mem_cons_self, b, List.mem_cons_of_mem _ hb, by simpa using hab⟩

/-- Where a conflict in the data types is found, two tags of the name differ in their types. -/
theorem exists_of_mem_conflicts {p : Plant} {c : Conflict} (hc : c ∈ p.conflicts)
    (htypes : c.difference = .dataTypes) :
    ∃ v w, p.Declares c.tag v ∧ p.Declares c.tag w ∧ v.dataType ≠ w.dataType := by
  obtain ⟨e, he, hc⟩ := List.mem_flatMap.1 hc
  rcases List.mem_append.1 hc with hc | hc
  · rw [Option.mem_toList, conflictIn] at hc
    split at hc
    · cases hc
    · rename_i hagree
      cases hc
      obtain ⟨a, ha, b, hb, hab⟩ := exists_ne_of_agree_eq_false (Bool.not_eq_true _ ▸ hagree)
      obtain ⟨v, hv, rfl⟩ := List.mem_map.1 ha
      obtain ⟨w, hw, rfl⟩ := List.mem_map.1 hb
      exact ⟨v, w, mem_definitions p e he v hv, mem_definitions p e he w hw, hab⟩
  · rw [Option.mem_toList, conflictIn] at hc
    split at hc
    · cases hc
    · cases hc
      cases htypes

end Plant

end ControlLogic
