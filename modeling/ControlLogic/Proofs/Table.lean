import ControlLogic.Table
import Mathlib.Data.List.Basic
import Mathlib.Data.List.Nodup
import Mathlib.Data.List.Perm.Subperm

/-!
# What a table keeps of a list

A table written from a list has one entry for each key.  `get?_ofList_append_cons` says which: the
last one under the key.  `size_ofList_eq_iff` says when none is lost.  `lookup_map_of_injective`
looks a key up after the keys and values have been replaced.
-/

namespace ControlLogic.Table

variable {α β : Type} [DecidableEq α]

/-- The table of a list has an entry for each element of the list exactly if its keys are
distinct. -/
theorem size_ofList_eq_iff (l : List (α × β)) :
    (ofList l).size = l.length ↔ (l.map (·.1)).Nodup := by
  constructor
  · intro hsize
    have hsub : (ofList l).keys ⊆ l.map (·.1) := fun k hk =>
      (contains_ofList l k).1 ((contains_iff_mem_keys _ k).2 hk)
    have hlength : (l.map (·.1)).length = (ofList l).keys.length := by
      rw [keys, List.length_map, List.length_map, ← hsize, size]
    -- distinct keys among as many are all of them
    have hperm := (List.Nodup.subperm (nodup_keys_ofList l) hsub).perm_of_length_le
      (Nat.le_of_eq hlength)
    exact hperm.nodup_iff.1 (nodup_keys_ofList l)
  · intro hl
    rw [size, entries_ofList hl]

/-- The last entry under a key is the one that is kept. -/
theorem get?_ofList_append_cons {l l' : List (α × β)} {k : α} (v : β) (h : k ∉ l'.map (·.1)) :
    (ofList (l ++ (k, v) :: l')).get? k = some v := by
  rw [get?_ofList_append, get?_ofList_cons, get?_ofList_of_not_mem h, if_pos rfl]
  rfl

/-- Keys and values can be replaced before or after a value is looked up. -/
theorem lookup_map_of_injective {γ δ : Type} [DecidableEq γ] {f : α → γ}
    (hf : Function.Injective f) (g : α → β → δ) (l : List (α × β)) (k : α) :
    lookup (f k) (l.map fun e => (f e.1, g e.1 e.2)) = (lookup k l).map (g k) := by
  induction l with
  | nil => rfl
  | cons e l ih =>
    rw [List.map_cons, lookup, lookup]
    by_cases he : e.1 = k
    · rw [if_pos (congrArg f he), if_pos he, Option.map_some, he]
    · rw [if_neg fun heq => he (hf heq), if_neg he, ih]

end ControlLogic.Table
