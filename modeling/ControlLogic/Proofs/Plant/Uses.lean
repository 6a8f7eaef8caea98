import ControlLogic.Plant.Basic
import Mathlib.Data.List.Basic
import Mathlib.Data.List.Nodup

/-!
# What the tables of a plant hold

The analyses of a plant fill tables of tables: under a tag and a controller stands what is known of
the two.

* `Table.cell` looks up under two keys, and `Table.fill` is the table that is filled from a list.
  `Table.cell_fill` says what stands in a cell: what was put there, one after the other.
* `uses_eq_fill` and `definitions_eq_fill` see the loops over controllers, programs, routines and
  lines as one list.
* `mem_keys_uses` says when a controller stands under a tag, and `cell_definitions` which
  definition.
-/

namespace ControlLogic

namespace Table

section Cells

variable {α β γ δ : Type} [DecidableEq α] [DecidableEq γ]

/-- The value under two keys. -/
def cell (t : Table α (Table γ β)) (a : α) (c : γ) : Option β := (t.get? a).bind (·.get? c)

/-- Changes the value under two keys. -/
def put (t : Table α (Table γ β)) (a : α) (c : γ) (f : Option β → β) : Table α (Table γ β) :=
  t.alter a empty fun u => u.insert c (f (u.get? c))

theorem get?_getD_empty (t : Table α (Table γ β)) (a : α) (c : γ) :
    (t.getD a empty).get? c = t.cell a c := by
  rw [getD, cell]
  cases t.get? a <;> rfl

omit [DecidableEq γ] in
/-- Where a table stands under a key, the key is known. -/
theorem mem_keys_of_mem_keys_getD {t : Table α (Table γ β)} {a : α} {c : γ}
    (h : c ∈ (t.getD a empty).keys) : a ∈ t.keys := by
  rw [← contains_iff_mem_keys, contains]
  rw [getD] at h
  cases hget : t.get? a with
  | some u => rfl
  | none =>
    rw [hget] at h
    exact absurd h List.not_mem_nil

theorem cell_put (t : Table α (Table γ β)) (a a' : α) (c c' : γ) (f : Option β → β) :
    (t.put a c f).cell a' c' = if a = a' ∧ c = c' then some (f (t.cell a c)) else t.cell a' c' := by
  rw [cell, put, alter, get?_insert, get?_getD_empty]
  by_cases ha : a = a'
  · rw [if_pos ha, Option.bind_some, get?_insert, ← ha, get?_getD_empty]
    simp
  · rw [if_neg ha, if_neg fun h => ha h.1, cell]

/-- The keys of the table and of the tables in it are distinct. -/
def WellKeyed (t : Table α (Table γ β)) : Prop :=
  t.keys.Nodup ∧ ∀ a, (t.getD a empty).keys.Nodup

theorem WellKeyed.put {t : Table α (Table γ β)} (h : t.WellKeyed) (a : α) (c : γ)
    (f : Option β → β) : (t.put a c f).WellKeyed := by
  refine ⟨nodup_keys_insert h.1 _ _, fun a' => ?_⟩
  rw [Table.put, alter, getD, get?_insert]
  split
  · exact nodup_keys_insert (h.2 a) c _
  · exact h.2 a'

/-- The table that is filled from a list of keys with what is put under them. -/
def fill (f : δ → Option β → β) (l : List (α × γ × δ)) : Table α (Table γ β) :=
  l.foldl (fun t e => t.put e.1 e.2.1 (f e.2.2)) empty

theorem wellKeyed_fill (f : δ → Option β → β) (l : List (α × γ × δ)) : (fill f l).WellKeyed := by
  refine List.foldlRecOn _ _ ⟨List.nodup_nil, fun _ => List.nodup_nil⟩ fun t ht e _ => ?_
  exact ht.put e.1 e.2.1 (f e.2.2)

/-- In a cell stands what was put there, one after the other. -/
theorem cell_fill (f : δ → Option β → β) (l : List (α × γ × δ)) (a : α) (c : γ) :
    (fill f l).cell a c =
      (l.filter fun e => e.1 = a ∧ e.2.1 = c).foldl (fun v e => some (f e.2.2 v)) none := by
  have hrun : ∀ t : Table α (Table γ β),
      (l.foldl (fun t e => t.put e.1 e.2.1 (f e.2.2)) t).cell a c =
        (l.filter fun e => e.1 = a ∧ e.2.1 = c).foldl (fun v e => some (f e.2.2 v))
          (t.cell a c) := by
    induction l with
    | nil => exact fun _ => rfl
    | cons e l ih =>
      intro t
      rw [List.foldl_cons, ih, cell_put]
      by_cases he : e.1 = a ∧ e.2.1 = c
      · rw [if_pos he, List.filter_cons_of_pos (by simpa using he), List.foldl_cons, he.1, he.2]
      · rw [if_neg he, List.filter_cons_of_neg (by simpa using he)]
  exact hrun empty

/-- Under a first key stand the second keys that came with it. -/
theorem mem_keys_fill {f : δ → Option β → β} {l : List (α × γ × δ)} {a : α} {c : γ} :
    c ∈ ((fill f l).getD a empty).keys ↔ ∃ d, (a, c, d) ∈ l := by
  have hsome : ∀ (m : List (α × γ × δ)) (v : Option β),
      (m.foldl (fun v e => some (f e.2.2 v)) v).isSome = true ↔ m ≠ [] ∨ v.isSome = true := by
    intro m
    induction m with
    | nil => simp
    | cons e m ih => intro v; simp [ih]
  rw [← contains_iff_mem_keys, contains, get?_getD_empty, cell_fill, hsome]
  simp [List.filter_eq_nil_iff]

/-- If what is put replaces what was there, the last of it is left. -/
theorem cell_fill_replace (l : List (α × γ × β)) (a : α) (c : γ) :
    (fill (fun d _ => d) l).cell a c =
      ((l.filter fun e => e.1 = a ∧ e.2.1 = c).getLast?).map (·.2.2) := by
  have hlast : ∀ m : List (α × γ × β),
      m.foldl (fun _ e => some e.2.2) none = m.getLast?.map (·.2.2) := by
    intro m
    rcases List.eq_nil_or_concat m with rfl | ⟨m, e, rfl⟩
    · rfl
    · simp
  rw [cell_fill, hlast]

end Cells

/-- With distinct keys, what is gathered under one key comes from its value alone. -/
theorem flatMap_entries_of_key {β γ : Type} {t : Table String β} (h : t.keys.Nodup) (k : String)
    (f : β → List γ) :
    (t.entries.flatMap fun e => if e.1 = k then f e.2 else []) = ((t.get? k).map f).getD [] := by
  obtain ⟨entries⟩ := t
  rw [get?]
  induction entries with
  | nil => rfl
  | cons e entries ih =>
    have hentries := List.nodup_cons.1 h
    rw [List.flatMap_cons, ih hentries.2, lookup]
    by_cases he : e.1 = k
    · have hnone : lookup k entries = none := by
        rw [← Option.not_isSome_iff_eq_none, isSome_lookup, ← he]
        exact hentries.1
      simp [he, hnone]
    · simp [he]

end Table

namespace Plant

open Analysis (liveLines)

/-! ## Uses -/

/-- A live line of a routine of the controller has a property. -/
def HasLine (p : Plant) (controller : String) (P : String → Prop) : Prop :=
  ∃ e ∈ p.controllers.entries, e.1 = controller ∧ ∃ q ∈ e.2.programs, ∃ r ∈ q.routines,
    ∃ line ∈ liveLines r.text, P line

/-- The tags that `f` gives for the lines of a plant, with controller and routine. -/
def mentions (f : String → List String) (p : Plant) : List (String × String × String) :=
  p.controllers.entries.flatMap fun e => e.2.routines.flatMap fun r =>
    ((liveLines r.text).flatMap f).map fun tag => (tag, e.1, r.name)

theorem uses_eq_fill (f : String → List String) (p : Plant) :
    p.uses f = Table.fill (fun r v => v.getD [] ++ [r]) (p.mentions f) := by
  have hroutine : ∀ controller, noteLines f controller = fun t r =>
      (((liveLines r.text).flatMap f).map fun tag => (tag, controller, r.name)).foldl
        (fun t e => t.put e.1 e.2.1 fun v => v.getD [] ++ [e.2.2]) t := by
    intro controller
    funext t r
    rw [List.foldl_map]
    rfl
  simp only [uses, hroutine, Table.fill, mentions, List.foldl_flatMap]

theorem mem_mentions {f : String → List String} {p : Plant} {tag controller : String} :
    (∃ r, (tag, controller, r) ∈ p.mentions f) ↔ p.HasLine controller (tag ∈ f ·) := by
  simp only [mentions, HasLine, Project.routines, List.mem_flatMap, List.mem_map, Prod.mk.injEq]
  constructor
  · rintro ⟨_, e, he, r, ⟨q, hq, hr⟩, _, ⟨line, hline, htag⟩, rfl, rfl, rfl⟩
    exact ⟨e, he, rfl, q, hq, r, hr, line, hline, htag⟩
  · rintro ⟨e, he, rfl, q, hq, r, hr, line, hline, htag⟩
    exact ⟨r.name, e, he, r, ⟨q, hq, hr⟩, tag, ⟨line, hline, htag⟩, rfl, rfl, rfl⟩

/-- Under a tag stand the controllers with a line that `f` gives the tag for. -/
theorem mem_keys_uses {f : String → List String} {p : Plant} {tag controller : String} :
    controller ∈ ((p.uses f).getD tag Table.empty).keys ↔ p.HasLine controller (tag ∈ f ·) := by
  rw [uses_eq_fill, Table.mem_keys_fill, mem_mentions]

theorem wellKeyed_uses (f : String → List String) (p : Plant) : (p.uses f).WellKeyed :=
  uses_eq_fill f p ▸ Table.wellKeyed_fill _ _

/-! ## Definitions -/

/-- How a controller defines a tag: by the last of its tags with the name. -/
def definition? (p : Plant) (controller tag : String) : Option Definition :=
  (p.controllers.get? controller).bind fun q =>
    (q.controller.tags.filter (·.name = tag)).getLast?.map .ofTag

/-- The tags of a plant with controller and definition. -/
def declarations (p : Plant) : List (String × String × Definition) :=
  p.controllers.entries.flatMap fun e =>
    e.2.controller.tags.map fun t => (t.name, e.1, .ofTag t)

theorem definitions_eq_fill (p : Plant) :
    p.definitions = Table.fill (fun v _ => v) p.declarations := by
  simp only [definitions, Table.fill, declarations, List.foldl_flatMap, List.foldl_map]
  rfl

theorem filter_declarations {p : Plant} (hp : p.controllers.keys.Nodup) (tag controller : String) :
    (p.declarations.filter fun e => e.1 = tag ∧ e.2.1 = controller) =
      (((p.controllers.get? controller).map fun q => q.controller.tags.filter (·.name = tag)).getD
        []).map fun t => (t.name, controller, .ofTag t) := by
  have hcontroller : ∀ e : String × Project,
      ((e.2.controller.tags.map fun t => (t.name, e.1, Definition.ofTag t)).filter
        fun d => d.1 = tag ∧ d.2.1 = controller) =
      if e.1 = controller then (e.2.controller.tags.filter (·.name = tag)).map
        fun t => (t.name, controller, Definition.ofTag t) else [] := by
    intro e
    rw [List.filter_map]
    by_cases he : e.1 = controller
    · simp [he, Function.comp_def]
    · simp [he, Function.comp_def]
  rw [declarations, List.filter_flatMap]
  simp only [hcontroller]
  rw [Table.flatMap_entries_of_key hp controller
    fun q => (q.controller.tags.filter (·.name = tag)).map
      fun t => (t.name, controller, Definition.ofTag t)]
  cases p.controllers.get? controller <;> rfl

/-- Under a tag and a controller stands the definition that the controller gives. -/
theorem cell_definitions {p : Plant} (hp : p.controllers.keys.Nodup) (tag controller : String) :
    p.definitions.cell tag controller = p.definition? controller tag := by
  rw [definitions_eq_fill, Table.cell_fill_replace, filter_declarations hp, definition?]
  cases p.controllers.get? controller with
  | none => rfl
  | some q =>
    simp only [Option.map_some, Option.getD_some, List.getLast?_map, Option.map_map,
      Option.bind_some]
    rfl

end Plant

end ControlLogic
