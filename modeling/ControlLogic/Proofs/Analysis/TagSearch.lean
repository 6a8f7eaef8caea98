import ControlLogic.Analysis.Query
import ControlLogic.Proofs.Analysis.DataFlow
import ControlLogic.Proofs.Text.Chars

/-!
# Searching tags by the beginning of their names

The index holds each tag under every beginning of its name that ends before an underscore or with
the name, in lower case.  A question goes through all entries that begin with the text and takes the
first tag of each name.  The answer is that of a plain search through the tags in order.

* An underscore ends a word, so that lower case stops there: `lowerFrom_append`.  This matters for
  a letter that is written in another way at the end of a word.
* `of_mem_beginnings`: a beginning of a name is followed by an underscore or by nothing, so that in
  lower case it begins the name in lower case.
* `find?_beginningTable`: all entries that hold a name hold the same tags of it in the same order.
* `filter_firstOfEach` says what is left of a name, and `tagsBeginning_eq_scan` is the result.
-/

namespace ControlLogic

namespace Text

/-! ## Lower case up to the end of a word -/

/-- A character without case that is not skipped inside words. -/
def EndsWord (c : Char) : Prop :=
  inRanges c.toNat caseIgnorableRanges = false ∧ inRanges c.toNat casedRanges = false

/-- Nothing behind the end of a word counts as a letter of the word. -/
theorem metByCased_append {c : Char} (hc : EndsWord c) (s t : List Char) :
    metByCased (s ++ c :: t) = metByCased s := by
  rw [metByCased, metByCased, List.dropWhile_append]
  cases hs : s.dropWhile fun c => inRanges c.toNat caseIgnorableRanges with
  | nil => simp [hc.1, hc.2]
  | cons d rest => simp

/-- The lower case form of a text up to the end of a word is not changed by what follows. -/
theorem lowerFrom_append {c : Char} (hc : EndsWord c) (before s t : List Char) :
    lowerFrom before (s ++ c :: t) =
      lowerFrom before s ++ lowerFrom (s.reverse ++ before) (c :: t) := by
  induction s generalizing before with
  | nil => simp [lowerFrom]
  | cons d s ih =>
    rw [List.cons_append, lowerFrom, lowerFrom, metByCased_append hc, ih (d :: before)]
    simp

theorem endsWord_underscore : EndsWord '_' := ⟨by decide, by decide⟩

theorem lower_isPrefix {c : Char} (hc : EndsWord c) {b s : String} {t : List Char}
    (hs : s.toList = b.toList ++ c :: t) : (lower b).toList <+: (lower s).toList := by
  rw [lower, lower, String.toList_ofList, String.toList_ofList, hs, lowerFrom_append hc]
  exact List.prefix_append _ _

end Text

namespace Analysis

open Text

/-! ## Beginnings -/

theorem toList_join_take (name : String) (k : Nat) :
    (join "_" ((split '_' name).take k)).toList =
      ['_'].intercalate ((List.splitOn '_' name.toList).take k) := by
  rw [toList_join, split, List.map_take, List.map_map]
  simp [Function.comp_def]

/-- What follows a beginning of a name is an underscore or nothing. -/
theorem of_mem_beginnings {b name : String} (h : b ∈ beginnings name) :
    b = name ∨ ∃ t, name.toList = b.toList ++ '_' :: t := by
  obtain ⟨i, -, rfl⟩ := List.mem_map.1 h
  have hname : ['_'].intercalate (List.splitOn '_' name.toList) = name.toList :=
    List.intercalate_splitOn '_'
  rw [← String.toList_inj, toList_join_take]
  by_cases hlast : (List.splitOn '_' name.toList).drop (i + 1) = []
  · rw [List.take_of_length_le (List.drop_eq_nil_iff.1 hlast), hname]
    exact .inl rfl
  · have hfirst : (List.splitOn '_' name.toList).take (i + 1) ≠ [] := by
      simp [List.splitOn_ne_nil]
    refine .inr ⟨['_'].intercalate ((List.splitOn '_' name.toList).drop (i + 1)), ?_⟩
    rw [← List.take_append_drop (i + 1) (List.splitOn '_' name.toList),
      Chars.intercalate_append_of_ne_nil hfirst hlast] at hname
    simpa using hname.symm

/-- A name is one of its beginnings. -/
theorem self_mem_beginnings (name : String) : name ∈ beginnings name := by
  have hpos : 0 < (split '_' name).length := by
    simp [split, List.length_pos_iff, List.splitOn_ne_nil]
  refine List.mem_map.2 ⟨(split '_' name).length - 1, List.mem_range.2 (by omega), ?_⟩
  rw [← String.toList_inj, toList_join_take, Nat.sub_add_cancel hpos, List.take_of_length_le,
    List.intercalate_splitOn]
  simp [split]

/-- In lower case a beginning of a name begins the name. -/
theorem lower_isPrefix_of_mem_beginnings {b name : String} (h : b ∈ beginnings name) :
    (lower b).toList <+: (lower name).toList := by
  rcases of_mem_beginnings h with rfl | ⟨t, ht⟩
  · exact List.prefix_rfl
  · exact lower_isPrefix endsWord_underscore ht

/-! ## What the index holds -/

/-- The tags with the beginnings that they are held under. -/
def heldUnder (tags : List Project.Tag) : List (String × Project.Tag) :=
  tags.flatMap fun tag => (beginnings tag.name).map fun b => (lower b, tag)

theorem beginningTable_eq (tags : List Project.Tag) : Index.beginningTable tags =
    (heldUnder tags).foldl (fun t e => t.alter e.1 [] (· ++ [e.2])) Table.empty := by
  simp only [Index.beginningTable, heldUnder, List.foldl_flatMap, List.foldl_map]

theorem nodup_keys_beginningTable (tags : List Project.Tag) :
    (Index.beginningTable tags).keys.Nodup := by
  rw [beginningTable_eq]
  refine List.foldlRecOn (motive := fun t : Table String (List Project.Tag) => t.keys.Nodup)
    _ _ List.nodup_nil fun t ht e _ => ?_
  exact Table.nodup_keys_insert ht _ _

/-- A tag is held under a beginning of its name. -/
theorem find?_held (t : Project.Tag) (k name : String) :
    ((((beginnings t.name).map fun b => (lower b, t)).filter fun e => e.1 = k).map (·.2)).find?
        (fun t => t.name = name) =
      if t.name = name ∧ ∃ b ∈ beginnings name, lower b = k then some t else none := by
  have hlist : (((beginnings t.name).map fun b => (lower b, t)).filter fun e => e.1 = k).map (·.2) =
      ((beginnings t.name).filter fun b => lower b = k).map fun _ => t := by
    simp [List.filter_map, Function.comp_def]
  rw [hlist]
  by_cases hname : t.name = name
  · subst hname
    cases hheld : (beginnings t.name).filter fun b => lower b = k with
    | nil =>
      have hnone : ¬ ∃ b ∈ beginnings t.name, lower b = k := by
        simpa [List.filter_eq_nil_iff] using hheld
      simp [hnone]
    | cons b held =>
      have hmem : b ∈ (beginnings t.name).filter fun b => lower b = k :=
        hheld ▸ List.mem_cons_self
      have hb : ∃ b ∈ beginnings t.name, lower b = k := ⟨b, by simpa using hmem⟩
      simp [hb]
  · simp [hname]

/-- Under a beginning of a name stand the tags of that name, in order, and otherwise none of
them. -/
theorem find?_beginningTable (tags : List Project.Tag) (k name : String) :
    ((Index.beginningTable tags).getD k []).find? (fun t => t.name = name) =
      if ∃ b ∈ beginnings name, lower b = k then tags.find? (fun t => t.name = name) else none := by
  have hempty : (Table.empty : Table String (List Project.Tag)).getD k [] = [] := rfl
  rw [beginningTable_eq, Table.getD_foldl_alter, hempty, List.nil_append, heldUnder]
  induction tags with
  | nil => simp
  | cons t tags ih =>
    rw [List.flatMap_cons, List.filter_append, List.map_append, List.find?_append, ih,
      find?_held, List.find?_cons]
    by_cases hname : t.name = name
    · by_cases hb : ∃ b ∈ beginnings name, lower b = k <;> simp [hname, hb]
    · simp [hname]

/-! ## What a question finds -/

/-- Where something is found it is always the same, so that it only matters whether it is found. -/
theorem findSome?_eq_ite {α β : Type} {f : α → Option β} {c : α → Prop} [DecidablePred c]
    {v : Option β} {l : List α} (h : ∀ a ∈ l, f a = if c a then v else none) :
    l.findSome? f = if ∃ a ∈ l, c a then v else none := by
  induction l with
  | nil => simp
  | cons a l ih =>
    rw [List.forall_mem_cons] at h
    rw [List.findSome?_cons, h.1, ih h.2]
    by_cases ha : c a
    · cases v <;> simp [ha]
    · simp [ha]

/-- The entries that begin with a text hold the tags of just the names that do, in order. -/
theorem find?_entries (tags : List Project.Tag) (text name : String) :
    (((Index.beginningTable tags).entries.filter fun e => startsWith text e.1).flatMap
        (·.2)).find? (fun t => t.name = name) =
      if startsWith text (lower name) then tags.find? (fun t => t.name = name) else none := by
  have hentry : ∀ e ∈ (Index.beginningTable tags).entries.filter fun e => startsWith text e.1,
      e.2.find? (fun t => t.name = name) =
        if ∃ b ∈ beginnings name, lower b = e.1 then tags.find? (fun t => t.name = name)
        else none := by
    intro e he
    have hget := (Table.mem_entries_iff (nodup_keys_beginningTable tags)).1 (List.mem_filter.1 he).1
    rw [← find?_beginningTable, Table.getD, hget, Option.getD_some]
  rw [List.find?_flatMap, findSome?_eq_ite hentry]
  cases hfirst : tags.find? (fun t => t.name = name) with
  | none => simp
  | some t =>
    refine ite_congr (propext ⟨?_, fun hstart => ?_⟩) (fun _ => rfl) fun _ => rfl
    · -- the text begins an entry, and the entry begins the name
      rintro ⟨e, he, b, hb, hlower⟩
      have hentry : text.toList <+: e.1.toList :=
        List.isPrefixOf_iff_prefix.1 (List.mem_filter.1 he).2
      rw [← hlower] at hentry
      exact List.isPrefixOf_iff_prefix.2 (hentry.trans (lower_isPrefix_of_mem_beginnings hb))
    · -- the name itself is an entry
      have hheld := find?_beginningTable tags (lower name) name
      rw [if_pos ⟨name, self_mem_beginnings name, rfl⟩, hfirst, Table.getD] at hheld
      cases hget : (Index.beginningTable tags).get? (lower name) with
      | none =>
        rw [hget] at hheld
        cases hheld
      | some held =>
        refine ⟨(lower name, held), List.mem_filter.2 ⟨?_, hstart⟩, name,
          self_mem_beginnings name, rfl⟩
        exact Table.mem_entries_of_get? hget

/-- Of each name that was not seen before, the first tag is taken. -/
theorem filter_firstOfEach (seen : List String) (tags : List Project.Tag) (name : String) :
    (Index.firstOfEach seen tags).filter (fun t => t.name = name) =
      if name ∈ seen then [] else (tags.find? (fun t => t.name = name)).toList := by
  induction tags generalizing seen with
  | nil => simp [Index.firstOfEach]
  | cons t tags ih =>
    rw [Index.firstOfEach, List.find?_cons]
    by_cases hseen : t.name ∈ seen
    · rw [if_pos (by simpa using hseen), ih]
      by_cases hname : t.name = name
      · simp [← hname, hseen]
      · simp [hname]
    · rw [if_neg (by simpa using hseen), List.filter_cons, ih]
      by_cases hname : t.name = name
      · simp [← hname, hseen]
      · simp [hname, Ne.symm hname]

/-- Searching by the index is a plain search.  In the answer for a text, each name of a tag that
begins with the text, case aside, stands once, with the first tag of the name in the order of
declaration; no other name stands there. -/
theorem tagsBeginning_eq_scan (p : Project) (hnamed : ∀ t ∈ allTags p, t.named = true) :
    ∃ x, Index.ofProject p = .ok x ∧ ∀ text name,
      (x.tagsBeginning text).filter (fun t => t.name = name) =
        if startsWith (lower text) (lower name) then
          ((allTags p).find? (fun t => t.name = name)).toList
        else [] := by
  refine ⟨_, if_pos (List.all_eq_true.2 hnamed), fun text name => ?_⟩
  have hanswer : ∀ x : Index, x.tagsBeginning text = Index.firstOfEach []
      ((x.byBeginning.entries.filter fun e => startsWith (lower text) e.1).flatMap (·.2)) :=
    fun _ => rfl
  rw [hanswer, filter_firstOfEach, if_neg List.not_mem_nil, find?_entries]
  split <;> rfl

/-- The tag of the controller that tells whether a pump runs. -/
def pumpRun : Project.Tag where
  name := "PUMP_RUN"
  dataType := "BOOL"
  scope := .controller

/-- Two pumps, of which the second has a tag with the name of one of the first. -/
def pumps : Project where
  controller := { name := "Station", tags := [pumpRun,
    { name := "Pump_Speed", dataType := "REAL", scope := .controller }] }
  programs := [{ name := "Second", tags := [
    { name := "PUMP_RUN", dataType := "INT", scope := .program },
    { name := "pump_rest", dataType := "TIME", scope := .program }] }]

theorem tagsBeginning_eq_scan_pumps :
    (∀ t ∈ allTags pumps, t.named = true) ∧
    ∃ x, Index.ofProject pumps = .ok x ∧
      (x.tagsBeginning "Pump_R").filter (fun t => t.name = "PUMP_RUN") = [pumpRun] ∧
      (x.tagsBeginning "Pump_R").filter (fun t => t.name = "Pump_Speed") = [] := by
  have hnamed : ∀ t ∈ allTags pumps, t.named = true := by decide
  obtain ⟨x, hx, hscan⟩ := tagsBeginning_eq_scan pumps hnamed
  refine ⟨hnamed, x, hx, ?_, ?_⟩
  · rw [hscan, if_pos (by decide)]
    rfl
  · rw [hscan, if_neg (by decide)]

end Analysis

end ControlLogic
