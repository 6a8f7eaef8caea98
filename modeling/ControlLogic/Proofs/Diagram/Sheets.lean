import ControlLogic.Proofs.Diagram.Order
import ControlLogic.Proofs.Text.Chars
import Mathlib.Data.List.Induction

/-!
# The sheets of a diagram

What is written under the header of each sheet.  The sheets are read one after the other into
one network, and the order of execution of a sheet is put behind the orders of the sheets
before.  So the code under a header is that of all sheets up to it.

There are four groups.

* What a sheet shows: `blockIds` and `sheetIds`.
* The reading after `k` sheets.  `networkAfter` is its network and `calledUnder` its order, and
  `readSheets_take` says so.
* The text.  `text_readSheets` gives the lines of a diagram, header by header.
* What repeats.  `count_calledUnder` says how often a block is called under a header, and
  `assignmentsUnder_sublist` that an assignment is written again under every later header.

`writtenOnce_iff` says when nothing repeats.
-/

namespace ControlLogic.Diagram

open Markup StructuredText

/-! ## What a sheet shows -/

/-- What the elements `tag` of a sheet show, each under its identifier; an element without an
identifier or without the attribute `key` shows nothing. -/
def entries {β : Type} (tag key : String) (make : String → Element → β) (sheet : Element) :
    List (String × β) :=
  (sheet.childrenNamed tag).filterMap fun e =>
    match filled? e "ID", filled? e key with
    | some id, some value => some (id, make value e)
    | _, _ => none

/-- The function blocks of a sheet. -/
def sheetBlocks (sheet : Element) : List (String × Block) :=
  entries "AddOnInstruction" "Name" readBlock sheet

/-- The output references of a sheet. -/
def sheetOutputs (sheet : Element) : List (String × String) :=
  entries "ORef" "Operand" (fun operand _ => operand) sheet

/-- The identifiers of the function blocks of a sheet. -/
def blockIds (sheet : Element) : List String := (sheetBlocks sheet).map (·.1)

/-- The identifiers of all elements of a sheet. -/
def sheetIds (sheet : Element) : List String := sheet.children.filterMap (filled? · "ID")

/-- No identifier stands on two sheets. -/
def DistinctSheets (sheets : List Element) : Prop :=
  sheets.Pairwise fun a b => ∀ id ∈ sheetIds a, id ∉ sheetIds b

instance (sheets : List Element) : Decidable (DistinctSheets sheets) :=
  inferInstanceAs (Decidable (List.Pairwise _ _))

theorem mem_sheetIds_of_mem_entries {β : Type} {tag key : String} {make : String → Element → β}
    {sheet : Element} {id : String} (h : id ∈ (entries tag key make sheet).map (·.1)) :
    id ∈ sheetIds sheet := by
  obtain ⟨x, hx, rfl⟩ := List.mem_map.1 h
  obtain ⟨e, he, hx⟩ := List.mem_filterMap.1 hx
  refine List.mem_filterMap.2 ⟨e, (List.mem_filter.1 he).1, ?_⟩
  split at hx
  · rename_i hid _
    cases hx
    exact hid
  · cases hx

/-- Going through the elements `tag` of a sheet writes what they show into a table. -/
theorem foldl_childrenNamed {β : Type} (tag key : String) (make : String → Element → β)
    (sheet : Element) (t : Table String β) :
    (sheet.childrenNamed tag).foldl (fun t e =>
      match filled? e "ID", filled? e key with
      | some id, some value => t.insert id (make value e)
      | _, _ => t) t =
      (entries tag key make sheet).foldl (fun t e => t.insert e.1 e.2) t := by
  rw [entries, List.foldl_filterMap]
  congr 1
  funext t e
  split <;> simp_all

theorem blocks_addSheet (n : Network) (sheet : Element) : (n.addSheet sheet).blocks =
    (sheetBlocks sheet).foldl (fun t e => t.insert e.1 e.2) n.blocks :=
  foldl_childrenNamed "AddOnInstruction" "Name" readBlock sheet n.blocks

theorem outputs_addSheet (n : Network) (sheet : Element) : (n.addSheet sheet).outputs =
    (sheetOutputs sheet).foldl (fun t e => t.insert e.1 e.2) n.outputs :=
  foldl_childrenNamed "ORef" "Operand" (fun operand _ => operand) sheet n.outputs

/-! ## The reading after some sheets -/

/-- The network that the first `k` sheets show. -/
def networkAfter (sheets : List Element) (k : Nat) : Network :=
  (sheets.take k).foldl Network.addSheet {}

/-- The blocks called under the header of sheet `k`, in order. -/
def calledUnder (sheets : List Element) : (k : Nat) → List String
  | 0 => []
  | k + 1 => calledUnder sheets k ++ (networkAfter sheets (k + 1)).executionOrder

/-- The assignments of outputs under the header of sheet `k`, in order. -/
def assignmentsUnder (sheets : List Element) (k : Nat) : List Statement :=
  (networkAfter sheets k).wires.filterMap (networkAfter sheets k).outputAssignment?

/-- The statements under the header of sheet `k`. -/
def statementsUnder (sheets : List Element) (k : Nat) : List Statement :=
  (calledUnder sheets k).map (networkAfter sheets k).call ++ assignmentsUnder sheets k

/-- Reads sheets from the first on. -/
def readSheets (sheets : List Element) : Reading :=
  (sheets.zipIdx 1).foldl (fun r (sheet, n) => r.addSheet n sheet) {}

section Prefixes

variable {sheets : List Element} {k : Nat}

theorem networkAfter_succ (hk : k < sheets.length) :
    networkAfter sheets (k + 1) = (networkAfter sheets k).addSheet sheets[k] := by
  rw [networkAfter, List.take_succ_eq_append_getElem hk, List.foldl_append]
  rfl

/-- A table of the network that every sheet writes into holds what the sheets that were read
have shown. -/
theorem table_networkAfter {β : Type} {table : Network → Table String β}
    {shown : Element → List (String × β)} (hempty : table {} = .empty)
    (hadd : ∀ n sheet, table (n.addSheet sheet) =
      (shown sheet).foldl (fun t e => t.insert e.1 e.2) (table n)) :
    table (networkAfter sheets k) = Table.ofList ((sheets.take k).flatMap shown) := by
  rw [networkAfter]
  induction sheets.take k using List.reverseRecOn with
  | nil => exact hempty
  | append_singleton read sheet ih =>
    rw [List.foldl_append, List.foldl_cons, List.foldl_nil, hadd, ih, List.flatMap_append,
      List.flatMap_singleton, Table.ofList, Table.ofList, List.foldl_append]

theorem blocks_networkAfter : (networkAfter sheets k).blocks =
    Table.ofList ((sheets.take k).flatMap sheetBlocks) :=
  table_networkAfter rfl blocks_addSheet

theorem outputs_networkAfter : (networkAfter sheets k).outputs =
    Table.ofList ((sheets.take k).flatMap sheetOutputs) :=
  table_networkAfter rfl outputs_addSheet

theorem readSheets_append (sheet : Element) : readSheets (sheets ++ [sheet]) =
    (readSheets sheets).addSheet (sheets.length + 1) sheet := by
  rw [readSheets, List.zipIdx_append, List.foldl_append, readSheets]
  simp [Nat.add_comm]

/-- The lines that the reading adds for sheet `k`: its header and its code, if there is any. -/
def addedLines (sheets : List Element) (k : Nat) : List String :=
  if statementsUnder sheets k = [] then []
  else ["// Sheet " ++ toString k, textOf (statementsUnder sheets k)]

/-- The reading of the first `k` sheets. -/
theorem readSheets_take (hk : k ≤ sheets.length) : readSheets (sheets.take k) =
    { network := networkAfter sheets k, order := calledUnder sheets k,
      lines := (List.range k).flatMap fun j => addedLines sheets (j + 1) } := by
  induction k with
  | zero => rfl
  | succ k ih =>
    have hstep := networkAfter_succ hk
    rw [List.take_succ_eq_append_getElem hk, readSheets_append, ih (by omega),
      Reading.addSheet, List.length_take_of_le (by omega), List.range_succ, List.flatMap_append,
      List.flatMap_singleton]
    have hcode : (networkAfter sheets (k + 1)).statements
        (calledUnder sheets k ++ (networkAfter sheets (k + 1)).executionOrder) =
          statementsUnder sheets (k + 1) := rfl
    simp only [← hstep, hcode, Reading.mk.injEq]
    refine ⟨trivial, rfl, ?_⟩
    rw [addedLines]
    by_cases hempty : statementsUnder sheets (k + 1) = []
    · rw [if_pos hempty, if_pos ((textOf_eq_empty_iff _).2 hempty), List.append_nil]
    · rw [if_neg hempty, if_neg (mt (textOf_eq_empty_iff _).1 hempty)]

end Prefixes

/-! ## The text of a diagram -/

/-- The lines under the header of sheet `k`, with the header: the calls and then the
assignments.  A sheet without statements has no header. -/
def linesUnder (sheets : List Element) (k : Nat) : List String :=
  if statementsUnder sheets k = [] then []
  else ("// Sheet " ++ toString k) :: (statementsUnder sheets k).map Statement.text

/-- The text of sheets is their lines, unless there are none. -/
theorem text_readSheets {sheets : List Element} {k : Nat} (hk : k < sheets.length)
    (h : statementsUnder sheets (k + 1) ≠ []) : (readSheets sheets).text =
      Text.join "\n" ((List.range sheets.length).flatMap fun j => linesUnder sheets (j + 1)) := by
  have hread := readSheets_take (Nat.le_refl sheets.length)
  rw [List.take_length] at hread
  have hmem : "// Sheet " ++ toString (k + 1) ∈
      (List.range sheets.length).flatMap fun j => addedLines sheets (j + 1) :=
    List.mem_flatMap.2 ⟨k, List.mem_range.2 hk, by simp [addedLines, h]⟩
  have hlines : ((List.range sheets.length).flatMap fun j =>
      addedLines sheets (j + 1)).isEmpty = false := by
    rw [List.isEmpty_eq_false_iff]
    exact List.ne_nil_of_mem hmem
  rw [hread, Reading.text, if_neg (by simp [hlines])]
  -- A header is a group of one line, and the code below it is the group of its lines.
  have hgroups : (List.range sheets.length).flatMap (fun j => addedLines sheets (j + 1)) =
      ((List.range sheets.length).flatMap fun j =>
        if statementsUnder sheets (j + 1) = [] then []
        else [["// Sheet " ++ toString (j + 1)],
          (statementsUnder sheets (j + 1)).map Statement.text]).map (Text.join "\n") := by
    rw [List.map_flatMap]
    congr 1
    funext j
    rw [addedLines]
    split <;> simp [textOf]
  rw [hgroups, Text.join_map_join, ← List.flatMap_id, List.flatMap_assoc]
  · congr 2
    funext j
    rw [linesUnder]
    split <;> simp
  · intro g hg
    obtain ⟨j, -, hg⟩ := List.mem_flatMap.1 hg
    split at hg
    · simp at hg
    · rename_i hne
      rcases List.mem_cons.1 hg with rfl | hg
      · simp
      · rw [List.mem_singleton.1 hg]
        simpa using hne

/-! ## What repeats -/

theorem filterMap_sublist_of_imp {α β : Type} {f g : α → Option β}
    (h : ∀ a b, f a = some b → g a = some b) (l : List α) :
    (l.filterMap f).Sublist (l.filterMap g) := by
  induction l with
  | nil => exact List.Sublist.refl _
  | cons a l ih =>
    cases hf : f a with
    | none =>
      rw [List.filterMap_cons_none hf]
      refine ih.trans ?_
      cases hg : g a with
      | none => rw [List.filterMap_cons_none hg]
      | some b =>
        rw [List.filterMap_cons_some hg]
        exact List.sublist_cons_self _ _
    | some b =>
      rw [List.filterMap_cons_some hf, List.filterMap_cons_some (h a b hf)]
      exact ih.cons_cons b

section Repeats

variable {sheets : List Element} (hdistinct : DistinctSheets sheets)
include hdistinct

/-- A block stands on one sheet only. -/
theorem eq_of_mem_blockIds {i j : Nat} (hi : i < sheets.length) (hj : j < sheets.length)
    {id : String} (hidi : id ∈ blockIds sheets[i]) (hidj : id ∈ blockIds sheets[j]) : i = j := by
  have hmemi : id ∈ sheetIds sheets[i] := mem_sheetIds_of_mem_entries hidi
  have hmemj : id ∈ sheetIds sheets[j] := mem_sheetIds_of_mem_entries hidj
  rcases Nat.lt_trichotomy i j with hlt | heq | hlt
  · exact absurd hmemj (List.pairwise_iff_getElem.1 hdistinct i j hi hj hlt id hmemi)
  · exact heq
  · exact absurd hmemi (List.pairwise_iff_getElem.1 hdistinct j i hj hi hlt id hmemj)

/-- A block of the sheet with the index `i` is in the network after `k` sheets if that sheet is
among them. -/
theorem contains_networkAfter_iff {i k : Nat} (hi : i < sheets.length) {id : String}
    (hid : id ∈ blockIds sheets[i]) :
    (networkAfter sheets k).blocks.contains id = true ↔ i < k := by
  rw [blocks_networkAfter, Table.contains_ofList, List.map_flatMap, List.mem_flatMap]
  constructor
  · rintro ⟨sheet, hsheet, hmem⟩
    obtain ⟨j, hj, rfl⟩ := List.mem_take_iff_getElem.1 hsheet
    have := eq_of_mem_blockIds hdistinct hi (by omega) hid hmem
    omega
  · intro hik
    exact ⟨sheets[i], List.mem_take_iff_getElem.2 ⟨i, by omega, rfl⟩, hid⟩

/-- Under the header of a sheet a block is called once for its own sheet and once more for
every sheet in between.  The induction is on the number of the header. -/
theorem count_calledUnder {i : Nat} (hi : i < sheets.length) {id : String}
    (hid : id ∈ blockIds sheets[i]) (k : Nat) : (calledUnder sheets k).count id = k - i := by
  induction k with
  | zero => simp [calledUnder]
  | succ k ih =>
    have horder := (networkAfter sheets (k + 1)).count_orderBy
      (networkAfter sheets (k + 1)).mem_suppliers id
    rw [calledUnder, List.count_append, ih, Network.executionOrder_eq_orderBy, horder]
    simp only [contains_networkAfter_iff hdistinct hi hid]
    split <;> omega

/-- What the first `k` sheets show under an identifier is not changed by the next sheet. -/
theorem get?_ofList_take_succ {β : Type} {tag key : String} {make : String → Element → β}
    {k : Nat} (hk : k < sheets.length) {id : String} {x : β}
    (hx : (Table.ofList ((sheets.take k).flatMap (entries tag key make))).get? id = some x) :
    (Table.ofList ((sheets.take (k + 1)).flatMap (entries tag key make))).get? id = some x := by
  have hread : id ∈ ((sheets.take k).flatMap (entries tag key make)).map (·.1) := by
    rw [← Table.contains_ofList, Table.contains, hx]
    rfl
  rw [List.map_flatMap, List.mem_flatMap] at hread
  obtain ⟨sheet, hsheet, hmem⟩ := hread
  obtain ⟨j, hj, rfl⟩ := List.mem_take_iff_getElem.1 hsheet
  have hnext : id ∉ (entries tag key make sheets[k]).map (·.1) := fun hid =>
    List.pairwise_iff_getElem.1 hdistinct j k (by omega) hk (by omega) id
      (mem_sheetIds_of_mem_entries hmem) (mem_sheetIds_of_mem_entries hid)
  rw [List.take_succ_eq_append_getElem hk, List.flatMap_append, List.flatMap_singleton,
    Table.get?_ofList_append_of_not_mem hnext, hx]

/-- An assignment that a wire makes is not changed by the next sheet. -/
theorem outputAssignment?_networkAfter_succ {k : Nat} (hk : k < sheets.length) {w : Wire}
    {s : Statement} (hs : (networkAfter sheets k).outputAssignment? w = some s) :
    (networkAfter sheets (k + 1)).outputAssignment? w = some s := by
  rw [Network.outputAssignment?] at hs
  split at hs
  · rename_i block output pin hblock houtput hpin
    rw [blocks_networkAfter] at hblock
    rw [outputs_networkAfter] at houtput
    have hblock' : (networkAfter sheets (k + 1)).blocks.get? w.source = some block := by
      rw [blocks_networkAfter]
      exact get?_ofList_take_succ hdistinct hk hblock
    have houtput' : (networkAfter sheets (k + 1)).outputs.get? w.target = some output := by
      rw [outputs_networkAfter]
      exact get?_ofList_take_succ hdistinct hk houtput
    rw [Network.outputAssignment?, hblock', houtput', hpin]
    exact hs
  · cases hs

theorem assignmentsUnder_sublist_succ {k : Nat} (hk : k < sheets.length) :
    (assignmentsUnder sheets k).Sublist (assignmentsUnder sheets (k + 1)) := by
  have hwires : (networkAfter sheets (k + 1)).wires = (networkAfter sheets k).wires ++
      (sheets[k].childrenNamed "Wire").filterMap readWire? := by
    rw [networkAfter_succ hk]; rfl
  rw [assignmentsUnder, assignmentsUnder, hwires, List.filterMap_append]
  refine List.Sublist.trans ?_ (List.sublist_append_left _ _)
  exact filterMap_sublist_of_imp
    (fun _ _ hs => outputAssignment?_networkAfter_succ hdistinct hk hs) _

/-- An assignment of an output is written again under every later header. -/
theorem assignmentsUnder_sublist {j k : Nat} (hjk : j ≤ k) (hk : k ≤ sheets.length) :
    (assignmentsUnder sheets j).Sublist (assignmentsUnder sheets k) := by
  induction k with
  | zero => rw [Nat.le_zero.1 hjk]
  | succ k ih =>
    rcases Nat.lt_or_eq_of_le hjk with hlt | rfl
    · exact (ih (by omega) (by omega)).trans (assignmentsUnder_sublist_succ hdistinct hk)
    · exact List.Sublist.refl _

end Repeats

/-! ## When nothing repeats -/

/-- Every block is called exactly once, under the header of its own sheet, and every assignment
of the whole diagram is written exactly once. -/
def WrittenOnce (sheets : List Element) : Prop :=
  (∀ i (hi : i < sheets.length), ∀ id ∈ blockIds sheets[i], ∀ k < sheets.length,
    (calledUnder sheets (k + 1)).count id = if k = i then 1 else 0) ∧
  ((List.range sheets.length).flatMap fun k => assignmentsUnder sheets (k + 1)).Perm
    (assignmentsUnder sheets sheets.length)

/-- Without blocks on the sheets there are no assignments. -/
theorem assignmentsUnder_eq_nil {sheets : List Element} {k : Nat}
    (h : ∀ sheet ∈ sheets.take k, blockIds sheet = []) : assignmentsUnder sheets k = [] := by
  have hblocks : ∀ id, (networkAfter sheets k).blocks.get? id = none := by
    intro id
    have hnot : ¬ (networkAfter sheets k).blocks.contains id = true := by
      rw [blocks_networkAfter, Table.contains_ofList, List.map_flatMap, List.mem_flatMap]
      rintro ⟨sheet, hsheet, hid⟩
      have hid : id ∈ blockIds sheet := hid
      rw [h sheet hsheet] at hid
      exact absurd hid List.not_mem_nil
    simpa [Table.contains] using hnot
  rw [assignmentsUnder, List.filterMap_eq_nil_iff]
  intro w _
  rw [Network.outputAssignment?, hblocks]

/-- With all blocks on the last sheet only the last header has assignments. -/
theorem flatMap_assignmentsUnder {sheets : List Element}
    (hlast : ∀ i (hi : i + 1 < sheets.length), blockIds sheets[i] = []) :
    ((List.range sheets.length).flatMap fun k => assignmentsUnder sheets (k + 1)) =
      assignmentsUnder sheets sheets.length := by
  have hnil : ∀ k, k + 1 < sheets.length → assignmentsUnder sheets (k + 1) = [] := by
    intro k hk
    apply assignmentsUnder_eq_nil
    intro sheet hsheet
    obtain ⟨j, hj, rfl⟩ := List.mem_take_iff_getElem.1 hsheet
    exact hlast j (by omega)
  cases hm : sheets.length with
  | zero => rfl
  | succ m =>
    have hbefore : (List.range m).flatMap (fun k => assignmentsUnder sheets (k + 1)) = [] := by
      rw [List.flatMap_eq_nil_iff]
      intro k hk
      have hk : k < m := List.mem_range.1 hk
      exact hnil k (by omega)
    rw [List.range_succ, List.flatMap_append, hbefore, List.flatMap_singleton, List.nil_append]

/-- Everything is written exactly once only if all blocks stand on the last sheet. -/
theorem writtenOnce_iff {sheets : List Element} (hdistinct : DistinctSheets sheets) :
    WrittenOnce sheets ↔ ∀ i (hi : i + 1 < sheets.length), blockIds sheets[i] = [] := by
  constructor
  · intro honce i hi
    rw [List.eq_nil_iff_forall_not_mem]
    intro id hid
    -- A block of an earlier sheet is called twice under the next header.
    have hnext := honce.1 i (by omega) id hid (i + 1) hi
    rw [count_calledUnder hdistinct (by omega) hid, if_neg (by omega)] at hnext
    omega
  · intro hlast
    refine ⟨fun i hi id hid k hk => ?_, List.Perm.of_eq (flatMap_assignmentsUnder hlast)⟩
    have hi' : ¬ i + 1 < sheets.length := fun h => by
      rw [hlast i h] at hid
      exact absurd hid List.not_mem_nil
    rw [count_calledUnder hdistinct hi hid]
    split <;> omega

/-- What is written under the headers of a diagram whose sheets share no identifier.  The text
is the lines of the sheets.  A block of the sheet with the index `i` is called `k - i` times
under the header of sheet `k`, and an assignment is written again under every later header.
So everything is written once, each call under its own sheet, exactly if all blocks stand on
the last sheet. -/
theorem code_sheets (content : Element) {sheets : List Element}
    (hsheets : content.childrenNamed "Sheet" = sheets) (hdistinct : DistinctSheets sheets) :
    (∀ k < sheets.length, statementsUnder sheets (k + 1) ≠ [] → code content =
      Text.join "\n" ((List.range sheets.length).flatMap fun j => linesUnder sheets (j + 1))) ∧
    (∀ i (hi : i < sheets.length), ∀ id ∈ blockIds sheets[i], ∀ k,
      (calledUnder sheets k).count id = k - i) ∧
    (∀ j k, j ≤ k → k ≤ sheets.length →
      (assignmentsUnder sheets j).Sublist (assignmentsUnder sheets k)) ∧
    (WrittenOnce sheets ↔ ∀ i (hi : i + 1 < sheets.length), blockIds sheets[i] = []) := by
  refine ⟨fun k hk hne => ?_, fun i hi id hid k => count_calledUnder hdistinct hi hid k,
    fun j k hjk hk => assignmentsUnder_sublist hdistinct hjk hk, writtenOnce_iff hdistinct⟩
  subst hsheets
  exact text_readSheets hk hne

/-- Two sheets.  The first has a pump whose output drives a lamp, and the second a fan. -/
def twoSheets : Element where
  tag := "FBDContent"
  children := [
    { tag := "Sheet", children := [
        .leaf "AddOnInstruction" [("ID", "1"), ("Name", "Motor"), ("Operand", "Pump")],
        .leaf "ORef" [("ID", "2"), ("Operand", "Lamp")],
        .leaf "Wire" [("FromID", "1"), ("FromParam", "Run"), ("ToID", "2")]] },
    { tag := "Sheet", children := [
        .leaf "AddOnInstruction" [("ID", "3"), ("Name", "Motor"), ("Operand", "Fan")]] }]

theorem code_sheets_twoSheets :
    (calledUnder (twoSheets.childrenNamed "Sheet") 2).count "1" = 2 ∧
    (assignmentsUnder (twoSheets.childrenNamed "Sheet") 1).Sublist
      (assignmentsUnder (twoSheets.childrenNamed "Sheet") 2) ∧
    code twoSheets = Text.join "\n" ((List.range 2).flatMap fun j =>
      linesUnder (twoSheets.childrenNamed "Sheet") (j + 1)) := by
  obtain ⟨htext, hcount, hassign, -⟩ := code_sheets twoSheets rfl (by decide)
  refine ⟨hcount 0 (by decide) "1" (by decide) 2, hassign 1 2 (by decide) (by decide), ?_⟩
  exact htext 0 (by decide) (by decide +kernel)

/-- The call and the assignment of the first sheet are written again under the second. -/
theorem first_sheet_written_again :
    DistinctSheets (twoSheets.childrenNamed "Sheet") ∧
    ¬ WrittenOnce (twoSheets.childrenNamed "Sheet") ∧
    code twoSheets = "// Sheet 1\nPump();\nLamp := Pump.Run;\n" ++
      "// Sheet 2\nPump();\nPump();\nFan();\nLamp := Pump.Run;" := by
  have hdistinct : DistinctSheets (twoSheets.childrenNamed "Sheet") := by decide
  refine ⟨hdistinct, ?_, by decide +kernel⟩
  rw [writtenOnce_iff hdistinct]
  exact fun hlast => absurd (hlast 0 (by decide)) (by decide)

end ControlLogic.Diagram
