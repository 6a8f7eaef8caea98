import ControlLogic.Proofs.Exchange.Generated
import ControlLogic.Proofs.StructuredText.NestedSections

/-!
# What a document keeps of a program

A program is laid out over lines, and a document is generated from its text.  Every declaration
should become a tag (`AllDeclared`), and every statement should stand in the text of the routine
(`AllStated`).

* `descendantsNamed_tag`, `descendantsNamed_stContent`: where both stand in the document.
* `allDeclared_iff`, `allStated_of_linesRead`: when nothing is lost.
* `generate_sourceText` puts the parts together.  In `crowdedLines` two declarations and a statement
  are lost.
-/

namespace ControlLogic.Exchange

open Markup Markup.Element StructuredText

/-! ## The parts of the document -/

theorem descendantsNamed_declaredElement (d : Declaration) :
    (declaredElement d).descendantsNamed "Tag" = [] ∧
      (declaredElement d).descendantsNamed "STContent" = [] := by
  rw [descendantsNamed, descendantsNamed, descendants, declaredElement, initialElements]
  split
  · split <;> exact ⟨rfl, rfl⟩
  · exact ⟨rfl, rfl⟩

/-- The elements below the document of a source: the controller, and section by section the data
types, the tags, the programs and the tasks. -/
theorem descendants_documentElement (source : String) :
    (documentElement (generatedController source)).descendants = generatedController source ::
      (allOf [{ tag := "DataTypes", children := basicTypeElements }] ++
        ({ tag := "Tags", children := declaredElements source } ::
          allOf (declaredElements source)) ++
        allOf [{ tag := "Programs", children :=
          [mainProgramElement [] (readProgram Table.empty source).routineElement] },
          { tag := "Tasks", children := [taskElement] }]) := by
  rw [descendants, documentElement]
  change allOf [generatedController source] = _
  rw [allOf, allOf, List.append_nil, all_eq_cons]
  rfl

/-- The tags of the document of a source. -/
theorem descendantsNamed_tag (source : String) :
    (documentElement (generatedController source)).descendantsNamed "Tag" =
      declaredElements source := by
  have hbelow : ∀ e ∈ declaredElements source, e.descendantsNamed "Tag" = [] :=
    List.forall_mem_map.2 fun e _ => (descendantsNamed_declaredElement e.2.declaration).1
  have htags : ∀ e ∈ declaredElements source, (e.tag == "Tag") = true :=
    List.forall_mem_map.2 fun e _ => rfl
  rw [descendantsNamed, descendants_documentElement, List.filter_cons_of_neg Bool.false_ne_true,
    List.filter_append, List.filter_append, List.filter_cons_of_neg Bool.false_ne_true,
    filter_allOf hbelow, List.filter_eq_self.2 htags]
  exact List.append_nil _

/-- The one text of a routine in the document of a source. -/
theorem descendantsNamed_stContent (source : String) :
    (documentElement (generatedController source)).descendantsNamed "STContent" =
      [stContent (readProgram Table.empty source)] := by
  have hbelow : ∀ e ∈ declaredElements source, e.descendantsNamed "STContent" = [] :=
    List.forall_mem_map.2 fun e _ => (descendantsNamed_declaredElement e.2.declaration).2
  have htags : ∀ e ∈ declaredElements source, ¬ (e.tag == "STContent") = true :=
    List.forall_mem_map.2 fun e _ => Bool.false_ne_true
  rw [descendantsNamed, descendants_documentElement, List.filter_cons_of_neg Bool.false_ne_true,
    List.filter_append, List.filter_append, List.filter_cons_of_neg Bool.false_ne_true,
    filter_allOf hbelow, List.filter_eq_nil_iff.2 htags]
  rfl

/-- If no name is declared twice, every declaration that is read has its element. -/
theorem declaredElements_eq {source : String}
    (h : ((declarations source).map (·.name)).Nodup) :
    declaredElements source = (declarations source).map declaredElement := by
  rw [declaredElements, vars_readProgram, Table.entries_ofList, List.map_map]
  · rfl
  · rw [List.map_map]
    exact h

theorem name_eq_of_declaredElement_eq {d d' : Declaration}
    (h : declaredElement d = declaredElement d') : d.name = d'.name := by
  have hname := name_declaredElement d
  rw [h, name_declaredElement] at hname
  exact (Option.some.inj hname).symm

/-! ## What is kept -/

/-- Every declaration of the lines has its element. -/
def AllDeclared (lines : List SourceLine) (root : Element) : Prop :=
  ∀ d ∈ lines.flatMap SourceLine.declared, declaredElement d ∈ root.descendantsNamed "Tag"

/-- The statements of the lines stand in the text of a routine, in order. -/
def AllStated (lines : List SourceLine) (root : Element) : Prop :=
  ∃ e ∈ root.descendantsNamed "STContent",
    Text.HoldsInOrder (lines.flatMap SourceLine.stated) e.content.toList

/-- The document of a layout. -/
def layoutDocument (lines : List SourceLine) : Element :=
  documentElement (generatedController (sourceText lines))

section Kept

variable {lines : List SourceLine}

/-- The tags are the first declarations of the lines of the first section. -/
theorem tags_layoutDocument (h : WellLaid lines) :
    (layoutDocument lines).descendantsNamed "Tag" = (declaredFirst lines).map declaredElement := by
  have hnames : ((declarations (sourceText lines)).map (·.name)).Nodup := by
    rw [h.declarations_eq]
    exact h.names.sublist (h.declaredFirst_sublist.map _)
  rw [layoutDocument, descendantsNamed_tag, declaredElements_eq hnames, h.declarations_eq]

/-- Nothing that is declared is lost exactly if the first section has all declarations, and every
line of it at most one. -/
theorem allDeclared_iff (h : WellLaid lines) :
    AllDeclared lines (layoutDocument lines) ↔
      (laterLines lines).flatMap SourceLine.declared = [] ∧
        ∀ line ∈ firstSection lines, line.declared.length ≤ 1 := by
  rw [← forall_mem_declaredFirst_iff h, AllDeclared, tags_layoutDocument h]
  refine forall₂_congr fun d hd => ⟨fun hmem => ?_, List.mem_map_of_mem⟩
  obtain ⟨d', hd', heq⟩ := List.mem_map.1 hmem
  have hmem' := h.declaredFirst_sublist.subset hd'
  rwa [← List.inj_on_of_nodup_map h.names hmem' hd (name_eq_of_declaredElement_eq heq)]

theorem logic_layoutDocument (h : WellLaid lines) :
    (readProgram Table.empty (sourceText lines)).logic =
      (linesRead true false lines).map SourceLine.body :=
  programLines_sourceText h.ne_nil h.spaced h.remark h.comment

/-- Nothing that is stated is lost if nothing is stated on a line that is dropped. -/
theorem allStated_of_linesRead (h : WellLaid lines)
    (hdropped : ∀ line ∈ linesRead false false lines, line.stated = []) :
    AllStated lines (layoutDocument lines) := by
  have hlogic : Text.HoldsInOrder (readProgram Table.empty (sourceText lines)).logic
      (stContent (readProgram Table.empty (sourceText lines))).content.toList :=
    Text.holdsInOrder_join "\n" _ _
  rw [logic_layoutDocument h] at hlogic
  rw [AllStated, layoutDocument, descendantsNamed_stContent, ← flatMap_stated_linesRead hdropped]
  exact ⟨_, List.mem_singleton_self _, hlogic.flatMap SourceLine.holdsInOrder_stated⟩

/-- Of a program every line keeps the first declaration, if it is in the first section.  The lines
of the routine are those outside the sections, as far as their first pieces tell.  So nothing is
lost in a program of one section if every piece has its own line. -/
theorem generate_sourceText (h : WellLaid lines) :
    ∃ root, generate (sourceText lines) = .ok root ∧
      root.descendantsNamed "Tag" = (declaredFirst lines).map declaredElement ∧
      root.descendantsNamed "STContent" =
        [stContent (readProgram Table.empty (sourceText lines))] ∧
      (readProgram Table.empty (sourceText lines)).logic =
        (linesRead true false lines).map SourceLine.body ∧
      (AllDeclared lines root ↔ (laterLines lines).flatMap SourceLine.declared = [] ∧
        ∀ line ∈ firstSection lines, line.declared.length ≤ 1) ∧
      ((∀ line ∈ linesRead false false lines, line.stated = []) → AllStated lines root) ∧
      (LineByLine lines → AllDeclared lines root ∧ AllStated lines root) := by
  refine ⟨layoutDocument lines, generate_eq _, tags_layoutDocument h,
    descendantsNamed_stContent _, logic_layoutDocument h, allDeclared_iff h,
    allStated_of_linesRead h, fun hlines => ⟨?_, ?_⟩⟩
  · exact (allDeclared_iff h).2 (hlines.declared_eq h.nested)
  · exact allStated_of_linesRead h (stated_of_mem_linesRead hlines.1 h.nested)

end Kept

/-! ## Two layouts -/

/-- A line of pieces, one blank apart. -/
def lineOf : List SourcePiece → SourceLine
  | [] => ⟨[], ""⟩
  | p :: ps => ⟨⟨"", p⟩ :: ps.map (⟨" ", ·⟩), ""⟩

theorem isChain_follows {p : PlacedPiece} {ps : List PlacedPiece} (h : ∀ q ∈ ps, q.gap ≠ "") :
    (p :: ps).IsChain PlacedPiece.Follows := by
  induction ps generalizing p with
  | nil => exact List.isChain_singleton p
  | cons q ps ih =>
    obtain ⟨hq, hps⟩ := List.forall_mem_cons.1 h
    exact List.isChain_cons_cons.2 ⟨.inl hq, ih hps⟩

theorem spaced_lineOf {pieces : List SourcePiece} (h : ∀ p ∈ pieces, p.Spelled) :
    (lineOf pieces).Spaced := by
  have hempty : IsGap "" := ⟨by decide, by decide⟩
  have hblank : IsGap " " := ⟨by decide, by decide⟩
  have hne : " " ≠ "" := by decide
  cases pieces with
  | nil => exact ⟨List.forall_mem_nil _, hempty, .nil,
      List.forall_mem_nil _⟩
  | cons p ps =>
    obtain ⟨hp, hps⟩ := List.forall_mem_cons.1 h
    exact ⟨List.forall_mem_cons.2 ⟨hempty, List.forall_mem_map.2 fun q _ => hblank⟩, hempty,
      isChain_follows (List.forall_mem_map.2 fun q _ => hne),
      List.forall_mem_cons.2 ⟨hp, List.forall_mem_map.2 hps⟩⟩

/-- The declaration of a number. -/
def numberPiece (name : String) : SourcePiece :=
  .declaration ⟨name, "INT", none, none⟩ (name ++ " : INT;")

theorem spells_number {name : String} (hname : Text.IsWord name) :
    Spells ⟨name, "INT", none, none⟩ (name ++ " : INT;").toList := by
  have hblank : Text.AllBlank [' '] := by decide
  have hend : SpellsEnd none [';'] := .plain (g := []) (by decide)
  rw [String.toList_append]
  exact .plain hname hblank hblank (isTypeName_of_isWord (s := "INT") (by decide)) hend

/-- The pieces of the two layouts. -/
def samplePieces : List SourcePiece :=
  [numberPiece "A", numberPiece "B", numberPiece "C", .opening "VAR", .closing "END_VAR",
    .statement "A := 1;", .statement "A := 2;"]

theorem spelled_samplePieces : ∀ p ∈ samplePieces, p.Spelled := by
  have hnumber : ∀ name ∈ ["A", "B", "C"], (numberPiece name).Spelled := by
    have hfacts : ∀ name ∈ ["A", "B", "C"], Text.IsWord name ∧ '\n' ∉ (name ++ " : INT;").toList ∧
        Text.startsWithWord "VAR" (name ++ " : INT;") = false ∧
        Text.startsWithWord "END_VAR" (name ++ " : INT;") = false := by decide
    exact fun name hname => ⟨spells_number (hfacts name hname).1, (hfacts name hname).2⟩
  have hstatement : ∀ s ∈ ["A := 1;", "A := 2;"], (SourcePiece.statement s).Spelled := by
    change ∀ s ∈ ["A := 1;", "A := 2;"], Text.HasEnds s.toList ∧ '\n' ∉ s.toList ∧
      Text.startsWithWord "VAR" s = false ∧ Text.startsWithWord "END_VAR" s = false
    decide
  have hopening : (SourcePiece.opening "VAR").Spelled := by
    change Text.afterKeyword? openingMark "VAR".toList = some []
    decide
  have hclosing : (SourcePiece.closing "END_VAR").Spelled := by
    change Text.afterKeyword? closingMark "END_VAR".toList = some []
    decide
  simp only [samplePieces, List.forall_mem_cons, List.not_mem_nil, false_imp_iff,
    implies_true, and_true] at hnumber hstatement ⊢
  exact ⟨hnumber.1, hnumber.2.1, hnumber.2.2, hopening, hclosing, hstatement⟩

theorem spaced_map_lineOf {lines : List (List SourcePiece)}
    (h : ∀ pieces ∈ lines, ∀ p ∈ pieces, p ∈ samplePieces) :
    ∀ line ∈ lines.map lineOf, line.Spaced :=
  List.forall_mem_map.2 fun pieces hpieces =>
    spaced_lineOf fun p hp => spelled_samplePieces p (h pieces hpieces p hp)

/-- A program of two sections, with two pieces on some lines. -/
def crowdedLines : List SourceLine :=
  [[.opening "VAR"], [numberPiece "A", numberPiece "B"], [.closing "END_VAR", .statement "A := 1;"],
    [.opening "VAR"], [numberPiece "C"], [.closing "END_VAR"], [.statement "A := 2;"]].map lineOf

/-- The same program with one section, and one piece a line. -/
def tidyLines : List SourceLine :=
  [[.opening "VAR"], [numberPiece "A"], [numberPiece "B"], [numberPiece "C"], [.closing "END_VAR"],
    [.statement "A := 1;"], [.statement "A := 2;"]].map lineOf

theorem wellLaid_crowdedLines : WellLaid crowdedLines where
  ne_nil := List.cons_ne_nil _ _
  spaced := spaced_map_lineOf (by decide)
  nested := rfl
  remark := by decide
  comment := by decide
  names := by decide
  before := by decide
  within := by decide

theorem wellLaid_tidyLines : WellLaid tidyLines where
  ne_nil := List.cons_ne_nil _ _
  spaced := spaced_map_lineOf (by decide)
  nested := rfl
  remark := by decide
  comment := by decide
  names := by decide
  before := by decide
  within := by decide

theorem generate_sourceText_tidyLines :
    WellLaid tidyLines ∧ LineByLine tidyLines ∧
    (∃ root, generate (sourceText tidyLines) = .ok root ∧ AllDeclared tidyLines root ∧
      AllStated tidyLines root) ∧
    WellLaid crowdedLines ∧ ∃ root, generate (sourceText crowdedLines) = .ok root ∧
      root.descendantsNamed "Tag" = [declaredElement ⟨"A", "INT", none, none⟩] := by
  have hlines : LineByLine tidyLines := ⟨by decide, by decide⟩
  obtain ⟨root, hroot, -, -, -, -, -, hkept⟩ := generate_sourceText wellLaid_tidyLines
  obtain ⟨root', hroot', htags, -⟩ := generate_sourceText wellLaid_crowdedLines
  exact ⟨wellLaid_tidyLines, hlines, ⟨root, hroot, hkept hlines⟩, wellLaid_crowdedLines, root',
    hroot', htags⟩

/-- Of three declarations and two statements, one each is left. -/
theorem crowdedLines_lost :
    sourceText crowdedLines = "VAR\nA : INT; B : INT;\nEND_VAR A := 1;\nVAR\nC : INT;\nEND_VAR\n" ++
      "A := 2;" ∧
    ∃ root, generate (sourceText crowdedLines) = .ok root ∧ ¬ AllDeclared crowdedLines root ∧
      ¬ AllStated crowdedLines root := by
  refine ⟨by decide, layoutDocument crowdedLines, generate_eq _, fun hdeclared => ?_, ?_⟩
  · have hlater := ((allDeclared_iff wellLaid_crowdedLines).1 hdeclared).1
    cases hlater
  · rintro ⟨e, he, before, after, htext, -⟩
    rw [layoutDocument, descendantsNamed_stContent, List.mem_singleton] at he
    have hlost : Text.contains "A := 1;"
        (readProgram Table.empty (sourceText crowdedLines)).routineText = false := by
      rw [Program.routineText, vars_readProgram, wellLaid_crowdedLines.declarations_eq,
        logic_layoutDocument wellLaid_crowdedLines]
      decide
    have hcontains : Text.contains "A := 1;" e.content = true :=
      Text.Chars.contains_iff_infix.2 ⟨before, after, htext.symm⟩
    rw [he] at hcontains
    exact absurd (hlost.symm.trans hcontains) Bool.false_ne_true

end ControlLogic.Exchange
