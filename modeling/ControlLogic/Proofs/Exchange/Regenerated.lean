import ControlLogic.Proofs.Exchange.Generated
import ControlLogic.Proofs.StructuredText.DeclarationReading
import ControlLogic.Proofs.StructuredText.LayoutReading

/-!
# Generated texts, read again

A program that was read is written as the text of a routine: its declarations in one section, and
then its statements.  This file proves that nothing changes when the text is read and written again.

* `Declaration.Rereadable` says what is needed of a declaration for this.  Every declaration that is
  read from a source without comments is such (`rereadable_of_mem_declarations`): its parts are
  stretches of a line of a section, and a section lacks the mark that closes it.
* `declarations_regenerated`: the section is found, and each line of it is read.
* `programLines_regenerated`: the lines behind the section are the statements.

`readProgram_routineText` puts the two together.
-/

namespace ControlLogic.StructuredText

open Text

/-! ## Declarations from a source -/

/-- A section is a stretch of its source and lacks the mark that closes it. -/
theorem infix_of_variableSection? {source body : List Char}
    (h : variableSection? source = some body) : body <:+: source ∧ Lacks closingMark body := by
  rw [variableSection?_eq] at h
  obtain ⟨r, hopening, h⟩ := Option.bind_eq_some_iff.1 h
  obtain ⟨q, hclosing, rfl⟩ := Option.map_eq_some_iff.1 h
  obtain ⟨-, -, hafter⟩ := lacks_of_breakKeyword? openingMark_ne_nil hopening
  obtain ⟨hlacks, hbody, -⟩ := lacks_of_breakKeyword? closingMark_ne_nil hclosing
  exact ⟨hbody.isInfix.trans ((List.dropWhile_suffix _).trans hafter).isInfix, hlacks⟩

/-- A declaration was read from a line of the section. -/
theorem exists_sectionLine_of_mem_declarations {source : String} {d : Declaration}
    (h : d ∈ declarations source) :
    ∃ line, readDeclaration? line = some d ∧ line.toList <:+: source.toList ∧
      '\n' ∉ line.toList ∧ Lacks closingMark line.toList := by
  rw [declarations] at h
  split at h
  · exact absurd h List.not_mem_nil
  · rename_i body hbody
    obtain ⟨hsource, hlacks⟩ := infix_of_variableSection? hbody
    obtain ⟨line, hline, hread⟩ := List.mem_filterMap.1 h
    obtain ⟨piece, hpiece, rfl⟩ := List.mem_map.1 (List.mem_filter.1 hline).1
    have hstrip : (strip (String.ofList piece)).toList <:+: piece := by
      rw [strip, String.toList_ofList, String.toList_ofList]
      exact Chars.trim_isInfix _ _
    have hpart := hstrip.trans (Chars.infix_of_mem_splitOn hpiece)
    exact ⟨_, hread, hpart.trans hsource,
      fun hmem => Chars.not_mem_of_mem_splitOn hpiece (hstrip.subset hmem), hlacks.of_infix hpart⟩

/-- The line that is written for a declaration is read in a section, and holds neither a comment nor
a mark. -/
structure Declaration.Rereadable (d : Declaration) : Prop where
  name : IsWord d.name
  read : readDeclaration? d.rewritten = some d.withoutInitial
  newline : '\n' ∉ d.rewritten.toList
  lacks : Lacks closingMark d.rewritten.toList
  remark : contains "//" d.rewritten = false
  comment : contains "(*" d.rewritten = false

/-- No part of a text has a comment if the text has none. -/
theorem not_contains_of_isInfix {t : String} {s u : List Char}
    (h : Chars.contains t.toList u = false) (hs : s <:+: u) :
    Chars.contains t.toList s = false := by
  rw [Bool.eq_false_iff] at h ⊢
  exact fun hmem => h (Chars.contains_iff_infix.2 ((Chars.contains_iff_infix.1 hmem).trans hs))

theorem rereadable_of_mem_declarations {source : String} (hremark : contains "//" source = false)
    (hcomment : contains "(*" source = false) {d : Declaration} (h : d ∈ declarations source) :
    d.Rereadable := by
  obtain ⟨line, hread, hsource, hnewline, hlacks⟩ := exists_sectionLine_of_mem_declarations h
  obtain ⟨hword, hname, htype, hrange⟩ := infix_of_readDeclaration? hread
  -- A property of the line and of its stretches goes over to the line that is written.
  have hrewritten : ∀ P : List Char → Prop,
      (∀ sep ∈ [' ', '[', ']', ';'], ∀ s t, P s → P t → P (s ++ sep :: t)) →
      (∀ s ∈ ["", ":", "ARRAY", "OF"], P s.toList) → (∀ s, s <:+: line.toList → P s) →
      P d.rewritten.toList := fun P hsep hfixed hline =>
    Declaration.rewritten_induction hsep hfixed (hline _ hname) (hline _ htype)
      fun range hd => hline _ (hrange range hd)
  have hcontains : ∀ t : String, t ≠ "" → (∀ sep ∈ [' ', '[', ']', ';'], sep ∉ t.toList) →
      (∀ s ∈ ["", ":", "ARRAY", "OF"], Chars.contains t.toList s.toList = false) →
      contains t source = false → contains t d.rewritten = false := by
    intro t ht hsep hfixed htext
    refine hrewritten (Chars.contains t.toList · = false) ?_ hfixed fun s hs =>
      not_contains_of_isInfix htext (hs.trans hsource)
    exact fun sep hmem s u hs hu =>
      (Chars.contains_append_sep (by simpa using ht) (hsep sep hmem)).2 ⟨hs, hu⟩
  refine ⟨hword, readDeclaration?_rewritten hread, ?_, ?_, ?_, ?_⟩
  · refine hrewritten ('\n' ∉ ·) ?_ (by decide) fun s hs hmem => hnewline (hs.subset hmem)
    intro sep hsep s t hs ht hmem
    rcases List.mem_append.1 hmem with hmem | hmem
    · exact hs hmem
    · rcases List.mem_cons.1 hmem with rfl | hmem
      · exact absurd hsep (by decide)
      · exact ht hmem
  · refine hrewritten (Lacks closingMark) ?_ (by decide) fun s hs => hlacks.of_infix hs
    have hseparates : ∀ sep ∈ [' ', '[', ']', ';'], Separates sep closingMark := by
      simp only [List.forall_mem_cons, List.not_mem_nil, false_imp_iff, implies_true, and_true]
      decide
    exact fun sep hsep s t hs ht =>
      (lacks_append_sep closingMark_ne_nil (hseparates sep hsep)).2 ⟨hs, ht⟩
  · exact hcontains "//" (by decide) (by simp) (by decide) hremark
  · exact hcontains "(*" (by decide) (by simp) (by decide) hcomment

/-! ## The section -/

/-- The line of a declaration in a section. -/
def Declaration.indented (d : Declaration) : String := "    " ++ d.rewritten

/-- The lines before the section. -/
def headerLines : List String :=
  ["// Generated Structured Text Code", "// Enhanced with tag preservation", ""]

/-- The lines of a text with a section and statements. -/
def regeneratedLines (ds : List Declaration) (logic : List String) : List String :=
  headerLines ++ "VAR" :: (ds.map Declaration.indented ++ "END_VAR" :: "" :: logic)

theorem exists_rewritten_eq {d : Declaration} (h : IsWord d.name) :
    ∃ x t, d.rewritten.toList = x :: (t ++ [';']) ∧ isWordChar x = true := by
  obtain ⟨x, s, hs⟩ := List.exists_cons_of_ne_nil (l := d.name.toList) (by simpa using h.1)
  have hx : isWordChar x = true := h.2 x (hs ▸ List.mem_cons_self)
  rw [Declaration.rewritten]
  cases d.range with
  | none => exact ⟨x, s ++ " : ".toList ++ d.type.toList, by simp [hs], hx⟩
  | some range =>
    exact ⟨x, s ++ " : ARRAY [".toList ++ range.toList ++ "] OF ".toList ++ d.type.toList,
      by simp [hs], hx⟩

theorem strip_indented {d : Declaration} (h : IsWord d.name) : strip d.indented = d.rewritten := by
  obtain ⟨x, t, ht, hx⟩ := exists_rewritten_eq h
  rw [strip, Declaration.indented, String.toList_append, trim_append (by simp; decide), ht,
    trim_of_ends (isBlank_of_isWordChar hx) (by decide), ← ht, String.ofList_toList]

namespace Declaration.Rereadable

variable {d : Declaration}

theorem lineDeclarations_indented (h : d.Rereadable) :
    lineDeclarations [d.indented] = [d.withoutInitial] := by
  have hidle : isIdleLine d.rewritten = false := by
    obtain ⟨x, t, ht, hx⟩ := exists_rewritten_eq h.name
    have hslash : x ≠ '/' := by rintro rfl; exact absurd hx (by decide)
    have hparen : x ≠ '(' := by rintro rfl; exact absurd hx (by decide)
    have hne : d.rewritten ≠ "" := by simp [← String.toList_inj, ht]
    simp [isIdleLine, startsWith, ht, hne, List.isPrefixOf, Ne.symm hslash, Ne.symm hparen]
  rw [lineDeclarations_cons, strip_indented h.name, hidle, h.read]
  rfl

theorem lacks_indented (h : d.Rereadable) : Lacks closingMark d.indented.toList := by
  have hline : d.indented.toList = "   ".toList ++ ' ' :: d.rewritten.toList := by
    simp [Declaration.indented]
  rw [hline, lacks_append_sep closingMark_ne_nil (separates_marks ' ' (by simp)).2]
  exact ⟨by decide, h.lacks⟩

theorem newline_not_mem_indented (h : d.Rereadable) : '\n' ∉ d.indented.toList := by
  simp [Declaration.indented, h.newline]

/-- Without its comments and blanks the line of a declaration is the declaration. -/
theorem bare_indented (h : d.Rereadable) : bare d.indented = d.rewritten := by
  have hcontains : ∀ t : String, t ≠ "" → ' ' ∉ t.toList →
      Chars.contains t.toList "   ".toList = false → contains t d.rewritten = false →
      contains t d.indented = false := by
    intro t ht hspace hindent hline
    have hcut : d.indented.toList = "   ".toList ++ ' ' :: d.rewritten.toList := by
      simp [Declaration.indented]
    rw [contains, hcut]
    exact (Chars.contains_append_sep (by simpa using ht) hspace).2 ⟨hindent, hline⟩
  rw [bare_eq_strip (hcontains "//" (by decide) (by decide) (by decide) h.remark)
    (hcontains "(*" (by decide) (by decide) (by decide) h.comment), strip_indented h.name]

end Declaration.Rereadable

theorem lineDeclarations_map_indented {ds : List Declaration} (h : ∀ d ∈ ds, d.Rereadable) :
    lineDeclarations (ds.map Declaration.indented) = ds.map Declaration.withoutInitial := by
  induction ds with
  | nil => rfl
  | cons d ds ih =>
    obtain ⟨hd, hds⟩ := List.forall_mem_cons.1 h
    rw [List.map_cons, ← List.singleton_append, lineDeclarations_append,
      hd.lineDeclarations_indented, ih hds, List.map_cons, List.singleton_append]

/-- The declarations of the section are read again, without their initial values. -/
theorem declarations_regenerated {ds : List Declaration} (hne : ds ≠ [])
    (hds : ∀ d ∈ ds, d.Rereadable) (logic : List String) :
    declarations (join "\n" (regeneratedLines ds logic)) =
      ds.map Declaration.withoutInitial := by
  have hnewline := separates_marks '\n' (by simp)
  have hheader : Lacks openingMark (join "\n" headerLines).toList := by decide
  have hvar : breakKeyword? openingMark "VAR".toList = some ([], []) := by decide
  have hlines : ds.map Declaration.indented ≠ [] := by simpa using hne
  have hlacks : Lacks closingMark (join "\n" (ds.map Declaration.indented)).toList :=
    (lacks_join closingMark_ne_nil hnewline.2).2
      (List.forall_mem_map.2 fun d hd => (hds d hd).lacks_indented)
  have hempty : Lacks closingMark [] := by decide
  have hopening : breakKeyword? openingMark (join "\n" (regeneratedLines ds logic)).toList =
      some ((join "\n" headerLines).toList ++ ['\n'], '\n' ::
        ((join "\n" (ds.map Declaration.indented)).toList ++ '\n' ::
          (closingMark ++ '\n' :: (join "\n" ("" :: logic)).toList))) := by
    rw [regeneratedLines, toList_join_append (by decide) (by simp),
      breakKeyword?_of_lacks openingMark_ne_nil hnewline.1 hheader, toList_join_cons _ (by simp),
      breakKeyword?_of_eq_some openingMark_ne_nil hnewline.1 hvar,
      toList_join_append hlines (by simp), toList_join_cons _ (by simp)]
    rfl
  have hclosing : breakKeyword? closingMark ('\n' ::
        ((join "\n" (ds.map Declaration.indented)).toList ++ '\n' ::
          (closingMark ++ '\n' :: (join "\n" ("" :: logic)).toList))) =
      some (['\n'] ++ ((join "\n" (ds.map Declaration.indented)).toList ++ ['\n']),
        '\n' :: (join "\n" ("" :: logic)).toList) := by
    rw [← List.nil_append ('\n' :: _), breakKeyword?_of_lacks closingMark_ne_nil hnewline.2 hempty,
      breakKeyword?_of_lacks closingMark_ne_nil hnewline.2 hlacks, breakKeyword?_closingMark]
    rfl
  obtain ⟨g, body, hg, hbody, hsplit⟩ :=
    exists_breakKeyword?_dropWhile closingMark_ne_nil closingMark_subset hclosing
  have hsection : variableSection? (join "\n" (regeneratedLines ds logic)).toList =
      some body.1 := by
    rw [variableSection?_eq, hopening, Option.bind_some, hbody]
    rfl
  have hlast : lineDeclarations [""] = [] := lineDeclarations_eq_nil (by decide)
  have hsections := split_join_newline hlines
    (List.forall_mem_map.2 fun d hd => (hds d hd).newline_not_mem_indented)
  rw [declarations_of_section hsection, ← lineDeclarations_split_append hg, ← hsplit,
    lineDeclarations_split_append (by decide), hsections, lineDeclarations_append, hlast,
    List.append_nil, lineDeclarations_map_indented hds]

/-! ## The statements -/

/-- The line is a statement as it stands. -/
structure IsStated (line : String) : Prop where
  newline : '\n' ∉ line.toList
  bare : bare line = line
  statement : isStatement false line = true

theorem of_mem_outsideSections {inside : Bool} {lines : List String} {line : String}
    (h : line ∈ outsideSections inside lines) :
    startsWithWord "VAR" line = false ∧ startsWithWord "END_VAR" line = false ∧
      startsWith "//" line = false := by
  fun_induction outsideSections inside lines with
  | case1 => exact absurd h List.not_mem_nil
  | case2 _ _ _ _ ih | case3 _ _ _ _ _ ih | case4 _ _ _ _ _ _ ih => exact ih h
  | case5 inside first rest hvar hend hskip ih =>
    rcases List.mem_cons.1 h with rfl | h
    · simp only [Bool.or_eq_true, not_or, Bool.not_eq_true] at hvar hend hskip
      exact ⟨hvar, hend, hskip.2⟩
    · exact ih h

/-- What is read as a statement from a source without comments is one as it stands. -/
theorem isStated_of_mem_programLines {source : String} (hremark : contains "//" source = false)
    (hcomment : contains "(*" source = false) {line : String} (h : line ∈ programLines source) :
    IsStated line := by
  obtain ⟨hvar, hend, hslashes⟩ := of_mem_outsideSections h
  obtain ⟨hline, hne⟩ := List.mem_filter.1 (mem_lines_of_mem_programLines h)
  obtain ⟨piece, hpiece, rfl⟩ := List.mem_map.1 hline
  have hsource := Chars.infix_of_mem_splitOn hpiece
  have hbare : bareLine piece = strip (String.ofList piece) := by
    rw [bareLine, cutRemark_of_not_contains (not_contains_of_isInfix hremark hsource),
      dropComments_of_not_contains (not_contains_of_isInfix hcomment hsource)]
  have hstrip : (bareLine piece).toList <:+: piece := by
    rw [hbare, strip, String.toList_ofList, String.toList_ofList]
    exact Chars.trim_isInfix _ _
  refine ⟨fun hmem => Chars.not_mem_of_mem_splitOn hpiece (hstrip.subset hmem), ?_, ?_⟩
  · rw [bare_eq_strip (not_contains_of_isInfix hremark (hstrip.trans hsource))
      (not_contains_of_isInfix hcomment (hstrip.trans hsource)), hbare, strip_strip]
  · simpa [isStatement, hvar, hend, hslashes] using hne

theorem statements_of_isStated {lines : List String} (h : ∀ line ∈ lines, IsStated line) :
    statements false lines = lines := by
  induction lines with
  | nil => rfl
  | cons line lines ih =>
    obtain ⟨hline, hlines⟩ := List.forall_mem_cons.1 h
    have hstatement := hline.statement
    simp only [isStatement, Bool.and_eq_true, Bool.not_eq_true'] at hstatement
    obtain ⟨⟨⟨⟨-, hvar⟩, hend⟩, -⟩, -⟩ := hstatement
    have hnext : nextInside false line = false := by simp [nextInside, hvar, hend]
    rw [statements_cons, statementOf, hline.bare, hline.statement, hnext, ih hlines]
    rfl

/-- The lines before the section say nothing. -/
theorem statements_headerLines :
    statements false headerLines = [] ∧ insideAfter false headerLines = false := by
  have hremark : ∀ t : List Char, bareLine ('/' :: '/' :: t) = "" := by
    intro t
    have hcut : cutRemark ('/' :: '/' :: t) = [] := by simp [cutRemark, Chars.breakOn?]
    have hcomments : dropComments [] = [] := by rw [dropComments]
    rw [bareLine, hcut, hcomments]
    rfl
  have hfirst : bare "// Generated Structured Text Code" = "" := hremark _
  have hsecond : bare "// Enhanced with tag preservation" = "" := hremark _
  rw [headerLines]
  simp only [statements_cons, statementOf, hfirst, hsecond, bare_empty, insideAfter_cons,
    nextInside_empty]
  exact ⟨rfl, rfl⟩

/-- The statements behind the section are read again. -/
theorem programLines_regenerated {ds : List Declaration} (hds : ∀ d ∈ ds, d.Rereadable)
    {logic : List String} (hlogic : ∀ line ∈ logic, IsStated line) :
    programLines (join "\n" (regeneratedLines ds logic)) = logic := by
  have hvar : bare "VAR" = "VAR" := bare_eq_strip (by decide) (by decide)
  have hend : bare "END_VAR" = "END_VAR" := bare_eq_strip (by decide) (by decide)
  obtain ⟨hheader, hbefore⟩ := statements_headerLines
  have hnewline : ∀ line ∈ regeneratedLines ds logic, '\n' ∉ line.toList := by
    have hfixed : ∀ line ∈ headerLines, '\n' ∉ line.toList := by decide
    simp only [regeneratedLines, List.forall_mem_append, List.forall_mem_cons, List.forall_mem_map]
    exact ⟨hfixed, by decide, fun d hd => (hds d hd).newline_not_mem_indented, by decide, by decide,
      fun line hline => (hlogic line hline).newline⟩
  have hclosed : ∀ line ∈ ds.map Declaration.indented,
      startsWithWord "END_VAR" (bare line) = false := by
    refine List.forall_mem_map.2 fun d hd => ?_
    have hnone : afterKeyword? "END_VAR".toList d.rewritten.toList = none :=
      lacks_iff.1 (hds d hd).lacks _ List.suffix_rfl
    rw [(hds d hd).bare_indented, startsWithWord, hnone]
  obtain ⟨hsection, hinside⟩ := statements_inside hclosed
  -- The reader goes through the header, the opening line, the section and the closing line.
  rw [programLines_eq, split_join (by simp [regeneratedLines]) hnewline, regeneratedLines,
    statements_append, hheader, hbefore, statements_cons, statementOf, hvar,
    show isStatement false "VAR" = false by decide, show nextInside false "VAR" = true by decide,
    statements_append, hsection, hinside, statements_cons, statementOf, hend,
    show isStatement true "END_VAR" = false by decide,
    show nextInside true "END_VAR" = false by decide, statements_cons, statementOf, bare_empty,
    nextInside_empty, statements_of_isStated hlogic]
  rfl

end ControlLogic.StructuredText

namespace ControlLogic.Exchange

open StructuredText

/-! ## Programs -/

/-- The variable without its initial value. -/
def Variable.withoutInitial (v : Variable) : Variable :=
  { v with declaration := v.declaration.withoutInitial }

/-- A declaration as an entry of the variables. -/
def entryOf (d : Declaration) : String × Variable := (d.name, ⟨d, none⟩)

theorem entries_eq_map_entryOf (source : String) :
    (readProgram Table.empty source).vars.entries =
      ((readProgram Table.empty source).vars.entries.map (·.2.declaration)).map entryOf := by
  rw [List.map_map, List.map_congr_left (g := id), List.map_id]
  intro e he
  obtain ⟨d, -, rfl⟩ := of_mem_vars he
  rfl

theorem declarationLine_entryOf (d : Declaration) :
    declarationLine (entryOf d).1 (entryOf d).2 = d.indented := by
  rw [declarationLine, Declaration.indented, Declaration.rewritten, entryOf]
  cases d.range with
  | none => simp [Variable.facts, Json.display, String.append_assoc]
  | some range => simp [Variable.facts, Json.display, String.append_assoc]

/-- The text of a program with variables. -/
theorem routineText_eq {p : Program} {ds : List Declaration} (hne : ds ≠ [])
    (h : p.vars.entries = ds.map entryOf) :
    p.routineText = Text.join "\n" (regeneratedLines ds p.logic) := by
  have hlines : (ds.map entryOf).map (fun e => declarationLine e.1 e.2) =
      ds.map Declaration.indented := by
    rw [List.map_map]
    exact List.map_congr_left fun d _ => declarationLine_entryOf d
  have hsome : p.vars.isEmpty = false := by simpa [Table.isEmpty, h] using hne
  rw [Program.routineText, hsome, h, hlines, regeneratedLines, headerLines]
  simp

/-- The lines of declarations do not depend on their initial values. -/
theorem regeneratedLines_withoutInitial (ds : List Declaration) (logic : List String) :
    regeneratedLines (ds.map Declaration.withoutInitial) logic =
      regeneratedLines ds logic := by
  rw [regeneratedLines, List.map_map]
  rfl

/-- The variables of a source without comments are those of declarations that can be read again. -/
theorem exists_rereadable {source : String} (hremark : Text.contains "//" source = false)
    (hcomment : Text.contains "(*" source = false) :
    ∃ ds : List Declaration, (readProgram Table.empty source).vars.entries = ds.map entryOf ∧
      (ds.map (·.name)).Nodup ∧ ∀ d ∈ ds, d.Rereadable := by
  have hentries := entries_eq_map_entryOf source
  refine ⟨_, hentries, ?_, List.forall_mem_map.2 fun e he => ?_⟩
  · have hkeys := nodup_keys_vars source
    rwa [Table.keys, hentries, List.map_map] at hkeys
  · obtain ⟨d, hd, rfl⟩ := of_mem_vars he
    exact rereadable_of_mem_declarations hremark hcomment hd

/-- The lines of declarations and statements are read as these declarations and statements. -/
theorem readProgram_regenerated {ds : List Declaration} {logic : List String} (hne : ds ≠ [])
    (hnames : (ds.map (·.name)).Nodup) (hds : ∀ d ∈ ds, d.Rereadable)
    (hlogic : ∀ line ∈ logic, IsStated line) :
    let q := readProgram Table.empty (Text.join "\n" (regeneratedLines ds logic))
    q.vars.entries = (ds.map Declaration.withoutInitial).map entryOf ∧
      q.logic = logic := by
  intro q
  refine ⟨?_, ?_⟩
  · have hvars : q.vars = Table.ofList ((ds.map Declaration.withoutInitial).map entryOf) := by
      rw [← declarations_regenerated hne hds logic]
      exact vars_readProgram _
    rw [hvars, Table.entries_ofList]
    rw [List.map_map, List.map_map]
    exact hnames
  · rw [logic_readProgram, programLines_regenerated hds hlogic]

/-- The text that is written for a source without comments is a fixed point: it is read as the same
variables in the same order, their initial values aside, and as the same statements, and the same
text is written again. -/
theorem readProgram_routineText {source : String} (hremark : Text.contains "//" source = false)
    (hcomment : Text.contains "(*" source = false)
    (hvars : (readProgram Table.empty source).vars.entries ≠ []) :
    let p := readProgram Table.empty source
    let q := readProgram Table.empty p.routineText
    q.vars.entries = p.vars.entries.map (fun e => (e.1, e.2.withoutInitial)) ∧
      q.logic = p.logic ∧ q.routineText = p.routineText := by
  obtain ⟨ds, hentries, hnames, hds⟩ := exists_rereadable hremark hcomment
  have hne : ds ≠ [] := by
    rintro rfl
    exact hvars hentries
  have hstated : ∀ line ∈ (readProgram Table.empty source).logic, IsStated line := by
    rw [logic_readProgram]
    exact fun line hline => isStated_of_mem_programLines hremark hcomment hline
  have htext := routineText_eq hne hentries
  obtain ⟨hagain, hlogic⟩ := readProgram_regenerated hne hnames hds hstated
  rw [← htext] at hagain hlogic
  intro p q
  refine ⟨?_, hlogic, ?_⟩
  · rw [hagain, hentries, List.map_map, List.map_map]
    rfl
  · rw [routineText_eq (by simpa using hne) hagain, hlogic, regeneratedLines_withoutInitial, htext]

/-- A range may hold brackets and semicolons, and a keyword may stand close to a type. -/
def bracketSource : String :=
  "VAR\nLevel :Array[0] 1;]OFINT := 2;\n Pump: ARRAY[1..2];\nEND_VAR\n Level := 3; "

theorem readProgram_routineText_bracketSource :
    Text.contains "//" bracketSource = false ∧ Text.contains "(*" bracketSource = false ∧
      ((readProgram Table.empty bracketSource).vars.entries.map fun e =>
        (e.1, e.2.declaration.type, e.2.declaration.range, e.2.declaration.initial)) =
        [("Level", "INT", some "0] 1;", some "2"), ("Pump", "ARRAY[1..2]", none, none)] ∧
      (readProgram Table.empty
          (readProgram Table.empty bracketSource).routineText).routineText =
        (readProgram Table.empty bracketSource).routineText := by
  have hremark : Text.contains "//" bracketSource = false := by decide
  have hcomment : Text.contains "(*" bracketSource = false := by decide
  have hentries : ((readProgram Table.empty bracketSource).vars.entries.map fun e =>
      (e.1, e.2.declaration.type, e.2.declaration.range, e.2.declaration.initial)) =
      [("Level", "INT", some "0] 1;", some "2"), ("Pump", "ARRAY[1..2]", none, none)] := by
    rw [vars_readProgram]
    decide
  refine ⟨hremark, hcomment, hentries, ?_⟩
  have hne : (readProgram Table.empty bracketSource).vars.entries ≠ [] := fun h => by
    rw [h] at hentries
    cases hentries
  exact (readProgram_routineText hremark hcomment hne).2.2

end ControlLogic.Exchange
