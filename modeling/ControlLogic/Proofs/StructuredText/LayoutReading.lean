import ControlLogic.Proofs.StructuredText.InsertedComment
import ControlLogic.Proofs.StructuredText.SourceLayout

/-!
# What is read from a layout

Declarations and statements are found by two readers.  The one looks for the first section and then
goes through its lines; the other goes through all lines and looks at the beginning of each.

* `declarations_sourceText`: of each line of the first section the first declaration is read.
* `programLines_sourceText`: a line is kept or dropped as a whole.  Which of the two is told by its
  first piece, and by the last line before it that begins with the word of a section
  (`SourceLine.isKept`, `SourceLine.leaves`).
-/

namespace ControlLogic.StructuredText

open Text

/-! ## The declarations that are read -/

/-- The lines between the first opening and the next closing piece. -/
def firstSection (lines : List SourceLine) : List SourceLine :=
  upTo SourcePiece.isClosing (((cutAt SourcePiece.isOpening lines).map (·.2)).getD [])

/-- What is declared on a line depends on the line without the blanks around it. -/
theorem lineDeclarations_cons (line : String) (lines : List String) :
    lineDeclarations (line :: lines) =
      (if isIdleLine (strip line) then [] else (readDeclaration? (strip line)).toList) ++
        lineDeclarations lines := by
  have hline : lineDeclarations [line] =
      if isIdleLine (strip line) then [] else (readDeclaration? (strip line)).toList := by
    cases hidle : isIdleLine (strip line) with
    | true => simp [lineDeclarations, hidle]
    | false =>
      cases hread : readDeclaration? (strip line) <;> simp [lineDeclarations, hidle, hread]
  rw [← hline, ← lineDeclarations_append, List.singleton_append]

/-- Blanks before a section do not matter. -/
theorem lineDeclarations_split_append {g : List Char} (hg : AllBlank g) (s : List Char) :
    lineDeclarations ((List.splitOn '\n' (g ++ s)).map String.ofList) =
      lineDeclarations ((List.splitOn '\n' s).map String.ofList) := by
  induction g with
  | nil => rfl
  | cons c g ih =>
    obtain ⟨hc, hg⟩ := List.forall_mem_cons.1 hg
    rw [← ih hg, List.cons_append]
    by_cases hnewline : c = '\n'
    · rw [hnewline, Chars.splitOn_cons_self, List.map_cons, lineDeclarations_cons]
      rfl
    · obtain ⟨piece, pieces, hsplit, hcons⟩ := Chars.splitOn_cons_of_ne hnewline (g ++ s)
      have hstrip : strip (String.ofList (c :: piece)) = strip (String.ofList piece) := by
        rw [strip, strip, String.toList_ofList, String.toList_ofList, ← List.singleton_append,
          trim_append (List.forall_mem_singleton.2 hc)]
      rw [hcons, hsplit, List.map_cons, List.map_cons, lineDeclarations_cons, lineDeclarations_cons,
        hstrip]

/-- A line that begins with a declaration is not idle. -/
theorem isIdleLine_of_spells {d : Declaration} {s : List Char} (h : Spells d s) (rest : List Char) :
    isIdleLine (String.ofList (s ++ rest)) = false := by
  obtain ⟨x, hx, hword⟩ := h.head?
  obtain ⟨t, rfl⟩ := List.head?_eq_some_iff.1 hx
  have hslash : x ≠ '/' := by rintro rfl; exact absurd hword (by decide)
  have hparen : x ≠ '(' := by rintro rfl; exact absurd hword (by decide)
  simp [isIdleLine, startsWith, List.isPrefixOf, Ne.symm hslash, Ne.symm hparen,
    ← String.toList_inj]

namespace SourceLine

variable {line : SourceLine}

theorem Spaced.newline_not_mem (h : line.Spaced) : '\n' ∉ line.text.toList := by
  rw [text, String.toList_ofList]
  intro hmem
  rcases List.mem_append.1 hmem with hmem | hmem
  · obtain ⟨p, hp, hmem⟩ := List.mem_flatMap.1 hmem
    rcases List.mem_append.1 hmem with hmem | hmem
    · exact (h.gap p hp).2 hmem
    · exact (h.spelled p hp).hasEnds.2 hmem
  · exact h.trail.2 hmem

/-- The pieces of a line end with no blank. -/
theorem hasEnds_append {p : PlacedPiece} {ps : List PlacedPiece}
    (h : ∀ q ∈ p :: ps, q.piece.Spelled) :
    HasEnds (p.piece.text.toList ++ ps.flatMap PlacedPiece.chars) := by
  obtain ⟨hp, hps⟩ := List.forall_mem_cons.1 h
  obtain ⟨⟨x, hx, hxblank⟩, hlast⟩ := hp.hasEnds.1
  refine ⟨⟨x, by simp [List.head?_append, Option.mem_def.1 hx], hxblank⟩, ?_⟩
  rcases List.eq_nil_or_concat ps with rfl | ⟨qs, q, rfl⟩
  · simpa using hlast
  · obtain ⟨y, hy, hyblank⟩ := (hps q (by simp)).hasEnds.1.2
    refine ⟨y, ?_, hyblank⟩
    simp [PlacedPiece.chars, List.getLast?_append, Option.mem_def.1 hy]

theorem Spaced.strip_text (h : line.Spaced) : strip line.text = line.body := by
  rw [strip, text, String.toList_ofList, body]
  cases hplaced : line.placed with
  | nil =>
    have htrim := trim_append h.trail.1 []
    rw [List.append_nil] at htrim
    rw [List.flatMap_nil, List.nil_append, htrim]
    rfl
  | cons p ps =>
    have hends := hasEnds_append (hplaced ▸ h.spelled)
    have hgap := (h.gap p (by simp [hplaced])).1
    have htrim := trim_between hgap hends h.trail.1
    rw [List.flatMap_cons, PlacedPiece.chars, List.append_assoc, List.append_assoc,
      ← List.append_assoc p.piece.text.toList, htrim, ← String.toList_inj]
    simp

/-- Of a line in a section the first declaration is read. -/
theorem Spaced.lineDeclarations_eq (h : line.Spaced)
    (hdeclared : ∀ p ∈ line.pieces, p.declared ≠ []) :
    lineDeclarations [line.text] = line.declared.head?.toList := by
  rw [lineDeclarations_cons, h.strip_text, body]
  cases hplaced : line.placed with
  | nil => simp [isIdleLine, declared, pieces, hplaced, lineDeclarations]
  | cons p ps =>
    have hp := hdeclared p.piece (by simp [pieces, hplaced])
    have hspelled := h.spelled p (by simp [hplaced])
    cases hpiece : p.piece with
    | declaration d t =>
      rw [hpiece] at hspelled
      have hbody : p.piece.text ++ String.ofList (ps.flatMap PlacedPiece.chars) =
          String.ofList (t.toList ++ ps.flatMap PlacedPiece.chars) := by
        rw [hpiece, SourcePiece.text, String.ofList_append, String.ofList_toList]
      simp only [hbody]
      rw [isIdleLine_of_spells hspelled.1, readDeclaration?_of_spells hspelled.1]
      simp [declared, pieces, hplaced, hpiece, SourcePiece.declared, lineDeclarations]
    | opening _ | closing _ | statement _ => exact absurd rfl (hpiece ▸ hp)

end SourceLine

theorem split_sourceText {lines : List SourceLine} (hne : lines ≠ [])
    (h : ∀ line ∈ lines, line.Spaced) :
    split '\n' (sourceText lines) = lines.map SourceLine.text :=
  split_join (by simpa using hne)
    (List.forall_mem_map.2 fun line hline => (h line hline).newline_not_mem)

theorem lineDeclarations_map_text {lines : List SourceLine} (hlines : ∀ line ∈ lines, line.Spaced)
    (hdeclared : ∀ p ∈ sourcePieces lines, p.declared ≠ []) :
    lineDeclarations (lines.map SourceLine.text) = lines.filterMap (·.declared.head?) := by
  induction lines with
  | nil => rfl
  | cons line rest ih =>
    obtain ⟨hline, hrest⟩ := List.forall_mem_cons.1 hlines
    rw [sourcePieces_cons, List.forall_mem_append] at hdeclared
    rw [List.map_cons, ← List.singleton_append, lineDeclarations_append,
      hline.lineDeclarations_eq hdeclared.1, ih hrest hdeclared.2, List.filterMap_cons]
    cases line.declared.head? <;> rfl

/-- A section that begins with blanks ends where it would end without them. -/
theorem exists_breakKeyword?_dropWhile {k s a b : List Char} (hk : k ≠ [])
    (hletters : k ⊆ keywordLetters) (h : breakKeyword? k s = some (a, b)) :
    ∃ g r, AllBlank g ∧ breakKeyword? k (s.dropWhile isBlank) = some r ∧ a = g ++ r.1 := by
  have hblank : AllBlank (s.takeWhile isBlank) := fun c hc => List.mem_takeWhile_imp hc
  have hpasses := passes_of_allBlank hk hletters hblank (s.dropWhile isBlank)
  rw [Passes, List.takeWhile_append_dropWhile, h] at hpasses
  obtain ⟨r, hr, heq⟩ := Option.map_eq_some_iff.1 hpasses.symm
  cases heq
  exact ⟨_, r, hblank, hr, rfl⟩

/-- What is read from the section of a text: the first declaration of each of its lines. -/
theorem declarations_sourceText {lines : List SourceLine} (hlines : ∀ line ∈ lines, line.Spaced)
    (hbefore : ∀ p ∈ sourcePieces (upTo SourcePiece.isOpening lines),
      Lacks openingMark p.text.toList)
    (hwithin : ∀ p ∈ sourcePieces (firstSection lines), Lacks closingMark p.text.toList)
    (hclosed : ∀ r, cutAt SourcePiece.isOpening lines = some r →
      cutAt SourcePiece.isClosing r.2 ≠ none)
    (hdeclared : ∀ p ∈ sourcePieces (firstSection lines), p.declared ≠ []) :
    declarations (sourceText lines) = (firstSection lines).filterMap (·.declared.head?) := by
  have hopens : ∀ p : SourcePiece, p.isOpening = true → p.Spelled →
      afterKeyword? openingMark p.text.toList = some [] := by
    intro p hp hspelled
    obtain ⟨word, rfl⟩ := SourcePiece.exists_of_isOpening hp
    exact hspelled
  have hcloses : ∀ p : SourcePiece, p.isClosing = true → p.Spelled →
      afterKeyword? closingMark p.text.toList = some [] := by
    intro p hp hspelled
    obtain ⟨word, rfl⟩ := SourcePiece.exists_of_isClosing hp
    exact hspelled
  have hopening := breakKeyword?_sourceText openingMark_ne_nil openingMark_subset hopens hlines
    hbefore
  rw [firstSection] at hwithin hdeclared ⊢
  cases hcut : cutAt SourcePiece.isOpening lines with
  | none =>
    rw [hcut] at hopening
    rw [declarations, variableSection?_eq, hopening]
    rfl
  | some r =>
    rw [hcut] at hopening hwithin hdeclared
    obtain ⟨q, hq⟩ := Option.ne_none_iff_exists'.1 (hclosed r hcut)
    have hspaced := (spaced_of_cutAt hlines hcut).2
    have hclosing := breakKeyword?_sourceText closingMark_ne_nil closingMark_subset hcloses hspaced
      hwithin
    rw [hq] at hclosing
    obtain ⟨g, body, hg, hbody, hsplit⟩ :=
      exists_breakKeyword?_dropWhile closingMark_ne_nil closingMark_subset hclosing
    have hsection : variableSection? (sourceText lines).toList = some body.1 := by
      rw [variableSection?_eq, hopening, Option.map_some, Option.bind_some, hbody]
      rfl
    have hupTo : upTo SourcePiece.isClosing r.2 = q.1 := by rw [upTo, hq]; rfl
    obtain ⟨before, line, after, ps, mark, qs, -, -, ha, -⟩ := exists_of_cutAt hq
    have hne : q.1 ≠ [] := by rw [ha]; simp
    have hlines : (List.splitOn '\n' (sourceText q.1).toList).map String.ofList =
        q.1.map SourceLine.text := split_sourceText hne (spaced_of_cutAt hspaced hq).1
    rw [Option.map_some, Option.getD_some, hupTo] at hdeclared ⊢
    rw [declarations_of_section hsection, ← lineDeclarations_split_append hg, ← hsplit, hlines,
      lineDeclarations_map_text (spaced_of_cutAt hspaced hq).1 hdeclared]

/-! ## The lines that are kept -/

namespace SourceLine

/-- Whether the reader is inside a section behind the line: only its first piece matters. -/
def leaves (inside : Bool) (line : SourceLine) : Bool :=
  match line.pieces with
  | .opening _ :: _ => true
  | .closing _ :: _ => false
  | _ => inside

/-- Whether the line is kept in the program. -/
def isKept (inside : Bool) (line : SourceLine) : Bool :=
  match line.pieces with
  | .declaration _ _ :: _ => !inside
  | .statement _ :: _ => !inside
  | _ => false

end SourceLine

/-- The lines that are kept, or those that are dropped. -/
def linesRead (kept : Bool) : Bool → List SourceLine → List SourceLine
  | _, [] => []
  | inside, line :: rest =>
    (if line.isKept inside = kept then [line] else []) ++ linesRead kept (line.leaves inside) rest

theorem sameLetter_opening_closing {c : Char} (h : sameLetter 'E' c = true) :
    sameLetter 'V' c = false := by
  have hfolds : (fold 'E').toNat = 101 ∧ (fold 'V').toNat = 118 := by decide
  have hforms : letterForms.any (·.contains 101) = false := by decide
  have hfold : (fold c).toNat = 101 := by
    rw [sameLetter, hfolds.1, Bool.or_eq_true, beq_iff_eq, List.any_eq_true] at h
    rcases h with h | ⟨forms, hmem, h⟩
    · exact h.symm
    · rw [Bool.and_eq_true] at h
      exact absurd h.1 (by simpa using List.any_eq_false.1 hforms forms hmem)
  rw [sameLetter, hfolds.2, hfold]
  decide

/-- A closing word is no opening word. -/
theorem startsWithWord_closing {word : String}
    (h : afterKeyword? closingMark word.toList = some []) :
    startsWithWord "VAR" word = false ∧ startsWithWord "END_VAR" word = true := by
  have hmarks : closingMark = 'E' :: "ND_VAR".toList ∧ "VAR".toList = 'V' :: "AR".toList :=
    ⟨rfl, rfl⟩
  have hclosing : afterKeyword? "END_VAR".toList word.toList = some [] := h
  rw [hmarks.1] at h
  obtain ⟨c, t, hword, hc⟩ := exists_cons_of_afterKeyword? h
  have hopening : afterKeyword? "VAR".toList word.toList = none := by
    rw [hword, hmarks.2, afterKeyword?_eq_none (sameLetter_opening_closing hc)]
  rw [startsWithWord, startsWithWord, hopening, hclosing]
  exact ⟨rfl, rfl⟩

theorem dropComments_of_not_contains {s : List Char} (h : Chars.contains ['(', '*'] s = false) :
    dropComments s = s := by
  fun_induction dropComments s with
  | case1 => rfl
  | case2 inner _ after _ ih => simp [Chars.contains] at h
  | case3 inner _ ih => simp [Chars.contains] at h
  | case4 c rest _ ih =>
    rw [Chars.contains, Bool.or_eq_false_iff] at h
    rw [ih h.2]

/-- Without comments only the blanks around a line are dropped. -/
theorem bare_eq_strip {line : String} (hremark : contains "//" line = false)
    (hcomment : contains "(*" line = false) : bare line = strip line := by
  rw [bare, bareLine, cutRemark_of_not_contains hremark, dropComments_of_not_contains hcomment,
    String.ofList_toList]

namespace SourceLine

variable {line : SourceLine}

/-- A line begins with the words that its first piece begins with. -/
theorem Spaced.startsWithWord_body (h : line.Spaced) {p : PlacedPiece} {ps : List PlacedPiece}
    (hplaced : line.placed = p :: ps) {k : String} (hk : k.toList ⊆ keywordLetters) :
    startsWithWord k line.body = startsWithWord k p.piece.text := by
  have hfollows := h.follows
  have hgap := h.gap
  rw [hplaced] at hfollows hgap
  have hapart := apart_of_isChain (t := []) hfollows
    (fun q hq => hgap q (List.mem_cons_of_mem _ hq)) (fun x hx => by cases hx)
  rw [body, hplaced]
  refine startsWithWord_append hk ?_
  rwa [List.append_nil, ← String.toList_ofList (l := ps.flatMap PlacedPiece.chars)] at hapart

theorem text_holds_body (line : SourceLine) : line.body.toList <:+: line.text.toList := by
  rw [body, text, String.toList_ofList]
  cases hplaced : line.placed with
  | nil => exact List.nil_infix
  | cons p ps =>
    exact ⟨p.gap.toList, line.trail.toList, by simp [PlacedPiece.chars]⟩

/-- How a line is read. -/
theorem Spaced.statementOf_eq (h : line.Spaced) (hremark : contains "//" line.text = false)
    (hcomment : contains "(*" line.text = false) (inside : Bool) :
    statementOf inside line.text = (if line.isKept inside then [line.body] else []) ∧
      nextInside inside (bare line.text) = line.leaves inside := by
  have hbare : bare line.text = line.body := (bare_eq_strip hremark hcomment).trans h.strip_text
  have hstart : startsWith "//" line.body = false := by
    rw [Bool.eq_false_iff]
    intro hprefix
    have hinfix : "//".toList <:+: line.text.toList :=
      (List.isPrefixOf_iff_prefix.1 hprefix).isInfix.trans line.text_holds_body
    have hcontains : contains "//" line.text = true := Chars.contains_iff_infix.2 hinfix
    rw [hremark] at hcontains
    cases hcontains
  rw [statementOf, hbare]
  cases hplaced : line.placed with
  | nil =>
    have hbody : line.body = "" := by rw [body, hplaced]
    rw [hbody, isKept, leaves, pieces, hplaced]
    exact ⟨rfl, rfl⟩
  | cons p ps =>
    have hspelled := h.spelled p (by simp [hplaced])
    have hvar := h.startsWithWord_body hplaced (k := "VAR") (by decide)
    have hend := h.startsWithWord_body hplaced (k := "END_VAR") (by decide)
    have hne : line.body ≠ "" := by
      intro hempty
      refine (hasEnds_append (hplaced ▸ h.spelled)).ne_nil ?_
      simpa [body, hplaced] using congrArg String.toList hempty
    rw [isStatement, nextInside, isKept, leaves, pieces, hplaced, List.map_cons, hvar, hend, hstart]
    cases hpiece : p.piece with
    | opening word =>
      rw [hpiece] at hspelled
      have hword : startsWithWord "VAR" word = true := by
        have hafter : afterKeyword? "VAR".toList word.toList = some [] := hspelled
        rw [startsWithWord, hafter]
        rfl
      simp [SourcePiece.text, hword]
    | closing word =>
      rw [hpiece] at hspelled
      obtain ⟨hword, hclosing⟩ := startsWithWord_closing hspelled
      simp [SourcePiece.text, hword, hclosing]
    | declaration d text =>
      rw [hpiece] at hspelled
      simp [SourcePiece.text, hspelled.2.2.1, hspelled.2.2.2, hne]
    | statement text =>
      rw [hpiece] at hspelled
      simp [SourcePiece.text, hspelled.2.2.1, hspelled.2.2.2, hne]

end SourceLine

/-- Every line stands in the text. -/
theorem sourceText_holds_text {lines : List SourceLine} {line : SourceLine} (h : line ∈ lines) :
    line.text.toList <:+: (sourceText lines).toList := by
  induction lines with
  | nil => exact absurd h List.not_mem_nil
  | cons first rest ih =>
    have htext : first.text.toList =
        first.placed.flatMap PlacedPiece.chars ++ first.trail.toList := by
      rw [SourceLine.text, String.toList_ofList]
    rw [toList_sourceText_cons, ← List.append_assoc, ← htext]
    rcases List.mem_cons.1 h with rfl | h
    · exact ⟨[], followingText rest, by simp⟩
    · obtain ⟨a, b, hab⟩ := ih h
      refine ⟨first.text.toList ++ '\n' :: a, b, ?_⟩
      rw [followingText_of_ne_nil (List.ne_nil_of_mem h), ← hab]
      simp

/-- The lines that are read, with the reader inside a section or outside. -/
theorem statements_map_text {lines : List SourceLine} (hlines : ∀ line ∈ lines, line.Spaced)
    (hplain : ∀ line ∈ lines, contains "//" line.text = false ∧ contains "(*" line.text = false)
    (inside : Bool) :
    statements inside (lines.map SourceLine.text) =
      (linesRead true inside lines).map SourceLine.body := by
  induction lines generalizing inside with
  | nil => rfl
  | cons line rest ih =>
    obtain ⟨hline, hrest⟩ := List.forall_mem_cons.1 hlines
    obtain ⟨hcomments, hrests⟩ := List.forall_mem_cons.1 hplain
    obtain ⟨hstatement, hnext⟩ := hline.statementOf_eq hcomments.1 hcomments.2 inside
    rw [List.map_cons, statements_cons, hstatement, hnext, ih hrest hrests, linesRead,
      List.map_append]
    cases line.isKept inside <;> rfl

/-- The statements of a text are the lines that are kept. -/
theorem programLines_sourceText {lines : List SourceLine} (hne : lines ≠ [])
    (hlines : ∀ line ∈ lines, line.Spaced) (hremark : contains "//" (sourceText lines) = false)
    (hcomment : contains "(*" (sourceText lines) = false) :
    programLines (sourceText lines) = (linesRead true false lines).map SourceLine.body := by
  have hplain : ∀ {t : String}, contains t (sourceText lines) = false → ∀ line ∈ lines,
      contains t line.text = false := by
    intro t h line hline
    rw [Bool.eq_false_iff] at h ⊢
    intro ht
    have hinfix : t.toList <:+: line.text.toList := Chars.contains_iff_infix.1 ht
    exact h <| Chars.contains_iff_infix.2 <| hinfix.trans (sourceText_holds_text hline)
  rw [programLines_eq, split_sourceText hne hlines]
  exact statements_map_text hlines (fun line hline => ⟨hplain hremark line hline,
    hplain hcomment line hline⟩) false

end ControlLogic.StructuredText
