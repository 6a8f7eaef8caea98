import ControlLogic.Cli.Convert
import ControlLogic.Proofs.Text.Chars
import Mathlib.Data.List.Nodup
import Mathlib.Data.List.Pairwise

/-!
# The order of arranged statements

In checked mode a text is arranged before it is read: the lines of its variable sections are put
before all others.  The cut that finds the sections looks for `VAR`, `END_VAR` and `PROGRAM`
anywhere in a line; the reader of statements looks for whole words at the beginning of a line
without its comments.  So the cut may take a statement for a line of a section.

* `sectionLines_eq` and `statements_cons` say what the cut and the reader do with one line.
* `programLines_arrangeSections`: the statements of an arranged text are those of the lines of
  the sections, and then those of the other lines.
* `marked` are the statements of a text, each with the part into which the cut puts its line.
  `statements_vars` and `statements_program` find the arranged statements among them, part by
  part, where the cut and the reader agree about the sections (`Steady`).
* `inPart_append_of_inOrder` and `eq_of_map_snd_eq` say when this is the order of the text.
-/

namespace ControlLogic.StructuredText

open Text

/-! ## One line at a time -/

/-- The parts that a text is cut into. -/
inductive Part where
  | vars
  | program
  deriving DecidableEq

/-- The part that a line is put into, if it is not dropped. -/
def part? (place : Place) (line : String) : Option Part :=
  if contains "VAR" line || contains "END_VAR" line then some .vars
  else if contains "PROGRAM" line then some .program
  else if place = .vars then some .vars
  else if place = .program || (strip line ≠ "" && !startsWith "//" line && !startsWith "(*" line)
  then some .program
  else none

/-- The place after a line. -/
def nextPlace (place : Place) (line : String) : Place :=
  if contains "END_VAR" line then (if place = .vars then .outside else place)
  else if contains "VAR" line then .vars
  else if contains "PROGRAM" line then .program
  else place

/-- The lines of one part. -/
def linesOf (part : Part) : Place → List String → List String
  | _, [] => []
  | place, line :: rest =>
    if part? place line = some part then line :: linesOf part (nextPlace place line) rest
    else linesOf part (nextPlace place line) rest

theorem sectionLines_eq (place : Place) (lines : List String) :
    sectionLines place lines = (linesOf .vars place lines, linesOf .program place lines) := by
  induction lines generalizing place with
  | nil => rfl
  | cons line rest ih =>
    simp only [sectionLines, linesOf, ih]
    by_cases hend : contains "END_VAR" line = true
    · simp [part?, nextPlace, hend]
    by_cases hvar : contains "VAR" line = true
    · simp [part?, nextPlace, hend, hvar]
    by_cases hprogram : contains "PROGRAM" line = true
    · simp [part?, nextPlace, hend, hvar, hprogram]
    by_cases hplace : place = .vars
    · simp [part?, nextPlace, hend, hvar, hprogram, hplace]
    · simp only [part?, nextPlace, hend, hvar, hprogram, hplace, Bool.false_and, Bool.or_false,
        Bool.false_eq_true, if_false]
      split_ifs <;> simp_all

theorem mem_of_mem_linesOf {part : Part} {place : Place} {lines : List String} {line : String}
    (h : line ∈ linesOf part place lines) : line ∈ lines := by
  fun_induction linesOf part place lines with
  | case1 => exact h
  | case2 place first rest _ ih =>
    exact (List.mem_cons.1 h).elim (fun hx => hx ▸ List.mem_cons_self)
      fun hx => List.mem_cons_of_mem _ (ih hx)
  | case3 place first rest _ ih => exact List.mem_cons_of_mem _ (ih h)

/-- A line without comments and surrounding blanks. -/
def bare (line : String) : String := bareLine line.toList

/-- Whether a bare line leaves the reader inside a section. -/
def nextInside (inside : Bool) (line : String) : Bool :=
  if startsWithWord "VAR" line then true
  else if startsWithWord "END_VAR" line then false
  else inside

/-- Whether the reader takes a bare line for a statement. -/
def isStatement (inside : Bool) (line : String) : Bool :=
  line ≠ "" && !startsWithWord "VAR" line && !startsWithWord "END_VAR" line && !inside &&
    !startsWith "//" line

/-- The statement of a line, if it is one. -/
def statementOf (inside : Bool) (line : String) : List String :=
  if isStatement inside (bare line) then [bare line] else []

/-- The statements of lines that begin inside a section or outside. -/
def statements (inside : Bool) (lines : List String) : List String :=
  outsideSections inside ((lines.map bare).filter (· ≠ ""))

/-- Whether lines leave the reader inside a section. -/
def insideAfter (inside : Bool) (lines : List String) : Bool :=
  lines.foldl (fun i line => nextInside i (bare line)) inside

theorem nextInside_empty (inside : Bool) : nextInside inside "" = inside := rfl

theorem outsideSections_cons (inside : Bool) {line : String} (h : line ≠ "")
    (rest : List String) :
    outsideSections inside (line :: rest) =
      (if isStatement inside line then [line] else []) ++
        outsideSections (nextInside inside line) rest := by
  rw [outsideSections, isStatement, nextInside]
  by_cases hvar : startsWithWord "VAR" line = true
  · simp [hvar]
  by_cases hend : startsWithWord "END_VAR" line = true
  · simp [hvar, hend]
  by_cases hskip : (inside || startsWith "//" line) = true
  · rw [if_neg hvar, if_neg hend, if_pos hskip]
    rcases Bool.or_eq_true .. ▸ hskip with hinside | hremark
    · simp [hvar, hend, hinside]
    · simp [hvar, hend, hremark]
  · rw [if_neg hvar, if_neg hend, if_neg hskip]
    simp_all

theorem statements_cons (inside : Bool) (line : String) (lines : List String) :
    statements inside (line :: lines) =
      statementOf inside line ++ statements (nextInside inside (bare line)) lines := by
  rw [statements, statementOf, statements, List.map_cons]
  generalize bare line = line
  by_cases hempty : line = ""
  · rw [hempty, nextInside_empty, List.filter_cons_of_neg (by simp)]
    simp [isStatement]
  · rw [List.filter_cons_of_pos (by simpa using hempty), outsideSections_cons inside hempty]

@[simp]
theorem insideAfter_cons (inside : Bool) (line : String) (lines : List String) :
    insideAfter inside (line :: lines) = insideAfter (nextInside inside (bare line)) lines :=
  List.foldl_cons ..

theorem statements_append (inside : Bool) (a b : List String) :
    statements inside (a ++ b) = statements inside a ++ statements (insideAfter inside a) b := by
  induction a generalizing inside with
  | nil => rfl
  | cons line a ih =>
    rw [List.cons_append, statements_cons, ih, statements_cons, List.append_assoc,
      insideAfter_cons]

theorem programLines_eq (source : String) :
    programLines source = statements false (split '\n' source) := by
  have hbare : bare ∘ String.ofList = bareLine := by
    funext line
    simp [bare]
  rw [programLines, statements, split, List.map_map, hbare]

/-! ## Cutting and joining again -/

theorem toList_mem_split {c : Char} {source line : String} (h : line ∈ split c source) :
    line.toList ∈ List.splitOn c source.toList := by
  obtain ⟨piece, hpiece, rfl⟩ := List.mem_map.1 h
  rwa [String.toList_ofList]

/-- An empty line says nothing to the reader. -/
theorem bare_empty : bare "" = "" := by
  have hcomments : dropComments [] = [] := by rw [dropComments]
  rw [bare, bareLine, String.toList_empty, show cutRemark [] = [] from rfl, hcomments]
  rfl

theorem statements_empty (inside : Bool) : statements inside [""] = [] := by
  rw [statements_cons, statementOf, bare_empty]
  rfl

theorem insideAfter_empty (inside : Bool) : insideAfter inside [""] = inside := by
  rw [insideAfter_cons, bare_empty, nextInside_empty]
  rfl

theorem split_append_sep (c : Char) (a b : String) :
    split c (a ++ String.ofList [c] ++ b) = split c a ++ split c b := by
  simp [split, List.splitOn_append_cons_self]

section Arranged

variable (source : String)

/-- The lines that the cut puts into a part. -/
def partLines (part : Part) (source : String) : List String :=
  linesOf part .outside (split '\n' source)

theorem newline_not_mem_partLines (part : Part) {line : String}
    (h : line ∈ partLines part source) : '\n' ∉ line.toList :=
  Chars.not_mem_of_mem_splitOn (toList_mem_split (mem_of_mem_linesOf h))

/-- The lines of a part that is joined are found again, except that none give one empty line. -/
theorem split_join_partLines (part : Part) :
    split '\n' (join "\n" (partLines part source)) = partLines part source ∨
      partLines part source = [] ∧ split '\n' (join "\n" (partLines part source)) = [""] := by
  by_cases hempty : partLines part source = []
  · exact .inr ⟨hempty, by rw [hempty]; rfl⟩
  · exact .inl (split_join hempty fun line => newline_not_mem_partLines source part)

theorem statements_join (inside : Bool) (part : Part) :
    statements inside (split '\n' (join "\n" (partLines part source))) =
      statements inside (partLines part source) := by
  rcases split_join_partLines source part with hlines | ⟨hempty, hlines⟩
  · rw [hlines]
  · rw [hlines, hempty, statements_empty]
    rfl

theorem insideAfter_join (inside : Bool) (part : Part) :
    insideAfter inside (split '\n' (join "\n" (partLines part source))) =
      insideAfter inside (partLines part source) := by
  rcases split_join_partLines source part with hlines | ⟨hempty, hlines⟩
  · rw [hlines]
  · rw [hlines, hempty, insideAfter_empty]
    rfl

/-- The statements of an arranged text are those of its sections and then those of the rest,
which is read inside a section if the sections leave one open. -/
theorem programLines_arrangeSections :
    programLines (Cli.arrangeSections source) =
      statements false (partLines .vars source) ++
        statements (insideAfter false (partLines .vars source)) (partLines .program source) := by
  have htext : Cli.arrangeSections source =
      join "\n" (partLines .vars source) ++ String.ofList ['\n'] ++
        ("" ++ String.ofList ['\n'] ++ join "\n" (partLines .program source)) := by
    rw [Cli.arrangeSections, splitSections, sectionLines_eq]
    simp [partLines, ← String.toList_inj]
  have hempty : split '\n' "" = [""] := rfl
  rw [programLines_eq, htext, split_append_sep, split_append_sep, hempty, statements_append,
    statements_append, statements_empty, insideAfter_empty, List.nil_append, statements_join,
    insideAfter_join, statements_join]

end Arranged

/-! ## Where the statements of a text come from -/

/-- The statements of lines, each with the part that its line is put into. -/
def marked : Place → Bool → List String → List (Option Part × String)
  | _, _, [] => []
  | place, inside, line :: rest =>
    (statementOf inside line).map (part? place line, ·) ++
      marked (nextPlace place line) (nextInside inside (bare line)) rest

/-- The statements of one part. -/
def inPart (part : Part) (found : List (Option Part × String)) : List (Option Part × String) :=
  found.filter (·.1 = some part)

theorem map_snd_statementOf (part : Option Part) (inside : Bool) (line : String) :
    ((statementOf inside line).map (part, ·)).map (·.2) = statementOf inside line := by
  simp [Function.comp_def]

theorem map_snd_marked (place : Place) (inside : Bool) (lines : List String) :
    (marked place inside lines).map (·.2) = statements inside lines := by
  induction lines generalizing place inside with
  | nil => rfl
  | cons line rest ih =>
    rw [marked, List.map_append, map_snd_statementOf, ih, statements_cons]

/-- The cut and the reader agree about sections: a line of the program stands outside the
sections and neither opens nor closes one, nor does a line that is dropped, and the last section
is closed. -/
def Steady : Place → Bool → List String → Prop
  | _, inside, [] => inside = false
  | place, inside, line :: rest =>
    (part? place line = some .program → inside = false) ∧
    (part? place line ≠ some .vars → nextInside inside (bare line) = inside) ∧
    Steady (nextPlace place line) (nextInside inside (bare line)) rest

/-- Whether the cut and the reader agree can be computed. -/
instance decidableSteady : (place : Place) → (inside : Bool) → (lines : List String) →
    Decidable (Steady place inside lines)
  | _, inside, [] => inferInstanceAs (Decidable (inside = false))
  | place, inside, line :: rest =>
    have := decidableSteady (nextPlace place line) (nextInside inside (bare line)) rest
    inferInstanceAs (Decidable ((part? place line = some .program → inside = false) ∧
      (part? place line ≠ some .vars → nextInside inside (bare line) = inside) ∧
      Steady (nextPlace place line) (nextInside inside (bare line)) rest))

/-- The lines of the sections are read as they are in the text, since no other line matters to
what they are. -/
theorem statements_vars {place : Place} {inside : Bool} {lines : List String}
    (h : Steady place inside lines) :
    statements inside (linesOf .vars place lines) =
        (inPart .vars (marked place inside lines)).map (·.2) ∧
      insideAfter inside (linesOf .vars place lines) = false := by
  induction lines generalizing place inside with
  | nil => exact ⟨rfl, h⟩
  | cons line rest ih =>
    obtain ⟨-, hkeep, hrest⟩ := h
    obtain ⟨hstatements, hinside⟩ := ih hrest
    rw [linesOf, marked, inPart, List.filter_append, List.map_append]
    by_cases hpart : part? place line = some .vars
    · rw [if_pos hpart, statements_cons, hstatements, insideAfter_cons, hpart]
      refine ⟨?_, hinside⟩
      rw [List.filter_eq_self.2 (by simp), map_snd_statementOf]
      rfl
    · rw [hkeep hpart] at hstatements hinside ⊢
      rw [if_neg hpart, hstatements]
      refine ⟨?_, hinside⟩
      rw [List.filter_eq_nil_iff.2 (by simp [hpart])]
      rfl

/-- The lines of the program are read outside a section, as they are in the text. -/
theorem statements_program {place : Place} {inside : Bool} {lines : List String}
    (h : Steady place inside lines) :
    statements false (linesOf .program place lines) =
      (inPart .program (marked place inside lines)).map (·.2) := by
  induction lines generalizing place inside with
  | nil => rfl
  | cons line rest ih =>
    obtain ⟨hout, hkeep, hrest⟩ := h
    rw [linesOf, marked, inPart, List.filter_append, List.map_append]
    by_cases hpart : part? place line = some .program
    · have hnext : nextInside false (bare line) = false := by
        simpa [hout hpart] using hkeep (by simp [hpart])
      rw [if_pos hpart, statements_cons, hnext, ih hrest, hpart, hout hpart,
        List.filter_eq_self.2 (by simp), map_snd_statementOf]
      rfl
    · rw [if_neg hpart, ih hrest, List.filter_eq_nil_iff.2 (by simp [hpart])]
      rfl

/-! ## When the order is kept -/

/-- No statement is dropped, and those of the sections come first. -/
def InOrder (found : List (Option Part × String)) : Prop :=
  (∀ s ∈ found, s.1 ≠ none) ∧
    found.Pairwise fun a b => b.1 = some .vars → a.1 = some .vars

instance (found : List (Option Part × String)) : Decidable (InOrder found) :=
  inferInstanceAs (Decidable ((∀ s ∈ found, s.1 ≠ none) ∧ _))

theorem inOrder_append (found : List (Option Part × String)) :
    InOrder (inPart .vars found ++ inPart .program found) := by
  have hvars : ∀ s ∈ inPart .vars found, s.1 = some .vars := fun s hs => by
    simpa using List.of_mem_filter hs
  have hprogram : ∀ s ∈ inPart .program found, s.1 = some .program := fun s hs => by
    simpa using List.of_mem_filter hs
  refine ⟨fun s hs => ?_, List.pairwise_append.2 ⟨?_, ?_, fun a ha b hb _ => hvars a ha⟩⟩
  · rcases List.mem_append.1 hs with hs | hs
    · simp [hvars s hs]
    · simp [hprogram s hs]
  · exact List.pairwise_of_forall_mem_list fun a ha b _ _ => hvars a ha
  · refine List.pairwise_of_forall_mem_list fun a _ b hb hvars => ?_
    simp [hprogram b hb] at hvars

theorem inPart_append_of_inOrder {found : List (Option Part × String)} (h : InOrder found) :
    inPart .vars found ++ inPart .program found = found := by
  induction found with
  | nil => rfl
  | cons s rest ih =>
    obtain ⟨hsome, hpairwise⟩ := h
    rw [List.pairwise_cons] at hpairwise
    have htail := ih ⟨fun t ht => hsome t (List.mem_cons_of_mem _ ht), hpairwise.2⟩
    match hs : s.1 with
    | none => exact absurd hs (hsome s List.mem_cons_self)
    | some .vars =>
      rw [inPart, inPart, List.filter_cons_of_pos (by simp [hs]),
        List.filter_cons_of_neg (by simp [hs]), List.cons_append]
      exact congrArg _ htail
    | some .program =>
      -- No statement of a section can follow, so the first filter leaves nothing.
      have hnone : inPart .vars rest = [] := by
        refine List.filter_eq_nil_iff.2 fun t ht htv => ?_
        simp [hs] at hpairwise
        exact hpairwise.1 _ _ ht (by simpa using htv)
      rw [hnone, List.nil_append] at htail
      rw [inPart, inPart, List.filter_cons_of_neg (by simp [hs]),
        List.filter_cons_of_pos (by simp [hs])]
      exact congrArg₂ _ hnone (congrArg _ htail)

/-- Where no statement occurs twice, a statement is known by its text. -/
theorem eq_of_map_snd_eq {a b : List (Option Part × String)} (hsub : a ⊆ b)
    (hnodup : (b.map (·.2)).Nodup) (h : a.map (·.2) = b.map (·.2)) : a = b := by
  have hlength : a.length = b.length := by simpa using congrArg List.length h
  refine List.ext_getElem hlength fun i hi hi' => ?_
  refine List.inj_on_of_nodup_map hnodup (hsub (List.getElem_mem hi)) (List.getElem_mem hi') ?_
  have hget := List.getElem_of_eq h (i := i) (by simpa using hi)
  simpa using hget

/-- The statements of a text, each with the part that the cut puts its line into. -/
def markedLines (source : String) : List (Option Part × String) :=
  marked .outside false (split '\n' source)

/-- The cut and the reader agree about the sections of a text. -/
def IsSteady (source : String) : Prop :=
  Steady .outside false (split '\n' source)

instance (source : String) : Decidable (IsSteady source) :=
  inferInstanceAs (Decidable (Steady ..))

theorem programLines_eq_map (source : String) :
    programLines source = (markedLines source).map (·.2) := by
  rw [programLines_eq, markedLines, map_snd_marked]

/-- Where the cut and the reader agree, arranging moves whole statements. -/
theorem programLines_arrangeSections_of_steady {source : String} (h : IsSteady source) :
    programLines (Cli.arrangeSections source) =
      (inPart .vars (markedLines source) ++ inPart .program (markedLines source)).map (·.2) := by
  obtain ⟨hvars, hinside⟩ := statements_vars h
  rw [programLines_arrangeSections, partLines, hvars, hinside, partLines, statements_program h,
    List.map_append, markedLines]

theorem logic_readProgram (preserved : Table String Exchange.Preserved) (source : String) :
    (Exchange.readProgram preserved source).logic = programLines source :=
  rfl

/-- The program of an arranged text: the statements of the lines with which the cut fills the
sections, then those of the others.  Where cut and reader agree about the sections, these are the
statements of the text in their order if none is dropped and those of the sections come first;
and only then, if no statement occurs twice. -/
theorem logic_of_arranged (source : String) :
    (Exchange.readProgram Table.empty (Cli.arrangeSections source)).logic =
        statements false (partLines .vars source) ++
          statements (insideAfter false (partLines .vars source)) (partLines .program source) ∧
      (IsSteady source →
        let arranged := Exchange.readProgram Table.empty (Cli.arrangeSections source)
        let plain := Exchange.readProgram Table.empty source
        (InOrder (markedLines source) → arranged.logic = plain.logic) ∧
          (plain.logic.Nodup → arranged.logic = plain.logic → InOrder (markedLines source))) := by
  simp only [logic_readProgram]
  refine ⟨programLines_arrangeSections source, fun hsteady => ?_⟩
  rw [programLines_arrangeSections_of_steady hsteady, programLines_eq_map]
  refine ⟨fun horder => ?_, fun hnodup heq => ?_⟩
  · rw [inPart_append_of_inOrder horder]
  · have hsub : inPart .vars (markedLines source) ++ inPart .program (markedLines source) ⊆
        markedLines source :=
      List.append_subset.2 ⟨List.filter_sublist.subset, List.filter_sublist.subset⟩
    exact eq_of_map_snd_eq hsub hnodup heq ▸ inOrder_append _

/-- A program with one section. -/
def tankSource : String :=
  "PROGRAM Tank\nVAR\n  Level : DINT;\nEND_VAR\n  Level := 1; // start\nEND_PROGRAM"

/-- A program whose second statement holds the letters of a section mark. -/
def varianceSource : String :=
  "VAR\nLevel : DINT;\nEND_VAR\nLevel := 1;\nVARIANCE := 2;"

theorem logic_of_arranged_tankSource :
    (IsSteady tankSource ∧ InOrder (markedLines tankSource) ∧
      (Exchange.readProgram Table.empty (Cli.arrangeSections tankSource)).logic =
        ["PROGRAM Tank", "Level := 1;", "END_PROGRAM"]) ∧
    (IsSteady varianceSource ∧ ¬ InOrder (markedLines varianceSource) ∧
      (Exchange.readProgram Table.empty (Cli.arrangeSections varianceSource)).logic ≠
        (Exchange.readProgram Table.empty varianceSource).logic) := by
  have htank : IsSteady tankSource := by decide +kernel
  have horder : InOrder (markedLines tankSource) := by decide +kernel
  have hplain : (Exchange.readProgram Table.empty tankSource).logic =
      ["PROGRAM Tank", "Level := 1;", "END_PROGRAM"] := by decide +kernel
  have hvariance : IsSteady varianceSource := by decide +kernel
  have hdisorder : ¬ InOrder (markedLines varianceSource) := by decide +kernel
  refine ⟨⟨htank, horder, ?_⟩, hvariance, hdisorder, fun heq => hdisorder ?_⟩
  · exact (((logic_of_arranged tankSource).2 htank).1 horder).trans hplain
  · exact ((logic_of_arranged varianceSource).2 hvariance).2 (by decide +kernel) heq

/-- The order of a program is lost: a statement that holds the letters of a section mark is put
before the others. -/
theorem statement_moved_before :
    (Exchange.readProgram Table.empty (Cli.arrangeSections varianceSource)).logic =
        ["VARIANCE := 2;", "Level := 1;"] ∧
      (Exchange.readProgram Table.empty varianceSource).logic =
        ["Level := 1;", "VARIANCE := 2;"] := by
  decide +kernel

end ControlLogic.StructuredText
