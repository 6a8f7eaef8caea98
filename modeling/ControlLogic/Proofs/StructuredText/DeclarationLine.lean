import ControlLogic.Proofs.StructuredText.Declarations
import ControlLogic.Proofs.StructuredText.SpelledDeclaration
import Mathlib.Data.List.TakeDrop
import Mathlib.Data.List.TakeWhile

/-!
# Written declarations

A declaration that is written with a word for its name and a word for its type is read again:
`readDeclaration?_written`.  Its initial value may be any text, and is read up to the first
semicolon.

* `exists_spells_writtenDeclaration`: up to this semicolon it is a spelling of what is read.
* `readDeclaration?_eq_none`: a line without a semicolon declares nothing.
* `lineDeclarations` are the declarations of the lines of a section.
-/

namespace ControlLogic.StructuredText

open Text Pattern

/-- A declaration as it is written. -/
def writtenDeclaration (name type : String) (initial : Option String) : String :=
  name ++ " : " ++ type ++ (initial.map (" := " ++ ·)).getD "" ++ ";"

/-- The initial value that is read where `v` is written: it ends at the first semicolon. -/
def readValue (v : String) : String :=
  strip (String.ofList (v.toList.takeWhile (· ≠ ';')))

/-- The text up to the first semicolon, if one is put behind it. -/
theorem exists_takeWhile_append (v : List Char) :
    ∃ t, v ++ [';'] = v.takeWhile (· ≠ ';') ++ ';' :: t := by
  induction v with
  | nil => exact ⟨[], rfl⟩
  | cons x v ih =>
    by_cases hx : x = ';'
    · exact ⟨v ++ [';'], by simp [hx]⟩
    · obtain ⟨t, ht⟩ := ih
      exact ⟨t, by simp [hx, ht]⟩

theorem isTypeName_of_isWord {s : String} (h : IsWord s) : IsTypeName s where
  ne_empty := h.1
  isTypeChar c hc := by simp [StructuredText.isTypeChar, h.2 c hc]
  not_array t ht := by
    have hmem : '[' ∈ s.toList := (suffix_of_afterKeyword? ht).subset List.mem_cons_self
    exact absurd (h.2 _ hmem) (by decide)

/-- A declaration is written with one spelling of it, and with the rest of its value if a semicolon
stands in it. -/
theorem exists_spells_writtenDeclaration {name type : String} (initial : Option String)
    (hname : IsWord name) (htype : IsWord type) :
    ∃ s rest, (writtenDeclaration name type initial).toList = s ++ rest ∧
      Spells ⟨name, type, none, initial.map readValue⟩ s := by
  have hblank : AllBlank [' '] := by decide
  cases initial with
  | none =>
    have hend : SpellsEnd none [';'] := .plain (g := []) (by decide)
    refine ⟨_, [], ?_, .plain hname hblank hblank (isTypeName_of_isWord htype) hend⟩
    simp [writtenDeclaration]
  | some v =>
    obtain ⟨t, ht⟩ := exists_takeWhile_append v.toList
    have hvalue : ';' ∉ ' ' :: v.toList.takeWhile (· ≠ ';') := by
      intro h
      rcases List.mem_cons.1 h with h | h
      · exact absurd h (by decide)
      · simpa using List.mem_takeWhile_imp h
    have hend := SpellsEnd.value hblank (List.cons_ne_nil _ _) hvalue
    have hstrip : strip (String.ofList (' ' :: v.toList.takeWhile (· ≠ ';'))) = readValue v := by
      rw [readValue, strip, strip, String.toList_ofList, String.toList_ofList,
        ← List.singleton_append, trim_append hblank]
    rw [hstrip] at hend
    refine ⟨_, t, ?_, .plain hname hblank hblank (isTypeName_of_isWord htype) hend⟩
    have hend : (" := " ++ v ++ ";").toList = [' '] ++ (":=".toList ++
        (' ' :: v.toList.takeWhile (· ≠ ';') ++ [';'])) ++ t := by
      simp [ht]
    simpa [writtenDeclaration] using hend

/-- A written declaration is read again. -/
theorem readDeclaration?_written {name type : String} (initial : Option String)
    (hname : IsWord name) (htype : IsWord type) :
    readDeclaration? (writtenDeclaration name type initial) =
      some ⟨name, type, none, initial.map readValue⟩ := by
  obtain ⟨s, rest, hs, hspells⟩ := exists_spells_writtenDeclaration initial hname htype
  rw [← String.ofList_toList (s := writtenDeclaration name type initial), hs]
  exact readDeclaration?_of_spells hspells rest

/-- A line without a semicolon declares nothing. -/
theorem readDeclaration?_eq_none {line : String} (h : ';' ∉ line.toList) :
    readDeclaration? line = none := by
  have hnone : ∀ p : Pattern, p.Demands ';' → p.matchStart? line = none := fun p hp =>
    fails_of_not_matches (fun d hd => h (hd.mem_of_demands hp)) _
  have hsemicolon : (Pattern.text ";").Demands ';' := fun y hy => eq_of_beq hy
  have harray : arrayDeclaration.Demands ';' := by simp [arrayDeclaration, all, Demands, hsemicolon]
  have hplain : plainDeclaration.Demands ';' := by simp [plainDeclaration, all, Demands, hsemicolon]
  rw [readDeclaration?, hnone _ harray, hnone _ hplain]
  rfl

/-! ## The lines of a section -/

/-- The declarations of the lines of a section. -/
def lineDeclarations (lines : List String) : List Declaration :=
  ((lines.map strip).filter (!isIdleLine ·)).filterMap readDeclaration?

theorem declarations_of_section {source : String} {body : List Char}
    (h : variableSection? source.toList = some body) :
    declarations source = lineDeclarations ((List.splitOn '\n' body).map String.ofList) := by
  rw [declarations, h, lineDeclarations, List.map_map]

theorem lineDeclarations_append (a b : List String) :
    lineDeclarations (a ++ b) = lineDeclarations a ++ lineDeclarations b := by
  simp [lineDeclarations]

theorem lineDeclarations_flatMap {α : Type} (f : α → List String) (l : List α) :
    lineDeclarations (l.flatMap f) = l.flatMap fun a => lineDeclarations (f a) := by
  induction l with
  | nil => rfl
  | cons a l ih => rw [List.flatMap_cons, lineDeclarations_append, ih, List.flatMap_cons]

/-- Lines without semicolons declare nothing. -/
theorem lineDeclarations_eq_nil {lines : List String} (h : ∀ line ∈ lines, ';' ∉ line.toList) :
    lineDeclarations lines = [] := by
  rw [lineDeclarations, List.filterMap_eq_nil_iff]
  intro line hline
  obtain ⟨line', hline', rfl⟩ := List.mem_map.1 (List.mem_filter.1 hline).1
  exact readDeclaration?_eq_none fun hx => h line' hline' (mem_of_mem_strip hx)

/-- A text that begins and ends with no blank has none to lose. -/
theorem trim_of_ends {p : Char → Bool} {x y : Char} {s : List Char} (hx : p x = false)
    (hy : p y = false) : Chars.trim p (x :: (s ++ [y])) = x :: (s ++ [y]) := by
  rw [Chars.trim, Chars.trimLeft, List.dropWhile_cons_of_neg (by simp [hx]), Chars.trimRight]
  simp [hy]

/-- Blanks are dropped behind a character that is none. -/
theorem exists_trimRight_append {p : Char → Bool} {x : Char} (hx : p x = false)
    (s t : List Char) : ∃ t', Chars.trimRight p (s ++ x :: t) = s ++ x :: t' := by
  have hreverse : (s ++ x :: t).reverse = t.reverse ++ x :: s.reverse := by simp
  rw [Chars.trimRight, hreverse, List.dropWhile_append]
  split
  · exact ⟨[], by simp [hx]⟩
  · exact ⟨(t.reverse.dropWhile p).reverse, by simp⟩

/-- An indented declaration is read. -/
theorem lineDeclarations_written {name type : String} (initial : Option String)
    (hname : IsWord name) (htype : IsWord type) :
    lineDeclarations ["    " ++ writtenDeclaration name type initial] =
      [⟨name, type, none, initial.map readValue⟩] := by
  obtain ⟨x, s, hs⟩ := List.exists_cons_of_ne_nil (l := name.toList) (by simpa using hname.1)
  have hx : isWordChar x = true := hname.2 x (hs ▸ List.mem_cons_self)
  obtain ⟨t, ht⟩ : ∃ t, (writtenDeclaration name type initial).toList = x :: (t ++ [';']) := by
    refine ⟨s ++ " : ".toList ++ type.toList ++
      (initial.map fun v => " := ".toList ++ v.toList).getD [], ?_⟩
    cases initial <;> simp [writtenDeclaration, hs]
  have hstrip : strip ("    " ++ writtenDeclaration name type initial) =
      writtenDeclaration name type initial := by
    rw [strip, String.toList_append, trim_append (by simp; decide), ht,
      trim_of_ends (isBlank_of_isWordChar hx) (by decide), ← ht, String.ofList_toList]
  have hidle : isIdleLine (writtenDeclaration name type initial) = false := by
    have hslash : x ≠ '/' := by rintro rfl; exact absurd hx (by decide)
    have hparen : x ≠ '(' := by rintro rfl; exact absurd hx (by decide)
    have hne : writtenDeclaration name type initial ≠ "" := by
      simp [← String.toList_inj, ht]
    simp [isIdleLine, startsWith, ht, hne, List.isPrefixOf, Ne.symm hslash, Ne.symm hparen]
  simp [lineDeclarations, hstrip, hidle, readDeclaration?_written initial hname htype]

/-- An indented remark declares nothing. -/
theorem lineDeclarations_remark (text : String) :
    lineDeclarations ["    //" ++ text] = [] := by
  obtain ⟨t, ht⟩ := exists_trimRight_append (p := isBlank) (x := '/') (by decide) ['/'] text.toList
  have hstrip : (strip ("    //" ++ text)).toList = '/' :: '/' :: t := by
    have hlist : ("    //" ++ text).toList = "    ".toList ++ '/' :: '/' :: text.toList := by simp
    rw [strip, String.toList_ofList, hlist, trim_append (by simp; decide), Chars.trim,
      Chars.trimLeft, List.dropWhile_cons_of_neg (by decide)]
    exact ht
  simp [lineDeclarations, isIdleLine, startsWith, hstrip]

end ControlLogic.StructuredText
