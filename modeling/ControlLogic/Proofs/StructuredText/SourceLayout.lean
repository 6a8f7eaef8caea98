import ControlLogic.Proofs.StructuredText.FirstSection
import Mathlib.Data.List.Chain

/-!
# The layout of a program

A program is made of pieces: the words that open and close a section, declarations and statements.
They stand on lines, any number on each, with blanks around them.

* `SourceLine.Spaced`: every piece is spelled as it should be, and kept apart from the next one by
  blanks or by a semicolon.
* `sourceText` is the text of lines, and `sourcePieces` are their pieces.
* `cutAt` cuts lines at the first piece of a kind, `exists_of_cutAt` says where.
* `breakKeyword?_sourceText`: a search for the word of this kind cuts the text at the same place,
  if none of the pieces before it holds the letters of the word.
-/

namespace ControlLogic.StructuredText

open Text

/-! ## Pieces -/

/-- A piece of a program. -/
inductive SourcePiece where
  /-- The word that opens a section. -/
  | opening (word : String)
  /-- The word that closes a section. -/
  | closing (word : String)
  /-- A declaration and its text. -/
  | declaration (d : Declaration) (text : String)
  /-- A statement, or what stands of it on a line. -/
  | statement (text : String)
  deriving DecidableEq

namespace SourcePiece

def text : SourcePiece → String
  | opening word => word
  | closing word => word
  | declaration _ text => text
  | statement text => text

def isOpening : SourcePiece → Bool
  | opening _ => true
  | _ => false

def isClosing : SourcePiece → Bool
  | closing _ => true
  | _ => false

theorem exists_of_isOpening {p : SourcePiece} (h : p.isOpening = true) :
    ∃ word, p = .opening word := by
  cases p with
  | opening word => exact ⟨word, rfl⟩
  | _ => cases h

theorem exists_of_isClosing {p : SourcePiece} (h : p.isClosing = true) :
    ∃ word, p = .closing word := by
  cases p with
  | closing word => exact ⟨word, rfl⟩
  | _ => cases h

/-- What a piece declares. -/
def declared : SourcePiece → List Declaration
  | declaration d _ => [d]
  | _ => []

/-- What a piece states. -/
def stated : SourcePiece → List String
  | statement text => [text]
  | _ => []

/-- The text of a piece is what it should be.  Declarations and statements do not begin with the
word for the beginning or the end of a section. -/
def Spelled : SourcePiece → Prop
  | opening word => afterKeyword? openingMark word.toList = some []
  | closing word => afterKeyword? closingMark word.toList = some []
  | declaration d text => Spells d text.toList ∧ '\n' ∉ text.toList ∧
      startsWithWord "VAR" text = false ∧ startsWithWord "END_VAR" text = false
  | statement text => HasEnds text.toList ∧ '\n' ∉ text.toList ∧
      startsWithWord "VAR" text = false ∧ startsWithWord "END_VAR" text = false

end SourcePiece

/-- A piece with the blanks before it. -/
structure PlacedPiece where
  gap : String
  piece : SourcePiece

namespace PlacedPiece

def chars (p : PlacedPiece) : List Char := p.gap.toList ++ p.piece.text.toList

/-- A piece can follow another on its line: blanks stand between them, or the first ends with a
semicolon. -/
def Follows (p q : PlacedPiece) : Prop :=
  q.gap ≠ "" ∨ p.piece.text.toList.getLast? = some ';'

end PlacedPiece

/-- A line of pieces, and the blanks at its end. -/
structure SourceLine where
  placed : List PlacedPiece
  trail : String

/-- Blanks within a line. -/
def IsGap (g : String) : Prop := AllBlank g.toList ∧ '\n' ∉ g.toList

namespace SourceLine

variable (line : SourceLine)

def text : String :=
  String.ofList (line.placed.flatMap PlacedPiece.chars ++ line.trail.toList)

def pieces : List SourcePiece := line.placed.map (·.piece)

/-- The line without the blanks around it. -/
def body : String :=
  match line.placed with
  | [] => ""
  | p :: rest => p.piece.text ++ String.ofList (rest.flatMap PlacedPiece.chars)

/-- What is declared on the line. -/
def declared : List Declaration := line.pieces.flatMap SourcePiece.declared

/-- What is stated on the line. -/
def stated : List String := line.pieces.flatMap SourcePiece.stated

/-- The pieces of the line are spelled as they should be, with blanks around them. -/
structure Spaced : Prop where
  gap : ∀ p ∈ line.placed, IsGap p.gap
  trail : IsGap line.trail
  follows : line.placed.IsChain PlacedPiece.Follows
  spelled : ∀ p ∈ line.placed, p.piece.Spelled

end SourceLine

/-- The text of lines. -/
def sourceText (lines : List SourceLine) : String :=
  join "\n" (lines.map SourceLine.text)

/-- The pieces of lines. -/
def sourcePieces (lines : List SourceLine) : List SourcePiece :=
  lines.flatMap SourceLine.pieces

@[simp]
theorem sourcePieces_cons (line : SourceLine) (rest : List SourceLine) :
    sourcePieces (line :: rest) = line.pieces ++ sourcePieces rest :=
  List.flatMap_cons

@[simp]
theorem sourcePieces_append (a b : List SourceLine) :
    sourcePieces (a ++ b) = sourcePieces a ++ sourcePieces b :=
  List.flatMap_append

/-! ## Texts of pieces -/

theorem hasEnds_of_forall {s : List Char} (hne : s ≠ []) (hs : ∀ c ∈ s, isBlank c = false) :
    HasEnds s := by
  refine ⟨?_, ?_⟩
  · obtain ⟨x, t, rfl⟩ := List.exists_cons_of_ne_nil hne
    exact ⟨x, rfl, hs x List.mem_cons_self⟩
  · exact ⟨s.getLast hne, List.getLast?_eq_getLast_of_ne_nil hne, hs _ (List.getLast_mem hne)⟩

theorem SpellsEnd.getLast? {initial : Option String} {e : List Char} (h : SpellsEnd initial e) :
    e.getLast? = some ';' := by
  cases h <;> simp only [List.getLast?_append, List.getLast?_singleton, Option.some_or]

theorem Spells.getLast? {d : Declaration} {s : List Char} (h : Spells d s) :
    s.getLast? = some ';' := by
  cases h with
  | plain _ _ _ _ he => simp only [List.getLast?_append, he.getLast?, Option.some_or]
  | array _ _ _ _ _ _ _ _ _ _ _ he => simp only [List.getLast?_append, he.getLast?, Option.some_or]

/-- A declaration begins with its name. -/
theorem Spells.head? {d : Declaration} {s : List Char} (h : Spells d s) :
    ∃ x ∈ s.head?, isWordChar x = true := by
  cases h with
  | plain hname =>
    obtain ⟨x, t, ht⟩ := List.exists_cons_of_ne_nil (l := String.toList _) (by simpa using hname.1)
    exact ⟨x, by simp [ht], hname.2 x (ht ▸ List.mem_cons_self)⟩
  | array hname =>
    obtain ⟨x, t, ht⟩ := List.exists_cons_of_ne_nil (l := String.toList _) (by simpa using hname.1)
    exact ⟨x, by simp [ht], hname.2 x (ht ▸ List.mem_cons_self)⟩

/-- A keyword holds no blank. -/
theorem hasEnds_of_keyword {k s : List Char} (hk : k ≠ []) (hletters : k ⊆ keywordLetters)
    (h : afterKeyword? k s = some []) : HasEnds s ∧ '\n' ∉ s := by
  have hblank := isBlank_of_afterKeyword? hletters h
  refine ⟨hasEnds_of_forall ?_ hblank, fun hmem => absurd (hblank _ hmem) (by decide)⟩
  rintro rfl
  obtain ⟨x, k, rfl⟩ := List.exists_cons_of_ne_nil hk
  cases h

theorem openingMark_subset : openingMark ⊆ keywordLetters := by decide

theorem closingMark_subset : closingMark ⊆ keywordLetters := by decide

/-- Every piece has a text on its line. -/
theorem SourcePiece.Spelled.hasEnds {p : SourcePiece} (h : p.Spelled) :
    HasEnds p.text.toList ∧ '\n' ∉ p.text.toList := by
  cases p with
  | opening word => exact hasEnds_of_keyword openingMark_ne_nil openingMark_subset h
  | closing word => exact hasEnds_of_keyword closingMark_ne_nil closingMark_subset h
  | declaration d text =>
    obtain ⟨x, hx, hword⟩ := h.1.head?
    exact ⟨⟨⟨x, hx, isBlank_of_isWordChar hword⟩, ';', h.1.getLast?, by decide⟩, h.2.1⟩
  | statement text => exact ⟨h.1, h.2.1⟩

section Placed

variable {p : PlacedPiece} {ps qs : List PlacedPiece} {k t : List Char}

/-- Every piece of a line is apart from the rest of it. -/
theorem apart_of_isChain (hchain : (p :: ps).IsChain PlacedPiece.Follows)
    (hgap : ∀ q ∈ ps, IsGap q.gap) (ht : ∀ x ∈ t.head?, isSeparator x = true) :
    Apart p.piece.text.toList (ps.flatMap PlacedPiece.chars ++ t) := by
  cases ps with
  | nil => exact .inl ht
  | cons q qs =>
    rcases (List.isChain_cons_cons.1 hchain).1 with hne | hlast
    · refine .inl fun x hx => ?_
      obtain ⟨y, g, hg⟩ := List.exists_cons_of_ne_nil (l := q.gap.toList) (by simpa using hne)
      have hblank : isBlank y = true := (hgap q List.mem_cons_self).1 y (hg ▸ List.mem_cons_self)
      have hxy : x = y := by simpa [PlacedPiece.chars, hg] using hx.symm
      simp [isSeparator, hxy, hblank]
    · exact .inr ⟨';', hlast, by decide⟩

/-- Pieces that lack a keyword are passed by. -/
theorem passes_placed (hk : k ≠ []) (hletters : k ⊆ keywordLetters)
    (hchain : (ps ++ qs).IsChain PlacedPiece.Follows) (hgap : ∀ q ∈ ps ++ qs, IsGap q.gap)
    (ht : ∀ x ∈ t.head?, isSeparator x = true)
    (hlacks : ∀ q ∈ ps, Lacks k q.piece.text.toList) :
    Passes k (ps.flatMap PlacedPiece.chars) (qs.flatMap PlacedPiece.chars ++ t) := by
  induction ps with
  | nil => exact passes_nil k _
  | cons p ps ih =>
    obtain ⟨hp, hps⟩ := List.forall_mem_cons.1 hlacks
    obtain ⟨hgapp, hgaps⟩ := List.forall_mem_cons.1 hgap
    have hrest := ih hchain.tail hgaps hps
    have happart : Apart p.piece.text.toList
        (ps.flatMap PlacedPiece.chars ++ (qs.flatMap PlacedPiece.chars ++ t)) := by
      rw [← List.append_assoc, ← List.flatMap_append]
      exact apart_of_isChain hchain hgaps ht
    rw [List.flatMap_cons, PlacedPiece.chars]
    exact ((passes_of_allBlank hk hletters hgapp.1 _).append
      (passes_of_lacks hk hletters hp happart)).append hrest

end Placed

/-! ## Cutting at a piece -/

/-- The lines before the first piece of a kind, and the lines behind it. -/
def cutAt (m : SourcePiece → Bool) :
    List SourceLine → Option (List SourceLine × List SourceLine)
  | [] => none
  | line :: rest =>
    match line.placed.dropWhile fun p => !m p.piece with
    | [] => (cutAt m rest).map fun r => (line :: r.1, r.2)
    | mark :: after =>
      some ([⟨line.placed.takeWhile fun p => !m p.piece, mark.gap⟩], ⟨after, line.trail⟩ :: rest)

/-- The lines before the first piece of a kind, or all lines if there is none. -/
def upTo (m : SourcePiece → Bool) (lines : List SourceLine) : List SourceLine :=
  ((cutAt m lines).map (·.1)).getD lines

section Cut

variable {m : SourcePiece → Bool} {line : SourceLine} {rest lines a b : List SourceLine}

theorem upTo_cons_of_eq
    (h : cutAt m (line :: rest) = (cutAt m rest).map fun r => (line :: r.1, r.2)) :
    upTo m (line :: rest) = line :: upTo m rest := by
  rw [upTo, h, upTo]
  cases cutAt m rest <;> rfl

/-- A line either has no piece of the kind and is passed, or is cut at the first. -/
theorem cutAt_cons (m : SourcePiece → Bool) (line : SourceLine) (rest : List SourceLine) :
    ((∀ p ∈ line.placed, m p.piece = false) ∧
      cutAt m (line :: rest) = (cutAt m rest).map fun r => (line :: r.1, r.2)) ∨
    ∃ ps mark after, line.placed = ps ++ mark :: after ∧ (∀ p ∈ ps, m p.piece = false) ∧
      m mark.piece = true ∧
      cutAt m (line :: rest) = some ([⟨ps, mark.gap⟩], ⟨after, line.trail⟩ :: rest) := by
  cases hdrop : line.placed.dropWhile fun p => !m p.piece with
  | nil =>
    refine .inl ⟨fun p hp => ?_, by rw [cutAt, hdrop]⟩
    simpa using List.dropWhile_eq_nil_iff.1 hdrop p hp
  | cons mark after =>
    have hmark := List.head?_dropWhile_not (fun p => !m p.piece) line.placed
    rw [hdrop] at hmark
    refine .inr ⟨line.placed.takeWhile fun p => !m p.piece, mark, after, ?_, fun p hp => ?_,
      by simpa using hmark, by rw [cutAt, hdrop]⟩
    · rw [← hdrop, List.takeWhile_append_dropWhile]
    · simpa using List.mem_takeWhile_imp hp

/-- A cut goes through one line. -/
theorem exists_of_cutAt (h : cutAt m lines = some (a, b)) :
    ∃ before line after ps mark qs, lines = before ++ line :: after ∧
      line.placed = ps ++ mark :: qs ∧ a = before ++ [⟨ps, mark.gap⟩] ∧
      b = ⟨qs, line.trail⟩ :: after ∧ m mark.piece = true ∧ ∀ q ∈ sourcePieces a, m q = false := by
  induction lines generalizing a with
  | nil => cases h
  | cons line rest ih =>
    rcases cutAt_cons m line rest with ⟨hno, hcut⟩ | ⟨ps, mark, qs, hplaced, hps, hmark, hcut⟩
    · rw [hcut] at h
      obtain ⟨⟨a', b'⟩, hrest, heq⟩ := Option.map_eq_some_iff.1 h
      cases heq
      obtain ⟨before, line', after, ps, mark, qs, rfl, hplaced, rfl, hb, hmark, hbefore⟩ := ih hrest
      refine ⟨line :: before, line', after, ps, mark, qs, rfl, hplaced, rfl, hb, hmark, ?_⟩
      rw [sourcePieces_cons, List.forall_mem_append]
      exact ⟨List.forall_mem_map.2 hno, hbefore⟩
    · rw [hcut] at h
      cases h
      refine ⟨[], line, rest, ps, mark, qs, rfl, hplaced, rfl, rfl, hmark, ?_⟩
      rw [sourcePieces_cons, List.forall_mem_append]
      exact ⟨List.forall_mem_map.2 hps, List.forall_mem_nil _⟩

theorem forall_of_cutAt_eq_none (h : cutAt m lines = none) :
    ∀ q ∈ sourcePieces lines, m q = false := by
  induction lines with
  | nil => exact List.forall_mem_nil _
  | cons line rest ih =>
    rcases cutAt_cons m line rest with ⟨hno, hcut⟩ | ⟨ps, mark, qs, -, -, -, hcut⟩
    · rw [hcut, Option.map_eq_none_iff] at h
      rw [sourcePieces_cons, List.forall_mem_append]
      exact ⟨List.forall_mem_map.2 hno, ih h⟩
    · rw [hcut] at h
      cases h

/-- A cut leaves the pieces before and behind the first of the kind. -/
theorem sourcePieces_of_cutAt (h : cutAt m lines = some (a, b)) :
    ∃ p, m p = true ∧ sourcePieces lines = sourcePieces a ++ p :: sourcePieces b ∧
      ∀ q ∈ sourcePieces a, m q = false := by
  obtain ⟨before, line, after, ps, mark, qs, rfl, hplaced, rfl, rfl, hmark, hbefore⟩ :=
    exists_of_cutAt h
  refine ⟨mark.piece, hmark, ?_, hbefore⟩
  simp [SourceLine.pieces, hplaced, sourcePieces]

/-- A cut leaves lines that are spaced. -/
theorem spaced_of_cutAt (hlines : ∀ line ∈ lines, line.Spaced) (h : cutAt m lines = some (a, b)) :
    (∀ line ∈ a, line.Spaced) ∧ ∀ line ∈ b, line.Spaced := by
  obtain ⟨before, line, after, ps, mark, qs, rfl, hplaced, rfl, rfl, -, -⟩ := exists_of_cutAt h
  rw [List.forall_mem_append, List.forall_mem_cons] at hlines
  obtain ⟨hbefore, ⟨hgap, htrail, hfollows, hspelled⟩, hafter⟩ := hlines
  rw [hplaced] at hgap hfollows hspelled
  rw [List.forall_mem_append, List.forall_mem_cons] at hgap hspelled
  constructor
  · rw [List.forall_mem_append, List.forall_mem_singleton]
    exact ⟨hbefore, hgap.1, hgap.2.1, hfollows.left_of_append, hspelled.1⟩
  · rw [List.forall_mem_cons]
    exact ⟨⟨hgap.2.2, htrail, hfollows.right_of_append.tail, hspelled.2.2⟩, hafter⟩

end Cut

/-! ## Where keywords are found -/

/-- What stands behind a line in the text. -/
def followingText : List SourceLine → List Char
  | [] => []
  | line :: rest => '\n' :: (sourceText (line :: rest)).toList

theorem followingText_of_ne_nil {rest : List SourceLine} (h : rest ≠ []) :
    followingText rest = '\n' :: (sourceText rest).toList := by
  obtain ⟨line, rest, rfl⟩ := List.exists_cons_of_ne_nil h
  rfl

theorem toList_sourceText_cons (line : SourceLine) (rest : List SourceLine) :
    (sourceText (line :: rest)).toList = line.placed.flatMap PlacedPiece.chars ++
      (line.trail.toList ++ followingText rest) := by
  cases rest with
  | nil => simp [sourceText, followingText, SourceLine.text]
  | cons next rest =>
    rw [sourceText, List.map_cons, toList_join_cons _ (by simp), SourceLine.text,
      String.toList_ofList, List.append_assoc]
    rfl

theorem isSeparator_of_head? {line : SourceLine} (h : line.Spaced) (rest : List SourceLine) :
    ∀ x ∈ (line.trail.toList ++ followingText rest).head?, isSeparator x = true := by
  intro x hx
  cases htrail : line.trail.toList with
  | nil =>
    rw [htrail, List.nil_append] at hx
    cases rest with
    | nil => cases hx
    | cons next rest =>
      cases hx
      decide
  | cons y t =>
    rw [htrail] at hx
    cases hx
    have hblank := h.trail.1 x (htrail ▸ List.mem_cons_self)
    simp [isSeparator, hblank]

section Search

variable {k : List Char} {m : SourcePiece → Bool} {line : SourceLine} {rest lines : List SourceLine}

/-- A line whose pieces lack the keyword is passed by. -/
theorem passes_line (hk : k ≠ []) (hletters : k ⊆ keywordLetters) (hline : line.Spaced)
    (hlacks : ∀ p ∈ line.pieces, Lacks k p.text.toList) (rest : List SourceLine) :
    Passes k (line.placed.flatMap PlacedPiece.chars ++ line.trail.toList) (followingText rest) := by
  refine Passes.append ?_ (passes_of_allBlank hk hletters hline.trail.1 _)
  have hfollows : (line.placed ++ []).IsChain PlacedPiece.Follows := by
    simpa using hline.follows
  exact passes_placed hk hletters hfollows (by simpa using hline.gap)
    (isSeparator_of_head? hline rest) fun q hq => hlacks _ (List.mem_map_of_mem hq)

theorem breakKeyword?_followingText (hk : k ≠ []) (hletters : k ⊆ keywordLetters)
    (rest : List SourceLine) :
    breakKeyword? k (followingText rest) =
      (breakKeyword? k (sourceText rest).toList).map fun r => ('\n' :: r.1, r.2) := by
  cases rest with
  | nil =>
    obtain ⟨x, k, rfl⟩ := List.exists_cons_of_ne_nil hk
    rfl
  | cons line rest => exact passes_singleton hk (separates_of_isBlank (by decide) hletters) _

/-- Within a line the keyword is found where a piece spells it. -/
theorem breakKeyword?_mark (hk : k ≠ []) (hletters : k ⊆ keywordLetters) (hline : line.Spaced)
    {ps qs : List PlacedPiece} {mark : PlacedPiece} (hplaced : line.placed = ps ++ mark :: qs)
    (hlacks : ∀ p ∈ ps, Lacks k p.piece.text.toList)
    (hmark : afterKeyword? k mark.piece.text.toList = some []) (rest : List SourceLine) :
    breakKeyword? k (sourceText (line :: rest)).toList =
      some ((sourceText [⟨ps, mark.gap⟩]).toList,
        (sourceText (⟨qs, line.trail⟩ :: rest)).toList) := by
  have hgap := hline.gap
  have hps : Passes k (ps.flatMap PlacedPiece.chars)
      ((mark :: qs).flatMap PlacedPiece.chars ++ (line.trail.toList ++ followingText rest)) :=
    passes_placed hk hletters (hplaced ▸ hline.follows) (hplaced ▸ hgap)
      (isSeparator_of_head? hline rest) hlacks
  rw [hplaced] at hgap
  have hblank := passes_of_allBlank hk hletters (hgap mark (by simp)).1
    (mark.piece.text.toList ++ (qs.flatMap PlacedPiece.chars ++
      (line.trail.toList ++ followingText rest)))
  have hfound := breakKeyword?_spelled hk hmark
    (qs.flatMap PlacedPiece.chars ++ (line.trail.toList ++ followingText rest))
  rw [Passes, hfound, Option.map_some, List.append_nil] at hblank
  rw [Passes, List.flatMap_cons, PlacedPiece.chars, List.append_assoc, List.append_assoc, hblank,
    Option.map_some] at hps
  rw [toList_sourceText_cons, toList_sourceText_cons, toList_sourceText_cons, hplaced,
    List.flatMap_append, List.flatMap_cons, PlacedPiece.chars, List.append_assoc, List.append_assoc,
    List.append_assoc, hps, followingText, List.append_nil]

/-- The first keyword of a text is the first piece that spells it, if the pieces before it lack the
keyword. -/
theorem breakKeyword?_sourceText (hk : k ≠ []) (hletters : k ⊆ keywordLetters)
    (hm : ∀ p : SourcePiece, m p = true → p.Spelled → afterKeyword? k p.text.toList = some [])
    (hlines : ∀ line ∈ lines, line.Spaced)
    (hlacks : ∀ p ∈ sourcePieces (upTo m lines), Lacks k p.text.toList) :
    breakKeyword? k (sourceText lines).toList =
      (cutAt m lines).map fun r => ((sourceText r.1).toList, (sourceText r.2).toList) := by
  induction lines with
  | nil =>
    obtain ⟨x, k, rfl⟩ := List.exists_cons_of_ne_nil hk
    rfl
  | cons line rest ih =>
    obtain ⟨hline, hrest⟩ := List.forall_mem_cons.1 hlines
    rcases cutAt_cons m line rest with ⟨hno, hcut⟩ | ⟨ps, mark, qs, hplaced, hps, hmark, hcut⟩
    · rw [upTo_cons_of_eq hcut, sourcePieces_cons, List.forall_mem_append] at hlacks
      have hpasses := passes_line hk hletters hline hlacks.1 rest
      rw [Passes, List.append_assoc, breakKeyword?_followingText hk hletters,
        ih hrest hlacks.2] at hpasses
      rw [toList_sourceText_cons, hpasses, hcut]
      cases hr : cutAt m rest with
      | none => rfl
      | some r =>
        obtain ⟨before, line', after, ps, mark, qs, -, -, ha, -⟩ := exists_of_cutAt hr
        have hne : r.1 ≠ [] := by
          rw [ha]
          simp
        simp only [Option.map_some, toList_sourceText_cons, followingText_of_ne_nil hne,
          List.append_assoc]
    · rw [upTo, hcut] at hlacks
      have hspelled : mark.piece.Spelled := hline.spelled mark (by rw [hplaced]; simp)
      rw [hcut, Option.map_some]
      refine breakKeyword?_mark hk hletters hline hplaced ?_ (hm _ hmark hspelled) rest
      intro p hp
      exact hlacks p.piece (by simpa [sourcePieces, SourceLine.pieces] using ⟨p, hp, rfl⟩)

end Search

end ControlLogic.StructuredText
