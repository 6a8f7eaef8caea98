import ControlLogic.StructuredText.Comments
import ControlLogic.Text.Blank
import ControlLogic.Text.Keyword

/-!
# The body of a program

The statements of a program are its lines outside the variable sections, without comments
and surrounding blanks.  `splitSections` is a coarser cut that keeps whole lines.
-/

namespace ControlLogic.StructuredText

open Text

/-- The line without comments and surrounding blanks. -/
def bareLine (line : List Char) : String :=
  strip (String.ofList (dropComments (cutRemark line)))

/-- The lines outside variable sections; `inside` holds within one. -/
def outsideSections : (inside : Bool) → List String → List String
  | _, [] => []
  | inside, line :: rest =>
    if startsWithWord "VAR" line then outsideSections true rest
    else if startsWithWord "END_VAR" line then outsideSections false rest
    else if inside || startsWith "//" line then outsideSections inside rest
    else line :: outsideSections inside rest

/-- The statements of a program, in order. -/
def programLines (source : String) : List String :=
  outsideSections false (((List.splitOn '\n' source.toList).map bareLine).filter (· ≠ ""))

/-- Where a line stands in a program. -/
inductive Place where
  | outside
  | vars
  | program
  deriving DecidableEq

/-- Lines of the variable sections and lines of the program, from a place on. -/
def sectionLines : Place → List String → List String × List String
  | _, [] => ([], [])
  | place, line :: rest =>
    let toVariables (next : Place) := let (v, p) := sectionLines next rest; (line :: v, p)
    let toProgram (next : Place) := let (v, p) := sectionLines next rest; (v, line :: p)
    if contains "VAR" line && !contains "END_VAR" line then toVariables .vars
    else if contains "END_VAR" line then
      toVariables (if place = .vars then .outside else place)
    else if contains "PROGRAM" line then toProgram .program
    else if place = .vars then toVariables place
    else if place = .program || (strip line ≠ "" && !startsWith "//" line && !startsWith "(*" line)
    then toProgram place
    else sectionLines place rest

/-- The variable sections and the program of a source. -/
def splitSections (source : String) : String × String :=
  let (v, p) := sectionLines .outside (split '\n' source)
  (join "\n" v, join "\n" p)

end ControlLogic.StructuredText
