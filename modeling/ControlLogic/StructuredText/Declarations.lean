import ControlLogic.Text.Basic
import ControlLogic.Text.Keyword
import ControlLogic.Text.Pattern

/-!
# Variable declarations

The variables that a program declares in its first variable section, one declaration a
line: a name, a type or an array of a type, and maybe an initial value.
-/

namespace ControlLogic.StructuredText

open Text

/-- A declaration. -/
structure Declaration where
  name : String
  type : String
  /-- The range of an array. -/
  range : Option String
  /-- The initial value, when one is written. -/
  initial : Option String
  deriving DecidableEq

/-- The text of the first variable section. -/
def variableSection? (source : List Char) : Option (List Char) := do
  let (_, after) ← breakKeyword? "VAR".toList source
  let (body, _) ← breakKeyword? "END_VAR".toList (after.dropWhile isBlank)
  some body

/-- An initial value after a declaration. -/
def initialValue (n : Nat) : Pattern :=
  .optional (.all [.text ":=", .blanks, .group n (.plus (.except ";"))])

/-- The declaration of an array. -/
def arrayDeclaration : Pattern :=
  .all [.group 1 .word, .blanks, .text ":", .blanks, .keyword "ARRAY", .blanks, .text "[",
    .group 2 (.lazy .inLine), .text "]", .blanks, .keyword "OF", .blanks, .group 3 .word, .blanks,
    initialValue 4, .text ";"]

/-- The declaration of a plain variable. -/
def plainDeclaration : Pattern :=
  .all [.group 1 .word, .blanks, .text ":", .blanks,
    .group 2 (.plus (.one fun c => isWordChar c || c = '[' || c = ']' || c = '.')), .blanks,
    initialValue 3, .text ";"]

/-- Reads the declaration of a line. -/
def readDeclaration? (line : String) : Option Declaration :=
  match arrayDeclaration.matchStart? line with
  | some m => some ⟨m.group 1, m.group 3, some (m.group 2), (m.group? 4).map strip⟩
  | none =>
    (plainDeclaration.matchStart? line).map fun m =>
      ⟨m.group 1, m.group 2, none, (m.group? 3).map strip⟩

/-- Whether a line of a section declares nothing: it is empty or begins with a comment. -/
def isIdleLine (line : String) : Bool :=
  line = "" || startsWith "//" line || startsWith "(*" line

/-- The declarations of the first variable section, in order. -/
def declarations (source : String) : List Declaration :=
  match variableSection? source.toList with
  | none => []
  | some body =>
    (((List.splitOn '\n' body).map (strip ∘ String.ofList)).filter (!isIdleLine ·)).filterMap
      readDeclaration?

/-- The types that every program knows. -/
def basicTypes : List String :=
  ["BOOL", "SINT", "INT", "DINT", "LINT", "USINT", "UINT", "UDINT", "ULINT", "REAL", "LREAL",
    "STRING", "TIME", "DATE", "TOD", "DT"]

end ControlLogic.StructuredText
