import ControlLogic.StructuredText.Reserved
import ControlLogic.Table
import ControlLogic.Text.Blank
import ControlLogic.Text.Numeral
import ControlLogic.Text.Pattern

/-!
# Names and types

How names of any form become names of Structured Text, and how the type of a written value is
told.
-/

namespace ControlLogic.StructuredText

open Text

/-- The name with every character that may not stand in a name replaced by an underscore, and with a
lead if it would begin with a digit. -/
def cleanName (name : String) : String :=
  let cs := name.toList.map fun c => if isNameChar c then c else '_'
  if cs.head?.any Char.isDigit then "var_" ++ String.ofList cs else String.ofList cs

/-- The replacement of a name that is reserved in capitals, and the clean name of any
other. -/
def safeName (name : String) : String :=
  (Table.lookup (Text.upper name) reservedWords).getD (cleanName name)

/-- The text between two marks within a line. -/
def bracketed (opening closing : String) : Pattern :=
  .all [.text opening, .lazy .inLine, .text closing]

/-- A type without its dimensions and parameters. -/
def baseType (type : String) : String :=
  let plain := (bracketed "[" "]").substitute (fun _ => "") type
  strip ((bracketed "<" ">").substitute (fun _ => "") plain)

/-- The type of a written value. -/
def valueType (value : String) : String :=
  if isNumeral value then (if Text.contains "." value then "REAL" else "INT")
  else if ["TRUE", "FALSE", "1", "0"].contains (Text.upper value) then "BOOL"
  else "STRING"

end ControlLogic.StructuredText
