import ControlLogic.Text.Basic
import ControlLogic.Text.Blank
import ControlLogic.Text.Case

/-!
# Lines of a routine

The analyses read a routine line by line.  Blank lines and comment lines do not count.  A line
with exactly one assignment sign is an assignment; a line that begins with `IF` has a
condition.
-/

namespace ControlLogic.Analysis

/-- The lines that count, without blanks at their ends. -/
def liveLines (content : String) : List String :=
  ((Text.split '\n' content).map Text.strip).filter fun line =>
    !Text.isEmpty line && !Text.startsWith "//" line

/-- Whether a line has an assignment sign. -/
def assigns (line : String) : Bool := Text.contains ":=" line

/-- The two sides of a line with exactly one assignment sign. -/
def assignment? (line : String) : Option (String × String) :=
  match Text.splitOn ":=" line with
  | [left, right] => some (Text.strip left, Text.trimRight (· == ';') (Text.strip right))
  | _ => none

/-- Whether a line begins with a word and a space, case aside. -/
def opensWith (word line : String) : Bool := Text.startsWith (word ++ " ") (Text.upper line)

/-- What stands after the first `n` characters, without a closing `THEN`. -/
def conditionFrom (n : Nat) (line : String) : String :=
  let condition := Text.strip (Text.drop n line)
  if Text.endsWith "THEN" condition then Text.strip (Text.dropLast 4 condition) else condition

/-- The condition of a line that begins with `IF`. -/
def ifCondition? (line : String) : Option String :=
  if opensWith "IF" line then some (conditionFrom 3 line) else none

end ControlLogic.Analysis
