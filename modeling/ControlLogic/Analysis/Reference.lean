import ControlLogic.Text.Basic
import ControlLogic.Text.Pattern
import ControlLogic.Text.Sorted

/-!
# References to tags

A reference is an upper case name with parts after dots and perhaps an index.  What is kept of
it is its last part, with the dot; a reference without parts keeps nothing.
-/

namespace ControlLogic.Analysis

/-- Whether `c` may begin a name. -/
def isNameStart (c : Char) : Bool := 'A' ≤ c && c ≤ 'Z'

/-- Whether `c` may go on with a name. -/
def isNamePart (c : Char) : Bool := isNameStart c || ('0' ≤ c && c ≤ '9') || c == '_'

open Text.Pattern in
/-- An upper case name. -/
def upperName : Text.Pattern := seq (one isNameStart) (star (one isNamePart))

open Text.Pattern in
/-- A reference; the first group holds the last part. -/
def reference : Text.Pattern :=
  all [edge, upperName, star (group 1 (seq (text ".") upperName)),
    optional (all [text "[", star (except "]"), text "]"]), edge]

/-- The last part of the first reference in an expression, empty if it has no parts. -/
def firstReference? (expression : String) : Option String :=
  (reference.find? expression).map (·.group 1)

/-- The last parts of the references in an expression. -/
def references (expression : String) : List String :=
  Text.ascending (((reference.findAll expression).map (·.group 1)).filter (!Text.isEmpty ·))

/-- The tag that an expression on the left of an assignment writes. -/
def target? (expression : String) : Option String :=
  (firstReference? expression).filter (!Text.isEmpty ·)

end ControlLogic.Analysis
