import ControlLogic.Text.Basic

/-!
# Statements of Structured Text

The statements that ladder instructions turn into, and the tests that guard them.  `Test.text`
and `Statement.text` are their written forms.
-/

namespace ControlLogic.StructuredText

/-- How two operands are compared. -/
inductive Comparison where
  | equal
  | unequal
  | greater
  | atLeast
  | less
  | atMost
  deriving DecidableEq

/-- The sign of a comparison. -/
def Comparison.sign : Comparison → String
  | equal => "="
  | unequal => "<>"
  | greater => ">"
  | atLeast => ">="
  | less => "<"
  | atMost => "<="

/-- A test on operands. -/
inductive Test where
  /-- Every operand is a bit that is on, or every one is off. -/
  | bits (operands : List String) (on : Bool)
  /-- Two operands compare as said. -/
  | compare (left : String) (how : Comparison) (right : String)
  /-- The test that fails. -/
  | never
  deriving DecidableEq

/-- The written form of a test. -/
def Test.text : Test → String
  | bits operands on =>
    let one (p : String) := "(" ++ p ++ " = " ++ (if on then "1" else "0") ++ ")"
    "(" ++ Text.join " AND " (operands.map one) ++ ")"
  | compare left how right => "(" ++ left ++ " " ++ how.sign ++ " " ++ right ++ ")"
  | never => "(FALSE)"

/-- A statement. -/
inductive Statement where
  /-- The target takes the value. -/
  | assign (target value : String)
  /-- A function or block is called. -/
  | invoke (name : String) (arguments : List String)
  /-- A remark for the reader. -/
  | remark (words : String)
  deriving DecidableEq

/-- The written form of a statement. -/
def Statement.text : Statement → String
  | assign target value => target ++ " := " ++ value ++ ";"
  | invoke name arguments => name ++ "(" ++ Text.join ", " arguments ++ ");"
  | remark words => "// " ++ words

/-- Statements one below the other. -/
def textOf (body : List Statement) : String :=
  Text.join "\n" (body.map Statement.text)

/-- No statement is written as nothing. -/
theorem Statement.text_ne (s : Statement) : s.text.toList ≠ [] := by
  cases s <;> simp [Statement.text]

/-- Only an empty list of statements is written as nothing. -/
theorem textOf_eq_empty_iff (body : List Statement) : textOf body = "" ↔ body = [] := by
  rw [← String.toList_inj, textOf, Text.join, String.toList_ofList, List.map_map]
  rcases body with _ | ⟨s, _ | ⟨t, body⟩⟩
  · simp [Text.Chars.join]
  · simpa [Text.Chars.join] using s.text_ne
  · simp [Text.Chars.join]

end ControlLogic.StructuredText
