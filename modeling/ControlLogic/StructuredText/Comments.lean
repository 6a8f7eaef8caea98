import ControlLogic.Text.Basic

/-!
# Comments

A remark goes from two slashes to the end of its line.  A comment goes from `(*` to the next
`*)`.
-/

namespace ControlLogic.StructuredText

/-- The line up to its first remark. -/
def cutRemark (line : List Char) : List Char :=
  match Text.Chars.breakOn? ['/', '/'] line with
  | some (before, _) => before
  | none => line

/-- The text without its comments.  A comment that is not closed stays. -/
def dropComments : List Char → List Char
  | [] => []
  | '(' :: '*' :: inner =>
    match _h : Text.Chars.breakOn? ['*', ')'] inner with
    | some (_, after) => dropComments after
    | none => '(' :: dropComments ('*' :: inner)
  | c :: rest => c :: dropComments rest
termination_by s => s.length
decreasing_by
  · have := Text.Chars.length_of_breakOn? _h
    simp only [List.length_cons]; omega
  · simp
  · simp

end ControlLogic.StructuredText
