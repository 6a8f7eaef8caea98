import ControlLogic.Fault
import ControlLogic.StructuredText.Reserved
import ControlLogic.Text.Blank
import ControlLogic.Text.Pattern

/-!
# Rewriting lines

Changes that are made to single lines of Structured Text.
-/

namespace ControlLogic.StructuredText

open Text

/-- The text without surrounding blanks, and with single spaces inside. -/
def tidy (line : String) : String := collapseBlanks (strip line)

/-- The operators that stand between spaces, in the order in which they are spaced. -/
def operators : List String :=
  ["<=", ">=", "=", "<>", "<", ">", "NOT", "AND", "&", "XOR", "OR",
    "-", "+", "**", "*", "/", "MOD"]

/-- The line with spaces around every operator. -/
def spaceOperators (line : String) : String :=
  collapseBlanks (operators.foldl (fun l op => Text.replace op (" " ++ op ++ " ") l) (tidy line))

/-- A duration with its number and unit. -/
def duration : Pattern :=
  .all [.text "T#", .group 1 .decimals, .group 2 (.among "mshd")]

/-- The first duration of a line, indented; a line without one stays as it is. -/
def durationLine (tab line : String) : String :=
  match duration.find? line with
  | some m => tab ++ m.group 1 ++ m.group 2
  | none => line

/-- A member access. -/
def memberAccess : Pattern :=
  .all [.group 1 .word, .text ".", .group 2 .word]

/-- The line with the owner of every member access replaced by a common helper. -/
def replaceBitAccesses (line : String) : String :=
  memberAccess.substitute (fun m => "bit_access_helper." ++ m.group 2) line

/-- A call with its operands up to the first closing parenthesis. -/
def callPattern : Pattern :=
  .all [.group 1 .word, .blanks, .text "(", .group 2 (.star (.except ")")), .text ")"]

/-- The line with calls of the timer renamed. -/
def replaceTimerCalls (line : String) : String :=
  callPattern.substitute (fun m =>
    if Text.upper (m.group 1) = "TON" then m.group 1 ++ "_TIMER(" ++ m.group 2 ++ ")"
    else String.ofList m.text) line

/-- The name and the operands of a call at the beginning of a text; a text that begins
otherwise counts as a name. -/
def readCall (text : String) : String × List String :=
  match callPattern.matchStart? text with
  | some m => (m.group 1, ((Text.split ',' (m.group 2)).map strip).filter (· ≠ ""))
  | none => (text, [])

/-- The tokens with a decimal point put to every whole number to the right of the operator;
`due` holds after the operator and `first` at the first token. -/
def widenFrom (op : String) (due first : Bool) : List String → List String
  | [] => []
  | t :: rest =>
    (if due && isDigits t then t ++ ".0" else t) :: widenFrom op (t = op && !first) false rest

/-- The tokens of an expression with whole numbers to the right of an arithmetic operator
written with a decimal point. -/
def widenOperands (op : String) (tokens : List String) : List String :=
  if ["+", "-", "*", "/"].contains op then widenFrom op false true tokens else tokens

/-- An assignment of a whole number. -/
def wholeAssignment : Pattern :=
  .all [.group 1 .word, .blanks, .text ":=", .blanks, .group 2 .decimals]

/-- The line with a decimal point put to every assigned whole number. -/
def widenAssignments (line : String) : String :=
  wholeAssignment.substitute (fun m => m.group 1 ++ " := " ++ m.group 2 ++ ".0") line

/-- The indentation without a last tabulator. -/
def dropTab (tab : String) : String :=
  if Text.endsWith "\t" tab then Text.dropLast 1 tab else tab

/-- Operands of a call; operands of type `BOOL` are tested. -/
def callOperands (operands type : String) : String :=
  if operands = "" then ""
  else Text.join ", " ((Text.split ',' operands).map fun p =>
    if type = "BOOL" then "(" ++ strip p ++ " = 1)" else strip p)

/-! ## Renaming -/

/-- A part of a replacement text. -/
inductive TemplatePart where
  | char (c : Char)
  /-- The whole match. -/
  | whole

/-- The control character of an escape. -/
def escapeChar? : Char → Option Char
  | 'a' => some (Char.ofNat 7)
  | 'b' => some (Char.ofNat 8)
  | 'f' => some (Char.ofNat 12)
  | 'n' => some '\n'
  | 'r' => some '\r'
  | 't' => some '\t'
  | 'v' => some (Char.ofNat 11)
  | '\\' => some '\\'
  | _ => none

/-- Whether a character is an octal digit. -/
def isOctal (c : Char) : Bool := '0' ≤ c && c ≤ '7'

/-- The character of an octal number. -/
def octalChar (digits : List Char) : Char :=
  Char.ofNat ((digits.foldl (fun n d => n * 8 + (d.toNat - 48)) 0) % 256)

/-- Reads a replacement text.  A backslash starts an escape; of the references only the one
to the whole match means something. -/
def readTemplate : Nat → List Char → Except Fault (List TemplatePart)
  | _, [] => .ok []
  | 0, _ => .error .badTemplate
  | fuel + 1, '\\' :: rest =>
    match rest with
    | [] => .error .badTemplate
    | 'g' :: '<' :: '0' :: '>' :: more => return .whole :: (← readTemplate fuel more)
    | c :: more =>
      if c = '0' then do
        let digits := (more.take 2).takeWhile isOctal
        return .char (octalChar digits) :: (← readTemplate fuel (more.drop digits.length))
      else if c.isDigit then
        let digits := (rest.take 3)
        if digits.length = 3 ∧ digits.all isOctal ∧ c ≤ '3' then do
          return .char (octalChar digits) :: (← readTemplate fuel (rest.drop 3))
        else .error .badTemplate
      else
        match escapeChar? c with
        | some x => return .char x :: (← readTemplate fuel more)
        | none =>
          if c.isAlpha then .error .badTemplate
          else return .char '\\' :: .char c :: (← readTemplate fuel more)
  | fuel + 1, c :: rest => return .char c :: (← readTemplate fuel rest)

/-- The replacement of one match. -/
def fillTemplate (parts : List TemplatePart) (found : List Char) : String :=
  String.ofList (parts.flatMap fun
    | .char c => [c]
    | .whole => found)

/-- The line with names replaced where they stand between word edges, one after the other. -/
def renameVariables : List (String × String) → String → Except Fault String
  | [], line => .ok line
  | (old, new) :: rest, line => do
    let parts ← readTemplate (new.toList.length + 1) new.toList
    let p := Pattern.all [.edge, .text old, .edge]
    renameVariables rest (p.substitute (fun m => fillTemplate parts m.text) line)

end ControlLogic.StructuredText
