import ControlLogic.Text.Basic
import ControlLogic.Text.Blank
import ControlLogic.Text.Case

/-!
# The plain reading of rungs

Here a rung is a list of instructions with semicolons between them and no branches.  Each
instruction becomes a line; one with fewer operands than it needs becomes nothing, and one
that is not known stays a call.
-/

namespace ControlLogic.Ladder.Plain

/-- An output coil, under a condition if one is given. -/
def coil (condition : String) : List String → String
  | target :: _ =>
    if condition = "" then target ++ " := 1;"
    else "IF " ++ condition ++ " THEN\n\t" ++ target ++ " := 1;\nEND_IF;"
  | [] => ""

/-- A timer, under an enabling condition if one is given. -/
def timer (enable : String) : List String → String
  | t :: preset :: elapsed :: _ =>
    if enable = "" then
      t ++ ".IN := 1; " ++ t ++ ".PT := " ++ preset ++ "; " ++ elapsed ++ " := " ++ t ++ ".ET;"
    else
      Text.join "\n" [
        "IF " ++ enable ++ " THEN",
        "    " ++ t ++ ".IN := 1;",
        "    " ++ t ++ ".PT := " ++ preset ++ ";",
        "    " ++ t ++ ".Q := " ++ t ++ ".ET >= " ++ t ++ ".PT;",
        "    " ++ elapsed ++ " := " ++ t ++ ".ET;",
        "ELSE",
        "    " ++ t ++ ".IN := 0;",
        "    " ++ t ++ ".ET := 0;",
        "    " ++ t ++ ".Q := 0;",
        "    " ++ elapsed ++ " := 0;",
        "END_IF;"]
  | _ => ""

/-- A jump to a subroutine. -/
def jump (tab : String) : List String → String
  | target :: _ => tab ++ "(*JSR to " ++ target ++ "*)"
  | [] => ""

/-- A known instruction, by its name in capitals. -/
def known? (name : String) (operands : List String) : Option String :=
  match name with
  | "EQU" => some <| match operands with
    | a :: b :: _ => a ++ " = " ++ b
    | _ => ""
  | "NEQ" => some <| match operands with
    | a :: b :: _ => a ++ " <> " ++ b
    | _ => ""
  | "XIC" => some <| match operands with
    | a :: _ => a ++ " = 1"
    | [] => ""
  | "XIO" => some <| match operands with
    | a :: _ => a ++ " = 0"
    | [] => ""
  | "OTE" => some (coil "" operands)
  | "OTL" => some (coil "" operands)
  | "OTU" => some <| match operands with
    | a :: _ => a ++ " := 0;"
    | [] => ""
  | "CLR" => some <| match operands with
    | a :: _ => a ++ " := 0;"
    | [] => ""
  | "NOP" => some "(*NOP*)"
  | "TON" => some (timer "" operands)
  | "MOV" => some <| match operands with
    | a :: b :: _ => b ++ " := " ++ a ++ ";"
    | _ => ""
  | "COP" => some <| match operands with
    | a :: b :: _ => b ++ " := " ++ a ++ ";"
    | _ => ""
  | "MSG" => some <| match operands with
    | a :: _ => "(*MSG instruction: " ++ a ++ "*)"
    | [] => ""
  | "MUL" => some <| match operands with
    | a :: b :: c :: _ => c ++ " := " ++ a ++ " * " ++ b ++ ";"
    | _ => ""
  | "GSV" => some <| match operands with
    | a :: b :: c :: d :: _ => d ++ " := " ++ a ++ "." ++ b ++ "." ++ c ++ ";"
    | _ => ""
  | "SSV" => some <| match operands with
    | a :: b :: c :: d :: _ => a ++ "." ++ b ++ "." ++ c ++ " := " ++ d ++ ";"
    | _ => ""
  | "JSR" => some (jump "" operands)
  | _ => none

/-- The line of an instruction, whatever the case of its name. -/
def instruction (name : String) (operands : List String) : String :=
  (known? (Text.upper name) operands).getD (name ++ "(" ++ Text.join ", " operands ++ ");")

/-- Calls with semicolons between them. -/
def sequence (calls : List String) : String := Text.join "; " calls

/-- The instructions of a rung. -/
def instructions (text : String) : List String :=
  ((Text.split ';' text).map Text.strip).filter (· ≠ "")

/-- The operands between the first opening and the last closing parenthesis, with the name
before them. -/
def readCall? (s : String) : Option (String × List String) :=
  let cs := s.toList
  match Text.Chars.indexOf? '(' cs, Text.Chars.lastIndexOf? ')' cs with
  | some i, some j =>
    let inner := (cs.take j).drop (i + 1)
    let operands := ((List.splitOn ',' inner).map (Text.strip ∘ String.ofList)).filter (· ≠ "")
    some (Text.strip (String.ofList (cs.take i)), operands)
  | _, _ => none

/-- The line of one piece of a rung: a call, or any other text as a statement. -/
def line? (tab piece : String) : Option String :=
  match readCall? piece with
  | some (name, operands) =>
    let line := instruction name operands
    if line = "" then none else some (tab ++ line)
  | none => some (tab ++ piece ++ ";")

/-- The lines of a rung.  A rung that speaks of messages becomes a remark. -/
def rung (tab text : String) : String :=
  let text := Text.strip text
  if Text.contains "MSG" text then tab ++ "(*MSG command commented out*)"
  else Text.join "\n" ((instructions text).filterMap (line? tab))

/-- The lines of the rungs of a routine. -/
def routine (tab : String) (rungs : List String) : String :=
  Text.join "\n" ((rungs.map (rung tab)).filter (· ≠ ""))

/-- The routines other than the main program, each under its name. -/
def routines (named : List (String × List String)) : String :=
  Text.join "\n" ((named.filter (·.1 ≠ "MainProgram")).flatMap fun (name, rungs) =>
    ["(*Routine: " ++ name ++ "*)", routine "\t" rungs])

/-- The texts of diagram elements, each on a line; `None` stands for a missing text. -/
def diagram (tab : String) (texts : List (Option String)) : String :=
  Text.join "\n" (texts.map fun t => tab ++ t.getD "None")

end ControlLogic.Ladder.Plain
