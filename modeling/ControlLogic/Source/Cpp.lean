import ControlLogic.Files
import ControlLogic.Project.Basic
import ControlLogic.Text.Pattern

/-!
# Control programs in C++

Calls that read inputs or set outputs and the variables of a program become tags, and its
lines are listed in one routine.
-/

namespace ControlLogic.Source.Cpp

open Text Project

/-! ## Patterns -/

/-- A call with one operand. -/
def callOfOne (name : String) : Pattern :=
  .all [.keyword name, .blanks, .text "(", .blanks, .group 1 (.plus (.except ")")), .blanks,
    .text ")"]

/-- A call without operands. -/
def callOfNone (name : String) : Pattern :=
  .all [.keyword name, .blanks, .text "(", .blanks, .text ")"]

/-- The ways to read an input. -/
def inputPatterns : List Pattern := [
  callOfOne "isSwitchPressed",
  .all [.keyword "pT->pTArea->ftX1in.uni[", .group 1 (.plus (.except "]")), .text "]"],
  callOfOne "read_sensor",
  callOfOne "get_input"]

/-- What an output statement tells. -/
inductive OutputKind where
  | motor
  | speed
  | named

/-- The ways to set an output. -/
def outputPatterns : List (OutputKind × Pattern) := [
  (.motor, callOfNone "setMotorOff"),
  (.motor, callOfNone "setMotorLeft"),
  (.motor, callOfNone "setMotorRight"),
  (.named, .all [.keyword "pT->pTArea->ftX1out.duty[", .group 1 (.plus (.except "]")), .text "]",
    .blanks, .text "=", .blanks, .group 2 (.plus (.except ";"))]),
  (.named, .all [.keyword "set_output", .blanks, .text "(", .blanks,
    .group 1 (.plus (.except ",")), .blanks, .text ",", .blanks, .group 2 (.plus (.except ")")),
    .blanks, .text ")"]),
  (.speed, callOfOne "setSpeed")]

/-- The ways to wait. -/
def sleepPatterns : List Pattern := [
  .all [.keyword "std::this_thread::sleep_for", .blanks, .text "(", .blanks,
    .keyword "std::chrono::milliseconds", .blanks, .text "(", .blanks,
    .plus (.except ")"), .blanks, .text ")", .blanks, .text ")"],
  callOfOne "sleep",
  callOfOne "time.sleep"]

/-- A statement with a condition in parentheses. -/
def conditional (name : String) : Pattern :=
  .all [.keyword name, .blanks, .text "(", .plus (.except ")"), .text ")"]

/-- The statements that direct the flow of control. -/
def flowPatterns : List Pattern := [
  conditional "if", conditional "while", conditional "for", conditional "switch",
  .all [.keyword "case", .gap, .plus (.except ":"), .text ":"],
  .all [.keyword "FSM_TRANSITION", .blanks, .text "(", .blanks, .plus (.except ","), .blanks,
    .text ",", .blanks, .star (.except ")"), .text ")"]]

/-- A name, a mark and a value. -/
def definition (lead : Pattern) (mark : String) : Pattern :=
  .all [lead, .group 1 .word, .blanks, .text mark, .blanks, .group 2 (.plus (.except ";")),
    .text ";"]

/-- The ways to define a variable. -/
def definitionPatterns : List Pattern := [
  definition .empty "=",
  definition .empty ":",
  definition (.seq (.keyword "int") .gap) "=",
  definition (.seq (.keyword "bool") .gap) "=",
  definition (.seq (.keyword "std::string") .gap) "="]

/-! ## Tags -/

/-- What a tag is for. -/
inductive Role where
  | input
  | output
  | internal
  deriving DecidableEq

/-- The name of a role. -/
def Role.name : Role → String
  | input => "input"
  | output => "output"
  | internal => "internal"

/-- A tag of a program. -/
structure Point where
  name : String
  role : Role
  dataType : String
  description : String
  initialValue : Option String

/-- A name without quotation marks. -/
def unquoted (name : String) : String :=
  String.ofList (name.toList.filter fun c => c ≠ '"' && c ≠ '\'')

/-- The inputs of a program. -/
def inputs (source : String) : List Point :=
  inputPatterns.flatMap fun p => (p.findAll source).map fun m =>
    let name := unquoted (strip (m.group 1))
    ⟨name, .input, "BOOL", "TXT input tag: " ++ name, none⟩

/-- The output of a statement; `count` outputs stand before it. -/
def outputOf (count : Nat) (kind : OutputKind) (m : Pattern.Match) : Point :=
  let (name, value) := match kind with
    | .motor => ("motor_" ++ toString count, "0")
    | .speed => ("speed_" ++ toString count, strip (m.group 1))
    | .named => (strip (m.group 1), strip (m.group 2))
  let name := unquoted name
  ⟨name, .output, "BOOL", "TXT output tag: " ++ name, some value⟩

/-- The outputs of a program. -/
def outputs (source : String) : List Point :=
  (outputPatterns.flatMap fun (kind, p) => (p.findAll source).map fun m => (kind, m)).foldl
    (fun l (kind, m) => l ++ [outputOf l.length kind m]) []

/-- The type that a value suggests. -/
def suggestedType (value : String) : String :=
  let value := strip value
  if ["true", "false"].contains (lower value) then "BOOL"
  else if isDigits value then "INT"
  else if ((Pattern.all [.decimals, .text ".", .decimals]).matchStart? value).isSome then "REAL"
  else if startsWith "\"" value || startsWith "'" value then "STRING"
  else "BOOL"

/-- The words that are no variables. -/
def keywords : List String :=
  ["if", "while", "for", "switch", "case", "return", "break", "continue"]

/-- The variables of a program. -/
def internals (source : String) : List Point :=
  definitionPatterns.flatMap fun p => (p.findAll source).filterMap fun m =>
    let name := strip (m.group 1)
    let value := strip (m.group 2)
    if keywords.contains name then none
    else some ⟨name, .internal, suggestedType value, "TXT internal variable: " ++ name, some value⟩

/-- All tags of a program. -/
def points (source : String) : List Point :=
  inputs source ++ outputs source ++ internals source

/-! ## Instructions -/

/-- A line of a program that does something. -/
structure Instruction where
  kind : String
  description : String
  content : String
  line : Nat

/-- The kind of a line with its description. -/
def kindOf? (line : String) : Option (String × String) :=
  if inputPatterns.any (·.occursIn line) then some ("input_read", "TXT input reading operation")
  else if outputPatterns.any (·.2.occursIn line) then
    some ("output_set", "TXT output setting operation")
  else if sleepPatterns.any (·.occursIn line) then some ("sleep", "TXT timing/sleep operation")
  else if flowPatterns.any (·.occursIn line) then
    some ("control_flow", "TXT control flow statement")
  else if contains "=" line then some ("assignment", "TXT variable assignment")
  else if contains "(" line && contains ")" line then some ("function_call", "TXT function call")
  else none

/-- The instructions of a program. -/
def instructions (source : String) : List Instruction :=
  ((split '\n' source).zipIdx 1).filterMap fun (line, n) =>
    let line := strip line
    if line = "" || startsWith "//" line || startsWith "#" line then none
    else (kindOf? line).map fun (kind, description) => ⟨kind, description, line, n⟩

/-! ## The project -/

/-- A list of tags under a heading. -/
def listing (heading : String) (points : List Point) : List String :=
  if points.isEmpty then []
  else heading :: points.map (fun p => "//   " ++ p.name ++ ": " ++ p.dataType) ++ [""]

/-- The text of the routine: the tags by role, and then the instructions. -/
def routineText (points : List Point) (instructions : List Instruction) : String :=
  let ofRole (r : Role) := points.filter (·.role = r)
  join "\n" (listing "// TXT Input Tags:" (ofRole .input) ++
    listing "// TXT Output Tags:" (ofRole .output) ++
    listing "// TXT Internal Variables:" (ofRole .internal) ++
    "// TXT Control Logic Instructions:" ::
      instructions.map fun i => "// Line " ++ toString i.line ++ ": " ++ i.content)

/-- The project of a source with the name of its file. -/
def project (name source : String) : Project :=
  let points := points source
  let instructions := instructions source
  { controller := {
      name
      tags := points.map fun p =>
        { name := p.name, dataType := p.dataType, scope := .controller
          description := some p.description, initialValue := p.initialValue }
      sourceType := some "fischertechnik_txt" }
    programs := [{
      name := "Main"
      routines := [{
        name := "Main"
        language := .st
        content := some (routineText points instructions)
        description := some ("Fischertechnik TXT control logic program with " ++
          toString instructions.length ++ " instructions") }]
      sourceType := some "fischertechnik_txt" }]
    sourceType := some "fischertechnik_txt" }

/-- The text of a content, every byte a character if it is not encoded otherwise. -/
def readAnyText (path : String) (c : Content) : Except Fault String :=
  match c, c.read path with
  | .bytes b, .error (.undecodable _) =>
    .ok (String.ofList (unifyLineEnds (b.map Char.ofNat)))
  | _, r => r

/-- Reads the file at a path. -/
def load (files : Files) (path : String) : Except Fault Project :=
  match files.find? path with
  | none => .error (.fileNotFound path)
  | some c => return project (Path.name path) (← readAnyText path c)

end ControlLogic.Source.Cpp
