import ControlLogic.Exchange.Import
import ControlLogic.Text.Word

/-!
# Inputs and outputs

Which tags of a source stand for inputs and outputs of the plant, judged by their names.
-/

namespace ControlLogic.Exchange

/-- Whether a point is read or written. -/
inductive Direction where
  | input
  | output
  deriving DecidableEq

/-- The name of a direction. -/
def Direction.name : Direction → String
  | input => "Input"
  | output => "Output"

/-- Parts of names that mark an input. -/
def inputMarks : List String :=
  ["I_", "IN_", "AI_", "DI_", "SI_", "SENSOR", "FEEDBACK", "FB_", "PV_", "TEMP", "PRESSURE",
    "FLOW", "LEVEL", "STATUS", "ALARM", "FAULT"]

/-- Parts of names that mark an output. -/
def outputMarks : List String :=
  ["O_", "OUT_", "AO_", "DO_", "SO_", "SETPOINT", "SP_", "CMD_", "CONTROL", "VALVE", "PUMP",
    "MOTOR", "HEATER", "ENABLE", "RESET", "START", "STOP"]

/-- Whether one of the marks occurs in a name. -/
def marked (marks : List String) (name : String) : Bool := marks.any (Text.contains · name)

/-- Whether a name is that of a channel of a module: parts between colons, one of them a
number. -/
def isChannel (name : String) : Bool :=
  Text.contains ":" name && (Text.split ':' name).any Text.isDigits

/-- The direction that a name suggests, case aside.  Marks of an input come first; the name of
a channel is judged by the letter before its point. -/
def direction? (name : String) : Option Direction :=
  let upper := Text.upper name
  if marked inputMarks upper then some .input
  else if marked outputMarks upper then some .output
  else if isChannel name then
    if marked ["I.", "AI.", "DI."] upper then some .input
    else if marked ["O.", "AO.", "DO."] upper then some .output
    else none
  else none

/-- A tag that stands for an input or an output. -/
structure Point where
  name : String
  direction : Direction
  dataType : String
  description : Option String
  scope : Project.Scope

/-- The point that a tag of a source stands for. -/
def point? (scope : Project.Scope) (name : String) (t : TagSource) : Option Point := do
  let dataType ← tagType? t.dataType
  let direction ← direction? name
  some { name, direction, dataType, description := t.description.text?, scope }

/-- The points among the tags of a directory. -/
def pointsOf (scope : Project.Scope) : Option (Directory TagSource) → Except Fault (List Point)
  | none => .ok []
  | some d => do
    let entries ← d.entries
    return entries.filterMap fun (name, t) => point? scope name t

/-- The points of a source: of its controller, then of its programs one by one. -/
def ProjectSource.points (s : ProjectSource) : Except Fault (List Point) := do
  let own ← pointsOf .controller s.controller.tags
  match s.programs with
  | none => return own
  | some d =>
    let inner ← d.walk.1.mapM fun p => pointsOf .program p.tags
    match d.walk.2 with
    | some f => throw f
    | none => return own ++ inner.flatten

end ControlLogic.Exchange
