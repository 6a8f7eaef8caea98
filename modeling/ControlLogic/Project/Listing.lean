import ControlLogic.Project.Basic
import ControlLogic.Text.Basic

/-!
# Listings

A project written out as Structured Text: tasks, data types, variables, function blocks,
programs with their routines, and modules.
-/

namespace ControlLogic.Project

/-- Whether there is a text that is not empty. -/
def hasText (t : Option String) : Bool := t.any (!Text.isEmpty ·)

/-- A line with a text, if there is one that is not empty. -/
def lineWith (lead : String) (t : Option String) : List String :=
  if hasText t then [lead ++ t.getD ""] else []

/-- The field of a record as text, with a default. -/
def fieldText (j : Json) (k d : String) : String :=
  match j.field? k with
  | some v => v.display
  | none => d

/-- The lines of a task. -/
def taskLines (task : Json) : List String :=
  ["TASK " ++ fieldText task "name" "UnknownTask" ++ " (Type := " ++
      fieldText task "type" "CONTINUOUS" ++ ", Priority := " ++ fieldText task "priority" "10" ++
      ", Watchdog := " ++ fieldText task "watchdog" "500" ++ ")"] ++
    (match task.field? "interval" with
      | some v => if v.isTruthy then ["    Rate := " ++ v.display ++ ";"] else []
      | none => []) ++
    ["END_TASK", ""]

/-- The lines of a data type. -/
def dataTypeLines (d : DataType) : List String :=
  ["TYPE " ++ d.name ++ " :", "    STRUCT"] ++
    d.members.map (fun m => "        " ++ m.name ++ " : " ++ m.dataType ++ ";") ++
    ["    END_STRUCT;", "END_TYPE", ""]

/-- The name of a tag as it is written. -/
def Tag.writtenName (t : Tag) : String := if t.named then t.name else "None"

/-- The lines of a tag. -/
def tagLines (t : Tag) : List String :=
  let initial := if hasText t.initialValue then " := " ++ t.initialValue.getD "" else ""
  ["    " ++ t.writtenName ++ " : " ++ t.dataType ++ initial ++ ";"] ++
    lineWith "    // " t.description ++ lineWith "    // External Access: " t.externalAccess

/-- A section of variables, if there are any. -/
def variableLines (opening : String) (vars : List Parameter) : List String :=
  if vars.isEmpty then []
  else [opening] ++ vars.map (fun v => "    " ++ v.name ++ " : " ++ v.dataType ++ ";") ++
    ["END_VAR"]

/-- The lines of a text, with a heading before them, if it is not empty. -/
def textLines (heading : List String) (t : Option String) : List String :=
  if hasText t then heading ++ Text.split '\n' (t.getD "") else []

/-- The lines of a function block. -/
def functionBlockLines (b : FunctionBlock) : List String :=
  ["FUNCTION_BLOCK " ++ b.name] ++
    variableLines "VAR_INPUT" (b.parameters.filter (·.kind == "Input")) ++
    variableLines "VAR_OUTPUT" (b.parameters.filter (·.kind == "Output")) ++
    variableLines "VAR" b.localVariables ++
    textLines ["// Implementation"] b.implementation ++
    ["END_FUNCTION_BLOCK", ""]

/-- The lines of a routine. -/
def routineLines (r : Routine) : List String :=
  ["// Routine: " ++ r.name ++ " (" ++ r.language.name ++ ")"] ++
    lineWith "// " r.description ++ textLines [] r.content ++ [""]

/-- The lines of a program. -/
def programLines (p : Program) : List String :=
  ["// Program: " ++ p.name] ++ lineWith "// Description: " p.description ++
    lineWith "// Associated Task: " p.taskName ++
    ["PROGRAM " ++ p.name, "VAR", "    // Program variables declared above", "END_VAR", ""] ++
    p.routines.flatMap routineLines ++ ["END_PROGRAM", ""]

/-- The lines of a module. -/
def moduleLines (m : Json) : List String :=
  ["MODULE " ++ fieldText m "name" "UnknownModule" ++ " (Type := " ++ fieldText m "type" "Unknown" ++
      ", Slot := " ++ fieldText m "slot" "0" ++ ")"] ++
    ((m.field? "configuration").getD .null).fields.map (fun (k, v) =>
      "    " ++ k ++ " := " ++ v.display ++ ";") ++
    ["END_MODULE", ""]

/-- Lines under a heading, if there are any. -/
def headed (heading : List String) (lines : List String) : List String :=
  if lines.isEmpty then [] else heading ++ lines

/-- Whether an overlay has been put over the project. -/
def isOverlaid (p : Project) : Bool :=
  (Table.lookup "l5k_overlay_applied" p.metadata).any (·.isTruthy)

/-- The lines of a project. -/
def listingLines (p : Project) : List String :=
  let c := p.controller
  ["// Generated Structured Text Code", "// Converted from L5X file"] ++
    (if p.isOverlaid then ["// Enhanced with L5K overlay context"] else []) ++ [""] ++
    headed ["// Task Definitions"] (p.tasks.flatMap taskLines) ++
    headed ["// Data Type Declarations"] (c.dataTypes.flatMap dataTypeLines) ++
    (if c.tags.isEmpty then []
      else ["// Variable Declarations", "VAR"] ++ c.tags.flatMap tagLines ++ ["END_VAR", ""]) ++
    headed ["// Function Blocks"] (c.functionBlocks.flatMap functionBlockLines) ++
    p.programs.flatMap programLines ++
    headed ["// Module Configuration"] (p.modules.flatMap moduleLines)

/-- A project as Structured Text. -/
def listing (p : Project) : String := Text.join "\n" p.listingLines

end ControlLogic.Project
