import ControlLogic.Ladder.Plain
import ControlLogic.Legacy.Names
import ControlLogic.Legacy.Source
import ControlLogic.Legacy.Standard
import ControlLogic.StructuredText.Reserved

/-!
# Generated files

One file of Structured Text from the sources of several controllers.  What one source has
declared, a later one does not declare again.
-/

namespace ControlLogic.Legacy

/-! ## Structures and functions -/

/-- Adds structures that are not declared yet to a text. -/
def declareStructs (origin : String) (structs : List (String × String))
    (start : String × Names) : String × Names :=
  structs.foldl (fun (text, names) (name, body) =>
    if names.structNames.contains name then (text, names)
    else (text ++ body ++ "\n\n", names.addStruct name origin)) start

/-- The types that are written under another name. -/
def writtenType : String → String
  | "BIT" => "BOOL"
  | "TIMER" => "TIME"
  | t => t

/-- A data type as a structure. -/
def structText (name : String) (members : Table String Attributes) : String :=
  "TYPE " ++ name ++ ":\n\tSTRUCT\n" ++
    String.join (members.entries.map fun (n, a) =>
      "\t\t" ++ n ++ ": " ++ writtenType (typeOf a) ++ ";\n") ++
    "\tEND_STRUCT;\nEND_TYPE"

/-- The declarations of structures. -/
def structSection (s : Source) (names : Names) : String × Names :=
  let (text, names) :=
    declareStructs "auxiliary" standardStructs ("(*Structure Declarations*)\n", names)
  let own := ((s.dataTypes.map (·.entries)).getD []).filterMap fun (name, members) =>
    members.map fun m => (name, structText name m)
  declareStructs "project" own (text ++ "(*Module structures would be processed here*)\n", names)

/-- Adds functions that are not declared yet to a text. -/
def declareFunctions (origin : String) (functions : List (String × String))
    (start : String × Names) : String × Names :=
  functions.foldl (fun (text, names) (name, body) =>
    if names.fbdNames.contains name then (text, names)
    else (text ++ body ++ "\n\n", names.addFunction name origin)) start

/-- A function block as a function. -/
def functionText (name : String) : String :=
  "FUNCTION " ++ name ++ ": BOOL\n\t(*Function block " ++ name ++ " converted to function*)\n\t" ++
    name ++ " := TRUE;\nEND_FUNCTION"

/-- The declarations of functions. -/
def functionSection (s : Source) (names : Names) : String × Names :=
  let start := declareFunctions "auxiliary" standardFunctions ("(*Function Declarations*)\n", names)
  declareFunctions "project" ((s.functionBlocks.getD []).map fun n => (n, functionText n)) start

/-! ## Variables -/

/-- Adds the variable of a tag to a text.  A reserved name and a type that is not written as it
is are replaced, and a timer of a diagram is numbered by its controller. -/
def declareVariable (acc : String × Names) (tag : String × Attributes) : String × Names :=
  let (text, names) := acc
  let number := toString names.controller
  let name := (Table.lookup tag.1 StructuredText.reservedWords).getD tag.1
  let type := writtenType (typeOf tag.2)
  let isTimer := type = "FBD_TIMER"
  let name := if isTimer then name ++ number ++ "_TMR" else name
  let type := if isTimer then "TON" else if type = "Duty2_FBD" then type ++ number else type
  let names := if isTimer then { names with fbdTimers := names.fbdTimers ++ [name] } else names
  if names.varNames.contains (Text.lower name) then (text, names)
  else (text ++ "\t\t" ++ name ++ ": " ++ type ++ ";\n", names.addVariable name type tag.1)

/-- Adds the variables of tags, under a heading. -/
def declareVariables (heading : String) (tags : Table String Attributes) (acc : String × Names) :
    String × Names :=
  tags.entries.foldl declareVariable (acc.1 ++ "\t(*" ++ heading ++ "*)\n", acc.2)

/-- The variable through which bits are reached. -/
def bitHelper : String := "bit_access_helper"

/-- The declarations of variables. -/
def variableSection (s : Source) (names : Names) : Except Fault String × Names :=
  let start := ("PROGRAM prog0\nVAR\n", names)
  let finish (acc : String × Names) : Except Fault String × Names :=
    let acc := match s.mainProgram?.bind (·.tags) with
      | some tags => if tags.isEmpty then acc else declareVariables "Main Program Tags" tags acc
      | none => acc
    let (text, names) := acc
    if names.varNames.contains bitHelper then (.ok (text ++ "END_VAR\n"), names)
    else (.ok (text ++ "\t(*Bit Access Helper*)\n\t\t" ++ bitHelper ++ ": DWORD;\nEND_VAR\n"),
      names.addVariable bitHelper "DWORD" bitHelper)
  match s.tags with
  | none => finish start
  | some (.ok tags) => finish (declareVariables "Controller Tags" tags start)
  | some (.error f) => (.error f, names)

/-! ## Programs -/

/-- The statements that clear the state bits of all messages among the tags. -/
def clearMessages (tags : List (String × Attributes)) : String :=
  let messages := tags.filter fun (_, a) => (Table.lookup "DataType" a).any (·.isText "MESSAGE")
  "\n\t(*Initialize Messages*)\n" ++ String.join (messages.flatMap fun (name, _) =>
    ["EN1", "EW", "ST", "DN", "ER"].map fun bit => "\t" ++ name ++ "." ++ bit ++ " := 0;\n")

/-- The statements of a routine.  A rung without a text cannot be read. -/
def routineText (rungs : List (Option String)) : Except Fault String := do
  let texts ← rungs.mapM fun
    | some t => .ok t
    | none => .error .noAttribute
  return Ladder.Plain.routine "" texts

/-- The statements of the main routine of the main program, if both are named. -/
def mainText (s : Source) : Except Fault String :=
  match s.mainProgram? with
  | some { routines := some routines, mainRoutine := some name, .. } =>
    match routines.get? name with
    | some rungs => routineText rungs
    | none => .error (.missingKey (Text.quote name))
  | _ => .ok ""

/-- The program and the configuration that runs it. -/
def programSection (s : Source) : Except Fault String := do
  let messages ← match s.tags with
    | none => pure ""
    | some tags => do pure (clearMessages (← tags).entries)
  let main ← mainText s
  return messages ++ main ++ "\nEND_PROGRAM\n" ++ configuration

/-! ## Files -/

/-- The four sections of the file of a source, and the names declared after it. -/
def generate (s : Source) (names : Names) : Except Fault SourceFile × Names :=
  let (structs, names) := structSection s names
  let (functions, names) := functionSection s names
  let (vars, names) := variableSection s names
  (do return { structs, functions, vars := ← vars, programs := ← programSection s }, names)

/-- Whether a path is that of a document. -/
def isDocumentPath (path : String) : Bool := Text.endsWith ".L5X" (Text.upper path)

/-- One file from all documents among the paths, in the order of the paths, case aside. -/
def consolidate (load : String → Except Fault Source) (paths : List String) :
    Except Fault (SourceFile × Names) :=
  let sorted := (paths.filter isDocumentPath).mergeSort fun a b => decide (Text.lower a ≤ Text.lower b)
  sorted.foldlM (fun (file, names) path => do
    let (part, names) := generate (← load path) names
    return (file.append (← part), names.nextController)) (⟨"", "", "", ""⟩, {})

/-! ## Preserved tags -/

/-- What is kept of a tag for a document made later. -/
def preservedTag (place : List (String × Json)) (a : Attributes) : Json :=
  let get (k : String) (d : Json) := (Table.lookup k a).getD d
  .record (place ++ [("data_type", get "DataType" (.text "Unknown")),
    ("description", get "Description" (.text "")),
    ("external_access", get "ExternalAccess" (.text "")), ("radix", get "Radix" (.text "")),
    ("constant", get "Constant" (.bool false)), ("alias_for", get "AliasFor" (.text "")),
    ("array_dimensions", get "Dimension" (.text "")), ("initial_value", get "Value" (.text "")),
    ("tag_type", get "TagType" (.text "Base")), ("usage", get "Usage" (.text ""))])

/-- What is kept of the tags of a source, those of programs over those of the controller. -/
def preservedTags (s : Source) : Table String Json :=
  let own : List (String × Json) := match s.tags with
    | some (.ok tags) => tags.entries.map fun (n, a) =>
        (n, preservedTag [("scope", .text "Controller")] a)
    | _ => []
  let inner := ((s.programs.map (·.entries)).getD []).flatMap fun (p, program) =>
    ((program.tags.map (·.entries)).getD []).map fun (n, a) =>
      (n, preservedTag [("scope", .text "Program"), ("program", .text p)] a)
  Table.ofList (own ++ inner)

end ControlLogic.Legacy
