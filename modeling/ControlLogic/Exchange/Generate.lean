import ControlLogic.Exchange.Tag
import ControlLogic.StructuredText.Body

/-!
# Documents from Structured Text

The declarations of a source become tags, and its statements the text of one routine in one
program.  Facts about tags that an earlier document told can be kept for the tags of the same
names.
-/

namespace ControlLogic.Exchange

open Markup StructuredText

/-- What is kept of a tag of an earlier document. -/
structure Preserved where
  scope : Json
  program : Json
  dataType : Json
  description : Json
  externalAccess : Json
  radix : Json
  constant : Json
  aliasFor : Json
  arrayDimensions : Json
  initialValue : Json
  tagType : Json
  usage : Json

/-- What is kept of a record. -/
def Preserved.ofRecord (fields : List (String × Json)) : Preserved :=
  let get (key : String) (default : Json) := (Table.lookup key fields).getD default
  { scope := get "scope" (.text "Controller")
    program := get "program" .null
    dataType := get "data_type" (.text "Unknown")
    description := get "description" (.text "")
    externalAccess := get "external_access" (.text "")
    radix := get "radix" (.text "")
    constant := get "constant" (.bool false)
    aliasFor := get "alias_for" (.text "")
    arrayDimensions := get "array_dimensions" (.text "")
    initialValue := get "initial_value" (.text "")
    tagType := get "tag_type" (.text "Base")
    usage := get "usage" (.text "") }

/-- A declared variable with what is kept of its tag. -/
structure Variable where
  declaration : Declaration
  preserved : Option Preserved

/-- What a document tells of a variable. -/
def Variable.facts (v : Variable) : TagFacts :=
  let keep (f : Preserved → Json) (default : Json) := (v.preserved.map f).getD default
  { type := keep (·.dataType) (.text v.declaration.type)
    scope := keep (·.scope) (.text "Controller")
    tagType := keep (·.tagType) (.text "Base")
    isArray := v.declaration.range.isSome
    range := v.declaration.range.map .text
    description := keep (·.description) (.text "")
    externalAccess := keep (·.externalAccess) (.text "")
    radix := keep (·.radix) (.text "")
    constant := keep (·.constant) (.bool false)
    initialValue := (v.declaration.initial.map Json.text).getD (keep (·.initialValue) (.text "")) }

/-- A program read from its source. -/
structure Program where
  vars : Table String Variable := Table.empty
  logic : List String := []
  /-- The declared types that are not basic, in ascending order. -/
  userTypes : List String := []

/-- Reads a program, with what is kept of earlier tags. -/
def readProgram (preserved : Table String Preserved) (source : String) : Program :=
  let declared := declarations source
  { vars := declared.foldl (fun t d => t.insert d.name ⟨d, preserved.get? d.name⟩) Table.empty
    logic := programLines source
    userTypes := (((declared.map (·.type)).filter (!basicTypes.contains ·)).eraseDups).mergeSort
      fun a b => decide (a ≤ b) }

/-- The variables of the controller, in order. -/
def Program.controllerVariables (p : Program) : List (String × Variable) :=
  p.vars.entries.filter fun (_, v) => v.facts.scope.isText "Controller"

/-- The other variables, in order. -/
def Program.programVariables (p : Program) : List (String × Variable) :=
  p.vars.entries.filter fun (_, v) => !v.facts.scope.isText "Controller"

/-- The line that declares a variable again. -/
def declarationLine (name : String) (v : Variable) : String :=
  match v.declaration.range with
  | some range => "    " ++ name ++ " : ARRAY [" ++ range ++ "] OF " ++ v.facts.type.display ++ ";"
  | none => "    " ++ name ++ " : " ++ v.facts.type.display ++ ";"

/-- The text of the routine: the declarations, and then the statements. -/
def Program.routineText (p : Program) : String :=
  let declared :=
    if p.vars.isEmpty then []
    else "VAR" :: p.vars.entries.map (fun (n, v) => declarationLine n v) ++ ["END_VAR", ""]
  Text.join "\n" (["// Generated Structured Text Code", "// Enhanced with tag preservation", ""] ++
    declared ++ p.logic)

/-! ## The document -/

/-- The routine of a program. -/
def Program.routineElement (p : Program) : Element :=
  { Element.leaf "Routine" [("Name", "MainRoutine"), ("Type", "ST"), ("Use", "Context")] with
    children := [{ Element.leaf "STContent" [("Use", "Context")] with text := some p.routineText }] }

/-- The element of the program with the given tags and routine. -/
def mainProgramElement (tags : List Element) (routine : Element) : Element :=
  { Element.leaf "Program" [("Name", "MainProgram"), ("TestEdits", "false"),
      ("MainRoutineName", "MainRoutine"), ("ScheduledPrograms", "")] with
    children := [{ tag := "Tags", children := tags },
      { tag := "Routines", children := [routine] }] }

/-- The element of the program with the given tags. -/
def Program.programElement (p : Program) (tags : List (String × TagFacts)) :
    Except Fault Element :=
  return mainProgramElement (← tagElements tags) p.routineElement

/-- The element of the task that runs the program. -/
def taskElement : Element :=
  { Element.leaf "Task" [("Name", "MainTask"), ("Type", "Continuous"), ("Priority", "10"),
      ("Watchdog", "500"), ("DisableUpdateOutputs", "false"), ("InhibitTask", "false"),
      ("EventID", "0")] with
    children := [Element.leaf "Schedule" [("Type", "Continuous")],
      { tag := "Programs",
        children := [Element.leaf "Program" [("Name", "MainProgram"), ("Type", "Program")]] }] }

/-- The elements of the basic types. -/
def basicTypeElements : List Element :=
  basicTypes.map fun t =>
    Element.leaf "DataType" [("Name", t), ("Use", "Target"), ("Family", t), ("Class", "User")]

/-- The controller with the given tags and program. -/
def mainControllerElement (tags : List Element) (program : Element) : Element :=
  { Element.leaf "Controller" [("Name", "Generated_Controller"), ("ProcessorType", "1756-L71"),
      ("MajorRev", "20"), ("MinorRev", "11"), ("TimeSlice", "20"),
      ("ShareUnusedTimeSlice", "1"), ("ProjectCreationDate", "2024-01-01T00:00:00"),
      ("LastModifiedDate", "2024-01-01T00:00:00"), ("SFCExecutionControl", "CurrentActive"),
      ("SFCRestartPosition", "MostRecent"), ("SFCLastScan", "DontScan"),
      ("ProjectSN", "16#0000_0000")] with
    children := [{ tag := "DataTypes", children := basicTypeElements },
      { tag := "Tags", children := tags },
      { tag := "Programs", children := [program] },
      { tag := "Tasks", children := [taskElement] }] }

/-- The document with the given controller. -/
def documentElement (controller : Element) : Element :=
  { Element.leaf "RSLogix5000Content" [("SchemaRevision", "1.0"),
      ("SoftwareRevision", "20.01"), ("TargetName", "Generated_Controller"),
      ("TargetType", "Controller"), ("ContainsContext", "true")] with
    children := [controller] }

/-- The document of a program. -/
def Program.document (p : Program) : Except Fault Element := do
  let facts (l : List (String × Variable)) := l.map fun (n, v) => (n, v.facts)
  let tags ← tagElements (facts p.controllerVariables)
  let program ← p.programElement (facts p.programVariables)
  return documentElement (mainControllerElement tags program)

/-- The document of a source about whose tags nothing is kept. -/
def generate (source : String) : Except Fault Element :=
  (readProgram Table.empty source).document

/-- The written document of a source. -/
def generateText (source : String) : Except Fault String :=
  return (← generate source).render

/-- The first line of a document file. -/
def fileHeader : String := "<?xml version=\"1.0\" encoding=\"UTF-8\" standalone=\"yes\"?>\n"

end ControlLogic.Exchange
