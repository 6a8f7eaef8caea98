import ControlLogic.Fault
import ControlLogic.Markup.Writer
import ControlLogic.Project.Basic

/-!
# Documents from projects

A project is written as an exchange document.  Attributes without a text are left out, and so
are sections without elements.
-/

namespace ControlLogic.Exchange

open Markup

/-- The attribute `k`, if there is a text that is not empty. -/
def given (k : String) : Option String → List (String × String)
  | some v => if Text.isEmpty v then [] else [(k, v)]
  | none => []

/-- A section with the given elements, if there are any. -/
def sectionOf (tag : String) (elements : List Element) : List Element :=
  if elements.isEmpty then [] else [{ tag, children := elements }]

/-- The element of a member of a data type. -/
def memberElement (m : Project.Member) : Element :=
  .leaf "Member" ([("Name", m.name), ("DataType", m.dataType)] ++
    given "Description" m.description ++ given "Radix" m.radix ++
    given "ExternalAccess" m.externalAccess)

/-- The element of a data type. -/
def dataTypeElement (d : Project.DataType) : Element where
  tag := "DataType"
  attributes := .ofList ([("Name", d.name)] ++ given "Use" d.baseType ++
    given "Description" d.description)
  children := d.members.map memberElement

/-- The element of a parameter of a function block. -/
def parameterElement (p : Project.Parameter) : Element :=
  .leaf "Parameter" [("Name", p.name), ("DataType", p.dataType), ("Usage", p.kind),
    ("Required", if p.required then "true" else "false")]

/-- The element of a local variable of a function block. -/
def localElement (p : Project.Parameter) : Element :=
  .leaf "LocalTag" [("Name", p.name), ("DataType", p.dataType)]

/-- The element of a function block. -/
def functionBlockElement (b : Project.FunctionBlock) : Element where
  tag := "AddOnInstructionDefinition"
  attributes := .ofList ([("Name", b.name)] ++ given "Description" b.description)
  children := sectionOf "Parameters" (b.parameters.map parameterElement) ++
    sectionOf "LocalTags" (b.localVariables.map localElement)

/-- The element of a tag of a project. -/
def projectTagElement (t : Project.Tag) : Element :=
  .leaf "Tag" ([("Name", t.name), ("TagType", "Base"), ("DataType", t.dataType)] ++
    given "Value" t.value ++ given "Description" t.description ++
    given "ExternalAccess" t.externalAccess ++ given "Radix" t.radix ++
    (if t.constant then [("Constant", "true")] else []) ++ given "AliasFor" t.aliasFor)

/-- The element of a routine: its text in an element of its own. -/
def routineElement (r : Project.Routine) : Element where
  tag := "Routine"
  attributes := .ofList ([("Name", r.name), ("Type", r.language.name)] ++
    given "Description" r.description)
  children :=
    if Text.isEmpty r.text then []
    else [{ tag := "Text", children := [.ofText "CDATAContent" r.text] }]

/-- The element of a program. -/
def programElement (p : Project.Program) : Element where
  tag := "Program"
  attributes := .ofList ([("Name", p.name)] ++ given "Description" p.description)
  children := sectionOf "Tags" (p.tags.map projectTagElement) ++
    sectionOf "Routines" (p.routines.map routineElement) ++
    (given "Value" p.mainRoutine).map fun a => .leaf "MainRoutineName" [a]

/-- The element of a controller with its programs. -/
def controllerElement (p : Project) : Element where
  tag := "Controller"
  attributes := .ofList [("Name", p.controller.name), ("ProcessorType", "Logix5580"),
    ("MajorRev", "20"), ("MinorRev", "1"), ("TimeSlice", "20"), ("ShareUnusedTimeSlice", "1"),
    ("ProjectCreationDate", "Mon Jan 01 00:00:00 2024"),
    ("LastModifiedDate", "Mon Jan 01 00:00:00 2024"),
    ("SFCExecutionControl", "CurrentActive"), ("SFCRestartPosition", "MostRecent"),
    ("ProjectSN", "16#0000_0000")]
  children := sectionOf "DataTypes" (p.controller.dataTypes.map dataTypeElement) ++
    sectionOf "AddOnInstructionDefinitions" (p.controller.functionBlocks.map functionBlockElement) ++
    sectionOf "Tags" (p.controller.tags.map projectTagElement) ++
    sectionOf "Programs" (p.programs.map programElement)

/-- The document of a project. -/
def projectElement (p : Project) : Element where
  tag := "RSLogix5000Content"
  attributes := .ofList [("SchemaRevision", "1.0"), ("SoftwareRevision", "20.01"),
    ("TargetName", p.controller.name), ("TargetType", "Program"), ("ContainsContext", "true")]
  children := [controllerElement p]

/-- The text of the document of a project.  A tag without a name cannot be written. -/
def projectText (p : Project) : Except Fault String :=
  if (p.controller.tags ++ p.programs.flatMap (·.tags)).all (·.named) then
    .ok (projectElement p).render
  else .error .wrongKind

end ControlLogic.Exchange
