import ControlLogic.Exchange.Routine
import ControlLogic.Exchange.Source
import ControlLogic.Overlay.Apply
import ControlLogic.StructuredText.Name

/-!
# Projects from sources

A project is made from a source part by part.  A tag, routine or program that cannot be read
is left out; only a listing that fails as a whole stops the reading.
-/

namespace ControlLogic.Exchange

open Markup

/-- The type of a tag: what the text of its declared type would be as a value.  A declared
type that is no text gives none. -/
def tagType? : Attribute → Option String
  | .missing => some (StructuredText.valueType "UNKNOWN")
  | .empty => none
  | .text s => some (StructuredText.valueType s)

/-- The text of a value: empty where there is no value, and none where it cannot be read. -/
def valueText? : Except Fault Json → Option String
  | .ok j => some j.display
  | .error .noAttribute => some ""
  | .error _ => none

/-- The tag that a source describes. -/
def readTag? (scope : Project.Scope) (name : String) (t : TagSource) : Option Project.Tag := do
  let dataType ← tagType? t.dataType
  some {
    name
    dataType
    scope
    value := valueText? t.value
    description := t.description.text?
    externalAccess := t.externalAccess
    radix := t.radix
    constant := t.constant
    aliasFor := t.aliasFor }

/-- The tags of a directory. -/
def readTags (scope : Project.Scope) : Option (Directory TagSource) →
    Except Fault (List Project.Tag)
  | none => .ok []
  | some d => do
    let entries ← d.entries
    return entries.filterMap fun (name, t) => readTag? scope name t

/-- The member that an element describes. -/
def readMember (e : Element) : Project.Member where
  name := e.attributeD "Name" "Unknown"
  dataType := e.attributeD "DataType" "UNKNOWN"
  description := e.attribute? "Description"
  radix := e.attribute? "Radix"
  externalAccess := e.attribute? "ExternalAccess"

/-- The data type that an element describes. -/
def readDataType (e : Element) : Project.DataType where
  name := e.attributeD "Name" "Unknown"
  baseType := e.attribute? "Use"
  members := (e.descendantsNamed "Member").map readMember

/-- The parameter of a function block that an element describes. -/
def readParameter (e : Element) : Project.Parameter where
  name := e.attributeD "Name" "Unknown"
  dataType := e.attributeD "DataType" "UNKNOWN"
  kind := e.attributeD "Usage" "Input"
  required := Text.lower (e.attributeD "Required" "true") = "true"

/-- The local variable of a function block that an element describes. -/
def readLocal (e : Element) : Project.Parameter where
  name := e.attributeD "Name" "Unknown"
  dataType := e.attributeD "DataType" "UNKNOWN"
  kind := "Local"

/-- The function block that an element describes. -/
def readFunctionBlock (e : Element) : Project.FunctionBlock where
  name := e.attributeD "Name" "Unknown"
  description := e.attribute? "Description"
  parameters := (e.descendantsNamed "Parameter").map readParameter
  localVariables := (e.descendantsNamed "LocalTag").map readLocal

/-- The elements below the element of a scope with the name `tag`. -/
def below (s : ScopeSource) (tag : String) : List Element :=
  match s.element with
  | some e => e.descendantsNamed tag
  | none => []

/-- The controller of a source. -/
def readController (s : ScopeSource) : Except Fault Project.Controller := do
  let tags ← readTags .controller s.tags
  return {
    name := s.name.getD "Unknown_Controller"
    tags
    dataTypes := (below s "DataType").map readDataType
    functionBlocks := (below s "AddOnInstruction").map readFunctionBlock }

/-- The routine that a source describes, unless its type is no text or its variables cannot be
listed.  Without a type there is no content either. -/
def readRoutine? (name : String) (r : RoutineSource) : Option Project.Routine := do
  let language ← match r.type with
    | .missing => some Project.Language.st
    | .empty => none
    | .text t => some (languageOf t)
  let content := match r.type, r.element with
    | .text _, some e => plainContent language e
    | _, _ => ""
  let localVariables ← (readTags .program r.localTags).toOption
  some { name, language, content := some content, localVariables }

/-- The routines of a program: those that the source lists, or else those of its element. -/
def readRoutines (s : ScopeSource) : List Project.Routine :=
  let listed := match s.routines with
    | none => []
    | some d => match d.entries with
      | .ok entries => entries.filterMap fun (name, r) => readRoutine? name r
      | .error _ => []
  match listed, s.element with
  | [], some e => documentRoutines e
  | _, _ => listed

/-- The program of a source, unless its tags cannot be listed. -/
def readProgram? (name : String) (s : ScopeSource) : Option Project.Program := do
  let tags ← (readTags .program s.tags).toOption
  some { name, tags, routines := readRoutines s, mainRoutine := s.mainRoutine }

/-- The programs of a source. -/
def readPrograms : Option (Directory ScopeSource) → Except Fault (List Project.Program)
  | none => .ok []
  | some d => do
    let entries ← d.entries
    return entries.filterMap fun (name, s) => readProgram? name s

/-- The project of a source. -/
def ProjectSource.project (s : ProjectSource) : Except Fault Project := do
  let controller ← readController s.controller
  let programs ← readPrograms s.programs
  return {
    controller
    programs
    metadata := [("original_file", .text (s.file.getD "unknown"))] }

/-- The project of a source with the overlay in a file put over it; an overlay that cannot be
read changes nothing. -/
def ProjectSource.projectWith (s : ProjectSource) (files : Files) (overlay : Option String) :
    Except Fault Project := do
  let p ← s.project
  match overlay with
  | none => return p
  | some path =>
    match Overlay.load files path with
    | .ok o => return o.apply p
    | .error _ => return p

/-- The project of a file. -/
def load (opener : Opener) (files : Files) (path : String) (overlay : Option String) :
    Except Fault Project := do
  let s ← opener files path
  s.projectWith files overlay

end ControlLogic.Exchange
