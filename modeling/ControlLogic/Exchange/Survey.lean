import ControlLogic.Diagram.Code
import ControlLogic.Ladder.Code
import ControlLogic.Markup.Writer

/-!
# Surveys of markup

The data types, the function blocks and the logic of the main program, taken straight from the
sections of a markup element.
-/

namespace ControlLogic.Exchange.Survey

open Markup

/-- A data type with its members' types. -/
structure DataType where
  name : Option String
  baseType : String
  members : Table String String

/-- A variable of a function block. -/
structure Variable where
  name : String
  type : String

/-- A function block with its variables and the markup of its logic. -/
structure FunctionBlock where
  name : Option String
  inputs : List Variable
  outputs : List Variable
  vars : List Variable
  code : List String
  description : String

/-- A name as it stands in a text. -/
def nameText (name : Option String) : String := name.getD "None"

/-- The description of a data type. -/
def DataType.description (d : DataType) : String := "User-defined data type " ++ nameText d.name

/-- Both attributes of an element, if neither is empty. -/
def pair? (k v : String) (e : Element) : Option (String × String) := do
  let a ← (e.attribute? k).filter (!Text.isEmpty ·)
  let b ← (e.attribute? v).filter (!Text.isEmpty ·)
  some (a, b)

/-- The children with the name `tag` of the first child with the name `outer`. -/
def inside (e : Element) (outer tag : String) : List Element :=
  match e.child? outer with
  | some s => s.childrenNamed tag
  | none => []

/-- The elements `tag` in all sections `outer` below an element. -/
def inSections (root : Element) (outer tag : String) : List Element :=
  (root.descendantsNamed outer).flatMap (·.childrenNamed tag)

/-- The data types below an element. -/
def dataTypes (root : Element) : List DataType :=
  (inSections root "DataTypes" "DataType").map fun d => {
    name := d.attribute? "Name"
    baseType := d.attributeD "Family" "STRUCT"
    members := .ofList ((inside d "Members" "Member").filterMap (pair? "Name" "DataType")) }

/-- The function block that an element describes.  Of several parameters of one name the last
counts, and of several routines with the name `Logic` the last with a ladder. -/
def functionBlock (e : Element) : FunctionBlock :=
  let parameters : Table String (String × String) :=
    .ofList ((inside e "Parameters" "Parameter").filterMap fun p =>
      (pair? "Name" "DataType" p).map fun (n, t) => (n, (t, p.attributeD "Usage" "Input")))
  let vars : Table String String :=
    .ofList ((inside e "LocalTags" "Tag").filterMap (pair? "Name" "DataType"))
  let logic := ((inside e "Routines" "Routine").filter fun r =>
    r.attribute? "Name" == some "Logic").filterMap (·.child? "RLLContent")
  let (outputs, inputs) := parameters.entries.partition fun (_, _, usage) => usage == "Output"
  { name := e.attribute? "Name"
    inputs := inputs.map fun (n, t, _) => ⟨n, t⟩
    outputs := outputs.map fun (n, t, _) => ⟨n, t⟩
    vars := vars.entries.map fun (n, t) => ⟨n, t⟩
    code := match logic.getLast? with
      | some l => [l.render]
      | none => []
    description := e.attributeD "Description" ("Add-On Instruction " ++ nameText (e.attribute? "Name")) }

/-- The function blocks below an element. -/
def functionBlocks (root : Element) : List FunctionBlock :=
  (inSections root "AddOnInstructionDefinitions" "AddOnInstructionDefinition").map functionBlock

/-- The text of the character section of an element, without blanks at its ends, if it is not
empty. -/
def sectionText? (e : Element) : Option String :=
  ((e.child? "CDATAContent").bind (·.text?)).map Text.strip

/-- The code of a rung, under its number. -/
def rungText (rung : Element) : String :=
  let heading := "\n// Rung " ++ rung.attributeD "Number" "Unknown"
  match rung.child? "Text" with
  | none => heading ++ " - No text element\n"
  | some t =>
    match sectionText? t with
    | none => heading ++ " - No content\n"
    | some text => heading ++ "\n" ++ Ladder.rungText text ++ "\n"

/-- A line of Structured Text. -/
def lineText (line : Element) : String :=
  match sectionText? line with
  | some t => t ++ "\n"
  | none => "// Line " ++ line.attributeD "Number" "Unknown" ++ " - No content\n"

/-- The code of a routine, under its name. -/
def routineText (r : Element) : String :=
  let heading := "\n// Routine: " ++ r.attributeD "Name" "Unknown"
  match r.attributeD "Type" "Unknown" with
  | "RLL" =>
    match r.child? "RLLContent" with
    | some c => heading ++ " (Ladder Logic)\n" ++ String.join ((c.childrenNamed "Rung").map rungText)
    | none => ""
  | "ST" =>
    match r.child? "STContent" with
    | some c =>
      heading ++ " (Structured Text)\n" ++ String.join ((c.childrenNamed "Line").map lineText)
    | none => ""
  | "FBD" =>
    match r.child? "FBDContent" with
    | some c => heading ++ " (Function Block Diagram)\n" ++ Diagram.code c ++ "\n"
    | none => heading ++ " (FBD) - No content\n"
  | other => heading ++ " (Unknown type: " ++ other ++ ")\n"

/-- The code of the routines of the main program below an element. -/
def mainLogic (root : Element) : String :=
  let programs := (inSections root "Programs" "Program").filter fun p =>
    p.attribute? "Name" == some "MainProgram"
  String.join (programs.flatMap fun p => (inside p "Routines" "Routine").map routineText)

end ControlLogic.Exchange.Survey
