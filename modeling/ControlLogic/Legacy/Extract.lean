import ControlLogic.Exchange.Survey
import ControlLogic.Legacy.Generate

/-!
# Loose nodes

Data types, function blocks and program logic taken from nodes of which any part may be
absent, and the Structured Text made of them.
-/

namespace ControlLogic.Legacy

/-- A node: one with parts, or an element of markup. -/
inductive Node where
  | parts (name : Option String) (attributes : Option (Table String Json))
      (children : Option (List Node))
  | element (e : Markup.Element)

namespace Node

/-- The attributes of a node. -/
def attributes? : Node → Option (Table String Json)
  | parts _ a _ => a
  | element _ => none

/-- The children of a node. -/
def children? : Node → Option (List Node)
  | parts _ _ c => c
  | element _ => none

/-- The name of a node. -/
def name? : Node → Option String
  | parts n _ _ => n
  | element _ => none

/-- The attribute `k` of a node with attributes, empty if it is not there. -/
def textAt (a : Table String Json) (k : String) : String := ((a.get? k).map Json.display).getD ""

/-- The name and the data type of a node, if neither is empty, with its usage. -/
def typed? (n : Node) : Option (String × String × String) := do
  let a ← n.attributes?
  let name := textAt a "Name"
  let type := textAt a "DataType"
  if Text.isEmpty name || Text.isEmpty type then none else some (name, type, textAt a "Usage")

end Node

/-- A data type from its child nodes: the members stand below the first.  Nothing is found
without members. -/
def nodeDataType? (name : String) (nodes : List Node) : Option Exchange.Survey.DataType := do
  let first ← nodes.head?
  let children ← first.children?
  let members : Table String String :=
    .ofList ((children.filterMap Node.typed?).map fun (n, t, _) => (n, t))
  if members.isEmpty then none else some { name := some name, baseType := "STRUCT", members }

/-- The variables below a section, the last of each name. -/
def nodeVariables (part : Option Node) : Table String (String × String) :=
  match part.bind Node.children? with
  | some children => .ofList (children.filterMap Node.typed?)
  | none => Table.empty

/-- The markup of the routine `Logic` below a section, empty if there is none.  A routine that
lacks its parts makes the whole section unreadable. -/
def nodeLogic? (part : Option Node) : Option String :=
  match part.bind Node.children? with
  | none => some ""
  | some children => children.foldlM (fun found routine => do
      let name ← routine.name?
      if name = "Routine" then
        let a ← routine.attributes?
        if Node.textAt a "Name" = "Logic" then
          match ← (← routine.children?).head? with
          | .element e => some e.render
          | .parts _ _ _ => none
        else some found
      else some found) ""

/-- A function block from its sections. -/
def nodeFunctionBlock? (name : String) (sections : Table String Node) :
    Option Exchange.Survey.FunctionBlock := do
  let logic ← nodeLogic? (sections.get? "Routines")
  let (outputs, inputs) := (nodeVariables (sections.get? "Parameters")).entries.partition
    fun (_, _, usage) => usage == "Output"
  some {
    name := some name
    inputs := inputs.map fun (n, t, _) => ⟨n, t⟩
    outputs := outputs.map fun (n, t, _) => ⟨n, t⟩
    vars := (nodeVariables (sections.get? "LocalTags")).entries.map fun (n, t, _) => ⟨n, t⟩
    code := if Text.isEmpty logic then [] else [logic]
    description := "Function block " ++ name }

/-- The statements of the main routine, empty where anything is amiss. -/
def mainLogic (s : Source) : String :=
  match mainText s with
  | .ok t => t
  | .error _ => ""

/-- A tag to be declared. -/
structure PlainTag where
  name : String
  dataType : String
  description : Option String

/-- The lines of variables between an opening line and the end of a section, if there are any. -/
def sectionLines (opening : String) (l : List Exchange.Survey.Variable) : List String :=
  if l.isEmpty then []
  else [opening] ++ l.map (fun v => "    " ++ v.name ++ " : " ++ v.type ++ ";") ++ ["END_VAR"]

/-- The lines of a function block. -/
def blockLines (b : Exchange.Survey.FunctionBlock) : List String :=
  ["FUNCTION_BLOCK " ++ Exchange.Survey.nameText b.name] ++ sectionLines "VAR_INPUT" b.inputs ++
    sectionLines "VAR_OUTPUT" b.outputs ++ sectionLines "VAR" b.vars ++
    (if b.code.isEmpty then [] else ["// Implementation"] ++ b.code.map ("    " ++ ·)) ++
    ["END_FUNCTION_BLOCK", ""]

/-- The Structured Text of what was found. -/
def extractText (tags : List PlainTag) (types : List Exchange.Survey.DataType)
    (blocks : List Exchange.Survey.FunctionBlock) (logic : String) : String :=
  let remark (lead : String) (t : String) := if Text.isEmpty t then [] else [lead ++ t]
  Text.join "\n" (["// Generated Structured Text Code", "// Converted from L5X file", ""] ++
    (if types.isEmpty then []
      else ["// Data Type Declarations"] ++
        types.flatMap (fun d =>
          ["TYPE " ++ Exchange.Survey.nameText d.name ++ " : " ++ d.baseType ++ ";"] ++
            remark "// " d.description) ++ ["END_TYPE", ""]) ++
    (if tags.isEmpty then []
      else ["// Variable Declarations", "VAR"] ++
        tags.flatMap (fun t => ["    " ++ t.name ++ " : " ++ t.dataType ++ ";"] ++
          remark "    // " (t.description.getD "")) ++ ["END_VAR", ""]) ++
    (if blocks.isEmpty then [] else ["// Function Blocks"] ++ blocks.flatMap blockLines) ++
    (if Text.isEmpty logic then []
      else ["// Program Logic", "PROGRAM MainProgram", "VAR",
        "    // Program variables declared above", "END_VAR", "", "// Main program logic"] ++
        Text.split '\n' logic ++ ["END_PROGRAM", ""]))

end ControlLogic.Legacy
