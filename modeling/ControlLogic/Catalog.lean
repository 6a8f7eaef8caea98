import ControlLogic.Json.Basic
import ControlLogic.StructuredText.Name

/-!
# Catalogue entries

What a loosely typed source says of a tag, a data type, a function block or an instruction.
A source is either a value, such as a record with fields of any kind, or an object with named
attributes.
-/

namespace ControlLogic.Catalog

open StructuredText

/-- What an entry is made from. -/
inductive Source where
  | value (j : Json)
  | object (attributes : List (String × Json))

/-- The field of a record, with a default; nothing for a source that is no record. -/
def Source.field? (key : String) (default : Json) : Source → Option Json
  | .value (.record fields) => some ((Table.lookup key fields).getD default)
  | _ => none

/-- The attribute of an object. -/
def Source.attribute? (key : String) : Source → Option Json
  | .object attributes => Table.lookup key attributes
  | .value _ => none

/-- The attribute of an object, else the field of a record, else a default. -/
def Source.read (name key : String) (missing other : Json) (s : Source) : Json :=
  (s.attribute? name).getD ((s.field? key missing).getD other)

/-- The text that stands for a source that is no record. -/
def Source.display : Source → Json
  | .value j => .text j.display
  | .object _ => .text ""

/-- A data type. -/
structure DataType where
  name : String
  baseType : String
  description : Json

/-- A tag. -/
structure Tag where
  name : String
  dataType : String
  description : Json
  value : Json

/-- An instruction. -/
structure Instruction where
  name : String
  parameters : List String
  description : Json

/-- A function block. -/
structure FunctionBlock where
  name : String
  description : Json

/-- The number behind a value of the form `'$00$1E'`; other values stay. -/
def decodeHex (s : String) : String :=
  if Text.startsWith "'$" s && Text.endsWith "'" s then
    match Text.readHex? (Text.replace "$" "" (Text.dropLast 1 (Text.drop 2 s))) with
    | some n => toString n
    | none => s
  else s

/-- The data type that a source describes. -/
def dataType? (name : Json) (source : Source) : Option DataType := do
  let base ← ((source.field? "DataType" (.text "UNKNOWN")).getD source.display).text?
  let name ← name.text?
  some {
    name := safeName name
    baseType := baseType base
    description := (source.field? "Description" (.text "")).getD (.text "") }

/-- The tag that a source describes. -/
def tag? (name : Json) (source : Source) : Option Tag := do
  let name ← name.text?
  let type := source.read "data_type" "DataType" (.text "UNKNOWN") source.display
  let value := source.read "value" "Value" (.text "") (.text "")
  some {
    name := safeName name
    dataType := baseType type.display
    description := source.read "description" "Description" (.text "") (.text "")
    value := match value with
      | .text s => .text (decodeHex s)
      | j => j }

/-- The function block that a source describes. -/
def functionBlock? (name : Json) (source : Source) : Option FunctionBlock := do
  let name ← name.text?
  some {
    name := safeName name
    description := (source.field? "Description" (.text "")).getD (.text "") }

/-- The instruction that a source describes. -/
def instruction? (source : Source) : Option Instruction := do
  let name ← ((source.field? "Name" (.text "UNKNOWN")).getD source.display).text?
  let parameters := match source with
    | .value (.record fields) => (fields.filter fun (k, _) => Text.startsWith "Parameter" k).map
        fun (_, v) => v.display
    | _ => []
  some {
    name := safeName name
    parameters
    description := (source.field? "Description" (.text "")).getD (.text "") }

/-! ## Records -/

/-- The record of a data type. -/
def DataType.toJson (d : DataType) : Json :=
  .compact [("name", .text d.name), ("base_type", .text d.baseType), ("description", d.description)]

/-- The record of a tag. -/
def Tag.toJson (t : Tag) : Json :=
  .compact [("name", .text t.name), ("data_type", .text t.dataType),
    ("description", t.description), ("value", t.value), ("scope", .text "local")]

/-- The record of a function block, whose parts are not read. -/
def FunctionBlock.toJson (b : FunctionBlock) : Json :=
  .compact [("name", .text b.name), ("inputs", .list []), ("outputs", .list []),
    ("variables", .list []), ("code", .list []), ("description", b.description)]

/-- The record of an instruction. -/
def Instruction.toJson (i : Instruction) : Json :=
  .compact [("name", .text i.name), ("parameters", .texts i.parameters),
    ("description", i.description)]

end ControlLogic.Catalog
