import ControlLogic.Exchange.Conversion
import ControlLogic.Exchange.Direction
import ControlLogic.Exchange.Survey
import ControlLogic.Markup.Reader

/-!
# Sources and findings as records

Sources of projects given as records instead of documents, and what is found in sources
written as records.
-/

namespace ControlLogic.Exchange

/-! ## Sources -/

/-- The attribute in the field `k`. -/
def Attribute.ofField (fields : List (String × Json)) (k : String) : Attribute :=
  match Table.lookup k fields with
  | none => .missing
  | some (.text s) => .text s
  | some _ => .empty

/-- The markup in the field `k`. -/
def elementAt (fields : List (String × Json)) (k : String) : Option Markup.Element :=
  match Table.lookup k fields with
  | some (.text s) => Markup.Element.parse? s
  | _ => none

/-- Things listed under the keys of a record.  An entry that is no record is listed and cannot
be looked up. -/
def Directory.ofJson {α : Type} (make : List (String × Json) → α) (j : Json) : Directory α where
  names := .ok (j.fields.map (·.1))
  get name := match j.field? name with
    | some (.record fields) => .ok (make fields)
    | _ => .error (.missingKey (Text.quote name))
  walk := (j.fields.filterMap fun (_, v) => match v with
    | .record fields => some (make fields)
    | _ => none, none)

/-- The tag of a record. -/
def TagSource.ofFields (fields : List (String × Json)) : TagSource where
  dataType := .ofField fields "data_type"
  value := match Table.lookup "value" fields with
    | some v => .ok v
    | none => .error .noAttribute
  description := .ofField fields "description"
  externalAccess := (Json.record fields).optTextAt "external_access"
  radix := (Json.record fields).optTextAt "radix"
  constant := (Json.record fields).flagAt "constant" false
  aliasFor := (Json.record fields).optTextAt "alias_for"

/-- The routine of a record. -/
def RoutineSource.ofFields (fields : List (String × Json)) : RoutineSource where
  type := .ofField fields "type"
  element := elementAt fields "xml"
  localTags := (Table.lookup "local_tags" fields).map (.ofJson .ofFields)

/-- The scope of a record. -/
def ScopeSource.ofFields (fields : List (String × Json)) : ScopeSource where
  name := (Json.record fields).optTextAt "name"
  tags := (Table.lookup "tags" fields).map (.ofJson .ofFields)
  routines := (Table.lookup "routines" fields).map (.ofJson .ofFields)
  element := elementAt fields "xml"
  mainRoutine := (Json.record fields).optTextAt "main_routine"

/-- The source of a record. -/
def ProjectSource.ofJson (j : Json) : ProjectSource where
  controller := .ofFields (j.fieldsAt "controller")
  programs := (j.field? "programs").map (.ofJson .ofFields)
  file := j.optTextAt "source_file"

/-! ## Findings -/

/-- The record of a point. -/
def Point.toJson (p : Point) : Json :=
  .record [("name", .text p.name), ("direction", .text p.direction.name),
    ("data_type", .text p.dataType), ("description", .optText p.description),
    ("scope", .text p.scope.name)]

/-- The records of variables. -/
def Survey.variablesToJson (l : List Survey.Variable) : Json :=
  .list (l.map fun v => .record [("name", .text v.name), ("type", .text v.type)])

/-- The record of a data type. -/
def Survey.DataType.toJson (d : Survey.DataType) : Json :=
  .compact [("name", .optText d.name), ("base_type", .text d.baseType),
    ("members", .ofTable .text d.members), ("description", .text d.description)]

/-- The record of a function block. -/
def Survey.FunctionBlock.toJson (b : Survey.FunctionBlock) : Json :=
  .compact [("name", .optText b.name), ("inputs", variablesToJson b.inputs),
    ("outputs", variablesToJson b.outputs), ("variables", variablesToJson b.vars),
    ("code", .texts b.code), ("description", .text b.description)]

/-- The record of a survey; without an element there is nothing to find. -/
def Survey.toJson (root : Option Markup.Element) : Json :=
  .record [
    ("data_types", .list (((root.map dataTypes).getD []).map DataType.toJson)),
    ("function_blocks", .list (((root.map functionBlocks).getD []).map FunctionBlock.toJson)),
    ("logic", .text ((root.map mainLogic).getD ""))]

/-- The record of what is kept of a tag. -/
def Preserved.toJson (p : Preserved) : Json :=
  .record [("scope", p.scope), ("program", p.program), ("data_type", p.dataType),
    ("description", p.description), ("external_access", p.externalAccess), ("radix", p.radix),
    ("constant", p.constant), ("alias_for", p.aliasFor), ("array_dimensions", p.arrayDimensions),
    ("initial_value", p.initialValue), ("tag_type", p.tagType), ("usage", p.usage)]

/-- The record of a variable. -/
def Variable.toJson (name : String) (v : Variable) : Json :=
  let f := v.facts
  let range := match f.range with
    | some r => [("array_range", r)]
    | none => []
  .record ([("name", .text name), ("type", f.type), ("scope", f.scope),
    ("initial_value", f.initialValue), ("is_array", .bool f.isArray),
    ("description", f.description), ("external_access", f.externalAccess), ("radix", f.radix),
    ("constant", f.constant), ("tag_type", f.tagType)] ++ range)

end ControlLogic.Exchange
