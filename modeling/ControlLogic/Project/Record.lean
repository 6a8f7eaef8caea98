import ControlLogic.Project.Basic

/-!
# Projects as records

A project and its parts as records, one field for each attribute.  In a record that is read, a
field may be absent; in a record that is written, fields without a value are left out.
-/

namespace ControlLogic.Project

/-! ## Reading -/

/-- The tag of a record. -/
def Tag.ofJson (j : Json) : Tag where
  name := j.textAt "name"
  dataType := j.textAt "data_type" "BOOL"
  scope := (Scope.ofName? (j.textAt "scope" "Controller")).getD .controller
  value := j.optTextAt "value"
  description := j.optTextAt "description"
  externalAccess := j.optTextAt "external_access"
  radix := j.optTextAt "radix"
  constant := j.flagAt "constant" false
  aliasFor := j.optTextAt "alias_for"
  arrayDimensions := j.optIntsAt "array_dimensions"
  initialValue := j.optTextAt "initial_value"
  userDefinedType := j.optTextAt "user_defined_type"

/-- The member of a record. -/
def Member.ofJson (j : Json) : Member where
  name := j.textAt "name"
  dataType := j.textAt "data_type" "BOOL"
  description := j.optTextAt "description"
  radix := j.optTextAt "radix"
  externalAccess := j.optTextAt "external_access"
  arrayDimensions := j.optIntsAt "array_dimensions"
  initialValue := j.optTextAt "initial_value"

/-- The data type of a record. -/
def DataType.ofJson (j : Json) : DataType where
  name := j.textAt "name"
  baseType := j.optTextAt "base_type"
  members := (j.itemsAt "members").map Member.ofJson
  description := j.optTextAt "description"
  isEnum := j.flagAt "is_enum" false
  enumValues := (j.itemsAt "enum_values").map Json.display

/-- The parameter of a record. -/
def Parameter.ofJson (j : Json) : Parameter where
  name := j.textAt "name"
  dataType := j.textAt "data_type" "BOOL"
  kind := j.textAt "parameter_type" "Input"
  description := j.optTextAt "description"
  required := j.flagAt "required" true
  arrayDimensions := j.optIntsAt "array_dimensions"
  initialValue := j.optTextAt "initial_value"

/-- The function block of a record. -/
def FunctionBlock.ofJson (j : Json) : FunctionBlock where
  name := j.textAt "name"
  description := j.optTextAt "description"
  parameters := (j.itemsAt "parameters").map Parameter.ofJson
  localVariables := (j.itemsAt "local_variables").map Parameter.ofJson
  implementation := j.optTextAt "implementation"

/-- The routine of a record. -/
def Routine.ofJson (j : Json) : Routine where
  name := j.textAt "name"
  language := (Language.ofName? (j.textAt "routine_type" "ST")).getD .st
  content := match j.field? "content" with
    | none => some ""
    | some .null => none
    | some v => some v.display
  description := j.optTextAt "description"
  localVariables := (j.itemsAt "local_variables").map Tag.ofJson
  parameters := (j.itemsAt "parameters").map Parameter.ofJson
  returnType := j.optTextAt "return_type"
  controlFlow := j.field? "control_flow"

/-- The program of a record. -/
def Program.ofJson (j : Json) : Program where
  name := j.textAt "name"
  description := j.optTextAt "description"
  mainRoutine := j.optTextAt "main_routine"
  routines := (j.itemsAt "routines").map Routine.ofJson
  tags := (j.itemsAt "tags").map Tag.ofJson
  localVariables := (j.itemsAt "local_variables").map Tag.ofJson
  sourceType := j.optTextAt "source_type"
  taskName := j.optTextAt "task_name"

/-- The controller of a record. -/
def Controller.ofJson (j : Json) : Controller where
  name := j.textAt "name"
  description := j.optTextAt "description"
  tags := (j.itemsAt "tags").map Tag.ofJson
  dataTypes := (j.itemsAt "data_types").map DataType.ofJson
  functionBlocks := (j.itemsAt "function_blocks").map FunctionBlock.ofJson
  globalVariables := (j.itemsAt "global_variables").map Tag.ofJson
  sourceType := j.optTextAt "source_type"

/-- The project of a record; the controller has the name `C` if there is none. -/
def ofJson (j : Json) : Project where
  controller := match j.field? "controller" with
    | some c => Controller.ofJson c
    | none => { name := "C" }
  programs := (j.itemsAt "programs").map Program.ofJson
  modules := j.itemsAt "modules"
  tasks := j.itemsAt "tasks"
  metadata := j.fieldsAt "metadata"
  sourceType := j.optTextAt "source_type"

/-! ## Writing -/

/-- The fields of a tag. -/
def Tag.fields (t : Tag) : List (String × Json) :=
  [("name", if t.named then .text t.name else .null), ("data_type", .text t.dataType),
    ("scope", .text t.scope.name), ("value", .optText t.value),
    ("description", .optText t.description), ("external_access", .optText t.externalAccess),
    ("radix", .optText t.radix), ("constant", .bool t.constant), ("alias_for", .optText t.aliasFor),
    ("array_dimensions", .optInts t.arrayDimensions), ("initial_value", .optText t.initialValue),
    ("user_defined_type", .optText t.userDefinedType)]

/-- The record of a tag. -/
def Tag.toJson (t : Tag) : Json := .compact t.fields

/-- The fields of a member. -/
def Member.fields (m : Member) : List (String × Json) :=
  [("name", .text m.name), ("data_type", .text m.dataType),
    ("description", .optText m.description), ("radix", .optText m.radix),
    ("external_access", .optText m.externalAccess),
    ("array_dimensions", .optInts m.arrayDimensions), ("initial_value", .optText m.initialValue)]

/-- The record of a member. -/
def Member.toJson (m : Member) : Json := .compact m.fields

/-- The fields of a data type, each member by `f`. -/
def DataType.fields (f : Member → Json) (d : DataType) : List (String × Json) :=
  [("name", .text d.name), ("base_type", .optText d.baseType),
    ("members", .list (d.members.map f)), ("description", .optText d.description),
    ("is_enum", .bool d.isEnum), ("enum_values", .texts d.enumValues)]

/-- The record of a data type. -/
def DataType.toJson (d : DataType) : Json := .compact (d.fields Member.toJson)

/-- The fields of a parameter. -/
def Parameter.fields (p : Parameter) : List (String × Json) :=
  [("name", .text p.name), ("data_type", .text p.dataType),
    ("parameter_type", .text p.kind), ("description", .optText p.description),
    ("required", .bool p.required), ("array_dimensions", .optInts p.arrayDimensions),
    ("initial_value", .optText p.initialValue)]

/-- The record of a parameter. -/
def Parameter.toJson (p : Parameter) : Json := .compact p.fields

/-- The fields of a function block, each parameter by `f`. -/
def FunctionBlock.fields (f : Parameter → Json) (b : FunctionBlock) : List (String × Json) :=
  [("name", .text b.name), ("description", .optText b.description),
    ("parameters", .list (b.parameters.map f)),
    ("local_variables", .list (b.localVariables.map f)),
    ("implementation", .optText b.implementation)]

/-- The record of a function block. -/
def FunctionBlock.toJson (b : FunctionBlock) : Json := .compact (b.fields Parameter.toJson)

/-- The record of a routine. -/
def Routine.toJson (r : Routine) : Json :=
  .compact [("name", .text r.name), ("routine_type", .text r.language.name),
    ("content", .optText r.content), ("description", .optText r.description),
    ("local_variables", .list (r.localVariables.map Tag.toJson)),
    ("parameters", .list (r.parameters.map Parameter.toJson)),
    ("return_type", .optText r.returnType)]

/-- The record of a program. -/
def Program.toJson (p : Program) : Json :=
  .compact [("name", .text p.name), ("description", .optText p.description),
    ("main_routine", .optText p.mainRoutine), ("routines", .list (p.routines.map Routine.toJson)),
    ("tags", .list (p.tags.map Tag.toJson)),
    ("local_variables", .list (p.localVariables.map Tag.toJson)),
    ("source_type", .optText p.sourceType)]

/-- The record of a controller. -/
def Controller.toJson (c : Controller) : Json :=
  .compact [("name", .text c.name), ("description", .optText c.description),
    ("tags", .list (c.tags.map Tag.toJson)),
    ("data_types", .list (c.dataTypes.map DataType.toJson)),
    ("function_blocks", .list (c.functionBlocks.map FunctionBlock.toJson)),
    ("global_variables", .list (c.globalVariables.map Tag.toJson)),
    ("source_type", .optText c.sourceType)]

/-- The record of a project. -/
def toJson (p : Project) : Json :=
  .compact [("controller", p.controller.toJson),
    ("programs", .list (p.programs.map Program.toJson)), ("modules", .list p.modules),
    ("tasks", .list p.tasks), ("metadata", .record p.metadata),
    ("source_type", .optText p.sourceType)]

end ControlLogic.Project
