import ControlLogic.Json.Basic

/-!
# Projects

A project is what all sources of control programs are read into: a controller with tags,
data types and function blocks, and programs with routines.
-/

namespace ControlLogic

namespace Project

/-- Where a tag can be seen. -/
inductive Scope where
  | controller
  | program
  deriving DecidableEq

/-- The name of a scope. -/
def Scope.name : Scope → String
  | controller => "Controller"
  | program => "Program"

/-- The scope with a name. -/
def Scope.ofName? : String → Option Scope
  | "Controller" => some controller
  | "Program" => some program
  | _ => none

/-- The language of a routine. -/
inductive Language where
  | st
  | rll
  | fbd
  | sfc
  | lad
  deriving DecidableEq

/-- The name of a language. -/
def Language.name : Language → String
  | st => "ST"
  | rll => "RLL"
  | fbd => "FBD"
  | sfc => "SFC"
  | lad => "LAD"

/-- The language with a name. -/
def Language.ofName? : String → Option Language
  | "ST" => some st
  | "RLL" => some rll
  | "FBD" => some fbd
  | "SFC" => some sfc
  | "LAD" => some lad
  | _ => none

/-- A tag. -/
structure Tag where
  name : String
  /-- Whether the source gives the tag a name; if not, `name` only holds a place. -/
  named : Bool := true
  dataType : String
  scope : Scope
  value : Option String := none
  description : Option String := none
  externalAccess : Option String := none
  radix : Option String := none
  constant : Bool := false
  aliasFor : Option String := none
  arrayDimensions : Option (List Int) := none
  initialValue : Option String := none
  userDefinedType : Option String := none
  deriving DecidableEq

/-- A member of a data type. -/
structure Member where
  name : String
  dataType : String
  description : Option String := none
  radix : Option String := none
  externalAccess : Option String := none
  arrayDimensions : Option (List Int) := none
  initialValue : Option String := none
  deriving DecidableEq

/-- A data type. -/
structure DataType where
  name : String
  baseType : Option String := none
  members : List Member := []
  description : Option String := none
  isEnum : Bool := false
  enumValues : List String := []
  deriving DecidableEq

/-- A parameter of a function block or a routine. -/
structure Parameter where
  name : String
  dataType : String
  /-- Which way the parameter is passed. -/
  kind : String
  description : Option String := none
  required : Bool := true
  arrayDimensions : Option (List Int) := none
  initialValue : Option String := none
  deriving DecidableEq

/-- A function block. -/
structure FunctionBlock where
  name : String
  description : Option String := none
  parameters : List Parameter := []
  localVariables : List Parameter := []
  implementation : Option String := none
  deriving DecidableEq

/-- A routine. -/
structure Routine where
  name : String
  language : Language
  content : Option String
  description : Option String := none
  localVariables : List Tag := []
  parameters : List Parameter := []
  returnType : Option String := none
  /-- An account of the flow of control that came with the routine. -/
  controlFlow : Option Json := none

/-- A program. -/
structure Program where
  name : String
  description : Option String := none
  mainRoutine : Option String := none
  routines : List Routine := []
  tags : List Tag := []
  localVariables : List Tag := []
  sourceType : Option String := none
  /-- The task that the program was said to run in. -/
  taskName : Option String := none

/-- A controller. -/
structure Controller where
  name : String
  description : Option String := none
  tags : List Tag := []
  dataTypes : List DataType := []
  functionBlocks : List FunctionBlock := []
  globalVariables : List Tag := []
  sourceType : Option String := none

end Project

/-- A controller with its programs. -/
structure Project where
  controller : Project.Controller
  programs : List Project.Program := []
  modules : List Json := []
  tasks : List Json := []
  metadata : List (String × Json) := []
  sourceType : Option String := none

namespace Project

/-- The text of a routine, empty if there is none. -/
def Routine.text (r : Routine) : String := r.content.getD ""

/-- The routines of all programs, in order. -/
def routines (p : Project) : List Routine := p.programs.flatMap (·.routines)

end Project

end ControlLogic
