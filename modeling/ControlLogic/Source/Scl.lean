import ControlLogic.Files
import ControlLogic.Markup.Reader
import ControlLogic.Project.Basic
import ControlLogic.Text.Pattern

/-!
# Structured control language

A source holds types, data blocks, organisation blocks, function blocks and functions.  The
members of types and data blocks and the variables of all sections become tags of the
controller, and every block with a body a routine.  A table of tags in markup adds the tags
of inputs and outputs.
-/

namespace ControlLogic.Source.Scl

open Text Project Markup

/-! ## Variables -/

/-- A variable. -/
structure Variable where
  name : Option String
  dataType : String
  /-- The kind of place where the variable is declared. -/
  place : String
  description : Option String := none
  address : Option String := none

/-- Keywords with blanks between them. -/
def spaced (parts : List Pattern) : Pattern := .all (parts.intersperse .blanks)

/-- A name in quotes. -/
def quotedName (n : Nat) : Pattern :=
  .all [.text "\"", .group n (.plus (.except "\"")), .text "\""]

/-- The version of a block, up to the keyword that follows it. -/
def versionUpTo (k : String) : Pattern :=
  .all [.keyword "VERSION", .blanks, .text ":", .blanks, .lazy (.except ";"), .keyword k]

/-- A type with its members. -/
def typeBlock : Pattern :=
  .all [.keyword "TYPE", .gap, quotedName 1, .blanks, versionUpTo "STRUCT", .blanks,
    .group 2 (.lazy .any), .keyword "END_STRUCT", .blanks, .keyword "END_TYPE"]

/-- A data block with its members. -/
def dataBlock : Pattern :=
  .all [.keyword "DATA_BLOCK", .gap, quotedName 1, .blanks, .keyword "TITLE", .blanks, .text "=",
    .blanks, .lazy (.except ";"), .text "\x7b", .lazy .any, .text "\x7d", .lazy .any,
    versionUpTo "NON_RETAIN", .blanks, .keyword "STRUCT", .blanks, .group 2 (.lazy .any),
    .keyword "END_STRUCT"]

/-- A section of variables that begins with a keyword. -/
def variableBlock (k : String) : Pattern :=
  .all [.keyword k, .blanks, .group 1 (.lazy .any), .keyword "END_VAR"]

/-- A declaration. -/
def declaration : Pattern :=
  .all [.group 1 .word, .blanks, .text ":", .blanks, .group 2 (.lazyPlus (.except ";")), .text ";"]

/-- The type of a declaration: the type of an array's elements, without quotes. -/
def declaredType (type : String) : String :=
  let type := strip type
  let type := if contains "[" type then strip ((split '[' type).headD "") else type
  (unquote '"' type).getD type

/-- The names and types that a body declares. -/
def readDeclarations (body : String) : List (String × String) :=
  (declaration.findAll body).map fun m => (m.group 1, declaredType (m.group 2))

/-- The keywords of variable sections, each with the words that its variables are described
by. -/
def sectionKinds : List (String × String) := [
  ("VAR", "VAR"),
  ("VAR_INPUT", "INPUT\\s*(.*?)END"),
  ("VAR_OUTPUT", "OUTPUT\\s*(.*?)END"),
  ("VAR_IN_OUT", "IN"),
  ("VAR_TEMP", "TEMP\\s*(.*?)END"),
  ("VAR_CONSTANT", "CONSTANT\\s*(.*?)END")]

/-- The variables of a source: those of types, of data blocks and of sections. -/
def readVariables (source : String) : List Variable :=
  let types := (typeBlock.findAll source).flatMap fun m =>
    (readDeclarations (m.group 2)).map fun (name, type) =>
      { name := some (m.group 1 ++ "." ++ name), dataType := type, place := "TYPE"
        description := some ("Member of " ++ m.group 1) : Variable }
  let blocks := (dataBlock.findAll source).flatMap fun m =>
    (readDeclarations (m.group 2)).map fun (name, type) =>
      { name := some (m.group 1 ++ "." ++ name), dataType := type, place := "DATA_BLOCK"
        description := some ("Member of data block " ++ m.group 1) : Variable }
  let sections := sectionKinds.flatMap fun (k, words) =>
    ((variableBlock k).findAll source).flatMap fun m =>
      (readDeclarations (m.group 1)).map fun (name, type) =>
        { name := some name, dataType := type, place := "VAR"
          description := some ("Variable from " ++ words ++ " section") : Variable }
  types ++ blocks ++ sections

/-- A written type without remarks, array bounds, quotes, addresses and attributes. -/
def cleanType (type : String) : String :=
  let type := if contains "//" type then strip ((splitOn "//" type).headD "") else type
  if contains "[" type then strip ((split '[' type).headD "")
  else
    match unquote '"' type with
    | some inner => inner
    | none =>
      if contains " AT " type then strip ((splitOn " AT " type).headD "")
      else if startsWith "S7_" type || startsWith "= " type then "ATTRIBUTE"
      else if contains "\x7b" type && contains "\x7d" type then
        match splitOn "\x7d : " type with
        | _ :: second :: _ => strip second
        | _ => "COMPLEX_TYPE"
      else strip type

/-! ## Routines -/

/-- A block with a body. -/
structure Unit where
  name : String
  content : String
  description : String

/-- A block between two keywords, with a version and a body. -/
def bodyBlock (k : String) : Pattern :=
  .all [.keyword k, .gap, quotedName 1, .blanks, versionUpTo "BEGIN", .blanks,
    .group 2 (.lazy .any), .keyword ("END_" ++ k)]

/-- A function with its result. -/
def functionBlock : Pattern :=
  .all [.keyword "FUNCTION", .gap, quotedName 1, .blanks, .text ":", .blanks,
    .group 2 (.lazy (.except ";")), .blanks, versionUpTo "BEGIN", .blanks, .group 3 (.lazy .any),
    .keyword "END_FUNCTION"]

/-- The blocks with bodies of a source, or all of it as one. -/
def readUnits (source : String) : List Unit :=
  let organisation := ((bodyBlock "ORGANIZATION_BLOCK").findAll source).map fun m =>
    ⟨m.group 1, strip (m.group 2), "Siemens SCL organization block: " ++ m.group 1⟩
  let blocks := ((bodyBlock "FUNCTION_BLOCK").findAll source).map fun m =>
    ⟨m.group 1, strip (m.group 2), "Siemens SCL function block: " ++ m.group 1⟩
  let functions := (functionBlock.findAll source).map fun m =>
    ⟨m.group 1, strip (m.group 3),
      "Siemens SCL function: " ++ m.group 1 ++ " -> " ++ strip (m.group 2)⟩
  match organisation ++ blocks ++ functions with
  | [] => [⟨"Main", source, "Siemens SCL main program"⟩]
  | units => units

/-! ## Tag tables -/

/-- The types with a standard name of their own. -/
def standardTypes : List (String × String) := [
  ("S5TIME", "TIME"), ("TimeOfDay", "TIME_OF_DAY"), ("DateAndTime", "DATE_AND_TIME"),
  ("LDT", "DATE_AND_TIME")]

/-- The standard name of a type. -/
def standardType (type : String) : String :=
  (Table.lookup type standardTypes).getD (upper type)

/-- The variables of a tag table. -/
def readTagTable (root : Element) : List Variable :=
  (root.descendantsNamed "Tag").map fun e =>
    { name := e.text
      dataType := standardType (e.attributeD "type" "Unknown")
      place := "I/O"
      description := some (e.attributeD "remark" "")
      address := some (e.attributeD "addr" "") }

/-! ## The project -/

/-- The tag of a variable. -/
def Variable.tag (v : Variable) : Tag where
  name := v.name.getD "None"
  named := v.name.isSome
  dataType := v.dataType
  scope := .controller
  description := v.description
  externalAccess := v.address

/-- The name of the controller of a file: the name of the file, or that of a known
directory. -/
def controllerName (path : String) : String :=
  match (Path.parts path).reverse with
  | _ :: dir :: _ => if dir = "TP" || dir = "IM" then "Siemens_" ++ dir else Path.stem path
  | _ => Path.stem path

/-- The project of a source with its controller's name and the variables of a tag table. -/
def project (name source : String) (table : List Variable) : Project where
  controller := {
    name
    tags := (readVariables source ++ table).map Variable.tag
    sourceType := some "siemens" }
  programs := [{
    name := "Main"
    routines := (readUnits source).map fun u =>
      { name := u.name, language := .st, content := some u.content
        description := some u.description }
    sourceType := some "siemens" }]
  sourceType := some "siemens"

/-- The variables of the tag table at a path; a table that cannot be read has none. -/
def loadTagTable (files : Files) (path : String) : List Variable :=
  match files.read path with
  | .ok text => ((Element.parse? text).map readTagTable).getD []
  | .error _ => []

/-- Reads the file at a path, with a tag table at another. -/
def load (files : Files) (path : String) (table : Option String) : Except Fault Project := do
  let source ← files.readLenient path
  return project (controllerName path) source ((table.map (loadTagTable files)).getD [])

end ControlLogic.Source.Scl
