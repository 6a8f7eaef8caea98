import ControlLogic.Files
import ControlLogic.Text.Numeral
import ControlLogic.Text.Pattern

/-!
# Overlays

An overlay is a second account of a project, in plain text: tags, tasks, programs and
modules with their attributes.
-/

namespace ControlLogic.Overlay

open Text

/-- A tag of an overlay. -/
structure Tag where
  name : String
  dataType : String
  scope : String := "Controller"
  value : Option String := none
  description : Option String := none
  externalAccess : Option String := none
  radix : Option String := none
  constant : Bool := false
  aliasFor : Option String := none
  arrayDimensions : Option (List Int) := none
  initialValue : Option String := none
  deriving DecidableEq

/-- A task of an overlay. -/
structure Task where
  name : String
  kind : String
  priority : Int := 10
  watchdog : Int := 500
  interval : Option String := none

/-- A program of an overlay. -/
structure Program where
  name : String
  mainRoutine : Option String := none
  taskName : Option String := none

/-- A module of an overlay. -/
structure Module where
  name : String
  kind : String
  slot : Int
  configuration : Table String String

/-! ## Tags -/

/-- The numbers of a list of dimensions; none if one of them is no number. -/
def readDimensions (s : String) : List Int :=
  ((split ',' s).mapM fun d => readInt? (strip d)).getD []

/-- A name with a definition up to a semicolon. -/
def tagLine : Pattern :=
  .all [.group 1 .word, .blanks, .text ":", .blanks, .group 2 (.lazyPlus .inLine), .text ";"]

/-- A type, maybe with dimensions. -/
def typeWithDimensions : Pattern :=
  .seq (.group 1 .word)
    (.optional (.all [.blanks, .text "[", .group 2 (.plus (.except "]")), .text "]"]))

/-- A list of attributes in parentheses. -/
def attributeList : Pattern :=
  .all [.text "(", .group 1 (.plus (.except ")")), .text ")"]

/-- An attribute, up to the next one or the end. -/
def attributePair : Pattern :=
  .all [.group 1 .word, .blanks, .text ":=", .blanks, .group 2 (.lazyPlus (.except ",")),
    .ahead (.alt (.all [.blanks, .text ",", .blanks, .word, .blanks, .text ":="]) .atEnd)]

/-- Parentheses with what they hold. -/
def parenthesised : Pattern :=
  .all [.text "(", .star (.except ")"), .text ")"]

/-- A value, up to a semicolon or the end. -/
def assignedValue : Pattern :=
  .all [.text ":=", .blanks, .group 1 (.lazyPlus (.except ";")),
    .ahead (.alt (.seq .blanks (.text ";")) .atEnd)]

/-- The attributes of a definition, under their names in capitals. -/
def readAttributes (definition : String) : Table String String :=
  match attributeList.find? definition with
  | none => Table.empty
  | some m =>
    (attributePair.findAll (m.group 1)).foldl
      (fun t a => t.insert (upper (strip (a.group 1))) (strip (a.group 2))) Table.empty

/-- A text without the quotation marks around it. -/
def unquoted (s : String) : String := (unquote '"' s).getD s

/-- Reads a line that declares a tag. -/
def readTagLine? (line : String) : Option Tag := do
  let m ← tagLine.matchStart? line
  let definition := strip (m.group 2)
  let type ← typeWithDimensions.matchStart? definition
  let attributes := readAttributes definition
  let value := (assignedValue.find? (parenthesised.substitute (fun _ => "") line)).map fun v =>
    strip (v.group 1)
  some {
    name := m.group 1
    dataType := upper (type.group 1)
    value
    description := (attributes.get? "DESCRIPTION").map unquoted
    externalAccess := (attributes.get? "EXTERNALACCESS").map unquoted
    radix := attributes.get? "RADIX"
    constant := contains "CONSTANT" (upper definition)
    aliasFor := (attributes.get? "ALIAS_FOR").map unquoted
    arrayDimensions := (type.group? 2).map readDimensions
    initialValue := value }

/-- An attribute in quotation marks after an equals sign. -/
def quotedAttribute (sign key : String) : Pattern :=
  .all [.keyword key, .blanks, .text sign, .blanks, .text "\"", .group 1 (.star (.except "\"")),
    .text "\""]

/-- A value, up to a semicolon. -/
def plainValue : Pattern := .all [.text ":=", .blanks, .group 1 (.plus (.except ";"))]

/-- Reads the definition of a tag in its other form, with attributes after equals signs. -/
def readTagDefinition? (name definition : String) : Option Tag := do
  let type ← typeWithDimensions.find? definition
  let value := (plainValue.find? definition).map fun v => strip (v.group 1)
  let quoted (key : String) := ((quotedAttribute "=" key).find? definition).map (·.group 1)
  some {
    name
    dataType := upper (type.group 1)
    value
    description := quoted "DESCRIPTION"
    externalAccess := quoted "EXTERNAL_ACCESS"
    radix := quoted "RADIX"
    constant := contains "CONSTANT" (upper definition)
    aliasFor := quoted "ALIAS_FOR"
    arrayDimensions := (type.group? 2).map readDimensions
    initialValue := value }

/-- A block of tags. -/
def tagBlock : Pattern :=
  .all [.keyword "TAG", .gap, .group 1 (.lazy .any), .keyword "END_TAG"]

/-- The tags of all blocks, in order. -/
def readTags (source : String) : List Tag :=
  (tagBlock.findAll source).flatMap fun m =>
    (((split '\n' (strip (m.group 1))).map strip).filter fun l =>
      l ≠ "" && !startsWith "--" l).filterMap readTagLine?

/-! ## Tasks, programs and modules -/

/-- A named block with parameters in parentheses and a body. -/
def namedBlock (k : String) : Pattern :=
  .all [.keyword k, .gap, .group 1 .word, .blanks, .text "(", .group 2 (.lazy .any), .text ")",
    .blanks, .group 3 (.lazy .any), .keyword ("END_" ++ k)]

/-- The name, the parameters and the body of each block. -/
def readBlocks (k source : String) : List (String × String × String) :=
  ((namedBlock k).findAll source).map fun m => (m.group 1, strip (m.group 2), strip (m.group 3))

/-- A parameter with a number. -/
def numberParameter (key : String) : Pattern :=
  .all [.keyword key, .blanks, .text ":=", .blanks, .group 1 .decimals]

/-- The number of a parameter, or a default; nothing if the number cannot be read. -/
def readNumber? (key params : String) (default : Int) : Option Int :=
  match (numberParameter key).find? params with
  | none => some default
  | some m => readInt? (m.group 1)

/-- Reads the parameters of a task. -/
def readTask? (name params : String) : Option Task := do
  let kind :=
    if contains "PERIODIC" (upper params) then "PERIODIC"
    else if contains "EVENT" (upper params) then "EVENT"
    else "CONTINUOUS"
  let priority ← readNumber? "Priority" params 10
  let watchdog ← readNumber? "Watchdog" params 500
  let interval ←
    match (numberParameter "Rate").find? params with
    | some m =>
      if kind = "PERIODIC" then (readInt? (m.group 1)).map fun n => some ("T#" ++ toString n ++ "ms")
      else some none
    | none => some none
  some { name, kind, priority, watchdog, interval }

/-- The programs that a task runs, one a line. -/
def scheduledPrograms (body : String) : List String :=
  ((lines body).map fun l => trimRight (· = ';') (strip l)).filter (· ≠ "")

/-- Which task runs each program. -/
def readSchedule (source : String) : Table String String :=
  (readBlocks "TASK" source).foldl (fun t (name, _, body) =>
    (scheduledPrograms body).foldl (fun t p => t.insert p name) t) Table.empty

/-- Reads the parameters of a program, given which task runs each program. -/
def readProgram (schedule : Table String String) (name params : String) : Program where
  name := name
  mainRoutine := ((quotedAttribute ":=" "MAIN").find? params).map (·.group 1)
  taskName :=
    match (schedule.get? name).filter (· ≠ "") with
    | some task => some task
    | none =>
      match (quotedAttribute ":=" "TASK").find? params with
      | some m => some (m.group 1)
      | none => schedule.get? name

/-- The kind of a module: its catalogue number, or what its name or its parent tells. -/
def moduleKind (name params : String) : String :=
  match (quotedAttribute ":=" "CatalogNumber").find? params with
  | some m => m.group 1
  | none =>
    match (quotedAttribute ":=" "Parent").find? params with
    | none => "UNKNOWN"
    | some m =>
      if contains "CONTROLLER" (upper name) then "Controller"
      else if contains "RIO" (upper name) then "Remote I/O"
      else if contains "EN" (upper name) then "Ethernet"
      else m.group 1

/-- A parameter with its value. -/
def parameterPair : Pattern :=
  .all [.group 1 .word, .blanks, .text ":=", .blanks, .group 2 (.plus (.except ","))]

/-- Reads the parameters of a module. -/
def readModule? (name params : String) : Option Module := do
  let slot ← readNumber? "Slot" params 0
  some {
    name
    kind := moduleKind name params
    slot
    configuration := (parameterPair.findAll params).foldl (fun t m =>
      if strip (m.group 1) = "Slot" then t else t.insert (strip (m.group 1)) (strip (m.group 2)))
      Table.empty }

end Overlay

/-- All that an overlay tells, with the path of its file. -/
structure Overlay where
  path : String
  tags : List Overlay.Tag
  tasks : List Overlay.Task
  programs : List Overlay.Program
  modules : List Overlay.Module
  /-- Which task runs each program. -/
  schedule : Table String String

namespace Overlay

/-- Reads an overlay. -/
def ofText (path source : String) : Overlay :=
  let schedule := readSchedule source
  { path
    tags := readTags source
    tasks := (readBlocks "TASK" source).filterMap fun (name, params, _) => readTask? name params
    programs := (readBlocks "PROGRAM" source).map fun (name, params, _) =>
      readProgram schedule name params
    modules := (readBlocks "MODULE" source).filterMap fun (name, params, _) =>
      readModule? name params
    schedule }

/-- Reads the overlay at a path. -/
def load (files : Files) (path : String) : Except Fault Overlay :=
  match files.find? path with
  | none => .error (.overlayNotFound path)
  | some c => return ofText path (← c.readLenient path)

end ControlLogic.Overlay
