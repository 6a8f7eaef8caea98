import ControlLogic.Json.Basic
import ControlLogic.OrderedSet.Basic
import ControlLogic.Table
import ControlLogic.Text.Basic
import ControlLogic.Text.Case

/-!
# Declared names

What has been declared so far while the sources of several controllers are put into one
file.  The first declaration of a name wins.  Variables are told apart without regard to
case.
-/

namespace ControlLogic.Legacy

/-- The names declared so far. -/
structure Names where
  fbdTimers : List String := []
  dataTypes : Table String String := Table.empty
  structNames : List String := []
  varNames : OrderedSet String := OrderedSet.empty
  fbdNames : List String := []
  fbdOrigin : Table String String := Table.empty
  varOrigin : Table String String := Table.empty
  structOrigin : Table String String := Table.empty
  /-- The number of the controller whose source is read. -/
  controller : Nat := 1

namespace Names

/-- Goes on to the next controller. -/
def nextController (s : Names) : Names :=
  { s with controller := s.controller + 1 }

/-- Declares a variable, unless one of the same name, case aside, is declared. -/
def addVariable (s : Names) (name type origin : String) : Names :=
  let key := Text.lower name
  if s.varNames.contains key then s
  else { s with
    varNames := (s.varNames.add key).1
    dataTypes := s.dataTypes.insert key type
    varOrigin := s.varOrigin.insert key origin }

/-- Declares a structure, unless one of the same name is declared. -/
def addStruct (s : Names) (name origin : String) : Names :=
  if s.structNames.contains name then s
  else { s with
    structNames := s.structNames ++ [name]
    structOrigin := s.structOrigin.insert name origin }

/-- Declares a function, unless one of the same name is declared. -/
def addFunction (s : Names) (name origin : String) : Names :=
  if s.fbdNames.contains name then s
  else { s with
    fbdNames := s.fbdNames ++ [name]
    fbdOrigin := s.fbdOrigin.insert name origin }

/-- Texts in ascending order. -/
def sorted (l : List String) : List String := l.mergeSort fun a b => decide (a ≤ b)

/-- The record of the declared names. -/
def toJson (s : Names) : Json :=
  .record [("fbd_timers", .texts s.fbdTimers), ("data_types", .ofTable .text s.dataTypes),
    ("fbd_types", .record []), ("struct_names", .texts (sorted s.structNames)),
    ("var_names", .texts s.varNames.items), ("fbd_names", .texts (sorted s.fbdNames)),
    ("fbd_origin", .ofTable .text s.fbdOrigin), ("var_origin", .ofTable .text s.varOrigin),
    ("struct_origin", .ofTable .text s.structOrigin), ("msgs_to_initialize", .list []),
    ("local_vars_to_remove", .list []), ("current_controller", .nat s.controller),
    ("appended_reserved_words", .list [])]

end Names

/-- The four parts of a file of Structured Text. -/
structure SourceFile where
  structs : String
  functions : String
  vars : String
  programs : String

namespace SourceFile

/-- The file with the parts of another put after its own. -/
def append (f g : SourceFile) : SourceFile where
  structs := f.structs ++ g.structs
  functions := f.functions ++ g.functions
  vars := f.vars ++ g.vars
  programs := f.programs ++ g.programs

/-- The text of a file. -/
def text (f : SourceFile) : String :=
  Text.join "\n" [f.structs, f.functions, f.vars, f.programs]

end SourceFile

end ControlLogic.Legacy
