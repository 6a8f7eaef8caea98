import ControlLogic.Exchange.Document

/-!
# Sources of generated files

A source with the tags of its controller, its data types and function blocks and its programs,
as far as it speaks of them.  The attributes of a tag are values of any kind.
-/

namespace ControlLogic.Legacy

/-- The attributes of a tag or a member. -/
abbrev Attributes := List (String × Json)

/-- The data type among the attributes, or `BOOL`. -/
def typeOf (a : Attributes) : String := ((Table.lookup "DataType" a).map Json.display).getD "BOOL"

/-- A program: its tags, its routines as lists of rungs, and the name of its main routine.  A
rung may be without a text. -/
structure ProgramSource where
  tags : Option (Table String Attributes) := none
  routines : Option (Table String (List (Option String))) := none
  mainRoutine : Option String := none

/-- A source. -/
structure Source where
  /-- The tags of the controller, unless they cannot be gone through. -/
  tags : Option (Except Fault (Table String Attributes)) := none
  /-- The members of each data type; a type may be there without any. -/
  dataTypes : Option (Table String (Option (Table String Attributes))) := none
  functionBlocks : Option (List String) := none
  programs : Option (Table String ProgramSource) := none

/-- The main program of a source. -/
def Source.mainProgram? (s : Source) : Option ProgramSource :=
  s.programs.bind (·.get? "MainProgram")

/-- A document as a source.  Its tags cannot be gone through by their names. -/
def Source.ofDocument (d : Exchange.Document) : Source where
  tags := d.source.controller.tags.map fun t => .error <| match t.walk with
    | ([], some f) => f
    | _ => .missingKey (Text.quote "tag not found")

end ControlLogic.Legacy
