import ControlLogic.Analysis.Usage

/-!
# Plants

A plant is several controllers, each with its project, under names of their own.  A tag is
written by a controller if a line of one of its routines assigns to it, and read if it stands
on the right of an assignment or in the condition of an `IF`.  A tag that one controller writes
and another reads is a dependency; a tag that controllers declare differently is a conflict.
-/

namespace ControlLogic

/-- Projects under the names of their controllers. -/
structure Plant where
  controllers : Table String Project

namespace Plant

open Analysis (liveLines written read)

/-! ## Use of tags -/

/-- The routines of a controller under each tag that `f` gives for a line, once for each
line. -/
def noteLines (f : String → List String) (controller : String)
    (t : Table String (Table String (List String))) (r : Project.Routine) :
    Table String (Table String (List String)) :=
  ((liveLines r.text).flatMap f).foldl
    (fun t tag => t.alter tag Table.empty fun u => u.alter controller [] (· ++ [r.name])) t

/-- The routines under each tag and controller. -/
def uses (f : String → List String) (p : Plant) : Table String (Table String (List String)) :=
  p.controllers.entries.foldl
    (fun t (name, q) => q.routines.foldl (noteLines f name) t) Table.empty

/-- The routines that write each tag, by controller. -/
def writers (p : Plant) : Table String (Table String (List String)) := p.uses written

/-- The routines that read each tag, by controller. -/
def readers (p : Plant) : Table String (Table String (List String)) := p.uses read

/-! ## Definitions -/

/-- How a controller declares a tag. -/
structure Definition where
  dataType : String
  scope : Project.Scope
  description : Option String
  deriving DecidableEq

/-- The definition that a tag declares. -/
def Definition.ofTag (t : Project.Tag) : Definition := ⟨t.dataType, t.scope, t.description⟩

/-- The definitions of each tag, by controller. -/
def definitions (p : Plant) : Table String (Table String Definition) :=
  p.controllers.entries.foldl (fun t (name, q) => q.controller.tags.foldl
    (fun t tag => t.alter tag.name Table.empty (·.insert name (.ofTag tag))) t) Table.empty

/-! ## Dependencies -/

/-- A tag that one controller writes and another reads. -/
structure Dependency where
  tag : String
  writer : String
  reader : String
  dataType : Option String := none
  description : Option String := none
  deriving DecidableEq

/-- The dependencies between different controllers. -/
def dependencies (p : Plant) : List Dependency :=
  let writers := p.writers
  let readers := p.readers
  let definitions := p.definitions
  (Text.ascending (Text.meet writers.keys readers.keys)).flatMap fun tag =>
    (writers.getD tag Table.empty).keys.flatMap fun writer =>
      let definition := (definitions.get? tag).bind (·.get? writer)
      (((readers.getD tag Table.empty).keys).filter (writer != ·)).map fun reader =>
        { tag, writer, reader, dataType := definition.map (·.dataType)
          description := definition.bind (·.description) }

/-! ## Conflicts -/

/-- In what definitions of a tag differ. -/
inductive Difference where
  | dataTypes
  | scopes
  deriving DecidableEq

/-- A tag with definitions that differ. -/
structure Conflict where
  tag : String
  difference : Difference
  /-- What each controller says. -/
  details : Table String String

/-- Whether all texts of a list are the same. -/
def agree : List String → Bool
  | [] => true
  | a :: rest => rest.all (a == ·)

/-- The conflict of a tag in what `f` gives for its definitions. -/
def conflictIn (tag : String) (difference : Difference) (f : Definition → String)
    (t : Table String Definition) : Option Conflict :=
  if agree (t.values.map f) then none else some ⟨tag, difference, t.map f⟩

/-- The conflicts of one tag. -/
def conflictsOf (tag : String) (t : Table String Definition) : List Conflict :=
  (conflictIn tag .dataTypes (·.dataType) t).toList ++
    (conflictIn tag .scopes (·.scope.name) t).toList

/-- The conflicts. -/
def conflicts (p : Plant) : List Conflict :=
  p.definitions.entries.flatMap fun (tag, t) => conflictsOf tag t

end Plant

end ControlLogic
