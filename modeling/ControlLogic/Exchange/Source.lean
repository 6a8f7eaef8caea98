import ControlLogic.Fault
import ControlLogic.Files
import ControlLogic.Json.Basic
import ControlLogic.Markup.Element

/-!
# Sources of projects

What a project is read from.  A source lists its tags, routines and programs by name; to look
one up may fail, and so may the listing itself.  Parts that a source does not speak of are
absent.  How a file is opened as a source is for the caller to say: all that is read from a
source is read in the same way, whatever opened it.
-/

namespace ControlLogic.Exchange

/-- What a source says of one attribute. -/
inductive Attribute where
  /-- The source has no such attribute. -/
  | missing
  /-- The attribute is there and holds no text. -/
  | empty
  | text (s : String)
  deriving DecidableEq

/-- The text of an attribute. -/
def Attribute.text? : Attribute → Option String
  | .text s => some s
  | _ => none

/-- Things listed by name. -/
structure Directory (α : Type) where
  /-- The names, in order. -/
  names : Except Fault (List String)
  /-- The thing with a name. -/
  get : String → Except Fault α
  /-- The things met when they are gone through one by one, and what stops the walk. -/
  walk : List α × Option Fault

/-- The things with names that can be looked up; the others are passed over. -/
def Directory.entries {α : Type} (d : Directory α) : Except Fault (List (String × α)) := do
  let names ← d.names
  return names.filterMap fun n => match d.get n with
    | .ok a => some (n, a)
    | .error _ => none

/-- The things with names, up to the first that cannot be looked up; none if there is no
listing. -/
def Directory.leading {α : Type} (d : Directory α) : List (String × α) :=
  match d.names with
  | .ok names => go d.get names
  | .error _ => []
where
  /-- Looks up names until one fails. -/
  go {α : Type} (get : String → Except Fault α) : List String → List (String × α)
    | [] => []
    | n :: rest =>
      match get n with
      | .ok a => (n, a) :: go get rest
      | .error _ => []

/-- A tag of a source. -/
structure TagSource where
  dataType : Attribute := .missing
  value : Except Fault Json := .error .noAttribute
  description : Attribute := .missing
  externalAccess : Option String := none
  radix : Option String := none
  constant : Bool := false
  aliasFor : Option String := none

/-- A routine of a source. -/
structure RoutineSource where
  type : Attribute := .missing
  element : Option Markup.Element := none
  localTags : Option (Directory TagSource) := none

/-- A controller or a program of a source. -/
structure ScopeSource where
  name : Option String := none
  tags : Option (Directory TagSource) := none
  routines : Option (Directory RoutineSource) := none
  element : Option Markup.Element := none
  mainRoutine : Option String := none

/-- All that a project is read from. -/
structure ProjectSource where
  controller : ScopeSource
  programs : Option (Directory ScopeSource) := none
  /-- The file that the source names as its own. -/
  file : Option String := none

/-- A way to open the file at a path as a source. -/
abbrev Opener := Files → String → Except Fault ProjectSource

end ControlLogic.Exchange
