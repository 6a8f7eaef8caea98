import ControlLogic.Overlay.Basic
import ControlLogic.Project.Basic

/-!
# Applying an overlay

An overlay adds to a project what the project lacks.  Tags and programs that are there keep
what they have and get only what is missing; tasks and modules that are there are
overwritten.
-/

namespace ControlLogic.Overlay

open Project

/-- The value unless it is missing or empty, else the other if that is not empty. -/
def fillText (old new : Option String) : Option String :=
  match old with
  | some s => if s ≠ "" then old else if new.any (· ≠ "") then new else old
  | none => if new.any (· ≠ "") then new else old

/-- The dimensions unless they are missing or empty, else the others if those are not. -/
def fillDimensions (old new : Option (List Int)) : Option (List Int) :=
  match old with
  | some (d :: ds) => some (d :: ds)
  | _ => if new.any (· ≠ []) then new else old

/-- A tag of the project with what the overlay adds to it. -/
def mergeTag (t : Project.Tag) (o : Tag) : Project.Tag :=
  { t with
    description := fillText t.description o.description
    externalAccess := fillText t.externalAccess o.externalAccess
    radix := fillText t.radix o.radix
    initialValue := fillText t.initialValue o.initialValue
    arrayDimensions := fillDimensions t.arrayDimensions o.arrayDimensions }

/-- The tag of the project that a new tag of the overlay becomes. -/
def newTag (o : Tag) : Project.Tag where
  name := o.name
  dataType := o.dataType
  scope := if o.scope = "Controller" then .controller else .program
  value := o.value
  description := o.description
  externalAccess := o.externalAccess
  radix := o.radix
  constant := o.constant
  aliasFor := o.aliasFor
  arrayDimensions := o.arrayDimensions
  initialValue := o.initialValue

/-- Changes the first element with a property, or adds one at the end if none has it. -/
def alterFirst {α : Type} (p : α → Bool) (f : α → α) (new : α) : List α → List α
  | [] => [new]
  | a :: rest => if p a then f a :: rest else a :: alterFirst p f new rest

/-- Adds a tag of the overlay. -/
def applyTag (tags : List Project.Tag) (o : Tag) : List Project.Tag :=
  alterFirst (fun t => t.named && t.name = o.name) (mergeTag · o) (newTag o) tags

/-- The fields of a record with those of another written over them. -/
def overwrite (fields new : List (String × Json)) : Json :=
  .record (new.foldl (fun l (k, v) => Table.insertEntry k v l) fields)

/-- The record of a task. -/
def Task.fields (t : Task) : List (String × Json) :=
  [("name", .text t.name), ("type", .text t.kind), ("priority", .int t.priority),
    ("watchdog", .int t.watchdog), ("interval", .optText t.interval), ("description", .null)]

/-- The record of a module. -/
def Module.fields (m : Module) : List (String × Json) :=
  [("name", .text m.name), ("type", .text m.kind), ("slot", .int m.slot), ("description", .null),
    ("configuration", .ofTable .text m.configuration)]

/-- Whether a record has the name `name`. -/
def hasName (name : String) (j : Json) : Bool :=
  (j.field? "name").any (·.isText name)

/-- Adds the record of a task or a module. -/
def applyRecord (name : String) (fields : List (String × Json)) (records : List Json) :
    List Json :=
  alterFirst (hasName name) (fun j => overwrite j.fields fields) (.record fields) records

/-- Adds a program of the overlay. -/
def applyProgram (programs : List Project.Program) (o : Program) : List Project.Program :=
  alterFirst (fun p => p.name = o.name)
    (fun p => { p with mainRoutine := fillText p.mainRoutine o.mainRoutine })
    { name := o.name, mainRoutine := o.mainRoutine } programs

/-- What the overlay leaves in the project's metadata. -/
def note (o : Overlay) : List (String × Json) :=
  [("l5k_overlay_applied", .bool true), ("l5k_source_file", .text o.path),
    ("l5k_tags_added", .nat o.tags.length), ("l5k_tasks_added", .nat o.tasks.length),
    ("l5k_programs_added", .nat o.programs.length), ("l5k_modules_added", .nat o.modules.length)]

/-- The project with all that the overlay adds. -/
def apply (o : Overlay) (p : Project) : Project where
  controller := { p.controller with tags := o.tags.foldl applyTag p.controller.tags }
  programs := o.programs.foldl applyProgram p.programs
  modules := o.modules.foldl (fun l m => applyRecord m.name m.fields l) p.modules
  tasks := o.tasks.foldl (fun l t => applyRecord t.name t.fields l) p.tasks
  metadata := o.note.foldl (fun l (k, v) => Table.insertEntry k v l) p.metadata

/-- A summary of what an overlay tells. -/
def summary (o : Overlay) : Json :=
  .record [("source_file", .text o.path), ("tags_count", .nat o.tags.length),
    ("tasks_count", .nat o.tasks.length), ("programs_count", .nat o.programs.length),
    ("modules_count", .nat o.modules.length), ("tags", .texts (o.tags.map (·.name))),
    ("tasks", .texts (o.tasks.map (·.name))), ("programs", .texts (o.programs.map (·.name))),
    ("modules", .texts (o.modules.map (·.name)))]

end ControlLogic.Overlay
