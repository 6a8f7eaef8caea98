import ControlLogic.Exchange.Document
import ControlLogic.Exchange.Import
import ControlLogic.Overlay.Basic
import ControlLogic.Plant.Basic
import ControlLogic.Source.Cpp
import ControlLogic.Source.Lad
import ControlLogic.Source.OpenPlc
import ControlLogic.Source.Scl

/-!
# Loading a plant

The ending of a file's name says in which form its project is.  A controller is named after its
file or after the controller of its project, by the form.
-/

namespace ControlLogic.Plant

/-- The form of a project file. -/
inductive Form where
  | exchange
  | openPlc
  | scl
  | ladder
  | cpp
  deriving DecidableEq

/-- The form that an ending announces, case aside. -/
def Form.ofSuffix? (suffix : String) : Option Form :=
  let s := Text.lower suffix
  if s = ".l5x" then some exchange
  else if s = ".st" then some openPlc
  else if [".scl", ".udt", ".db"].contains s then some scl
  else if Text.startsWith ".zap" s then some ladder
  else if [".cpp", ".h", ".hpp"].contains s then some cpp
  else none

/-- The overlay for a file: the one given for its controller, or one with the name of the
file. -/
def overlayFor? (overlays : List (String × String)) (path : String) : Option String :=
  (Table.lookup (Path.stem path) overlays).or
    ((overlays.map (·.2)).find? fun o => Path.stem o == Path.stem path)

/-- The table of tags beside a file, if there is one. -/
def tagTable? (files : Files) (path : String) : Option String :=
  let beside := Text.dropLast (Text.length (Path.name path)) path ++ "PLCTags.xml"
  if files.isPresent beside then some beside else none

/-- The project of a file.  An overlay is read and left aside. -/
def loadProject (files : Files) (overlay : Option String) (path : String) (form : Form) :
    Except Fault Project :=
  match form with
  | .exchange => do
    let document ← Exchange.Document.load files path
    match overlay with
    | some o => let _ ← Overlay.load files o
    | none => pure ()
    document.source.project
  | .openPlc => Source.OpenPlc.load files path
  | .scl => Source.Scl.load files path (tagTable? files path)
  | .ladder => Source.Lad.load files path
  | .cpp => Source.Cpp.load files path

/-- The name of the controller of a file. -/
def controllerName (path : String) (p : Project) : Form → String
  | .exchange | .openPlc => Path.stem path
  | .scl | .ladder | .cpp => p.controller.name

/-- A plant in loading, with the controllers that have no overlay. -/
structure Loading where
  plant : Plant := ⟨Table.empty⟩
  missing : List String := []

/-- The plant after one more file; a file of no known form is passed over. -/
def Loading.add (files : Files) (overlays : List (String × String)) (l : Loading) (path : String) :
    Except Fault Loading :=
  match Form.ofSuffix? (Path.suffix path) with
  | none => .ok l
  | some form => do
    let overlay := overlayFor? overlays path
    let p ← loadProject files overlay path form
    let name := controllerName path p form
    let missing := if form = .exchange ∧ overlay = none then l.missing ++ [Path.stem path]
      else l.missing
    return ⟨⟨l.plant.controllers.insert name p⟩, missing⟩

/-- The plant of files, and the controllers without an overlay. -/
def load (files : Files) (paths : List String) (overlays : List (String × String)) :
    Except Fault Loading :=
  paths.foldlM (Loading.add files overlays) {}

end ControlLogic.Plant
