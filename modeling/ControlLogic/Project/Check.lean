import ControlLogic.Project.Basic
import ControlLogic.Text.Basic

/-!
# Checks of projects

What a project lacks to be written out in full.
-/

namespace ControlLogic.Project

/-- The complaints about a project. -/
def complaints (p : Project) : List String :=
  (if Text.isEmpty p.controller.name then ["Controller missing or unnamed."] else []) ++
    (if p.controller.tags.isEmpty then ["No controller tags found."] else []) ++
    (if p.programs.isEmpty then ["No programs found."] else []) ++
    (p.programs.filter (·.routines.isEmpty)).map fun q => "Program '" ++ q.name ++ "' has no routines."

end ControlLogic.Project
