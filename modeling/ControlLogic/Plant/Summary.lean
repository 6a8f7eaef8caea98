import ControlLogic.Analysis.Report
import ControlLogic.Plant.Basic

/-!
# Summaries of a plant

What there is to say about several controllers, as a record.
-/

namespace ControlLogic.Plant

/-- The record of a dependency. -/
def Dependency.fields (d : Dependency) : List (String × Json) :=
  [("tag", .text d.tag), ("writer", .text d.writer), ("readers", .texts [d.reader]),
    ("data_type", .optText d.dataType), ("description", .optText d.description)]

/-- The name of a difference. -/
def Difference.name : Difference → String
  | dataTypes => "different_data_types"
  | scopes => "different_scopes"

/-- The record of a conflict, its kind under the key `kind`. -/
def Conflict.toJson (kind : String) (c : Conflict) : Json :=
  let key := match c.difference with
    | .dataTypes => "data_types"
    | .scopes => "scopes"
  .record [("tag", .text c.tag), ("plcs", .texts c.details.keys),
    (kind, .text c.difference.name), ("details", .record [(key, .ofTable .text c.details)])]

/-- The record of a definition. -/
def Definition.toJson (d : Definition) : Json :=
  .record [("data_type", .text d.dataType), ("scope", .text d.scope.name),
    ("description", .optText d.description)]

/-- The parts of a summary if none are chosen. -/
def defaultParts : List String := ["shared_tags", "conflicts", "controllers"]

/-- The number of tags, programs and routines of a project. -/
def sizeJson (p : Project) : Json :=
  .record [("controller_tags", .nat p.controller.tags.length),
    ("programs", .nat p.programs.length), ("routines", .nat p.routines.length)]

/-- What is said of a controller. -/
def controllerJson (name : String) (p : Project) : Json :=
  .record [("name", .text name),
    ("source", .text ((p.sourceType.filter (!Text.isEmpty ·)).getD "unknown")),
    ("has_overlay", .bool false), ("valid", .bool true)]

/-- The chosen components of every project, in the order in which they are chosen. -/
def detailsJson (p : Plant) (chosen : List String) : Except Fault Json := do
  let parts ← p.controllers.entries.mapM fun (name, q) => do
    let fields ← Analysis.componentFields q chosen
    let ordered := chosen.filterMap fun c => (Table.lookup c fields).map ((c, ·))
    pure (name, .ofTable id (Table.ofList ordered))
  return .record parts

/-- The summary of a plant with the chosen parts. -/
def summary (p : Plant) (chosen : List String := defaultParts) : Except Fault Json := do
  let shared := p.dependencies.map fun d => Json.record d.fields
  let conflicting := p.conflicts.map (Conflict.toJson "conflict")
  let names := p.controllers.keys
  let metadata := [("metadata", .record [("total_plcs", .nat names.length),
    ("plc_names", .texts names), ("total_shared_tags", .nat shared.length),
    ("total_conflicts", .nat conflicting.length)])]
  let given (part : String) (fields : List (String × Json)) :=
    if chosen.contains part then fields else []
  let details ←
    if Analysis.Component.all.any fun c => chosen.contains c.name then do
      pure [("detailed_components", ← p.detailsJson chosen)]
    else pure []
  return .record (metadata ++ given "shared_tags" [("shared_tags", .list shared)] ++
    given "conflicts" [("conflicting_tags", .list conflicting)] ++
    given "controllers" [
      ("controllers", .list (p.controllers.entries.map fun (name, q) => controllerJson name q)),
      ("plc_summary", .ofTable sizeJson p.controllers)] ++ details)

end ControlLogic.Plant
