import ControlLogic.Overlay.Apply

/-!
# Overlays as records
-/

namespace ControlLogic.Overlay

/-- The record of a tag. -/
def Tag.toJson (t : Tag) : Json :=
  .compact [("name", .text t.name), ("data_type", .text t.dataType), ("scope", .text t.scope),
    ("value", .optText t.value), ("description", .optText t.description),
    ("external_access", .optText t.externalAccess), ("radix", .optText t.radix),
    ("constant", .bool t.constant), ("alias_for", .optText t.aliasFor),
    ("array_dimensions", .optInts t.arrayDimensions), ("initial_value", .optText t.initialValue)]

/-- The record of a task. -/
def Task.toJson (t : Task) : Json :=
  .compact [("name", .text t.name), ("task_type", .text t.kind), ("priority", .int t.priority),
    ("watchdog", .int t.watchdog), ("interval", .optText t.interval)]

/-- The record of a program; an overlay gives it no tags. -/
def Program.toJson (p : Program) : Json :=
  .compact [("name", .text p.name), ("main_routine", .optText p.mainRoutine),
    ("task_name", .optText p.taskName), ("tags", .list [])]

/-- The record of a module. -/
def Module.toJson (m : Module) : Json :=
  .compact [("name", .text m.name), ("module_type", .text m.kind), ("slot", .int m.slot),
    ("configuration", .ofTable .text m.configuration)]

/-- The record of an overlay, with its summary. -/
def toJson (o : Overlay) : Json :=
  .record [("tags", .list (o.tags.map Tag.toJson)), ("tasks", .list (o.tasks.map Task.toJson)),
    ("programs", .list (o.programs.map Program.toJson)),
    ("modules", .list (o.modules.map Module.toJson)),
    ("program_to_task", .ofTable .text o.schedule), ("summary", o.summary)]

end ControlLogic.Overlay
