import ControlLogic.Analysis.Annotation
import ControlLogic.Analysis.ControlFlow
import ControlLogic.Analysis.FlowGraph
import ControlLogic.Analysis.Interaction
import ControlLogic.Project.Record

/-!
# Reports

A report holds chosen components of a project: its declarations as they are, or the result of
an analysis.  In a report a field without a value is written as null.
-/

namespace ControlLogic.Analysis

/-- What a report can hold. -/
inductive Component where
  | tags
  | dataTypes
  | functionBlocks
  | controlFlow
  | routines
  | programs
  | interactions
  | semantic
  | flowGraphs
  deriving DecidableEq

namespace Component

/-- All components, in the order in which they are reported. -/
def all : List Component :=
  [tags, dataTypes, functionBlocks, controlFlow, routines, programs, interactions, semantic,
    flowGraphs]

/-- The name of a component. -/
def name : Component → String
  | tags => "tags"
  | dataTypes => "data_types"
  | functionBlocks => "function_blocks"
  | controlFlow => "control_flow"
  | routines => "routines"
  | programs => "programs"
  | interactions => "interactions"
  | semantic => "semantic"
  | flowGraphs => "cfg"

end Component

/-! ## Declarations -/

/-- The sum of counts. -/
def total (counts : List Nat) : Nat := counts.foldr (· + ·) 0

/-- The number of items under all keys. -/
def totalItems {α : Type} (t : Table String (List α)) : Nat :=
  total (t.values.map List.length)

/-- The values of the programs by name; a later program of the same name takes the place of an
earlier one. -/
def byProgram {α : Type} (p : Project) (f : Project.Program → α) : Table String α :=
  Table.ofList (p.programs.map fun q => (q.name, f q))

/-- The tags. -/
def tagsJson (p : Project) : Json :=
  let program := byProgram p (·.tags)
  let tag (t : Project.Tag) := Json.record t.fields
  .record [("controller_tags", .list (p.controller.tags.map tag)),
    ("program_tags", .ofTable (fun l => .list (l.map tag)) program),
    ("summary", .record [("total_controller_tags", .nat p.controller.tags.length),
      ("total_program_tags", .nat (totalItems program))])]

/-- The data types. -/
def dataTypesJson (p : Project) : Json :=
  let l := p.controller.dataTypes
  .record [("data_types", .list (l.map fun d => .record (d.fields fun m => .record m.fields))),
    ("summary", .record [("total_data_types", .nat l.length)])]

/-- The function blocks. -/
def functionBlocksJson (p : Project) : Json :=
  let l := p.controller.functionBlocks
  .record [("function_blocks", .list (l.map fun b => .record (b.fields fun q => .record q.fields))),
    ("summary", .record [("total_function_blocks", .nat l.length)])]

/-- The number of programs and of routines. -/
def routineCounts {α : Type} (t : Table String (List α)) : Json :=
  .record [("total_programs", .nat t.size), ("total_routines", .nat (totalItems t))]

/-- The routine with its flow of control. -/
def routineFlowJson (r : Project.Routine) : Except Fault Json := do
  let flow ← controlFlow r
  return .record [("type", .text r.language.name), ("description", .optText r.description),
    ("control_flow", flow.toJson)]

/-- The flow of control of all routines. -/
def controlFlowJson (p : Project) : Except Fault Json := do
  let routines ← p.programs.mapM fun q => do
    let l ← q.routines.mapM fun r => do pure (r.name, ← routineFlowJson r)
    pure (q.name, (Table.ofList l).entries)
  let table := Table.ofList routines
  return .record [("routines", .ofTable .record table), ("summary", routineCounts table)]

/-- A routine as it is declared. -/
def routineJson (r : Project.Routine) : Json :=
  let variableJson (t : Project.Tag) := Json.record [("name", .text t.name),
    ("data_type", .text t.dataType), ("scope", .text t.scope.name), ("value", .optText t.value),
    ("description", .optText t.description)]
  let parameter (q : Project.Parameter) := Json.record [("name", .text q.name),
    ("data_type", .text q.dataType), ("parameter_type", .text q.kind),
    ("description", .optText q.description), ("required", .bool q.required)]
  .record [("name", .text r.name), ("type", .text r.language.name),
    ("description", .optText r.description), ("content", .optText r.content),
    ("local_variables", .list (r.localVariables.map variableJson)),
    ("parameters", .list (r.parameters.map parameter)), ("return_type", .optText r.returnType)]

/-- The routines. -/
def routinesJson (p : Project) : Json :=
  let table := byProgram p (·.routines)
  .record [("routines", .ofTable (fun l => .list (l.map routineJson)) table),
    ("summary", routineCounts table)]

/-- The programs. -/
def programsJson (p : Project) : Json :=
  let program (q : Project.Program) := Json.record [("name", .text q.name),
    ("description", .optText q.description), ("main_routine", .optText q.mainRoutine),
    ("routines", .texts (q.routines.map (·.name))), ("tag_count", .nat q.tags.length),
    ("local_variable_count", .nat q.localVariables.length)]
  .record [("programs", .list (p.programs.map program)),
    ("summary", .record [("total_programs", .nat p.programs.length)])]

/-! ## Analyses -/

/-- The record of a use of tags. -/
def Usage.toJson (u : Usage) : Json :=
  .record [("inputs", .texts u.inputs), ("outputs", .texts u.outputs),
    ("internal", .texts u.internal)]

/-- The record of a dependency. -/
def Dependency.toJson (d : Dependency) : Json :=
  .record [("writer", .text d.writer), ("reader", .text d.reader), ("tag", .text d.tag)]

/-- The record of an annotation. -/
def Annotation.toJson (a : Annotation) : Json :=
  .record [("condition", .text a.condition), ("event", .text a.event.name)]

/-- The use of tags, the dependencies and the annotations. -/
def semanticJson (p : Project) : Except Fault Json := do
  let summary ← tagSummary p
  let notes := annotationTable p
  return .record [("tag_summary", .ofTable Usage.toJson summary),
    ("interdependencies", .list ((dependencies p).map Dependency.toJson)),
    ("control_flow_annotations", .ofTable (fun l => .list (l.map Annotation.toJson)) notes),
    ("summary", .record [("total_routines", .nat p.routines.length),
      ("total_dependencies", .nat (dependencies p).length),
      ("total_annotations", .nat (totalItems notes))])]

/-- The flow graphs and the data flow. -/
def flowGraphsJson (p : Project) : Json :=
  let graphs := flowGraphs p
  let flows := dataFlows p
  .record [("cfg", .ofTable FlowGraph.toJson graphs),
    ("inter_routine_dataflow", .list (flows.map DataFlow.toJson)),
    ("summary", .record [("total_routines_with_cfg", .nat graphs.size),
      ("total_blocks", .nat (totalItems (graphs.map (·.blocks)))),
      ("total_dataflow_edges", .nat flows.length)])]

/-- A component of a project. -/
def Component.json (p : Project) : Component → Except Fault Json
  | tags => .ok (tagsJson p)
  | dataTypes => .ok (dataTypesJson p)
  | functionBlocks => .ok (functionBlocksJson p)
  | controlFlow => controlFlowJson p
  | routines => .ok (routinesJson p)
  | programs => .ok (programsJson p)
  | interactions => (Analysis.interactions p).map interactionsJson
  | semantic => semanticJson p
  | flowGraphs => .ok (flowGraphsJson p)

/-! ## Whole reports -/

/-- The components of a report if none are chosen. -/
def defaultComponents : List String := ["tags", "control_flow"]

/-- What a report says about itself: the time, if it is to be noted, and the extent. -/
def reportMetadata (p : Project) (chosen : List String) (time : Option String) : Json :=
  .record ((time.map fun t => ("export_time", .text t)).toList ++
    [("source_controller", .text p.controller.name), ("exported_components", .texts chosen),
      ("total_programs", .nat p.programs.length), ("total_routines", .nat p.routines.length)])

/-- The chosen components, each once and in the order of reports. -/
def componentFields (p : Project) (chosen : List String) : Except Fault (List (String × Json)) :=
  (Component.all.filter fun c => chosen.contains c.name).mapM fun c => do
    pure (c.name, ← c.json p)

/-- The report of the chosen components; names of no component are passed over. -/
def report (p : Project) (chosen : List String := defaultComponents)
    (time : Option String := none) : Except Fault Json := do
  return .record (("metadata", reportMetadata p chosen time) :: (← componentFields p chosen))

end ControlLogic.Analysis
