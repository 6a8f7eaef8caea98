import ControlLogic.StateMachine.Composite

/-!
# State machines as records and drawings

A machine as a record, and the drawing of a machine that is given as a record.
-/

namespace ControlLogic.StateMachine

/-! ## Records -/

/-- The texts in a record of routines and of their flow of control, one below the other. -/
def recordedText (record : Json) : String :=
  let texts (k : String) := (record.itemsAt k).filterMap (·.field? "content")
  Text.join "\n" ((texts "routines" ++ texts "control_flow").map Json.display)

/-- The record of a finding with a variable and a value. -/
def Assignment.toJson (a : Assignment) : Json :=
  .record [("variable", .text a.name), ("value", .text a.value), ("line", .text a.line)]

/-- The record of a guard. -/
def Guard.toJson (g : Guard) : Json :=
  .record [("pattern", .text g.kind.name), ("variables", .texts g.parts), ("line", .text g.line)]

/-- The record of a check. -/
def Check.toJson (c : Check) : Json :=
  .record [("type", .text c.kind.name), ("variable", .text c.name), ("value", .text c.value),
    ("line", .text c.line)]

/-- The record of what is known of a tag. -/
def tagJson (t : Project.Tag) : Json :=
  .record [("name", if t.named then .text t.name else .null), ("data_type", .text t.dataType),
    ("description", .optText t.description), ("value", .optText t.value)]

/-- The record of evidence, with the tags of the controller. -/
def Evidence.toJson (e : Evidence) (tags : List Project.Tag) : Json :=
  .record [("assignments", .list (e.assignments.map Assignment.toJson)),
    ("guards", .list (e.guards.map Guard.toJson)), ("inputs", .list (e.checks.map Check.toJson)),
    ("outputs", .list (e.switches.map Assignment.toJson)), ("tags", .list (tags.map tagJson))]

/-- The record of a state. -/
def stateJson (name : String) : Json :=
  .record [("name", .text name), ("description", .text ("State: " ++ name)),
    ("is_initial", .bool (isInitial name)), ("is_final", .bool (isFinal name)),
    ("invariants", .list [])]

/-- The record of a transition; the state it starts from is not known. -/
def Transition.toJson (t : Transition) : Json :=
  .record [("from_state", .text "CURRENT_STATE"), ("to_state", .text t.target),
    ("guard", .text t.guard), ("actions", .texts [t.action])]

/-- The record of a machine. -/
def Machine.toJson (m : Machine) : Json :=
  .compact [("name", .text m.name), ("states", .list (m.states.map stateJson)),
    ("transitions", .list (m.transitions.map Transition.toJson)),
    ("state_variable", .text m.tracked),
    ("description", .text ("Extracted FSM for state variable " ++ m.tracked)),
    ("source_type", .optText m.sourceType), ("is_implicit", .bool m.isImplicit)]

/-- The record of a validation. -/
def Validation.toJson (v : Validation) : Json :=
  .record [("valid", .bool v.isValid), ("missing_states", .list v.missing),
    ("unexpected_states", .texts v.unexpected), ("missing_transitions", .list []),
    ("unexpected_transitions", .list [])]

/-- The record of a composite machine. -/
def Composite.toJson (c : Composite) : Json :=
  .record [("name", .text "Composite_FSM"), ("controllers", .texts c.controllers),
    ("linked_transitions", .list (c.links.map fun l => .record [("controller1", .text l.first),
      ("controller2", .text l.second), ("transition1", .text l.firstTarget),
      ("transition2", .text l.secondTarget), ("shared_tags", .texts c.tags)])),
    ("shared_tags", .texts c.tags), ("handshake_logic", .list []),
    ("description", .text "Composite FSM across multiple controllers")]

/-! ## Drawings -/

/-- The field `k` of a value that should be a record with it. -/
def required (k : String) : Json → Except Fault Json
  | .record fields =>
    match Table.lookup k fields with
    | some v => .ok v
    | none => .error (.missingKey (Text.quote k))
  | _ => .error .wrongKind

/-- The label of a transition: its guard without quotes, cut after thirty characters. -/
def guardLabel (guard : Json) : Except Fault String :=
  match guard with
  | .text s =>
    let plain := Text.replace "'" "" (Text.replace "\"" "" s)
    .ok (if Text.length plain > 30 then Text.take 27 plain ++ "..." else plain)
  | g => if g.isTruthy then .error .noAttribute else .ok ""

/-- The line of a state. -/
def stateLine (state : Json) : Except Fault String := do
  let name ← required "name" state
  let final ← required "is_final" state
  let initial ← required "is_initial" state
  return "  " ++ name.display ++ " [shape=" ++
    (if final.isTruthy then "doublecircle" else "circle") ++ ", style=" ++
    (if initial.isTruthy then "bold" else "normal") ++ "];"

/-- The line of a transition. -/
def transitionLine (t : Json) : Except Fault String := do
  let source ← required "from_state" t
  let target ← required "to_state" t
  let label ← guardLabel ((t.field? "guard").getD .null)
  return "  " ++ source.display ++ " -> " ++ target.display ++ " [label=\"" ++ label ++ "\"];"

/-- The drawing of a machine given as a record. -/
def drawingText (machine : Json) : Except Fault String := do
  let states ← (← Analysis.walk (← required "states" machine)).mapM stateLine
  let transitions ← (← Analysis.walk (← required "transitions" machine)).mapM transitionLine
  return Text.join "\n" (["digraph FSM \x7b", "  rankdir=LR;", "  node [shape=circle];", "",
    "  // States"] ++ states ++ ["", "  // Transitions"] ++ transitions ++ ["\x7d"])

end ControlLogic.StateMachine
