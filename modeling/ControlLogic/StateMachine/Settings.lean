import ControlLogic.Analysis.Usage

/-!
# Settings for the search of state machines

Hints from outside: the variable that holds the state, states that are known, and states that
are expected.  A record without the settings counts as none of them; a hint is followed only when it
is used, and as far as it has the expected form.
-/

namespace ControlLogic.StateMachine

/-- The settings, as they are given. -/
structure Settings where
  stateVariable : Json := .null
  physicalVariables : Json := .list []
  plantDynamics : Json := .record []
  explicitStates : Json := .list []
  transitionHints : Json := .record []
  expectedStates : Json := .record []
  expectedTransitions : Json := .record []

namespace Settings

/-- The settings among the fields of a record. -/
def ofFields (fields : List (String × Json)) : Settings :=
  let field (k : String) (d : Json) := (Table.lookup k fields).getD d
  { stateVariable := field "state_var" .null
    physicalVariables := field "physical_vars" (.list [])
    plantDynamics := field "plant_dynamics" (.record [])
    explicitStates := field "explicit_states" (.list [])
    transitionHints := field "transition_hints" (.record [])
    expectedStates := field "expected_states" (.record [])
    expectedTransitions := field "expected_transitions" (.record []) }

/-- The settings of the default controller in a record. -/
def ofJson : Json → Settings
  | .record top =>
    match (Table.lookup "controllers" top).getD (.record []) with
    | .record controllers =>
      match (Table.lookup "default" controllers).getD (.record []) with
      | .record fields => ofFields fields
      | _ => {}
    | _ => {}
  | _ => {}

/-- The variable said to hold the state. -/
def variableName? (s : Settings) : Option String :=
  s.stateVariable.text?.filter (!Text.isEmpty ·)

/-- Whether a value has parts of its own. -/
def isCompound : Json → Bool
  | .list _ | .record _ => true
  | _ => false

/-- The name of a state, which has to be a text. -/
def stateName : Json → Except Fault String
  | .text s => .ok s
  | _ => .error .noAttribute

/-- The known states: the parts of what is given for them, if that counts as present. -/
def knownStates (s : Settings) : Except Fault (List String) := do
  if !s.explicitStates.isTruthy then return []
  let parts ← Analysis.walk s.explicitStates
  -- the parts are all collected before the first is looked at
  if parts.any isCompound then throw .wrongKind
  parts.mapM stateName

/-- What is expected of a variable, if any states are expected at all. -/
def expectedOf? (s : Settings) (name : String) : Except Fault (Option Json) := do
  if !s.expectedStates.isTruthy then return none
  let fields ← Analysis.fieldsOf s.expectedStates
  return some ((Table.lookup name fields).getD (.list []))

/-- The record of the settings. -/
def toJson (s : Settings) : Json :=
  .compact [("state_var", s.stateVariable), ("physical_vars", s.physicalVariables),
    ("plant_dynamics", s.plantDynamics), ("explicit_states", s.explicitStates),
    ("transition_hints", s.transitionHints), ("expected_states", s.expectedStates),
    ("expected_transitions", s.expectedTransitions)]

end Settings

end ControlLogic.StateMachine
