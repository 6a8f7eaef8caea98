import ControlLogic.StateMachine.Evidence
import ControlLogic.StateMachine.Settings
import ControlLogic.Text.Sorted

/-!
# State machines

The variable with the most evidence for it is taken to hold the state of a routine.  Its states
are the values it is given, the values that stand with it in guards, and the states known
beforehand; every condition together with every value given makes a transition.
-/

namespace ControlLogic.StateMachine

/-- Whether `c` is a quote. -/
def isQuote (c : Char) : Bool := c == '"' || c == '\''

/-- The text without quotes at its ends. -/
def unquoted (s : String) : String := Text.trim isQuote s

/-! ## Names and values -/

open Text.Pattern in
/-- Whether a text is the name of a variable and none of the usual values. -/
def isVariableName (s : String) : Bool :=
  let name := unquoted (Text.strip s)
  ((all [one fun c => Text.isLetter c || c == '_', star (one Text.isNameChar), atEnd]).matchStart?
    name).isSome &&
  !(["TRUE", "FALSE", "ON", "OFF", "OPEN", "CLOSE", "IDLE", "FAULT"].contains (Text.upper name))

open Text.Pattern in
/-- Whether a text is the name of a state: a word that is not a number. -/
def isStateName (s : String) : Bool :=
  let value := unquoted (Text.lower s)
  ((all [plus (one Text.isNameChar), atEnd]).matchStart? value).isSome && !Text.isDigits value

/-- Whether a state is one to begin in. -/
def isInitial (state : String) : Bool :=
  ["idle", "init", "ready", "false", "0", "off"].contains (Text.lower state)

/-- Whether a state is one to end in. -/
def isFinal (state : String) : Bool :=
  ["fault", "error", "stopped", "true", "1", "on"].contains (Text.lower state)

/-- Values that speak for a state variable. -/
def tellingValues : List String :=
  ["idle", "fault", "running", "stopped", "error", "init", "fill", "drain", "heat", "cool",
    "open", "close", "on", "off"]

/-! ## The state variable -/

namespace Evidence

/-- The assignments to a variable. -/
def assignmentsTo (e : Evidence) (name : String) : List Assignment :=
  e.assignments.filter (·.name == name)

/-- The variables that may hold the state, in ascending order. -/
def candidates (e : Evidence) : List String :=
  Text.ascending ((e.guards.flatMap (·.parts) ++ e.assignments.map (·.name) ++
    e.switches.map (·.name)).filter isVariableName)

/-- The weight of the evidence for a variable: two for each guard, one for each assignment,
three for each switch, and two for each telling value. -/
def score (e : Evidence) (name : String) : Nat :=
  2 * (e.guards.filter (·.parts.contains name)).length + (e.assignmentsTo name).length +
    3 * (e.switches.filter (·.name == name)).length +
    2 * ((e.assignmentsTo name).filter fun a =>
      tellingValues.contains (unquoted (Text.lower a.value))).length

/-- The candidates with the weight of the evidence for them, if there is any. -/
def scored (e : Evidence) : List (String × Nat) :=
  (e.candidates.map fun name => (name, e.score name)).filter fun c => 0 < c.2

/-- The candidates with the most evidence first; those with as much stay in ascending order. -/
def ranking (e : Evidence) : List (String × Nat) :=
  e.scored.mergeSort fun a b => decide (b.2 ≤ a.2)

/-- The state variable: the one said to be it, if there is enough evidence for it, or else the
candidate with the most evidence. -/
def stateVariable? (settings : Settings) (e : Evidence) : Option String :=
  let leader := e.ranking.head?.map (·.1)
  match settings.variableName? with
  | some name => if 3 ≤ e.score name then some name else leader
  | none => leader

/-! ## States and transitions -/

/-- The states of a variable and the known ones, in ascending order. -/
def states (e : Evidence) (known : List String) (name : String) : List String :=
  let given := ((e.assignmentsTo name).map fun a => unquoted (Text.strip a.value)).filter isStateName
  let guarded := (e.guards.filter (·.parts.contains name)).flatMap fun g =>
    g.parts.filter fun part => part != name && isStateName part
  Text.ascending (given ++ guarded ++ known)

end Evidence

/-- A change of state. -/
structure Transition where
  target : String
  guard : String
  action : String
  deriving DecidableEq

/-- The transitions of a variable. -/
def Evidence.transitions (e : Evidence) (name : String) : List Transition :=
  (e.guards.filter (·.kind == .condition)).flatMap fun g =>
    (e.assignmentsTo name).filterMap fun a =>
      let target := unquoted (Text.strip a.value)
      if isStateName target then some ⟨target, g.line, a.line⟩ else none

/-- Whether a variable is only switched on and off. -/
def Evidence.isImplicit (e : Evidence) (name : String) : Bool :=
  (e.assignmentsTo name).any fun a =>
    ["true", "false", "1", "0", "on", "off"].contains (unquoted (Text.lower a.value))

/-! ## Validation -/

/-- How states differ from those expected. -/
structure Validation where
  missing : List Json := []
  unexpected : List String := []

/-- Whether no expected state is missing. -/
def Validation.isValid (v : Validation) : Bool := v.missing.isEmpty

/-- Whether a text is an item of a list, a key of a record, or part of a text. -/
def holds (s : String) : Json → Bool
  | .list items => items.any (·.isText s)
  | .record fields => (Table.lookup s fields).isSome
  | .text t => Text.contains s t
  | _ => false

/-- The states of a variable against those expected of it. -/
def validation (settings : Settings) (name : String) (states : List String) :
    Except Fault Validation := do
  let some expected ← settings.expectedOf? name | return {}
  let parts ← Analysis.walk expected
  return { missing := parts.filter fun part => !states.any (part.isText ·)
           unexpected := states.filter (!holds · expected) }

/-! ## Machines -/

/-- A state machine. -/
structure Machine where
  /-- The variable that holds the state. -/
  tracked : String
  states : List String
  transitions : List Transition
  sourceType : Option String
  isImplicit : Bool

/-- The name of a machine. -/
def Machine.name (m : Machine) : String := "FSM_" ++ m.tracked

/-- The states of a machine against those expected; it has been made only if they can be
compared. -/
def Machine.validate (settings : Settings) (m : Machine) : Validation :=
  match validation settings m.tracked m.states with
  | .ok v => v
  | .error _ => {}

/-- The machine that evidence shows. -/
def Evidence.machine? (settings : Settings) (sourceType : Option String) (e : Evidence) :
    Except Fault (Option Machine) := do
  let some name := e.stateVariable? settings | return none
  let states := e.states (← settings.knownStates) name
  if states.isEmpty then return none
  let _ ← validation settings name states
  return some { tracked := name, states, transitions := e.transitions name, sourceType,
                isImplicit := e.isImplicit name }

/-- The machine of a project. -/
def extract (settings : Settings) (p : Project) : Except Fault (Option Machine) := do
  (← evidence p).machine? settings p.controller.sourceType

end ControlLogic.StateMachine
