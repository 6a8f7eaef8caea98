import ControlLogic.Fault
import ControlLogic.Project.Basic
import ControlLogic.Text.Pattern

/-!
# Evidence of a state machine

What the lines of routines show about the variables in them: what is assigned, what guards a
statement, what is compared, and what is switched on or off.  Each finding keeps its line.
-/

namespace ControlLogic.StateMachine

open Text.Pattern

/-! ## Findings -/

/-- A value given to a variable. -/
structure Assignment where
  name : String
  value : String
  line : String
  deriving DecidableEq

/-- The forms of line in which variables are looked for. -/
inductive GuardKind where
  | condition
  | selection
  | assignment
  | call
  | loop
  | count
  deriving DecidableEq

/-- The parts of a line that has one of the forms. -/
structure Guard where
  kind : GuardKind
  parts : List String
  line : String
  deriving DecidableEq

/-- The forms in which a variable and a value stand together. -/
inductive CheckKind where
  | comparison
  | switch
  | assignment
  deriving DecidableEq

/-- A variable with a value that stands with it. -/
structure Check where
  kind : CheckKind
  name : String
  value : String
  line : String
  deriving DecidableEq

/-! ## Patterns -/

/-- A variable, a colon or an equals sign, and what follows up to a semicolon. -/
def assignmentPattern : Text.Pattern :=
  all [group 1 word, blanks, among ":=", blanks, group 2 (plus (except ";"))]

/-- A variable that is switched to one of two values. -/
def switchPattern : Text.Pattern :=
  all [group 1 word, blanks, among ":=", blanks,
    group 2 (anyOf (["TRUE", "FALSE", "1", "0", "ON", "OFF", "OPEN", "CLOSE"].map keyword))]

/-- A variable, a comparison, and what follows up to a semicolon. -/
def comparisonPattern : Text.Pattern :=
  all [group 1 word, blanks, plus (among "=!<>"), blanks, group 2 (plus (except ";"))]

namespace GuardKind

/-- All forms, in the order in which they are looked for. -/
def every : List GuardKind := [condition, selection, assignment, call, loop, count]

/-- The name of a form. -/
def name : GuardKind → String
  | condition => "if_guard"
  | selection => "case_guard"
  | assignment => "assignment"
  | call => "function_call"
  | loop => "loop_guard"
  | count => "for_guard"

/-- The pattern of a form; its parts are numbered from one. -/
def pattern : GuardKind → Text.Pattern
  | condition => .all [keyword "IF", gap, group 1 (plus (except "=")), blanks,
      plus (among "=!<>"), blanks, group 2 (plus (except ")"))]
  | selection => .all [keyword "CASE", gap, group 1 word]
  | assignment => assignmentPattern
  | call => .all [group 1 word, blanks, .text "(", blanks, group 2 (star (except ")")), blanks,
      .text ")"]
  | loop => .all [keyword "WHILE", gap, group 1 (plus (except ")"))]
  | count => .all [keyword "FOR", gap, group 1 (plus (except ")"))]

/-- The number of parts of a form. -/
def arity : GuardKind → Nat
  | condition | assignment | call => 2
  | selection | loop | count => 1

end GuardKind

namespace CheckKind

/-- All forms, in the order in which they are looked for. -/
def every : List CheckKind := [comparison, switch, assignment]

/-- The name of a form. -/
def name : CheckKind → String
  | comparison => "input_check"
  | switch => "output_set"
  | assignment => "variable_assignment"

/-- The pattern of a form. -/
def pattern : CheckKind → Text.Pattern
  | comparison => comparisonPattern
  | switch => switchPattern
  | assignment => assignmentPattern

end CheckKind

/-! ## Lines -/

/-- The assignment in a line. -/
def assignment? (line : String) : Option Assignment :=
  (assignmentPattern.find? line).map fun m => ⟨m.group 1, Text.strip (m.group 2), line⟩

/-- The guards in a line. -/
def guardsOf (line : String) : List Guard :=
  GuardKind.every.flatMap fun kind => (kind.pattern.findAll line).map fun m =>
    ⟨kind, (List.range kind.arity).map fun i => m.group (i + 1), line⟩

/-- The checks in a line. -/
def checksOf (line : String) : List Check :=
  CheckKind.every.flatMap fun kind => (kind.pattern.findAll line).map fun m =>
    ⟨kind, m.group 1, m.group 2, line⟩

/-- The switch in a line. -/
def switch? (line : String) : Option Assignment :=
  (switchPattern.find? line).map fun m => ⟨m.group 1, m.group 2, line⟩

/-! ## Projects -/

/-- All findings of a project. -/
structure Evidence where
  assignments : List Assignment
  guards : List Guard
  checks : List Check
  switches : List Assignment

/-- The findings in texts. -/
def Evidence.ofTexts (texts : List String) : Evidence :=
  let lines := texts.flatMap fun t => (Text.split '\n' t).map Text.strip
  { assignments := lines.filterMap assignment?
    guards := lines.flatMap guardsOf
    checks := lines.flatMap checksOf
    switches := lines.filterMap switch? }

/-- The findings in a project whose routines all have a text. -/
def evidence (p : Project) : Except Fault Evidence :=
  if p.routines.all (·.content.isSome) then .ok (.ofTexts (p.routines.map (·.text)))
  else .error (.absent "split")

end ControlLogic.StateMachine
