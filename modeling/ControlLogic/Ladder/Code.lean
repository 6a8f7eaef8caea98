import ControlLogic.Ladder.Instruction

/-!
# The code of a rung

`RungCode` is what a rung turns into: an outer condition when the rung has several stages,
and a list of steps.  A step is one output with the contacts that stand before it in its
branch since the last output.  `rungCode` builds it and `RungCode.text` writes it.

The first of several stages gives the outer condition and the second gives the steps.  The
only stage of a rung gives steps alone.
-/

namespace ControlLogic.Ladder

open StructuredText

/-- A part of the outer condition: a test, or an instruction that is no test. -/
inductive Part where
  | test (t : Test)
  | misplaced
  deriving DecidableEq

/-- An output with the tests that guard it. -/
structure Step where
  /-- The tests that must hold; none for an output without a guard. -/
  guards : List Test
  /-- What is done if they hold. -/
  body : List Statement
  /-- What is done if they fail. -/
  otherwise : Option (List Statement)
  deriving DecidableEq

/-- The code of a rung. -/
structure RungCode where
  /-- The parallel branches of the outer condition. -/
  condition : Option (List (List Part))
  /-- The steps, in order. -/
  steps : List Step
  deriving DecidableEq

/-! ## Building -/

/-- A call as a part of the outer condition. -/
def Call.part (c : Call) : Part :=
  match contactTest? c.name c.operands with
  | some t => .test t
  | none => .misplaced

/-- The step of an output, given the tests before it.  An output coil with a guard is
switched off when the guard fails. -/
def Call.step (pending : List Test) (c : Call) : Step where
  guards := pending
  body := c.body true
  otherwise := if c.name = "OTE" ∧ pending ≠ [] then some (c.body false) else none

/-- The steps of a branch, given the tests met since the last output. -/
def branchSteps : List Test → Branch → List Step
  | _, [] => []
  | pending, c :: rest =>
    match contactTest? c.name c.operands with
    | some t => branchSteps (pending ++ [t]) rest
    | none => c.step pending :: branchSteps [] rest

/-- The steps of the branches of a stage. -/
def stageSteps (s : Stage) : List Step := s.flatMap (branchSteps [])

/-- The code of a rung. -/
def rungCode : List Stage → RungCode
  | [] => ⟨none, []⟩
  | [only] => ⟨none, stageSteps only⟩
  | first :: second :: _ => ⟨some (first.map (·.map Call.part)), stageSteps second⟩

/-! ## Writing -/

/-- The parts of a branch of the outer condition; `left` is how many more tests may follow
before the last. -/
def partsText : (left : Nat) → List Part → String
  | _, [] => ""
  | left, .misplaced :: rest =>
    "// ERROR: Non-conditional instruction at beginning of rung\n" ++ partsText left rest
  | left, .test t :: rest =>
    t.text ++ (if 0 < left then " AND " else "") ++ partsText (left - 1) rest

theorem partsText_nil (left : Nat) : partsText left [] = "" := rfl

theorem partsText_misplaced (left : Nat) (rest : List Part) :
    partsText left (.misplaced :: rest) =
      "// ERROR: Non-conditional instruction at beginning of rung" ++ "\n" ++
        partsText left rest := rfl

theorem partsText_test (left : Nat) (t : Test) (rest : List Part) :
    partsText left (.test t :: rest) =
      t.text ++ (if 0 < left then " AND " else "") ++ partsText (left - 1) rest := rfl

/-- The line that opens the outer condition. -/
def conditionText (branches : List (List Part)) : String :=
  "IF (" ++ Text.join " OR " (branches.map fun b => partsText (b.length - 1) b) ++ ") THEN\n"

/-- The indentation without its first tabulator. -/
def outdent (tab : String) : String := Text.replaceFirst "\t" "" tab

/-- The lines of a step, and the indentation after it. -/
def Step.text (tab : String) (s : Step) : String × String :=
  if s.guards = [] then (tab ++ textOf s.body ++ "\n", tab)
  else
    let inner := tab ++ "\t"
    let after := outdent inner
    let tests := Text.join " AND " (s.guards.map Test.text)
    let alternative :=
      match s.otherwise with
      | some body => after ++ "ELSE\n" ++ inner ++ textOf body ++ "\n"
      | none => ""
    (tab ++ "IF (" ++ tests ++ ") THEN\n" ++ inner ++ textOf s.body ++ "\n" ++ alternative ++
      after ++ "END_IF;\n", after)

/-- The lines of steps. -/
def stepsText : String → List Step → String
  | _, [] => ""
  | tab, s :: rest => (s.text tab).1 ++ stepsText (s.text tab).2 rest

/-- The lines of a rung at an indentation. -/
def RungCode.text (tab : String) (c : RungCode) : String :=
  match c.condition with
  | none => stepsText tab c.steps
  | some branches => conditionText branches ++ stepsText (tab ++ "\t") c.steps ++ "END_IF;\n"

/-- The Structured Text of a written rung. -/
def rungText (text : String) : String :=
  (rungCode (readRung text)).text ""

end ControlLogic.Ladder
