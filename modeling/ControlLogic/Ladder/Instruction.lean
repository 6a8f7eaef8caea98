import ControlLogic.Ladder.Rung
import ControlLogic.StructuredText.Statement

/-!
# Ladder instructions

`contactTest?` gives the test of an instruction that only tests, and `outputBody?` the
statements of one that acts.  Some outputs have a sense: an output coil is switched on or off,
and a timer or counter is enabled or disabled.  An instruction with the wrong number of
operands becomes a test that fails or a remark.
-/

namespace ControlLogic.Ladder

open StructuredText

/-- A comparison of two operands. -/
def comparisonTest (how : Comparison) : List String → Test
  | [a, b] => .compare a how b
  | _ => .never

/-- A test of bits. -/
def bitTest (on : Bool) : List String → Test
  | [] => .never
  | operands => .bits operands on

/-- The test of a contact. -/
def contactTest? (name : String) (operands : List String) : Option Test :=
  match name with
  | "XIC" => some (bitTest true operands)
  | "XIO" => some (bitTest false operands)
  | "EQU" => some (comparisonTest .equal operands)
  | "NEQ" => some (comparisonTest .unequal operands)
  | "GRT" => some (comparisonTest .greater operands)
  | "GEQ" => some (comparisonTest .atLeast operands)
  | "LES" => some (comparisonTest .less operands)
  | "LEQ" => some (comparisonTest .atMost operands)
  | _ => none

/-- The remark on a call of `name` that does not have its `n` operands. -/
def wrongCount (name : String) (n : Nat) : List Statement :=
  [.remark ("ERROR: " ++ name ++ " requires exactly " ++ toString n ++
    (if n = 1 then " parameter" else " parameters"))]

/-- An instruction with one operand. -/
def unary (name : String) (f : String → List Statement) : List String → List Statement
  | [a] => f a
  | _ => wrongCount name 1

/-- An instruction with two operands. -/
def binary (name : String) (f : String → String → List Statement) : List String → List Statement
  | [a, b] => f a b
  | _ => wrongCount name 2

/-- An instruction with three operands. -/
def ternary (name : String) (f : String → String → String → List Statement) :
    List String → List Statement
  | [a, b, c] => f a b c
  | _ => wrongCount name 3

/-- An instruction with four operands. -/
def quaternary (name : String) (f : String → String → String → String → List Statement) :
    List String → List Statement
  | [a, b, c, d] => f a b c d
  | _ => wrongCount name 4

/-- Two operands combined into a third by an operator. -/
def arithmetic (name sign : String) : List String → List Statement :=
  ternary name fun a b c => [.assign c (a ++ " " ++ sign ++ " " ++ b)]

/-- One operand turned into another by a function. -/
def conversion (name function : String) : List String → List Statement :=
  binary name fun a b => [.assign b (function ++ "(" ++ a ++ ")")]

/-- The word for a truth value. -/
def truthWord (b : Bool) : String := if b then "TRUE" else "FALSE"

/-- A timer: preset, enable bit and call. -/
def timer (name block : String) (enabled : Bool) : List String → List Statement :=
  binary name fun t preset =>
    [.assign (t ++ ".PRE") preset, .assign (t ++ ".TimerEnable") (truthWord enabled),
      .invoke block [t]]

/-- A counter in one direction: preset, count bit, reset bit and call. -/
def counter (name direction : String) (enabled : Bool) : List String → List Statement :=
  ternary name fun c preset reset =>
    [.assign (c ++ ".PRE") preset, .assign (c ++ "." ++ direction) (truthWord enabled),
      .assign (c ++ ".RES") reset, .invoke name [c]]

/-- A named argument, left out when its value is a question mark. -/
def namedArgument (key value : String) : List String :=
  if value = "?" then [] else [key ++ " := " ++ value]

/-- The statements of an instruction that acts, in the given sense. -/
def outputBody? (name : String) (sense : Bool) (operands : List String) : Option (List Statement) :=
  match name with
  | "OTE" => some (unary name (fun a => [.assign a (if sense then "1" else "0")]) operands)
  | "OTL" => some (unary name (fun a => [.assign a "1"]) operands)
  | "OTU" => some (unary name (fun a => [.assign a "0"]) operands)
  | "CLR" => some (unary name (fun a => [.assign a "0"]) operands)
  | "NOP" => some [.remark "NOP instruction"]
  | "RES" => some (unary name (fun a => [.assign (a ++ ".Reset") "1"]) operands)
  | "MOV" => some (binary name (fun a b => [.assign b a]) operands)
  | "COP" => some (ternary name (fun a b c => [.invoke name [a, b, c]]) operands)
  | "MSG" => some (unary name (fun a => [.remark ("MSG(" ++ a ++ ") - commented out")]) operands)
  | "GSV" => some (quaternary name (fun a b c d => [.invoke name
      (namedArgument "ClassName" a ++ namedArgument "InstanceName" b ++
        namedArgument "AttributeName" c ++ namedArgument "Dest" d)]) operands)
  | "SSV" => some (quaternary name (fun a b c d => [.invoke name [a, b, c, d]]) operands)
  | "JSR" => some (unary name (fun a => [.remark ("JSR to " ++ a ++ " routine"),
      .remark ("TODO: Process " ++ a ++ " routine content")]) operands)
  | "TON" => some (timer name "TONR" sense operands)
  | "TOF" => some (timer name "TOFR" sense operands)
  | "TONR" => some (timer name "TONR" sense operands)
  | "CTU" => some (counter name "CU" sense operands)
  | "CTD" => some (counter name "CD" sense operands)
  | "CTUD" => some (quaternary name (fun c preset up down =>
      [.assign (c ++ ".PRE") preset, .assign (c ++ ".CU") up, .assign (c ++ ".CD") down,
        .invoke name [c]]) operands)
  | "ADD" => some (arithmetic name "+" operands)
  | "SUB" => some (arithmetic name "-" operands)
  | "MUL" => some (arithmetic name "*" operands)
  | "DIV" => some (arithmetic name "/" operands)
  | "MOD" => some (arithmetic name "MOD" operands)
  | "SQR" => some (conversion name "SQRT" operands)
  | "ABS" => some (conversion name "ABS" operands)
  | "OSR" => some (binary name (fun a b => [.invoke name [a, b]]) operands)
  | "OSF" => some (binary name (fun a b => [.invoke name [a, b]]) operands)
  | "RTRIG" => some (unary name (fun a => [.invoke name [a]]) operands)
  | "FTRIG" => some (unary name (fun a => [.invoke name [a]]) operands)
  | "BTD" => some (conversion name "BCD_TO_INT" operands)
  | "DTB" => some (conversion name "INT_TO_BCD" operands)
  | "FRD" => some (conversion name "REAL_TO_INT" operands)
  | "TOD" => some (conversion name "INT_TO_REAL" operands)
  | _ => none

/-- The statements of a call that acts; a call of an unknown instruction becomes a remark. -/
def Call.body (c : Call) (sense : Bool) : List Statement :=
  (outputBody? c.name sense c.operands).getD
    [.remark ("Unknown function: " ++ c.name ++ "(" ++ Text.join ", " c.operands ++ ")")]

/-- The written form of any known instruction: a test or statements. -/
def instructionText? (name : String) (sense : Bool) (operands : List String) : Option String :=
  match contactTest? name operands with
  | some t => some t.text
  | none => (outputBody? name sense operands).map textOf

end ControlLogic.Ladder
