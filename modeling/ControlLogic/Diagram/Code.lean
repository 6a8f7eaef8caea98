import ControlLogic.Diagram.Basic
import ControlLogic.StructuredText.Statement

/-!
# The code of a diagram

The blocks of a diagram are called in order, each with what its wires bring, and after the
calls the outputs take their values.  The code of a sheet is that of all sheets up to it, and
the order of a sheet comes after the orders of the sheets before.
-/

namespace ControlLogic.Diagram

open Markup StructuredText

/-- The value at the source of a wire. -/
def Network.sourceValue? (n : Network) (w : Wire) : Option String :=
  match n.inputs.get? w.source with
  | some operand => some operand
  | none =>
    match n.outputs.get? w.source with
    | some operand => some operand
    | none =>
      match n.blocks.get? w.source, w.sourcePin.filter (· ≠ "") with
      | some block, some pin => some ((block.arguments.get? pin).getD (block.operand ++ "." ++ pin))
      | _, _ => none

/-- The arguments that the wires bring to a block. -/
def Network.callArguments (n : Network) (id : String) : List String :=
  n.wires.filterMap fun w =>
    match w.targetPin.filter (· ≠ "") with
    | some pin =>
      if w.target = id then (n.sourceValue? w).map fun v => pin ++ " := " ++ v else none
    | none => none

/-- The call of a block. -/
def Network.call (n : Network) (id : String) : Statement :=
  .invoke ((n.blocks.get? id).map (·.operand) |>.getD "") (n.callArguments id)

/-- The assignment that a wire from a block to an output makes. -/
def Network.outputAssignment? (n : Network) (w : Wire) : Option Statement :=
  match n.blocks.get? w.source, n.outputs.get? w.target, w.sourcePin.filter (· ≠ "") with
  | some block, some output, some pin => some (.assign output (block.operand ++ "." ++ pin))
  | _, _, _ => none

/-- The calls in the given order, and then the assignments of the outputs. -/
def Network.statements (n : Network) (order : List String) : List Statement :=
  order.map n.call ++ n.wires.filterMap n.outputAssignment?

/-- A diagram as read so far, with the order of execution and the lines of code. -/
structure Reading where
  network : Network := {}
  order : List String := []
  lines : List String := []

/-- Reads one more sheet with its number. -/
def Reading.addSheet (r : Reading) (number : Nat) (sheet : Element) : Reading :=
  let network := r.network.addSheet sheet
  let order := r.order ++ network.executionOrder
  let code := textOf (network.statements order)
  { network, order,
    lines := if code = "" then r.lines
      else r.lines ++ ["// Sheet " ++ toString number, code] }

/-- Reads the sheets of a diagram. -/
def read (content : Element) : Reading :=
  ((content.childrenNamed "Sheet").zipIdx 1).foldl (fun r (sheet, n) => r.addSheet n sheet) {}

/-- The Structured Text of what has been read. -/
def Reading.text (r : Reading) : String :=
  if r.lines.isEmpty then "// No FBD content to translate" else Text.join "\n" r.lines

/-- The Structured Text of a diagram. -/
def code (content : Element) : String := (read content).text

end ControlLogic.Diagram
