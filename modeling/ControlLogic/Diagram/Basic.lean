import ControlLogic.Markup.Element
import ControlLogic.Text.Blank

/-!
# Function block diagrams

A diagram has input and output references, function blocks and wires between them, each
under an identifier.  The sheets of a diagram are put into one.
-/

namespace ControlLogic.Diagram

open Markup

/-- A function block. -/
structure Block where
  name : String
  /-- The instance that is called. -/
  operand : String
  /-- The arguments of the parameters that are passed both ways. -/
  arguments : Table String String
  pins : List String

/-- A connection from a source to a target. -/
structure Wire where
  source : String
  target : String
  sourcePin : Option String
  targetPin : Option String

/-- All that the sheets of a diagram show. -/
structure Network where
  inputs : Table String String := Table.empty
  outputs : Table String String := Table.empty
  blocks : Table String Block := Table.empty
  wires : List Wire := []

/-- An attribute that is present and not empty. -/
def filled? (e : Element) (k : String) : Option String :=
  (e.attribute? k).filter (· ≠ "")

/-- Adds the references with the name `tag`, each with its operand. -/
def readReferences (tag : String) (known : Table String String) (sheet : Element) :
    Table String String :=
  (sheet.childrenNamed tag).foldl (fun t e =>
    match filled? e "ID", filled? e "Operand" with
    | some id, some operand => t.insert id operand
    | _, _ => t) known

/-- The function block of an element. -/
def readBlock (name : String) (e : Element) : Block where
  name := name
  operand := e.attributeD "Operand" ""
  arguments := (e.childrenNamed "InOutParameter").foldl (fun t p =>
    match filled? p "Name", filled? p "Argument" with
    | some name, some argument => t.insert name argument
    | _, _ => t) Table.empty
  pins := Text.words (e.attributeD "VisiblePins" "")

/-- Adds the function blocks of a sheet. -/
def readBlocks (known : Table String Block) (sheet : Element) : Table String Block :=
  (sheet.childrenNamed "AddOnInstruction").foldl (fun t e =>
    match filled? e "ID", filled? e "Name" with
    | some id, some name => t.insert id (readBlock name e)
    | _, _ => t) known

/-- The wire of an element. -/
def readWire? (e : Element) : Option Wire := do
  let source ← filled? e "FromID"
  let target ← filled? e "ToID"
  some { source, target, sourcePin := e.attribute? "FromParam", targetPin := e.attribute? "ToParam" }

/-- Adds all that a sheet shows. -/
def Network.addSheet (n : Network) (sheet : Element) : Network where
  inputs := readReferences "IRef" n.inputs sheet
  outputs := readReferences "ORef" n.outputs sheet
  blocks := readBlocks n.blocks sheet
  wires := n.wires ++ (sheet.childrenNamed "Wire").filterMap readWire?

/-! ## Order of execution -/

/-- The texts of a list in ascending order, each once. -/
def sortedDistinct (l : List String) : List String :=
  (l.eraseDups).mergeSort fun a b => decide (a ≤ b)

/-- The blocks whose outputs a block takes, in ascending order. -/
def Network.suppliers (n : Network) (id : String) : List String :=
  sortedDistinct ((n.wires.filter fun w =>
    w.target = id && n.blocks.contains w.source && n.blocks.contains id).map (·.source))

/-- Visits a block after its suppliers.  `path` holds the blocks whose visit has begun, and
`done` those whose visit has ended, in order. -/
def visit (suppliers : String → List String) :
    Nat → (path : List String) → (done : List String) → String → List String
  | 0, _, done, _ => done
  | fuel + 1, path, done, id =>
    if path.contains id || done.contains id then done
    else (suppliers id).foldl (visit suppliers fuel (id :: path)) done ++ [id]

/-- The blocks in an order in which suppliers come first, as far as there is no cycle.  A
path never holds a block twice, so its length is bounded by the number of blocks. -/
def Network.executionOrder (n : Network) : List String :=
  n.blocks.keys.foldl (visit n.suppliers (n.blocks.size + 1) []) []

end ControlLogic.Diagram
