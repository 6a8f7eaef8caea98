import ControlLogic.Analysis.Usage

/-!
# Flow graphs

A routine is cut into blocks.  A line that opens a control structure starts a block of its own,
a line that closes one starts the next block, and every other line is an instruction of the
current block.  A graph lists a block when it is started and again when it has collected
instructions and is left, so the same block may be listed twice.

Blocks of control structures are numbered on across the routines of a project; the other
blocks are numbered by the length of the list.
-/

namespace ControlLogic.Analysis

/-- What a block is for. -/
inductive Role where
  | plain
  /-- A condition, with the blocks to go on with. -/
  | branch (condition ifTrue ifFalse : String)
  /-- Another control structure, with its line. -/
  | control (line : String)
  deriving DecidableEq

/-- A block of instructions. -/
structure Block where
  id : String
  role : Role := .plain
  instructions : List String := []
  successors : List String := []
  deriving DecidableEq

namespace Block

/-- What stands on the block's first line, empty for a plain block. -/
def condition (b : Block) : String :=
  match b.role with
  | .plain => ""
  | .branch condition _ _ => condition
  | .control line => line

/-- The tags that a block writes. -/
def defs (b : Block) : List String := Text.ascending (b.instructions.flatMap written)

/-- The tags that a block reads; its condition counts once there is an instruction. -/
def uses (b : Block) : List String :=
  Text.ascending (b.instructions.flatMap fun i => readByAssignment i ++ references b.condition)

end Block

/-- The name of the block with a number. -/
def blockId (n : Nat) : String := "b" ++ toString n

/-- Whether a line opens a control structure. -/
def opensStructure (line : String) : Bool :=
  ["IF", "FOR", "WHILE", "CASE"].any (opensWith · line)

/-- Whether a line closes a control structure. -/
def closesStructure (line : String) : Bool :=
  ["END_IF", "END_FOR", "END_WHILE", "END_CASE"].contains (Text.upper line)

/-- The block of a control structure with a number. -/
def controlBlock (n : Nat) (line : String) : Block where
  id := blockId n
  role := match ifCondition? line with
    | some condition => .branch condition (blockId (n + 1)) (blockId (n + 2))
    | none => .control line

/-- A graph in the making. -/
structure Draft where
  /-- The blocks, in order of creation; the first is the entry. -/
  blocks : List Block
  /-- The places of the listed blocks. -/
  listed : List Nat
  /-- The place of the current block. -/
  current : Nat
  /-- The places of the open control structures, the innermost first. -/
  opened : List Nat
  /-- The number of the control structure met last. -/
  counter : Nat

namespace Draft

/-- The draft with nothing but the entry. -/
def start (counter : Nat) : Draft := ⟨[{ id := "entry" }], [], 0, [], counter⟩

/-- Changes the block at a place. -/
def change (d : Draft) (i : Nat) (f : Block → Block) : Draft :=
  { d with blocks := d.blocks.modify i f }

/-- Lists the current block if it has instructions. -/
def leave (d : Draft) : Draft :=
  match d.blocks[d.current]? with
  | some b => if b.instructions.isEmpty then d else { d with listed := d.listed ++ [d.current] }
  | none => d

/-- Starts a block, lists it and makes it the current one. -/
def enter (d : Draft) (b : Block) : Draft :=
  { d with blocks := d.blocks ++ [b], listed := d.listed ++ [d.blocks.length],
           current := d.blocks.length }

/-- The draft after a line that opens a control structure. -/
def openStructure (d : Draft) (line : String) : Draft :=
  let d := d.leave
  let b := controlBlock (d.counter + 1) line
  let d := d.change (d.listed.getLast?.getD 0) fun p => { p with successors := p.successors ++ [b.id] }
  let d := d.enter b
  { d with opened := d.current :: d.opened, counter := d.counter + 1 }

/-- The draft after a line that closes a control structure. -/
def closeStructure (d : Draft) : Draft :=
  let next := blockId (d.listed.length + 1)
  let d := match d.opened with
    | i :: rest =>
      { d.change i (fun p => { p with successors := p.successors ++ [next] }) with opened := rest }
    | [] => d
  d.enter { id := next }

/-- The draft after one more line. -/
def step (d : Draft) (line : String) : Draft :=
  if opensStructure line then d.openStructure line
  else if closesStructure line then d.closeStructure
  else d.change d.current fun b => { b with instructions := b.instructions ++ [line] }

/-- The listed blocks. -/
def result (d : Draft) : List Block := d.listed.filterMap (d.blocks[·]?)

end Draft

/-- The flow graph of a routine. -/
structure FlowGraph where
  blocks : List Block

/-- The block that a graph is entered by. -/
def FlowGraph.entry? (g : FlowGraph) : Option String :=
  if g.blocks.isEmpty then none else some "entry"

/-- The graph of a text, and the number of the control structure met last. -/
def flowGraph (counter : Nat) (content : String) : FlowGraph × Nat :=
  let d := ((liveLines content).foldl Draft.step (Draft.start counter)).leave
  (⟨d.result⟩, d.counter)

/-- The graphs of the routines that have a text, by name. -/
def flowGraphs (p : Project) : Table String FlowGraph :=
  (p.routines.foldl (fun (t, counter) r =>
    if Text.isEmpty r.text then (t, counter)
    else
      let (g, counter) := flowGraph counter r.text
      (t.insert r.name g, counter)) (Table.empty, 0)).1

/-! ## Data flow between routines -/

/-- A tag that carries data from one routine to another. -/
structure DataFlow where
  source : String
  target : String
  tag : String
  deriving DecidableEq

/-- The tags that a text writes and those it reads, by assignment. -/
def defsAndUses (content : String) : List String × List String :=
  let lines := liveLines content
  (Text.ascending (lines.flatMap written), Text.ascending (lines.flatMap readByAssignment))

/-- What each routine writes and reads, by name. -/
def flowTable (p : Project) : Table String (List String × List String) :=
  p.routines.foldl (fun t r => t.insert r.name (defsAndUses r.text)) Table.empty

/-- The data that goes from one routine to another. -/
def flowsBetween (a b : String × List String × List String) : List DataFlow :=
  (Text.meet a.2.1 b.2.2).map fun tag => ⟨a.1, b.1, tag⟩

/-- The data flow between all pairs of routines of a list. -/
def flowsAmong : List (String × List String × List String) → List DataFlow
  | [] => []
  | a :: rest => rest.flatMap (fun b => flowsBetween a b ++ flowsBetween b a) ++ flowsAmong rest

/-- The data flow between the routines of a project. -/
def dataFlows (p : Project) : List DataFlow := flowsAmong (flowTable p).entries

/-! ## Records -/

/-- The record of a block. -/
def Block.toJson (b : Block) : Json :=
  let base := [("block_id", .text b.id), ("instructions", .texts b.instructions),
    ("successors", .texts b.successors), ("defs", .texts b.defs), ("uses", .texts b.uses)]
  match b.role with
  | .plain => .record base
  | .branch condition ifTrue ifFalse =>
    .record (base ++ [("type", .text "branch"), ("condition", .text condition),
      ("true_successor", .text ifTrue), ("false_successor", .text ifFalse)])
  | .control line => .record (base ++ [("type", .text "control"), ("condition", .text line)])

/-- The record of a graph. -/
def FlowGraph.toJson (g : FlowGraph) : Json :=
  .record [("blocks", .list (g.blocks.map Block.toJson)), ("entry", .optText g.entry?)]

/-- The record of a data flow. -/
def DataFlow.toJson (f : DataFlow) : Json :=
  .record [("source", .text f.source), ("target", .text f.target), ("tag", .text f.tag),
    ("type", .text "write_to_read")]

end ControlLogic.Analysis
