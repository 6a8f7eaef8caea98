import ControlLogic.Analysis.Line
import ControlLogic.Fault
import ControlLogic.Markup.Reader
import ControlLogic.Project.Basic

/-!
# Flow of control

What a routine does under which conditions.  In Structured Text every branch line opens an
entry, and the lines that act are listed under the entry opened last.  In ladder text a rung
has its condition before and its action after the first double dash.  In a diagram the wires
carry values from references to the pins of blocks.
-/

namespace ControlLogic.Analysis

/-- Actions under a condition; without a condition they are always taken. -/
structure Entry where
  condition : Option String
  actions : List String
  deriving DecidableEq

/-! ## Structured Text -/

/-- What a line of Structured Text means to the flow of control. -/
inductive FlowLine where
  | branch (condition : String)
  | action
  | other
  deriving DecidableEq

/-- The lines that end a structure. -/
def endLines : List String := ["END_IF", "END_CASE", "END_FOR", "END_WHILE", "END_REPEAT"]

/-- The signs of an action. -/
def actionSigns : List String := [":=", "=", "SET", "RESET", "TON", "TOF", "CTU", "CTD"]

/-- What a line means. -/
def classify (line : String) : FlowLine :=
  let upper := Text.upper line
  if opensWith "IF" line then .branch (conditionFrom 3 line)
  else if opensWith "ELSIF" line then .branch (conditionFrom 6 line)
  else if upper = "ELSE" then .branch "else"
  else if endLines.contains upper then .other
  else if Text.contains ":" line && actionSigns.any (Text.contains · upper) then .action
  else .other

/-- Adds an action to the entry opened last. -/
def addAction (line : String) : List Entry → List Entry
  | [] => [⟨none, [line]⟩]
  | [e] => [{ e with actions := e.actions ++ [line] }]
  | e :: rest => e :: addAction line rest

/-- The entries after one more line. -/
def flowStep (entries : List Entry) (line : String) : List Entry :=
  match classify line with
  | .branch condition => entries ++ [⟨some condition, []⟩]
  | .action => addAction line entries
  | .other => entries

/-- The entries of a text. -/
def structuredFlow (content : String) : List Entry :=
  (liveLines content).foldl flowStep []

/-! ## Ladder text -/

/-- The text without rails and without blanks at its ends. -/
def withoutRails (s : String) : String := Text.strip (Text.replace "|" "" s)

/-- The condition and the action of a rung. -/
def rungOfLine? (line : String) : Option Entry :=
  if Text.contains "|" line then
    match Text.splitOn "--" line with
    | left :: right :: _ =>
      some ⟨some (withoutRails left), [withoutRails right].filter (!Text.isEmpty ·)⟩
    | _ => none
  else none

/-- The rungs of a text. -/
def ladderFlow (content : String) : List Entry :=
  (liveLines content).filterMap rungOfLine?

/-! ## Diagrams -/

/-- A wire with its ends, as far as they are given. -/
structure FlowWire where
  source : Option String
  target : Option String
  pin : Option String

/-- A block of a diagram. -/
structure FlowBlock where
  name : String
  operand : String
  pins : List String

/-- A diagram, with its blocks and references under their identifiers. -/
structure FlowDiagram where
  blocks : Table (Option String) FlowBlock
  wires : List FlowWire
  references : Table (Option String) String

namespace FlowDiagram

/-- The diagram of an element. -/
def ofElement (e : Markup.Element) : FlowDiagram where
  blocks := Table.ofList ((e.descendantsNamed "AddOnInstruction").map fun b =>
    (b.attribute? "ID", { name := b.attributeD "Name" "Unknown"
                          operand := b.attributeD "Operand" "Unknown"
                          pins := Text.words (b.attributeD "VisiblePins" "") }))
  wires := (e.descendantsNamed "Wire").map fun w =>
    { source := w.attribute? "FromID", target := w.attribute? "ToID", pin := w.attribute? "ToParam" }
  references := Table.ofList ((e.descendantsNamed "IRef").map fun r =>
    (r.attribute? "ID", r.attributeD "Operand" "Unknown"))

/-- An identifier inside a made-up name. -/
def identifier (id : Option String) : String := id.getD "None"

/-- What feeds a wire. -/
def feed (d : FlowDiagram) (w : FlowWire) : String :=
  d.references.getD w.source ("Input_" ++ identifier w.source)

/-- The name and the operand of the block that a wire leads to. -/
def sink (d : FlowDiagram) (w : FlowWire) : String × String :=
  match d.blocks.get? w.target with
  | some b => (b.name, b.operand)
  | none => ("Block_" ++ identifier w.target, "Unknown")

/-- What feeds each pin of a block. -/
def inputs (d : FlowDiagram) (id : Option String) : Table (Option String) String :=
  Table.ofList ((d.wires.filter (·.target == id)).map fun w => (w.pin, d.feed w))

/-- The blocks by operand. -/
def byOperand (d : FlowDiagram) : Table String (Option String × FlowBlock) :=
  Table.ofList (d.blocks.entries.map fun (id, b) => (b.operand, (id, b)))

end FlowDiagram

/-! ## Routines -/

/-- The flow of control of a routine. -/
inductive ControlFlow where
  | structured (entries : List Entry)
  | ladder (rungs : List Entry)
  | diagram (d : FlowDiagram)
  /-- The content of a diagram that is not markup. -/
  | notMarkup (content : String)
  /-- The content of a diagram that is not well formed. -/
  | unreadable (content : Option String)
  /-- A routine in another language. -/
  | unknown (content : Option String)

/-- The flow of control of a diagram's content. -/
def diagramFlow (content : Option String) : ControlFlow :=
  match content with
  | none => .unreadable none
  | some s =>
    if !Text.startsWith "<" (Text.strip s) then .notMarkup s
    else match Markup.Element.parse? ("<root>" ++ s ++ "</root>") with
      | some e => .diagram (.ofElement e)
      | none => .unreadable (some s)

/-- The flow of control of a routine; a routine in text needs its content. -/
def controlFlow (r : Project.Routine) : Except Fault ControlFlow :=
  match r.language, r.content with
  | .st, some s => .ok (.structured (structuredFlow s))
  | .rll, some s => .ok (.ladder (ladderFlow s))
  | .fbd, content => .ok (diagramFlow content)
  | .sfc, content => .ok (.unknown content)
  | .lad, content => .ok (.unknown content)
  | _, none => .error (.absent "split")

/-! ## Records -/

/-- The record of an entry of Structured Text. -/
def Entry.toJson (e : Entry) : Json :=
  match e.condition with
  | some c => .record [("type", .text "branch"), ("condition", .text c),
      ("actions", .texts e.actions)]
  | none => .record [("type", .text "action"), ("actions", .texts e.actions)]

/-- The record of a rung. -/
def Entry.rungJson (e : Entry) : Json :=
  .record [("type", .text "rung"), ("condition", .optText e.condition),
    ("actions", .texts e.actions)]

/-- A key that may be missing. -/
def keyText (k : Option String) : String := k.getD "null"

/-- The fields of a diagram. -/
def FlowDiagram.fields (d : FlowDiagram) : List (String × Json) :=
  let wire (w : FlowWire) : Json :=
    let (block, operand) := d.sink w
    .record [("type", .text "fbd_connection"), ("source", .text (d.feed w)),
      ("destination", .record [("block", .text block), ("instance", .text operand),
        ("parameter", .optText w.pin)]), ("connection_type", .text "data_flow")]
  let block (b : Option String × FlowBlock) : Json :=
    .record [("block_type", .text b.2.name),
      ("inputs", .ofTable .text (Table.ofList ((d.inputs b.1).entries.map fun (k, v) =>
        (keyText k, v)))),
      ("visible_pins", .texts b.2.pins)]
  [("control_flow", .list (d.wires.map wire)), ("function_blocks", .ofTable block d.byOperand),
    ("total_blocks", .nat d.blocks.size), ("total_connections", .nat d.wires.length)]

/-- The record of a flow of control. -/
def ControlFlow.toJson : ControlFlow → Json
  | structured entries => .record [("type", .text "structured_text"),
      ("control_flow", .list (entries.map Entry.toJson))]
  | ladder rungs => .record [("type", .text "ladder_logic"),
      ("control_flow", .list (rungs.map Entry.rungJson))]
  | diagram d => .record (("type", .text "function_block_diagram") :: d.fields)
  | notMarkup content => .record [("type", .text "function_block_diagram"),
      ("content", .text content), ("note", .text "FBD content not in XML format")]
  | unreadable content => .record [("type", .text "function_block_diagram"),
      ("content", .optText content), ("error", .text "FBD parsing error"),
      ("note", .text "FBD control flow analysis requires detailed parsing of block connections")]
  | unknown content => .record [("type", .text "unknown"), ("content", .optText content)]

end ControlLogic.Analysis
