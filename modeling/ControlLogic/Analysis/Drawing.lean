import ControlLogic.Analysis.FlowGraph

/-!
# Drawings

Flow graphs and the data flow between routines as texts that drawing programs read: one text
format of nodes and arrows, and one markup format.
-/

namespace ControlLogic.Analysis

/-- A block as it is drawn. -/
structure Shape where
  id : String := ""
  kind : String := "instruction"
  condition : String := ""
  instructions : List String := []
  successors : List String := []
  ifTrue : Option String := none
  ifFalse : Option String := none
  defs : List String := []
  uses : List String := []

/-- A data flow as it is drawn. -/
structure Arrow where
  source : String := ""
  target : String := ""
  tag : String := ""
  kind : String := "write_to_read"

/-- What there is to draw: the blocks of each routine, and the data flow. -/
structure Drawing where
  routines : List (String × List Shape)
  arrows : List Arrow

/-! ## From graphs and from records -/

/-- A block as it is drawn. -/
def Block.shape (b : Block) : Shape :=
  let base : Shape := { id := b.id, condition := b.condition, instructions := b.instructions,
                        successors := b.successors, defs := b.defs, uses := b.uses }
  match b.role with
  | .plain => base
  | .branch _ ifTrue ifFalse => { base with kind := "branch", ifTrue, ifFalse }
  | .control _ => { base with kind := "control" }

/-- The drawing of a project. -/
def drawing (p : Project) : Drawing where
  routines := (flowGraphs p).entries.map fun (name, g) => (name, g.blocks.map Block.shape)
  arrows := (dataFlows p).map fun f => { source := f.source, target := f.target, tag := f.tag }

/-- The texts of a list in the field `k`. -/
def textsAt (j : Json) (k : String) : List String := (j.itemsAt k).map Json.display

/-- The block of a record. -/
def Shape.ofJson (j : Json) : Shape where
  id := j.textAt "block_id"
  kind := j.textAt "type" "instruction"
  condition := j.textAt "condition"
  instructions := textsAt j "instructions"
  successors := textsAt j "successors"
  ifTrue := j.optTextAt "true_successor"
  ifFalse := j.optTextAt "false_successor"
  defs := textsAt j "defs"
  uses := textsAt j "uses"

/-- The data flow of a record. -/
def Arrow.ofJson (j : Json) : Arrow where
  source := j.textAt "source"
  target := j.textAt "target"
  tag := j.textAt "tag"
  kind := j.textAt "type" "write_to_read"

/-- The drawing of a record. -/
def Drawing.ofJson (j : Json) : Drawing where
  routines := (j.fieldsAt "cfg").map fun (name, g) => (name, (g.itemsAt "blocks").map Shape.ofJson)
  arrows := (j.itemsAt "inter_routine_dataflow").map Arrow.ofJson

namespace Drawing

/-- The names of the routines, in ascending order. -/
def names (d : Drawing) : List String := Text.ascending (d.routines.map (·.1))

/-! ## Nodes and arrows -/

/-- At most three texts, with dots in place of the others. -/
def shortened (l : List String) : String :=
  Text.join ", " (l.take 3) ++ if l.length > 3 then "..." else ""

/-- The label and the colour of a block. -/
def label (s : Shape) : String × String :=
  let (text, colour) := match s.kind with
    | "branch" => (s.id ++ "\\nIF: " ++ s.condition, "lightgreen")
    | "control" => (s.id ++ "\\n" ++ s.condition, "lightyellow")
    | _ =>
      let shown := if s.instructions.length > 3 then s.instructions.take 3 ++ ["..."]
        else s.instructions
      (s.id ++ "\\n" ++ Text.join "\\n" shown, "lightblue")
  let data := if s.defs.isEmpty && s.uses.isEmpty then ""
    else "\\nDefs: " ++ shortened s.defs ++ "\\nUses: " ++ shortened s.uses
  (text ++ data, colour)

/-- The node of a block of a routine. -/
def node (routine id : String) : String := "\"" ++ routine ++ "_" ++ id ++ "\""

/-- The arrows that leave a block. -/
def blockArrows (routine : String) (s : Shape) : List String :=
  let arrow (target suffix : String) :=
    "    " ++ node routine s.id ++ " -> " ++ node routine target ++ suffix ++ ";"
  let conditional (target : Option String) (word : String) :=
    ((target.filter (!Text.isEmpty ·)).map fun t => arrow t (" [label=\"" ++ word ++ "\"]")).toList
  s.successors.map (arrow · "") ++
    if s.kind = "branch" then conditional s.ifTrue "true" ++ conditional s.ifFalse "false" else []

/-- The lines of one routine. -/
def routineLines (routine : String) (shapes : List Shape) : List String :=
  ["  subgraph cluster_" ++ Text.replace " " "_" routine ++ " \x7b",
    "    label=\"" ++ routine ++ "\";", "    style=filled;", "    color=lightgrey;", ""] ++
  shapes.map (fun s =>
    let (text, colour) := label s
    "    " ++ node routine s.id ++ " [label=\"" ++ text ++ "\", fillcolor=\"" ++ colour ++ "\"];") ++
  shapes.flatMap (blockArrows routine) ++ ["  \x7d", ""]

/-- The lines that open a drawing. -/
def opening (name direction fill edge : String) : List String :=
  ["digraph " ++ name ++ " \x7b", "  rankdir=" ++ direction ++ ";",
    "  node [shape=box, style=filled, fillcolor=" ++ fill ++ "];",
    "  edge [color=" ++ edge ++ "];", ""]

/-- The flow graphs as nodes and arrows. -/
def flowText (d : Drawing) : String :=
  Text.join "\n" (opening "CFG" "TB" "lightblue" "black" ++
    d.routines.flatMap (fun (name, shapes) => routineLines name shapes) ++ ["\x7d"])

/-- The data flow as nodes and arrows. -/
def dataText (d : Drawing) : String :=
  let quoted (s : String) := "\"" ++ s ++ "\""
  Text.join "\n" (opening "DataFlow" "LR" "lightcoral" "red" ++
    d.names.map (fun n => "  " ++ quoted n ++ " [label=" ++ quoted n ++ "];") ++ [""] ++
    d.arrows.map (fun a => "  " ++ quoted a.source ++ " -> " ++ quoted a.target ++ " [label=" ++
      quoted (a.tag ++ "\\n(" ++ a.kind ++ ")") ++ "];") ++ ["\x7d"])

/-! ## Markup -/

/-- The lines that open a markup drawing. -/
def markupOpening : List String :=
  ["<?xml version=\"1.0\" encoding=\"UTF-8\"?>",
    "<graphml xmlns=\"http://graphml.graphdrawing.org/xmlns\"",
    "         xmlns:xsi=\"http://www.w3.org/2001/XMLSchema-instance\"",
    "         xsi:schemaLocation=\"http://graphml.graphdrawing.org/xmlns",
    "         http://graphml.graphdrawing.org/xmlns/1.0/graphml.xsd\">", ""]

/-- The declaration of a piece of data. -/
def keyLine (kind name : String) : String :=
  "  <key id=\"" ++ name ++ "\" for=\"" ++ kind ++ "\" attr.name=\"" ++ name ++
    "\" attr.type=\"string\"/>"

/-- A piece of data. -/
def dataLine (key value : String) : String :=
  "      <data key=\"" ++ key ++ "\">" ++ value ++ "</data>"

/-- A node with its data. -/
def markupNode (n : Nat) (data : List (String × String)) : List String :=
  ["    <node id=\"n" ++ toString n ++ "\">"] ++ data.map (fun (k, v) => dataLine k v) ++
    ["    </node>"]

/-- An edge with its data. -/
def markupEdge (n source target : Nat) (tag kind : String) : List String :=
  ["    <edge id=\"e" ++ toString n ++ "\" source=\"n" ++ toString source ++ "\" target=\"n" ++
      toString target ++ "\">", dataLine "tag" tag, dataLine "flow_type" kind, "    </edge>"]

/-- A markup drawing with its keys, nodes and edges. -/
def markup (name : String) (nodeKeys : List String) (nodes edges : List String) : String :=
  Text.join "\n" (markupOpening ++ nodeKeys.map (keyLine "node") ++
    ["tag", "flow_type"].map (keyLine "edge") ++
    ["", "  <graph id=\"" ++ name ++ "\" edgedefault=\"directed\">", ""] ++ nodes ++ [""] ++
    edges ++ ["  </graph>", "</graphml>"])

/-- The label of a block in markup. -/
def markupLabel (s : Shape) : String :=
  s.id ++ " - " ++ match s.kind with
    | "branch" => "IF: " ++ s.condition
    | "control" => s.condition
    | _ => toString s.instructions.length ++ " instructions"

/-- The flow graphs as markup.  The edges run from each node to the next, as many as there are
successors. -/
def flowMarkup (d : Drawing) : String :=
  let shapes := d.routines.flatMap fun (name, l) => l.map (name, ·)
  let nodes := shapes.zipIdx.flatMap fun ((name, s), n) =>
    markupNode n [("label", markupLabel s), ("type", s.kind), ("routine", name),
      ("defs", Text.join "," s.defs), ("uses", Text.join "," s.uses)]
  let edges := (List.range (shapes.flatMap (·.2.successors)).length).flatMap fun n =>
    markupEdge n n (n + 1) "control_flow" "successor"
  markup "cfg" ["label", "type", "routine", "defs", "uses"] nodes edges

/-- The data flow as markup, between routines that are drawn. -/
def dataMarkup (d : Drawing) : String :=
  let nodes := d.names.zipIdx.flatMap fun (name, n) => markupNode n [("label", name)]
  let drawn := d.arrows.filterMap fun a =>
    match d.names.idxOf? a.source, d.names.idxOf? a.target with
    | some i, some j => some (i, j, a)
    | _, _ => none
  let edges := drawn.zipIdx.flatMap fun ((i, j, a), n) => markupEdge n i j a.tag a.kind
  markup "dataflow" ["label"] nodes edges

/-- The names of the drawing files, with their texts. -/
def texts (d : Drawing) : List (String × String) :=
  [("cfg.dot", d.flowText), ("dataflow.dot", d.dataText), ("cfg.graphml", d.flowMarkup),
    ("dataflow.graphml", d.dataMarkup)]

end Drawing

end ControlLogic.Analysis
