import ControlLogic.Exchange.Record
import ControlLogic.Legacy.Extract

/-!
# Sources of generated files as records
-/

namespace ControlLogic.Legacy

/-- A table of a record of records. -/
def tableOf {α : Type} (f : Json → α) (j : Json) : Table String α :=
  .ofList (j.fields.map fun (k, v) => (k, f v))

/-- A rung: the text of an object, which may lack it, or else the value as text. -/
def rungOf (j : Json) : Option String :=
  match j.field? "text" with
  | some t => t.text?
  | none => some j.display

/-- The program of a record. -/
def ProgramSource.ofJson (j : Json) : ProgramSource where
  tags := (j.field? "tags").map (tableOf (·.fields))
  routines := (j.field? "routines").map (tableOf fun r => r.items.map rungOf)
  mainRoutine := (j.field? "main_routine_name").map (·.display)

/-- The source of a record. -/
def Source.ofJson (j : Json) : Source where
  tags := (j.field? "tags").map fun t => .ok (tableOf (·.fields) t)
  dataTypes := (j.field? "datatypes").map (tableOf fun
    | .record fields => some (tableOf (·.fields) (.record fields))
    | _ => none)
  functionBlocks := (j.field? "functionblocks").map fun l => l.items.map (·.display)
  programs := (j.field? "programs").map (tableOf .ofJson)

/-- The node of a record, nested at most `fuel` deep; a text is an element of markup. -/
def Node.ofJson : (fuel : Nat) → Json → Node
  | 0, _ => .parts none none none
  | _ + 1, .text s =>
    match Markup.Element.parse? s with
    | some e => .element e
    | none => .parts none none none
  | fuel + 1, j => .parts (j.optTextAt "node")
      ((j.field? "attributes").map fun a => ⟨a.fields⟩)
      ((j.field? "children").map fun c => c.items.map (Node.ofJson fuel))

/-- The depth to which nodes are read. -/
def nodeDepth : Nat := 100

/-- What is found in the nodes of a record, and the Structured Text made of it. -/
def extract (j : Json) : Json :=
  let types := (j.fieldsAt "datatypes").filterMap fun (n, v) =>
    nodeDataType? n (v.items.map (Node.ofJson nodeDepth))
  let blocks := (j.fieldsAt "addons").filterMap fun (n, v) =>
    nodeFunctionBlock? n (tableOf (Node.ofJson nodeDepth) v)
  let logic := mainLogic (Source.ofJson (.record (j.fields.filter (·.1 == "programs"))))
  let tags := (j.itemsAt "tags").map fun t =>
    PlainTag.mk (t.textAt "name") (t.textAt "data_type") (t.optTextAt "description")
  .record [("data_types", .list (types.map (·.toJson))),
    ("function_blocks", .list (blocks.map (·.toJson))), ("logic", .text logic),
    ("st", .text (extractText tags types blocks logic))]

end ControlLogic.Legacy
