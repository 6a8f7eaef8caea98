import ControlLogic.Files
import ControlLogic.Markup.Reader
import ControlLogic.Markup.Writer
import ControlLogic.Project.Basic
import ControlLogic.Text.Pattern

/-!
# Ladder and block projects in markup

A project is a directory or an archive of markup files.  What looks like a block in one of
them becomes a block with one input and one output, and what looks like a connection becomes a
connection.
-/

namespace ControlLogic.Source.Lad

open Text Project Markup

/-- A block. -/
structure Block where
  id : String
  type : String
  language : String

/-- A connection from the output of a block to the input of another. -/
structure Connection where
  source : String
  target : String

/-- The language that a document speaks of. -/
def languageOf : Option Element → String
  | none => "LAD"
  | some e =>
    let text := upper e.render
    if contains "LAD" text || contains "LADDER" text then "LAD"
    else if contains "FBD" text || contains "FUNCTION_BLOCK" text then "FBD"
    else if contains "SCL" text || contains "STRUCTURED_TEXT" text then "SCL"
    else "LAD"

/-- A tag whose name ends with a keyword. -/
def blockTag (k : String) : Pattern :=
  .all [.text "<", .group 1 .word, .keyword k, .star (.except ">"), .text ">"]

/-- The blocks of a document.  A document without any counts as one unknown block, and one
that cannot be read as one faulty block. -/
def blocksOf : Option Element → List Block
  | none => [⟨"B1", "ERROR", "LAD"⟩]
  | some e =>
    let text := e.render
    let language := languageOf (some e)
    let found := ["Block", "Function", "Timer", "Counter"].flatMap fun k =>
      ((blockTag k).findAll text).zipIdx.map fun (m, i) =>
        ⟨"B" ++ toString (i + 1), upper (m.group 1), language⟩
    if found.isEmpty then [⟨"B1", "UNKNOWN", language⟩] else found

/-- A tag with a source and a target. -/
def connectionTag (k : String) : Pattern :=
  .all [.keyword ("<" ++ k), .star (.except ">"), .keyword "from=\"",
    .group 1 (.plus (.except "\"")), .text "\"", .star (.except ">"), .keyword "to=\"",
    .group 2 (.plus (.except "\"")), .text "\""]

/-- The connections of a document. -/
def connectionsOf : Option Element → List Connection
  | none => []
  | some e =>
    let text := e.render
    ["Connection", "Wire"].flatMap fun k =>
      ((connectionTag k).findAll text).map fun m => ⟨m.group 1, m.group 2⟩

/-! ## The project -/

/-- The tags of a block. -/
def Block.tags (b : Block) : List Tag :=
  [{ name := b.id ++ ".IN", dataType := "BOOL", scope := .controller
     description := some ("Input IN of " ++ b.type ++ " block " ++ b.id) },
   { name := b.id ++ ".OUT", dataType := "BOOL", scope := .controller
     description := some ("Output OUT of " ++ b.type ++ " block " ++ b.id) }]

/-- The text of the routine: the blocks, and then the connections. -/
def routineText (blocks : List Block) (connections : List Connection) : String :=
  let listed := blocks.flatMap fun b =>
    ["Block " ++ b.id ++ ": " ++ b.type, "  Inputs: IN", "  Outputs: OUT", ""]
  let joined := connections.map fun c => "  " ++ c.source ++ ".OUT -> " ++ c.target ++ ".IN"
  join "\n" (listed ++ if joined.isEmpty then [] else "Connections:" :: joined)

/-- The project of blocks and connections. -/
def project (name : String) (blocks : List Block) (connections : List Connection) : Project where
  controller := {
    name
    tags := blocks.flatMap Block.tags
    sourceType := some "siemens_lad" }
  programs := [{
    name := "Main"
    routines := [{
      name := "Main"
      language := .lad
      content := some (routineText blocks connections)
      description := some ("Siemens LAD/FBD program with " ++ toString blocks.length ++ " blocks") }]
    sourceType := some "siemens_lad" }]
  sourceType := some "siemens_lad"

/-- Whether a path leads to a file of the project itself. -/
def isProjectFile (path : String) : Bool :=
  endsWith ".xml" (Path.name path) && !(["System", "Logs", "XRef", "Vci"].any (contains · path))

/-- The project of documents under their paths. -/
def ofDocuments (name : String) (documents : List (String × Option Element)) : Project :=
  let kept := (documents.filter fun d => isProjectFile d.1).mergeSort fun a b =>
    decide (a.1 ≤ b.1)
  project name (kept.flatMap fun d => blocksOf d.2) (kept.flatMap fun d => connectionsOf d.2)

/-- The document of a content; none if it cannot be read. -/
def document? (path : String) (c : Content) : Option Element :=
  match c.read path with
  | .ok text => Element.parse? text
  | .error _ => none

/-- Reads the project at a path: an archive, or a directory with all files under it. -/
def load (files : Files) (path : String) : Except Fault Project :=
  let name := Path.name path
  if startsWith ".zap" (lower (Path.suffix path)) then
    match files.find? path with
    | none => .error (.noSuchFile path)
    | some .directory => .error (.isDirectory path)
    | some (.archive members) =>
      .ok (ofDocuments name (members.map fun (p, text) => (p, document? p (.text text))))
    | some _ => .error .notArchive
  else
    .ok (ofDocuments name ((files.under path).map fun (p, c) => (p, document? p c)))

end ControlLogic.Source.Lad
