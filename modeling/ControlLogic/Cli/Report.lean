import ControlLogic.Analysis.Drawing
import ControlLogic.Analysis.Report
import ControlLogic.Cli.Console
import ControlLogic.Exchange.Direction
import ControlLogic.Exchange.Import
import ControlLogic.Exchange.Record
import ControlLogic.Source.Cpp
import ControlLogic.Source.Lad

/-!
# Report commands

Commands that write what there is to say about one project: its points of input and output, its
components, or its programs and routines.
-/

namespace ControlLogic.Cli

/-- The switches of a command with one input and one output. -/
def reportForm (command : String) (more : List Switch := []) : Form where
  command
  switches := [
    { name := "input", short := some 'i', arity := .value, required := true },
    { name := "output", short := some 'o', arity := .value, required := true }] ++ more ++
    [{ name := "verbose", short := some 'v' }]

/-- Prints an item under a heading. -/
def sayItem (label value : String) : Command Unit := say ("  - " ++ label ++ ": " ++ value)

/-- Prints a count under a heading. -/
def sayCount (label : String) (n : Nat) : Command Unit := sayItem label (toString n)

/-! ## Points -/

/-- The command that lists points of input and output. -/
def extractPoints (env : Environment) (g : Given) : Command Unit := do
  let input := g.valueD "input" ""
  let output := g.valueD "output" ""
  say ("📖 Reading L5X file: " ++ input)
  let source ← attempt (env.openDocument (← currentFiles) input)
  let points ← attempt source.points
  writeJson output (.record [("source_file", .text input), ("extraction_time", .text env.now),
    ("total_io_tags", .nat points.length), ("io_tags", .list (points.map (·.toJson)))])
  say ("✅ Extracted " ++ toString points.length ++ " I/O tags to " ++ output)
  let count (d : Exchange.Direction) := (points.filter (·.direction = d)).length
  say "📊 Summary:"
  sayCount "Input tags" (count .input)
  sayCount "Output tags" (count .output)
  if g.has "verbose" then
    sayAll ["", "📋 I/O Tags:"]
    points.forM fun p =>
      say ("  - " ++ p.name ++ " (" ++ p.direction.name ++ ", " ++ p.dataType ++ ")")

/-! ## Components -/

/-- The switches of the command that reports components. -/
def exportForm : Form :=
  reportForm "export-ir" [
    { name := "include", arity := .value },
    { name := "mode", arity := .value, choices := ["default", "cfg"] },
    { name := "export-graphs" }]

/-- The names between commas. -/
def listed (s : String) : List String := (Text.split ',' s).map Text.strip

/-- Writes the drawings of a project. -/
def exportDrawings (p : Project) : Command Unit := do
  say "📊 Exporting graphs..."
  makeDirectory "out"
  let drawn := (Analysis.drawing p).texts
  drawn.forM fun (name, text) => writeText ("out/" ++ name) text
  drawn.forM fun (name, _) => sayItem (Text.replace "." "_" name) ("out/" ++ name)

/-- The command that reports components. -/
def exportComponents (env : Environment) (g : Given) : Command Unit := do
  let input := g.valueD "input" ""
  let output := g.valueD "output" ""
  say ("📖 Reading L5X file: " ++ input)
  let p ← attempt ((Exchange.Document.load (← currentFiles) input).bind (·.source.project))
  say "🔄 Converting to IR..."
  sayItem "Controller" p.controller.name
  sayCount "Programs" p.programs.length
  sayCount "Controller tags" p.controller.tags.length
  let graphsOnly := g.valueD "mode" "default" == "cfg"
  if graphsOnly then say "🔧 CFG mode enabled - exporting control flow graph"
  let chosen := if graphsOnly then ["cfg"] else listed (g.valueD "include" "tags,control_flow")
  say ("📤 Exporting IR components: " ++ Text.join ", " chosen)
  let report ← attempt (Analysis.report p chosen (some env.now))
  makeDirectory (Path.parent output)
  writeJson output report
  say ("✅ Successfully exported IR to " ++ output)
  if g.has "export-graphs" && (report.field? "cfg").isSome then exportDrawings p
  say "📊 Export Summary:"
  sayItem "Controller" p.controller.name
  sayCount "Programs" p.programs.length
  sayCount "Routines" p.routines.length
  sayItem "Exported components" (Text.join ", " chosen)
  if g.has "verbose" then
    sayAll ["", "📋 Detailed Summary:"]
    chosen.forM fun c => (((report.field? c).getD .null).fieldsAt "summary").forM fun (k, v) =>
      sayItem (c ++ "." ++ k) v.display

/-! ## Programs -/

/-- The record of the programs of a project, read from a path. -/
def programsRecord (path timeKey now : String) (p : Project) : Json :=
  let routine (r : Project.Routine) : Json :=
    .record [("name", .text r.name), ("type", .text r.language.name),
      ("description", .optText r.description), ("content", .optText r.content)]
  let program (q : Project.Program) : Json :=
    .record [("name", .text q.name), ("source_type", .optText q.sourceType),
      ("routines", .list (q.routines.map routine))]
  .record [("source_file", .text path), (timeKey, .text now),
    ("controller", .record [("name", .text p.controller.name),
      ("source_type", .optText p.controller.sourceType),
      ("total_tags", .nat p.controller.tags.length)]),
    ("programs", .list (p.programs.map program))]

/-- Prints the sizes of a project. -/
def saySizes (p : Project) : Command Unit := do
  sayItem "Controller" p.controller.name
  sayCount "Programs" p.programs.length

/-- Prints the programs of a project with their routines, and its first tags. -/
def sayDetails (tagNote : Project.Tag → String) (p : Project) : Command Unit := do
  sayAll ["", "📋 Detailed Summary:"]
  p.programs.forM fun q => do
    sayItem "Program" q.name
    q.routines.forM fun r => say ("    - Routine: " ++ r.name ++ " (" ++ r.language.name ++ ")")
  if !p.controller.tags.isEmpty then
    sayAll ["", "📋 Tags:"]
    (p.controller.tags.take 10).forM fun t =>
      say ("  - " ++ t.name ++ " (" ++ t.dataType ++ ")" ++ tagNote t)

/-- The command that looks into a project of ladders and blocks. -/
def exploreLadder (env : Environment) (g : Given) : Command Unit := do
  let input := g.valueD "input" ""
  let output := g.valueD "output" ""
  say ("📖 Reading Siemens LAD/FBD project: " ++ input)
  if !(← currentFiles).isPresent input then
    refuse ("❌ Error: Project path '" ++ input ++ "' not found.")
  let path := Path.normalize input
  let p ← attempt (Source.Lad.load (← currentFiles) path)
  say "🔄 Parsing LAD/FBD project..."
  saySizes p
  sayCount "Controller tags" p.controller.tags.length
  writeJson output (programsRecord path "exploration_time" env.now p)
  say ("✅ Successfully explored LAD/FBD project to " ++ output)
  say "📊 Summary:"
  saySizes p
  sayCount "Routines" p.routines.length
  sayCount "Tags" p.controller.tags.length
  if g.has "verbose" then sayDetails (fun _ => "") p

/-- Whether the description of a tag speaks of a word, case aside. -/
def speaksOf (word : String) (t : Project.Tag) : Bool :=
  t.description.any fun d => Text.contains word (Text.lower d)

/-- The command that looks into a control program in C++. -/
def parseCpp (env : Environment) (g : Given) : Command Unit := do
  let input := g.valueD "input" ""
  let output := g.valueD "output" ""
  say ("📖 Reading TXT control logic file: " ++ input)
  if !(← currentFiles).isPresent input then
    refuse ("❌ Error: File '" ++ input ++ "' not found.")
  let path := Path.normalize input
  let p ← attempt (Source.Cpp.load (← currentFiles) path)
  say "🔄 Parsing TXT control logic..."
  saySizes p
  sayCount "Controller tags" p.controller.tags.length
  writeJson output (programsRecord path "parse_time" env.now p)
  say ("✅ Successfully parsed TXT control logic to " ++ output)
  say "📊 Summary:"
  saySizes p
  sayCount "Routines" p.routines.length
  let tags := p.controller.tags
  sayCount "Input tags" (tags.filter (speaksOf "input")).length
  sayCount "Output tags" (tags.filter (speaksOf "output")).length
  sayCount "Internal tags"
    (tags.filter fun t => !speaksOf "input" t && !speaksOf "output" t).length
  if g.has "verbose" then
    sayDetails (fun t => ": " ++ (Json.optText t.description).display) p

/-- The command that looks into a source in SCL.  It has no reader for a single file. -/
def parseScl (g : Given) : Command Unit := do
  let input := g.valueD "input" ""
  say ("📖 Reading Siemens SCL file: " ++ input)
  if !(← currentFiles).isPresent input then
    refuse ("❌ Error: File '" ++ input ++ "' not found.")
  refuse "❌ Error: 'SiemensSCLParser' object has no attribute 'parse_scl_file'"

end ControlLogic.Cli
