import ControlLogic.Cli.Report
import ControlLogic.Plant.Load
import ControlLogic.Plant.Summary

/-!
# The plant command

Reads several controllers, from a directory or from files given one by one, and writes what they
share and where they are at odds.
-/

namespace ControlLogic.Cli

/-- The switches of the plant command. -/
def surveyForm : Form where
  command := "analyze-multi"
  switches := [
    { name := "directory", short := some 'd', arity := .value },
    { name := "l5x", arity := .values },
    { name := "l5k", arity := .values },
    { name := "st", arity := .values },
    { name := "scl", arity := .values },
    { name := "cpp", arity := .values },
    { name := "output", short := some 'o', arity := .value, required := true },
    { name := "include", arity := .value },
    { name := "require-overlay" },
    { name := "verbose", short := some 'v' }]

/-- The files of a survey. -/
structure Selection where
  documents : List String
  /-- All files, the documents first. -/
  all : List String
  /-- Overlays by the names of controllers. -/
  overlays : Table String String

/-- A number with what it counts. -/
def counted (n : Nat) (what : String) : String := toString n ++ " " ++ what

/-- The files of a directory, each kind in ascending order.  An overlay belongs to the document
of the same name. -/
def selectDirectory (directory : String) : Command Selection := do
  let files ← currentFiles
  if !files.isPresent directory then
    refuse ("❌ Error: Directory '" ++ directory ++ "' not found.")
  let ending (e : String) := files.withEnding directory e
  let documents := ending ".L5X"
  let cpp := ending ".cpp" ++ ending ".h" ++ ending ".hpp"
  let overlays := ending ".L5K"
  let matched := documents.filterMap fun d =>
    (overlays.find? fun o => Path.stem o == Path.stem d).map fun o => (Path.stem d, o)
  say ("📁 Found " ++ Text.join ", " [counted documents.length "L5X files",
    counted (ending ".st").length "OpenPLC files", counted (ending ".scl").length "Siemens SCL files",
    counted (ending ".udt").length "Siemens UDT files",
    counted (ending ".db").length "Siemens DB files", counted cpp.length "TXT C++ files",
    "and " ++ counted overlays.length "L5K files in directory"])
  return { documents
           all := documents ++ ending ".st" ++ ending ".scl" ++ ending ".udt" ++ ending ".db" ++ cpp
           overlays := .ofList matched }

/-- The files given one by one.  Overlays belong to documents in the order in which they are
given. -/
def selectFiles (g : Given) : Command Selection := do
  let paths (name : String) := (g.values name).map Path.normalize
  let documents := paths "l5x"
  let overlays : Table String String :=
    .ofList ((documents.zip (paths "l5k")).map fun (d, o) => (Path.stem d, o))
  let all := documents ++ paths "st" ++ paths "scl" ++ paths "cpp"
  say ("📁 Processing " ++ counted all.length "files (" ++ Text.join ", " [
    counted documents.length "L5X", counted (paths "st").length "OpenPLC",
    counted (paths "scl").length "Siemens SCL", "0 Siemens UDT", "0 Siemens DB",
    counted (paths "cpp").length "TXT C++) with "] ++ counted overlays.size "L5K overlays")
  return { documents, all, overlays }

/-- The files of a survey. -/
def select (g : Given) : Command Selection :=
  match (g.value? "directory").filter (!Text.isEmpty ·) with
  | some directory => selectDirectory directory
  | none =>
    if ["l5x", "st", "scl", "cpp"].any g.has then selectFiles g
    else refuse "❌ Error: Must specify either --directory or --l5x files"

/-- Stops at the first path under which there is nothing. -/
def requireAll (kind : String) (paths : List String) : Command Unit :=
  paths.forM fun path => do
    if !(← currentFiles).isPresent path then
      refuse ("❌ Error: " ++ kind ++ " file '" ++ path ++ "' not found.")

/-- Prints the sizes of the controllers, the first dependencies and the first conflicts, as far
as they are among the parts that are chosen. -/
def sayPlant (p : Plant) (chosen : List String) : Command Unit := do
  sayAll ["", "📋 Detailed Summary:"]
  if chosen.contains "controllers" then
    p.controllers.entries.forM fun (name, q) =>
      sayItem name (Text.join ", " [counted q.controller.tags.length "tags",
        counted q.programs.length "programs", counted q.routines.length "routines"])
  if chosen.contains "shared_tags" && !p.dependencies.isEmpty then
    sayAll ["", "🔗 Shared Tags:"]
    (p.dependencies.take 5).forM fun d => sayItem d.tag (d.writer ++ " → " ++ d.reader)
  if chosen.contains "conflicts" && !p.conflicts.isEmpty then
    sayAll ["", "⚠️ Conflicts:"]
    (p.conflicts.take 5).forM fun c =>
      sayItem c.tag (c.difference.name ++ " in " ++ Text.join ", " c.details.keys)

/-- The plant command. -/
def survey (g : Given) : Command Unit := do
  let selection ← select g
  requireAll "L5X" selection.documents
  requireAll "L5K" selection.overlays.values
  say "🔧 Creating multi-PLC analysis..."
  let loading ← attempt (Plant.load (← currentFiles) selection.all selection.overlays.entries)
  if !loading.missing.isEmpty then
    let names := Text.join ", " loading.missing
    if g.has "require-overlay" then
      refuse ("❌ Error: L5K overlays required but missing for: " ++ names)
    say ("⚠️ Warning: L5K overlays missing for: " ++ names)
  let chosen := listed (g.valueD "include" "shared_tags,conflicts,controllers")
  let output := Path.normalize (g.valueD "output" "")
  say ("📊 Exporting multi-PLC analysis to " ++ output)
  say ("📤 Including components: " ++ Text.join ", " chosen)
  let p := loading.plant
  writeJson output (← attempt (p.summary chosen))
  say ("✅ Successfully exported multi-PLC analysis to " ++ output)
  say "📊 Analysis Summary:"
  sayCount "Total PLCs" p.controllers.size
  sayItem "PLC Names" (Text.join ", " p.controllers.keys)
  sayCount "Shared Tags" p.dependencies.length
  sayCount "Conflicts" p.conflicts.length
  if g.has "verbose" then sayPlant p chosen

end ControlLogic.Cli
