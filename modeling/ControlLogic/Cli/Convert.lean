import ControlLogic.Cli.Console
import ControlLogic.Exchange.Conversion
import ControlLogic.Legacy.Generate
import ControlLogic.Project.Check

/-!
# Conversion commands

A document is made Structured Text, and Structured Text is made a document.  In checked mode a
document that is made is read again, and written only if nothing is missing in it.
-/

namespace ControlLogic.Cli

/-! ## From documents -/

/-- The switches of the command that reads documents. -/
def fromDocumentForm : Form where
  command := "l5x2st"
  switches := [
    { name := "input", short := some 'i', arity := .value },
    { name := "directory", short := some 'd', arity := .value },
    { name := "output", short := some 'o', arity := .value },
    { name := "use-ir" },
    { name := "l5k-overlay", arity := .value },
    { name := "legacy" },
    { name := "verbose", short := some 'v' }]
  oneOf := ["input", "directory"]

/-- Makes the document at a path Structured Text, through a checked project. -/
def convertChecked (g : Given) (input output : String) : Command Unit := do
  if !(← currentFiles).isPresent input then
    refuse ("Error: Input file '" ++ input ++ "' not found.")
  if g.has "verbose" then say ("Converting " ++ input ++ " to " ++ output ++ " using IR mode")
  writeText output
    (← attempt (Exchange.structuredText (← currentFiles) input (g.value? "l5k-overlay")))
  say ("[INFO] IR validation passed. Wrote ST code to " ++ output)

/-- Converts the document at a path: into Structured Text in legacy mode, and else into a
document that keeps the tags. -/
def convertDocument (g : Given) (input output : String) : Command Unit := do
  if !(← currentFiles).isPresent input then
    refuse ("Error: Input file '" ++ input ++ "' not found.")
  let overlay := g.value? "l5k-overlay"
  let files ← currentFiles
  if g.has "verbose" then
    say ("Converting " ++ input ++ " to " ++ output)
    match overlay with
    | some o => if !Text.isEmpty o then say ("Using L5K overlay: " ++ o)
    | none => pure ()
    say (if g.has "legacy" then "Using legacy conversion mode (basic tag generation)"
      else "Using tag preservation mode (recommended)")
  if g.has "legacy" then
    writeText output (← attempt (Exchange.structuredText files input overlay))
  else
    writeText output (← attempt (Exchange.roundTrip files input overlay))
    say ("Tag preservation conversion completed: " ++ output)

/-- Makes one file of all documents below a directory. -/
def convertDirectory (g : Given) (directory output : String) : Command Unit := do
  let files ← currentFiles
  if !files.isPresent directory then
    refuse ("Error: Input directory '" ++ directory ++ "' not found.")
  if g.has "verbose" then
    say ("Converting all L5X files in " ++ directory ++ " to " ++ output)
  let paths := (files.under directory).filterMap fun
    | (_, .directory) => none
    | (path, _) => some path
  let (file, _) ← attempt (Legacy.consolidate
    (fun path => (Exchange.Document.load files path).map .ofDocument) paths)
  writeText output file.text

/-- The command that reads documents. -/
def fromDocument (g : Given) : Command Unit := do
  let output := g.valueD "output" "output.st"
  let given (name : String) := (g.value? name).filter (!Text.isEmpty ·)
  if g.has "use-ir" then
    say "[INFO] IR/guardrail mode enabled: L5X→IR→ST with validation."
    match given "input", given "directory" with
    | some input, _ => convertChecked g input output
    | none, some _ => refuse "Error: IR mode not yet supported for directory conversion."
    | none, none => pure ()
  else
    match given "input", given "directory" with
    | some input, _ => convertDocument g input output
    | none, some directory => convertDirectory g directory output
    | none, none => pure ()
    say ("Successfully converted to " ++ output)

/-! ## From Structured Text -/

/-- The switches of the command that reads Structured Text. -/
def fromTextForm : Form where
  command := "st2l5x"
  switches := [
    { name := "input", short := some 'i', arity := .value, required := true },
    { name := "output", short := some 'o', arity := .value, required := true },
    { name := "use-ir" },
    { name := "legacy" },
    { name := "verbose", short := some 'v' }]

/-- What is missing in a document given by its text. -/
def documentComplaints (text : String) : Except Fault (List String) := do
  let document ← Exchange.Document.parse (String.ofList (Text.unifyLineEnds text.toList))
  return (← document.source.project).complaints

/-- The command that reads Structured Text.  `arrange` prepares the text for a checked
conversion, and `report` prints what is missing in the result. -/
def fromText (arrange : String → String) (report : String → Command Unit) (g : Given) :
    Command Unit := do
  let input := g.valueD "input" ""
  let output := g.valueD "output" ""
  if g.has "use-ir" then
    say "[INFO] IR/guardrail mode enabled: ST→IR→L5X with validation."
    let text ← attempt ((← currentFiles).read input)
    let document ← attempt (Exchange.generateText (arrange text))
    let missing ← attempt (documentComplaints document)
    if !missing.isEmpty then
      report "[ERROR] IR validation failed:"
      missing.forM fun m => report ("  - " ++ m)
      throw .refused
    writeText output document
    say ("✅ IR validation passed. Successfully converted " ++ input ++ " to " ++ output)
  else
    let text ← attempt ((← currentFiles).read input)
    let document ← attempt (Exchange.generateText text)
    writeText output (Exchange.fileHeader ++ document)
    say (if g.has "legacy" then "✅ Legacy conversion completed: " ++ output
      else "✅ Successfully converted " ++ input ++ " to " ++ output)

/-- A text with its declarations before its statements. -/
def arrangeSections (text : String) : String :=
  let (declarations, statements) := StructuredText.splitSections text
  declarations ++ "\n\n" ++ statements

end ControlLogic.Cli
