import ControlLogic.Cli.Convert
import ControlLogic.Cli.Draw
import ControlLogic.Cli.Survey

/-!
# Runs

A run is one of the tools with its arguments, on files.  The combined tool takes the name of a
command first.  A command of it that cannot be carried out prints its usage, except the one that
reads documents.
-/

namespace ControlLogic.Cli

/-- The tools. -/
inductive Tool where
  /-- All commands. -/
  | combined
  /-- The command that reads documents. -/
  | fromDocument
  /-- The command that reads Structured Text, its arguments read strictly. -/
  | fromText
  /-- The command that lists points, its arguments read strictly. -/
  | points
  /-- The command that draws a state machine. -/
  | drawing

/-- The commands of the combined tool besides the one that reads documents. -/
def commands : List (Form × (Environment → Given → Command Unit)) :=
  [(fromTextForm, fun _ => fromText arrangeSections say),
    (reportForm "extract-io", extractPoints),
    (exportForm, exportComponents),
    (surveyForm, fun _ => survey),
    (reportForm "explore-lad", exploreLadder),
    (reportForm "parse-txt", parseCpp),
    (reportForm "parse-scl", fun _ => parseScl)]

/-- The command that has no work to do. -/
def idleCommand : String := "extract-fsm"

/-- The names of all commands. -/
def commandNames : List String :=
  [fromDocumentForm.command] ++ commands.map (·.1.command) ++ [idleCommand]

/-- The end of a run that comes to no command. -/
def misused (files : Files) (usage : String) : Misuse → Outcome
  | .help => ⟨.code 0, { files, printed := [usage] }⟩
  | .wrong reason => ⟨.code 2, { files, complained := [usage, "error: " ++ reason] }⟩

/-- Runs the command that reads documents. -/
def runFromDocument (files : Files) (args : List String) : Outcome :=
  match fromDocumentForm.read args with
  | .error m => misused files fromDocumentForm.usage m
  | .ok g => runCommand files (fromDocument g) fun stop console =>
    ⟨.code 1, match stop with
      | .fault f => console.also ("Error: " ++ f.message)
      | .refused => console⟩

/-- Runs a command that prints its usage if it comes to nothing. -/
def runReporting (form : Form) (body : Given → Command Unit) (files : Files)
    (args : List String) : Outcome :=
  match form.read args with
  | .error m =>
    let { console, .. } := misused files form.usage m
    ⟨.code 1, console.also form.usage⟩
  | .ok g => runCommand files (body g) fun stop console =>
    ⟨.code 1, match stop with
      | .fault f => (console.also ("❌ Error: " ++ f.message)).also form.usage
      | .refused => console.also form.usage⟩

/-- Runs a command with its arguments read strictly.  It complains on the error output. -/
def runStrict (env : Environment) (form : Form) (body : Given → Command Unit) (files : Files)
    (args : List String) : Outcome :=
  match env.readStrictly form args with
  | .error .help => ⟨.code 0, { files, printed := [form.usage] }⟩
  | .error m => ⟨.misuse m, { files, complained := [form.usage] }⟩
  | .ok g => runCommand files (body g) fun stop console =>
    ⟨.code 1, match stop with
      | .fault f => console.alsoComplain ("❌ Error: " ++ f.message)
      | .refused => console⟩

/-- Runs the combined tool. -/
def runCombined (env : Environment) (files : Files) (args : List String) : Outcome :=
  match readCommand commandNames args with
  | .error m => misused files ("usage: [-h] \x7b" ++ Text.join "," commandNames ++ "\x7d") m
  | .ok (name, rest) =>
    if name = fromDocumentForm.command then runFromDocument files rest
    else match commands.find? (·.1.command == name) with
      | some (form, body) => runReporting form (body env) files rest
      | none => ⟨.code 0, { files }⟩

/-- Runs the drawing command; nobody deals with its faults. -/
def runDrawing (files : Files) (args : List String) : Outcome :=
  runCommand files (draw args) fun stop console =>
    ⟨match stop with
      | .fault f => .fault f
      | .refused => .code 1, console⟩

/-- Runs a tool. -/
def run (env : Environment) (tool : Tool) (files : Files) (args : List String) : Outcome :=
  match tool with
  | .combined => runCombined env files args
  | .fromDocument => runFromDocument files args
  | .fromText => runStrict env fromTextForm (fromText id complain) files args
  | .points => runStrict env (reportForm "extract-io") (extractPoints env) files args
  | .drawing => runDrawing files args

end ControlLogic.Cli
