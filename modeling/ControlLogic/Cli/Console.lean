import ControlLogic.Cli.Arguments
import ControlLogic.Exchange.Document
import ControlLogic.Files
import ControlLogic.Json.Printer

/-!
# Commands

A command works on files and prints lines.  It is a pure function: what it prints and writes is
kept beside its result, also if it stops before its end.
-/

namespace ControlLogic.Cli

/-- What a command is given besides its arguments. -/
structure Environment where
  /-- The time to be noted in reports. -/
  now : String := ""
  /-- How the exchange document at a path is opened. -/
  openDocument : Exchange.Opener := Exchange.Document.opener
  /-- How arguments are read strictly. -/
  readStrictly : Form → List String → Except StrictMisuse Given := Form.readStrict

/-- The state of a command: the files, and what it has printed. -/
structure Console where
  files : Files
  printed : List String := []
  /-- What went to the error output. -/
  complained : List String := []

/-- Why a command stopped before its end. -/
inductive Stop where
  | fault (f : Fault)
  /-- The command has said why. -/
  | refused

/-- A command. -/
abbrev Command := ExceptT Stop (StateM Console)

/-- Prints a line. -/
def say (line : String) : Command Unit :=
  modify fun c => { c with printed := c.printed ++ [line] }

/-- Prints lines. -/
def sayAll (lines : List String) : Command Unit :=
  modify fun c => { c with printed := c.printed ++ lines }

/-- Prints a line to the error output. -/
def complain (line : String) : Command Unit :=
  modify fun c => { c with complained := c.complained ++ [line] }

/-- The files. -/
def currentFiles : Command Files := do return (← get).files

/-- Goes on with a result, or stops with its fault. -/
def attempt {α : Type} (r : Except Fault α) : Command α :=
  match r with
  | .ok a => pure a
  | .error f => throw (.fault f)

/-- Prints a line and stops. -/
def refuse {α : Type} (line : String) : Command α := do
  say line
  throw .refused

/-- Writes a text to a path. -/
def writeText (path text : String) : Command Unit := do
  let files ← attempt ((← currentFiles).write path text)
  modify fun c => { c with files }

/-- Writes a value to a path. -/
def writeJson (path : String) (j : Json) : Command Unit := writeText path j.pretty

/-- Makes a directory. -/
def makeDirectory (path : String) : Command Unit := do
  let files ← attempt ((← currentFiles).makeDirectory path)
  modify fun c => { c with files }

/-! ## Results -/

/-- How a run ends. -/
inductive Ending where
  | code (n : Nat)
  | misuse (m : StrictMisuse)
  /-- A fault that nobody has dealt with. -/
  | fault (f : Fault)

/-- The result of a run. -/
structure Outcome where
  ending : Ending
  console : Console

/-- The standard output of a run. -/
def Outcome.output (o : Outcome) : String :=
  String.join (o.console.printed.map (· ++ "\n"))

/-- The result of a command; what to do if it stops is for `handle` to say. -/
def runCommand (files : Files) (c : Command Unit) (handle : Stop → Console → Outcome) : Outcome :=
  match (c.run.run { files }) with
  | (.ok _, console) => ⟨.code 0, console⟩
  | (.error stop, console) => handle stop console

/-- A console with one more line. -/
def Console.also (c : Console) (line : String) : Console :=
  { c with printed := c.printed ++ [line] }

/-- A console with one more line on the error output. -/
def Console.alsoComplain (c : Console) (line : String) : Console :=
  { c with complained := c.complained ++ [line] }

end ControlLogic.Cli
