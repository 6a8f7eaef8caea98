import ControlLogic.Cli.Run
import Std.Time

/-!
# The command line

The outer layer of the tools: it reads the files that the arguments speak of, runs the command on
them, prints what it printed and writes what it changed.
-/

namespace ControlLogic.Main

/-- The tool that a first argument names, with the other arguments; without such a name it is the
combined tool. -/
def toolOf : List String → Cli.Tool × List String
  | "--draw" :: rest => (.drawing, rest)
  | args => (.combined, args)

/-- The paths that the arguments may speak of. -/
def mentioned (args : List String) : List String :=
  args.flatMap fun a => a :: ((Cli.cutAtEquals a).2).toList

/-- The bytes of a file. -/
def readBytes (path : String) : IO (List Nat) := do
  return (← IO.FS.readBinFile path).toList.map UInt8.toNat

/-- Adds what stands under a path, a directory with all that is below it. -/
partial def gather (files : Files) (path : String) : IO Files := do
  let place := (← IO.currentDir) / path
  if ← place.isDir then
    let entries ← place.readDir
    entries.foldlM (fun files e => gather files (Path.child path e.fileName))
      (files.insert path .directory)
  else if ← place.pathExists then
    return files.insert path (.bytes (← readBytes path))
  else return files

/-- Adds the directory that a path is in and the table of tags there. -/
def gatherBeside (files : Files) (path : String) : IO Files := do
  let parent := Path.parent path
  if ← ((← IO.currentDir) / parent).isDir then
    let files := if files.isPresent parent then files else files.insert parent .directory
    gather files (Path.child parent "PLCTags.xml")
  else return files

/-- The files that the arguments speak of. -/
def loadFiles (args : List String) : IO Files :=
  ((mentioned args).filter (!Text.isEmpty ·)).foldlM (fun files a => do
    let path := Path.normalize a
    gatherBeside (← gather files path) path) Table.empty

/-- Writes what is new. -/
def saveFiles (before after : Files) : IO Unit :=
  after.entries.forM fun (path, c) =>
    match c, before.get? path with
    | .directory, none => IO.FS.createDirAll path
    | .text s, _ => IO.FS.writeFile path s
    | _, _ => pure ()

/-- The number with which a run ends. -/
def exitCode : Cli.Ending → UInt32
  | .code n => n.toUInt32
  | .misuse _ => 2
  | .fault _ => 1

/-- Runs a tool on the files of this machine. -/
def runTool (args : List String) : IO UInt32 := do
  let (tool, args) := toolOf args
  let files ← loadFiles args
  let now := (← Std.Time.PlainDateTime.now).toLeanDateTimeString
  let outcome := Cli.run { now } tool files args
  IO.print outcome.output
  outcome.console.complained.forM IO.eprintln
  match outcome.ending with
  | .fault f => IO.eprintln f.message
  | _ => pure ()
  saveFiles files outcome.console.files
  return exitCode outcome.ending

end ControlLogic.Main

def main (args : List String) : IO UInt32 := ControlLogic.Main.runTool args
