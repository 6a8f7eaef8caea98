import ControlLogic.Fault
import ControlLogic.Table
import ControlLogic.Text.Basic
import ControlLogic.Text.Blank
import ControlLogic.Text.Utf8

/-!
# Files

Contents under paths.  A text is read with all its line ends turned into line feeds.  A path
below which there is something is a directory, and so is the path of the place itself.
-/

namespace ControlLogic

/-- What stands under a path. -/
inductive Content where
  | text (s : String)
  | bytes (b : List Nat)
  /-- An archive with its members in order. -/
  | archive (members : List (String × String))
  | directory

/-- Contents under paths. -/
abbrev Files := Table String Content

/-! ## Paths -/

namespace Path

/-- The parts of a path, those left out that lead nowhere. -/
def parts (path : String) : List String :=
  (Text.split '/' path).filter fun p => !Text.isEmpty p && p != "."

/-- The path in its plain form. -/
def normalize (path : String) : String :=
  let joined := Text.join "/" (parts path)
  if Text.startsWith "/" path then "/" ++ joined
  else if Text.isEmpty joined then "." else joined

/-- The last part of a path. -/
def name (path : String) : String := (parts path).getLast?.getD ""

/-- The path that a path is below. -/
def parent (path : String) : String :=
  normalize ((if Text.startsWith "/" path then "/" else "") ++
    Text.join "/" (parts path).dropLast)

/-- The place of the dot before the ending of a name.  A dot at either end of the name
begins no ending. -/
def dot? (name : String) : Option Nat :=
  match Text.Chars.lastIndexOf? '.' name.toList with
  | some i => if 0 < i && i + 1 < Text.length name then some i else none
  | none => none

/-- The last part of a path without its ending. -/
def stem (path : String) : String :=
  let n := name path
  match dot? n with
  | some i => Text.take i n
  | none => n

/-- The ending of the last part of a path, with its dot. -/
def suffix (path : String) : String :=
  let n := name path
  match dot? n with
  | some i => Text.drop i n
  | none => ""

/-- A name in a directory. -/
def child (directory name : String) : String :=
  if directory = "." then name else directory ++ "/" ++ name

end Path

/-! ## Reading -/

namespace Content

/-- The text of a content at a path. -/
def read (path : String) : Content → Except Fault String
  | .text s => .ok (String.ofList (Text.unifyLineEnds s.toList))
  | .bytes b =>
    match Text.decode b with
    | .ok s => .ok (String.ofList (Text.unifyLineEnds s.toList))
    | .error m => .error (.undecodable m)
  | .archive _ => .error (.undecodable ⟨0x80, 10, 1, .start⟩)
  | .directory => .error (.isDirectory path)

/-- The text of a content, without bytes that encode nothing. -/
def readLenient (path : String) : Content → Except Fault String
  | .bytes b => .ok (String.ofList (Text.unifyLineEnds (Text.decodeLenient b).toList))
  | c => c.read path

end Content

namespace Files

/-- Everything below a directory. -/
def under (files : Files) (directory : String) : List (String × Content) :=
  match Path.normalize directory with
  | "." => files.entries
  | d => files.entries.filter fun (p, _) => Text.startsWith (d ++ "/") p

/-- What stands under a path. -/
def find? (files : Files) (path : String) : Option Content :=
  let p := Path.normalize path
  match files.get? p with
  | some c => some c
  | none => if p = "." || !(files.under p).isEmpty then some .directory else none

/-- Whether there is something under a path. -/
def isPresent (files : Files) (path : String) : Bool := (files.find? path).isSome

/-- Whether a path leads through a file as if it were a directory. -/
def isBlocked (files : Files) (path : String) : Bool :=
  let parts := Path.parts path
  (List.range parts.length).any fun i =>
    0 < i && match files.get? (Text.join "/" (parts.take i)) with
      | some .directory | none => false
      | some _ => true

/-- What there is to say of a path under which there is nothing. -/
def missing (files : Files) (path : String) : Fault :=
  if files.isBlocked path then .notDirectory path else .noSuchFile path

/-- The content at a path. -/
def content (files : Files) (path : String) : Except Fault Content :=
  match files.find? path with
  | some c => .ok c
  | none => .error (files.missing path)

/-- The text at a path. -/
def read (files : Files) (path : String) : Except Fault String := do
  (← files.content path).read path

/-- The text at a path, without bytes that encode nothing. -/
def readLenient (files : Files) (path : String) : Except Fault String := do
  (← files.content path).readLenient path

/-- The paths in a directory that have an ending, in ascending order. -/
def withEnding (files : Files) (directory ending : String) : List String :=
  ((files.under directory).map (·.1)).filter (fun p =>
    Path.parent p == Path.normalize directory && Text.endsWith ending p)
    |>.mergeSort fun a b => decide (a ≤ b)

/-! ## Writing -/

/-- The files with a text at a path; the directory it is in has to be there. -/
def write (files : Files) (path text : String) : Except Fault Files :=
  match files.find? path, files.find? (Path.parent path) with
  | some .directory, _ => .error (.isDirectory path)
  | _, some .directory => .ok (files.insert (Path.normalize path) (.text text))
  | _, _ => .error (files.missing path)

/-- The files with a directory at a path, and with those that it is in. -/
def makeDirectory (files : Files) (path : String) : Except Fault Files :=
  match files.find? path with
  | some .directory => .ok files
  | some _ => .error (.alreadyThere path)
  | none =>
    if files.isBlocked path then .error (.notDirectory path)
    else .ok (files.insert (Path.normalize path) .directory)

end Files

end ControlLogic
