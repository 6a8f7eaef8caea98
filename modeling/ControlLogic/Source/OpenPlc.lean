import ControlLogic.Files
import ControlLogic.Project.Basic
import ControlLogic.Text.Pattern

/-!
# Plain programs in Structured Text

A file holds variable blocks, programs and functions.  Every declaration of a block becomes a
tag of the controller, and every program and function a routine.  A file without programs and
functions has one routine with what stands outside its variable blocks.
-/

namespace ControlLogic.Source.OpenPlc

open Text Project

/-! ## Variables -/

/-- A declared variable with the kind of its block. -/
structure Variable where
  name : String
  dataType : String
  initialValue : Option String
  block : String

/-- The kinds of blocks, in the order in which they are looked for. -/
def blockKinds : List String := ["VAR", "VAR_INPUT", "VAR_OUTPUT", "VAR_IN_OUT", "VAR_GLOBAL"]

/-- The kind of block that a text names. -/
def blockKindIn (s : String) : String :=
  (["VAR_INPUT", "VAR_OUTPUT", "VAR_IN_OUT", "VAR_GLOBAL"].find? (contains · s)).getD "VAR"

/-- A block of a kind.  Nothing in it before its end has the letter that the end begins
with. -/
def block (kind : String) : Pattern :=
  .all [.keyword kind, .blanks,
    .group 1 (.seq (.lazy (.exceptLetters "E")) (.keyword "END_VAR"))]

/-- The size of an array. -/
def arraySize : Pattern :=
  .anyOf [
    .all [.blanks, .text "[", .blanks, .decimals, .blanks, .text "]"],
    .all [.blanks, .text "[", .blanks, .decimals, .blanks, .text "..", .blanks, .decimals, .blanks,
      .text "]"]]

/-- A declaration: a name, maybe an address, a type, and maybe an initial value. -/
def declaration : Pattern :=
  .all [.group 1 .word, .optional (.all [.gap, .text "AT", .gap, .plus (.except ":")]),
    .blanks, .text ":", .blanks, .group 2 (.seq .word (.optional arraySize)), .blanks,
    .optional (.all [.text ":", .optional (.text "="), .blanks, .group 3 (.plus (.except ";"))])]

/-- The declarations of a block. -/
def readBlock (body kind : String) : List Variable :=
  (((split ';' body).map strip).filter (· ≠ "")).filterMap fun d =>
    (declaration.matchStart? d).map fun m =>
      ⟨strip (m.group 1), strip (m.group 2), (m.group? 3).map strip, kind⟩

/-- Any stretch from the beginning of a block to its end. -/
def looseBlock : Pattern := .all [.keyword "VAR", .lazy .any, .keyword "END_VAR"]

/-- What stands inside such a stretch. -/
def looseBody : Pattern :=
  .all [.keyword "VAR", .blanks, .group 1 (.lazy .any), .blanks, .keyword "END_VAR"]

/-- The variables of a file.  Only if no block of a known kind gives one, any stretch that
looks like a block is taken. -/
def readVariables (source : String) : List Variable :=
  let found := blockKinds.flatMap fun kind =>
    ((block kind).findAll source).flatMap fun m => readBlock (strip (m.group 1)) kind
  if found.isEmpty then
    (looseBlock.findAll source).flatMap fun b =>
      match looseBody.find? (String.ofList b.text) with
      | some m => readBlock (strip (m.group 1)) "VAR"
      | none => []
  else found

/-! ## Routines -/

/-- A program or a function. -/
structure Unit where
  name : String
  content : String
  returnType : Option String

/-- A program.  No letter of its closing keyword stands in its body. -/
def programBlock : Pattern :=
  .all [.keyword "PROGRAM", .gap, .group 1 .word, .blanks,
    .group 2 (.lazy (.exceptLetters "END_PROGRAM")), .keyword "END_PROGRAM"]

/-- A function.  No letter of its closing keyword stands in its body. -/
def functionBlock : Pattern :=
  .all [.keyword "FUNCTION", .gap, .group 1 .word, .blanks, .text ":", .blanks, .group 2 .word,
    .blanks, .group 3 (.lazy (.exceptLetters "END_FUNCTION")), .keyword "END_FUNCTION"]

/-- A block of a kind without a letter of its closing keyword in its body. -/
def strictBlock (kind : String) : Pattern :=
  .all [.keyword kind, .blanks, .lazy (.exceptLetters "END_VAR"), .keyword "END_VAR"]

/-- What is taken out of a file to leave its statements. -/
def removedBlocks : List Pattern :=
  ["VAR", "VAR_INPUT", "VAR_OUTPUT", "VAR_GLOBAL"].map strictBlock ++ [programBlock, functionBlock]

/-- The statements outside the blocks of a file. -/
def looseStatements (source : String) : String :=
  strip (removedBlocks.foldl (fun s p => p.substitute (fun _ => "") s) source)

/-- The programs and functions of a file, or all its statements as one. -/
def readUnits (source : String) : List Unit :=
  let programs := (programBlock.findAll source).map fun m =>
    ⟨m.group 1, strip (m.group 2), none⟩
  let functions := (functionBlock.findAll source).map fun m =>
    ⟨m.group 1, strip (m.group 3), some (m.group 2)⟩
  match programs ++ functions with
  | [] =>
    let rest := looseStatements source
    if rest = "" then [] else [⟨"Main", rest, none⟩]
  | units => units

/-! ## The project -/

/-- The types that are taken over. -/
def knownTypes : List String :=
  ["BOOL", "INT", "REAL", "STRING", "TIME", "DINT", "SINT", "LINT", "UINT", "UDINT", "USINT",
    "ULINT", "LREAL", "WORD", "DWORD", "LWORD", "BYTE", "CHAR"]

/-- The type of a tag: a known type, in capitals, or the type of an array's elements; any
other counts as text. -/
def tagType (type : String) : String :=
  let element := strip ((split '[' type).headD "")
  if contains "[" type && knownTypes.contains element then element
  else if knownTypes.contains (upper type) then upper type
  else "STRING"

/-- The scope of the variables of a block. -/
def scopeOf (block : String) : Scope :=
  if block = "VAR_GLOBAL" then .controller else .program

/-- The tag of a variable. -/
def Variable.tag (v : Variable) : Tag where
  name := v.name
  dataType := tagType v.dataType
  scope := scopeOf v.block
  description := some ("OpenPLC variable: " ++ v.name)
  initialValue := v.initialValue

/-- The project of a source with the name of its file. -/
def project (name source : String) : Project where
  controller := {
    name
    tags := (readVariables source).map Variable.tag
    sourceType := some "openplc" }
  programs := [{
    name
    routines := (readUnits source).map fun u =>
      { name := u.name, language := .st, content := some u.content }
    sourceType := some "openplc" }]
  sourceType := some "openplc"

/-- Reads the file at a path. -/
def load (files : Files) (path : String) : Except Fault Project := do
  return project (Path.stem path) (← files.read path)

end ControlLogic.Source.OpenPlc
