import ControlLogic.Text.Blank
import ControlLogic.Text.Basic

/-!
# Rungs

A rung is a series of stages; a stage is a list of parallel branches; a branch is a sequence
of instruction calls.  In the written form a stage with several branches stands in square
brackets with commas between the branches, and every call has its operands in parentheses.

Reading goes in two steps.  `markStages` replaces the brackets and commas that delimit stages
and branches, and leaves those inside operand lists alone; `readStages` then cuts the marked
text.
-/

namespace ControlLogic.Ladder

/-- An instruction with its operands. -/
structure Call where
  name : String
  operands : List String
  deriving DecidableEq

/-- A sequence of calls. -/
abbrev Branch := List Call

/-- Parallel branches. -/
abbrev Stage := List Branch

/-- The names of the instructions that test and do not act. -/
def contactNames : List String := ["EQU", "NEQ", "XIC", "XIO", "GRT", "GEQ", "LES", "LEQ"]

/-- Whether a call only tests. -/
def Call.isContact (c : Call) : Bool := contactNames.contains c.name

/-! ## Marking stages -/

/-- The mark for a delimiter outside the operand lists, before the last of them. -/
def markDelimiter (c : Char) : Char :=
  if c = ',' then ';' else if c = '[' then '<' else if c = ']' then '>' else c

/-- The mark for a closing bracket after the last operand list. -/
def markClosing (c : Char) : Char :=
  if c = ']' then '>' else c

/-- Marks the delimiters of a text without spaces; `inside` holds within an operand list.  An
operand list goes from an opening parenthesis to the next closing one. -/
def markFrom (inside : Bool) : List Char → List Char
  | [] => []
  | c :: rest =>
    if inside then c :: markFrom (c ≠ ')') rest
    else if c = '(' then c :: markFrom true rest
    else (if rest.contains '(' then markDelimiter c else markClosing c) :: markFrom false rest

/-- The text without spaces and with its stages and branches marked: `<` and `>` delimit a
stage, and `;` stands between branches.

Behind an opening parenthesis that is never closed everything is left as it is.  Such a text is
no rung: a marking that goes from each operand list to the next, by looking for the parenthesis
that closes it, does not come to an end there. -/
def markStages (text : String) : String :=
  String.ofList (markFrom false (text.toList.filter (· ≠ ' ')))

/-! ## Reading calls -/

/-- The operands of a list, without surrounding blanks and without empty ones. -/
def readOperands (s : List Char) : List String :=
  (((List.splitOn ',' s).map (Text.Chars.trim Text.isBlank)).filter (!·.isEmpty)).map
    String.ofList

/-- Calls from a list of names and operand lists that take turns. -/
def pairCalls : List (List Char) → List Call
  | name :: operands :: rest =>
    ⟨String.ofList (name.filter (· ≠ ',')), readOperands operands⟩ :: pairCalls rest
  | _ => []

/-- Reads a sequence of calls.  Parentheses and blanks separate names from operand lists; a
single name is a call without operands. -/
def readCalls (s : List Char) : Branch :=
  let spaced := (s.filter (· ≠ ' ')).map fun c => if c = '(' ∨ c = ')' then ' ' else c
  match Text.Chars.words Text.isBlank spaced with
  | [name] => [⟨String.ofList (name.filter (· ≠ ',')), []⟩]
  | tokens => pairCalls tokens

/-- Reads the branches of a stage. -/
def readBranches (s : List Char) : Stage :=
  ((List.splitOn ';' s).map readCalls).filter (!·.isEmpty)

/-- Reads the stages of a marked text. -/
def readStages (marked : String) : List Stage :=
  let spaced := (marked.toList.filter (· ≠ ' ')).map fun c => if c = '<' ∨ c = '>' then ' ' else c
  ((List.splitOn ' ' spaced).map readBranches).filter (!·.isEmpty)

/-- Reads a rung. -/
def readRung (text : String) : List Stage :=
  readStages (markStages text)

end ControlLogic.Ladder
