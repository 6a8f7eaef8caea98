import ControlLogic.Text.Quoted
import ControlLogic.Text.Utf8

/-!
# Faults

The causes for which an operation gives no result.  `Fault.message` is the wording.
-/

namespace ControlLogic

/-- Why an operation gave no result. -/
inductive Fault where
  /-- A replacement text with a reference that means nothing. -/
  | badTemplate
  /-- A value of a kind that the operation does not take. -/
  | wrongKind
  /-- A value without the parts that the operation asks for. -/
  | noAttribute
  /-- A key that is not present, by its literal. -/
  | missingKey (literal : String)
  /-- A position outside a list. -/
  | indexOutOfRange
  /-- A value that cannot be gone through, by the name of its kind. -/
  | notIterable (kind : String)
  /-- A stretch of positions that does not move. -/
  | zeroStep
  /-- A remainder by zero. -/
  | zeroModulus
  /-- A file that is not there. -/
  | noSuchFile (path : String)
  /-- A program file that is not there. -/
  | fileNotFound (path : String)
  /-- An overlay that is not there. -/
  | overlayNotFound (path : String)
  /-- A file that is no archive. -/
  | notArchive
  /-- A directory in place of a file. -/
  | isDirectory (path : String)
  /-- A file in place of a directory. -/
  | notDirectory (path : String)
  /-- A file where a directory is to be made. -/
  | alreadyThere (path : String)
  /-- Bytes that are not the encoding of a text. -/
  | undecodable (misfit : Text.Misfit)
  /-- A text that is no markup document. -/
  | badMarkup
  /-- A document of another kind. -/
  | notExchange
  /-- A value that is not there, by what was asked of it. -/
  | absent (request : String)
  /-- A name that cannot be searched for. -/
  | badName
  /-- A tag without its data. -/
  | noData (tag : String)
  /-- A text that is no numeral. -/
  | badNumeral
  /-- A text that is no report, with the place where it ceases to be one. -/
  | badReport (reason : String) (line column place : Nat)
  /-- A search expression that means nothing. -/
  | badExpression
  /-- A name of no scope. -/
  | badScope (name : String)
  deriving DecidableEq

namespace Fault

/-- The wording of a fault. -/
def message : Fault → String
  | badTemplate => "invalid group reference"
  | wrongKind => "unexpected kind of value"
  | noAttribute => "missing attribute"
  | missingKey literal => literal
  | indexOutOfRange => "list index out of range"
  | notIterable kind => "Argument needs to be an iterable, got <class '" ++ kind ++ "'>"
  | zeroStep => "slice step cannot be zero"
  | zeroModulus => "integer modulo by zero"
  | noSuchFile path => "[Errno 2] No such file or directory: " ++ Text.quote path
  | fileNotFound path => "File not found: " ++ path
  | overlayNotFound path => "L5K file not found: " ++ path
  | notArchive => "File is not a zip file"
  | isDirectory path => "[Errno 21] Is a directory: " ++ Text.quote path
  | notDirectory path => "[Errno 20] Not a directory: " ++ Text.quote path
  | alreadyThere path => "[Errno 17] File exists: " ++ Text.quote path
  | undecodable m =>
    "'utf-8' codec can't decode " ++
      (if m.size = 1 then
        "byte 0x" ++ String.ofList (Text.hexDigits 2 m.byte) ++ " in position " ++ toString m.place
      else "bytes in position " ++ toString m.place ++ "-" ++ toString (m.place + m.size - 1)) ++
      ": " ++ m.flaw.wording
  | badMarkup => "XML parsing error"
  | notExchange => "Not an L5X file."
  | absent request => "'NoneType' object has no attribute " ++ Text.quote request
  | badName => "invalid predicate"
  | noData tag => "Decoded data content not found for " ++ tag ++
      " tag. Ensure Encode Source Protected Content option is disabled when saving L5X."
  | badNumeral => "invalid literal"
  | badReport reason line column place =>
    reason ++ ": line " ++ toString line ++ " column " ++ toString column ++ " (char " ++
      toString place ++ ")"
  | badExpression => "invalid expression"
  | badScope name => Text.quote name ++ " is not a valid TagScope"

end Fault

end ControlLogic
