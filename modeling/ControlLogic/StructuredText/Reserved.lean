import ControlLogic.Text.Basic
import ControlLogic.Text.Pattern

/-!
# Reserved words

Some words that programs use as names mean something else in Structured Text.  They are
replaced wherever they stand as whole words, whatever their case, one entry of the table after
the other.
-/

namespace ControlLogic.StructuredText

/-- The reserved words with their replacements. -/
def reservedWords : List (String × String) := [
  ("ON", "ON1"),
  ("type", "TYPE1"),
  ("EN", "EN1"),
  ("SCALE", "scl1"),
  ("alm", "alarm1"),
  ("Alarm", "alert"),
  ("ALARM", "alert"),
  ("TON", "TON1"),
  ("R_TRIG", "R_TRIG1"),
  ("TO", "TO1"),
  ("SHUTODWN1", "SHUTDOWN1"),
  ("SHUTODWN2", "SHUTDOWN2"),
  ("SHUTODWN3", "SHUTDOWN3"),
  ("SHUTODWN4", "SHUTDOWN4"),
  ("SHUTODWN5", "SHUTDOWN5"),
  ("SHUTDOWN", "Shutdown"),
  ("status", "Status"),
  ("STATUS", "Status"),
  ("HTY", "Hty"),
  ("AVL", "Avl")]

/-- Applies `f` to every maximal run of word characters. -/
def mapWords (f : List Char → List Char) (line : List Char) : List Char :=
  Text.Chars.mapRuns Text.isWordChar f line

/-- Puts `new` in place of the word `old`, case aside. -/
def renameWord (old new line : String) : String :=
  (Text.Pattern.wholeWord old).substitute (fun _ => new) line

/-- The line with every reserved word replaced. -/
def replaceReserved (line : String) : String :=
  reservedWords.foldl (fun l e => renameWord e.1 e.2 l) line

/-- The digit that a truth value is written as. -/
def booleanDigit (w : List Char) : List Char :=
  if w = "TRUE".toList ∨ w = "true".toList then ['1']
  else if w = "FALSE".toList ∨ w = "false".toList then ['0']
  else w

/-- The line with truth values written as digits. -/
def replaceBooleans (line : String) : String :=
  String.ofList (mapWords booleanDigit line.toList)

end ControlLogic.StructuredText
