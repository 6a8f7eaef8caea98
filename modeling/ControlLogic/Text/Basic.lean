import ControlLogic.Text.Chars

/-!
# Texts

The functions on lists of characters, said of strings.  Lengths and positions count
characters.
-/

namespace ControlLogic.Text

/-- The pieces between the occurrences of the character `c`. -/
def split (c : Char) (s : String) : List String :=
  (s.toList.splitOn c).map String.ofList

/-- The pieces between the occurrences of the text `sep`. -/
def splitOn (sep s : String) : List String :=
  (Chars.splitOn sep.toList s.toList).map String.ofList

/-- The pieces with `sep` between them. -/
def join (sep : String) (pieces : List String) : String :=
  String.ofList (Chars.join sep.toList (pieces.map String.toList))

/-- Puts `new` in place of every occurrence of `old`. -/
def replace (old new s : String) : String :=
  String.ofList (Chars.replace old.toList new.toList s.toList)

/-- Puts `new` in place of the first occurrence of `old`. -/
def replaceFirst (old new s : String) : String :=
  String.ofList (Chars.replaceFirst old.toList new.toList s.toList)

/-- Whether `t` occurs in `s`. -/
def contains (t s : String) : Bool :=
  Chars.contains t.toList s.toList

/-- Whether `s` begins with `t`. -/
def startsWith (t s : String) : Bool :=
  t.toList.isPrefixOf s.toList

/-- Whether `s` ends with `t`. -/
def endsWith (t s : String) : Bool :=
  t.toList.isSuffixOf s.toList

/-- The text without the characters of the class `p` at either end. -/
def trim (p : Char → Bool) (s : String) : String :=
  String.ofList (Chars.trim p s.toList)

/-- The text without the trailing characters of the class `p`. -/
def trimRight (p : Char → Bool) (s : String) : String :=
  String.ofList (Chars.trimRight p s.toList)

/-- The first `n` characters. -/
def take (n : Nat) (s : String) : String :=
  String.ofList (s.toList.take n)

/-- All but the first `n` characters. -/
def drop (n : Nat) (s : String) : String :=
  String.ofList (s.toList.drop n)

/-- All but the last `n` characters. -/
def dropLast (n : Nat) (s : String) : String :=
  String.ofList (s.toList.take (s.toList.length - n))

/-- The last `n` characters. -/
def takeLast (n : Nat) (s : String) : String :=
  String.ofList (s.toList.drop (s.toList.length - n))

/-- The text between a first and a last character, when both are `c`. -/
def unquote (c : Char) (s : String) : Option String :=
  match s.toList with
  | first :: rest => if first = c ∧ (first :: rest).getLast? = some c then
      some (String.ofList rest.dropLast) else none
  | [] => none

/-- Whether `s` is the empty text. -/
def isEmpty (s : String) : Bool :=
  s.toList.isEmpty

/-- The number of characters. -/
def length (s : String) : Nat :=
  s.toList.length

end ControlLogic.Text
