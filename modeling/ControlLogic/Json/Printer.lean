import ControlLogic.Json.Basic

/-!
# Writing Json

`render` writes a value on one line, `pretty` with two blanks of indentation per level.
Characters beyond ASCII and control characters are written by their number in four
hexadecimal digits, in two halves beyond the sixteen bit range.
-/

namespace ControlLogic.Json

/-- The escape of a sixteen bit number. -/
def unitEscape (n : Nat) : List Char := ['\\', 'u'] ++ Text.hexDigits 4 n

/-- One character between double quotes. -/
def charText (c : Char) : List Char :=
  if c == '"' then ['\\', '"']
  else if c == '\\' then ['\\', '\\']
  else if c == '\n' then ['\\', 'n']
  else if c == '\r' then ['\\', 'r']
  else if c == '\t' then ['\\', 't']
  else if c.toNat == 8 then ['\\', 'b']
  else if c.toNat == 12 then ['\\', 'f']
  else if 32 ≤ c.toNat && c.toNat < 127 then [c]
  else if c.toNat < 65536 then unitEscape c.toNat
  else
    let n := c.toNat - 65536
    unitEscape (55296 + n / 1024) ++ unitEscape (56320 + n % 1024)

/-- A text between double quotes. -/
def textText (s : String) : List Char :=
  '"' :: s.toList.flatMap charText ++ ['"']

/-- A floating point number; the three that have no numeral are written by name. -/
def realText (x : Float) : List Char :=
  let s := Text.Decimal.shortest x
  (if s == "inf" then "Infinity" else if s == "-inf" then "-Infinity"
    else if s == "nan" then "NaN" else s).toList

/-- Pieces between brackets, each on a line of its own if there is an indentation. -/
def bracket (indent : Option Nat) (left right : Char) : List (List Char) → List Char
  | [] => [left, right]
  | pieces =>
    match indent with
    | none => [left] ++ Text.Chars.join [',', ' '] pieces ++ [right]
    | some n =>
      let inner := '\n' :: List.replicate (n + 2) ' '
      [left] ++ inner ++ Text.Chars.join (',' :: inner) pieces ++
        ('\n' :: List.replicate n ' ') ++ [right]

mutual

/-- The text of a value, at an indentation if there is one. -/
def chars (indent : Option Nat) : Json → List Char
  | null => ['n', 'u', 'l', 'l']
  | bool b => if b then ['t', 'r', 'u', 'e'] else ['f', 'a', 'l', 's', 'e']
  | int n => (toString n).toList
  | real x => realText x
  | text s => textText s
  | list l => bracket indent '[' ']' (charsList (indent.map (· + 2)) l)
  | record l => bracket indent '\x7b' '\x7d' (charsFields (indent.map (· + 2)) l)

/-- The texts of the items of a list. -/
def charsList (indent : Option Nat) : List Json → List (List Char)
  | [] => []
  | j :: rest => chars indent j :: charsList indent rest

/-- The texts of the fields of a record. -/
def charsFields (indent : Option Nat) : List (String × Json) → List (List Char)
  | [] => []
  | (k, v) :: rest => (textText k ++ [':', ' '] ++ chars indent v) :: charsFields indent rest

end

/-- The value on one line. -/
def render (j : Json) : String := String.ofList (chars none j)

/-- The value over several lines. -/
def pretty (j : Json) : String := String.ofList (chars (some 0) j)

end ControlLogic.Json
