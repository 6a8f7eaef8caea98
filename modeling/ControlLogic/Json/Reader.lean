import ControlLogic.Fault
import ControlLogic.Json.Basic
import ControlLogic.Text.Numeral

/-!
# Except Stuck (Json × List Char)

A reader that keeps the fields of a record in the order of the text.  A field that comes
twice keeps its first place and its last value.

A reading that fails says why, and what was still to be read at the place of the failure.  The
reader of values is handed a bound on the depth of the work to do; `parse` computes it from
the length of the text, and every step passes at least one character.
-/

namespace ControlLogic.Json

/-- Whether `c` may stand between tokens. -/
def isSpace (c : Char) : Bool := c == ' ' || c == '\t' || c == '\n' || c == '\r'

/-- A failure of reading: the reason, and the text from its place on. -/
structure Stuck where
  reason : String
  rest : List Char

/-! ## Texts -/

/-- The value of a hexadecimal digit. -/
def hexValue? (c : Char) : Option Nat := do
  let d ← Text.digitValue? c
  if c.toNat < 128 && d < 16 then some d else none

/-- The number of four hexadecimal digits. -/
def unit? (a b c d : Char) : Option Nat := do
  let a ← hexValue? a
  let b ← hexValue? b
  let c ← hexValue? c
  let d ← hexValue? d
  some (((a * 16 + b) * 16 + c) * 16 + d)

/-- The characters of sixteen bit numbers and characters; the two halves of a character are put
together, and a half alone stands for no character. -/
def joinUnits : List Nat → List Char
  | [] => []
  | high :: low :: rest =>
    if 55296 ≤ high && high < 56320 && 56320 ≤ low && low < 57344 then
      Char.ofNat (65536 + (high - 55296) * 1024 + (low - 56320)) :: joinUnits rest
    else if 55296 ≤ high && high < 57344 then Char.ofNat 65533 :: joinUnits (low :: rest)
    else Char.ofNat high :: joinUnits (low :: rest)
  | [n] => [if 55296 ≤ n && n < 57344 then Char.ofNat 65533 else Char.ofNat n]

/-- The character that a backslash and a letter stand for. -/
def escaped? : Char → Option Nat
  | '"' => some 34
  | '\\' => some 92
  | '/' => some 47
  | 'n' => some 10
  | 't' => some 9
  | 'r' => some 13
  | 'b' => some 8
  | 'f' => some 12
  | _ => none

/-- Reads the rest of a text whose opening quote begins `start`; `done` holds what has been
read, backwards. -/
def readText (start : List Char) (done : List Nat) : List Char → Except Stuck (String × List Char)
  | [] => .error ⟨"Unterminated string starting at", start⟩
  | c :: tail =>
    if c = '"' then .ok (String.ofList (joinUnits done.reverse), tail)
    else if c = '\\' then
      match tail with
      | [] => .error ⟨"Unterminated string starting at", start⟩
      | 'u' :: digits =>
        match digits with
        | a :: b :: c :: d :: e :: rest =>
          match unit? a b c d with
          | some n => readText start (n :: done) (e :: rest)
          | none => .error ⟨"Invalid \\uXXXX escape", 'u' :: digits⟩
        | _ => .error ⟨"Invalid \\uXXXX escape", 'u' :: digits⟩
      | e :: rest =>
        match escaped? e with
        | some n => readText start (n :: done) rest
        | none => .error ⟨"Invalid \\escape", '\\' :: e :: rest⟩
    else if c.toNat < 32 then .error ⟨"Invalid control character at", c :: tail⟩
    else readText start (c.toNat :: done) tail

/-! ## Numbers and words -/

/-- The part of a number after its point, with the point, if digits follow it. -/
def fractionPart : List Char → List Char
  | '.' :: rest =>
    match rest.takeWhile Text.isAsciiDigit with
    | [] => []
    | digits => '.' :: digits
  | _ => []

/-- The exponent of a number, if digits follow its letter and sign. -/
def exponentPart : List Char → List Char
  | e :: rest =>
    if e == 'e' || e == 'E' then
      let sign := match rest with
        | '+' :: _ => ['+']
        | '-' :: _ => ['-']
        | _ => []
      match (rest.drop sign.length).takeWhile Text.isAsciiDigit with
      | [] => []
      | digits => e :: sign ++ digits
    else []
  | [] => []

/-- The whole part of a number: a zero, or digits of which the first is none. -/
def wholePart : List Char → List Char
  | '0' :: _ => ['0']
  | rest => rest.takeWhile Text.isAsciiDigit

/-- Reads a number. -/
def readNumber (s : List Char) : Except Stuck (Json × List Char) :=
  let sign := if s.head? == some '-' then ['-'] else []
  let body := s.drop sign.length
  let whole := wholePart body
  if whole.isEmpty then .error ⟨"Expecting value", s⟩
  else
    let body := body.drop whole.length
    let fraction := fractionPart body
    let body := body.drop fraction.length
    let exponent := exponentPart body
    let rest := body.drop exponent.length
    let numeral := String.ofList (sign ++ whole ++ fraction ++ exponent)
    if fraction.isEmpty && exponent.isEmpty then
      .ok (int ((Text.readInt? numeral).getD 0), rest)
    else .ok (real (((Text.readReal? numeral).map (·.toFloat)).getD 0), rest)

/-- The words that stand for values. -/
def wordValues : List (String × Json) :=
  [("null", null), ("true", bool true), ("false", bool false), ("NaN", real (0.0 / 0.0)),
    ("Infinity", real (1.0 / 0.0)), ("-Infinity", real (-1.0 / 0.0))]

/-- Reads a word or a number. -/
def readPlain (s : List Char) : Except Stuck (Json × List Char) :=
  match wordValues.find? fun (w, _) => w.toList.isPrefixOf s with
  | some (w, j) => .ok (j, s.drop w.toList.length)
  | none => readNumber s

/-! ## Values -/

mutual

/-- Reads a value. -/
def readValue : Nat → List Char → Except Stuck (Json × List Char)
  | 0, s => .error ⟨"Expecting value", s⟩
  | fuel + 1, s =>
    match s with
    | [] => .error ⟨"Expecting value", []⟩
    | '"' :: rest => do
      let (t, rest) ← readText ('"' :: rest) [] rest
      return (text t, rest)
    | '[' :: rest =>
      match rest.dropWhile isSpace with
      | ']' :: after => .ok (list [], after)
      | items => do
        let (l, rest) ← readItems fuel items
        return (list l, rest)
    | '\x7b' :: rest =>
      match rest.dropWhile isSpace with
      | '\x7d' :: after => .ok (record [], after)
      | fields => do
        let (l, rest) ← readFields fuel fields
        return (record (Table.ofList l).entries, rest)
    | s => readPlain s

/-- Reads the items of a list up to its closing bracket. -/
def readItems : Nat → List Char → Except Stuck (List Json × List Char)
  | 0, s => .error ⟨"Expecting value", s⟩
  | fuel + 1, s => do
    let (j, rest) ← readValue fuel s
    match rest.dropWhile isSpace with
    | ',' :: more => do
      let (l, rest) ← readItems fuel (more.dropWhile isSpace)
      return (j :: l, rest)
    | ']' :: more => return ([j], more)
    | rest => .error ⟨"Expecting ',' delimiter", rest⟩

/-- Reads the fields of a record up to its closing bracket. -/
def readFields : Nat → List Char → Except Stuck (List (String × Json) × List Char)
  | 0, s => .error ⟨"Expecting value", s⟩
  | fuel + 1, s =>
    match s with
    | '"' :: rest => do
      let (k, rest) ← readText ('"' :: rest) [] rest
      match rest.dropWhile isSpace with
      | ':' :: rest => do
        let (v, rest) ← readValue fuel (rest.dropWhile isSpace)
        match rest.dropWhile isSpace with
        | ',' :: more => do
          let (l, rest) ← readFields fuel (more.dropWhile isSpace)
          return ((k, v) :: l, rest)
        | '\x7d' :: more => return ([(k, v)], more)
        | rest => .error ⟨"Expecting ',' delimiter", rest⟩
      | rest => .error ⟨"Expecting ':' delimiter", rest⟩
    | s => .error ⟨"Expecting property name enclosed in double quotes", s⟩

end

/-- Reads a text that holds one value and nothing else. -/
def readAll (s : List Char) : Except Stuck Json :=
  match readValue (s.length + 1) (s.dropWhile isSpace) with
  | .ok (j, rest) =>
    match rest.dropWhile isSpace with
    | [] => .ok j
    | rest => .error ⟨"Extra data", rest⟩
  | .error stuck => .error stuck

/-- The fault of a failure in a text: its place is counted in characters, and in lines and
columns. -/
def Stuck.fault (s : List Char) (stuck : Stuck) : Fault :=
  let place := s.length - stuck.rest.length
  let passed := s.take place
  .badReport stuck.reason (passed.count '\n' + 1) ((passed.reverse.takeWhile (· != '\n')).length + 1)
    place

/-- Reads a text that holds one value and nothing else. -/
def parse (s : String) : Except Fault Json :=
  (readAll s.toList).mapError (Stuck.fault s.toList)

/-- Reads a text that holds one value and nothing else. -/
def parse? (s : String) : Option Json := (parse s).toOption

end ControlLogic.Json
