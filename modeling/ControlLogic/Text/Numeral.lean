import ControlLogic.Text.Blank
import ControlLogic.Text.Word
import ControlLogic.Text.Case

/-!
# Numerals

Reading whole and real numbers.  Blanks around a numeral are skipped, a sign may stand in
front, digits of any script count, and a single underscore may stand between two digits.
-/

namespace ControlLogic.Text

/-- The most digits that a decimal numeral may have. -/
def maxNumeralDigits : Nat := 4300

/-- The value of a digit in a base up to thirty-six. -/
def digitValue? (c : Char) : Option Nat :=
  match decimalValue? c with
  | some d => some d
  | none =>
    if 'a' ≤ c && c ≤ 'z' then some (c.toNat - 87)
    else if 'A' ≤ c && c ≤ 'Z' then some (c.toNat - 55)
    else none

/-- Reads digits below `base`, with single underscores between them; `value` is what has
been read, and `wanted` holds where a digit must follow. -/
def readDigits (base : Nat) : (value : Nat) → (wanted : Bool) → List Char → Option Nat
  | value, wanted, [] => if wanted then none else some value
  | value, wanted, c :: rest =>
    if c == '_' then
      if wanted then none else readDigits base value true rest
    else
      match digitValue? c with
      | some d => if d < base then readDigits base (value * base + d) false rest else none
      | none => none

/-- The sign in front of a numeral, and what follows it. -/
def readSign : List Char → Bool × List Char
  | '-' :: rest => (true, rest)
  | '+' :: rest => (false, rest)
  | s => (false, s)

/-- Reads a decimal integer. -/
def readInt? (s : String) : Option Int :=
  let (neg, digits) := readSign (Chars.trim isBlank s.toList)
  if maxNumeralDigits < (digits.filter (· != '_')).length then none
  else (readDigits 10 0 true digits).map fun n => if neg then -(n : Int) else (n : Int)

/-- Reads a hexadecimal integer, with or without a leading `0x`. -/
def readHex? (s : String) : Option Int :=
  let (neg, digits) := readSign (Chars.trim isBlank s.toList)
  let value :=
    match digits with
    | '0' :: x :: rest =>
      if x == 'x' || x == 'X' then
        match rest with
        | '_' :: more => readDigits 16 0 true more
        | _ => readDigits 16 0 true rest
      else readDigits 16 0 true digits
    | _ => readDigits 16 0 true digits
  value.map fun n => if neg then -(n : Int) else (n : Int)

/-- A real numeral: a number in decimal notation, or a word for what is none. -/
inductive Real where
  | finite (neg : Bool) (digits : Nat) (exponent : Int)
  | infinite (neg : Bool)
  | notANumber

/-- Drops the underscores that stand singly between two digits, and fails on any other. -/
def dropUnderscores (before : Option Char) : List Char → Option (List Char)
  | [] => if before == some '_' then none else some []
  | '_' :: rest =>
    if before.any isDecimal && (rest.head?.any isDecimal) then dropUnderscores (some '_') rest
    else none
  | c :: rest => (dropUnderscores (some c) rest).map (c :: ·)

/-- The value of a list of decimal digits. -/
def decimalNat (s : List Char) : Nat :=
  s.foldl (fun n c => n * 10 + (decimalValue? c).getD 0) 0

/-- Reads the exponent after the mantissa, if there is one. -/
def readExponent : List Char → Option Int
  | [] => some 0
  | e :: rest =>
    if e == 'e' || e == 'E' then
      let (neg, digits) := readSign rest
      if digits.isEmpty || !digits.all isDecimal then none
      else some (if neg then -(decimalNat digits : Int) else (decimalNat digits : Int))
    else none

/-- Reads a real numeral. -/
def readReal? (s : String) : Option Real :=
  let trimmed := Chars.trim isBlank s.toList
  let (neg, body) := readSign trimmed
  let name := String.ofList (body.map fold)
  if body.all (·.toNat < 128) && (name == "inf" || name == "infinity") then some (.infinite neg)
  else if body.all (·.toNat < 128) && name == "nan" then some .notANumber
  else do
    let body ← dropUnderscores none body
    let whole := body.takeWhile isDecimal
    let rest := body.dropWhile isDecimal
    let (fraction, rest) :=
      match rest with
      | '.' :: more => (more.takeWhile isDecimal, more.dropWhile isDecimal)
      | _ => ([], rest)
    if whole.isEmpty && fraction.isEmpty then none
    else
      let exponent ← readExponent rest
      some (.finite neg (decimalNat (whole ++ fraction)) (exponent - fraction.length))

/-- Whether `s` is a real numeral. -/
def isNumeral (s : String) : Bool :=
  (readReal? s).isSome

/-- The nearest floating point number. -/
def Real.toFloat : Real → Float
  | .finite neg digits exponent =>
    -- Far outside the range of exponents the digits no longer matter.
    let exponent := if exponent < -100000 then -100000 else if 100000 < exponent then 100000 else exponent
    let magnitude := Float.ofScientific digits (exponent < 0) exponent.natAbs
    if neg then -magnitude else magnitude
  | .infinite neg => if neg then -(1.0 / 0.0) else 1.0 / 0.0
  | .notANumber => 0.0 / 0.0

end ControlLogic.Text
