import ControlLogic.Text.Pattern

/-!
# Search expressions

A search expression is a text that stands for a pattern: most characters stand for themselves,
a point for any character of a line, brackets for a set of characters, `^` and `$` for the ends,
`*`, `+` and `?` for repetition, `|` for a choice, parentheses for grouping, and a backslash for
a class or for a character as it is.  `read?` gives the pattern, or nothing if the expression
has no meaning.
-/

namespace ControlLogic.Text.Expression

/-- One character, exactly or case aside. -/
def isSame (exact : Bool) (x c : Char) : Bool := if exact then x == c else sameLetter x c

/-- Whether `c` is between two characters, exactly or case aside. -/
def isBetween (exact : Bool) (first last c : Char) : Bool :=
  if exact then first ≤ c && c ≤ last
  else (List.range (last.toNat - first.toNat + 1)).any fun k =>
    sameLetter (Char.ofNat (first.toNat + k)) c

/-- The class that a backslash and a character stand for. -/
def escaped? (exact : Bool) (c : Char) : Option (Char → Bool) :=
  match c with
  | 'd' => some isDecimal
  | 'D' => some (!isDecimal ·)
  | 'w' => some isWordChar
  | 'W' => some (!isWordChar ·)
  | 's' => some isBlank
  | 'S' => some (!isBlank ·)
  | 'n' => some (· == '\n')
  | 't' => some (· == '\t')
  | 'r' => some (· == '\r')
  | _ => if isLetter c || isAsciiDigit c then none else some (isSame exact c)

/-- Reads the rest of a set of characters; at its first place a closing bracket stands for
itself. -/
def readSet? (exact : Bool) (items : List (Char → Bool)) :
    (first : Bool) → List Char → Option ((Char → Bool) × List Char)
  | _, [] => none
  | false, ']' :: rest => some (fun c => items.any (· c), rest)
  | _, '\\' :: x :: rest =>
    match escaped? exact x with
    | some p => readSet? exact (p :: items) false rest
    | none => none
  | _, x :: '-' :: ']' :: rest =>
    some (fun c => isSame exact x c || isSame exact '-' c || items.any (· c), rest)
  | _, x :: '-' :: y :: rest =>
    if x ≤ y then readSet? exact (isBetween exact x y :: items) false rest else none
  | _, x :: rest => readSet? exact (isSame exact x :: items) false rest

/-- What was read last, and whether it may be repeated. -/
inductive Last where
  | nothing
  /-- A place, which cannot be repeated. -/
  | place (p : Pattern)
  /-- A repetition, which cannot be repeated again. -/
  | repeated (p : Pattern)
  | item (p : Pattern)

/-- The pattern of what was read last. -/
def Last.pattern : Last → Pattern
  | nothing => .empty
  | place p | repeated p | item p => p

/-- A repetition: as long as possible, as short as possible, or all or nothing. -/
def repetition (sign : Char) (manner : Option Char) (p : Pattern) : Pattern :=
  let long := match sign with
    | '*' => .star p
    | '+' => .plus p
    | _ => .optional p
  match manner with
  | some '?' => match sign with
    | '*' => .lazy p
    | '+' => .lazyPlus p
    | _ => .alt .empty p
  | some '+' => .atomic long
  | _ => long

/-- How a repetition is to be made, from the character after its sign. -/
def manner? : List Char → Option Char × List Char
  | '?' :: rest => (some '?', rest)
  | '+' :: rest => (some '+', rest)
  | rest => (none, rest)

mutual

/-- Reads alternatives, up to a closing parenthesis or the end. -/
def readChoice? (exact : Bool) : Nat → List Char → Option (Pattern × List Char)
  | 0, _ => none
  | fuel + 1, s =>
    match readSequence? exact fuel .empty .nothing s with
    | some (p, '|' :: rest) => (readChoice? exact fuel rest).map fun (q, rest) => (.alt p q, rest)
    | r => r

/-- Reads a sequence after the pattern `before` and the item `last`. -/
def readSequence? (exact : Bool) : Nat → Pattern → Last → List Char → Option (Pattern × List Char)
  | 0, _, _, _ => none
  | fuel + 1, before, last, s =>
    let next (l : Last) (rest : List Char) :=
      readSequence? exact fuel (.seq before last.pattern) l rest
    let whole := Pattern.seq before last.pattern
    match s with
    | [] => some (whole, [])
    | '|' :: rest => some (whole, '|' :: rest)
    | ')' :: rest => some (whole, ')' :: rest)
    | '^' :: rest => next (.place .atStart) rest
    | '$' :: rest => next (.place .atEnd) rest
    | '.' :: rest => next (.item .inLine) rest
    | '[' :: '^' :: rest =>
      match readSet? exact [] true rest with
      | some (p, rest) => next (.item (.one (!p ·))) rest
      | none => none
    | '[' :: rest =>
      match readSet? exact [] true rest with
      | some (p, rest) => next (.item (.one p)) rest
      | none => none
    | '(' :: '?' :: ':' :: rest => readGroup? exact fuel before last rest
    | '(' :: '?' :: _ => none
    | '(' :: rest => readGroup? exact fuel before last rest
    | '\\' :: 'b' :: rest => next (.place .edge) rest
    | '\\' :: x :: rest =>
      match escaped? exact x with
      | some p => next (.item (.one p)) rest
      | none => none
    | '\\' :: [] => none
    | x :: rest =>
      if x == '*' || x == '+' || x == '?' then
        match last with
        | .item p =>
          let (manner, rest) := manner? rest
          readSequence? exact fuel before (.repeated (repetition x manner p)) rest
        | _ => none
      else next (.item (.one (isSame exact x))) rest

/-- Reads a group, and goes on with the sequence after it. -/
def readGroup? (exact : Bool) : Nat → Pattern → Last → List Char → Option (Pattern × List Char)
  | 0, _, _, _ => none
  | fuel + 1, before, last, s =>
    match readChoice? exact fuel s with
    | some (p, ')' :: rest) =>
      readSequence? exact fuel (.seq before last.pattern) (.item p) rest
    | _ => none

end

/-- The pattern of an expression, exactly or case aside. -/
def read? (exact : Bool) (s : String) : Option Pattern :=
  match readChoice? exact (3 * s.toList.length + 3) s.toList with
  | some (p, []) => some p
  | _ => none

end ControlLogic.Text.Expression
