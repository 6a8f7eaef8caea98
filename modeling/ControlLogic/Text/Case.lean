import ControlLogic.Text.Ranges
import ControlLogic.Text.CaseTable

/-!
# Upper and lower case

`upper` and `lower` change every letter of a text; a letter may become several.  The Greek
capital sigma has two lower case forms, the second for the end of a word.

`fold` gives one lower case character per character, and `sameLetter` compares two
characters without regard to case.
-/

namespace ControlLogic.Text

/-- The image of `n` under the first run that holds it. -/
def applyRuns (n : Nat) : List CaseRun → Option Nat
  | [] => none
  | r :: rest =>
    if r.first ≤ n && n ≤ r.last && (n - r.first) % r.step == 0 then
      some ((n : Int) + r.shift).toNat
    else applyRuns n rest

/-- The lower case form of one character, its place in a word left aside. -/
def lowerChar (c : Char) : List Char :=
  let n := c.toNat
  if n < 128 then
    if 'A' ≤ c && c ≤ 'Z' then [Char.ofNat (n + 32)] else [c]
  else match lowerSpecial.find? (·.1 == n) with
    | some (_, form) => form.map Char.ofNat
    | none => match applyRuns n lowerRuns with
      | some m => [Char.ofNat m]
      | none => [c]

/-- The upper case form of one character. -/
def upperChar (c : Char) : List Char :=
  let n := c.toNat
  if n < 128 then
    if 'a' ≤ c && c ≤ 'z' then [Char.ofNat (n - 32)] else [c]
  else match upperSpecial.find? (·.1 == n) with
    | some (_, form) => form.map Char.ofNat
    | none => match applyRuns n upperRuns with
      | some m => [Char.ofNat m]
      | none => [c]

/-- Whether the first character of `s` that is not skipped inside words has case. -/
def metByCased (s : List Char) : Bool :=
  match s.dropWhile fun c => inRanges c.toNat caseIgnorableRanges with
  | [] => false
  | c :: _ => inRanges c.toNat casedRanges

/-- The lower case form of a text, `before` being the characters already passed, last
first. -/
def lowerFrom (before : List Char) : List Char → List Char
  | [] => []
  | c :: rest =>
    let form :=
      if c.toNat = 931 then
        if metByCased before && !metByCased rest then [Char.ofNat 962] else [Char.ofNat 963]
      else lowerChar c
    form ++ lowerFrom (c :: before) rest

/-- The lower case form of a text. -/
def lower (s : String) : String :=
  String.ofList (lowerFrom [] s.toList)

/-- The upper case form of a text. -/
def upper (s : String) : String :=
  String.ofList (s.toList.flatMap upperChar)

/-- One lower case character for `c`. -/
def fold (c : Char) : Char :=
  (lowerChar c).headD c

/-- Whether `a` and `c` are one letter, case and form aside: the dotless i counts as an i
and the long s as an s. -/
def sameLetter (a c : Char) : Bool :=
  let x := (fold a).toNat
  let y := (fold c).toNat
  x == y || letterForms.any fun forms => forms.contains x && forms.contains y

/-- Whether two texts agree letter by letter, case aside. -/
def sameLetters : List Char → List Char → Bool
  | [], [] => true
  | a :: as, c :: cs => sameLetter a c && sameLetters as cs
  | _, _ => false

end ControlLogic.Text
