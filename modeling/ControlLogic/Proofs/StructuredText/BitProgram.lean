import ControlLogic.Text.Blank
import ControlLogic.Text.Basic

/-!
# Bit programs

The part of Structured Text that bit instructions turn into, with its meaning.  A bit program
assigns `0` and `1` to operands, and guards assignments by `IF`, `ELSE` and `END_IF`.  A
condition compares operands with `0` and `1` and joins such comparisons by `AND` and `OR`;
`AND` binds tighter, and parentheses group.

* `tokens` cuts a text into words and marks.
* `readAny`, `readAll` and `readPart` read a condition, one function for each level of
  precedence, and `readProgram` reads statements.
* `Condition.holds` and `Program.run` give the meaning under a valuation of the operands.
* `execute` reads a text and runs it.  It fails on a text outside the fragment.

Nothing here mentions rungs.
-/

namespace ControlLogic.StructuredText

/-! ## Words and marks -/

/-- A word or a mark of a bit program. -/
inductive Token where
  | name (operand : String)
  | bit (on : Bool)
  | opening
  | closing
  | becomes
  | equals
  | stop
  | ifBegins
  | thenBegins
  | elseBegins
  | ifEnds
  | and
  | or
  /-- A word or a mark outside the fragment. -/
  | foreign
  deriving DecidableEq

/-- The token of a reserved word in capitals.  Those outside the fragment are no names
either. -/
def keyword? (capitals : String) : Option Token :=
  match capitals with
  | "IF" => some .ifBegins
  | "THEN" => some .thenBegins
  | "ELSE" => some .elseBegins
  | "END_IF" => some .ifEnds
  | "AND" => some .and
  | "OR" => some .or
  | "ELSIF" | "XOR" | "NOT" | "MOD" | "TRUE" | "FALSE" => some .foreign
  | _ => none

/-- Whether a name may begin with `c`: neither a digit nor the sign of an operator. -/
def beginsName (c : Char) : Bool :=
  !(c.isDigit || ['+', '-', '*', '/', '&'].contains c)

/-- The token of a word.  Two slashes begin a remark, so they stand in no name. -/
def wordToken (w : List Char) : Token :=
  match keyword? (String.ofList (w.map Char.toUpper)) with
  | some t => t
  | none =>
    if w = ['0'] then .bit false
    else if w = ['1'] then .bit true
    else if w.head?.any beginsName && !Text.Chars.contains ['/', '/'] w then
      .name (String.ofList w)
    else .foreign

/-- The token of a mark other than the equals sign. -/
def mark? (c : Char) : Option Token :=
  if c = '(' then some .opening
  else if c = ')' then some .closing
  else if c = ';' then some .stop
  else if c = ',' ∨ c = '<' ∨ c = '>' then some .foreign
  else none

/-- Whether `c` belongs to a word. -/
def isLetter (c : Char) : Bool :=
  !Text.isBlank c && c ≠ '=' && (mark? c).isNone

/-- Whether a text is one name.  An operand of a bit instruction is one: neither a number nor
a reserved word, and without blanks and marks. -/
def IsName (operand : String) : Prop :=
  operand.toList.all isLetter = true ∧ wordToken operand.toList = .name operand

instance (operand : String) : Decidable (IsName operand) :=
  inferInstanceAs (Decidable (_ ∧ _))

/-! ## Cutting into tokens -/

/-- The token of a finished word, given backwards. -/
def finish (w : List Char) : List Token :=
  if w = [] then [] else [wordToken w.reverse]

/-- The tokens of a word, given backwards, with an equals sign behind it.  After a colon that
sign is the one of an assignment. -/
def finishEquals (w : List Char) : List Token :=
  if w.head? = some ':' then finish w.tail ++ [.becomes] else finish w ++ [.equals]

/-- One more character after the unfinished word `w`: the tokens it completes, and the word
that is unfinished then. -/
def absorb (w : List Char) (c : Char) : List Token × List Char :=
  if Text.isBlank c then (finish w, [])
  else if c = '=' then (finishEquals w, [])
  else
    match mark? c with
    | some t => (finish w ++ [t], [])
    | none => ([], c :: w)

/-- The tokens of a text after the unfinished word `w`. -/
def tokensFrom (w : List Char) : List Char → List Token
  | [] => finish w
  | c :: rest => (absorb w c).1 ++ tokensFrom (absorb w c).2 rest

/-- The tokens of a text. -/
def tokens (text : String) : List Token := tokensFrom [] text.toList

/-! ## Meaning -/

/-- A value for every operand. -/
abbrev Valuation := String → Bool

/-- The valuation with one operand changed. -/
def Valuation.set (v : Valuation) (operand : String) (on : Bool) : Valuation :=
  fun x => if x = operand then on else v x

@[simp] theorem Valuation.set_self (v : Valuation) (x : String) (on : Bool) :
    v.set x on x = on := by simp [Valuation.set]

theorem Valuation.set_of_ne (v : Valuation) {x y : String} (on : Bool) (h : y ≠ x) :
    v.set x on y = v y := by simp [Valuation.set, h]

/-- A condition on operands. -/
inductive Condition where
  | bit (operand : String) (on : Bool)
  | and (left right : Condition)
  | or (left right : Condition)
  deriving DecidableEq

/-- Whether a condition holds. -/
def Condition.holds (v : Valuation) : Condition → Bool
  | bit operand on => v operand == on
  | and left right => left.holds v && right.holds v
  | or left right => left.holds v || right.holds v

/-- A sequence of statements. -/
inductive Program where
  | done
  | assign (operand : String) (on : Bool) (next : Program)
  | branch (guard : Condition) (yes no next : Program)
  deriving DecidableEq

/-- The valuation after a program. -/
def Program.run : Program → Valuation → Valuation
  | done, v => v
  | assign operand on next, v => next.run (v.set operand on)
  | branch guard yes no next, v => next.run (if guard.holds v then yes.run v else no.run v)

/-! ## Reading -/

mutual

/-- Reads alternatives joined by `OR`, and gives the tokens left over.  The first argument
bounds the calls that follow. -/
def readAny : Nat → List Token → Option (Condition × List Token)
  | 0, _ => none
  | n + 1, ts =>
    match readAll n ts with
    | some (c, .or :: rest) => (readAny n rest).map fun r => (.or c r.1, r.2)
    | r => r

/-- Reads parts joined by `AND`. -/
def readAll : Nat → List Token → Option (Condition × List Token)
  | 0, _ => none
  | n + 1, ts =>
    match readPart n ts with
    | some (c, .and :: rest) => (readAll n rest).map fun r => (.and c r.1, r.2)
    | r => r

/-- Reads one comparison, or a condition in parentheses. -/
def readPart : Nat → List Token → Option (Condition × List Token)
  | 0, _ => none
  | _ + 1, .name x :: .equals :: .bit on :: rest => some (.bit x on, rest)
  | n + 1, .opening :: ts =>
    match readAny n ts with
    | some (c, .closing :: rest) => some (c, rest)
    | _ => none
  | _ + 1, _ => none

end

/-- Reads statements up to the end or to a word that ends a branch. -/
def readProgram : Nat → List Token → Option (Program × List Token)
  | 0, _ => none
  | n + 1, .name x :: .becomes :: .bit on :: .stop :: rest =>
    (readProgram n rest).map fun r => (.assign x on r.1, r.2)
  | n + 1, .ifBegins :: ts =>
    match readAny n ts with
    | some (c, .thenBegins :: ts) =>
      match readProgram n ts with
      | some (yes, .ifEnds :: .stop :: rest) =>
        (readProgram n rest).map fun r => (.branch c yes .done r.1, r.2)
      | some (yes, .elseBegins :: ts) =>
        match readProgram n ts with
        | some (no, .ifEnds :: .stop :: rest) =>
          (readProgram n rest).map fun r => (.branch c yes no r.1, r.2)
        | _ => none
      | _ => none
    | _ => none
  | _ + 1, rest => some (.done, rest)

/-- The program that a text spells.  Three calls for each token are enough. -/
def program? (text : String) : Option Program :=
  match readProgram (3 * (tokens text).length + 3) (tokens text) with
  | some (p, []) => some p
  | _ => none

/-- The valuation after the program that a text spells. -/
def execute (text : String) (v : Valuation) : Option Valuation :=
  (program? text).map fun p => p.run v

end ControlLogic.StructuredText
