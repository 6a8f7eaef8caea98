import ControlLogic.Text.Chars
import ControlLogic.Text.Blank
import ControlLogic.Text.Word
import ControlLogic.Text.Case

/-!
# Patterns

A pattern describes stretches of text.  `Pattern.run` tries the ways in which a pattern can
match at a place, in order of preference: the first alternative before the second, a greedy
repetition long before short, a lazy one short before long.  It hands each way to a
continuation and stops at the first one the continuation accepts, so the choice of one
part takes the parts after it into account.

`Pattern.matchAt` is the preferred match at a place, `Pattern.find?` the first place with a
match, and `Pattern.scan` cuts a text into matches that do not overlap, met from left to
right, and the characters between them.
-/

namespace ControlLogic.Text

/-- A description of stretches of text. -/
inductive Pattern where
  /-- The empty stretch. -/
  | empty
  /-- One character of a class. -/
  | one (p : Char → Bool)
  /-- One pattern after the other. -/
  | seq (a b : Pattern)
  /-- The first pattern, or else the second. -/
  | alt (a b : Pattern)
  /-- Any number of repetitions, as many as possible first. -/
  | star (a : Pattern)
  /-- Any number of repetitions, as few as possible first. -/
  | lazy (a : Pattern)
  /-- The pattern, with the stretch it matched remembered under a number. -/
  | group (n : Nat) (a : Pattern)
  /-- A place between a word character and another character or an end. -/
  | edge
  /-- The beginning of the text. -/
  | atStart
  /-- The end of the text, or the place before a line feed that ends it. -/
  | atEnd
  /-- A place where the pattern would match. -/
  | ahead (a : Pattern)
  /-- The preferred match of the pattern and no other. -/
  | atomic (a : Pattern)

namespace Pattern

/-- A place in a text, with what the groups passed so far have matched. -/
structure Cursor where
  /-- The number of characters passed. -/
  pos : Nat
  /-- The character just passed. -/
  before : Option Char
  /-- The characters still to come. -/
  rest : List Char
  /-- What each group matched, the latest first. -/
  marks : List (Nat × List Char)

/-- Tries a matcher again and again, long before short; a round that passes nothing is not
repeated. -/
def repeatLong {β : Type} (m : Cursor → (Cursor → Option β) → Option β) :
    Nat → Cursor → (Cursor → Option β) → Option β
  | 0, c, k => k c
  | n + 1, c, k =>
    match m c (fun d => if c.pos < d.pos then repeatLong m n d k else none) with
    | some b => some b
    | none => k c

/-- Tries a matcher again and again, short before long. -/
def repeatShort {β : Type} (m : Cursor → (Cursor → Option β) → Option β) :
    Nat → Cursor → (Cursor → Option β) → Option β
  | 0, c, k => k c
  | n + 1, c, k =>
    match k c with
    | some b => some b
    | none => m c (fun d => if c.pos < d.pos then repeatShort m n d k else none)

/-- Whether the cursor stands between a word character and another character or an end. -/
def Cursor.atEdge (c : Cursor) : Bool :=
  (c.before.any isWordChar) != (c.rest.head?.any isWordChar)

/-- Hands every way of matching at the cursor to `k`, the preferred ones first, until `k`
accepts one. -/
def run {β : Type} : Pattern → Cursor → (Cursor → Option β) → Option β
  | empty, c, k => k c
  | one p, c, k =>
    match c.rest with
    | [] => none
    | x :: xs => if p x then k ⟨c.pos + 1, some x, xs, c.marks⟩ else none
  | seq a b, c, k => run a c fun d => run b d k
  | alt a b, c, k =>
    match run a c k with
    | some r => some r
    | none => run b c k
  | star a, c, k => repeatLong (fun d l => run a d l) (c.rest.length + 1) c k
  | lazy a, c, k => repeatShort (fun d l => run a d l) (c.rest.length + 1) c k
  | group n a, c, k =>
    run a c fun d => k { d with marks := (n, c.rest.take (d.pos - c.pos)) :: d.marks }
  | edge, c, k => if c.atEdge then k c else none
  | atStart, c, k => if c.pos = 0 then k c else none
  | atEnd, c, k => if c.rest = [] ∨ c.rest = ['\n'] then k c else none
  | ahead a, c, k =>
    match run (β := Cursor) a c some with
    | some d => k { c with marks := d.marks }
    | none => none
  | atomic a, c, k =>
    match run (β := Cursor) a c some with
    | some d => k d
    | none => none

/-- What a match covers. -/
structure Match where
  /-- The number of characters before the match. -/
  start : Nat
  /-- The matched characters. -/
  text : List Char
  /-- What each group matched, the latest first. -/
  marks : List (Nat × List Char)

/-- What group `n` matched, if it took part. -/
def Match.group? (m : Match) (n : Nat) : Option String :=
  (m.marks.find? (·.1 == n)).map fun (_, t) => String.ofList t

/-- What group `n` matched, the empty text if it took no part. -/
def Match.group (m : Match) (n : Nat) : String :=
  (m.group? n).getD ""

/-- The preferred match at a place. -/
def matchAt (p : Pattern) (pos : Nat) (before : Option Char) (rest : List Char) : Option Match :=
  p.run ⟨pos, before, rest, []⟩ fun d => some ⟨pos, rest.take (d.pos - pos), d.marks⟩

/-- The match at the first place that has one. -/
def findFrom (p : Pattern) (pos : Nat) (before : Option Char) : List Char → Option Match
  | [] => matchAt p pos before []
  | c :: rest =>
    match matchAt p pos before (c :: rest) with
    | some m => some m
    | none => findFrom p (pos + 1) (some c) rest

/-- A piece of a scanned text: a character outside all matches, or a match. -/
inductive Piece where
  | plain (c : Char)
  | hit (m : Match)

/-- The pieces of a text.  The next `skip` characters belong to the match just met. -/
def scanFrom (p : Pattern) : Nat → Nat → Option Char → List Char → List Piece
  | 0, pos, before, [] => ((matchAt p pos before []).map Piece.hit).toList
  | _ + 1, _, _, [] => []
  | skip + 1, pos, _, c :: rest => scanFrom p skip (pos + 1) (some c) rest
  | 0, pos, before, c :: rest =>
    match matchAt p pos before (c :: rest) with
    | some m =>
      match m.text.length with
      | 0 => Piece.hit m :: Piece.plain c :: scanFrom p 0 (pos + 1) (some c) rest
      | n + 1 => Piece.hit m :: scanFrom p n (pos + 1) (some c) rest
    | none => Piece.plain c :: scanFrom p 0 (pos + 1) (some c) rest

/-! ## On strings -/

/-- The preferred match at the beginning of `s`. -/
def matchStart? (p : Pattern) (s : String) : Option Match :=
  p.matchAt 0 none s.toList

/-- The first match in `s`. -/
def find? (p : Pattern) (s : String) : Option Match :=
  p.findFrom 0 none s.toList

/-- Whether `s` has a match. -/
def occursIn (p : Pattern) (s : String) : Bool :=
  (p.find? s).isSome

/-- The matches in `s`, from left to right, without overlap. -/
def findAll (p : Pattern) (s : String) : List Match :=
  (p.scanFrom 0 0 none s.toList).filterMap fun
    | .plain _ => none
    | .hit m => some m

/-- Puts `f m` in place of every match `m`. -/
def substitute (p : Pattern) (f : Match → String) (s : String) : String :=
  String.ofList ((p.scanFrom 0 0 none s.toList).flatMap fun
    | .plain c => [c]
    | .hit m => (f m).toList)

/-! ## Building patterns -/

/-- The pattern of all patterns of the list, one after the other. -/
def all : List Pattern → Pattern
  | [] => empty
  | [a] => a
  | a :: rest => seq a (all rest)

/-- The pattern of the first of the list that leads to a match. -/
def anyOf : List Pattern → Pattern
  | [] => one fun _ => false
  | [a] => a
  | a :: rest => alt a (anyOf rest)

/-- One or more repetitions, as many as possible first. -/
def plus (a : Pattern) : Pattern := seq a (star a)

/-- One or more repetitions, as few as possible first. -/
def lazyPlus (a : Pattern) : Pattern := seq a (lazy a)

/-- The pattern, or nothing. -/
def optional (a : Pattern) : Pattern := alt a empty

/-- Exactly this text. -/
def text (s : String) : Pattern :=
  all (s.toList.map fun c => one (· == c))

/-- This text, case aside. -/
def keyword (s : String) : Pattern :=
  all (s.toList.map fun c => one (sameLetter c))

/-- This text, case aside, with an edge of a word at either end. -/
def wholeWord (s : String) : Pattern := all [edge, keyword s, edge]

/-- One of these characters. -/
def among (s : String) : Pattern :=
  one fun c => s.toList.contains c

/-- A character other than these. -/
def except (s : String) : Pattern :=
  one fun c => !s.toList.contains c

/-- A character other than these letters, case aside. -/
def exceptLetters (s : String) : Pattern :=
  one fun c => !s.toList.any fun x => sameLetter x c

/-- A word character. -/
def wordChar : Pattern := one isWordChar

/-- A word. -/
def word : Pattern := plus wordChar

/-- A blank. -/
def blank : Pattern := one isBlank

/-- Any number of blanks. -/
def blanks : Pattern := star blank

/-- One or more blanks. -/
def gap : Pattern := plus blank

/-- A decimal digit. -/
def decimal : Pattern := one isDecimal

/-- One or more decimal digits. -/
def decimals : Pattern := plus decimal

/-- Any character. -/
def any : Pattern := one fun _ => true

/-- A character within a line. -/
def inLine : Pattern := one (· != '\n')

end Pattern

end ControlLogic.Text
