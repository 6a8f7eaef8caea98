import ControlLogic.Text.Basic
import ControlLogic.Text.Blank
import ControlLogic.Text.Numeral

/-!
# Tokens of a markup document

A document is cut into opening and closing tags and stretches of text.  Comments and
processing instructions disappear, references become the characters they stand for, and a
verbatim section is text.  A reader gives `none` where the document is not well formed.
-/

namespace ControlLogic.Markup

/-- A part of a document. -/
inductive Token where
  /-- An opening tag; `closed` if the element ends with it. -/
  | opening (name : String) (attributes : List (String × String)) (closed : Bool)
  /-- A closing tag. -/
  | closing (name : String)
  /-- A stretch of text. -/
  | text (s : List Char)

namespace Token

/-! ## Characters -/

/-- A blank between the parts of a tag. -/
def isSpace (c : Char) : Bool := c = ' ' || c = '\t' || c = '\n' || c = '\r'

/-- A character that may stand in a document. -/
def isAllowed (c : Char) : Bool :=
  let n := c.toNat
  isSpace c || (0x20 ≤ n && n ≠ 0xFFFE && n ≠ 0xFFFF)

/-- A character that may begin a name. -/
def isNameStart (c : Char) : Bool :=
  let n := c.toNat
  c.isAlpha || c = '_' || (0xC0 ≤ n && n ≠ 0xD7 && n ≠ 0xF7 && n ≤ 0x2FF) ||
    (0x370 ≤ n && n ≠ 0x37E && n ≤ 0x1FFF) || n = 0x200C || n = 0x200D ||
    (0x2070 ≤ n && n ≤ 0x218F) || (0x2C00 ≤ n && n ≤ 0x2FEF) || (0x3001 ≤ n && n ≤ 0xD7FF) ||
    (0xF900 ≤ n && n ≤ 0xFDCF) || (0xFDF0 ≤ n && n ≤ 0xFFFD) || (0x10000 ≤ n && n ≤ 0xEFFFF)

/-- A character that may stand in a name. -/
def isNameChar (c : Char) : Bool :=
  let n := c.toNat
  isNameStart c || c.isDigit || c = '-' || c = '.' || n = 0xB7 || (0x300 ≤ n && n ≤ 0x36F) ||
    n = 0x203F || n = 0x2040

/-! ## Names and references -/

/-- What is left after leading blanks. -/
def skipSpace (s : List Char) : List Char := s.dropWhile isSpace

/-- A name without a colon. -/
def readPlainName : List Char → Option (List Char × List Char)
  | c :: rest =>
    if isNameStart c then some (c :: rest.takeWhile isNameChar, rest.dropWhile isNameChar) else none
  | [] => none

/-- A name with one colon at most. -/
def readName (s : List Char) : Option (String × List Char) := do
  let (first, rest) ← readPlainName s
  match rest with
  | ':' :: more =>
    let (second, rest) ← readPlainName more
    if rest.head? = some ':' then none
    else some (String.ofList (first ++ ':' :: second), rest)
  | _ => some (String.ofList first, rest)

/-- The character with a number, if it may stand in a document. -/
def charOf? (n : Nat) : Option Char :=
  if n.isValidChar then
    let c := Char.ofNat n
    if isAllowed c then some c else none
  else none

/-- The value of digits of a base. -/
def digitsValue? (base : Nat) (s : List Char) : Option Nat :=
  if s.isEmpty then none
  else s.foldl (fun acc c => do
    let n ← acc
    let d ← if c.isDigit then some (c.toNat - 48)
      else if 'a' ≤ c ∧ c ≤ 'f' then some (c.toNat - 87)
      else if 'A' ≤ c ∧ c ≤ 'F' then some (c.toNat - 55)
      else none
    if d < base then some (min (n * base + d) 0x110000) else none) (some 0)

/-- The character that a reference stands for, between `&` and `;`. -/
def referent? (body : List Char) : Option Char :=
  match body with
  | '#' :: 'x' :: digits => digitsValue? 16 digits >>= charOf?
  | '#' :: digits => digitsValue? 10 digits >>= charOf?
  | _ =>
    match String.ofList body with
    | "amp" => some '&'
    | "lt" => some '<'
    | "gt" => some '>'
    | "quot" => some '"'
    | "apos" => some '\''
    | _ => none

/-- Whether text goes on as the pattern does. -/
def begins (t : String) (s : List Char) : Bool := t.toList.isPrefixOf s

/-! ## Text and attributes -/

/-- Reads text up to the next tag. `skip` characters belong to a reference just read. -/
def readText : Nat → List Char → Option (List Char × List Char)
  | _, [] => some ([], [])
  | n + 1, _ :: rest => readText n rest
  | 0, c :: rest =>
    if c = '<' then some ([], c :: rest)
    else if c = '&' then do
      let body := rest.takeWhile (· ≠ ';')
      if body.length = rest.length then none
      let r ← referent? body
      let (a, b) ← readText (body.length + 1) rest
      some (r :: a, b)
    else if begins "]]>" (c :: rest) || !isAllowed c then none
    else (readText 0 rest).map fun (a, b) => (c :: a, b)

/-- Reads the value of an attribute up to its closing quote. -/
def readValue (quote : Char) : Nat → List Char → Option (List Char × List Char)
  | _, [] => none
  | n + 1, _ :: rest => readValue quote n rest
  | 0, c :: rest =>
    if c = quote then some ([], rest)
    else if c = '&' then do
      let body := rest.takeWhile (· ≠ ';')
      if body.length = rest.length then none
      let r ← referent? body
      let (a, b) ← readValue quote (body.length + 1) rest
      some (r :: a, b)
    else if c = '<' || !isAllowed c then none
    else (readValue quote 0 rest).map fun (a, b) => ((if isSpace c then ' ' else c) :: a, b)

/-- Reads one attribute. -/
def readAttribute (s : List Char) : Option ((String × String) × List Char) := do
  let (name, rest) ← readName s
  match skipSpace rest with
  | '=' :: rest =>
    match skipSpace rest with
    | q :: rest =>
      if q = '"' ∨ q = '\'' then
        let (value, rest) ← readValue q 0 rest
        some ((name, String.ofList value), rest)
      else none
    | [] => none
  | _ => none

/-- Reads the attributes of a tag and its end; `true` if the element ends with it. -/
def readAttributes : Nat → List Char → Option (List (String × String) × Bool × List Char)
  | 0, _ => none
  | fuel + 1, s =>
    match skipSpace s with
    | '>' :: rest => some ([], false, rest)
    | '/' :: '>' :: rest => some ([], true, rest)
    | next =>
      if next.length = s.length then none
      else do
        let (a, rest) ← readAttribute next
        let (more, closed, rest) ← readAttributes fuel rest
        some (a :: more, closed, rest)

/-! ## Comments, instructions, declarations -/

/-- What is left after a comment whose opening has been read. -/
def skipComment (s : List Char) : Option (List Char) := do
  let (body, rest) ← Text.Chars.breakOn? "--".toList s
  match rest with
  | '>' :: rest => if body.all isAllowed then some rest else none
  | _ => none

/-- What is left after a processing instruction whose opening has been read. -/
def skipInstruction (s : List Char) : Option (List Char) := do
  let (name, rest) ← readName s
  if name.toLower = "xml" then none
  let (body, rest') ← Text.Chars.breakOn? "?>".toList rest
  if body.all isAllowed ∧ (body = [] ∨ isSpace (body.headD ' ')) then some rest' else none

/-- What is left after a declaration of the document's type. -/
def skipDoctype : (quote : Option Char) → (inner : Bool) → List Char → Option (List Char)
  | _, _, [] => none
  | some q, inner, c :: rest => skipDoctype (if c = q then none else some q) inner rest
  | none, inner, c :: rest =>
    if c = '"' ∨ c = '\'' then skipDoctype (some c) inner rest
    else if c = '[' then skipDoctype none true rest
    else if c = ']' then skipDoctype none false rest
    else if c = '>' ∧ !inner then some rest
    else skipDoctype none inner rest

/-- The pseudo attributes of the declaration at the top of a document. -/
def isDeclaration (attributes : List (String × String)) : Bool :=
  match attributes with
  | ("version", v) :: rest =>
    Text.startsWith "1." v &&
      (match rest with
        | [] => true
        | [("encoding", e)] => e ≠ ""
        | [("standalone", s)] => s = "yes" || s = "no"
        | [("encoding", e), ("standalone", s)] => e ≠ "" && (s = "yes" || s = "no")
        | _ => false)
  | _ => false

/-- What is left after the declaration at the top of a document, if there is one. -/
def skipDeclaration (s : List Char) : Option (List Char) :=
  let s := if s.head? = some '\uFEFF' then s.tail else s
  if begins "<?xml" s && isSpace ((s.drop 5).headD 'x') then do
    let (body, rest) ← Text.Chars.breakOn? "?>".toList (s.drop 5)
    let (attributes, _, left) ← readAttributes (body.length + 2) (body ++ [' ', '>'])
    if isDeclaration attributes ∧ left = [] then some rest else none
  else some s

/-! ## Documents -/

/-- Reads one token.  A comment or an instruction gives no token. -/
def read : List Char → Option (Option Token × List Char)
  | '<' :: '/' :: rest => do
    let (name, rest) ← readName rest
    match skipSpace rest with
    | '>' :: rest => some (some (closing name), rest)
    | _ => none
  | '<' :: '?' :: rest => (skipInstruction rest).map fun rest => (none, rest)
  | '<' :: '!' :: '-' :: '-' :: rest => (skipComment rest).map fun rest => (none, rest)
  | '<' :: '!' :: '[' :: rest =>
    if begins "CDATA[" rest then do
      let (body, rest) ← Text.Chars.breakOn? "]]>".toList (rest.drop 6)
      if body.all isAllowed then some (some (text body), rest) else none
    else none
  | '<' :: rest => do
    let (name, rest) ← readName rest
    let (attributes, closed, rest) ← readAttributes (rest.length + 1) rest
    some (some (opening name attributes closed), rest)
  | s => (readText 0 s).map fun (a, b) => (some (text a), b)

/-- Reads tokens until the text ends. -/
def readAll : Nat → List Char → Option (List Token)
  | _, [] => some []
  | 0, _ => none
  | fuel + 1, s => do
    let (token, rest) ← read s
    let more ← readAll fuel rest
    some (token.toList ++ more)

/-- Skips blanks, comments, instructions and a type declaration before the first element. -/
def skipProlog : Nat → List Char → Option (List Char)
  | 0, s => some s
  | fuel + 1, s =>
    match skipSpace s with
    | '<' :: '?' :: rest => skipInstruction rest >>= skipProlog fuel
    | '<' :: '!' :: '-' :: '-' :: rest => skipComment rest >>= skipProlog fuel
    | '<' :: '!' :: rest =>
      if begins "DOCTYPE" rest && isSpace ((rest.drop 7).headD 'x') then
        skipDoctype none false (rest.drop 7) >>= skipProlog fuel
      else none
    | next => some next

/-- The tokens of a document from its first element on. -/
def ofDocument? (s : String) : Option (List Token) := do
  let s := Text.unifyLineEnds s.toList
  let s ← skipDeclaration s
  let s ← skipProlog s.length s
  readAll (s.length + 1) s

end Token

end ControlLogic.Markup
