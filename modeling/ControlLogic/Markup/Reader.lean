import ControlLogic.Markup.Element
import ControlLogic.Markup.Token

/-!
# Reading markup

The tokens of a document are put together into its root element.  Open elements stand on a
stack, the innermost first; a closing tag must name the innermost one.
-/

namespace ControlLogic.Markup

/-- The namespaces in force, each under its short name, the innermost first. -/
abbrev Bindings := List (String × String)

/-- The namespace of every document under the short name `xml`. -/
def baseBindings : Bindings := [("xml", "http://www.w3.org/XML/1998/namespace")]

/-- The short name and the rest of a written name. -/
def splitWritten (name : String) : Option (String × String) :=
  match Text.split ':' name with
  | [a, b] => some (a, b)
  | _ => none

/-- A name with its namespace in braces. -/
def qualified (space name : String) : String := "\x7b" ++ space ++ "\x7d" ++ name

/-- The bindings that attributes add. -/
def declared (attributes : List (String × String)) : Option Bindings :=
  attributes.filterMapM fun (k, v) =>
    if k = "xmlns" then some (some ("", v))
    else
      match splitWritten k with
      | some ("xmlns", short) => if v = "" then none else some (some (short, v))
      | _ => some none

/-- Whether an attribute declares a namespace. -/
def isDeclaringName (k : String) : Bool := k = "xmlns" || Text.startsWith "xmlns:" k

/-- The name of an element under bindings. -/
def elementName? (b : Bindings) (name : String) : Option String :=
  match splitWritten name with
  | some (short, rest) => (Table.lookup short b).map (qualified · rest)
  | none =>
    match Table.lookup "" b with
    | none => some name
    | some "" => some name
    | some space => some (qualified space name)

/-- The name of an attribute under bindings. -/
def attributeName? (b : Bindings) (name : String) : Option String :=
  match splitWritten name with
  | some (short, rest) => (Table.lookup short b).map (qualified · rest)
  | none => some name

/-- Whether a list of names holds none twice. -/
def allDistinct : List String → Bool
  | [] => true
  | a :: rest => !rest.contains a && allDistinct rest

/-- An element that is still open; its children stand in reverse. -/
structure OpenElement where
  /-- The name as written. -/
  written : String
  element : Element
  bindings : Bindings

namespace OpenElement

/-- Text put after other text. -/
def extend (t : Option String) (s : String) : Option String :=
  if s = "" then t else some (t.getD "" ++ s)

/-- Adds text after all that the element holds so far. -/
def addText (o : OpenElement) (s : String) : OpenElement :=
  { o with element :=
      match o.element.children with
      | [] => { o.element with text := extend o.element.text s }
      | last :: before =>
        { o.element with children := { last with tail := extend last.tail s } :: before } }

/-- Adds a child after all that the element holds so far. -/
def addChild (o : OpenElement) (c : Element) : OpenElement :=
  { o with element := { o.element with children := c :: o.element.children } }

/-- The element with its children in order. -/
def finish (o : OpenElement) : Element :=
  { o.element with children := o.element.children.reverse }

/-- The open element of a tag. -/
def ofTag? (outer : Bindings) (name : String) (attributes : List (String × String)) :
    Option OpenElement := do
  if !allDistinct (attributes.map (·.1)) then none
  let own ← declared attributes
  let bindings := own.reverse ++ outer
  let tag ← elementName? bindings name
  let named ← (attributes.filter (!isDeclaringName ·.1)).mapM fun (k, v) =>
    (attributeName? bindings k).map fun k => (k, v)
  if allDistinct (named.map (·.1)) then
    some { written := name, element := Element.leaf tag named, bindings }
  else none

end OpenElement

/-- What follows the root element: blanks at most. -/
def isTrailer : List Token → Bool
  | [] => true
  | .text s :: rest => s.all Token.isSpace && isTrailer rest
  | _ :: _ => false

/-- Puts tokens together, given the open elements, the innermost first. -/
def build : List OpenElement → List Token → Option Element
  | [], .opening name attributes closed :: rest => do
    let o ← OpenElement.ofTag? baseBindings name attributes
    if closed then if isTrailer rest then some o.finish else none
    else build [o] rest
  | outer :: stack, .opening name attributes closed :: rest => do
    let o ← OpenElement.ofTag? outer.bindings name attributes
    if closed then build (outer.addChild o.finish :: stack) rest
    else build (o :: outer :: stack) rest
  | o :: stack, .text s :: rest => build (o.addText (String.ofList s) :: stack) rest
  | o :: stack, .closing name :: rest =>
    if name = o.written then
      match stack with
      | [] => if isTrailer rest then some o.finish else none
      | outer :: below => build (outer.addChild o.finish :: below) rest
    else none
  | _, _ => none

/-- The root element of a document. -/
def Element.parse? (s : String) : Option Element :=
  Token.ofDocument? s >>= build []

end ControlLogic.Markup
