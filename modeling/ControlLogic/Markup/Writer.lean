import ControlLogic.Markup.Element

/-!
# Writing markup

`Element.render` writes an element with all it holds and its tail.  An element without text
and children is written as one tag.  A namespace gets a short name, and the outermost
element declares all of them.
-/

namespace ControlLogic.Markup

/-- A character of a text. -/
def escapeTextChar (c : Char) : List Char :=
  if c = '&' then "&amp;".toList
  else if c = '<' then "&lt;".toList
  else if c = '>' then "&gt;".toList
  else [c]

/-- The written form of a text. -/
def escapeText (s : String) : String := String.ofList (s.toList.flatMap escapeTextChar)

/-- A character of an attribute. -/
def escapeAttributeChar (c : Char) : List Char :=
  if c = '"' then "&quot;".toList
  else if c = '\r' then "&#13;".toList
  else if c = '\n' then "&#10;".toList
  else if c = '\t' then "&#09;".toList
  else escapeTextChar c

/-- The written form of an attribute. -/
def escapeAttribute (s : String) : String := String.ofList (s.toList.flatMap escapeAttributeChar)

/-! ## Namespaces -/

/-- The namespace and the local part of a name. -/
def splitName (name : String) : Option (String × String) :=
  match name.toList with
  | '\x7b' :: rest =>
    match Text.Chars.lastIndexOf? '\x7d' rest with
    | some i => some (String.ofList (rest.take i), String.ofList (rest.drop (i + 1)))
    | none => none
  | _ => none

/-- The namespaces with a fixed short name. -/
def wellKnown : List (String × String) := [
  ("http://www.w3.org/XML/1998/namespace", "xml"),
  ("http://www.w3.org/1999/xhtml", "html"),
  ("http://www.w3.org/1999/02/22-rdf-syntax-ns#", "rdf"),
  ("http://schemas.xmlsoap.org/wsdl/", "wsdl"),
  ("http://www.w3.org/2001/XMLSchema", "xs"),
  ("http://www.w3.org/2001/XMLSchema-instance", "xsi"),
  ("http://purl.org/dc/elements/1.1/", "dc")]

/-- The short names of the namespaces met so far, with the one of `name` added. -/
def noteName (known : Table String String) (name : String) : Table String String :=
  match splitName name with
  | none => known
  | some (space, _) =>
    if known.contains space then known
    else
      match Table.lookup space wellKnown with
      | some "xml" => known
      | some short => known.insert space short
      | none => known.insert space ("ns" ++ toString known.size)

/-- The short names of the namespaces of an element and all below it. -/
def shortNames (e : Element) : Table String String :=
  e.all.foldl (fun t d => d.attributes.keys.foldl noteName (noteName t d.tag)) Table.empty

/-- The written form of a name. -/
def writtenName (short : Table String String) (name : String) : String :=
  match splitName name with
  | none => name
  | some (space, rest) =>
    match short.get? space with
    | some s => s ++ ":" ++ rest
    | none => ((Table.lookup space wellKnown).getD "") ++ ":" ++ rest

/-! ## Elements -/

mutual

/-- An element with its tail; `declarations` stands before its attributes. -/
def writeElement (short : Table String String) (declarations : String) : Element → String
  | ⟨tag, attributes, text, children, tail⟩ =>
    let name := writtenName short tag
    let opening := "<" ++ name ++ declarations ++ String.join (attributes.entries.map fun (k, v) =>
      " " ++ writtenName short k ++ "=\"" ++ escapeAttribute v ++ "\"")
    let inner := text.getD ""
    let body :=
      if inner = "" ∧ children.isEmpty then " />"
      else ">" ++ escapeText inner ++ writeElements short children ++ "</" ++ name ++ ">"
    opening ++ body ++ escapeText (tail.getD "")

/-- Elements one after the other. -/
def writeElements (short : Table String String) : List Element → String
  | [] => ""
  | e :: rest => writeElement short "" e ++ writeElements short rest

end

/-- The written form of an element. -/
def Element.render (e : Element) : String :=
  let short := shortNames e
  let ordered := short.entries.mergeSort fun a b => decide (a.2 ≤ b.2)
  writeElement short (String.join (ordered.map fun (space, s) =>
    " xmlns:" ++ s ++ "=\"" ++ escapeAttribute space ++ "\"")) e

end ControlLogic.Markup
