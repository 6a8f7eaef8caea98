import ControlLogic.Fault
import ControlLogic.Json.Basic
import ControlLogic.Markup.Writer
import ControlLogic.StructuredText.Declarations

/-!
# Tags of a generated document

What is written into an exchange document about a tag.  Facts about a tag may come from a
loosely typed record, so they are values of any kind; only texts and collections can be
written.
-/

namespace ControlLogic.Exchange

open Markup StructuredText

/-- The facts about a tag that a document tells. -/
structure TagFacts where
  type : Json := .text "DINT"
  scope : Json := .text "Controller"
  program : Json := .null
  tagType : Json := .text "Base"
  isArray : Bool := false
  /-- The range of an array. -/
  range : Option Json := none
  description : Json := .text ""
  externalAccess : Json := .text ""
  radix : Json := .text ""
  constant : Json := .bool false
  aliasFor : Json := .text ""
  initialValue : Json := .text ""
  usage : Json := .text ""

/-- The facts that a record tells. -/
def TagFacts.ofRecord (fields : List (String × Json)) : TagFacts :=
  let get (key : String) (default : Json) := (Table.lookup key fields).getD default
  { type := get "type" (.text "DINT")
    scope := get "scope" (.text "Controller")
    program := get "program" .null
    tagType := get "tag_type" (.text "Base")
    isArray := (get "is_array" .null).isTruthy
    range := Table.lookup "array_range" fields
    description := get "description" (.text "")
    externalAccess := get "external_access" (.text "")
    radix := get "radix" (.text "")
    constant := get "constant" (.bool false)
    aliasFor := get "alias_for" (.text "")
    initialValue := get "initial_value" (.text "")
    usage := get "usage" (.text "") }

/-- The characters that are escaped in an attribute. -/
def escapedCharacters : List String := ["&", "<", ">", "\"", "\r", "\n", "\t"]

/-- A value as an attribute: a text as it is, and a collection as its literal, unless one of
its parts would have to be escaped. -/
def attributeText : Json → Except Fault String
  | .text s => .ok s
  | .list items =>
    if items.any fun j => escapedCharacters.any j.isText then .error .wrongKind
    else .ok (Json.list items).literal
  | .record fields =>
    if fields.any fun f => escapedCharacters.contains f.1 then .error .wrongKind
    else .ok (Json.record fields).literal
  | _ => .error .wrongKind

/-- An attribute for a value that is present. -/
def optionalAttribute (key : String) (v : Json) : Except Fault (List (String × String)) :=
  if v.isTruthy then return [(key, ← attributeText v)] else return []

/-- An element with a value that is present as its text. -/
def optionalElement (tag : String) : Json → Except Fault (List Element)
  | .text s => if s = "" then .ok [] else .ok [Element.ofText tag s]
  | v => if v.isTruthy then .error .wrongKind else .ok []

/-- An array without its range cannot be written. -/
def TagFacts.checkRange (f : TagFacts) : Except Fault Unit :=
  if f.isArray && f.range.isNone then .error (.missingKey (Text.quote "array_range")) else .ok ()

/-- The type that is written. -/
def TagFacts.writtenType (f : TagFacts) : Json :=
  if f.type.isText "Unknown" then .text "DINT" else f.type

/-- The part of a tag that holds its data: always one zero. -/
def dataElement (type : String) : Element :=
  { Element.leaf "Data" [("Format", "Decorated"), ("Use", "Context")] with
    children := [{ Element.leaf "Value" [("DataType", type), ("Radix", "Decimal")] with
      text := some "0" }] }

/-- The element of a tag. -/
def tagElement (name : String) (f : TagFacts) : Except Fault Element := do
  f.checkRange
  let type ← attributeText f.writtenType
  let scope ←
    if f.scope.isText "Controller" then pure [("Scope", "Controller")]
    else pure (("Scope", "Program") :: (← optionalAttribute "Program" f.program))
  let tagType ← attributeText f.tagType
  let dimension ←
    if f.isArray then pure [("Dimension", ← attributeText (f.range.getD .null))] else pure []
  let access ← optionalAttribute "ExternalAccess" f.externalAccess
  let radix ← optionalAttribute "Radix" f.radix
  let constant := if f.constant.isTruthy then [("Constant", "true")] else []
  let aliasFor ← optionalAttribute "AliasFor" f.aliasFor
  let usage ← optionalAttribute "Usage" f.usage
  let description ← optionalElement "Description" f.description
  let value ← optionalElement "Value" f.initialValue
  return { Element.leaf "Tag" ([("Name", name), ("DataType", type)] ++ scope ++
      [("TagType", tagType)] ++ dimension ++ access ++ radix ++ constant ++ aliasFor ++ usage) with
    children := description ++ value ++ [dataElement type] }

/-- The elements of tags. -/
def tagElements (tags : List (String × TagFacts)) : Except Fault (List Element) := do
  tags.forM fun (_, f) => f.checkRange
  tags.mapM fun (name, f) => tagElement name f

end ControlLogic.Exchange
