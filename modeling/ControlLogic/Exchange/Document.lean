import ControlLogic.Exchange.Data
import ControlLogic.Exchange.Source
import ControlLogic.Markup.Reader
import ControlLogic.Markup.Writer

/-!
# Exchange documents

A document is read with every character section made an element `CDATAContent` of its own, so
that text in such a section is told apart from plain text.  The controller of a document and
its programs are sources of tags.
-/

namespace ControlLogic.Exchange

open Markup

/-- Makes every character section an element. -/
def wrapSections (s : List Char) : List Char :=
  match _h : Text.Chars.breakOn? "<![CDATA[".toList s with
  | none => s
  | some (before, inner) =>
    match _h' : Text.Chars.breakOn? "]]>".toList inner with
    | none => s
    | some (body, after) =>
      before ++ "<CDATAContent>".toList ++ body.flatMap escapeTextChar ++
        "</CDATAContent>".toList ++ wrapSections after
termination_by s.length
decreasing_by
  have h₁ := congrArg List.length (Text.Chars.eq_of_breakOn? _h)
  have h₂ := Text.Chars.length_of_breakOn? _h'
  simp only [List.length_append] at h₁
  have : 0 < "<![CDATA[".toList.length := by decide
  omega

/-- A document: the language of its descriptions and its controller. -/
structure Document where
  language : Option String
  controller : Element

namespace Document

/-- Reads a document from its text. -/
def parse (source : String) : Except Fault Document :=
  match Element.parse? (String.ofList (wrapSections source.toList)) with
  | none => .error .badMarkup
  | some root =>
    if root.tag ≠ "RSLogix5000Content" then .error .notExchange
    else
      match root.child? "Controller" with
      | none => .error (.absent "find")
      | some controller => .ok { language := root.attribute? "CurrentLanguage", controller }

/-- Reads a document from a file. -/
def load (files : Files) (path : String) : Except Fault Document := do
  parse (← files.read path)

/-- The children of a section, as things listed by the attribute `Name`. -/
def directory {α : Type} (make : Element → Except Fault α) (parent : Option Element) :
    Directory α :=
  let get (name : String) : Except Fault α :=
    match parent with
    | none => .error (.absent "find")
    | some p =>
      if Text.contains "'" name then .error .badName
      else
        match p.children.find? fun c => c.attribute? "Name" == some name with
        | some c => make c
        | none => .error (.missingKey (Text.quote (name ++ " not found")))
  { names := match parent with
      | none => .error (.absent "iterfind")
      | some p => p.children.mapM fun c => required c.attributes "Name"
    get
    walk := go get ((parent.map fun p => p.children.length).getD 0 + 1) 0 }
where
  /-- Looks up the numbers from `i` on, as names, until one fails. -/
  go {α : Type} (get : String → Except Fault α) : (fuel : Nat) → (i : Nat) → List α × Option Fault
    | 0, _ => ([], none)
    | fuel + 1, i =>
      match get (toString i) with
      | .ok a => let (rest, stop) := go get fuel (i + 1); (a :: rest, stop)
      | .error f => ([], some f)

/-- The description of a tag, in the language of the document if it has one. -/
def description (language : Option String) (tag : Element) : Attribute :=
  match tag.child? "Description" with
  | none => .empty
  | some d =>
    let spoken := match language with
      | none => some d
      | some l => d.children.find? fun c => c.attribute? "Lang" == some l
    match spoken with
    | none => .empty
    | some e =>
      match e.child? "CDATAContent" with
      | none => .missing
      | some t => .text t.content

/-- The first element of the decorated data of a tag. -/
def dataElement? (tag : Element) : Option Element :=
  ((tag.childrenNamed "Data").filter fun d => d.attribute? "Format" == some "Decorated")
    |>.flatMap (·.children) |>.head?

/-- A tag of a document. -/
def tagSource (language : Option String) (tag : Element) : Except Fault TagSource := do
  let kind ← required tag.attributes "TagType"
  if kind = "Alias" then
    return { description := description language tag, aliasFor := tag.attribute? "AliasFor" }
  else
    match dataElement? tag with
    | none => throw (.noData (tag.attributeD "Name" ""))
    | some data => return {
        dataType := match tag.attribute? "DataType" with
          | some t => .text t
          | none => .empty
        value := dataValue (tag.attributeD "DataType" "") data
        description := description language tag }

/-- A controller or program of a document: its tags and its element. -/
def scopeSource (language : Option String) (e : Element) : ScopeSource where
  tags := some (directory (tagSource language) (e.child? "Tags"))
  element := some e

/-- The document as a source of a project. -/
def source (d : Document) : ProjectSource where
  controller := scopeSource d.language d.controller
  programs := some (directory (fun e => .ok (scopeSource d.language e)) (d.controller.child? "Programs"))

/-- Opens a file as a document. -/
def opener : Opener := fun files path => (load files path).map source

end Document

end ControlLogic.Exchange
