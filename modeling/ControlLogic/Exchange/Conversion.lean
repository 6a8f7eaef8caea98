import ControlLogic.Catalog
import ControlLogic.Exchange.Document
import ControlLogic.Exchange.Generate
import ControlLogic.Exchange.Import
import ControlLogic.Project.Listing
import ControlLogic.StructuredText.Body

/-!
# Conversions of documents

A document made Structured Text, with an overlay if there is one, and made a document again.
-/

namespace ControlLogic.Exchange

/-- The Structured Text of a document in a file. -/
def structuredText (files : Files) (path : String) (overlay : Option String) :
    Except Fault String := do
  return (← load Document.opener files path overlay).listing

/-- The Structured Text of a document given by its text, in two parts: variables and logic.
What goes wrong is said in both. -/
def sectionsOfDocument (source : String) : String × String :=
  let text := String.ofList (Text.unifyLineEnds source.toList)
  match (Document.parse text).bind (·.source.project) with
  | .ok p => StructuredText.splitSections p.listing
  | .error f => let note := "// Error: " ++ f.message; (note, note)

/-- A document made Structured Text and from that a document again.  Here, other than in
reading a project, an overlay has to be there. -/
def roundTrip (files : Files) (path : String) (overlay : Option String) : Except Fault String := do
  let text ← structuredText files path overlay
  match overlay with
  | some o => let _ ← Overlay.load files o
  | none => pure ()
  return fileHeader ++ (← generateText text)

/-- A source of declarations and a source of statements, as one text. -/
def joinSections (vars logic : String) : String :=
  "VAR\n" ++ vars ++ "\nEND_VAR\n\n" ++ logic

/-- The catalogue entry of a tag of a source. -/
def catalogTag? (name : String) (t : TagSource) : Option Catalog.Tag :=
  let spoken (k : String) : Attribute → List (String × Json)
    | .missing => []
    | .empty => [(k, .null)]
    | .text s => [(k, .text s)]
  Catalog.tag? (.text name) (.object (spoken "data_type" t.dataType ++
    spoken "description" t.description ++
    match t.value with
    | .ok v => [("value", v)]
    | .error _ => []))

/-- The catalogue entries of the tags of the controller of a source, up to the first tag that
cannot be looked up. -/
def ProjectSource.catalogTags (s : ProjectSource) : List Catalog.Tag :=
  match s.controller.tags with
  | none => []
  | some d => d.leading.filterMap fun (name, t) => catalogTag? name t

/-- The names of the programs of a source, up to the first that cannot be looked up. -/
def ProjectSource.programNames (s : ProjectSource) : List String :=
  match s.programs with
  | none => []
  | some d => d.leading.map (·.1)

end ControlLogic.Exchange
