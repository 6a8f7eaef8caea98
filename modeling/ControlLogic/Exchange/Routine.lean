import ControlLogic.Diagram.Code
import ControlLogic.Ladder.Code
import ControlLogic.Markup.Writer
import ControlLogic.Project.Basic
import ControlLogic.Text.Case

/-!
# Contents of routines

The program text of a routine element.  The rungs of a ladder are made Structured Text, lines
of Structured Text are taken over, and a diagram is kept as markup where a document holds one.
-/

namespace ControlLogic.Exchange

open Markup

/-- The language that a type of routine names. -/
def languageOf (type : String) : Project.Language :=
  let t := Text.upper type
  if t = "RLL" || t = "LADDER" then .rll
  else if t = "FBD" then .fbd
  else if t = "SFC" then .sfc
  else .st

/-- The code of the rungs of a ladder, whose text stands in an attribute.  Rungs outside the
content of the ladder count only where there is no such content. -/
def ladderLines (routine : Element) : List String :=
  let rungs := ((routine.descendant? "RLLContent").getD routine).descendantsNamed "Rung"
  rungs.filterMap fun r =>
    let text := r.attributeD "Text" ""
    if Text.isEmpty text then none else some (Ladder.rungText text)

/-- The text without blanks at its ends, if anything is left. -/
def bareText? (text : Option String) : Option String :=
  (text.map Text.strip).filter (!Text.isEmpty ·)

/-- The text of the first character section below an element, if it is not empty. -/
def sectionText? (e : Element) : Option String := (e.descendant? "CDATAContent").bind (·.text?)

/-- The lines of a routine whose markup holds plain text. -/
def plainLines (routine : Element) : List String :=
  match routine.descendant? "STContent" with
  | some content => (content.descendantsNamed "Line").filterMap fun l => bareText? l.text
  | none => ((routine.descendantsNamed "Text").filterMap sectionText?).map Text.strip

/-- The text of a line of a document: of its character section, else its own, else that of its
first child with any. -/
def lineText? (line : Element) : Option String :=
  match sectionText? line, line.text? with
  | some t, _ => bareText? (some t)
  | none, some t => bareText? (some t)
  | none, none => line.children.findSome? fun c => bareText? c.text

/-- The lines of a routine of a document. -/
def documentLines (routine : Element) : List String :=
  match routine.descendant? "STContent" with
  | some content => (content.descendantsNamed "Line").filterMap lineText?
  | none => (routine.descendantsNamed "Text").filterMap fun t =>
      ((sectionText? t).or t.text?).map Text.strip

/-- The content of a routine that is given on its own. -/
def plainContent (language : Project.Language) (routine : Element) : String :=
  match language with
  | .rll => Text.join "\n" (ladderLines routine)
  | .fbd => Diagram.code routine
  | _ => Text.join "\n" (plainLines routine)

/-- The content of a routine of a document. -/
def documentContent (language : Project.Language) (routine : Element) : String :=
  match language with
  | .rll => Text.join "\n" (ladderLines routine)
  | .fbd =>
    match routine.descendant? "FBDContent" with
    | some content => content.render
    | none => Diagram.code routine
  | _ => Text.join "\n" (documentLines routine)

/-- The routine that an element of a document describes. -/
def documentRoutine (e : Element) : Project.Routine :=
  let language := languageOf (e.attributeD "Type" "ST")
  { name := e.attributeD "Name" "Unknown"
    language
    content := some (documentContent language e) }

/-- The routines of a program of a document. -/
def documentRoutines (program : Element) : List Project.Routine :=
  match program.descendant? "Routines" with
  | some listed => (listed.descendantsNamed "Routine").map documentRoutine
  | none => []

end ControlLogic.Exchange
