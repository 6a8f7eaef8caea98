import ControlLogic.Analysis.Drawing
import ControlLogic.Analysis.Report
import ControlLogic.Ladder.Code
import ControlLogic.Overlay.Apply
import ControlLogic.Sample.Project
import ControlLogic.Source.Cpp

/-!
# Volumes

How much comes out of a sample.  The volume of rungs is the length of their Structured Text,
taken rung by rung.  The volume of a source is that of what is read from it.
The volumes of projects are the lengths of what the analyses write, together with the numbers of
their findings.
-/

namespace ControlLogic.Sample

/-! ## Ladder -/

/-- The instructions that act and need operands. -/
def outputNames : List String :=
  ["COP", "CLR", "GSV", "JSR", "MOV", "MSG", "MUL", "OTE", "OTL", "OTU", "SSV", "TON", "TOF",
    "TONR", "RES", "CTU", "CTD", "CTUD", "ADD", "SUB", "DIV", "MOD", "SQR", "ABS", "OSR", "OSF",
    "RTRIG", "FTRIG", "BTD", "DTB", "FRD", "TOD"]

/-- For each such instruction a rung with the instruction alone and without operands; its code
is the remark on the missing operands. -/
def bareRungs : List String := outputNames.map (· ++ "();")

/-- The length of the code of rungs. -/
def volume (rungs : List String) : Nat :=
  Analysis.total (rungs.map fun r => (Ladder.rungText r).length)

/-- The volume of `n` sample rungs and of the rungs without operands. -/
def ladderVolume (n : Nat) : Nat := volume (rungs n ++ bareRungs)

/-! ## Sources -/

/-- A value for each way of suggesting a type. -/
def values : List String := ["true", "1", "1.5", "\"a\"", "a"]

/-- The length of the names of the types that the values suggest. -/
def suggestionVolume : Nat :=
  Analysis.total (values.map fun v => (Source.Cpp.suggestedType v).length)

/-- The number of tags of a project and the length of its code. -/
def readingVolume (p : Project) : Nat :=
  p.controller.tags.length +
    Analysis.total (p.routines.map fun r => (r.content.getD "").length)

/-- The volume of a program of `n` steps that is read twice, with the types of the values for
every five steps. -/
def cppVolume (n : Nat) : Nat :=
  2 * readingVolume (Source.Cpp.project "sample.cpp" (cpp n)) + oneIn 5 n * suggestionVolume

/-! ## Projects -/

/-- The length of the accounts of the flow of control of all routines. -/
def flowVolume (p : Project) : Except Fault Nat := do
  return Analysis.total ((← p.routines.mapM Analysis.controlFlow).map (·.toJson.literal.length))

/-- The number of entries in the record of the interactions: the interactions themselves, and
the figures that sum them up. -/
def interactionEntries (p : Project) : Except Fault Nat := do
  let record := Analysis.interactionsJson (← Analysis.interactions p)
  return (record.itemsAt "interactions").length + (record.fieldsAt "summary").length

/-- The volume of the analyses of a project with `n` tags, or one, and `n` routines. -/
def analysisVolume (n : Nat) : Except Fault Nat := do
  let p ← project "PLC" (max 1 n) n
  return (← flowVolume p) + (← interactionEntries p) + (← Analysis.tagSummary p).size +
    (Analysis.annotationTable p).size + (Analysis.flowGraphs p).size

/-- The volume of the drawings of a project with `n` tags and a routine for every four of them,
but no fewer than four.  The tags, the routines and those among them with a flow graph, the
interactions and the annotations count as well. -/
def drawingVolume (n : Nat) : Except Fault Nat := do
  let p ← project "PLC" n (max 4 (n / 4))
  return Analysis.total ((Analysis.drawing p).texts.map (·.2.length)) + p.controller.tags.length +
    p.routines.length + (Analysis.flowGraphs p).size + (← Analysis.interactions p).length +
    Analysis.totalItems (Analysis.annotationTable p)

/-- The sample overlay of `n` tags. -/
def sampleOverlay (n : Nat) : Overlay := .ofText "sample.L5K" (overlay n)

/-- The volume of an overlay of `n` tags: its tags and programs, and the tags, tasks and modules
of a project after it.  The project has a tag of its own for every five of the overlay, but no
fewer than three, and has had an overlay of one tag before. -/
def overlayVolume (n : Nat) : Except Fault Nat := do
  let base ← project "PLC" (max 3 (n / 5)) 1
  let o := sampleOverlay n
  let p := o.apply ((sampleOverlay 1).apply base)
  return o.tags.length + o.programs.length + p.controller.tags.length + p.tasks.length +
    p.modules.length

end ControlLogic.Sample
