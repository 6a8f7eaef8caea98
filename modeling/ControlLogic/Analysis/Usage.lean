import ControlLogic.Analysis.Line
import ControlLogic.Analysis.Reference
import ControlLogic.Fault
import ControlLogic.Project.Basic

/-!
# Use of tags

Which tags a routine reads and which it writes.  A line with one assignment sign writes the
tag on its left and reads those on its right; a line without one that begins with `IF` reads
the tags of its condition.  A tag that is both read and written is internal to the routine.
-/

namespace ControlLogic.Analysis

/-- What one line writes. -/
def written (line : String) : List String :=
  match assignment? line with
  | some (left, _) => (target? left).toList
  | none => []

/-- What the right side of one line reads. -/
def readByAssignment (line : String) : List String :=
  match assignment? line with
  | some (_, right) => references right
  | none => []

/-- What one line reads. -/
def read (line : String) : List String :=
  if assigns line then readByAssignment line
  else match ifCondition? line with
    | some condition => references condition
    | none => []

/-- The tags that a routine reads, writes, and both. -/
structure Usage where
  inputs : List String := []
  outputs : List String := []
  internal : List String := []

/-- The use of tags in a text. -/
def usage (content : String) : Usage :=
  let lines := liveLines content
  let inputs := Text.ascending (lines.flatMap read)
  let outputs := Text.ascending (lines.flatMap written)
  let internal := Text.meet inputs outputs
  { inputs := Text.minus inputs internal, outputs := Text.minus outputs internal, internal }

/-! ## Accounts of the flow of control

An account that came with a routine is a record from outside; it is followed as far as it has
the expected form. -/

/-- The parts of a value that is gone through: the items of a list, the keys of a record, the
characters of a text. -/
def walk : Json → Except Fault (List Json)
  | .list items => .ok items
  | .record fields => .ok (fields.map fun (k, _) => .text k)
  | .text s => .ok (s.toList.map fun c => .text (String.ofList [c]))
  | _ => .error .wrongKind

/-- The references in a value that should be a text. -/
def referencesOf : Json → Except Fault (List String)
  | .text s => .ok (references s)
  | _ => .error .wrongKind

/-- The fields of a value that should be a record. -/
def fieldsOf : Json → Except Fault (List (String × Json))
  | .record fields => .ok fields
  | _ => .error .noAttribute

/-- The tags in the condition and in the actions of an entry. -/
def entryUsage (entry : Json) : Except Fault (List String × List String) := do
  let fields ← fieldsOf entry
  if !((Table.lookup "type" fields).getD .null).isText "branch" then return ([], [])
  let condition := (Table.lookup "condition" fields).getD (.text "")
  let inputs ← if condition.isTruthy && !condition.isText "else" then referencesOf condition
    else .ok []
  let actions ← walk ((Table.lookup "actions" fields).getD (.list []))
  let outputs ← actions.mapM referencesOf
  return (inputs, outputs.flatten)

/-- The use of tags in an account of the flow of control. -/
def flowUsage (flow : Json) : Except Fault Usage := do
  let fields ← fieldsOf flow
  if !((Table.lookup "type" fields).getD .null).isText "structured_text" then return {}
  let entries ← walk ((Table.lookup "control_flow" fields).getD (.list []))
  let parts ← entries.mapM entryUsage
  return { inputs := Text.ascending (parts.flatMap (·.1)),
           outputs := Text.ascending (parts.flatMap (·.2)) }

/-! ## Projects -/

/-- The use of tags in a routine, its account of the flow of control included. -/
def routineUsage (r : Project.Routine) : Except Fault Usage := do
  let own := usage r.text
  match r.controlFlow with
  | some flow =>
    if flow.isTruthy then
      let more ← flowUsage flow
      return { own with inputs := Text.union own.inputs more.inputs,
                        outputs := Text.union own.outputs more.outputs }
    else return own
  | none => return own

/-- The use of tags by routine. -/
def tagSummary (p : Project) : Except Fault (Table String Usage) :=
  p.routines.foldlM (fun t r => do return t.insert r.name (← routineUsage r)) Table.empty

/-- A tag that one routine writes and another reads. -/
structure Dependency where
  writer : String
  reader : String
  tag : String
  deriving DecidableEq

/-- The names of the routines under each tag that `f` gives for a routine. -/
def routinesByTag (p : Project) (f : Usage → List String) : Table String (List String) :=
  p.routines.foldl (fun t r => (f (usage r.text)).foldl
    (fun t tag => t.alter tag [] (· ++ [r.name])) t) Table.empty

/-- The dependencies between different routines. -/
def dependencies (p : Project) : List Dependency :=
  let writers := routinesByTag p (·.outputs)
  let readers := routinesByTag p (·.inputs)
  (Text.ascending (Text.meet writers.keys readers.keys)).flatMap fun tag =>
    (writers.getD tag []).flatMap fun writer =>
      ((readers.getD tag []).filter (writer != ·)).map fun reader => { writer, reader, tag }

end ControlLogic.Analysis
