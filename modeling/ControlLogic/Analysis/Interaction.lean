import ControlLogic.Fault
import ControlLogic.Project.Basic
import ControlLogic.Text.Case
import ControlLogic.Text.Sorted

/-!
# Interactions

Which programs mention which tags, and which tags programs have in common with each other and
with the controller.  A tag counts as mentioned if its name occurs in the text of a routine,
case aside.  Declaring a tag again forgets who mentioned it before.
-/

namespace ControlLogic.Analysis

/-- The programs that mention each tag. -/
abbrev Mentions := Table String (List String)

/-- The mentions after tags are declared. -/
def Mentions.declare (m : Mentions) (tags : List Project.Tag) : Mentions :=
  tags.foldl (fun m t => m.insert t.name []) m

/-- The mentions after a text of a program. -/
def Mentions.note (m : Mentions) (program content : String) : Mentions :=
  let lowered := Text.lower content
  ⟨m.entries.map fun (tag, programs) =>
    (tag, if Text.contains (Text.lower tag) lowered then Text.union programs [program]
      else programs)⟩

/-- The tags that a program declares. -/
def declared (p : Project.Program) : List Project.Tag := p.tags ++ p.localVariables

/-- The mentions after one more program. -/
def Mentions.program (m : Mentions) (p : Project.Program) : Mentions :=
  p.routines.foldl (fun m r => m.note p.name r.text) (m.declare (declared p))

/-- Whether the texts of a project can be searched: every routine up to the last has a text,
and every tag known by then has a name. -/
def searchable (p : Project) : Bool :=
  (p.programs.foldl (fun (known, ok) q =>
    let known := known ++ declared q
    (known, ok && (q.routines.isEmpty || known.all (·.named)) &&
      q.routines.all (·.content.isSome))) (p.controller.tags, true)).2

/-- The programs that mention each tag of a project. -/
def mentions (p : Project) : Except Fault Mentions :=
  if searchable p then
    .ok (p.programs.foldl Mentions.program (Mentions.declare Table.empty p.controller.tags))
  else .error (.absent "lower")

/-- The names of the tags of each program. -/
def programTags (p : Project) : Table String (List String) :=
  p.programs.foldl (fun t q => t.insert q.name (Text.ascending ((declared q).map (·.name))))
    Table.empty

/-- How the two ends of an interaction are related. -/
inductive Relation where
  | crossProgram
  | programToController
  deriving DecidableEq

/-- The name of a relation. -/
def Relation.name : Relation → String
  | crossProgram => "cross_program"
  | programToController => "program_to_controller"

/-- Tags that two ends have in common. -/
structure Interaction where
  source : String
  target : String
  via : List String
  relation : Relation

/-- The interactions of a project. -/
def interactions (p : Project) : Except Fault (List Interaction) := do
  let _ ← mentions p
  let owned := programTags p
  let place (name : String) := p.controller.name ++ "." ++ name
  let between := p.programs.flatMap fun a =>
    (p.programs.filter (a.name != ·.name)).filterMap fun b =>
      match Text.meet (owned.getD a.name []) (owned.getD b.name []) with
      | [] => none
      | via => some ⟨place a.name, place b.name, via, .crossProgram⟩
  let global := p.controller.tags.map (·.name)
  let toController := p.programs.filterMap fun a =>
    match Text.meet (owned.getD a.name []) global with
    | [] => none
    | via => some ⟨place a.name, p.controller.name, via, .programToController⟩
  return between ++ toController

/-- The record of an interaction. -/
def Interaction.toJson (i : Interaction) : Json :=
  .record [("source", .text i.source), ("target", .text i.target), ("via", .texts i.via),
    ("type", .text i.relation.name)]

/-- The record of all interactions. -/
def interactionsJson (l : List Interaction) : Json :=
  let count (r : Relation) := Json.nat (l.filter (·.relation == r)).length
  .record [("interactions", .list (l.map Interaction.toJson)),
    ("summary", .record [("total_interactions", .nat l.length),
      ("cross_program_interactions", count .crossProgram),
      ("program_controller_interactions", count .programToController)])]

end ControlLogic.Analysis
