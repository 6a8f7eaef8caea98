import ControlLogic.Analysis.Report
import ControlLogic.Text.Expression

/-!
# Queries

An index of a project, and the questions it answers.  Under each name it holds the tag declared
last; under each initial part of a name, cut at underscores and in lower case, all tags that
have it.
-/

namespace ControlLogic.Analysis

/-- The tags of the controller and then those of the programs. -/
def allTags (p : Project) : List Project.Tag :=
  p.controller.tags ++ p.programs.flatMap (·.tags)

/-- The beginnings of a name that end before an underscore or at its end. -/
def beginnings (name : String) : List String :=
  let parts := Text.split '_' name
  (List.range parts.length).map fun i => Text.join "_" (parts.take (i + 1))

/-- A project with the tables that questions are answered from. -/
structure Index where
  project : Project
  tags : Table String Project.Tag
  byBeginning : Table String (List Project.Tag)
  routines : Table String Project.Routine

namespace Index

/-- The tags under each beginning of their names. -/
def beginningTable (tags : List Project.Tag) : Table String (List Project.Tag) :=
  tags.foldl (fun t tag => (beginnings tag.name).foldl
    (fun t b => t.alter (Text.lower b) [] (· ++ [tag])) t) Table.empty

/-- The index of a project whose tags all have names. -/
def ofProject (p : Project) : Except Fault Index :=
  if (allTags p).all (·.named) then
    .ok { project := p
          tags := Table.ofList ((allTags p).map fun t => (t.name, t))
          byBeginning := beginningTable (allTags p)
          routines := Table.ofList (p.programs.flatMap fun q => q.routines.flatMap fun r =>
            [(q.name ++ "." ++ r.name, r), (r.name, r)]) }
  else .error (.absent "split")

/-- The first tag of each name. -/
def firstOfEach : (seen : List String) → List Project.Tag → List Project.Tag
  | _, [] => []
  | seen, t :: rest =>
    if seen.contains t.name then firstOfEach seen rest
    else t :: firstOfEach (t.name :: seen) rest

/-- The tags whose names begin with a text, case aside. -/
def tagsBeginning (x : Index) (text : String) : List Project.Tag :=
  let lowered := Text.lower text
  firstOfEach [] ((x.byBeginning.entries.filter fun (b, _) => Text.startsWith lowered b).flatMap (·.2))

/-- The tags of a data type. -/
def tagsOfType (x : Index) (dataType : String) : List Project.Tag :=
  (allTags x.project).filter (·.dataType == dataType)

/-- The tags of a scope. -/
def tagsOfScope (x : Index) (scope : Project.Scope) : List Project.Tag :=
  (allTags x.project).filter (·.scope == scope)

/-- The tag of a name. -/
def tag? (x : Index) (name : String) : Option Project.Tag := x.tags.get? name

/-- The last item with a name. -/
def lastNamed {α : Type} (f : α → String) (name : String) (l : List α) : Option α :=
  l.reverse.find? (f · == name)

/-- The program of a name. -/
def program? (x : Index) (name : String) : Option Project.Program :=
  lastNamed (·.name) name x.project.programs

/-- The data type of a name. -/
def dataType? (x : Index) (name : String) : Option Project.DataType :=
  lastNamed (·.name) name x.project.controller.dataTypes

/-- The function block of a name. -/
def functionBlock? (x : Index) (name : String) : Option Project.FunctionBlock :=
  lastNamed (·.name) name x.project.controller.functionBlocks

/-- The routine of a name, in a program if one is named. -/
def routine? (x : Index) (name : String) (program : String := "") : Option Project.Routine :=
  x.routines.get? (if Text.isEmpty program then name else program ++ "." ++ name)

/-- The flow of control of a routine. -/
def controlFlowOf (x : Index) (name : String) (program : String := "") :
    Except Fault (Option ControlFlow) :=
  match x.routine? name program with
  | some r => (controlFlow r).map some
  | none => .ok none

/-- The programs that mention a tag. -/
def mentionedBy (x : Index) (name : String) : Except Fault (List String) := do
  return (← mentions x.project).getD name []

/-- The tags whose names match a search expression. -/
def search (x : Index) (expression : String) (exact : Bool := false) :
    Except Fault (List Project.Tag) :=
  match Text.Expression.read? exact expression with
  | some p => .ok (x.tags.values.filter fun t => p.occursIn t.name)
  | none => .error .badExpression

/-! ## Mentions in texts -/

/-- The lines around each mention of a name, up to `reach` lines away and at most ten in
all. -/
def context (content name : String) (reach : Nat := 2) : List String :=
  let lines := Text.split '\n' content
  let around := lines.zipIdx.filterMap fun (line, i) =>
    if Text.contains (Text.lower name) (Text.lower line) then
      some ((lines.take (i + reach + 1)).drop (i - reach)) else none
  around.flatten.take 10

/-- The routines of each program that mention a name. -/
def crossReferences (x : Index) (name : String) :
    Except Fault (List (String × List Project.Routine)) :=
  if x.project.routines.all (·.content.isSome) then
    .ok ((x.project.programs.map fun q => (q.name, q.routines.filter fun r =>
      Text.contains (Text.lower name) (Text.lower r.text))).filter (!·.2.isEmpty))
  else .error (.absent "lower")

/-- Where a tag is used. -/
structure TagUse where
  readers : List String
  writers : List String
  routines : List String
  programs : List String

/-- Where a tag is used: a routine writes it if its name stands before an assignment sign. -/
def tagUse (x : Index) (name : String) : TagUse :=
  let places := (x.project.programs.flatMap fun q => q.routines.map (q.name, ·)).filter
    fun (_, r) => !Text.isEmpty r.text && Text.contains name r.text
  let writes (r : Project.Routine) := Text.contains (name ++ " :=") r.text
  { readers := Text.ascending ((places.filter fun q => !writes q.2).map (·.2.name))
    writers := Text.ascending ((places.filter fun q => writes q.2).map (·.2.name))
    routines := Text.ascending (places.map (·.2.name))
    programs := Text.ascending (places.map (·.1)) }

/-! ## Counts -/

/-- How often each text occurs. -/
def tally (l : List String) : Table String Nat :=
  l.foldl (fun t s => t.alter s 0 (· + 1)) Table.empty

/-- The record of counts. -/
def tallyJson (l : List String) : Json := .ofTable .nat (tally l)

/-- The record of a project's size. -/
def summaryJson (x : Index) : Json :=
  let p := x.project
  let named (l : List String) := Json.record [("count", .nat l.length), ("names", .texts l)]
  .record [
    ("controller", .record [("name", .text p.controller.name),
      ("description", .optText p.controller.description)]),
    ("tags", .record [("controller_tags", .nat p.controller.tags.length),
      ("program_tags", .nat (total (p.programs.map (·.tags.length)))),
      ("total_tags", .nat x.tags.size)]),
    ("programs", named (p.programs.map (·.name))),
    ("routines", .record [("count", .nat p.routines.length),
      ("by_type", tallyJson (p.routines.map (·.language.name)))]),
    ("data_types", named (p.controller.dataTypes.map (·.name))),
    ("function_blocks", named (p.controller.functionBlocks.map (·.name)))]

/-- The part of a name before its first underscore. -/
def family (name : String) : String := (Text.split '_' name).headD ""

/-- The record of the counts of tags. -/
def statisticsJson (x : Index) : Json :=
  let tags := x.tags.values
  .record [("by_scope", tallyJson (tags.map (·.scope.name))),
    ("by_type", tallyJson (tags.map (·.dataType))),
    ("by_prefix", tallyJson ((tags.filter (!Text.isEmpty ·.name)).map (family ·.name)))]

/-! ## Records -/

/-- The record of the programs that mention a tag. -/
def mentionedByJson (x : Index) (name : String) : Except Fault Json := do
  return .record [("tag_name", .text name), ("referenced_by", .texts (← x.mentionedBy name)),
    ("tag_info", ((x.tag? name).map (·.toJson)).getD .null)]

/-- The record of the routines that mention a name. -/
def crossReferencesJson (x : Index) (name : String) : Except Fault Json := do
  let routine (r : Project.Routine) := Json.record [("routine_name", .text r.name),
    ("references", .list [.record [("routine_name", .text r.name),
      ("routine_type", .text r.language.name),
      ("content_snippet", .texts (context r.text name))]])]
  return .record [("tag_name", .text name),
    ("programs", .list ((← x.crossReferences name).map fun (program, l) =>
      .record [("program_name", .text program), ("routines", .list (l.map routine))])),
    ("routines", .list [])]

/-- The record of where a tag is used. -/
def tagUseJson (x : Index) (name : String) : Json :=
  let u := x.tagUse name
  .record [("tag_name", .text name), ("readers", .texts u.readers), ("writers", .texts u.writers),
    ("routines", .texts u.routines), ("programs", .texts u.programs)]

end Index

end ControlLogic.Analysis
