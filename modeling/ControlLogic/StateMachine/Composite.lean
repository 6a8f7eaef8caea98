import ControlLogic.StateMachine.Basic

/-!
# State machines of several controllers

Transitions of different machines are linked if both mention a tag that some controller
declares.
-/

namespace ControlLogic.StateMachine

/-- The words of a transition. -/
def Transition.words (t : Transition) : List String :=
  Text.ascending (((Text.Pattern.word.findAll t.guard) ++ (Text.Pattern.word.findAll t.action)).map
    fun m => String.ofList m.text)

/-- Whether two transitions both mention one of the tags. -/
def linked (tags : List String) (s t : Transition) : Bool :=
  !(Text.meet (Text.meet s.words t.words) tags).isEmpty

/-- Two transitions of different machines that are linked. -/
structure Link where
  first : String
  second : String
  firstTarget : String
  secondTarget : String

/-- The links from one machine to another. -/
def linksBetween (tags : List String) (a b : Machine) : List Link :=
  a.transitions.flatMap fun s => (b.transitions.filter (linked tags s)).map fun t =>
    ⟨a.name, b.name, s.target, t.target⟩

/-- The links among machines, from each to each other. -/
def links (tags : List String) (machines : List Machine) : List Link :=
  machines.zipIdx.flatMap fun (a, i) => machines.zipIdx.flatMap fun (b, j) =>
    if i = j then [] else linksBetween tags a b

/-- The machines of several controllers and what links them. -/
structure Composite where
  controllers : List String
  machines : List (Option Machine)
  tags : List String

/-- The links of a composite machine. -/
def Composite.links (c : Composite) : List Link :=
  StateMachine.links c.tags (c.machines.filterMap id)

/-- The composite machine of projects. -/
def composite (projects : List Project) : Except Fault Composite := do
  let machines ← projects.mapM (extract {})
  return { controllers := projects.map (·.controller.name)
           machines
           tags := Text.ascending (projects.flatMap fun p => p.controller.tags.map (·.name)) }

end ControlLogic.StateMachine
