import ControlLogic.Project.Basic
import ControlLogic.Table
import ControlLogic.Text.Decimal

/-!
# Fidelity

How much of a project is found again in another: the share of its controller tags, data types
and programs that the other has under the same name and alike.  Where a name is repeated, its
last bearer counts.
-/

namespace ControlLogic.Project

/-- A part of a whole. -/
structure Share where
  part : Nat
  whole : Nat
  deriving DecidableEq

namespace Share

/-- The shares of two wholes, taken together. -/
def add (a b : Share) : Share := ⟨a.part + b.part, a.whole + b.whole⟩

/-- The share as a number; all of nothing counts as all. -/
def toFloat (s : Share) : Float :=
  if s.whole = 0 then 1 else s.part.toFloat / s.whole.toFloat

/-- The share with twelve places. -/
def text (s : Share) : String :=
  if s.whole = 0 then Text.Decimal.fixed 1 1 12 else Text.Decimal.fixed s.part s.whole 12

end Share

/-- What a tag goes by.  A tag without a name goes by no other's. -/
def Tag.key (t : Tag) : Bool × String := (t.named, t.name)

section

variable {α κ : Type} [DecidableEq κ]

/-- The things of a list by name, the last of each name. -/
def byName (name : α → κ) (l : List α) : Table κ α :=
  Table.ofList (l.map fun a => (name a, a))

/-- The share of the names of `l` that name alike things in `m`. -/
def share (name : α → κ) (alike : α → α → Bool) (l m : List α) : Share :=
  let t := byName name l
  let u := byName name m
  { part := (t.entries.filter fun (k, a) => (u.get? k).any (alike a)).length
    whole := t.size }

end

/-- The share of a project that is found again in another. -/
def fidelity (p q : Project) : Share :=
  let tags := share Tag.key (fun a b => a.dataType == b.dataType && a.scope == b.scope)
    p.controller.tags q.controller.tags
  let types := share (·.name) (fun a b => a.members.length == b.members.length)
    p.controller.dataTypes q.controller.dataTypes
  let programs := share (·.name) (fun a b => a.routines.length == b.routines.length)
    p.programs q.programs
  (tags.add types).add programs

/-- How many parts of each kind a project has. -/
structure Components where
  tags : Nat
  dataTypes : Nat
  functionBlocks : Nat
  programs : Nat
  routines : Nat
  deriving DecidableEq

/-- Counts the parts of a project. -/
def components (p : Project) : Components where
  tags := p.controller.tags.length
  dataTypes := p.controller.dataTypes.length
  functionBlocks := p.controller.functionBlocks.length
  programs := p.programs.length
  routines := p.routines.length

end ControlLogic.Project
