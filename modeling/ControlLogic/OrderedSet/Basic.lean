import ControlLogic.Fault

/-!
# Ordered sets

A set that remembers the order in which its elements came in, so that every element has a
position.  The elements stand in a list, and a second list gives the position of each, so
that the position of an element is found without counting.
-/

namespace ControlLogic

/-- Elements in order of insertion, with their positions. -/
structure OrderedSet (α : Type) where
  items : List α
  positions : List (α × Nat)

namespace OrderedSet

variable {α : Type}

/-- The set without elements. -/
def empty : OrderedSet α := ⟨[], []⟩

instance : Inhabited (OrderedSet α) := ⟨empty⟩

/-- The number of elements. -/
def size (s : OrderedSet α) : Nat := s.items.length

variable [BEq α]

/-- The position of `k`. -/
def position? (s : OrderedSet α) (k : α) : Option Nat :=
  (s.positions.find? (·.1 == k)).map (·.2)

/-- Whether `k` is an element. -/
def contains (s : OrderedSet α) (k : α) : Bool := (s.position? k).isSome

/-- Puts `k` last unless it is an element, and gives its position either way. -/
def add (s : OrderedSet α) (k : α) : OrderedSet α × Nat :=
  match s.position? k with
  | some i => (s, i)
  | none => (⟨s.items ++ [k], s.positions ++ [(k, s.items.length)]⟩, s.items.length)

/-- Adds elements in order; `last` is the position of the element added before them. -/
def updateFrom (last : Option Nat) : OrderedSet α → List α → OrderedSet α × Option Nat
  | s, [] => (s, last)
  | s, k :: rest => updateFrom (some (s.add k).2) (s.add k).1 rest

/-- Adds elements in order, and gives the position of the last one. -/
def update (s : OrderedSet α) (l : List α) : OrderedSet α × Option Nat := updateFrom none s l

/-- The set of the elements of a list. -/
def ofList (l : List α) : OrderedSet α := (empty.update l).1

/-- Takes `k` out; the elements after it move up. -/
def discard (s : OrderedSet α) (k : α) : OrderedSet α :=
  match s.position? k with
  | none => s
  | some i =>
    ⟨s.items.eraseIdx i, (s.positions.filter fun e => !(e.1 == k)).map fun (e, j) =>
      (e, if i ≤ j then j - 1 else j)⟩

/-- Takes the last element out. -/
def pop? (s : OrderedSet α) : Option (α × OrderedSet α) :=
  match s.items.getLast? with
  | none => none
  | some k => some (k, ⟨s.items.dropLast, s.positions.filter fun e => !(e.1 == k)⟩)

/-- Takes the last element out of a set that has one. -/
def pop (s : OrderedSet α) : Except Fault (α × OrderedSet α) :=
  match s.pop? with
  | some r => .ok r
  | none => .error (.missingKey (Text.quote "Set is empty"))

omit [BEq α] in
/-- Takes all elements out. -/
def clear (_ : OrderedSet α) : OrderedSet α := empty

/-- A set with the same elements. -/
def copy (s : OrderedSet α) : OrderedSet α := ofList s.items

/-! ## Saved states -/

/-- What is kept of a set; an empty set is kept as a list with one gap. -/
def state (s : OrderedSet α) : List (Option α) :=
  match s.items with
  | [] => [none]
  | l => l.map some

/-- The set of a saved state. -/
def restore : List (Option α) → OrderedSet α
  | [none] => empty
  | l => ofList (l.filterMap id)

/-! ## Operations on two sets -/

/-- The elements of either set. -/
def union (s t : OrderedSet α) : OrderedSet α := ofList (s.items ++ t.items)

/-- The elements of `t` that are in `s`. -/
def inter (s t : OrderedSet α) : OrderedSet α := ofList (t.items.filter s.contains)

/-- The elements of `s` that are not in `t`. -/
def diff (s t : OrderedSet α) : OrderedSet α := ofList (s.items.filter fun k => !t.contains k)

/-- The elements of exactly one of the sets. -/
def symmDiff (s t : OrderedSet α) : OrderedSet α := (s.diff t).union (t.diff s)

/-! ## Positions -/

omit [BEq α] in
/-- The element at a position; a negative one counts from the end. -/
def at? (s : OrderedSet α) (i : Int) : Option α :=
  let i := if i < 0 then i + s.items.length else i
  if i < 0 then none else s.items[i.toNat]?

/-- The positions from `start` to `stop` by `step`, in a list of `n` elements.  Missing ends
are those of the list in the direction of the step, and negative ones count from the end. -/
def stretch (n : Nat) (start stop : Option Int) (step : Int) : List Nat :=
  let clamp (lo hi i : Int) : Int := max lo (min hi (if i < 0 then i + n else i))
  if 0 < step then
    let a := (start.map (clamp 0 n)).getD 0
    let b := (stop.map (clamp 0 n)).getD n
    let count := if a < b then (b - a - 1) / step + 1 else 0
    (List.range count.toNat).map fun i : Nat => (a + i * step).toNat
  else
    let a := (start.map (clamp (-1) (n - 1))).getD (n - 1)
    let b := (stop.map (clamp (-1) (n - 1))).getD (-1)
    let count := if b < a then (a - b - 1) / (-step) + 1 else 0
    (List.range count.toNat).map fun i : Nat => (a + i * step).toNat

/-- The elements at a stretch of positions. -/
def slice (s : OrderedSet α) (start stop : Option Int) (step : Int) : OrderedSet α :=
  ofList ((stretch s.items.length start stop step).filterMap (s.items[·]?))

end OrderedSet

end ControlLogic
