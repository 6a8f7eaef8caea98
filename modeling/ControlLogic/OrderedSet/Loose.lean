import ControlLogic.Fault
import ControlLogic.OrderedSet.Basic
import ControlLogic.Text.Basic
import ControlLogic.Text.Decimal
import ControlLogic.Text.Quoted

/-!
# Ordered sets of loosely typed values

Values of several kinds as elements.  Lists and records change over time and so cannot be
elements; texts, lists, tuples, records and ranges can be gone through.  A truth value equals
the number one or zero, and numbers of any kind are equal when their exact values are.

Texts and tuples are looked up as one key.  Lists, records and ranges stand for the keys they
hold, though a range does not change and so may be an element as well.
-/

namespace ControlLogic

/-- A value of any kind. -/
inductive Loose where
  | null
  | bool (b : Bool)
  | int (n : Int)
  | real (x : Float)
  | text (s : String)
  | tuple (items : List Loose)
  | list (items : List Loose)
  | record (keys : List String)
  /-- The whole numbers below a bound. -/
  | range (stop : Nat)

namespace Loose

instance : Inhabited Loose := ⟨null⟩

/-- The number of a value that counts as a whole number. -/
def int? : Loose → Option Int
  | bool b => some (if b then 1 else 0)
  | int n => some n
  | _ => none

end Loose

/-- The exact value of a number. -/
inductive Amount where
  | finite (value : Rat)
  | infinite (negative : Bool)
  /-- No number; there is one such value, which equals itself. -/
  | undefined
  deriving DecidableEq

/-- The exact value of a floating point number. -/
def Amount.ofFloat (x : Float) : Amount :=
  let bits := x.toBits.toNat
  let negative : Bool := bits / Nat.pow 2 63 == 1
  let field : Nat := bits / Nat.pow 2 52 % Nat.pow 2 11
  let fraction : Nat := bits % Nat.pow 2 52
  if field == 2047 then
    if fraction == 0 then .infinite negative else .undefined
  else
    let (num, den) :=
      if field == 0 then Text.Decimal.scaleTwo fraction (-1074)
      else Text.Decimal.scaleTwo (Nat.pow 2 52 + fraction) ((field : Int) - 1075)
    .finite (mkRat (if negative then -num else num) den)

namespace Loose

/-- The exact value of a value that counts as a number. -/
def amount? : Loose → Option Amount
  | bool b => some (.finite (if b then 1 else 0))
  | int n => some (.finite n)
  | real x => some (.ofFloat x)
  | _ => none

mutual

/-- Whether two values count as equal. -/
def same : Loose → Loose → Bool
  | null, null => true
  | text a, text b => a == b
  | tuple a, tuple b => sameAll a b
  | list a, list b => sameAll a b
  | record a, record b => a == b
  | range a, range b => a == b
  | a, b => match a.amount?, b.amount? with
    | some m, some n => m == n
    | _, _ => false

/-- Whether two lists of values count as equal. -/
def sameAll : List Loose → List Loose → Bool
  | [], [] => true
  | a :: as, b :: bs => same a b && sameAll as bs
  | _, _ => false

end

instance : BEq Loose := ⟨same⟩

mutual

/-- Whether a value can be an element of a set. -/
def isStable : Loose → Bool
  | list _ => false
  | record _ => false
  | tuple items => allStable items
  | _ => true

/-- Whether all values of a list can be elements of a set. -/
def allStable : List Loose → Bool
  | [] => true
  | a :: rest => isStable a && allStable rest

end

mutual

/-- The literal of a value. -/
def literal : Loose → String
  | null => "None"
  | bool b => if b then "True" else "False"
  | int n => toString n
  | real x => Text.Decimal.shortest x
  | text s => Text.quote s
  | tuple [a] => "(" ++ literal a ++ ",)"
  | tuple items => "(" ++ Text.join ", " (literals items) ++ ")"
  | list items => "[" ++ Text.join ", " (literals items) ++ "]"
  | record keys => "\x7b" ++ Text.join ", " (keys.map Text.quote) ++ "\x7d"
  | range stop => "range(0, " ++ toString stop ++ ")"

/-- The literals of values. -/
def literals : List Loose → List String
  | [] => []
  | a :: rest => literal a :: literals rest

end

/-- The name of the kind of a value. -/
def kindName : Loose → String
  | null => "NoneType"
  | bool _ => "bool"
  | int _ => "int"
  | real _ => "float"
  | text _ => "str"
  | tuple _ => "tuple"
  | list _ => "list"
  | record _ => "dict"
  | range _ => "range"

/-- The elements of a value that can be gone through. -/
def elements? : Loose → Option (List Loose)
  | text s => some (s.toList.map fun c => text (String.singleton c))
  | tuple items => some items
  | list items => some items
  | record keys => some (keys.map text)
  | range stop => some ((List.range stop).map fun i : Nat => int i)
  | _ => none

/-- Whether a value stands for several keys and not for one. -/
def isCollection : Loose → Bool
  | list _ => true
  | record _ => true
  | range _ => true
  | _ => false

end Loose

namespace OrderedSet

/-- A value as an element. -/
def asKey (v : Loose) : Except Fault Loose :=
  if v.isStable then .ok v else .error .wrongKind

/-- The elements of a value. -/
def asElements (v : Loose) : Except Fault (List Loose) :=
  match v.elements? with
  | some l => .ok l
  | none => .error .wrongKind

/-- Adds the elements of a value up to the first that cannot be an element, which is a fault. -/
def updateWith (s : OrderedSet Loose) (v : Loose) : OrderedSet Loose × Except Fault (Option Nat) :=
  match v.elements? with
  | none => (s, .error (.notIterable v.kindName))
  | some l =>
    let (t, last) := s.update (l.takeWhile Loose.isStable)
    (t, if l.all Loose.isStable then .ok last else .error (.notIterable v.kindName))

/-- The position of a key. -/
def indexOf (s : OrderedSet Loose) (k : Loose) : Except Fault Nat := do
  let k ← asKey k
  match s.position? k with
  | some i => .ok i
  | none => .error (.missingKey k.literal)

mutual

/-- The position of a key, or the positions of all keys of a collection. -/
def positionsOf (s : OrderedSet Loose) : Loose → Except Fault Loose
  | .list items => return .list (← positionsOfAll s items)
  | .record keys => return .list (← keys.mapM fun k => return .int (← s.indexOf (.text k)))
  | .range stop => return .list (← (List.range stop).mapM fun i : Nat =>
      return .int (← s.indexOf (.int i)))
  | k => return .int (← s.indexOf k)

/-- The positions of keys. -/
def positionsOfAll (s : OrderedSet Loose) : List Loose → Except Fault (List Loose)
  | [] => .ok []
  | k :: rest => return (← positionsOf s k) :: (← positionsOfAll s rest)

end

/-- The element at a position given as a value. -/
def itemAt (s : OrderedSet Loose) (i : Loose) : Except Fault Loose :=
  match i.int? with
  | none => .error .wrongKind
  | some i =>
    match s.at? i with
    | some v => .ok v
    | none => .error .indexOutOfRange

/-- The element at a position, or the set of those at several. -/
def lookup (s : OrderedSet Loose) (i : Loose) : Except Fault Loose :=
  if i.isCollection then do
    let l ← (i.elements?.getD []).mapM s.itemAt
    return .list (ofList l).items
  else s.itemAt i

/-- Takes out an element that must be there. -/
def remove (s : OrderedSet Loose) (k : Loose) : Except Fault (OrderedSet Loose) := do
  let k ← asKey k
  if s.contains k then .ok (s.discard k) else .error (.missingKey k.literal)

/-- Whether the set has the elements of a value, in any order. -/
def equals (s : OrderedSet Loose) (v : Loose) : Bool :=
  match v.elements? with
  | none => false
  | some l => l.all Loose.isStable && l.all s.contains && s.items.all fun k => l.any (· == k)

/-- Whether no value of a list is in the set. -/
def disjointFrom (s : OrderedSet Loose) : List Loose → Except Fault Bool
  | [] => .ok true
  | k :: rest => do
    let k ← asKey k
    if s.contains k then .ok false else disjointFrom s rest

/-- Whether no element of a value is in the set. -/
def disjoint (s : OrderedSet Loose) (v : Loose) : Except Fault Bool := do
  s.disjointFrom (← asElements v)

/-- The literal of a set. -/
def literal (s : OrderedSet Loose) : String :=
  match s.items with
  | [] => "OrderedSet()"
  | l => "OrderedSet(" ++ (Loose.list l).literal ++ ")"

end OrderedSet

end ControlLogic
