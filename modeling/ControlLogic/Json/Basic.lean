import ControlLogic.Table
import ControlLogic.Text.Basic
import ControlLogic.Text.Decimal
import ControlLogic.Text.Quoted

/-!
# Json values

The values of the report files, with the fields of a record in order.  `display` is the text
of a value inside other text: a text stands as it is, everything else as a literal.
-/

namespace ControlLogic

/-- A value of a report. -/
inductive Json where
  | null
  | bool (b : Bool)
  | int (n : Int)
  | real (x : Float)
  | text (s : String)
  | list (items : List Json)
  | record (fields : List (String × Json))

namespace Json

instance : Inhabited Json := ⟨null⟩

/-- A natural number. -/
def nat (n : Nat) : Json := int n

/-- A list of texts. -/
def texts (l : List String) : Json := list (l.map text)

/-- A text or nothing. -/
def optText : Option String → Json
  | some s => text s
  | none => null

/-- A record made from a table. -/
def ofTable {β : Type} (f : β → Json) (t : Table String β) : Json :=
  record (t.entries.map fun (k, v) => (k, f v))

/-- The field `k` of a record. -/
def field? (k : String) : Json → Option Json
  | record fields => Table.lookup k fields
  | _ => none

/-- The text of a text value. -/
def text? : Json → Option String
  | text s => some s
  | _ => none

/-- Whether a value is the text `s`. -/
def isText (s : String) : Json → Bool
  | text t => t == s
  | _ => false

/-- The items of a list. -/
def items : Json → List Json
  | list l => l
  | _ => []

/-- The fields of a record. -/
def fields : Json → List (String × Json)
  | record l => l
  | _ => []

/-! ## Fields of records -/

/-- The text of the field `k`, or `d`. -/
def textAt (j : Json) (k : String) (d : String := "") : String :=
  match j.field? k with
  | some (text s) => s
  | _ => d

/-- The items of the list in the field `k`. -/
def itemsAt (j : Json) (k : String) : List Json := ((j.field? k).getD null).items

/-- The fields of the record in the field `k`. -/
def fieldsAt (j : Json) (k : String) : List (String × Json) := ((j.field? k).getD null).fields

/-- A record of the fields that hold something. -/
def compact (fields : List (String × Json)) : Json :=
  record (fields.filter fun (_, v) => match v with
    | null => false
    | _ => true)

/-! ## Truth -/

/-- Whether a value counts as present: not null, false, zero or empty. -/
def isTruthy : Json → Bool
  | null => false
  | bool b => b
  | int n => n != 0
  | real x => x != 0.0
  | text s => !Text.isEmpty s
  | list l => !l.isEmpty
  | record l => !l.isEmpty

/-! ## Literals -/

mutual

/-- The literal of a value. -/
def literal : Json → String
  | null => "None"
  | bool b => if b then "True" else "False"
  | int n => toString n
  | real x => Text.Decimal.shortest x
  | text s => Text.quote s
  | list l => "[" ++ Text.join ", " (literals l) ++ "]"
  | record l => "\x7b" ++ Text.join ", " (literalFields l) ++ "\x7d"

/-- The literals of the items of a list. -/
def literals : List Json → List String
  | [] => []
  | j :: rest => literal j :: literals rest

/-- The literals of the fields of a record. -/
def literalFields : List (String × Json) → List String
  | [] => []
  | (k, v) :: rest => (Text.quote k ++ ": " ++ literal v) :: literalFields rest

end

/-- A text as it is, any other value as its literal. -/
def display : Json → String
  | text s => s
  | j => literal j

/-- The field `k` as text, if it holds something. -/
def optTextAt (j : Json) (k : String) : Option String :=
  match j.field? k with
  | none | some null => none
  | some v => some v.display

/-- The whole numbers in the field `k`, if it holds a list. -/
def optIntsAt (j : Json) (k : String) : Option (List Int) :=
  match j.field? k with
  | some (list l) => some (l.filterMap fun
    | int n => some n
    | _ => none)
  | _ => none

/-- Whether the field `k` counts as present, or `d` if it is not there. -/
def flagAt (j : Json) (k : String) (d : Bool) : Bool :=
  match j.field? k with
  | some v => v.isTruthy
  | none => d

/-- A list of whole numbers, or nothing. -/
def optInts : Option (List Int) → Json
  | some l => list (l.map int)
  | none => null

end Json

end ControlLogic
