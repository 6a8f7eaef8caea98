import ControlLogic.Fault
import ControlLogic.Json.Basic
import ControlLogic.Markup.Element
import ControlLogic.Text.Blank
import ControlLogic.Text.Numeral

/-!
# Decorated data

The value of a tag as a document spells it out: numbers in attributes, structures as members
with names, arrays as cells with indices.  An array is known by the name of its element, all
else by the data type.
-/

namespace ControlLogic.Exchange

open Markup

/-- How the data of a type are written. -/
inductive Form where
  | whole
  | real
  | structured
  deriving DecidableEq

/-- The form of a data type. -/
def Form.ofType (type : String) : Form :=
  if ["SINT", "INT", "DINT", "BOOL"].contains type then .whole
  else if type = "REAL" then .real
  else .structured

/-- The attribute `k` of an element, which has to be there. -/
def required (attributes : Table String String) (k : String) : Except Fault String :=
  match attributes.get? k with
  | some v => .ok v
  | none => .error (.missingKey (Text.quote k))

/-- A number in the attribute `Value`. -/
def numberValue (real : Bool) (attributes : Table String String) : Except Fault Json := do
  let v ← required attributes "Value"
  if real then
    match Text.readReal? v with
    | some x => .ok (.real x.toFloat)
    | none => .error .badNumeral
  else
    match Text.readInt? v with
    | some n => .ok (.int n)
    | none => .error .badNumeral

/-- The sizes of an array, the most significant first. -/
def arraySizes (attributes : Table String String) : Except Fault (List Nat) := do
  let sizes ← required attributes "Dimensions"
  (Text.split ',' sizes).mapM fun d => match Text.readInt? d with
    | some n => .ok n.toNat
    | none => .error .badNumeral

/-- The written form of the indices of a cell. -/
def cellIndex (indices : List Nat) : String :=
  "[" ++ Text.join "," (indices.map toString) ++ "]"

/-- The cell with the given indices. -/
def cell (cells : List (Option String × Except Fault Json)) (indices : List Nat) :
    Except Fault Json :=
  match cells.find? fun c => c.1 == some (cellIndex indices) with
  | some c => c.2
  | none => .error (.missingKey (Text.quote (cellIndex indices)))

/-- The cells of an array, row within row. -/
def rows (cells : List (Option String × Except Fault Json)) :
    (outer : List Nat) → (sizes : List Nat) → Except Fault Json
  | outer, [] => cell cells outer
  | outer, size :: inner => do
    let items ← (List.range size).mapM fun i => rows cells (outer ++ [i]) inner
    return .list items

mutual

/-- The value of a data element, of the data type `type`. -/
def dataValue (type : String) : Element → Except Fault Json
  | ⟨tag, attributes, _, children, _⟩ =>
    if Text.startsWith "Array" tag then do
      let cellType ← required attributes "DataType"
      let sizes ← arraySizes attributes
      rows (cells (Form.ofType cellType) children) [] sizes
    else
      match Form.ofType type with
      | .whole => numberValue false attributes
      | .real => numberValue true attributes
      | .structured => do
        let fields ← members children
        return .record (Table.ofList fields).entries

/-- The members of a structure, each by its own data type. -/
def members : List Element → Except Fault (List (String × Json))
  | [] => .ok []
  | ⟨tag, attributes, text, children, tail⟩ :: rest => do
    let name ← required attributes "Name"
    let type ← required attributes "DataType"
    let value ← dataValue type ⟨tag, attributes, text, children, tail⟩
    let others ← members rest
    return (name, value) :: others

/-- The cells of an array, by their written index. -/
def cells (form : Form) : List Element → List (Option String × Except Fault Json)
  | [] => []
  | ⟨_, attributes, _, children, _⟩ :: rest =>
    let value := match form with
      | .whole => numberValue false attributes
      | .real => numberValue true attributes
      | .structured => innerStructure children
    (attributes.get? "Index", value) :: cells form rest

/-- The structure inside the cell of an array. -/
def innerStructure : List Element → Except Fault Json
  | [] => .error .noAttribute
  | ⟨tag, _, _, children, _⟩ :: rest =>
    if tag = "Structure" then do
      let fields ← members children
      return .record (Table.ofList fields).entries
    else innerStructure rest

end

end ControlLogic.Exchange
