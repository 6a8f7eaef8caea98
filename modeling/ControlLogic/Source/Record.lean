import ControlLogic.Source.Cpp
import ControlLogic.Source.Lad
import ControlLogic.Source.OpenPlc
import ControlLogic.Source.Scl

/-!
# Parts of sources as records
-/

namespace ControlLogic.Source

/-- The record of a variable. -/
def OpenPlc.Variable.toJson (v : OpenPlc.Variable) : Json :=
  .compact [("name", .text v.name), ("data_type", .text v.dataType),
    ("initial_value", .optText v.initialValue), ("scope", .text v.block)]

/-- The record of a unit. -/
def OpenPlc.Unit.toJson (u : OpenPlc.Unit) : Json :=
  .compact [("name", .text u.name), ("content", .text u.content), ("type", .text "ST"),
    ("language", .text "ST"), ("return_type", .optText u.returnType)]

/-- The record of a variable. -/
def Scl.Variable.toJson (v : Scl.Variable) : Json :=
  .compact [("name", .optText v.name), ("data_type", .text v.dataType), ("scope", .text v.place),
    ("description", .optText v.description), ("address", .optText v.address)]

/-- The record of a unit. -/
def Scl.Unit.toJson (u : Scl.Unit) : Json :=
  .record [("name", .text u.name), ("routine_type", .text "ST"), ("content", .text u.content),
    ("description", .text u.description)]

/-- The record of a point. -/
def Cpp.Point.toJson (p : Cpp.Point) : Json :=
  .compact [("name", .text p.name), ("tag_type", .text p.role.name), ("data_type", .text p.dataType),
    ("description", .text p.description), ("initial_value", .optText p.initialValue)]

/-- The record of an instruction. -/
def Cpp.Instruction.toJson (i : Cpp.Instruction) : Json :=
  .record [("instruction_type", .text i.kind), ("content", .text i.content),
    ("line_number", .nat i.line), ("description", .text i.description)]

/-- The record of a block. -/
def Lad.Block.toJson (b : Lad.Block) : Json :=
  .record [("id", .text b.id), ("type", .text b.type), ("inputs", .texts ["IN"]),
    ("outputs", .texts ["OUT"]), ("language", .text b.language)]

/-- The record of a connection. -/
def Lad.Connection.toJson (c : Lad.Connection) : Json :=
  .record [("from_block", .text c.source), ("from_pin", .text "OUT"), ("to_block", .text c.target),
    ("to_pin", .text "IN")]

end ControlLogic.Source
