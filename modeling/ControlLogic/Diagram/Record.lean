import ControlLogic.Diagram.Code
import ControlLogic.Json.Basic

/-!
# Readings of diagrams as records
-/

namespace ControlLogic.Diagram

/-- The record of a block; its outputs are not read. -/
def Block.toJson (b : Block) : Json :=
  .record [("name", .text b.name), ("operand", .text b.operand),
    ("inputs", .ofTable .text b.arguments), ("outputs", .record []),
    ("visible_pins", .texts b.pins)]

/-- The record of a wire. -/
def Wire.toJson (w : Wire) : Json :=
  .record [("from_id", .text w.source), ("to_id", .text w.target),
    ("from_param", .optText w.sourcePin), ("to_param", .optText w.targetPin)]

/-- The record of a reading: its code, its order, and the network that was read. -/
def Reading.toJson (r : Reading) : Json :=
  .record [("st", .text r.text), ("order", .texts r.order),
    ("inputs", .ofTable .text r.network.inputs), ("outputs", .ofTable .text r.network.outputs),
    ("blocks", .ofTable Block.toJson r.network.blocks),
    ("wires", .list (r.network.wires.map Wire.toJson))]

end ControlLogic.Diagram
