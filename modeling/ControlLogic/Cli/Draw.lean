import ControlLogic.Cli.Console
import ControlLogic.Json.Reader
import ControlLogic.StateMachine.Record

/-!
# The drawing command

Writes the drawing of the state machine in a report.
-/

namespace ControlLogic.Cli

/-- The state machine in a report, if there is one. -/
def machineOf? (report : Json) : Except Fault (Option Json) :=
  match report with
  | .record fields => .ok (Table.lookup "fsm" fields)
  | .list items => .ok (if items.any (·.isText "fsm") then some .null else none)
  | .text s => .ok (if Text.contains "fsm" s then some .null else none)
  | _ => .error .wrongKind

/-- Writes the drawing of the machine in the report at a path. -/
def drawMachine (input output : String) : Command Unit := do
  let report ← attempt (Json.parse (← attempt ((← currentFiles).read input)))
  match ← attempt (machineOf? report) with
  | none => say "❌ No FSM data found in JSON file"
  | some machine =>
    let target := Text.replace ".svg" ".dot" output
    writeText target (← attempt (StateMachine.drawingText machine))
    sayAll ["✅ DOT file written to: " ++ target,
      "⚠️ Graphviz not found. Install with: brew install graphviz",
      "You can manually run: dot -Tsvg " ++ target ++ " -o " ++ output]

/-- The drawing command, with its two paths. -/
def draw : List String → Command Unit
  | [input, output] => drawMachine input output
  | _ => refuse "Usage: python3 visualize_fsm.py <input_json> <output_svg>"

end ControlLogic.Cli
