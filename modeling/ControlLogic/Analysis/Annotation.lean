import ControlLogic.Analysis.Line
import ControlLogic.Project.Basic

/-!
# Annotations

Lines that mention a word of interest are marked with the event the word stands for.
-/

namespace ControlLogic.Analysis

/-- Something that a line may announce. -/
inductive Event where
  | shutdownTrigger
  | startTrigger
  | alarmCondition
  | permissiveCheck
  deriving DecidableEq

namespace Event

/-- All events, in the order in which they are looked for. -/
def all : List Event := [shutdownTrigger, startTrigger, alarmCondition, permissiveCheck]

/-- The name of an event. -/
def name : Event → String
  | shutdownTrigger => "shutdown_trigger"
  | startTrigger => "start_trigger"
  | alarmCondition => "alarm_condition"
  | permissiveCheck => "permissive_check"

/-- The words that announce an event. -/
def words : Event → List String
  | shutdownTrigger => ["hmi_plant.stop", "hmi_plant.shutdown", "emergency_stop"]
  | startTrigger => ["hmi_plant.start", "hmi_plant.run", "auto_start"]
  | alarmCondition => ["hmi_alarm", "fault", "trip", "high_level", "low_level"]
  | permissiveCheck => ["permissive", "safe", "ready", "enabled"]

/-- Whether a line announces an event. -/
def isIn (line : String) (e : Event) : Bool :=
  e.words.any fun w => Text.contains w (Text.lower line)

end Event

/-- A line with an event it announces. -/
structure Annotation where
  condition : String
  event : Event
  deriving DecidableEq

/-- The annotations of a text. -/
def annotations (content : String) : List Annotation :=
  (liveLines content).flatMap fun line =>
    (Event.all.filter (Event.isIn line)).map fun event => { condition := line, event }

/-- The annotations by routine, for the routines that have some. -/
def annotationTable (p : Project) : Table String (List Annotation) :=
  p.routines.foldl (fun t r =>
    match annotations r.text with
    | [] => t
    | notes => t.insert r.name notes) Table.empty

end ControlLogic.Analysis
