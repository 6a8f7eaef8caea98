import ControlLogic.Fault
import ControlLogic.Project.Basic
import ControlLogic.Sample.Source

/-!
# Sample projects

An exchange document and a project of any size.  Routines speak of the tags in turn, so that
without tags there is no routine.
-/

namespace ControlLogic.Sample

/-- The number of the tag whose turn it is among `n`; there is a turn exactly if there is a tag. -/
def tagTurn (n i : Nat) : Except Fault Nat :=
  if n = 0 then .error .zeroModulus else .ok (i % n)

/-! ## Documents -/

/-- A tag of a document. -/
def documentTag (name type : String) : String :=
  "<Tag Name=\"" ++ name ++ "\" TagType=\"Base\" DataType=\"" ++ type ++
    "\" Radix=\"Decimal\"><Data Format=\"Decorated\"><DataValue DataType=\"" ++ type ++
    "\" Radix=\"Decimal\" Value=\"0\"/></Data></Tag>"

/-- What stands before the tags of a document. -/
def documentHead : String :=
  "<?xml version=\"1.0\" encoding=\"UTF-8\"?>\n" ++
  "<RSLogix5000Content SchemaRevision=\"1.0\" SoftwareRevision=\"20.01\" TargetName=\"Bench\" " ++
  "TargetType=\"Controller\"><Controller Name=\"BenchCtrl\" ProcessorType=\"1756-L71\">" ++
  "<DataTypes><DataType Name=\"MyUDT\" Use=\"User\" Family=\"STRUCT\"><Members>" ++
  "<Member Name=\"A\" DataType=\"BOOL\" Radix=\"Decimal\"/>" ++
  "<Member Name=\"B\" DataType=\"DINT\" Radix=\"Decimal\"/></Members></DataType></DataTypes>" ++
  "<AddOnInstructionDefinitions><AddOnInstructionDefinition Name=\"MyAOI\" Description=\"desc\">" ++
  "<Parameters><Parameter Name=\"InP\" DataType=\"REAL\" Usage=\"Input\" Required=\"true\"/>" ++
  "<Parameter Name=\"OutP\" DataType=\"BOOL\" Usage=\"Output\" Required=\"true\"/>" ++
  "<Parameter Name=\"IOP\" DataType=\"DINT\" Usage=\"InOut\"/></Parameters><LocalTags>" ++
  "<LocalTag Name=\"Tmp\" DataType=\"DINT\"/></LocalTags><Routines><Routine Name=\"Logic\">" ++
  "<RLLContent/></Routine></Routines></AddOnInstructionDefinition></AddOnInstructionDefinitions>"

/-- The diagram of a document, and what stands after it. -/
def documentTail : String :=
  "<Routine Name=\"FBDRoutine\" Type=\"FBD\"><FBDContent><Sheet Number=\"1\">" ++
  "<IRef ID=\"10\" Operand=\"SRC\"/><ORef ID=\"11\" Operand=\"DST\"/>" ++
  "<AddOnInstruction ID=\"12\" Name=\"PID\" Operand=\"PID1\" VisiblePins=\"In Out\">" ++
  "<InOutParameter Name=\"Cfg\" Argument=\"CfgVal\"/></AddOnInstruction>" ++
  "<AddOnInstruction ID=\"13\" Name=\"SCL\" Operand=\"SCL1\" VisiblePins=\"In Out\"/>" ++
  "<Wire FromID=\"10\" ToID=\"12\" ToParam=\"In\"/>" ++
  "<Wire FromID=\"12\" ToID=\"13\" FromParam=\"Out\" ToParam=\"In\"/>" ++
  "<Wire FromID=\"13\" ToID=\"11\" FromParam=\"Out\"/></Sheet></FBDContent></Routine>" ++
  "<Routine Name=\"SFCRoutine\" Type=\"SFC\"><Text><![CDATA[STEP1;]]></Text></Routine>" ++
  "</Routines></Program></Programs><Modules></Modules></Controller></RSLogix5000Content>"

/-- A line of a document. -/
def documentLine (n i : Nat) : Except Fault String := do
  return fill "<Line Number=\"%\"><![CDATA[" i ++ fill "SENSOR_% := " (← tagTurn n i) ++
    fill "%;]]></Line>" i

/-- A rung of a document. -/
def documentRung (n i : Nat) : Except Fault String := do
  let text := fill "XIC(SENSOR_%)" (← tagTurn n i) ++ fill "OTE(VALVE_%);" i
  return fill "<Rung Number=\"%\" Type=\"N\" Text=\"" i ++ text ++ "\"><Text><![CDATA[" ++ text ++
    "]]></Text></Rung>"

/-- A document with `n` tags, `m` lines and `m` rungs. -/
def document (n m : Nat) : Except Fault String := do
  let lines ← (List.range m).mapM (documentLine n)
  let rungs ← (List.range m).mapM (documentRung n)
  let tags := turns (["REAL", "BOOL", "DINT", "INT"].map (documentTag "SENSOR_%")) n
  return documentHead ++ "<Tags>" ++ String.join tags ++
    "</Tags><Programs><Program Name=\"MainProgram\" MainRoutineName=\"Main\"><Tags>" ++
    documentTag "LOCAL_A" "DINT" ++
    "</Tags><Routines><Routine Name=\"Main\" Type=\"ST\"><STContent>" ++ String.join lines ++
    "</STContent></Routine><Routine Name=\"Ladder\" Type=\"RLL\"><RLLContent>" ++
    String.join rungs ++ "</RLLContent></Routine>" ++ documentTail

/-! ## Projects -/

open ControlLogic.Project

/-- A tag of the controller.  Every seventh is constant and every ninth an array. -/
def controllerTag (owner : String) (i : Nat) : Tag where
  name := owner ++ fill "_TAG_%" i
  dataType := inTurn ["BOOL", "REAL", "DINT", "INT"] i
  scope := .controller
  value := some (toString i)
  description := some (fill "tag %" i)
  externalAccess := some "ReadWrite"
  radix := some "Decimal"
  constant := i % 7 = 0
  arrayDimensions := if i % 9 = 0 then some [4] else none
  initialValue := some (toString i)

/-- A tag of a program. -/
def programTag (name : String) : Tag := { name, dataType := "BOOL", scope := .program }

/-- Statements with every kind of control, on four of `n` tags from the turn of `i` on. -/
def statements (owner : String) (n i : Nat) : Except Fault String := do
  let tag (j : Nat) : Except Fault String := do
    return owner ++ fill "_TAG_%" (← tagTurn n (i + j))
  let a ← tag 0
  return "IF " ++ a ++ " > 10 THEN\n    " ++ (← tag 1) ++ " := " ++ a ++
    " + 1;\nELSIF HMI_PLANT.STOP = 1 THEN\n    " ++ (← tag 2) ++
    " := 0;\nELSE\n    FAULT_FLAG := TRUE;\nEND_IF\nFOR J := 0 TO 3 DO\n    " ++ (← tag 3) ++
    " := J;\nEND_FOR\nWHILE " ++ a ++ " < 100 DO\n    " ++ a ++ " := " ++ a ++
    " + 1;\nEND_WHILE\n// comment line\n| A -- B |"

/-- The text of a routine in its language. -/
def routineContent (owner : String) (n i : Nat) : Language → Except Fault String
  | .rll => .ok "| START -- MOTOR |\n| STOP -- |"
  | .fbd => .ok ("<AddOnInstruction ID=\"1\" Name=\"PID\" Operand=\"PID1\" " ++
      "VisiblePins=\"In Out\"/><IRef ID=\"2\" Operand=\"SRC\"/>" ++
      "<Wire FromID=\"2\" ToID=\"1\" ToParam=\"In\"/>")
  | _ => statements owner n i

/-- The routine with a number, the languages in turn. -/
def routine (owner : String) (n i : Nat) : Except Fault Routine := do
  let language := match i % 4 with
    | 0 => Language.st
    | 1 => .rll
    | 2 => .fbd
    | _ => .sfc
  return {
    name := fill "R%" i
    language
    content := some (← routineContent owner n i language)
    description := some (fill "routine %" i)
    localVariables := [programTag (fill "LV%" i)]
    parameters := [{ name := "P", dataType := "INT", kind := "Input" }] }

/-- The data type of a project. -/
def dataType (owner : String) : DataType where
  name := owner ++ "_UDT_0"
  baseType := some "STRUCT"
  members := (List.range 3).map fun i => {
    name := fill "M%" i, dataType := "DINT", description := some "m", radix := some "Decimal"
    externalAccess := some "ReadOnly" }
  description := some "udt"

/-- The function block of a project. -/
def functionBlock (owner : String) : FunctionBlock where
  name := owner ++ "_FB_0"
  description := some "fb"
  parameters := [{ name := "In", dataType := "REAL", kind := "Input" },
    { name := "Out", dataType := "BOOL", kind := "Output" }]
  localVariables := [{ name := "Tmp", dataType := "DINT", kind := "Local" }]
  implementation := some "Out := In > 0.0;"

/-- A project with `n` tags and `m` routines, its names beginning with that of its owner. -/
def project (owner : String) (n m : Nat) : Except Fault Project := do
  let routines ← (List.range m).mapM (routine owner n)
  let aux ← statements owner n 0
  let named (part : String) := (copies part (oneIn 5 n)).map fun s => programTag (owner ++ s)
  return {
    controller := {
      name := owner ++ "_CTRL"
      tags := (List.range n).map (controllerTag owner)
      dataTypes := [dataType owner]
      functionBlocks := [functionBlock owner] }
    programs := [
      { name := "MainProgram", description := some "main prog", mainRoutine := some "R0", routines
        tags := named "_PTAG_%", localVariables := named "_LV_%" },
      { name := "AuxProgram", tags := [programTag (owner ++ "_PTAG_0")]
        routines := [{ name := "Aux", language := .st, content := some aux }] }]
    modules := [.record [("name", .text "Mod0"), ("type", .text "1756-EN2T"), ("slot", .int 0),
      ("configuration", .record [("IP", .text "10.0.0.1")])]]
    tasks := [.record [("name", .text "MainTask"), ("type", .text "CONTINUOUS"),
      ("priority", .int 10), ("watchdog", .int 500), ("interval", .text "T#10ms")]]
    sourceType := some "rockwell" }

end ControlLogic.Sample
