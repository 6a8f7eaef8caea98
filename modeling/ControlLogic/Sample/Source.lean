import ControlLogic.Text.Basic

/-!
# Sample sources

Sources of any size in each of the languages, for trying out the readers.  The parts of a sample
follow templates in turn, each with its own number in it.
-/

namespace ControlLogic.Sample

/-- A template with a number in place of every percent sign. -/
def fill (template : String) (i : Nat) : String := Text.replace "%" (toString i) template

/-- The template whose turn it is. -/
def inTurn (templates : List String) (i : Nat) : String :=
  (templates.drop (i % templates.length)).headD ""

/-- The first `n` parts of templates taken in turn. -/
def turns (templates : List String) (n : Nat) : List String :=
  (List.range n).map fun i => fill (inTurn templates i) i

/-- The first `n` parts of one template. -/
def copies (template : String) (n : Nat) : List String := turns [template] n

/-- One for every `k` parts, and at least one. -/
def oneIn (k n : Nat) : Nat := max 1 (n / k)

/-! ## Ladder -/

/-- The templates of rungs: every instruction occurs. -/
def rungTemplates : List String :=
  ["XIC(Start_%)XIO(Stop_%)OTE(Motor_%);", "[XIC(A_%),XIC(B_%)]OTL(Latch_%);",
    "EQU(Level_%,50)MOV(100,SP_%);", "NEQ(Mode_%,0)JSR(Sub_%);",
    "GRT(Temp_%,Max_%)TON(Tmr_%,5000);", "GEQ(Flow_%,Lo_%)CTU(Cnt_%,10,Rst_%);",
    "LES(Pres_%,Min_%)CTD(DCnt_%,5,Rst_%);", "LEQ(Lvl_%,0)CTUD(UD_%,3,Up_%,Dn_%);",
    "XIC(Run_%)ADD(A_%,B_%,C_%);", "XIC(Run_%)SUB(A_%,B_%,C_%);", "XIC(Run_%)MUL(A_%,B_%,C_%);",
    "XIC(Run_%)DIV(A_%,B_%,C_%);", "XIC(Run_%)MOD(A_%,B_%,C_%);", "XIC(Run_%)SQR(A_%,B_%);",
    "XIC(Run_%)ABS(A_%,B_%);", "XIC(Run_%)COP(Src_%,Dst_%,4);", "XIC(Run_%)CLR(Var_%);",
    "XIC(Go_%)TOF(Tmr_%,1000);", "XIC(Go_%)TONR(Tmr_%,2000);", "XIC(Go_%)RES(Tmr_%);",
    "XIC(Go_%)OSR(Bit_%,Out_%);", "XIC(Go_%)OSF(Bit_%,Out_%);", "XIC(Go_%)RTRIG(Edge_%);",
    "XIC(Go_%)FTRIG(Edge_%);", "XIC(Go_%)BTD(Src_%,Dst_%);", "XIC(Go_%)DTB(Src_%,Dst_%);",
    "XIC(Go_%)FRD(Src_%,Dst_%);", "XIC(Go_%)TOD(Src_%,Dst_%);", "NOP();",
    "XIC(Go_%)MSG(MsgBlock_%);", "XIC(Go_%)OTU(Flag_%);", "GSV(Module,Local,EntryStatus,Stat_%);",
    "XIC(Go_%)SSV(Module,Local,Mode,Val_%);", "XIC(Go_%)UNKNOWN_%(p1,p2);",
    "[XIC(A_%)EQU(X_%,1),XIO(B_%)]XIC(C_%)OTE(D_%);"]

/-- `n` rungs. -/
def rungs (n : Nat) : List String := turns rungTemplates n

/-! ## Structured Text -/

/-- A program with `n` variables, each set in a branch of its own. -/
def structuredText (n : Nat) : String :=
  Text.join "\n" (["VAR"] ++
    turns (["BOOL", "INT", "REAL", "DINT"].map fun t => "    TANK_VAR_% : " ++ t ++ " := 0;") n ++
    ["END_VAR", "VAR_INPUT", "    IN_SENSOR_0 : REAL;", "END_VAR", "VAR_OUTPUT",
      "    OUT_PUMP_0 : BOOL;", "END_VAR", "VAR_GLOBAL", "    GLOBAL_FLAG : BOOL;", "END_VAR",
      "PROGRAM TankControl"] ++
    copies ("    IF IN_SENSOR_0 > 50.0 THEN\n        OUT_PUMP_0 := TRUE;\n" ++
      "        TANK_VAR_% := IN_SENSOR_0;\n    ELSE\n        OUT_PUMP_0 := FALSE;\n" ++
      "    END_IF;") n ++
    ["END_PROGRAM", "FUNCTION Helper : BOOL", "    Helper := TRUE;", "END_FUNCTION"])

/-! ## SCL -/

/-- A data type. -/
def sclType : String :=
  "TYPE \"UDT_%\"\nVERSION : 0.1\n   STRUCT\n      field_a : Int;\n" ++
    "      field_b : \"NestedType\";\n      field_c : Bool[4];\n   END_STRUCT\nEND_TYPE\n\n"

/-- A data block. -/
def sclData : String :=
  "DATA_BLOCK \"DB_%\"\nTITLE = block %\n\x7b S7 := TRUE \x7d\nVERSION : 0.1\nNON_RETAIN\n" ++
    "   STRUCT\n      value : Real;\n      flag : Bool;\n      nested : \"UDT_%\";\n" ++
    "   END_STRUCT\nBEGIN\nEND_DATA_BLOCK\n\n"

/-- A function block and a function. -/
def sclBlocks : String :=
  "FUNCTION_BLOCK \"FB_%\"\nVERSION : 0.1\nVAR_INPUT\n   inp : Int;\n   arr : Real[8];\n" ++
    "END_VAR\nVAR_OUTPUT\n   outp : Bool;\nEND_VAR\nVAR_TEMP\n   t : Int;\nEND_VAR\nBEGIN\n" ++
    "   IF inp > % THEN outp := TRUE; END_IF;\nEND_FUNCTION_BLOCK\n\n" ++
    "FUNCTION \"FC_%\" : Int\nVERSION : 0.1\nVAR_INPUT\n   x : Int;\nEND_VAR\nBEGIN\n" ++
    "   FC_% := x + %;\nEND_FUNCTION\n\n"

/-- The organization block. -/
def sclMain : String :=
  "ORGANIZATION_BLOCK \"Main\"\nVERSION : 0.1\nVAR\n   counter : Int;\n   status : Bool;\n" ++
    "END_VAR\nBEGIN\n   counter := counter + 1;\n" ++
    "   IF counter > 100 THEN status := TRUE; END_IF;\nEND_ORGANIZATION_BLOCK\n"

/-- A source with `n` function blocks and functions, and a data type and a data block for every
three of them. -/
def scl (n : Nat) : String :=
  String.join (copies sclType (oneIn 3 n) ++ copies sclData (oneIn 3 n) ++ copies sclBlocks n ++
    [sclMain])

/-! ## C++ -/

/-- The templates of control statements. -/
def cppTemplates : List String :=
  ["if (isSwitchPressed(SWITCH_%)) \x7b", "    setMotorLeft();", "    setSpeed(%);",
    "    int counter_% = %;", "    bool flag_% = true;", "    std::string msg_% = \"hello\";",
    "    setMotorOff();", "    std::this_thread::sleep_for(std::chrono::milliseconds(%));",
    "    pT->pTArea->ftX1out.duty[0] = %;", "\x7d"]

/-- A control program of `n` statements, each followed by a reading, a ratio and a change of
state. -/
def cpp (n : Nat) : String :=
  Text.join "\n" (turns (cppTemplates.map (· ++
    "\nwhile (get_input(CH_%)) \x7b set_output(OUT_%, 1); \x7d\nfloat ratio_% = %.5;\n" ++
    "FSM_TRANSITION(STATE_%, color=green);")) n)

/-! ## Overlays -/

/-- The templates of tags. -/
def overlayTags : List String :=
  ["    SENSOR_% : REAL (RADIX := Float, Description := \"Sensor %\", " ++
      "ExternalAccess := \"Read Only\") := %.5;",
    "    ARR_% : DINT[4,2] (RADIX := Decimal) := [0,0,0,0];",
    "    FLAG_% : BOOL (RADIX := Decimal, CONSTANT) := FALSE;",
    "    ALIAS_% : DINT (ALIAS_FOR := \"Other_%\");", "    VALVE_% : BOOL := TRUE;"]

/-- A task, continuous and periodic in turn. -/
def overlayTask (i : Nat) : String :=
  fill "TASK Task_% (Type := " i ++ inTurn ["CONTINUOUS", "PERIODIC"] i ++ ", Priority := " ++
    toString (5 + i) ++ ", Watchdog := " ++ toString (500 + i) ++ inTurn ["", ", Rate := 100"] i ++
    fill ")\n    Prog_%;\nEND_TASK" i

/-- An overlay with `n` tags, and a task, a program and a module for every twenty of them. -/
def overlay (n : Nat) : String :=
  let k := oneIn 20 n
  Text.join "\n" (["CONTROLLER TestCtrl (", ")", "TAG"] ++ turns overlayTags n ++ ["END_TAG"] ++
    (List.range k).map overlayTask ++
    copies ("PROGRAM Prog_% (MAIN := \"MainRoutine\", TASK := \"Task_%\")\n" ++
      "    ROUTINE MainRoutine END_ROUTINE\nEND_PROGRAM") k ++
    turns (["LocalENBT", "RIO_Rack"].map fun name => "MODULE " ++ name ++
      "_% (Parent := \"Local\", CatalogNumber := \"1756-EN2T\", Slot := %, Major := 5)\n" ++
      "END_MODULE") k ++ ["END_CONTROLLER"])

end ControlLogic.Sample
