import ControlLogic.Text.Basic

/-!
# Standard declarations

The structures and functions that every generated file declares, and the configuration at its
end.
-/

namespace ControlLogic.Legacy

/-- The structure of a bit with a set that wins over its reset. -/
def dominantSet : String :=
  Text.join "\n" [
    "TYPE  DOMINANT_SET :",
    "    STRUCT",
    "        EnableIn: BOOL;",
    "        Set : BOOL;",
    "        Reset: BOOL;",
    "        EnableOut : BOOL;",
    "        Out : BOOL;",
    "        OutNot : BOOL;",
    "    END_STRUCT;",
    "END_TYPE"]

/-- The structure of a message. -/
def messageStruct : String :=
  Text.join "\n" [
    "TYPE MESSAGE:",
    "    STRUCT",
    "        FLAGS : INT;",
    "        ERR: INT;",
    "        EXERR: INT;",
    "        REQ_LEN: INT;",
    "        DN_LEN: INT;",
    "        EW: BOOL;",
    "        ER: BOOL;",
    "        DN: BOOL;",
    "        ST: BOOL;",
    "        EN1: BOOL;",
    "        TO1: BOOL;",
    "        EN_CC: BOOL;",
    "        ERR_SRC: SINT;",
    "        DestinationLink: INT;",
    "        DestinationNode: INT;",
    "        SourceLink: INT;",
    "        Class: INT;",
    "        Attribute: INT;",
    "        Instance: DINT;",
    "        LocalIndex: DINT;",
    "        Channel: SINT;",
    "        Rack: SINT;",
    "        Group: SINT;",
    "        Slot: SINT;",
    "        Path: STRING;",
    "        RemoteIndex: DINT;",
    "        RemoteElement: STRING;",
    "        UnconnectedTimeOut: DINT;",
    "        ConnectionRate: DINT;",
    "        TimeoutMultiplier: SINT;",
    "        ConnectedFlag: UINT;",
    "        Description: STRING;",
    "        MessageType: STRING;",
    "        LocalElement: STRING;",
    "        AttributeNumber: UINT;",
    "        LargePacketUsage: BOOL;",
    "        TargetObject: STRING;",
    "        CommTypeCode: USINT;",
    "        RequestedLength: INT;",
    "        ConnectionPath: STRING;",
    "        CacheConnections: BOOL;",
    "        DestinationTag: STRING;",
    "        ObjectType: UINT;",
    "        ServiceCode : UINT;",
    "    END_STRUCT;",
    "END_TYPE"]

/-- Sets or resets a bit, setting first. -/
def setDominant : String :=
  Text.join "\n" [
    "FUNCTION SETD : BOOL",
    "    VAR_INPUT",
    "        SD : DOMINANT_SET;",
    "    END_VAR",
    "    SETD := SD.Out;",
    "    IF SD.EnableIn THEN",
    "        IF SD.Set THEN",
    "            SETD:= 1;",
    "        ELSE",
    "            IF SD.Reset THEN",
    "                SETD := 0;",
    "            END_IF;",
    "        END_IF;",
    "    END_IF;",
    "END_FUNCTION"]

/-- Scales a raw value. -/
def scaleFunction : String :=
  Text.join "\n" [
    "FUNCTION SCL: SCALE",
    "    VAR_INPUT",
    "        scale1  :  SCALE ;",
    "    END_VAR",
    "    SCL := scale1;",
    "    SCL.Out := (scale1.In -scale1.InRawMin) * ((scale1.InEUMax - scale1.InEUMin)/(scale1.InRawMax - scale1.InRawMin)) + scale1.InEUMin;",
    "END_FUNCTION"]

/-- Raises and clears the four limit alarms. -/
def alarmFunction : String :=
  Text.join "\n" [
    "FUNCTION ALM: ALARM",
    "    VAR_INPUT",
    "        alm1  :  ALARM ;",
    "    END_VAR",
    "    ALM := alm1;",
    "",
    "    (* High-high to Low-low Alarms*)",
    "    (*HHAlarm*)",
    "    IF (alm1.HHAlarm = FALSE) AND (alm1.In >= alm1.HHLimit) THEN",
    "        ALM.HHAlarm := TRUE;",
    "    ELSIF (alm1.HHAlarm = TRUE) AND (alm1.In < (alm1.HHLimit-alm1.Deadband)) THEN",
    "        ALM.HHAlarm := FALSE;",
    "    END_IF;",
    "",
    "    (*HAlarm*)",
    "    IF (alm1.HAlarm = FALSE) AND (alm1.In >= alm1.HLimit) THEN",
    "        ALM.HAlarm := TRUE;",
    "    ELSIF (alm1.HAlarm = TRUE) AND (alm1.In < (alm1.HLimit-alm1.Deadband)) THEN",
    "        ALM.HAlarm := FALSE;",
    "    END_IF;",
    "",
    "    (*LLAlarm*)",
    "    IF (alm1.LLAlarm = FALSE) AND (alm1.In <= alm1.LLLimit) THEN",
    "        ALM.LLAlarm := TRUE;",
    "    ELSIF (alm1.LLAlarm= TRUE) AND (alm1.In > (alm1.LLLimit+alm1.Deadband)) THEN",
    "        ALM.LLAlarm := FALSE;",
    "    END_IF;",
    "",
    "    (*LAlarm*)",
    "    IF (alm1.LAlarm = FALSE) AND (alm1.In <= alm1.LLimit) THEN",
    "        ALM.LAlarm := TRUE;",
    "    ELSIF (alm1.LAlarm = TRUE) AND (alm1.In > (alm1.LLimit+alm1.Deadband)) THEN",
    "        ALM.LAlarm := FALSE;",
    "    END_IF;",
    "    (*TODO: Implement ROC alarms*)",
    "END_FUNCTION"]

/-- Reacts to a rising bit. -/
def risingEdge : String :=
  Text.join "\n" [
    "FUNCTION OSRI :BOOL",
    "    VAR_INPUT    ",
    "        EnableIn  :  BOOL ;",
    "        InputBit  :  BOOL ;",
    "    END_VAR",
    "    OSRI := 0;",
    "    IF InputBit THEN",
    "        InputBit := 1;",
    "        OSRI := 1;",
    "    END_IF;",
    "END_FUNCTION"]

/-- Runs the state bits of a message. -/
def messageFunction : String :=
  Text.join "\n" [
    "(*The MSG instruction transfers elements of data.*)",
    "FUNCTION MSG: MESSAGE",
    "    VAR_INPUT",
    "        Msg1  :  MESSAGE ;",
    "    END_VAR",
    "    (*Clear the prescan bits*)",
    "    MSG := Msg1;",
    "    MSG.EW := 0;",
    "    MSG.ST := 0;",
    "    MSG.DN := 0;",
    "    MSG.ER := 0;",
    "",
    "    (*Main flow*)",
    "    IF MSG.EN1 = 1 OR (MSG.EW = 0 AND MSG.ST = 0) THEN",
    "        IF MSG.EN1 = 0 THEN",
    "            MSG.EW := 0;",
    "            MSG.ST := 0;",
    "            MSG.TO1 := 0;",
    "            MSG.DN := 0;",
    "            MSG.ER := 0;",
    "        END_IF;",
    "",
    "        IF MSG.EW = 0 AND MSG.ST = 0 AND MSG.DN = 0 AND MSG.ER = 0 THEN",
    "            (*TODO: implement block transfer command (BTC)*)",
    "            (*If BTC and (not (module path valid) OR not (module connection))*)",
    "            MSG.ER := 1;",
    "            (*ELSE*)",
    "            MSG.EW := 0;",
    "            MSG.ST := 0;",
    "            MSG.TO1 := 0;",
    "            MSG.DN := 0;",
    "            MSG.ER := 0;",
    "            MSG.EN1 := 1;",
    "            (*TODO: Execute message request*)",
    "            MSG.EW := 1;",
    "        END_IF;",
    "    (*ELSE, .EN1 bit = 0 AND (EW OR ST = 1)*)",
    "    ELSE",
    "        MSG.EN1 := 1;",
    "    END_IF;",
    "END_FUNCTION"]

/-- The standard structures, by name. -/
def standardStructs : List (String × String) :=
  [("DOMINANT_SET", dominantSet), ("MESSAGE", messageStruct)]

/-- The standard functions, by name and result. -/
def standardFunctions : List (String × String) :=
  [("SETD: BOOL", setDominant),
    ("SCL: SCALE", scaleFunction),
    ("ALM: ALARM", alarmFunction),
    ("OSRI: BOOL", risingEdge),
    ("MSG: MESSAGE", messageFunction)]

/-- The configuration that runs the program. -/
def configuration : String :=
  Text.join "\n" [
    "CONFIGURATION Config0",
    "    RESOURCE Res0 ON PLC",
    "        TASK Task1(INTERVAL := T#1s,PRIORITY := 0);",
    "        PROGRAM Inst0 WITH Task1 : prog0;",
    "    END_RESOURCE",
    "END_CONFIGURATION"]

end ControlLogic.Legacy
