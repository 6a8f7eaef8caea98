import ControlLogic.Table
import ControlLogic.Text.Basic
import ControlLogic.Text.Word

/-!
# Arguments

Reading the arguments of a command against the switches it knows.  There are two readings.
`Form.read` takes a switch also by the beginning of its name, and its value only if it does not
look like a switch; `Form.readStrict` takes names in full and any value.  Only the outermost
layer knows of the second.

A short switch may have its value, or further short switches, attached to it; a long one may
have a value after an equals sign.
-/

namespace ControlLogic.Cli

/-- What a switch takes. -/
inductive Arity where
  | nothing
  | value
  /-- A value each time, all of which are kept. -/
  | values
  deriving DecidableEq

/-- A switch of a command. -/
structure Switch where
  /-- The name, without its dashes. -/
  name : String
  short : Option Char := none
  arity : Arity := .nothing
  required : Bool := false
  /-- The values to choose from, if there is a choice. -/
  choices : List String := []

/-- The switches of a command. -/
structure Form where
  command : String
  switches : List Switch
  /-- Names of switches of which exactly one has to be given. -/
  oneOf : List String := []

/-- The values given, by the names of switches; a switch without a value has one empty
value. -/
abbrev Given := Table String (List String)

namespace Given

/-- Whether a switch is given. -/
def has (g : Given) (name : String) : Bool := g.contains name

/-- The last value of a switch. -/
def value? (g : Given) (name : String) : Option String := (g.getD name []).getLast?

/-- The last value of a switch, or `d`. -/
def valueD (g : Given) (name d : String) : String := (g.value? name).getD d

/-- The values of a switch. -/
def values (g : Given) (name : String) : List String := g.getD name []

end Given

/-! ## Switches by name -/

/-- The switch that asks for help. -/
def helpSwitch : Switch := { name := "help", short := some 'h' }

/-- The names under which a switch can be given, each with the switch. -/
def Switch.spellings (s : Switch) : List (String × Switch) :=
  (s.short.map fun c => ("-" ++ String.ofList [c], s)).toList ++ [("--" ++ s.name, s)]

/-- The names under which the switches of a form can be given. -/
def Form.spellings (f : Form) : List (String × Switch) :=
  (helpSwitch :: f.switches).flatMap Switch.spellings

/-- The text before the first equals sign and the text after it, if there is one. -/
def cutAtEquals (s : String) : String × Option String :=
  match Text.Chars.breakOn? ['='] s.toList with
  | some (a, b) => (String.ofList a, some (String.ofList b))
  | none => (s, none)

/-- Whether an argument is a negative number. -/
def isNegative (s : String) : Bool :=
  match s.toList with
  | '-' :: rest =>
    match List.splitOn '.' rest with
    | [whole] => !whole.isEmpty && whole.all Text.isDecimal
    | [whole, part] => whole.all Text.isDecimal && !part.isEmpty && part.all Text.isDecimal
    | _ => false
  | _ => false

/-- The usage line of a form. -/
def Form.usage (f : Form) : String :=
  let shown (s : Switch) :=
    let body := "--" ++ s.name ++ if s.arity = .nothing then "" else " " ++ Text.replace "-" "_" s.name
    if s.required then body else "[" ++ body ++ "]"
  "usage: " ++ Text.join " " ((f.command :: "[-h]" :: f.switches.map shown))

/-! ## Tokens -/

/-- Why arguments cannot be taken. -/
inductive Misuse where
  | help
  | wrong (reason : String)
  deriving DecidableEq

/-- What an argument is. -/
inductive Token where
  | plain (text : String)
  | unknown (text : String)
  /-- A switch by the name it was given under, with what is attached to it. -/
  | switch (text spelling : String) (s : Switch) (attached : Option String)
  /-- The mark after which every argument is plain. -/
  | divider

/-- The argument of a token. -/
def Token.text : Token → String
  | plain s | unknown s | switch s _ _ _ => s
  | divider => "--"

/-- The switches that an argument may be the beginning of. -/
def abbreviated (spellings : List (String × Switch)) (s : String) :
    List (String × Switch × Option String) :=
  if Text.startsWith "--" s then
    let (head, value) := cutAtEquals s
    (spellings.filter fun (n, _) => Text.startsWith head n).map fun (n, w) => (n, w, value)
  else
    spellings.filterMap fun (n, w) =>
      if n = Text.take 2 s then some (n, w, some (Text.drop 2 s))
      else if Text.startsWith s n then some (n, w, none) else none

/-- What an argument is. -/
def token (spellings : List (String × Switch)) (s : String) : Except Misuse Token :=
  if !Text.startsWith "-" s || s = "-" then .ok (.plain s)
  else match Table.lookup s spellings with
    | some w => .ok (.switch s s w none)
    | none =>
      match cutAtEquals s with
      | (head, some value) =>
        match Table.lookup head spellings with
        | some w => .ok (.switch s head w (some value))
        | none => abbreviation
      | (_, none) => abbreviation
where
  abbreviation : Except Misuse Token :=
    match abbreviated spellings s with
    | [(n, w, value)] => .ok (.switch s n w value)
    | [] => .ok (if isNegative s || Text.contains " " s then .plain s else .unknown s)
    | _ => .error (.wrong ("ambiguous option: " ++ s))

/-- What the arguments are. -/
def tokens (spellings : List (String × Switch)) : List String → Except Misuse (List Token)
  | [] => .ok []
  | "--" :: rest => .ok (.divider :: rest.map .plain)
  | s :: rest => do return (← token spellings s) :: (← tokens spellings rest)

/-! ## Reading -/

/-- The switches without value in a group of short ones, and the last one with what is attached
to it. -/
def ungroup (spellings : List (String × Switch)) (spelling : String) (s : Switch) :
    Option (List Char) → Except Misuse (List Switch × Switch × Option String)
  | none => .ok ([], s, none)
  | some [] =>
    if s.arity = .nothing then .error (.wrong ("ignored explicit argument: " ++ spelling))
    else .ok ([], s, some "")
  | some (c :: rest) =>
    if s.arity ≠ .nothing then .ok ([], s, some (String.ofList (c :: rest)))
    else if Text.startsWith "--" spelling then
      .error (.wrong ("ignored explicit argument: " ++ spelling))
    else
      let next := "-" ++ String.ofList [c]
      match Table.lookup next spellings with
      | none => .error (.wrong ("ignored explicit argument: " ++ spelling))
      | some t =>
        match rest with
        | [] => .ok ([s], t, none)
        | d :: more => do
          let (before, last, value) ← ungroup spellings next t (some (d :: more))
          return (s :: before, last, value)

/-- The values with one more. -/
def Given.add (f : Form) (g : Given) (s : Switch) (value : String) : Except Misuse Given :=
  if s.name = "help" then .error .help
  else if !s.choices.isEmpty && !s.choices.contains value then
    .error (.wrong ("invalid choice: " ++ value))
  else if f.oneOf.contains s.name && f.oneOf.any (fun n => n != s.name && g.has n) then
    .error (.wrong ("not allowed together: --" ++ s.name))
  else .ok (if s.arity = .values then g.alter s.name [] (· ++ [value]) else g.insert s.name [value])

/-- Takes the values of switches; `stray` says whether an argument was left over. -/
def takeAll (f : Form) (stray : Bool) (g : Given) : List Token → Except Misuse (Given × Bool)
  | [] => .ok (g, stray)
  | .plain _ :: rest => takeAll f true g rest
  | .unknown _ :: rest => takeAll f true g rest
  | .divider :: rest => takeAll f true g rest
  | .switch _ spelling s attached :: rest => do
    let (before, last, value) ← ungroup f.spellings spelling s (attached.map String.toList)
    if last.arity = .nothing then
      takeAll f stray (← (before ++ [last]).foldlM (fun g s => g.add f s "") g) rest
    else
      match value, rest with
      | some v, rest =>
        takeAll f stray (← (← before.foldlM (fun g s => g.add f s "") g).add f last v) rest
      | none, .plain v :: rest =>
        takeAll f stray (← (← before.foldlM (fun g s => g.add f s "") g).add f last v) rest
      | none, _ => .error (.wrong ("expected one argument: " ++ spelling))

/-- Whether all switches that have to be given are. -/
def Form.isComplete (f : Form) (g : Given) : Bool :=
  (f.switches.all fun s => !s.required || g.has s.name) &&
    (f.oneOf.isEmpty || f.oneOf.any g.has)

/-- Reads the arguments of a form. -/
def Form.read (f : Form) (args : List String) : Except Misuse Given := do
  let (g, stray) ← takeAll f false Table.empty (← tokens f.spellings args)
  if !f.isComplete g then throw (.wrong "required arguments are missing")
  else if stray then throw (.wrong "unrecognized arguments")
  else return g

/-! ## Commands -/

/-- Takes the name of a command out of the arguments: the first plain one.  A divider beside it
goes with it. -/
def takeCommand (commands : List String) : List Token → Except Misuse (String × List Token)
  | [] => .error (.wrong "a command is required")
  | .plain s :: rest =>
    if commands.contains s then
      match rest with
      | .divider :: rest => .ok (s, rest)
      | rest => .ok (s, rest)
    else .error (.wrong ("invalid choice: " ++ s))
  | .divider :: rest => takeCommand commands rest
  | .unknown s :: rest => do
    let (command, rest) ← takeCommand commands rest
    return (command, .unknown s :: rest)
  | .switch _ spelling s attached :: _ => do
    let _ ← ungroup helpSwitch.spellings spelling s (attached.map String.toList)
    throw .help

/-- The command among the arguments, and the arguments that are for it. -/
def readCommand (commands args : List String) : Except Misuse (String × List String) := do
  let (command, rest) ← takeCommand commands (← tokens helpSwitch.spellings args)
  let _ ← rest.mapM fun
    | .switch _ spelling s attached => do
      let _ ← ungroup helpSwitch.spellings spelling s (attached.map String.toList)
      throw Misuse.help
    | _ => pure ()
  return (command, rest.map Token.text)

/-! ## Strict reading -/

/-- Why arguments cannot be taken in the strict reading. -/
inductive StrictMisuse where
  | help
  | noSuchOption
  | badOptionUsage
  | missingParameter
  | strayArgument
  deriving DecidableEq

/-- The switch of a short name. -/
def Form.short? (f : Form) (c : Char) : Option Switch :=
  (helpSwitch :: f.switches).find? (·.short == some c)

/-- The switch of a long name. -/
def Form.long? (f : Form) (name : String) : Option Switch :=
  (helpSwitch :: f.switches).find? fun s => "--" ++ s.name == name

/-- The values with one more. -/
def Given.put (g : Given) (s : Switch) (value : String) : Given := g.insert s.name [value]

/-- Takes a group of short switches.  The last one may want its value from the arguments that
follow. -/
def takeShort (f : Form) (g : Given) : List Char → Except StrictMisuse (Given × Option Switch)
  | [] => .ok (g, none)
  | c :: rest =>
    match f.short? c with
    | none => .error .noSuchOption
    | some s =>
      if s.arity = .nothing then takeShort f (g.put s "") rest
      else if rest.isEmpty then .ok (g, some s)
      else .ok (g.put s (String.ofList rest), none)

/-- Takes a long switch, in the same way. -/
def takeLong (f : Form) (g : Given) (arg : String) : Except StrictMisuse (Given × Option Switch) :=
  let (name, value) := cutAtEquals arg
  match f.long? name with
  | none => .error .noSuchOption
  | some s =>
    match s.arity, value with
    | .nothing, none => .ok (g.put s "", none)
    | .nothing, some _ => .error .badOptionUsage
    | _, some v => .ok (g.put s v, none)
    | _, none => .ok (g, some s)

/-- Takes all arguments; `wanting` is a switch that waits for its value. -/
def takeStrict (f : Form) (stray : Bool) (g : Given) (wanting : Option Switch) :
    List String → Except StrictMisuse (Given × Bool)
  | [] => if wanting.isSome then .error .badOptionUsage else .ok (g, stray)
  | arg :: rest =>
    match wanting with
    | some s => takeStrict f stray (g.put s arg) none rest
    | none =>
      if arg = "--" then .ok (g, stray || !rest.isEmpty)
      else if Text.startsWith "--" arg then do
        let (g, wanting) ← takeLong f g arg
        takeStrict f stray g wanting rest
      else if Text.startsWith "-" arg && arg != "-" then do
        let (g, wanting) ← takeShort f g (arg.toList.drop 1)
        takeStrict f stray g wanting rest
      else takeStrict f true g none rest

/-- Reads the arguments of a form strictly.  This reading belongs to the outermost layer: a
command takes whatever its surroundings make of the arguments, and no statement about the
commands or the library below them rests on it. -/
def Form.readStrict (f : Form) (args : List String) : Except StrictMisuse Given := do
  let (g, stray) ← takeStrict f false Table.empty none args
  if g.has "help" then throw .help
  else if !f.isComplete g then throw .missingParameter
  else if stray then throw .strayArgument
  else return g

end ControlLogic.Cli
