import WordMachine.Decimal.Integer
import WordMachine.Text.Terminal

namespace WordMachine.CommandLine

-- What the arguments ask for.
structure Invocation where
  file : String
  configFile : Option String
  limit : Option UInt64
  lenient : Bool
  traced : Bool
  disassemble : Bool
  stats : Bool
  dumpState : Bool
  deriving DecidableEq, Repr

inductive Request where
  | run (invocation : Invocation)
  | help
  | version
  deriving DecidableEq, Repr

-- An option that stands alone.
inductive Switch where
  | lenient
  | trace
  | disassemble
  | stats
  | dumpState
  | help
  | version
  deriving DecidableEq, Repr

-- What takes a value: an option, or the one positional argument.
inductive Slot where
  | file
  | config
  | limit
  deriving DecidableEq, Repr

-- Why the arguments are refused.
inductive ArgumentError where
  | unexpected (argument : String)
  | unexpectedValue (value : String) (switch : Switch)
  | missingValue (slot : Slot)
  | repeatedSwitch (switch : Switch)
  | repeatedSlot (slot : Slot)
  | invalidLimit (value : String) (cause : Decimal.IntegerError)
  | missingFile
  deriving DecidableEq, Repr

def Switch.name : Switch → String
  | lenient => "--lenient"
  | trace => "--trace"
  | disassemble => "--disassemble"
  | stats => "--stats"
  | dumpState => "--dump-state"
  | help => "--help"
  | version => "--version"

def Slot.name : Slot → String
  | file => "<FILE>"
  | config => "--config <CONFIG>"
  | limit => "--max-instructions <N>"

-- The arguments are quoted as a terminal shows them.
def ArgumentError.message : ArgumentError → String
  | unexpected argument => "unexpected argument '" ++ Text.Terminal.shown argument ++ "' found"
  | unexpectedValue value switch =>
    "unexpected value '" ++ Text.Terminal.shown value ++ "' for '" ++ switch.name
      ++ "' found; no more were expected"
  | missingValue slot => "a value is required for '" ++ slot.name ++ "' but none was supplied"
  | repeatedSwitch switch => "the argument '" ++ switch.name ++ "' cannot be used multiple times"
  | repeatedSlot slot => "the argument '" ++ slot.name ++ "' cannot be used multiple times"
  | invalidLimit value cause =>
    "invalid value '" ++ Text.Terminal.shown value ++ "' for '" ++ Slot.limit.name ++ "': "
      ++ cause.message
  | missingFile => "the following required arguments were not provided:"

-- An option: one that stands alone, or one with a value.
inductive Flag where
  | switch (switch : Switch)
  | slot (slot : Slot)
  deriving DecidableEq, Repr

def Flag.ofName? : String → Option Flag
  | "config" => some (.slot .config)
  | "max-instructions" => some (.slot .limit)
  | "lenient" => some (.switch .lenient)
  | "trace" => some (.switch .trace)
  | "disassemble" => some (.switch .disassemble)
  | "stats" => some (.switch .stats)
  | "dump-state" => some (.switch .dumpState)
  | "help" => some (.switch .help)
  | "version" => some (.switch .version)
  | _ => none

def Flag.ofLetter? : Char → Option Flag
  | 'c' => some (.slot .config)
  | 't' => some (.switch .trace)
  | 'd' => some (.switch .disassemble)
  | 'h' => some (.switch .help)
  | 'V' => some (.switch .version)
  | _ => none

-- What has been read so far. A slot is pending from where it is named until the next option or
-- positional argument is taken; only then is its value looked at.
structure Progress where
  switches : List Switch
  file : Option String
  configFile : Option String
  limit : Option UInt64
  hasFile : Bool
  pending : Option (Slot × Option String)
  deriving DecidableEq, Repr

-- Why the reading of the arguments ends before them.
inductive Stop where
  | refused (error : ArgumentError)
  | help
  | version
  deriving DecidableEq, Repr

namespace Progress

def start : Progress := ⟨[], none, none, none, false, none⟩

-- The option that waits for its value is the pending one, if it has none yet.
def awaits? (progress : Progress) : Option Slot :=
  match progress.pending with
  | some (slot, none) => some slot
  | _ => none

def setPath (slot : Slot) (before : Option String) (value : String) :
    Except ArgumentError (Option String) :=
  if before.isSome then .error (.repeatedSlot slot)
  else if value.isEmpty then .error (.missingValue slot)
  else .ok (some value)

-- Takes the value of a slot. A slot is taken once, and no path is empty.
def assign (progress : Progress) (slot : Slot) (value : String) :
    Except ArgumentError Progress :=
  match slot with
  | .file => do
    let file ← setPath slot progress.file value
    return { progress with file }
  | .config => do
    let configFile ← setPath slot progress.configFile value
    return { progress with configFile }
  | .limit =>
    if progress.limit.isSome then .error (.repeatedSlot slot)
    else
      match Decimal.readUnsigned UInt64.size value.toList with
      | .ok n => .ok { progress with limit := some (UInt64.ofNat n) }
      | .error cause => .error (.invalidLimit value cause)

-- Takes the value of the pending slot.
def settle (progress : Progress) : Except ArgumentError Progress :=
  match progress.pending with
  | none => .ok progress
  | some (slot, none) => .error (.missingValue slot)
  | some (slot, some value) => { progress with pending := none }.assign slot value

def takeSwitch (progress : Progress) (switch : Switch) : Except Stop Progress := do
  let progress ← progress.settle.mapError .refused
  match switch with
  | .help => throw .help
  | .version => throw .version
  | switch =>
    if switch ∈ progress.switches then throw (.refused (.repeatedSwitch switch))
    return { progress with switches := switch :: progress.switches }

-- An option with a value that is attached to it, or that may follow it.
def takeSlot (progress : Progress) (slot : Slot) (attached : Option String) :
    Except ArgumentError Progress := do
  let progress ← progress.settle
  match attached with
  | none => return { progress with pending := some (slot, none) }
  | some value => progress.assign slot value

-- An option by its name, with the value after an equals sign.
def takeLong (progress : Progress) (argument : List Char) : Except Stop Progress :=
  let name := String.ofList (argument.takeWhile (· ≠ '='))
  let attached := match argument.dropWhile (· ≠ '=') with
    | [] => none
    | _ :: value => some (String.ofList value)
  match Flag.ofName? name, attached with
  | none, _ => .error (.refused (.unexpected ("--" ++ name)))
  | some (.switch switch), some value => .error (.refused (.unexpectedValue value switch))
  | some (.switch switch), none => progress.takeSwitch switch
  | some (.slot slot), attached => (progress.takeSlot slot attached).mapError .refused

-- Options by their letters. What follows the letter of an option with a value is the value, less
-- an equals sign.
def takeLetters (progress : Progress) : List Char → Except Stop Progress
  | [] => .ok progress
  | letter :: letters =>
    match Flag.ofLetter? letter with
    | none => .error (.refused (.unexpected ("-" ++ letter.toString)))
    | some (.switch switch) => do (← progress.takeSwitch switch).takeLetters letters
    | some (.slot slot) =>
      let attached := match letters with
        | [] => none
        | '=' :: value => some (String.ofList value)
        | value => some (String.ofList value)
      (progress.takeSlot slot attached).mapError .refused

-- The value of the option that waits for one, or else the positional argument.
def takeValue (progress : Progress) (isTrailing : Bool) (argument : String) :
    Except ArgumentError Progress :=
  match isTrailing, progress.awaits? with
  | false, some slot => .ok { progress with pending := some (slot, some argument) }
  | _, _ =>
    if progress.hasFile then .error (.unexpected argument)
    else do
      let progress ← progress.settle
      return { progress with hasFile := true, pending := some (.file, some argument) }

-- Takes the arguments from the left. After `--` there are no options any more.
def takeAll (progress : Progress) (isTrailing : Bool) : List String → Except Stop Progress
  | [] => progress.settle.mapError .refused
  | argument :: arguments => do
    match isTrailing, argument.toList with
    | false, ['-', '-'] => progress.takeAll true arguments
    | false, '-' :: '-' :: option => (← progress.takeLong option).takeAll false arguments
    | false, '-' :: letter :: letters =>
      (← progress.takeLetters (letter :: letters)).takeAll false arguments
    | isTrailing, _ =>
      let progress ← (progress.takeValue isTrailing argument).mapError .refused
      progress.takeAll isTrailing arguments

def invocation (progress : Progress) : Except ArgumentError Invocation :=
  match progress.file with
  | none => .error .missingFile
  | some file => .ok
    { file
      configFile := progress.configFile
      limit := progress.limit
      lenient := .lenient ∈ progress.switches
      traced := .trace ∈ progress.switches
      disassemble := .disassemble ∈ progress.switches
      stats := .stats ∈ progress.switches
      dumpState := .dumpState ∈ progress.switches }

end Progress

def Request.ofArguments (arguments : List String) : Except ArgumentError Request :=
  match Progress.start.takeAll false arguments with
  | .error (.refused error) => .error error
  | .error .help => .ok .help
  | .error .version => .ok .version
  | .ok progress => .run <$> progress.invocation

end WordMachine.CommandLine
