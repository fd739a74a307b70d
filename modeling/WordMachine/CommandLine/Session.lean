import WordMachine.CommandLine.Arguments
import WordMachine.CommandLine.Files
import WordMachine.Configuration.Reader
import WordMachine.Log.Filter
import WordMachine.Machine.Report
import WordMachine.Program.Image
import WordMachine.Program.Listing
import WordMachine.Simulation.Basic

namespace WordMachine.CommandLine

-- Why there is no program.
inductive LoadError where
  | notOpened (path : String) (error : FileError)
  | notRead (path : String) (error : FileError)
  | misaligned (error : Program.Misaligned)
  deriving DecidableEq, Repr

def LoadError.message : LoadError → String
  | notOpened path error => "unable to open input file '" ++ path ++ "': " ++ error.message
  | notRead path error => "unable to read file '" ++ path ++ "': " ++ error.message
  | misaligned error => error.message

-- The words of an image file.
def loadProgram (read : Reader) (path : String) (order : ByteOrder) :
    Except LoadError (List UInt32 × Log.Event) :=
  match read path with
  | .error (.notOpened error) => .error (.notOpened path error)
  | .error (.notRead error) => .error (.notRead path error)
  | .ok image =>
    match Program.words order image with
    | .error error => .error (.misaligned error)
    | .ok words => .ok (words, .loaded path image.length words.length)

-- The configuration that a file describes, or the default one.
def loadConfiguration (read : Reader) : Option String → Except ConfigurationError Configuration
  | none => .ok .default
  | some path =>
    match read path with
    | .error error => .error (.unreadable path error.cause.message)
    | .ok bytes =>
      match Text.Utf8.decode? bytes with
      | none => .error (.unreadable path InputFault.notUtf8.message)
      | some text => Configuration.ofJson (String.ofList text)

-- What the arguments say goes before what the file says.
def Invocation.override (invocation : Invocation) (configuration : Configuration) :
    Configuration :=
  { configuration with
    policy := if invocation.lenient then .lenient else configuration.policy
    traced := invocation.traced || configuration.traced
    limit := invocation.limit.or configuration.limit }

-- What a session leaves behind. The log events in the error stream are without their times.
structure Output where
  exitCode : Nat
  stdout : String
  stderr : String
  deriving DecidableEq, Repr

def unlines (lines : List String) : String :=
  String.join (lines.map (· ++ "\n"))

-- A program that is ready to run, and what the error stream holds before.
structure Job where
  invocation : Invocation
  filter : Log.Filter
  simulator : Simulator
  stderr : String

inductive Prepared where
  | finished (output : Output)
  | ready (job : Job)

def versionText : String := "sim 0.3.0\n"

def usageText : String :=
  "Usage: sim [OPTIONS] <FILE>\n"

private def failed (stderr : String) (message : String) : Prepared :=
  .finished ⟨1, "", stderr ++ unlines ["Error: " ++ message]⟩

-- Loads what an invocation names. The configuration comes first, and decides how the image is read.
def Invocation.prepare (invocation : Invocation) (filter : Log.Filter) (read : Reader)
    (input : List UInt8) : Prepared :=
  match loadConfiguration read invocation.configFile with
  | .error error => failed "" error.message
  | .ok configuration =>
    let configuration := invocation.override configuration
    let stderr := unlines (filter.lines [.configured configuration])
    match loadProgram read invocation.file configuration.byteOrder with
    | .error error => failed stderr error.message
    | .ok (words, loaded) =>
      let stderr := stderr ++ unlines (filter.lines [loaded])
      if invocation.disassemble then
        .finished ⟨0, unlines (Program.listing (words.map Instruction.decode)), stderr⟩
      else
        let console := Console.ofInput input .unlimited
        .ready ⟨invocation, filter, .ofWords words configuration console, stderr⟩

-- A wish for the log that cannot be understood counts as none.
def filterFor (invocation : Invocation) (wish : Option String) : Log.Filter :=
  (wish.bind Log.Filter.ofText?).getD (.usual invocation.traced)

-- A session up to the point where the program runs.
def prepare (arguments : List String) (wish : Option String) (read : Reader)
    (input : List UInt8) : Prepared :=
  match Request.ofArguments arguments with
  | .error error => .finished ⟨2, "", unlines ["error: " ++ error.message]⟩
  | .ok .help => .finished ⟨0, usageText, ""⟩
  | .ok .version => .finished ⟨0, versionText, ""⟩
  | .ok (.run invocation) => invocation.prepare (filterFor invocation wish) read input

-- The lines after the run: the reports that were asked for, and how it went.
def Job.closing (job : Job) (machine : Machine) (result : Except Fault Status) : String :=
  let dump := if job.invocation.dumpState then machine.report else []
  let stats := if job.invocation.stats then machine.tally.report else []
  let verdict := match result with
    | .ok .stepLimit => ["Stopped: instruction limit reached"]
    | .ok _ => []
    | .error fault => ["Error: " ++ fault.message]
  unlines (dump ++ stats ++ verdict)

def exitCode : Except Fault Status → Nat
  | .ok status => status.exitCode
  | .error _ => 1

def Job.conclude (job : Job) (outcome : Simulator.Outcome Status) : Output where
  exitCode := exitCode outcome.result
  stdout := outcome.simulator.console.sink.text
  stderr := job.stderr ++ unlines (job.filter.lines outcome.events)
    ++ job.closing outcome.simulator.machine outcome.result

-- A whole session, if its program comes to an end within `fuel` steps.
def session? (arguments : List String) (wish : Option String) (read : Reader)
    (input : List UInt8) (fuel : Nat) : Option Output :=
  match prepare arguments wish read input with
  | .finished output => some output
  | .ready job => (job.simulator.run? fuel).map job.conclude

end WordMachine.CommandLine
