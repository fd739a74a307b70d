import WordMachine.CommandLine.Session

namespace WordMachine.CommandLine

-- The system's number for an error may come with either sign.
def FileError.ofIoError (error : IO.Error) : FileError :=
  match error with
  | .noFileOrDirectory .. => .notFound
  | .inappropriateType _ code _ => if code = 21 ∨ code = -21 then .isDirectory else .notDirectory
  | .invalidArgument _ code _ =>
    if code = 36 ∨ code = -36 then .nameTooLong else .other error.toString
  | error => .other error.toString

def readFile (path : String) : IO (Except ReadError (List UInt8)) := do
  match ← (IO.FS.Handle.mk path .read).toBaseIO with
  | .error error => return .error (.notOpened (.ofIoError error))
  | .ok file =>
    match ← file.readBinToEnd.toBaseIO with
    | .error error => return .error (.notRead (.ofIoError error))
    | .ok contents => return .ok contents.toList

-- What the paths of an invocation lead to.
def readFiles (invocation : Invocation) : IO Reader := do
  let image ← readFile invocation.file
  match invocation.configFile with
  | none => return fun _ => image
  | some path =>
    let configuration ← readFile path
    return fun other => if other = path then configuration else image

-- One line of input, or nothing at its end.
partial def readLine (input : IO.FS.Stream) (line : ByteArray) : IO ByteArray := do
  let next ← input.read 1
  if next.isEmpty then return line
  else
    let line := line ++ next
    if next.toList = [10] then return line else readLine input line

def emit (stdout stderr : String) : IO Unit := do
  unless stdout.isEmpty do
    let out ← IO.getStdout
    out.putStr stdout
    out.flush
  unless stderr.isEmpty do IO.eprint stderr

-- Runs a program one step at a time, with a line of input where it asks for one.
partial def Job.drive (job : Job) (simulator : Simulator) (inputEnded : Bool) : IO UInt32 := do
  if simulator.isStarved && !inputEnded then
    let line ← readLine (← IO.getStdin) ByteArray.empty
    job.drive (simulator.feed line.toList) line.isEmpty
  else
    match simulator.advance #[] 1 with
    | .finished outcome =>
      let (text, simulator) := outcome.simulator.takeOutput
      emit text (unlines (job.filter.lines outcome.events)
        ++ job.closing simulator.machine outcome.result)
      return UInt32.ofNat (exitCode outcome.result)
    | .paused simulator events =>
      let (text, simulator) := simulator.takeOutput
      emit text (unlines (job.filter.lines events.toList))
      job.drive simulator inputEnded

-- A whole session of the command line.
def run (arguments : List String) : IO UInt32 := do
  let read ← match Request.ofArguments arguments with
    | .ok (.run invocation) => readFiles invocation
    | _ => pure fun _ => .error (.notOpened .notFound)
  match prepare arguments (← IO.getEnv "RUST_LOG") read [] with
  | .finished output =>
    emit output.stdout output.stderr
    return UInt32.ofNat output.exitCode
  | .ready job =>
    emit "" job.stderr
    job.drive job.simulator false

end WordMachine.CommandLine

def main (arguments : List String) : IO UInt32 :=
  WordMachine.CommandLine.run arguments
