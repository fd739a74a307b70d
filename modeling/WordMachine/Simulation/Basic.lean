import WordMachine.Machine.Execution

namespace WordMachine

-- A machine with its console and the program that it runs. The limit is on the number of
-- instructions that the machine has retired, those before a run included.
structure Simulator where
  machine : Machine
  console : Console
  program : Array Instruction
  traced : Bool
  limit : Option UInt64
  cancelled : Bool

namespace Simulator

def ofProgram (program : List Instruction) (configuration : Configuration) (console : Console) :
    Simulator where
  machine := .reset configuration.stackSize configuration.policy
  console
  program := program.toArray
  traced := configuration.traced
  limit := configuration.limit
  cancelled := false

def ofWords (words : List UInt32) (configuration : Configuration) (console : Console) :
    Simulator :=
  ofProgram (words.map Instruction.decode) configuration console

-- The address just past the last instruction. It may be too large for a program counter.
def endAddress (simulator : Simulator) : Nat :=
  simulator.program.size * 4

def isAtEnd (simulator : Simulator) : Bool :=
  simulator.machine.pc.toNat = simulator.endAddress

-- The instruction at the program counter, which is a multiple of four.
def fetch (simulator : Simulator) : Except Fault Instruction :=
  let pc := simulator.machine.pc
  let outside := Fault.outsideProgram pc simulator.program.size
  if pc % 4 = 0 then
    match simulator.program[pc.toNat / 4]? with
    | some i => .ok i
    | none => .error outside
  else .error outside

-- What a step or a run leads to.
structure Outcome (α : Type) where
  result : Except Fault α
  simulator : Simulator
  events : List Log.Event

-- Executes an instruction as the one at the program counter, which stays where it is.
def execute (simulator : Simulator) (i : Instruction) : Outcome Flow :=
  let execution := simulator.machine.execute i simulator.console
  { result := execution.result
    simulator := { simulator with machine := execution.machine, console := execution.console }
    events := execution.events }

def goTo (simulator : Simulator) (pc : UInt32) : Simulator :=
  { simulator with machine := { simulator.machine with pc } }

-- One step of a program: the instruction at the program counter, and the program counter moved on.
-- There is a status where the program has stopped. The end of the program is noticed on arrival,
-- and again by every later step.
def step (simulator : Simulator) : Outcome (Option Status) :=
  if simulator.isAtEnd then ⟨.ok (some .endOfProgram), simulator, []⟩
  else
    match simulator.fetch with
    | .error fault => ⟨.error fault, simulator, []⟩
    | .ok i =>
      let fetched := if simulator.traced then [Log.Event.fetched simulator.machine.pc i] else []
      let executed := simulator.execute i
      let events := fetched ++ executed.events
      match executed.result with
      | .error fault => ⟨.error fault, executed.simulator, events⟩
      | .ok .halt => ⟨.ok (some .halted), executed.simulator, events⟩
      | .ok (.goTo pc) =>
        let after := executed.simulator.goTo pc
        ⟨.ok (if after.isAtEnd then some .endOfProgram else none), after, events⟩

-- The status that ends a run before its next step.
def interruption? (simulator : Simulator) : Option Status :=
  if simulator.cancelled then some .cancelled
  else
    match simulator.limit with
    | none => none
    | some limit =>
      if limit.toNat ≤ simulator.machine.tally.retired then some .stepLimit else none

-- How far a run has come: it has an outcome, or it can go on.
inductive Progress where
  | finished (outcome : Outcome Status)
  | paused (simulator : Simulator) (events : Array Log.Event)

def finish (past : Array Log.Event) (simulator : Simulator) (status : Status) : Progress :=
  let event := Log.Event.finished status simulator.machine.tally.retired
  .finished ⟨.ok status, simulator, (past.push event).toList⟩

-- Steps until a status or a fault, `fuel` times at most. The events of earlier steps are in `past`.
def advance (simulator : Simulator) (past : Array Log.Event) (fuel : Nat) : Progress :=
  match simulator.interruption? with
  | some status => finish past simulator status
  | none =>
    match fuel with
    | 0 => .paused simulator past
    | fuel + 1 =>
      let stepped := simulator.step
      let past := past ++ stepped.events
      match stepped.result with
      | .error fault => .finished ⟨.error fault, stepped.simulator, past.toList⟩
      | .ok (some status) => finish past stepped.simulator status
      | .ok none => stepped.simulator.advance past fuel

-- A run that comes to its end within `fuel` steps.
def run? (simulator : Simulator) (fuel : Nat) : Option (Outcome Status) :=
  match simulator.advance #[] fuel with
  | .finished outcome => some outcome
  | .paused _ _ => none

-- The next instruction asks for a token, and the console has none.
def isStarved (simulator : Simulator) : Bool :=
  match simulator.fetch with
  | .ok i => i.operation? = some .read && simulator.console.nextToken.1 = .endOfInput
  | .error _ => false

def feed (simulator : Simulator) (input : List UInt8) : Simulator :=
  { simulator with console := simulator.console.feed input }

-- The output that has come together, and the simulator without it.
def takeOutput (simulator : Simulator) : String × Simulator :=
  let (text, console) := simulator.console.takeOutput
  (text, { simulator with console })

end Simulator

end WordMachine
