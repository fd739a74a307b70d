import WordMachine.Machine.Action

namespace WordMachine

-- Where the machine goes on after an instruction, if it does.
inductive Flow where
  | goTo (pc : UInt32)
  | halt
  deriving DecidableEq, Repr

namespace Action

-- Resolves a branch and counts its outcome.
def branch (taken : Bool) (next target : UInt32) : Action Flow := do
  adjust (·.recordBranch taken)
  return .goTo (if taken then target else next)

-- The effect of a known operation, which is not yet counted. The program counter stays where it
-- is. A pushed stack pointer is the one after the push.
def perform (op : Operation) (i : Instruction) : Action Flow := do
  let machine ← view id
  let next := machine.nextPc
  let target := machine.target i.immediate
  match op with
  | .subImm =>
    revise i.first (· - i.immediate)
    return .goTo next
  | .add =>
    combine i.first i.second (· + ·)
    return .goTo next
  | .addImm =>
    revise i.first (· + i.immediate)
    return .goTo next
  | .mul =>
    combine i.first i.second (· * ·)
    return .goTo next
  | .halve =>
    revise i.first fun value => (value.toUInt32 >>> 1).toInt32
    return .goTo next
  | .move =>
    let value ← readRegister i.first
    writeRegister i.second value
    return .goTo next
  | .load =>
    let base ← readRegister i.first
    let value ← load (Machine.address base i.immediate)
    writeRegister i.second value
    return .goTo next
  | .store =>
    let base ← readRegister i.second
    let value ← readRegister i.first
    store (Machine.address base i.immediate) value
    return .goTo next
  | .moveImm =>
    writeRegister i.first i.immediate
    return .goTo next
  | .compare =>
    let first ← readRegister i.first
    let second ← readRegister i.second
    adjust (·.compare first second)
    return .goTo next
  | .branch condition => branch (machine.registers.flags.holds condition) next target
  | .call =>
    push next.toInt32
    report (.called machine.pc target next)
    return .goTo target
  | .ret =>
    if machine.isAtStackTop then
      report (.topLevelReturn machine.pc)
      return .halt
    else
      let returnTo ← peek
      drop
      report (.returned machine.pc returnTo.toUInt32)
      return .goTo returnTo.toUInt32
  | .push =>
    let value ← if i.first = 6 then view Machine.pushSlot else readRegister i.first
    push value
    return .goTo next
  | .pop =>
    let value ← peek
    writeRegister i.first value
    drop
    return .goTo next
  | .print =>
    let value ← readRegister i.first
    writeLine (Console.printedLine value)
    return .goTo next
  | .read =>
    let value ← readInteger
    writeRegister i.first value
    return .goTo next

-- Executes an instruction as the one at the program counter. Only a completed instruction is
-- counted.
def execute (i : Instruction) : Action Flow := do
  let machine ← view id
  match i.operation? with
  | none =>
    match machine.policy with
    | .strict => throw (.unknownOpcode i.opcode machine.pc)
    | .lenient =>
      report (.skipped i.opcode machine.pc)
      adjust (·.retire .unknown)
      return .goTo machine.nextPc
  | some op =>
    let flow ← perform op i
    adjust (·.retire op.category)
    return flow

end Action

-- What an instruction leads to. The program counter of the machine is left to the caller.
structure Execution where
  result : Except Fault Flow
  machine : Machine
  console : Console
  events : List Log.Event

-- The execution of an instruction on a machine, and what is left where it faults.
def Machine.execute (i : Instruction) (machine : Machine) (console : Console) : Execution :=
  match (Action.execute i).run ⟨machine, console, []⟩ with
  | .ok flow processor =>
    ⟨.ok flow, processor.machine, processor.console, processor.events⟩
  | .error fault processor =>
    ⟨.error fault, processor.machine, processor.console, processor.events⟩

end WordMachine
