import WordMachine.Configuration.Basic
import WordMachine.Instruction.Encoding
import WordMachine.Machine.Memory
import WordMachine.Machine.Registers
import WordMachine.Machine.Tally

namespace WordMachine

-- The state of a machine, its console apart. A return with the stack pointer at `stackTop` ends
-- the program.
structure Machine where
  registers : Registers
  memory : Memory
  pc : UInt32
  tally : Tally
  stackTop : Int32
  policy : UnknownPolicy

namespace Machine

-- The stack takes all of the memory and grows down from its end. An end past the signed words is
-- cut to the last of them.
def reset (stackSize : Nat) (policy : UnknownPolicy) : Machine :=
  let stackTop := if stackSize < 0x80000000 then Int32.ofNat stackSize else Int32.maxValue
  { registers := .reset stackTop
    memory := .blank stackSize
    pc := 0
    tally := .zero
    stackTop
    policy }

def isAtStackTop (machine : Machine) : Bool :=
  machine.registers.stackPointer = machine.stackTop

-- The address of the instruction after the current one.
def nextPc (machine : Machine) : UInt32 :=
  machine.pc + 4

-- Where a branch or a call over a distance leads.
def target (machine : Machine) (distance : Int32) : UInt32 :=
  machine.nextPc + distance.toUInt32

def readRegister (machine : Machine) (index : UInt8) : Except Fault Int32 :=
  match machine.registers.read index with
  | .ok value => .ok value
  | .error cause => .error (.register cause machine.pc)

def writeRegister (machine : Machine) (index : UInt8) (value : Int32) : Except Fault Machine :=
  match machine.registers.write index value with
  | .ok registers => .ok { machine with registers }
  | .error cause => .error (.register cause machine.pc)

def load (machine : Machine) (address : Int) : Except Fault Int32 :=
  match machine.memory.readWord address with
  | .ok word => .ok word.toInt32
  | .error cause => .error (.memory cause machine.pc)

def store (machine : Machine) (address : Int) (value : Int32) : Except Fault Machine :=
  match machine.memory.writeWord address value.toUInt32 with
  | .ok memory => .ok { machine with memory }
  | .error cause => .error (.memory cause machine.pc)

-- The address of a base register and a displacement, which does not wrap.
def address (base displacement : Int32) : Int :=
  base.toInt + displacement.toInt

def compare (machine : Machine) (first second : Int32) : Machine :=
  { machine with registers := machine.registers.compare first second }

def setStackPointer (machine : Machine) (value : Int32) : Machine :=
  { machine with registers := machine.registers.setStackPointer value }

-- Notes how far below the top the stack now reaches. A stack pointer above the top is no depth.
def observeDepth (machine : Machine) : Machine :=
  let depth := machine.stackTop.toInt - machine.registers.stackPointer.toInt
  if depth < 0 then machine
  else { machine with tally := machine.tally.observeDepth depth.toNat }

-- Counts an instruction that has been executed.
def retire (machine : Machine) (category : Category) : Machine :=
  { machine with tally := machine.tally.retire category }

def recordBranch (machine : Machine) (taken : Bool) : Machine :=
  { machine with tally := machine.tally.recordBranch taken }

-- Where the next push stores its word.
def pushSlot (machine : Machine) : Int32 :=
  machine.registers.stackPointer - 4

-- The word on top of the stack, which stays there.
def peek (machine : Machine) : Except Fault Int32 :=
  machine.load machine.registers.stackPointer.toInt

-- Gives up the word on top of the stack.
def drop (machine : Machine) : Machine :=
  machine.setStackPointer (machine.registers.stackPointer + 4)

end Machine

end WordMachine
