import WordMachine.Console.Basic
import WordMachine.Log.Event
import WordMachine.Machine.Basic

namespace WordMachine

namespace Console

-- The line that shows a word: as a signed decimal number and in hexadecimal.
def printedLine (value : Int32) : String :=
  Decimal.render value.toInt ++ " (" ++ Text.hexLiteral 1 value.toUInt32.toNat ++ ")"

-- The next token, taken for a signed decimal number. It is used up in any case.
def readInteger (console : Console) : Except InputFault Int32 × Console :=
  match console.nextToken with
  | (.badLine, console) => (.error .notUtf8, console)
  | (.endOfInput, console) => (.error .endOfInput, console)
  | (.token token, console) =>
    match Decimal.readSigned 0x80000000 token.toList with
    | .ok value => (.ok (Int32.ofInt value), console)
    | .error cause => (.error (.notInteger token cause), console)

end Console

-- A machine at work: with its console, and with the events that it has reported.
structure Processor where
  machine : Machine
  console : Console
  events : List Log.Event

-- A part of an instruction. It changes the processor in place, so what was done before a fault
-- stays done.
abbrev Action := EStateM Fault Processor

namespace Action

-- What the machine shows.
def view (question : Machine → α) : Action α := fun processor =>
  .ok (question processor.machine) processor

-- What the machine answers, or a fault.
def ask (question : Machine → Except Fault α) : Action α := fun processor =>
  match question processor.machine with
  | .ok answer => .ok answer processor
  | .error fault => .error fault processor

-- One change of the machine, which is made as a whole or not at all.
def change (next : Machine → Except Fault Machine) : Action Unit := fun processor =>
  match next processor.machine with
  | .ok machine => .ok () { processor with machine }
  | .error fault => .error fault processor

-- A change of the machine that cannot fail.
def adjust (next : Machine → Machine) : Action Unit := fun processor =>
  .ok () { processor with machine := next processor.machine }

def report (event : Log.Event) : Action Unit := fun processor =>
  .ok () { processor with events := processor.events ++ [event] }

def readRegister (index : UInt8) : Action Int32 :=
  ask (·.readRegister index)

def writeRegister (index : UInt8) (value : Int32) : Action Unit :=
  change (·.writeRegister index value)

-- Computes a register anew from its value.
def revise (index : UInt8) (f : Int32 → Int32) : Action Unit := do
  let value ← readRegister index
  writeRegister index (f value)

-- Computes the second register anew from the values of both.
def combine (first second : UInt8) (f : Int32 → Int32 → Int32) : Action Unit := do
  let value ← readRegister first
  let other ← readRegister second
  writeRegister second (f value other)

def load (address : Int) : Action Int32 :=
  ask (·.load address)

def store (address : Int) (value : Int32) : Action Unit :=
  change (·.store address value)

-- The word is stored first. The stack pointer moves only where it could be stored.
def push (value : Int32) : Action Unit := do
  let slot ← view Machine.pushSlot
  store slot.toInt value
  adjust (·.setStackPointer slot)
  adjust Machine.observeDepth

-- The word on top of the stack, which stays there.
def peek : Action Int32 :=
  ask Machine.peek

-- Gives up the word on top of the stack.
def drop : Action Unit :=
  adjust Machine.drop

def writeLine (line : String) : Action Unit := fun processor =>
  match processor.console.writeLine line with
  | (.ok (), console) => .ok () { processor with console }
  | (.error cause, console) => .error (.output cause) { processor with console }

def readInteger : Action Int32 := fun processor =>
  match processor.console.readInteger with
  | (.ok value, console) => .ok value { processor with console }
  | (.error cause, console) => .error (.input cause) { processor with console }

end Action

end WordMachine
