import WordMachine.Machine.Fault
import WordMachine.Machine.Flags

namespace WordMachine

-- The sixteen general registers and the flags.
structure Registers where
  general : Vector Int32 16
  flags : Flags
  deriving DecidableEq, Repr

namespace Registers

-- All registers are zero but the stack pointer.
def reset (stackPointer : Int32) : Registers where
  general := (Vector.replicate 16 0).set 6 stackPointer
  flags := .clear

-- Operand 16 reads the packed flags.
def read (registers : Registers) (index : UInt8) : Except RegisterFault Int32 :=
  match registers.general[index.toNat]? with
  | some value => .ok value
  | none => if index = 16 then .ok registers.flags.toWord.toInt32 else .error (.absent index)

-- Operand 16 cannot be written.
def write (registers : Registers) (index : UInt8) (value : Int32) :
    Except RegisterFault Registers :=
  if h : index.toNat < 16 then
    .ok { registers with general := registers.general.set index.toNat value h }
  else if index = 16 then .error (.readOnly index)
  else .error (.absent index)

def stackPointer (registers : Registers) : Int32 :=
  registers.general[6]

def setStackPointer (registers : Registers) (value : Int32) : Registers :=
  { registers with general := registers.general.set 6 value }

def compare (registers : Registers) (first second : Int32) : Registers :=
  { registers with flags := .compare first second }

end Registers

end WordMachine
