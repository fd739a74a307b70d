import WordMachine.Console.Sink
import WordMachine.Decimal.Integer
import WordMachine.Text.Column

namespace WordMachine

-- The misuse of a register operand.
inductive RegisterFault where
  | absent (index : UInt8)
  | readOnly (index : UInt8)
  deriving DecidableEq, Repr

def RegisterFault.message : RegisterFault → String
  | .absent index => "register index " ++ Decimal.renderNat index.toNat ++ " does not exist"
  | .readOnly index =>
    "register index " ++ Decimal.renderNat index.toNat ++ " is reserved and cannot be written"

-- A word at `address` that does not lie within the `size` bytes of the memory.
structure MemoryFault where
  address : Int
  size : Nat
  deriving DecidableEq, Repr

def MemoryFault.message (fault : MemoryFault) : String :=
  "memory access at " ++ Decimal.render fault.address ++ " is outside the "
    ++ Decimal.renderNat fault.size ++ "-byte stack region"

-- Why the console delivered no integer.
inductive InputFault where
  | notUtf8
  | endOfInput
  | notInteger (token : String) (cause : Decimal.IntegerError)
  deriving DecidableEq, Repr

def InputFault.message : InputFault → String
  | .notUtf8 => "stream did not contain valid UTF-8"
  | .endOfInput => "end of input"
  | .notInteger token cause => "'" ++ token ++ "' is not a 32-bit integer: " ++ cause.message

-- Why the machine cannot go on. The `pc` is the address of the instruction concerned.
inductive Fault where
  | unknownOpcode (opcode : UInt8) (pc : UInt32)
  | memory (cause : MemoryFault) (pc : UInt32)
  | register (cause : RegisterFault) (pc : UInt32)
  | outsideProgram (pc : UInt32) (length : Nat)
  | input (cause : InputFault)
  | output (cause : SinkFault)
  deriving DecidableEq, Repr

namespace Fault

private def located (text : String) (pc : UInt32) : String :=
  text ++ " (pc " ++ Text.hexLiteral 1 pc.toNat ++ ")"

def message : Fault → String
  | unknownOpcode opcode pc =>
    "unknown opcode " ++ Decimal.renderNat opcode.toNat ++ " at pc " ++ Text.hexLiteral 1 pc.toNat
  | memory cause pc => located cause.message pc
  | register cause pc => located cause.message pc
  | outsideProgram pc length =>
    "program counter " ++ Text.hexLiteral 1 pc.toNat ++ " is outside the program ("
      ++ Decimal.renderNat length ++ " instructions)"
  | input cause => "input error: " ++ cause.message
  | output cause => "output error: " ++ cause.message

-- The text of the fault that lies beneath, where there is one.
def underlying? : Fault → Option String
  | memory cause _ => some cause.message
  | register cause _ => some cause.message
  | output cause => some cause.message
  | _ => none

end Fault

end WordMachine
