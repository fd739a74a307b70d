import WordMachine.Configuration.Basic
import WordMachine.Instruction.Assembly
import WordMachine.Simulation.Status

namespace WordMachine.Log

-- Severity, the gravest first.
inductive Level where
  | error
  | warn
  | info
  | debug
  | trace
  deriving DecidableEq, Repr

namespace Level

-- How much is let through up to this level.
def verbosity : Level → Nat
  | error => 1
  | warn => 2
  | info => 3
  | debug => 4
  | trace => 5

def name : Level → String
  | error => "ERROR"
  | warn => "WARN"
  | info => "INFO"
  | debug => "DEBUG"
  | trace => "TRACE"

end Level

-- What a session reports. A `pc` is the address of the instruction that caused the event.
inductive Event where
  | configured (configuration : Configuration)
  | loaded (path : String) (bytes instructions : Nat)
  | fetched (pc : UInt32) (instruction : Instruction)
  | skipped (opcode : UInt8) (pc : UInt32)
  | called (pc target returnTo : UInt32)
  | returned (pc returnTo : UInt32)
  | topLevelReturn (pc : UInt32)
  | finished (status : Status) (instructions : Nat)
  deriving DecidableEq, Repr

namespace Event

def level : Event → Level
  | configured _ | called .. | returned .. | topLevelReturn _ => .debug
  | loaded .. | finished .. => .info
  | fetched .. => .trace
  | skipped .. => .warn

private def field (name : String) (n : UInt32) : String :=
  " " ++ name ++ "=" ++ Decimal.renderNat n.toNat

def message : Event → String
  | configured configuration => "configuration config=" ++ configuration.summary
  | loaded path bytes instructions =>
    "program loaded path=" ++ path ++ " bytes=" ++ Decimal.renderNat bytes
      ++ " instructions=" ++ Decimal.renderNat instructions
  | fetched pc instruction => Text.hexLiteral 4 pc.toNat ++ ": " ++ instruction.assembly
  | skipped opcode pc =>
    "skipping unknown opcode opcode=" ++ Decimal.renderNat opcode.toNat ++ field "pc" pc
  | called pc target returnTo =>
    "call" ++ field "pc" pc ++ field "target" target ++ field "return_to" returnTo
  | returned pc returnTo => "ret" ++ field "pc" pc ++ field "return_to" returnTo
  | topLevelReturn pc => "top-level return" ++ field "pc" pc
  | finished status instructions =>
    "simulation finished status=" ++ status.name
      ++ " instructions=" ++ Decimal.renderNat instructions

-- The level in a column of five, and the message.
def line (event : Event) : String :=
  Text.padLeft 5 ' ' event.level.name ++ " " ++ event.message

end Event

end WordMachine.Log
