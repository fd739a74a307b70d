import WordMachine.Instruction.Operation

namespace WordMachine

-- What the last comparison left behind.
structure Flags where
  carry : Bool
  zero : Bool
  sign : Bool
  overflow : Bool
  deriving DecidableEq, Repr

namespace Flags

def clear : Flags := ⟨false, false, false, false⟩

-- Compares the second operand with the first, by the exact difference `second - first`. The
-- carry tells that the first is greater as an unsigned word, the sign is bit 31 of the difference,
-- and the overflow tells that the difference is no signed word.
def compare (first second : Int32) : Flags :=
  let difference := second.toInt - first.toInt
  { carry := second.toUInt32 < first.toUInt32
    zero := difference = 0
    sign := 0x80000000 ≤ difference % 0x100000000
    overflow := difference < -0x80000000 ∨ 0x80000000 ≤ difference }

def holds (flags : Flags) : Condition → Bool
  | .equal => flags.zero
  | .less => flags.sign ^^ flags.overflow
  | .lessOrEqual => (flags.sign ^^ flags.overflow) || flags.zero
  | .greaterOrEqual => !(flags.sign ^^ flags.overflow)
  | .belowOrEqual => flags.carry || flags.zero
  | .always => true

-- The flags as one word: carry in bit 0, zero in bit 6, sign in bit 7, overflow in bit 11.
def toWord (flags : Flags) : UInt32 :=
  (if flags.carry then 0x1 else 0) ||| (if flags.zero then 0x40 else 0)
    ||| (if flags.sign then 0x80 else 0) ||| (if flags.overflow then 0x800 else 0)

def text (flags : Flags) : String :=
  let mark (flag : Bool) (name : String) : String := if flag then name else "--"
  "[" ++ mark flags.carry "CF" ++ " " ++ mark flags.zero "ZF" ++ " " ++ mark flags.sign "SF"
    ++ " " ++ mark flags.overflow "OF" ++ "]"

end Flags

end WordMachine
