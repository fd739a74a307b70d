import WordMachine.Decimal.Percentage
import WordMachine.Instruction.Assembly
import WordMachine.Machine.Basic

namespace WordMachine

namespace Registers

private def column (name : String) (value : Int32) : String :=
  Text.padRight 4 name ++ "=" ++ Text.padLeft 11 ' ' (Decimal.render value.toInt)
    ++ " (" ++ Text.hexLiteral 8 value.toUInt32.toNat ++ ")"

private def rows : List String → List String
  | left :: right :: columns => (left ++ "  " ++ right) :: rows columns
  | columns => columns

-- The general registers in rows of two, and the flags.
def report (registers : Registers) : List String :=
  rows ((registerNames.zip registers.general).toList.map fun (name, value) => column name value)
    ++ ["eflags=" ++ Text.hexLiteral 4 registers.flags.toWord.toNat ++ " " ++ registers.flags.text]

end Registers

-- The state of a machine in lines of text.
def Machine.report (machine : Machine) : List String :=
  ["--- CPU STATE ---",
   "pc=" ++ Text.hexLiteral 4 machine.pc.toNat
     ++ " stack_top=" ++ Decimal.render machine.stackTop.toInt]
    ++ machine.registers.report ++ ["-----------------"]

namespace Tally

private def rule (c : Char) : String :=
  String.ofList (List.replicate 58 c)

private def amount (name : String) (n : Nat) : String :=
  "  " ++ Text.padRight 14 name ++ " " ++ Text.padLeft 12 ' ' (Decimal.renderNat n)

private def share (tally : Tally) (name : String) (category : Category) : String :=
  let n := tally.count category
  amount name n ++ " ("
    ++ Text.padLeft 5 ' ' (Decimal.tenths (Decimal.percentage n tally.retired)) ++ "%)"

-- The account in lines of text. Every category has its share of the retired instructions.
def report (tally : Tally) : List String :=
  [rule '=', "EXECUTION STATISTICS", rule '=',
   amount "instructions" tally.retired, rule '-',
   tally.share "alu" .alu, tally.share "load" .load, tally.share "store" .store,
   tally.share "compare" .compare, tally.share "branch" .branch, tally.share "call/ret" .call,
   tally.share "stack" .stack, tally.share "i/o" .console, tally.share "unknown" .unknown,
   rule '-', amount "branches taken" tally.taken, amount "not taken" tally.notTaken,
   amount "peak stack" tally.peakDepth ++ " bytes", rule '=']

end Tally

end WordMachine
