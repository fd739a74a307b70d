import WordMachine.Instruction.Assembly

namespace WordMachine.Program

-- One instruction of a listing: its address, its fields in columns and its assembly.
def listingLine (index : Nat) (i : Instruction) : String :=
  Text.hexLiteral 4 (index * 4)
    ++ ": op: " ++ Text.padLeft 2 ' ' (Decimal.renderNat i.opcode.toNat)
    ++ ", reg1: " ++ Text.padLeft 2 ' ' (Decimal.renderNat i.first.toNat)
    ++ ", reg2: " ++ Text.padLeft 2 ' ' (Decimal.renderNat i.second.toNat)
    ++ ", imm: " ++ Text.padLeft 6 ' ' (Decimal.render i.immediate.toInt)
    ++ "    " ++ i.assembly

-- A heading, a line for each instruction and a closing rule.
def listing (program : List Instruction) : List String :=
  "instructions:" :: program.mapIdx listingLine ++ ["--------------"]

end WordMachine.Program
