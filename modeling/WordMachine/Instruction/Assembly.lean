import WordMachine.Decimal.Integer
import WordMachine.Instruction.Encoding
import WordMachine.Text.Column

namespace WordMachine

-- The sixteen general registers by number. Number 6 is the stack pointer.
def registerNames : Vector String 16 :=
  #v["eax", "ecx", "edx", "ebx", "esi", "edi", "esp", "ebp",
     "r8", "r9", "r10", "r11", "r12", "r13", "r14", "r15"]

namespace Instruction

-- A register operand, with a mark for a number that names no register.
def registerText (index : UInt8) : String :=
  if index = 16 then "%eflags"
  else
    match registerNames[index.toNat]? with
    | some name => "%" ++ name
    | none => "%r" ++ Decimal.renderNat index.toNat ++ "?"

-- A distance from the next instruction, with its sign.
def distanceText (immediate : Int32) : String :=
  if immediate < 0 then Decimal.render immediate.toInt else "+" ++ Decimal.render immediate.toInt

-- One line of assembly. Only the fields that the operation uses appear in it; a word with an
-- unassigned opcode is shown as data.
def assembly (i : Instruction) : String :=
  match i.operation? with
  | none => ".word " ++ Text.hexLiteral 8 i.raw.toNat
  | some op =>
    let first := registerText i.first
    let second := registerText i.second
    let number := Decimal.render i.immediate.toInt
    let operands :=
      match op with
      | .subImm | .addImm | .moveImm => " $" ++ number ++ ", " ++ first
      | .add | .mul | .move | .compare => " " ++ first ++ ", " ++ second
      | .load => " " ++ number ++ "(" ++ first ++ "), " ++ second
      | .store => " " ++ first ++ ", " ++ number ++ "(" ++ second ++ ")"
      | .branch _ | .call => " " ++ distanceText i.immediate
      | .ret => ""
      | .halve | .push | .pop | .print | .read => " " ++ first
    op.mnemonic ++ operands

end Instruction

end WordMachine
