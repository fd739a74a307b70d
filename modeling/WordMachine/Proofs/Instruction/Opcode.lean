import WordMachine.Instruction.Encoding
import WordMachine.Machine.Tally

namespace WordMachine

-- An opcode is the place of its operation in the table.
theorem toNat_opcode {i : Instruction} {op : Operation} (h : i.operation? = some op) :
    i.opcode.toNat = op.code.toNat := by
  have hall : ∀ code : Fin Operation.table.length,
      (Operation.table[code]).code.toNat = code.val := by decide
  obtain ⟨hlt, rfl⟩ := List.getElem?_eq_some_iff.mp (h : Operation.table[i.opcode.toNat]? = some op)
  exact (hall ⟨i.opcode.toNat, hlt⟩).symm

-- The opcodes of each category.
def Category.covers (category : Category) (opcode : Nat) : Bool :=
  match category with
  | .alu => opcode ≤ 5 ∨ opcode = 8
  | .load => opcode = 6
  | .store => opcode = 7
  | .compare => opcode = 9
  | .branch => 10 ≤ opcode ∧ opcode ≤ 15
  | .call => opcode = 16 ∨ opcode = 17
  | .stack => opcode = 18 ∨ opcode = 19
  | .console => opcode = 20 ∨ opcode = 21
  | .unknown => 22 ≤ opcode

namespace Category

theorem covers_of_operation {i : Instruction} {op : Operation} (h : i.operation? = some op)
    (category : Category) :
    category.covers i.opcode.toNat = decide (category = op.category) := by
  rw [toNat_opcode h]
  cases op with
  | branch condition => cases condition <;> cases category <;> rfl
  | _ => cases category <;> rfl

theorem covers_of_no_operation {i : Instruction} (h : i.operation? = none) (category : Category) :
    category.covers i.opcode.toNat = decide (category = .unknown) := by
  have hcode := (Operation.ofCode?_eq_none_iff i.opcode).mp h
  cases category with
  | unknown => exact decide_eq_true hcode
  | _ => exact decide_eq_false (by omega)

end Category

end WordMachine
