import WordMachine.Proofs.Flat.Access
import WordMachine.Proofs.Flat.Arithmetic
import WordMachine.Proofs.Flat.Stack

namespace WordMachine.Machine

open Flat

theorem agrees_of_operation {machine : Machine} {console : Console} {i : Instruction}
    {op : Operation} (hop : i.operation? = some op) : machine.Agrees console i := by
  cases op with
  | subImm => exact agrees_subImm hop
  | add => exact agrees_add hop
  | addImm => exact agrees_addImm hop
  | mul => exact agrees_mul hop
  | halve => exact agrees_halve hop
  | move => exact agrees_move hop
  | load => exact agrees_load hop
  | store => exact agrees_store hop
  | moveImm => exact agrees_moveImm hop
  | compare => exact agrees_compare hop
  | branch condition => exact agrees_branch hop
  | call => exact agrees_call hop
  | ret => exact agrees_ret hop
  | push => exact agrees_push hop
  | pop => exact agrees_pop hop
  | print => exact agrees_print hop
  | read => exact agrees_read hop

-- Every instruction comes to the same on the flat machine, a fault included.
theorem execute_flatten (machine : Machine) (console : Console) (i : Instruction) :
    (machine.flatten console).execute machine.setting i =
      (machine.execute i console).flatten := by
  rw [execute_eq_transact]
  cases hop : i.operation? with
  | none =>
    have hcode := (Operation.ofCode?_eq_none_iff i.opcode).mp hop
    rw [Flat.execute, if_neg (by omega), nextPc_flatten, address_flatten]
    simp only [transact, hop, setting]
    cases machine.policy with
    | strict => rfl
    | lenient => rfl
  | some op =>
    have hcode : i.opcode.toNat < 22 := by
      apply Nat.lt_of_not_le
      intro h
      have hnone := (Operation.ofCode?_eq_none_iff i.opcode).mpr h
      simp [Instruction.operation?, hnone] at hop
    rw [Flat.execute, if_pos hcode]
    exact agrees_of_operation hop

end WordMachine.Machine
