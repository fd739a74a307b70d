import WordMachine.Proofs.Flat.Machine
import WordMachine.Proofs.Instruction.Opcode

namespace WordMachine

open Flat

-- Where an instruction leads, as a plain number.
def Flow.number? : Flow → Option Nat
  | .goTo pc => some pc.toNat
  | .halt => none

def Execution.flatten (execution : Execution) : Except Fault (Option Nat) × Flat :=
  (execution.result.map Flow.number?, execution.machine.flatten execution.console)

namespace Flat

-- The tables of the flat machine, for ranges of opcodes.
section Tables

variable (flat : Flat) (setting : Setting) {i : Instruction} (delivered : Nat)

theorem absent?_of_one {index : UInt8} (hs : sources i = [index]) :
    absent? i = if index.toNat ≤ 16 then none else some index := by
  rw [absent?, hs]
  by_cases hi : index.toNat ≤ 16
  · simp [hi]
  · simp [hi, Nat.lt_of_not_le hi]

theorem absent?_of_two {index other : UInt8} (hs : sources i = [index, other]) :
    absent? i =
      if index.toNat ≤ 16 then if other.toNat ≤ 16 then none else some other
      else some index := by
  rw [absent?, hs]
  by_cases hi : index.toNat ≤ 16
  · by_cases hj : other.toNat ≤ 16
    · simp [hi, hj]
    · simp [hi, hj, Nat.lt_of_not_le hj]
  · simp [hi, Nat.lt_of_not_le hi]

theorem absent?_of_none (hs : sources i = []) : absent? i = none := by
  rw [absent?, hs]
  rfl

theorem access_of_plain (h : i.opcode.toNat < 6 ∨ (8 ≤ i.opcode.toNat ∧ i.opcode.toNat < 16)) :
    flat.access setting i = (.ok 0, flat) := by
  unfold access
  split <;> first | rfl | omega

theorem update_of_plain (h : i.opcode.toNat < 9 ∨ 20 ≤ i.opcode.toNat) :
    flat.update setting i delivered = flat.assign i (flat.result i delivered) := by
  unfold update
  split <;> first | rfl | omega

theorem next?_of_plain (h : i.opcode.toNat < 10 ∨ 18 ≤ i.opcode.toNat) :
    flat.next? setting i delivered = some flat.nextPc := by
  unfold next?
  split <;> first | rfl | omega

theorem sources_of_transfer (h : 10 ≤ i.opcode.toNat ∧ i.opcode.toNat < 18) : sources i = [] := by
  unfold sources
  split <;> first | rfl | omega

theorem destination?_of_transfer (h : 9 ≤ i.opcode.toNat ∧ i.opcode.toNat < 19) :
    destination? i = none := by
  unfold destination?
  split <;> first | rfl | omega

end Tables

end Flat

namespace Machine

variable (machine : Machine) (console : Console) (i : Instruction)

-- What the two machines make of an instruction is the same.
def Agrees : Prop :=
  (machine.flatten console).perform machine.setting i = (machine.transact i console).flatten

-- The machine's part of an instruction, where the console's part is done.
def settle (attempt : Except Fault Machine) (flow : Flow) : Except Fault (Option Nat) × Flat :=
  match attempt with
  | .ok after => (.ok flow.number?, after.flatten console)
  | .error fault => (.error fault, machine.flatten console)

variable {machine console i} {op : Operation} {rest : Console} {flow : Flow}

theorem transact_flatten {delivered : Int32} (hop : i.operation? = some op)
    (hc : machine.converse op i console = (.ok delivered, rest)) :
    (machine.transact i console).flatten =
      machine.settle rest (machine.effect op i delivered) (machine.flow op i) := by
  simp only [transact, hop, hc, settle]
  cases machine.effect op i delivered with
  | error fault => rfl
  | ok after => rfl

theorem transact_flatten_of_error {fault : Fault} (hop : i.operation? = some op)
    (hc : machine.converse op i console = (.error fault, rest)) :
    (machine.transact i console).flatten =
      machine.settle rest (.error fault) (machine.flow op i) := by
  simp only [transact, hop, hc]
  rfl

-- An instruction ends with the first of its phases that fails.
theorem perform_of_absent {index : UInt8} (hs : absent? i = some index) :
    (machine.flatten console).perform machine.setting i =
      machine.settle console (.error (.register (.absent index) machine.pc)) flow := by
  rw [perform, hs]
  simp only [address_flatten]
  rfl

theorem perform_of_access_error {fault : Fault} (hs : absent? i = none)
    (ha : (machine.flatten console).access machine.setting i =
      (.error fault, machine.flatten rest)) :
    (machine.flatten console).perform machine.setting i =
      machine.settle rest (.error fault) flow := by
  rw [perform, hs]
  simp only [ha]
  rfl

theorem perform_of_access {delivered : Nat} {reached : Flat} (hs : absent? i = none)
    (ha : (machine.flatten console).access machine.setting i = (.ok delivered, reached))
    (hd : destination? i = none) :
    (machine.flatten console).perform machine.setting i =
      (.ok ((machine.flatten console).next? machine.setting i delivered),
        reached.update machine.setting i delivered) := by
  rw [perform, hs]
  simp only [ha, refusal?, hd]

-- An instruction whose last part is the writing of a register.
theorem perform_of_assign {index : UInt8} {value : Int32} {delivered : Nat}
    (hs : absent? i = none)
    (ha : (machine.flatten console).access machine.setting i =
      (.ok delivered, machine.flatten rest))
    (hd : destination? i = some index) (hcode : i.opcode.toNat < 9 ∨ 20 ≤ i.opcode.toNat)
    (hr : (machine.flatten rest).result i delivered = number value) :
    (machine.flatten console).perform machine.setting i =
      machine.settle rest (machine.writeRegister index value) (.goTo machine.nextPc) := by
  have hplain : i.opcode.toNat < 10 ∨ 18 ≤ i.opcode.toNat := by omega
  have hnext := (machine.flatten console).next?_of_plain machine.setting delivered hplain
  rw [perform, hs]
  simp only [ha, refusal?, hd, hnext, update_of_plain _ _ _ hcode, assign, hr, writeRegister_eq,
    address_flatten, nextPc_flatten]
  by_cases hi : index.toNat < 16
  · rw [if_pos hi, dif_pos hi, set_flatten _ _ _ hi]
    rfl
  · rw [if_neg hi, dif_neg hi]
    by_cases heq : index = 16
    · rw [if_pos heq, if_pos heq, heq]
      rfl
    · rw [if_neg heq, if_neg heq]
      rfl

end Machine

end WordMachine
