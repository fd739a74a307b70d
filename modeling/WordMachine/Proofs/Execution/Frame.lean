import WordMachine.Proofs.Execution.Effect

namespace WordMachine

-- The operations that move the stack pointer without an operand for it.
def Operation.movesStack : Operation → Bool
  | call | ret | push | pop => true
  | _ => false

namespace Machine

section Fields

variable (machine : Machine) (value : Int32)

@[simp] theorem stackAddress_setStackPointer :
    (machine.setStackPointer value).stackAddress = value.toInt := by
  simp [stackAddress, setStackPointer, Registers.setStackPointer, Registers.stackPointer]

theorem observeDepth_eq :
    ∃ tally, machine.observeDepth = { machine with tally } := by
  unfold observeDepth
  by_cases h : machine.stackTop.toInt - machine.registers.stackPointer.toInt < 0
  · exact ⟨machine.tally, if_pos h⟩
  · exact ⟨_, if_neg h⟩

-- A push that succeeds, but for the depth that it notes.
theorem pushedWord_eq :
    ∃ tally, machine.pushedWord value =
      { (machine.setWord machine.pushSlot.toInt value).setStackPointer machine.pushSlot with
        tally } :=
  observeDepth_eq ((machine.setWord machine.pushSlot.toInt value).setStackPointer machine.pushSlot)

@[simp] theorem stackAddress_pushedWord :
    (machine.pushedWord value).stackAddress = machine.pushSlot.toInt := by
  obtain ⟨tally, ht⟩ := machine.pushedWord_eq value
  rw [ht]
  exact stackAddress_setStackPointer _ _

@[simp] theorem memory_pushedWord :
    (machine.pushedWord value).memory =
      machine.memory.setWord machine.pushSlot.toInt.toNat value.toUInt32 := by
  obtain ⟨tally, ht⟩ := machine.pushedWord_eq value
  rw [ht]
  rfl

end Fields

theorem stackAddress_setRegister (machine : Machine) {index : UInt8} (value : Int32)
    (hi : index.toNat < 16) (hne : index ≠ 6) :
    (machine.setRegister index value hi).stackAddress = machine.stackAddress := by
  have hne : index.toNat ≠ 6 := by
    intro h
    exact hne (UInt8.toNat_inj.mp h)
  unfold stackAddress Registers.stackPointer setRegister
  rw [Vector.getElem_set_ne hi (by decide) hne]

theorem stackAddress_drop (machine : Machine) (h : machine.stackAddress < 2147483644) :
    machine.drop.stackAddress = machine.stackAddress + 4 := by
  have hle := machine.registers.stackPointer.le_toInt
  have hfour : (4 : Int32).toInt = 4 := rfl
  unfold stackAddress at h ⊢
  rw [← hfour, ← toInt_add_eq _ _ (by omega) (by omega)]
  exact stackAddress_setStackPointer _ _

theorem readRegister_setRegister (machine : Machine) (index : UInt8) (value : Int32)
    (hi : index.toNat < 16) :
    (machine.setRegister index value hi).readRegister index = .ok value := by
  rw [readRegister_eq_ok_iff, Registers.read_of_lt _ _ hi]
  simp [setRegister]

theorem readRegister_drop (machine : Machine) {index : UInt8} (hi : index.toNat < 16)
    (hne : index ≠ 6) : machine.drop.readRegister index = machine.readRegister index := by
  have hne : 6 ≠ index.toNat := by
    intro h
    exact hne (UInt8.toNat_inj.mp h.symm)
  rw [readRegister, readRegister, Registers.read_of_lt _ _ hi, Registers.read_of_lt _ _ hi]
  simp [drop, setStackPointer, Registers.setStackPointer, Vector.getElem_set_ne, hne]

-- What no instruction changes. The program counter is moved by the step, not by the instruction.
structure Frame (before after : Machine) : Prop where
  pc : after.pc = before.pc
  stackTop : after.stackTop = before.stackTop
  policy : after.policy = before.policy
  size : after.memory.size = before.memory.size

theorem frame_pushedWord (machine : Machine) (value : Int32) :
    machine.Frame (machine.pushedWord value) := by
  obtain ⟨tally, ht⟩ := machine.pushedWord_eq value
  rw [ht]
  exact ⟨rfl, rfl, rfl, rfl⟩

theorem frame_of_effects {i : Instruction} {machine after : Machine} {op : Operation}
    (h : machine.Effects i op after) : machine.Frame after := by
  cases h with
  | called hm | pushed value hv hm => exact machine.frame_pushedWord _
  | _ => exact ⟨rfl, rfl, rfl, rfl⟩

theorem frame_of_completes {i : Instruction} {machine after : Machine} {console rest : Console}
    {flow : Flow} (h : machine.Completes i console flow after rest) : machine.Frame after := by
  cases h with
  | skipped hop hp => exact ⟨rfl, rfl, rfl, rfl⟩
  | done op delivered final rest hop hc he =>
    obtain ⟨hpc, htop, hpolicy, hsize⟩ := frame_of_effects (effects_of_effect he)
    exact ⟨hpc, htop, hpolicy, hsize⟩

-- Only a comparison sets the flags.
theorem flags_of_effects {i : Instruction} {machine after : Machine} {op : Operation}
    (h : machine.Effects i op after) (hop : op ≠ .compare) :
    after.registers.flags = machine.registers.flags := by
  cases h with
  | compared first second => exact absurd rfl hop
  | called hm | pushed value hv hm =>
    obtain ⟨tally, ht⟩ := machine.pushedWord_eq _
    rw [ht]
    rfl
  | _ => rfl

-- The stack pointer is moved by the operations of the stack, and by an operand.
theorem stackAddress_of_effects {i : Instruction} {machine after : Machine} {op : Operation}
    (h : machine.Effects i op after) (hstack : op.movesStack = false)
    (hd : op.destination? i ≠ some 6) : after.stackAddress = machine.stackAddress := by
  cases h with
  | assigned op index value hindex hop hi =>
    exact stackAddress_setRegister _ value hi fun h6 => hd (h6 ▸ hindex)
  | stored | compared | branched | printed => rfl
  | called | halted | returned | pushed | popped => cases hstack

end Machine

end WordMachine
