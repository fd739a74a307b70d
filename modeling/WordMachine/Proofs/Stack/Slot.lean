import WordMachine.Proofs.Execution.Transaction
import WordMachine.Proofs.Machine.Signed

namespace WordMachine.Machine

-- The stack pointer as an address.
def stackAddress (machine : Machine) : Int :=
  machine.registers.stackPointer.toInt

-- The machine after a push that succeeds.
def pushedWord (machine : Machine) (value : Int32) : Machine :=
  let memory := machine.memory.setWord machine.pushSlot.toInt.toNat value.toUInt32
  ({ machine with memory }.setStackPointer machine.pushSlot).observeDepth

theorem push_eq (machine : Machine) (value : Int32) :
    machine.push value =
      if machine.memory.Holds machine.pushSlot.toInt then .ok (machine.pushedWord value)
      else .error (.memory ⟨machine.pushSlot.toInt, machine.memory.size⟩ machine.pc) := by
  unfold push
  rw [store_eq]
  by_cases h : machine.memory.Holds machine.pushSlot.toInt
  · rw [if_pos h, if_pos h, ok_bind]
    rfl
  · rw [if_neg h, if_neg h, error_bind]

theorem peek_eq (machine : Machine) :
    machine.peek =
      if machine.memory.Holds machine.stackAddress then
        .ok (machine.memory.wordAt machine.stackAddress.toNat).toInt32
      else .error (.memory ⟨machine.stackAddress, machine.memory.size⟩ machine.pc) :=
  machine.load_eq machine.stackAddress

theorem toInt_pushSlot (machine : Machine) (h : -2147483644 ≤ machine.stackAddress) :
    machine.pushSlot.toInt = machine.stackAddress - 4 := by
  have hlt := machine.registers.stackPointer.toInt_lt
  have hfour : (4 : Int32).toInt = 4 := rfl
  unfold stackAddress at h ⊢
  exact toInt_sub_eq _ _ (by omega) (by omega)

-- In a memory whose addresses are signed words, a push does not wrap around: the slot below a
-- stack pointer near the least word is at a great address, past the end.
theorem holds_pushSlot_iff {machine : Machine} (hsize : machine.memory.size < 2147483648) :
    machine.memory.Holds machine.pushSlot.toInt ↔
      4 ≤ machine.stackAddress ∧ machine.stackAddress ≤ machine.memory.size := by
  have hlt := machine.registers.stackPointer.toInt_lt
  have hle := machine.registers.stackPointer.le_toInt
  by_cases h : -2147483644 ≤ machine.stackAddress
  · rw [Memory.Holds, toInt_pushSlot machine h]
    omega
  · have hfour : (4 : Int32).toInt = 4 := rfl
    have hwrapped : machine.pushSlot.toInt = machine.stackAddress + 4294967292 := by
      rw [pushSlot, Int32.toInt_sub, Int.bmod_def, hfour]
      unfold stackAddress at h ⊢
      omega
    rw [Memory.Holds, hwrapped]
    unfold stackAddress at h ⊢
    omega

end WordMachine.Machine
