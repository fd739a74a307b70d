import WordMachine.Proofs.Execution.Outcome
import WordMachine.Proofs.Stack.Slot

namespace WordMachine

-- The register that an operation writes as an operand.
def Operation.destination? (op : Operation) (i : Instruction) : Option UInt8 :=
  match op with
  | subImm | addImm | halve | moveImm | pop | read => some i.first
  | add | mul | move | load => some i.second
  | store | compare | branch _ | call | ret | push | print => none

namespace Machine

def setRegister (machine : Machine) (index : UInt8) (value : Int32) (hi : index.toNat < 16) :
    Machine :=
  let general := machine.registers.general.set index.toNat value hi
  { machine with registers := { machine.registers with general } }

def setWord (machine : Machine) (address : Int) (value : Int32) : Machine :=
  { machine with memory := machine.memory.setWord address.toNat value.toUInt32 }

-- The word that a pop delivers and a return goes to.
def topWord (machine : Machine) : Int32 :=
  (machine.memory.wordAt machine.stackAddress.toNat).toInt32

-- Everything that an operation can do to the machine, before it is counted. A pop writes its
-- register first and moves the stack pointer then.
inductive Effects (i : Instruction) (machine : Machine) : Operation → Machine → Prop where
  | assigned (op : Operation) (index : UInt8) (value : Int32)
      (hd : op.destination? i = some index) (hop : op ≠ .pop) (hi : index.toNat < 16) :
      Effects i machine op (machine.setRegister index value hi)
  | stored (base value : Int32) (hb : machine.readRegister i.second = .ok base)
      (hm : machine.memory.Holds (address base i.immediate)) :
      Effects i machine .store (machine.setWord (address base i.immediate) value)
  | compared (first second : Int32) : Effects i machine .compare (machine.compare first second)
  | branched (condition : Condition) (taken : Bool) :
      Effects i machine (.branch condition) (machine.recordBranch taken)
  | called (hm : machine.memory.Holds machine.pushSlot.toInt) :
      Effects i machine .call (machine.pushedWord machine.nextPc.toInt32)
  | halted (ht : machine.isAtStackTop = true) : Effects i machine .ret machine
  | returned (ht : machine.isAtStackTop = false)
      (hm : machine.memory.Holds machine.stackAddress) : Effects i machine .ret machine.drop
  | pushed (value : Int32) (hv : machine.pushed i.first = .ok value)
      (hm : machine.memory.Holds machine.pushSlot.toInt) :
      Effects i machine .push (machine.pushedWord value)
  | popped (hm : machine.memory.Holds machine.stackAddress) (hi : i.first.toNat < 16) :
      Effects i machine .pop (machine.setRegister i.first machine.topWord hi).drop
  | printed : Effects i machine .print machine

theorem readRegister_eq_ok_iff {machine : Machine} {index : UInt8} {value : Int32} :
    machine.readRegister index = .ok value ↔ machine.registers.read index = .ok value := by
  unfold readRegister
  cases machine.registers.read index <;> simp

theorem writeRegister_eq_ok_iff {machine after : Machine} {index : UInt8} {value : Int32} :
    machine.writeRegister index value = .ok after ↔
      ∃ hi : index.toNat < 16, after = machine.setRegister index value hi := by
  unfold writeRegister
  constructor
  · intro h
    cases hw : machine.registers.write index value with
    | error cause => simp [hw] at h
    | ok registers =>
      obtain ⟨hi, rfl⟩ := Registers.write_eq_ok_iff.mp hw
      simp only [hw, Except.ok.injEq] at h
      exact ⟨hi, h.symm⟩
  · rintro ⟨hi, rfl⟩
    rw [Registers.write_of_lt _ _ _ hi]
    rfl

end Machine

theorem bind_eq_ok {attempt : Except ε α} {next : α → Except ε β} {b : β}
    (h : attempt >>= next = .ok b) : ∃ a, attempt = .ok a ∧ next a = .ok b := by
  cases attempt with
  | error cause => cases h
  | ok a => exact ⟨a, rfl, h⟩

namespace Machine

theorem holds_of_push {machine after : Machine} {value : Int32}
    (h : machine.push value = .ok after) :
    machine.memory.Holds machine.pushSlot.toInt ∧ after = machine.pushedWord value := by
  rw [push_eq] at h
  by_cases hm : machine.memory.Holds machine.pushSlot.toInt
  · rw [if_pos hm] at h
    exact ⟨hm, (Except.ok.inj h).symm⟩
  · rw [if_neg hm] at h
    cases h

theorem holds_of_peek {machine : Machine} {value : Int32} (h : machine.peek = .ok value) :
    machine.memory.Holds machine.stackAddress ∧ value = machine.topWord := by
  rw [peek_eq] at h
  by_cases hm : machine.memory.Holds machine.stackAddress
  · rw [if_pos hm] at h
    exact ⟨hm, (Except.ok.inj h).symm⟩
  · rw [if_neg hm] at h
    cases h

theorem effects_of_effect {op : Operation} {i : Instruction} {machine after : Machine}
    {delivered : Int32} (h : machine.effect op i delivered = .ok after) :
    machine.Effects i op after := by
  have hassigned (index : UInt8) (value : Int32) (hd : op.destination? i = some index)
      (hop : op ≠ .pop) (hw : machine.writeRegister index value = .ok after) :
      machine.Effects i op after := by
    obtain ⟨hi, rfl⟩ := writeRegister_eq_ok_iff.mp hw
    exact .assigned op index value hd hop hi
  cases op with
  | subImm | addImm | halve | move =>
    obtain ⟨value, -, hw⟩ := bind_eq_ok h
    exact hassigned _ _ rfl nofun hw
  | add | mul | load =>
    obtain ⟨value, -, h⟩ := bind_eq_ok h
    obtain ⟨other, -, hw⟩ := bind_eq_ok h
    exact hassigned _ _ rfl nofun hw
  | moveImm | read => exact hassigned _ _ rfl nofun h
  | store =>
    obtain ⟨base, hb, h⟩ := bind_eq_ok h
    obtain ⟨value, -, h⟩ := bind_eq_ok h
    rw [store_eq] at h
    by_cases hm : machine.memory.Holds (address base i.immediate)
    · rw [if_pos hm] at h
      cases h
      exact .stored base value hb hm
    · rw [if_neg hm] at h
      cases h
  | compare =>
    obtain ⟨first, -, h⟩ := bind_eq_ok h
    obtain ⟨second, -, h⟩ := bind_eq_ok h
    cases h
    exact .compared first second
  | branch condition =>
    cases h
    exact .branched condition _
  | call =>
    obtain ⟨hm, rfl⟩ := holds_of_push h
    exact .called hm
  | ret =>
    simp only [effect] at h
    cases ht : machine.isAtStackTop with
    | true =>
      rw [ht, if_pos rfl] at h
      cases h
      exact .halted ht
    | false =>
      rw [ht, if_neg (by decide)] at h
      obtain ⟨value, hp, h⟩ := bind_eq_ok h
      cases h
      exact .returned ht (holds_of_peek hp).1
  | push =>
    obtain ⟨value, hv, h⟩ := bind_eq_ok h
    obtain ⟨hm, rfl⟩ := holds_of_push h
    exact .pushed value hv hm
  | pop =>
    obtain ⟨value, hp, h⟩ := bind_eq_ok h
    obtain ⟨written, hw, h⟩ := bind_eq_ok h
    obtain ⟨hm, rfl⟩ := holds_of_peek hp
    obtain ⟨hi, rfl⟩ := writeRegister_eq_ok_iff.mp hw
    cases h
    exact .popped hm hi
  | print =>
    cases h
    exact .printed

end Machine

end WordMachine
