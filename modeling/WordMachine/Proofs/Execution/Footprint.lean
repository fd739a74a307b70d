import WordMachine.Proofs.Execution.Atomicity
import WordMachine.Proofs.Memory.Word

namespace WordMachine

-- The registers that an operation may change: the operand that it writes, and the stack pointer
-- for the operations of the stack.
def Operation.destinations (op : Operation) (i : Instruction) : List UInt8 :=
  (op.destination? i).toList ++ if op.movesStack then [6] else []

def Instruction.destinations (i : Instruction) : List UInt8 :=
  match i.operation? with
  | none => []
  | some op => op.destinations i

namespace Machine

-- The address of the word that an instruction stores, if it stores one.
def storeAddress? (machine : Machine) (i : Instruction) : Option Int :=
  match i.operation? with
  | some .store =>
    match machine.readRegister i.second with
    | .ok base => some (address base i.immediate)
    | .error _ => none
  | some .push | some .call => some machine.pushSlot.toInt
  | _ => none

-- The byte at this place is one of the four of the word that the instruction stores.
def Overwrites (machine : Machine) (i : Instruction) (place : Nat) : Prop :=
  ∃ address, machine.storeAddress? i = some address ∧ address ≤ place ∧ place < address + 4

-- All that an instruction can have changed of the machine.
structure Footprint (i : Instruction) (before after : Machine) : Prop where
  register : ∀ index : UInt8, index ∉ i.destinations →
    after.registers.general[index.toNat]? = before.registers.general[index.toNat]?
  flags : i.operation? ≠ some .compare → after.registers.flags = before.registers.flags
  byte : ∀ place, ¬ before.Overwrites i place →
    after.memory.byteAt place = before.memory.byteAt place

theorem footprint_refl (i : Instruction) (machine : Machine) : machine.Footprint i machine :=
  ⟨fun _ _ => rfl, fun _ => rfl, fun _ _ => rfl⟩

section Effects

variable {i : Instruction} {machine after : Machine} {op : Operation} {index : UInt8}

theorem general_setRegister_of_ne (machine : Machine) {other : UInt8} (value : Int32)
    (hi : other.toNat < 16) (hne : index ≠ other) :
    (machine.setRegister other value hi).registers.general[index.toNat]? =
      machine.registers.general[index.toNat]? := by
  have hne : other.toNat ≠ index.toNat := fun h => hne (UInt8.toNat_inj.mp h.symm)
  exact Vector.getElem?_set_ne hi hne

theorem general_setStackPointer_of_ne (machine : Machine) (value : Int32) (hne : index ≠ 6) :
    (machine.setStackPointer value).registers.general[index.toNat]? =
      machine.registers.general[index.toNat]? :=
  general_setRegister_of_ne machine value (by decide : (6 : UInt8).toNat < 16) hne

theorem general_of_effects (h : machine.Effects i op after) (hindex : index ∉ op.destinations i) :
    after.registers.general[index.toNat]? = machine.registers.general[index.toNat]? := by
  rw [Operation.destinations, List.mem_append, not_or, Option.mem_toList] at hindex
  obtain ⟨hoperand, hstack⟩ := hindex
  have hsp : op.movesStack = true → index ≠ 6 := by
    rintro hmoves rfl
    exact hstack (by simp [hmoves])
  cases h with
  | assigned _ other value hd hop hi =>
    exact general_setRegister_of_ne machine value hi fun h => hoperand (h ▸ hd)
  | stored | compared | branched | halted | printed => rfl
  | called hm | pushed value hv hm =>
    obtain ⟨tally, ht⟩ := machine.pushedWord_eq _
    rw [ht]
    exact general_setStackPointer_of_ne (machine.setWord _ _) _ (hsp rfl)
  | returned ht hm => exact general_setStackPointer_of_ne machine _ (hsp rfl)
  | popped hm hi =>
    exact (general_setStackPointer_of_ne _ _ (hsp rfl)).trans
      (general_setRegister_of_ne machine _ hi fun h => hoperand (h ▸ rfl))

-- A word is stored within the memory, so its address is no negative one.
theorem byteAt_setWord_of_not_overwrites {address : Int} {value : Int32} {place : Nat}
    (hm : machine.memory.Holds address) (ha : machine.storeAddress? i = some address)
    (h : ¬ machine.Overwrites i place) :
    (machine.memory.setWord address.toNat value.toUInt32).byteAt place =
      machine.memory.byteAt place := by
  have hlow := hm.1
  rw [Memory.byteAt_setWord, if_neg]
  intro hin
  exact h ⟨address, ha, by omega, by omega⟩

theorem byteAt_of_effects (h : machine.Effects i op after) (hop : i.operation? = some op)
    {place : Nat} (hplace : ¬ machine.Overwrites i place) :
    after.memory.byteAt place = machine.memory.byteAt place := by
  cases h with
  | stored base value hb hm =>
    exact byteAt_setWord_of_not_overwrites hm (by simp only [storeAddress?, hop, hb]) hplace
  | called hm | pushed value hv hm =>
    rw [memory_pushedWord]
    exact byteAt_setWord_of_not_overwrites hm (by simp only [storeAddress?, hop]) hplace
  | _ => rfl

end Effects

theorem footprint_retire {i : Instruction} {before after : Machine}
    (h : before.Footprint i after) (category : Category) :
    before.Footprint i (after.retire category) :=
  ⟨h.register, h.flags, h.byte⟩

theorem footprint_of_effects {i : Instruction} {machine after : Machine} {op : Operation}
    (h : machine.Effects i op after) (hop : i.operation? = some op) :
    machine.Footprint i after := by
  refine ⟨?_, ?_, ?_⟩
  · intro index hindex
    simp only [Instruction.destinations, hop] at hindex
    exact general_of_effects h hindex
  · intro hcompare
    exact flags_of_effects h fun heq => hcompare (heq ▸ hop)
  · intro place hplace
    exact byteAt_of_effects h hop hplace

theorem footprint_of_completes {i : Instruction} {machine after : Machine}
    {console rest : Console} {flow : Flow} (h : machine.Completes i console flow after rest) :
    machine.Footprint i after := by
  cases h with
  | skipped hop hp => exact footprint_retire (machine.footprint_refl i) .unknown
  | done op delivered final rest hop hc he =>
    exact footprint_retire (footprint_of_effects (effects_of_effect he) hop) op.category

end Machine

namespace Console

-- All that an instruction can have changed of the console.
structure Footprint (i : Instruction) (before after : Console) : Prop where
  output : i.operation? ≠ some .print → after.sink = before.sink
  input : i.operation? ≠ some .read →
    after.pending = before.pending ∧ after.unread = before.unread

theorem footprint_refl (i : Instruction) (console : Console) : console.Footprint i console :=
  ⟨fun _ => rfl, fun _ => ⟨rfl, rfl⟩⟩

end Console

namespace Machine

theorem footprint_converse {i : Instruction} {op : Operation} (hop : i.operation? = some op)
    (machine : Machine) (console : Console) :
    console.Footprint i (machine.converse op i console).2 := by
  have hused := machine.used_converse op i console
  generalize (machine.converse op i console).2 = after at hused ⊢
  cases hused with
  | unused op hread => exact console.footprint_refl i
  | asked => exact ⟨fun _ => console.sink_nextToken, fun hread => absurd hop hread⟩
  | told line => exact ⟨fun hprint => absurd hop hprint, fun _ => ⟨rfl, rfl⟩⟩

theorem footprint_execute (i : Instruction) (machine : Machine) (console : Console) :
    console.Footprint i (machine.execute i console).console := by
  rw [console_execute]
  cases hop : i.operation? with
  | none => exact console.footprint_refl i
  | some op => exact machine.footprint_converse hop console

end Machine

end WordMachine
