import WordMachine.Machine.Basic

namespace WordMachine

namespace Registers

theorem read_of_lt (registers : Registers) (index : UInt8) (h : index.toNat < 16) :
    registers.read index = .ok registers.general[index.toNat] := by
  simp [read, h]

theorem read_flags (registers : Registers) :
    registers.read 16 = .ok registers.flags.toWord.toInt32 := by
  simp [read]

theorem read_of_gt (registers : Registers) (index : UInt8) (h : 16 < index.toNat) :
    registers.read index = .error (.absent index) := by
  have hne : index ≠ 16 := by rintro rfl; exact absurd h (by decide)
  simp [read, Nat.not_lt.mpr (Nat.le_of_lt h), hne]

theorem write_of_lt (registers : Registers) (index : UInt8) (value : Int32)
    (h : index.toNat < 16) :
    registers.write index value =
      .ok { registers with general := registers.general.set index.toNat value h } := by
  simp [write, h]

theorem write_flags (registers : Registers) (value : Int32) :
    registers.write 16 value = .error (.readOnly 16) := by
  simp [write]

theorem write_of_gt (registers : Registers) (index : UInt8) (value : Int32)
    (h : 16 < index.toNat) : registers.write index value = .error (.absent index) := by
  have hne : index ≠ 16 := by rintro rfl; exact absurd h (by decide)
  simp [write, Nat.not_lt.mpr (Nat.le_of_lt h), hne]

-- Only the sixteen general registers can be written, each apart from the others and the flags.
theorem write_eq_ok_iff {registers after : Registers} {index : UInt8} {value : Int32} :
    registers.write index value = .ok after ↔
      ∃ h : index.toNat < 16,
        after = { registers with general := registers.general.set index.toNat value h } := by
  constructor
  · intro h
    simp only [write] at h
    split at h
    · exact ⟨‹_›, (Except.ok.inj h).symm⟩
    · split at h <;> cases h
  · rintro ⟨h, rfl⟩
    exact write_of_lt registers index value h

end Registers

namespace Memory

-- The word at an address lies in the region.
def Holds (memory : Memory) (address : Int) : Prop :=
  0 ≤ address ∧ address + 4 ≤ memory.size

instance (memory : Memory) (address : Int) : Decidable (memory.Holds address) :=
  inferInstanceAs (Decidable (_ ∧ _))

end Memory

namespace Machine

theorem load_eq (machine : Machine) (address : Int) :
    machine.load address =
      if machine.memory.Holds address then .ok (machine.memory.wordAt address.toNat).toInt32
      else .error (.memory ⟨address, machine.memory.size⟩ machine.pc) := by
  by_cases h : machine.memory.Holds address
  · have hl : machine.memory.locate address = .ok address.toNat := if_pos h
    rw [if_pos h, load, Memory.readWord, hl]
    rfl
  · have hl : machine.memory.locate address = .error ⟨address, machine.memory.size⟩ := if_neg h
    rw [if_neg h, load, Memory.readWord, hl]
    rfl

theorem store_eq (machine : Machine) (address : Int) (value : Int32) :
    machine.store address value =
      if machine.memory.Holds address then
        .ok { machine with memory := machine.memory.setWord address.toNat value.toUInt32 }
      else .error (.memory ⟨address, machine.memory.size⟩ machine.pc) := by
  by_cases h : machine.memory.Holds address
  · have hl : machine.memory.locate address = .ok address.toNat := if_pos h
    rw [if_pos h, store, Memory.writeWord, hl]
    rfl
  · have hl : machine.memory.locate address = .error ⟨address, machine.memory.size⟩ := if_neg h
    rw [if_neg h, store, Memory.writeWord, hl]
    rfl

end Machine

end WordMachine
