import WordMachine.Proofs.Machine.Comparison
import WordMachine.Proofs.Simulation.Passage

namespace WordMachine.Simulator

-- The simulator runs this program, and has come to the instruction at this address.
structure Stands (program : List Instruction) (pc : UInt32) (simulator : Simulator) : Prop where
  program : simulator.program = program.toArray
  pc : simulator.machine.pc = pc

-- One instruction that has come to this machine and console, and after which the program goes on.
structure Passes (here : Simulator) (op : Operation) (after : Machine) (rest : Console)
    (there : Simulator) : Prop where
  leads : here.Leads there
  registers : there.machine.registers = after.registers
  tally : there.machine.tally = after.tally.retire op.category
  console : there.console = rest

section Program

variable {program : List Instruction} {pc target : UInt32} {here there : Simulator}
  {i : Instruction} {op : Operation} {delivered : Int32} {after : Machine} {rest : Console}

theorem fetch_of_stands (h : Stands program pc here) (ha : pc.toNat % 4 = 0)
    (hi : program[pc.toNat / 4]? = some i) : here.fetch = .ok i := by
  rw [fetch_eq_ok_iff, h.pc, h.program, List.getElem?_toArray]
  exact ⟨ha, hi⟩

theorem endAddress_of_stands (h : Stands program pc here) :
    here.endAddress = program.length * 4 := by
  rw [endAddress, h.program, List.size_toArray]

theorem nextPc_of_stands (h : Stands program pc here) : here.machine.nextPc = pc + 4 := by
  rw [Machine.nextPc, h.pc]

theorem target_of_stands (h : Stands program pc here) (distance : Int32) :
    here.machine.target distance = pc + 4 + distance.toUInt32 := by
  rw [Machine.target, nextPc_of_stands h]

-- Where a branch goes that comes after a comparison.
theorem flow_of_compared (h : Stands program pc here) {first second : Int32}
    (hflags : here.machine.registers.flags = .compare first second) (condition : Condition)
    (i : Instruction) :
    here.machine.flow (.branch condition) i = .goTo
      (if condition.Relates first second then pc + 4 + i.immediate.toUInt32 else pc + 4) := by
  show Flow.goTo (if here.machine.registers.flags.holds condition then
    here.machine.target i.immediate else here.machine.nextPc) = _
  rw [hflags, Flags.holds_compare, target_of_stands h, nextPc_of_stands h]
  simp only [decide_eq_true_eq]

theorem general_of_passes (h : Passes here op after rest there) (place : Fin 16) :
    there.machine.general place = after.general place := by
  rw [Machine.general, h.registers]
  rfl

section Instruction

variable (h : Stands program pc here) (ha : pc.toNat % 4 = 0)
  (hi : program[pc.toNat / 4]? = some i) (hop : i.operation? = some op)
  (hc : here.machine.converse op i here.console = (.ok delivered, rest))

include h ha hi hop hc

-- The next instruction of the program leads to another one.
theorem passes_of_effect (he : here.machine.effect op i delivered = .ok after)
    (hflow : here.machine.flow op i = .goTo target) (hin : target.toNat ≠ program.length * 4) :
    ∃ there, Passes here op after rest there ∧ Stands program target there := by
  rw [← endAddress_of_stands h] at hin
  have hleads := leads_of_effect (fetch_of_stands h ha hi) hop hc he hflow hin
  exact ⟨_, ⟨hleads, rfl, rfl, rfl⟩, h.program, rfl⟩

-- The next instruction writes a register, and leads to the one after it.
theorem passes_of_assign {index : UInt8} {value : Int32} {hindex : index.toNat < 16}
    (he : here.machine.effect op i delivered = .ok (here.machine.setRegister index value hindex))
    (hflow : here.machine.flow op i = .goTo here.machine.nextPc)
    (hin : (pc + 4).toNat ≠ program.length * 4) :
    ∃ there, Passes here op (here.machine.setRegister index value hindex) rest there ∧
      Stands program (pc + 4) there ∧
      ∀ place : Fin 16, there.machine.general place =
        if index.toNat = place then value else here.machine.general place := by
  rw [nextPc_of_stands h] at hflow
  obtain ⟨there, hpasses, hstands⟩ := passes_of_effect h ha hi hop hc he hflow hin
  refine ⟨there, hpasses, hstands, ?_⟩
  intro place
  rw [general_of_passes hpasses, Machine.general_setRegister]

end Instruction

-- The next token is read into a register, and the program goes on with the instruction after that.
theorem passes_of_read {value : Int32} (h : Stands program pc here) (ha : pc.toNat % 4 = 0)
    (hi : program[pc.toNat / 4]? = some i) (hop : i.operation? = some .read)
    (hindex : i.first.toNat < 16) (hread : here.console.nextToken.1.integer = .ok value)
    (hin : (pc + 4).toNat ≠ program.length * 4) :
    ∃ there, Passes here .read (here.machine.setRegister i.first value hindex)
        here.console.nextToken.2 there ∧
      Stands program (pc + 4) there ∧
      ∀ place : Fin 16, there.machine.general place =
        if i.first.toNat = place then value else here.machine.general place := by
  have hc : here.machine.converse .read i here.console = (.ok value, here.console.nextToken.2) := by
    rw [Machine.converse_read, hread]
    rfl
  exact passes_of_assign h ha hi hop hc (here.machine.writeRegister_of_lt hindex value) rfl hin

end Program

-- Where a course leads to a step that stops, the course is as long as the account grows by it.
theorem stops_of_leads {here there : Simulator} {result : Except Fault Status}
    (h : here.Leads there) (hv : verdict? there.step.result = some result) :
    ∃ count, here.Stops count result ∧ here.after count = there ∧
      there.machine.tally.retired = here.machine.tally.retired + count := by
  obtain ⟨count, hcontinues, rfl⟩ := h
  exact ⟨count, ⟨hcontinues, hv⟩, rfl, retired_after hcontinues⟩

end WordMachine.Simulator
