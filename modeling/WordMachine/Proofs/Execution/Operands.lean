import WordMachine.Machine.Execution
import WordMachine.Proofs.Instruction.Assembly
import WordMachine.Proofs.Instruction.Fields

namespace WordMachine

-- An operation reads no field of its instruction but those that it uses.
theorem Action.perform_eq_of_operands {op : Operation} {i j : Instruction}
    (h : op.operands i = op.operands j) : perform op i = perform op j := by
  obtain ⟨hfirst, hsecond, himmediate⟩ := (op.operands_eq_iff i j).mp h
  cases op with
  | subImm | addImm | moveImm =>
    simp only [perform, hfirst rfl, himmediate rfl]
  | add | mul | move | compare =>
    simp only [perform, hfirst rfl, hsecond rfl]
  | load | store =>
    simp only [perform, hfirst rfl, hsecond rfl, himmediate rfl]
  | branch condition =>
    simp only [perform, himmediate rfl]
  | call =>
    simp only [perform, himmediate rfl]
  | ret =>
    simp only [perform]
  | halve | push | pop | print | read =>
    simp only [perform, hfirst rfl]

namespace Instruction

theorem execute_eq_of_agreeOnUsed {i j : Instruction} (h : i.AgreeOnUsed j) :
    Action.execute i = Action.execute j := by
  have hop := operation?_eq_of_agreeOnUsed h
  unfold Action.execute
  rw [← hop, h.1]
  cases hi : i.operation? with
  | none => rfl
  | some op =>
    have hperform := Action.perform_eq_of_operands (operands_eq_of_agreeOnUsed h hi)
    simp only [hperform]

-- A word whose opcode is assigned may have its unused bit the other way.
theorem agreeOnUsed_of_agree {i j : Instruction} (h : Agree i j) (hop : i.operation? ≠ none) :
    i.AgreeOnUsed j := by
  obtain ⟨hopcode, hfirst, hsecond, himmediate⟩ := h
  refine ⟨hopcode, ?_⟩
  cases hi : i.operation? with
  | none => exact absurd hi hop
  | some op => exact ⟨fun _ => hfirst, fun _ => hsecond, fun _ => himmediate⟩

theorem agree_flip (word : UInt32) : Agree (decode word) (decode (word ^^^ 0x10000)) := by
  rw [agree_decode_iff]
  intro bit hbit
  have hunused : Nat.testBit (2 ^ 16) bit = false := Nat.testBit_two_pow_of_ne hbit.symm
  rw [UInt32.toNat_xor, Nat.testBit_xor]
  exact ((congrArg _ hunused).trans (Bool.xor_false _)).symm

-- Two words have one text where nothing that is used tells them apart. No machine, whatever its
-- policy, tells two such words apart, nor the two settings of the unused bit.
theorem assembly_determines_execution (word other : UInt32) :
    ((decode word).assembly = (decode other).assembly ↔
      (decode word).AgreeOnUsed (decode other)) ∧
    ((decode word).assembly = (decode other).assembly → ∀ (machine : Machine) (console : Console),
      machine.execute (decode word) console = machine.execute (decode other) console) ∧
    ((decode word).operation? ≠ none → ∀ (machine : Machine) (console : Console),
      machine.execute (decode (word ^^^ 0x10000)) console =
        machine.execute (decode word) console) := by
  have hsame {i j : Instruction} (h : i.AgreeOnUsed j) (machine : Machine) (console : Console) :
      machine.execute i console = machine.execute j console := by
    rw [Machine.execute, Machine.execute, execute_eq_of_agreeOnUsed h]
  refine ⟨assembly_decode_eq_iff word other, ?_, ?_⟩
  · intro htext
    exact hsame ((assembly_decode_eq_iff word other).mp htext)
  · intro hop machine console
    exact (hsame (agreeOnUsed_of_agree (agree_flip word) hop) machine console).symm

-- The fields of a return are all unused.
theorem returns_execute_alike :
    (decode 0x88000000).assembly = (decode 0x8FFFFFFF).assembly ∧
      (decode 0x88000000).operation? ≠ none ∧
      ∀ (machine : Machine) (console : Console),
        machine.execute (decode 0x88000000) console =
            machine.execute (decode 0x8FFFFFFF) console ∧
          machine.execute (decode 0x88010000) console =
            machine.execute (decode 0x88000000) console := by
  obtain ⟨-, hsame, hflip⟩ := assembly_determines_execution 0x88000000 0x8FFFFFFF
  have htext : (decode 0x88000000).assembly = (decode 0x8FFFFFFF).assembly := by decide
  have hop : (decode 0x88000000).operation? ≠ none := by decide
  refine ⟨htext, hop, ?_⟩
  intro machine console
  exact ⟨hsame htext machine console, hflip hop machine console⟩

end Instruction

end WordMachine
