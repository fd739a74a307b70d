import WordMachine.Proofs.Simulation.Completion

namespace WordMachine

namespace Completion

def operation? (completion : Completion) : Option Operation :=
  completion.instruction.operation?

-- What the instruction counts as. A word without an operation is one that was skipped.
def category (completion : Completion) : Category :=
  match completion.operation? with
  | none => .unknown
  | some op => op.category

def isJump (completion : Completion) : Bool :=
  completion.operation? = some (.branch .always)

-- A conditional branch whose condition held, or did not, as `outcome` says.
def decides (completion : Completion) (outcome : Bool) : Bool :=
  match completion.operation? with
  | some (.branch condition) =>
    condition ≠ .always ∧ completion.machine.registers.flags.holds condition = outcome
  | _ => false

end Completion

namespace Tally

-- The account after one more instruction. The depth of the stack is no matter of counting.
structure Enters (before : Tally) (completion : Completion) (after : Tally) : Prop where
  retired : after.retired = before.retired + 1
  count : ∀ category, after.count category =
    before.count category + if category = completion.category then 1 else 0
  taken : after.taken =
    before.taken + (if completion.isJump then 1 else 0) + if completion.decides true then 1 else 0
  notTaken : after.notTaken = before.notTaken + if completion.decides false then 1 else 0

section Fields

variable (tally : Tally) (category : Category) (taken : Bool)

@[simp] theorem taken_retire : (tally.retire category).taken = tally.taken := by
  cases category <;> rfl

@[simp] theorem notTaken_retire : (tally.retire category).notTaken = tally.notTaken := by
  cases category <;> rfl

@[simp] theorem peakDepth_retire : (tally.retire category).peakDepth = tally.peakDepth := by
  cases category <;> rfl

@[simp] theorem retired_recordBranch : (tally.recordBranch taken).retired = tally.retired := by
  cases taken <;> rfl

@[simp] theorem count_recordBranch :
    (tally.recordBranch taken).count category = tally.count category := by
  cases taken <;> cases category <;> rfl

@[simp] theorem taken_recordBranch :
    (tally.recordBranch taken).taken = tally.taken + if taken then 1 else 0 := by
  cases taken <;> rfl

@[simp] theorem notTaken_recordBranch :
    (tally.recordBranch taken).notTaken = tally.notTaken + if taken then 0 else 1 := by
  cases taken <;> rfl

end Fields

end Tally

namespace Machine

theorem tally_observeDepth (machine : Machine) :
    ∃ peakDepth, machine.observeDepth.tally = { machine.tally with peakDepth } := by
  by_cases h : machine.stackTop.toInt - machine.registers.stackPointer.toInt < 0
  · have hsame : machine.observeDepth = machine := if_pos h
    exact ⟨machine.tally.peakDepth, by rw [hsame]⟩
  · have hnoted : machine.observeDepth = { machine with
        tally := machine.tally.observeDepth
          (machine.stackTop.toInt - machine.registers.stackPointer.toInt).toNat } := if_neg h
    exact ⟨_, by rw [hnoted]; rfl⟩

-- No operation but a branch counts anything before it is completed.
theorem tally_of_effects {i : Instruction} {machine after : Machine} {op : Operation}
    (h : machine.Effects i op after) (hop : ∀ condition, op ≠ .branch condition) :
    ∃ peakDepth, after.tally = { machine.tally with peakDepth } := by
  cases h with
  | branched condition taken => exact absurd rfl (hop condition)
  | called hm | pushed value hv hm => exact tally_observeDepth _
  | _ => exact ⟨machine.tally.peakDepth, rfl⟩

-- A branch counts its outcome as well, which is always the same for a jump.
theorem enters_of_branch {i : Instruction} {condition : Condition}
    (hop : i.operation? = some (.branch condition)) (machine : Machine) :
    machine.tally.Enters ⟨i, machine⟩
      ((machine.tally.recordBranch (machine.registers.flags.holds condition)).retire .branch) := by
  have hjump : Completion.isJump ⟨i, machine⟩ = decide (condition = .always) := by
    simp only [Completion.isJump, Completion.operation?, hop, Option.some.injEq,
      Operation.branch.injEq]
  have hdecides (outcome : Bool) : Completion.decides ⟨i, machine⟩ outcome =
      decide (condition ≠ .always ∧ machine.registers.flags.holds condition = outcome) := by
    simp only [Completion.decides, Completion.operation?, hop]
  have hcategory : Completion.category ⟨i, machine⟩ = .branch := by
    simp only [Completion.category, Completion.operation?, hop, Operation.category]
  refine ⟨?_, ?_, ?_, ?_⟩
  · rw [Tally.retired_retire, Tally.retired_recordBranch]
  · intro category
    rw [Tally.count_retire, Tally.count_recordBranch, hcategory]
  all_goals
    simp only [Tally.taken_retire, Tally.taken_recordBranch, Tally.notTaken_retire,
      Tally.notTaken_recordBranch, hjump, hdecides]
    by_cases halways : condition = .always
    · subst halways
      rfl
    · cases machine.registers.flags.holds condition <;> simp [halways]

-- An instruction without a branch is counted once, in all and in its category.
theorem enters_of_plain (i : Instruction) (machine : Machine) {tally : Tally}
    (hop : ∀ condition, i.operation? ≠ some (.branch condition))
    (ht : ∃ peakDepth, tally = { machine.tally with peakDepth }) :
    machine.tally.Enters ⟨i, machine⟩ (tally.retire (Completion.category ⟨i, machine⟩)) := by
  obtain ⟨peakDepth, rfl⟩ := ht
  have hjump : Completion.isJump ⟨i, machine⟩ = false := decide_eq_false (hop .always)
  have hdecides (outcome : Bool) : Completion.decides ⟨i, machine⟩ outcome = false := by
    unfold Completion.decides
    split
    · exact absurd ‹_› (hop _)
    · rfl
  refine ⟨?_, ?_, ?_, ?_⟩
  · rw [Tally.retired_retire]
  · intro category
    rw [Tally.count_retire]
    cases category <;> rfl
  · rw [Tally.taken_retire, hjump, hdecides]
    rfl
  · rw [Tally.notTaken_retire, hdecides]
    rfl

-- Each instruction that completes is entered into the account once, whatever it is.
theorem enters_of_completes {i : Instruction} {machine after : Machine} {console rest : Console}
    {flow : Flow} (h : machine.Completes i console flow after rest) :
    machine.tally.Enters ⟨i, machine⟩ after.tally := by
  cases h with
  | skipped hop hp =>
    have hcategory : Completion.category ⟨i, machine⟩ = .unknown := by
      simp only [Completion.category, Completion.operation?, hop]
    have hplain := enters_of_plain i machine (by simp [hop]) ⟨machine.tally.peakDepth, rfl⟩
    rw [hcategory] at hplain
    exact hplain
  | done op delivered final rest hop hc he =>
    by_cases hbranch : ∃ condition, op = .branch condition
    · obtain ⟨condition, rfl⟩ := hbranch
      cases he
      exact enters_of_branch hop machine
    · have hne : ∀ condition, op ≠ .branch condition := fun condition h => hbranch ⟨condition, h⟩
      have hcategory : Completion.category ⟨i, machine⟩ = op.category := by
        simp only [Completion.category, Completion.operation?, hop]
      have hplain := enters_of_plain i machine (by simpa [hop] using hne)
        (tally_of_effects (effects_of_effect he) hne)
      rw [hcategory] at hplain
      exact hplain

end Machine

theorem Simulator.enters_of_completion {simulator : Simulator} {completion : Completion}
    (h : simulator.completion? = some completion) :
    simulator.machine.tally.Enters completion simulator.step.simulator.machine.tally := by
  obtain ⟨i, flow, rfl, hx⟩ := executes_of_completion h
  obtain ⟨machine, console, hcompletes, hafter⟩ := completes_of_executes hx
  have henters := Machine.enters_of_completes hcompletes
  rw [hafter]
  exact henters

end WordMachine
