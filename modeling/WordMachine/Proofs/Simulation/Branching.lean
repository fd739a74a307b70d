import WordMachine.Proofs.Machine.Comparison
import WordMachine.Proofs.Tally.Entry

namespace WordMachine

-- The comparison that was completed last.
def Completion.lastComparison? (past : List Completion) : Option Completion :=
  past.reverse.find? (·.operation? = some .compare)

namespace Machine

theorem flags_of_completes {i : Instruction} {machine after : Machine} {console rest : Console}
    {flow : Flow} (h : machine.Completes i console flow after rest)
    (hop : i.operation? ≠ some .compare) : after.registers.flags = machine.registers.flags := by
  cases h with
  | skipped hnone hp => rfl
  | done op delivered final rest hsome hc he =>
    have hne : op ≠ .compare := by
      rintro rfl
      exact hop hsome
    have hflags := flags_of_effects (effects_of_effect he) hne
    exact hflags

-- A comparison sets the flags from its two operands, one of which may be the flags themselves.
theorem flags_of_comparison {i : Instruction} {machine after : Machine} {console rest : Console}
    {flow : Flow} (h : machine.Completes i console flow after rest)
    (hop : i.operation? = some .compare) :
    ∃ first second, machine.readRegister i.first = .ok first ∧
      machine.readRegister i.second = .ok second ∧
      after.registers.flags = .compare first second := by
  cases h with
  | skipped hnone hp => simp [hnone] at hop
  | done op delivered final rest hsome hc he =>
    cases hop.symm.trans hsome
    obtain ⟨first, hfirst, he⟩ := bind_eq_ok he
    obtain ⟨second, hsecond, he⟩ := bind_eq_ok he
    cases he
    exact ⟨first, second, hfirst, hsecond, rfl⟩

theorem eq_of_completes_branch {i : Instruction} {machine after : Machine}
    {console rest : Console} {flow : Flow} {condition : Condition}
    (h : machine.Completes i console flow after rest)
    (hop : i.operation? = some (.branch condition)) :
    after = (machine.recordBranch (machine.registers.flags.holds condition)).retire .branch := by
  cases h with
  | skipped hnone hp => simp [hnone] at hop
  | done op delivered final rest hsome hc he =>
    cases hop.symm.trans hsome
    cases he
    rfl

-- The address of a target, as the number that a distance leads to from the next instruction.
theorem toNat_target (machine : Machine) (distance : Int32) :
    ((machine.target distance).toNat : Int) =
      (machine.pc.toNat + 4 + distance.toInt) % 4294967296 := by
  have hdistance := toNat_toUInt32_eq_emod distance
  have hfour : (4 : UInt32).toNat = 4 := rfl
  rw [target, nextPc, UInt32.toNat_add, UInt32.toNat_add, hfour]
  omega

theorem toNat_nextPc (machine : Machine) :
    (machine.nextPc.toNat : Int) = (machine.pc.toNat + 4) % 4294967296 := by
  have hfour : (4 : UInt32).toNat = 4 := rfl
  rw [nextPc, UInt32.toNat_add, hfour]
  omega

end Machine

namespace Simulator

-- The flags tell what was compared last, and are clear where nothing was compared.
structure Reflects (past : List Completion) (flags : Flags) : Prop where
  untouched : Completion.lastComparison? past = none → flags = .clear
  compared : ∀ last, Completion.lastComparison? past = some last →
    ∃ first second, last.machine.readRegister last.instruction.first = .ok first ∧
      last.machine.readRegister last.instruction.second = .ok second ∧
      flags = .compare first second

theorem reflects_of_completes {past : List Completion} {i : Instruction}
    {machine after : Machine} {console rest : Console} {flow : Flow}
    (h : Reflects past machine.registers.flags)
    (hc : machine.Completes i console flow after rest) :
    Reflects (past ++ [⟨i, machine⟩]) after.registers.flags := by
  have hlast : Completion.lastComparison? (past ++ [⟨i, machine⟩]) =
      if i.operation? = some .compare then some ⟨i, machine⟩
      else Completion.lastComparison? past := by
    unfold Completion.lastComparison?
    rw [List.reverse_concat, List.find?_cons]
    by_cases hop : i.operation? = some .compare
    · simp [Completion.operation?, hop]
    · simp [Completion.operation?, hop]
  by_cases hop : i.operation? = some .compare
  · rw [if_pos hop] at hlast
    refine ⟨fun hnone => by simp [hlast] at hnone, ?_⟩
    intro last hsome
    cases hlast.symm.trans hsome
    exact Machine.flags_of_comparison hc hop
  · rw [if_neg hop] at hlast
    rw [Machine.flags_of_completes hc hop]
    refine ⟨fun hnone => h.untouched (hlast.symm.trans hnone), ?_⟩
    intro last hsome
    exact h.compared last (hlast.symm.trans hsome)

-- What a step makes of a branch: where it goes on, and how it counts that.
structure Resolves (before : Simulator) (i : Instruction) (taken : Bool) : Prop where
  result : ∃ status?, before.step.result = .ok status?
  pc : (before.step.simulator.machine.pc.toNat : Int) =
    (before.machine.pc.toNat + 4 + if taken then i.immediate.toInt else 0) % 4294967296
  counted : before.step.simulator.machine.tally.taken =
    before.machine.tally.taken + if taken then 1 else 0
  passed : before.step.simulator.machine.tally.notTaken =
    before.machine.tally.notTaken + if taken then 0 else 1

theorem resolves_of_fetch {simulator : Simulator} {i : Instruction} {condition : Condition}
    (hf : simulator.fetch = .ok i) (hop : i.operation? = some (.branch condition)) :
    simulator.Resolves i (simulator.machine.registers.flags.holds condition) := by
  have hx : (simulator.execute i).result = .ok (simulator.machine.flow (.branch condition) i) :=
    Machine.execute_of_effect hop rfl rfl
  have hexecutes : simulator.Executes i _ simulator.step.simulator := ⟨hf, hx, rfl⟩
  obtain ⟨machine, console, hcompletes, hafter⟩ := completes_of_executes hexecutes
  have hmachine := Machine.eq_of_completes_branch hcompletes hop
  have hpc : simulator.step.simulator.machine.pc =
      if simulator.machine.registers.flags.holds condition then
        simulator.machine.target i.immediate
      else simulator.machine.nextPc := by
    rw [hafter]
    rfl
  have htally : simulator.step.simulator.machine.tally =
      (simulator.machine.tally.recordBranch
        (simulator.machine.registers.flags.holds condition)).retire .branch := by
    rw [hafter, hmachine]
    rfl
  refine ⟨?_, ?_, ?_, ?_⟩
  · cases hl : simulator.step.result with
    | error fault => cases (completion?_of_error hl).symm.trans (completion?_of_executes hexecutes)
    | ok status? => exact ⟨status?, rfl⟩
  · rw [hpc]
    cases simulator.machine.registers.flags.holds condition with
    | true => exact simulator.machine.toNat_target i.immediate
    | false => exact simulator.machine.toNat_nextPc
  · rw [htally, Tally.taken_retire, Tally.taken_recordBranch]
  · rw [htally, Tally.notTaken_retire, Tally.notTaken_recordBranch]

-- The flags are those of the comparison that was completed last, and a branch goes by the relation
-- that its condition names of the two compared operands. Where nothing has been compared, one
-- condition holds.
theorem branches_follow_last_comparison {program : List Instruction}
    {configuration : Configuration} {console : Console} {past : List Completion}
    {here : Simulator} (h : (ofProgram program configuration console).Reaches past here) :
    (Completion.lastComparison? past = none → here.machine.registers.flags = .clear) ∧
    (∀ last, Completion.lastComparison? past = some last →
      ∃ first second, last.machine.readRegister last.instruction.first = .ok first ∧
        last.machine.readRegister last.instruction.second = .ok second ∧
        here.machine.registers.flags = .compare first second) ∧
    (∀ (there : Simulator) i condition, there.fetch = .ok i →
      i.operation? = some (.branch condition) →
      (∀ first second, there.machine.registers.flags = .compare first second →
        there.Resolves i (condition.Relates first second)) ∧
      (there.machine.registers.flags = .clear → condition ≠ .always →
        there.Resolves i (condition = .greaterOrEqual))) := by
  have hreflects : Reflects past here.machine.registers.flags := by
    apply reaches_induction (motive := fun past machine => Reflects past machine.registers.flags) h
    · exact ⟨fun _ => rfl, nofun⟩
    · intro past before after i console rest flow pc hpast hcompletes
      have hnow := reflects_of_completes hpast hcompletes
      exact hnow
  refine ⟨hreflects.untouched, hreflects.compared, ?_⟩
  intro there i condition hf hop
  have hresolves := resolves_of_fetch hf hop
  refine ⟨?_, ?_⟩
  · intro first second hflags
    rw [hflags, Flags.holds_compare] at hresolves
    exact hresolves
  · intro hflags hne
    rw [hflags, Flags.holds_clear] at hresolves
    simpa [hne] using hresolves

-- A comparison with a negative word, and a branch on it over one instruction.
def comparing : Simulator :=
  .ofProgram
    [.assemble .moveImm 0 0 1, .assemble .moveImm 1 0 (-1), .assemble .compare 0 1 0,
     .assemble (.branch .less) 0 0 4, .assemble .print 1 0 0]
    .default (.ofInput [] .unlimited)

theorem negative_is_less :
    comparing.Reaches (comparing.completions 3) (comparing.after 3) ∧
    (comparing.after 3).machine.registers.flags = .compare 1 (-1) ∧
    (comparing.after 3).Resolves (.assemble (.branch .less) 0 0 4) true := by
  have hr : comparing.Reaches (comparing.completions 3) (comparing.after 3) :=
    .step (.step (.step .start))
  obtain ⟨-, hcompared, hbranch⟩ := branches_follow_last_comparison hr
  obtain ⟨first, second, hfirst, hsecond, hflags⟩ :=
    hcompared ⟨.assemble .compare 0 1 0, (comparing.after 2).machine⟩ rfl
  have hone : (comparing.after 2).machine.readRegister 0 = .ok 1 := rfl
  have hnegative : (comparing.after 2).machine.readRegister 1 = .ok (-1) := rfl
  cases hone.symm.trans hfirst
  cases hnegative.symm.trans hsecond
  obtain ⟨hresolves, -⟩ := hbranch (comparing.after 3) (.assemble (.branch .less) 0 0 4) .less
    rfl rfl
  exact ⟨hr, hflags, hresolves 1 (-1) hflags⟩

end Simulator

end WordMachine
