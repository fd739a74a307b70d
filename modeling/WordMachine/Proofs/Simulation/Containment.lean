import WordMachine.Proofs.Execution.Footprint
import WordMachine.Proofs.Simulation.Branching

namespace WordMachine

theorem Machine.not_overwrites {i : Instruction}
    (hop : i.operation? ∉ [some .store, some .push, some .call]) (machine : Machine)
    (place : Nat) : ¬ machine.Overwrites i place := by
  rintro ⟨address, ha, -⟩
  unfold storeAddress? at ha
  split at ha
  · exact hop (by simp [*])
  · exact hop (by simp [*])
  · exact hop (by simp [*])
  · cases ha

namespace Simulator

-- A step without an instruction to execute changes nothing.
theorem step_of_fetch_error {simulator : Simulator} {fault : Fault}
    (h : simulator.fetch = .error fault) : simulator.step.simulator = simulator := by
  have hsteps := simulator.steps_step
  generalize simulator.step.simulator = after at hsteps ⊢
  generalize simulator.step.result = result at hsteps
  cases hsteps with
  | ended | lost => rfl
  | faulted i fault he hf | halted i he hf | moved i pc he hf => cases h.symm.trans hf

-- Whether the instruction faults, halts or goes on, the step stays within its footprint.
theorem footprint_step {simulator : Simulator} {i : Instruction} (h : simulator.fetch = .ok i) :
    simulator.machine.Footprint i simulator.step.simulator.machine ∧
      simulator.console.Footprint i simulator.step.simulator.console := by
  have hconsole := Machine.footprint_execute i simulator.machine simulator.console
  have hsteps := simulator.steps_step
  generalize simulator.step.simulator = after at hsteps ⊢
  generalize simulator.step.result = result at hsteps
  cases hsteps with
  | ended he => simp [isAtEnd_of_fetch h] at he
  | lost he hf => cases h.symm.trans hf
  | faulted j fault he hf hx =>
    cases h.symm.trans hf
    have hmachine : (simulator.execute i).simulator.machine = simulator.machine :=
      (Machine.fails_of_execute hx).1
    exact ⟨hmachine ▸ Machine.footprint_refl i _, hconsole⟩
  | halted j he hf hx | moved j pc he hf hx =>
    cases h.symm.trans hf
    have hmachine := Machine.footprint_of_completes (Machine.completes_of_execute hx)
    exact ⟨⟨hmachine.register, hmachine.flags, hmachine.byte⟩, hconsole⟩

-- What every instruction of the program leaves as it is, a run leaves as it is.
theorem eq_after_of_kept {α : Type} (simulator : Simulator) (question : Simulator → α)
    (h : ∀ (here : Simulator) i, i ∈ simulator.program → here.fetch = .ok i →
      question here.step.simulator = question here) (count : Nat) :
    question (simulator.after count) = question simulator := by
  induction count with
  | zero => rfl
  | succ count ih =>
    cases hf : (simulator.after count).fetch with
    | error fault => rw [after, step_of_fetch_error hf, ih]
    | ok i =>
      have hmem := mem_of_fetch hf
      rw [(simulator.fixed_after count).program] at hmem
      rw [after, h _ i hmem hf, ih]

-- A run changes no more than the instructions of its program name: a register that is no
-- destination of any of them, the flags without a comparison, the memory without an operation that
-- stores, the output without a print and the input without a read stay as they are. A step changes
-- no more than the one instruction names that it executes.
theorem runs_stay_within_destinations {start here : Simulator} {past : List Completion}
    (h : start.Reaches past here) :
    (∀ index : UInt8, (∀ i ∈ start.program, index ∉ i.destinations) →
      here.machine.registers.general[index.toNat]? =
        start.machine.registers.general[index.toNat]?) ∧
    ((∀ i ∈ start.program, i.operation? ≠ some .compare) →
      here.machine.registers.flags = start.machine.registers.flags ∧
      (start.machine.registers.flags = .clear → ∀ i condition, here.fetch = .ok i →
        i.operation? = some (.branch condition) → condition ≠ .always →
          here.Resolves i (condition = .greaterOrEqual))) ∧
    ((∀ i ∈ start.program, i.operation? ∉ [some .store, some .push, some .call]) →
      ∀ place, here.machine.memory.byteAt place = start.machine.memory.byteAt place) ∧
    ((∀ i ∈ start.program, i.operation? ≠ some .print) →
      here.console.sink = start.console.sink) ∧
    ((∀ i ∈ start.program, i.operation? ≠ some .read) →
      here.console.pending = start.console.pending ∧
        here.console.unread = start.console.unread) ∧
    start.Fixed here ∧
    (∀ i, here.fetch = .ok i → here.machine.Footprint i here.step.simulator.machine) ∧
    (∀ fault, here.fetch = .error fault → here.step.simulator = here) := by
  obtain ⟨count, rfl, -⟩ := after_of_reaches h
  refine ⟨?_, ?_, ?_, ?_, ?_, start.fixed_after count, fun i hf => (footprint_step hf).1,
    fun fault hf => step_of_fetch_error hf⟩
  · intro index hindex
    exact start.eq_after_of_kept (·.machine.registers.general[index.toNat]?)
      (fun here i hi hf => (footprint_step hf).1.register index (hindex i hi)) count
  · intro hcompare
    have hflags := start.eq_after_of_kept (·.machine.registers.flags)
      (fun here i hi hf => (footprint_step hf).1.flags (hcompare i hi)) count
    refine ⟨hflags, ?_⟩
    intro hclear i condition hf hop hne
    have hresolves := resolves_of_fetch hf hop
    rw [hflags, hclear, Flags.holds_clear] at hresolves
    simpa [hne] using hresolves
  · intro hstore place
    exact start.eq_after_of_kept (·.machine.memory.byteAt place) (fun here i hi hf =>
      (footprint_step hf).1.byte place (Machine.not_overwrites (hstore i hi) _ _)) count
  · intro hprint
    exact start.eq_after_of_kept (·.console.sink)
      (fun here i hi hf => (footprint_step hf).2.output (hprint i hi)) count
  · intro hread
    exact ⟨start.eq_after_of_kept (·.console.pending)
        (fun here i hi hf => ((footprint_step hf).2.input (hread i hi)).1) count,
      start.eq_after_of_kept (·.console.unread)
        (fun here i hi hf => ((footprint_step hf).2.input (hread i hi)).2) count⟩

-- A push and a branch, without a comparison and without a read.
def pushing : Simulator :=
  .ofProgram
    [.assemble .moveImm 0 0 7, .assemble .push 0 0 0, .assemble (.branch .less) 0 0 4,
     .assemble .print 0 0 0]
    .default (.ofInput [0x31] .unlimited)

theorem pushing_keeps_registers :
    pushing.Reaches (pushing.completions 2) (pushing.after 2) ∧
    (pushing.after 2).machine.registers.general[1]? = some 0 ∧
    (pushing.after 2).Resolves (.assemble (.branch .less) 0 0 4) false ∧
    (pushing.after 2).console.unread = [0x31] := by
  have hr : pushing.Reaches (pushing.completions 2) (pushing.after 2) := .step (.step .start)
  have hdestinations : ∀ i ∈ pushing.program, 1 ∉ i.destinations := by decide
  have hcompare : ∀ i ∈ pushing.program, i.operation? ≠ some .compare := by decide
  have hread : ∀ i ∈ pushing.program, i.operation? ≠ some .read := by decide
  obtain ⟨hregister, hflags, -, -, hinput, -⟩ := runs_stay_within_destinations hr
  obtain ⟨-, hbranch⟩ := hflags hcompare
  exact ⟨hr, hregister 1 hdestinations, hbranch rfl _ .less rfl rfl (by decide),
    (hinput hread).2⟩

end Simulator

end WordMachine
