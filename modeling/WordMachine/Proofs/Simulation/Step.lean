import WordMachine.Proofs.Execution.Frame
import WordMachine.Proofs.Simulation.Course

namespace WordMachine

-- Where the program counter stands after an instruction at `pc`.
def Flow.arrival (pc : UInt32) : Flow → UInt32
  | .goTo target => target
  | .halt => pc

namespace Simulator

-- Everything that a step can do.
inductive Steps (simulator : Simulator) : Except Fault (Option Status) → Simulator → Prop where
  | ended (he : simulator.isAtEnd = true) :
      Steps simulator (.ok (some .endOfProgram)) simulator
  | lost (he : simulator.isAtEnd = false)
      (hf : simulator.fetch =
        .error (.outsideProgram simulator.machine.pc simulator.program.size)) :
      Steps simulator
        (.error (.outsideProgram simulator.machine.pc simulator.program.size)) simulator
  | faulted (i : Instruction) (fault : Fault) (he : simulator.isAtEnd = false)
      (hf : simulator.fetch = .ok i) (hx : (simulator.execute i).result = .error fault) :
      Steps simulator (.error fault) (simulator.execute i).simulator
  | halted (i : Instruction) (he : simulator.isAtEnd = false) (hf : simulator.fetch = .ok i)
      (hx : (simulator.execute i).result = .ok .halt) :
      Steps simulator (.ok (some .halted)) (simulator.execute i).simulator
  | moved (i : Instruction) (pc : UInt32) (he : simulator.isAtEnd = false)
      (hf : simulator.fetch = .ok i) (hx : (simulator.execute i).result = .ok (.goTo pc)) :
      Steps simulator
        (.ok (if ((simulator.execute i).simulator.goTo pc).isAtEnd then some .endOfProgram
          else none))
        ((simulator.execute i).simulator.goTo pc)

theorem fetch_eq_error {simulator : Simulator} {fault : Fault}
    (h : simulator.fetch = .error fault) :
    fault = .outsideProgram simulator.machine.pc simulator.program.size := by
  simp only [fetch] at h
  split at h
  · split at h <;> cases h
    rfl
  · cases h
    rfl

theorem steps_step (simulator : Simulator) :
    simulator.Steps simulator.step.result simulator.step.simulator := by
  unfold step
  cases he : simulator.isAtEnd with
  | true => exact .ended he
  | false =>
    simp only [Bool.false_eq_true, ite_false]
    cases hf : simulator.fetch with
    | error fault =>
      cases fetch_eq_error hf
      exact .lost he hf
    | ok i =>
      simp only
      cases hx : (simulator.execute i).result with
      | error fault => exact .faulted i fault he hf hx
      | ok flow =>
        cases flow with
        | halt => exact .halted i he hf hx
        | goTo pc => exact .moved i pc he hf hx

theorem fetch_eq_ok_iff {simulator : Simulator} {i : Instruction} :
    simulator.fetch = .ok i ↔ simulator.machine.pc.toNat % 4 = 0 ∧
      simulator.program[simulator.machine.pc.toNat / 4]? = some i := by
  have haligned : simulator.machine.pc % 4 = 0 ↔ simulator.machine.pc.toNat % 4 = 0 :=
    UInt32.toNat_inj.symm
  simp only [fetch, haligned]
  by_cases hpc : simulator.machine.pc.toNat % 4 = 0
  · rw [if_pos hpc]
    cases simulator.program[simulator.machine.pc.toNat / 4]? with
    | none => simp
    | some j => simp [hpc]
  · simp [hpc]

theorem isAtEnd_of_fetch {simulator : Simulator} {i : Instruction} (h : simulator.fetch = .ok i) :
    simulator.isAtEnd = false := by
  obtain ⟨-, hget⟩ := fetch_eq_ok_iff.mp h
  obtain ⟨hlt, -⟩ := Array.getElem?_eq_some_iff.mp hget
  exact decide_eq_false (by unfold endAddress; omega)

theorem mem_of_fetch {simulator : Simulator} {i : Instruction} (h : simulator.fetch = .ok i) :
    i ∈ simulator.program :=
  Array.mem_of_getElem? (fetch_eq_ok_iff.mp h).2

-- A step that executes an instruction without a fault.
structure Executes (before : Simulator) (i : Instruction) (flow : Flow) (after : Simulator) :
    Prop where
  fetched : before.fetch = .ok i
  completed : (before.execute i).result = .ok flow
  stepped : before.step.simulator = after

theorem completes_of_executes {before after : Simulator} {i : Instruction} {flow : Flow}
    (h : before.Executes i flow after) :
    ∃ machine console, before.machine.Completes i before.console flow machine console ∧
      after = { before with
        machine := { machine with pc := flow.arrival machine.pc }, console } := by
  refine ⟨_, _, Machine.completes_of_execute h.completed, ?_⟩
  rw [← h.stepped, step, isAtEnd_of_fetch h.fetched, if_neg (by decide), h.fetched]
  simp only [h.completed]
  cases flow with
  | goTo target => rfl
  | halt => rfl

theorem effects_of_executes {before after : Simulator} {i : Instruction} {flow : Flow}
    {op : Operation} (h : before.Executes i flow after) (hop : i.operation? = some op) :
    ∃ machine console, before.machine.Effects i op machine ∧ flow = before.machine.flow op i ∧
      after = { before with
        machine := { machine.retire op.category with pc := flow.arrival before.machine.pc }
        console } := by
  obtain ⟨machine, console, hcompletes, rfl⟩ := completes_of_executes h
  cases hcompletes with
  | skipped hnone hp => simp [hnone] at hop
  | done other delivered final rest hother hc he =>
    cases hop.symm.trans hother
    have heffects := Machine.effects_of_effect he
    refine ⟨final, console, heffects, rfl, ?_⟩
    rw [← (Machine.frame_of_effects heffects).pc]
    rfl

-- What the steps of a program leave as it is, those that fail included.
structure Fixed (before after : Simulator) : Prop where
  program : after.program = before.program
  stackTop : after.machine.stackTop = before.machine.stackTop
  policy : after.machine.policy = before.machine.policy
  size : after.machine.memory.size = before.machine.memory.size

theorem fixed_step (simulator : Simulator) : simulator.Fixed simulator.step.simulator := by
  have hsteps := simulator.steps_step
  generalize simulator.step.simulator = after at hsteps ⊢
  generalize simulator.step.result = result at hsteps
  cases hsteps with
  | ended | lost => exact ⟨rfl, rfl, rfl, rfl⟩
  | faulted i fault he hf hx =>
    have hm := (Machine.fails_of_execute hx).1
    exact ⟨rfl, congrArg Machine.stackTop hm, congrArg Machine.policy hm,
      congrArg (·.memory.size) hm⟩
  | halted i he hf hx | moved i pc he hf hx =>
    obtain ⟨-, hstackTop, hpolicy, hsize⟩ :=
      Machine.frame_of_completes (Machine.completes_of_execute hx)
    exact ⟨rfl, hstackTop, hpolicy, hsize⟩

theorem fixed_after (simulator : Simulator) (count : Nat) :
    simulator.Fixed (simulator.after count) := by
  induction count with
  | zero => exact ⟨rfl, rfl, rfl, rfl⟩
  | succ count ih =>
    have hstep := (simulator.after count).fixed_step
    exact ⟨hstep.program.trans ih.program, hstep.stackTop.trans ih.stackTop,
      hstep.policy.trans ih.policy, hstep.size.trans ih.size⟩

end Simulator

end WordMachine
