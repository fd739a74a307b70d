import WordMachine.Proofs.Simulation.Course
import WordMachine.Proofs.Simulation.Step

namespace WordMachine

-- An instruction that a step has completed, and the machine as the instruction found it.
structure Completion where
  instruction : Instruction
  machine : Machine

namespace Simulator

-- The instruction that the next step completes, if it completes one.
def completion? (simulator : Simulator) : Option Completion :=
  match simulator.fetch with
  | .error _ => none
  | .ok i =>
    match (simulator.execute i).result with
    | .error _ => none
    | .ok _ => some ⟨i, simulator.machine⟩

-- What some calls of `step` have completed, in this order.
def completions (simulator : Simulator) : Nat → List Completion
  | 0 => []
  | count + 1 => simulator.completions count ++ (simulator.after count).completion?.toList

-- What a run completes within `fuel` steps.
def ran (simulator : Simulator) (fuel : Nat) : List Completion :=
  match simulator.interruption? with
  | some _ => []
  | none =>
    match fuel with
    | 0 => []
    | fuel + 1 =>
      simulator.completion?.toList ++
        match simulator.step.result with
        | .ok none => simulator.step.simulator.ran fuel
        | _ => []

-- Where calls of `step` and of `run` lead, in any order, and all that they complete on the way.
inductive Reaches (start : Simulator) : List Completion → Simulator → Prop where
  | start : Reaches start [] start
  | step {past : List Completion} {here : Simulator} (h : Reaches start past here) :
      Reaches start (past ++ here.completion?.toList) here.step.simulator
  | run {past : List Completion} {here : Simulator} {outcome : Outcome Status} (fuel : Nat)
      (h : Reaches start past here) (hr : here.run? fuel = some outcome) :
      Reaches start (past ++ here.ran fuel) outcome.simulator

theorem completion?_of_executes {before after : Simulator} {i : Instruction} {flow : Flow}
    (h : before.Executes i flow after) : before.completion? = some ⟨i, before.machine⟩ := by
  simp only [completion?, h.fetched, h.completed]

theorem executes_of_completion {simulator : Simulator} {completion : Completion}
    (h : simulator.completion? = some completion) :
    ∃ i flow, completion = ⟨i, simulator.machine⟩ ∧
      simulator.Executes i flow simulator.step.simulator := by
  unfold completion? at h
  cases hf : simulator.fetch with
  | error fault => simp [hf] at h
  | ok i =>
    cases hx : (simulator.execute i).result with
    | error fault => simp [hf, hx] at h
    | ok flow =>
      simp only [hf, hx, Option.some.injEq] at h
      exact ⟨i, flow, h.symm, hf, hx, rfl⟩

-- A step that completes no instruction is one at the end, or one that fails.
theorem machine_step_of_no_completion {simulator : Simulator} (h : simulator.completion? = none) :
    simulator.step.simulator.machine = simulator.machine := by
  have hsteps := simulator.steps_step
  generalize simulator.step.simulator = after at hsteps ⊢
  generalize simulator.step.result = result at hsteps
  cases hsteps with
  | ended | lost => rfl
  | faulted i fault he hf hx => exact (Machine.fails_of_execute hx).1
  | halted i he hf hx | moved i pc he hf hx => simp [completion?, hf, hx] at h

theorem completion?_of_isAtEnd {simulator : Simulator} (h : simulator.isAtEnd = true) :
    simulator.completion? = none := by
  cases hf : simulator.fetch with
  | error fault => simp only [completion?, hf]
  | ok i => simp [isAtEnd_of_fetch hf] at h

theorem completion?_of_error {simulator : Simulator} {fault : Fault}
    (h : simulator.step.result = .error fault) : simulator.completion? = none := by
  cases hc : simulator.completion? with
  | none => rfl
  | some completion =>
    obtain ⟨i, flow, -, hx⟩ := executes_of_completion hc
    rw [step, isAtEnd_of_fetch hx.fetched, if_neg (by decide), hx.fetched] at h
    simp only [hx.completed] at h
    cases flow with
    | goTo pc | halt => cases h

-- A step that is not the last one completes an instruction.
theorem completion?_of_continues {simulator : Simulator} (h : simulator.step.result = .ok none) :
    ∃ completion, simulator.completion? = some completion := by
  have hsteps := simulator.steps_step
  rw [h] at hsteps
  generalize simulator.step.simulator = after at hsteps
  generalize hr : (Except.ok none : Except Fault (Option Status)) = result at hsteps
  cases hsteps with
  | ended | lost | faulted | halted => cases hr
  | moved i pc he hf hx => exact ⟨_, completion?_of_executes ⟨hf, hx, rfl⟩⟩

theorem completions_step (simulator : Simulator) (count : Nat) :
    simulator.completion?.toList ++ simulator.step.simulator.completions count =
      simulator.completions (count + 1) := by
  induction count with
  | zero => exact List.append_nil _
  | succ count ih =>
    rw [completions, ← List.append_assoc, ih, after_step]
    rfl

theorem completions_add (simulator : Simulator) (few more : Nat) :
    simulator.completions (few + more) =
      simulator.completions few ++ (simulator.after few).completions more := by
  induction more with
  | zero => exact (List.append_nil _).symm
  | succ more ih =>
    rw [← Nat.add_assoc, completions, ih, completions, after_add, List.append_assoc]

theorem after_of_advance (fuel : Nat) {simulator : Simulator} {past : Array Log.Event}
    {outcome : Outcome Status} (h : simulator.advance past fuel = .finished outcome) :
    ∃ count, outcome.simulator = simulator.after count ∧
      simulator.ran fuel = simulator.completions count := by
  induction fuel generalizing simulator past with
  | zero =>
    unfold advance at h
    cases hi : simulator.interruption? with
    | none => simp [hi] at h
    | some status =>
      simp only [hi, finish, Progress.finished.injEq] at h
      exact ⟨0, h ▸ rfl, by simp only [ran, hi, completions]⟩
  | succ fuel ih =>
    unfold advance at h
    cases hi : simulator.interruption? with
    | some status =>
      simp only [hi, finish, Progress.finished.injEq] at h
      exact ⟨0, h ▸ rfl, by simp only [ran, hi, completions]⟩
    | none =>
      simp only [hi] at h
      have hlast : simulator.completion?.toList ++ [] = simulator.completions 1 :=
        simulator.completions_step 0
      cases hl : simulator.step.result with
      | error fault =>
        simp only [hl, Progress.finished.injEq] at h
        exact ⟨1, h ▸ rfl, by simp only [ran, hi, hl, hlast]⟩
      | ok status? =>
        cases status? with
        | some status =>
          simp only [hl, finish, Progress.finished.injEq] at h
          exact ⟨1, h ▸ rfl, by simp only [ran, hi, hl, hlast]⟩
        | none =>
          simp only [hl] at h
          obtain ⟨count, hafter, hran⟩ := ih h
          refine ⟨count + 1, hafter.trans (simulator.after_step count), ?_⟩
          simp only [ran, hi, hl, hran, completions_step]

-- Calls of `step` alone lead wherever others lead, and complete the same.
theorem after_of_reaches {start here : Simulator} {past : List Completion}
    (h : start.Reaches past here) :
    ∃ count, here = start.after count ∧ past = start.completions count := by
  induction h with
  | start => exact ⟨0, rfl, rfl⟩
  | step h ih =>
    obtain ⟨count, rfl, rfl⟩ := ih
    exact ⟨count + 1, rfl, rfl⟩
  | @run past here outcome fuel h hr ih =>
    obtain ⟨count, rfl, rfl⟩ := ih
    unfold run? at hr
    cases ha : (start.after count).advance #[] fuel with
    | paused _ _ => simp [ha] at hr
    | finished reached =>
      simp only [ha, Option.some.injEq] at hr
      subst hr
      obtain ⟨more, hafter, hran⟩ := after_of_advance fuel ha
      refine ⟨count + more, ?_, ?_⟩
      · rw [hafter, after_add]
      · rw [hran, completions_add]

theorem reaches_after (start : Simulator) (count : Nat) :
    start.Reaches (start.completions count) (start.after count) := by
  induction count with
  | zero => exact .start
  | succ count ih => exact .step ih

-- What holds of the machine at the start and is kept by every instruction that completes holds
-- wherever the calls lead, of the machine there and of all that was completed before.
theorem reaches_induction {motive : List Completion → Machine → Prop} {start here : Simulator}
    {past : List Completion} (hr : start.Reaches past here) (hstart : motive [] start.machine)
    (hstep : ∀ past (before after : Machine) i console rest flow pc, motive past before →
      before.Completes i console flow after rest →
        motive (past ++ [⟨i, before⟩]) { after with pc }) :
    motive past here.machine := by
  obtain ⟨count, rfl, rfl⟩ := after_of_reaches hr
  clear hr
  induction count with
  | zero => exact hstart
  | succ count ih =>
    rw [completions, after]
    cases hc : (start.after count).completion? with
    | none =>
      rw [machine_step_of_no_completion hc, Option.toList_none, List.append_nil]
      exact ih
    | some completion =>
      obtain ⟨i, flow, rfl, hx⟩ := executes_of_completion hc
      obtain ⟨machine, rest, hcompletes, hafter⟩ := completes_of_executes hx
      rw [hafter]
      exact hstep _ _ _ _ _ _ _ _ ih hcompletes

end Simulator

end WordMachine
