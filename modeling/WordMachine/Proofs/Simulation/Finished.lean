import WordMachine.Proofs.Simulation.Input
import WordMachine.Proofs.Simulation.Reading

namespace WordMachine

namespace Console

theorem firstToken_of_endOfInput {unread : List UInt8}
    (h : (firstToken unread).1 = .endOfInput) : (firstToken unread).2 = ([], []) := by
  induction unread using firstToken.induct with
  | case1 =>
    rw [firstToken]
  | case2 byte bytes parts hline =>
    rw [firstToken, hline] at h
    cases h
  | case3 byte bytes parts hline ih =>
    rw [firstToken, hline] at h ⊢
    exact ih h
  | case4 byte bytes parts token pending hline =>
    rw [firstToken, hline] at h
    cases h

-- An input that has come to its end has nothing left, and stays at its end.
theorem nextToken_of_endOfInput {console : Console} (h : console.nextToken.1 = .endOfInput) :
    console.nextToken.2.nextToken = (.endOfInput, console.nextToken.2) := by
  obtain ⟨pending, unread, sink⟩ := console
  cases pending with
  | cons token pending => cases h
  | nil =>
    have hrest : (firstToken unread).2 = ([], []) := firstToken_of_endOfInput h
    have hafter : (nextToken ⟨[], unread, sink⟩).2 = ⟨[], [], sink⟩ := by
      simp only [nextToken, hrest]
    rw [hafter]
    simp only [nextToken, firstToken]

theorem eq_endOfInput_of_integer {delivery : Delivery}
    (h : delivery.integer = .error .endOfInput) : delivery = .endOfInput := by
  cases delivery with
  | endOfInput => rfl
  | badLine => cases h
  | token text =>
    unfold Delivery.integer at h
    cases hread : Decimal.readSigned 0x80000000 text.toList with
    | ok value | error cause => simp [hread] at h

end Console

theorem Machine.isAtStackTop_of_completes {i : Instruction} {machine after : Machine}
    {console rest : Console} (h : machine.Completes i console .halt after rest) :
    i.operation? = some .ret ∧ machine.isAtStackTop = true := by
  generalize hflow : Flow.halt = flow at h
  cases h with
  | skipped => cases hflow
  | done op delivered final rest hop hc he =>
    obtain ⟨rfl, htop⟩ := flow_eq_halt_iff.mp hflow.symm
    exact ⟨hop, htop⟩

namespace Simulator

-- One more call, of `step` or of `run`. A run has room for one step at least.
inductive Call where
  | step
  | run (more : Nat)

-- The status or the fault that a call gives, and the simulator that it leaves.
def answer (simulator : Simulator) : Call → Option (Except Fault Status × Simulator)
  | .step => (verdict? simulator.step.result).map fun result => (result, simulator.step.simulator)
  | .run more =>
    (simulator.run? (more + 1)).map fun outcome => (outcome.result, outcome.simulator)

-- What some calls give, one after the other, and the simulator that the last one leaves.
def answers (simulator : Simulator) :
    List Call → Option (List (Except Fault Status) × Simulator)
  | [] => some ([], simulator)
  | call :: calls => do
    let (result, next) ← simulator.answer call
    let (results, last) ← next.answers calls
    return (result :: results, last)

-- Nothing from outside ends a run.
structure Free (simulator : Simulator) : Prop where
  limit : simulator.limit = none
  cancelled : simulator.cancelled = false

theorem free_after {simulator : Simulator} (h : simulator.Free) (count : Nat) :
    (simulator.after count).Free := by
  obtain ⟨machine, console, hafter⟩ := simulator.exists_after_eq count
  rw [hafter]
  exact ⟨h.limit, h.cancelled⟩

theorem interruption?_of_free {simulator : Simulator} (h : simulator.Free) :
    simulator.interruption? = none := by
  simp only [interruption?, h.cancelled, h.limit, Bool.false_eq_true, ite_false]

theorem run?_of_free {simulator : Simulator} {result : Except Fault Status} (h : simulator.Free)
    (hv : verdict? simulator.step.result = some result) (more : Nat) :
    simulator.run? (more + 1) =
      some (conclude simulator.step.simulator (simulator.log 1) result) := by
  have hgoes : simulator.GoesOn 0 := nofun
  exact run?_of_verdict hgoes (interruption?_of_free h) hv (Nat.succ_pos more)

-- A call gives what the next step gives, where this is a status or a fault.
theorem answer_of_verdict {simulator : Simulator} {result : Except Fault Status}
    (h : simulator.Free) (hv : verdict? simulator.step.result = some result) (call : Call) :
    simulator.answer call = some (result, simulator.step.simulator) := by
  cases call with
  | step => simp only [answer, hv, Option.map_some]
  | run more =>
    rw [answer, run?_of_free h hv]
    rfl

-- A run that nothing from outside ends is over after a step with a status or a fault.
theorem exists_last_of_run? {simulator : Simulator} {fuel : Nat} {outcome : Outcome Status}
    (h : simulator.Free) (hr : simulator.run? fuel = some outcome) :
    ∃ last : Simulator, last.Free ∧ verdict? last.step.result = some outcome.result ∧
      outcome.simulator = last.step.simulator := by
  have hruns := simulator.runs_run? fuel
  rw [hr] at hruns
  cases hruns with
  | interrupted count status hf hgoes hi =>
    rw [interruption?_of_free (free_after h count)] at hi
    cases hi
  | stopped count result hf hgoes hi hl =>
    exact ⟨simulator.after count, free_after h count, hl, rfl⟩

-- The next step gives this result and changes nothing.
structure Rests (simulator : Simulator) (result : Except Fault Status) : Prop where
  verdict : verdict? simulator.step.result = some result
  stays : simulator.step.simulator = simulator

theorem answers_of_rests {simulator : Simulator} {result : Except Fault Status}
    (h : simulator.Free) (hr : simulator.Rests result) (calls : List Call) :
    simulator.answers calls = some (List.replicate calls.length result, simulator) := by
  induction calls with
  | nil => rfl
  | cons call calls ih =>
    rw [answers, answer_of_verdict h hr.verdict, hr.stays]
    simp only [Option.bind_eq_bind, Option.bind_some, ih, Option.pure_def, List.length_cons,
      List.replicate_succ]

-- The results after which nothing is left to be done, whatever is called. A read whose register
-- fails has used up a token all the same.
def Lasts (simulator : Simulator) : Except Fault Status → Prop
  | .ok .endOfProgram | .error (.outsideProgram ..) | .error (.unknownOpcode ..)
  | .error (.memory ..) | .error (.input .endOfInput) => True
  | .error (.register ..) => simulator.isReading = false
  | _ => False

theorem rests_of_isAtEnd {simulator : Simulator} (h : simulator.isAtEnd = true) :
    simulator.Rests (.ok .endOfProgram) := by
  have hstep : simulator.step = ⟨.ok (some .endOfProgram), simulator, []⟩ := by
    rw [step, if_pos h]
  constructor
  · rw [hstep]
    rfl
  · rw [hstep]

-- A read at the end of the input fails again, and finds nothing left to use up.
theorem rests_of_endOfInput {simulator : Simulator} {i : Instruction}
    (hf : simulator.fetch = .ok i) (hop : i.operation? = some .read)
    (h : simulator.console.nextToken = (.endOfInput, simulator.console)) :
    simulator.Rests (.error (.input .endOfInput)) := by
  have hinteger : simulator.console.nextToken.1.integer = .error .endOfInput := by
    rw [h]
    rfl
  have hx : simulator.machine.execute i simulator.console =
      ⟨.error (.input .endOfInput), simulator.machine, simulator.console.nextToken.2, []⟩ :=
    Machine.execute_of_no_integer hop hinteger
  obtain ⟨hresult, hafter⟩ := step_of_execute_error ⟨hf, rfl, rfl⟩ hx
  constructor
  · rw [hresult]
    rfl
  · rw [hafter, h]

theorem rests_of_verdict {last : Simulator} {result : Except Fault Status}
    (hv : verdict? last.step.result = some result) (hl : last.step.simulator.Lasts result) :
    last.step.simulator.Rests result := by
  -- A step that leaves everything as it was does the same again.
  have hsame (h : last.step.simulator = last) : last.step.simulator.Rests result := by
    rw [h]
    exact ⟨hv, h⟩
  have hsteps := last.steps_step
  generalize hresult : last.step.result = found at hsteps hv
  generalize hafter : last.step.simulator = after at hsteps hl hsame ⊢
  cases hsteps with
  | ended | lost => exact hsame rfl
  | halted i he hf hx =>
    cases hv
    cases hl
  | moved i pc he hf hx =>
    split at hv
    · cases hv
      exact rests_of_isAtEnd ‹_›
    · cases hv
  | faulted i fault he hf hx =>
    cases hv
    obtain ⟨hmachine, hfails⟩ := Machine.fails_of_execute hx
    have hfaulted := Machine.faulted_of_fails hfails
    have hexecute : (last.execute i).simulator =
        { last with console := (last.machine.execute i last.console).console } := by
      simp only [execute, hmachine]
    rw [hexecute] at hl hsame ⊢
    generalize (last.machine.execute i last.console).console = rest at hl hsame hfaulted ⊢
    cases hfaulted with
    | unknown | memory | register => exact hsame rfl
    | unwritten => cases hl
    | refused cause hop =>
      have hreading : last.isReading = true := by
        rw [isReading_of_fetch hf]
        exact decide_eq_true hop
      cases hreading.symm.trans hl
    | unread cause hop hi =>
      cases cause with
      | notUtf8 | notInteger => cases hl
      | endOfInput =>
        have hend := Console.eq_endOfInput_of_integer hi
        exact rests_of_endOfInput hf hop (Console.nextToken_of_endOfInput hend)

-- The simulator with that many more returns in the tally.
def counting (simulator : Simulator) (returns : Nat) : Simulator :=
  let tally := simulator.machine.tally
  { simulator with
    machine := { simulator.machine with
      tally := { tally with retired := tally.retired + returns, call := tally.call + returns } } }

-- The program counter is on a return, and the stack is empty.
structure AtTop (simulator : Simulator) (i : Instruction) : Prop where
  fetched : simulator.fetch = .ok i
  operation : i.operation? = some .ret
  top : simulator.machine.isAtStackTop = true

theorem atTop_of_halted {simulator : Simulator}
    (h : simulator.step.result = .ok (some .halted)) : ∃ i, simulator.AtTop i := by
  have hsteps := simulator.steps_step
  rw [h] at hsteps
  generalize simulator.step.simulator = after at hsteps
  generalize hr : (Except.ok (some .halted) : Except Fault (Option Status)) = result at hsteps
  cases hsteps with
  | ended | lost | faulted => cases hr
  | moved i pc he hf hx => split at hr <;> cases hr
  | halted i he hf hx =>
    obtain ⟨hop, htop⟩ := Machine.isAtStackTop_of_completes (Machine.completes_of_execute hx)
    exact ⟨i, hf, hop, htop⟩

-- To halt is to count one more return, and to be where one halts again.
theorem step_of_atTop {simulator : Simulator} {i : Instruction} (h : simulator.AtTop i) :
    simulator.step.result = .ok (some .halted) ∧ simulator.step.simulator = simulator.counting 1 ∧
      (simulator.counting 1).AtTop i := by
  have he : simulator.machine.effect .ret i 0 = .ok simulator.machine :=
    Machine.effect_ret_of_top 0 h.top
  have hflow : simulator.machine.flow .ret i = .halt := Machine.flow_eq_halt_iff.mpr ⟨rfl, h.top⟩
  obtain ⟨hresult, hafter⟩ := step_of_halt h.fetched h.operation rfl he hflow
  exact ⟨hresult, hafter, h.fetched, h.operation, h.top⟩

theorem counting_add (simulator : Simulator) (few more : Nat) :
    (simulator.counting few).counting more = simulator.counting (few + more) := by
  simp only [counting, Nat.add_assoc]

-- A tally with room for the returns still fits when they are counted.
theorem hasRoom_counting {simulator : Simulator} {returns more : Nat}
    (h : simulator.machine.tally.HasRoom (returns + more)) :
    (simulator.counting returns).machine.tally.HasRoom more := by
  have hretired : simulator.machine.tally.retired + (returns + more) < UInt64.size := h.retired
  have htaken : simulator.machine.tally.taken + (returns + more) < UInt64.size := h.taken
  have hnotTaken : simulator.machine.tally.notTaken + (returns + more) < UInt64.size := h.notTaken
  refine ⟨?_, ?_, ?_, ?_⟩
  · show simulator.machine.tally.retired + returns + more < UInt64.size
    omega
  · intro category
    have hcount := h.count category
    cases category <;> simp only [counting, Tally.count] at hcount ⊢ <;> omega
  · show simulator.machine.tally.taken + more < UInt64.size
    omega
  · show simulator.machine.tally.notTaken + more < UInt64.size
    omega

theorem answers_of_atTop {simulator : Simulator} {i : Instruction} (h : simulator.Free)
    (ht : simulator.AtTop i) (calls : List Call) :
    simulator.answers calls =
      some (List.replicate calls.length (.ok .halted), simulator.counting calls.length) := by
  induction calls generalizing simulator with
  | nil => rfl
  | cons call calls ih =>
    obtain ⟨hresult, hafter, hnext⟩ := step_of_atTop ht
    have hverdict : verdict? simulator.step.result = some (.ok .halted) := by
      rw [hresult]
      rfl
    have hfree : (simulator.counting 1).Free := ⟨h.limit, h.cancelled⟩
    have hrest := ih hfree hnext
    rw [counting_add, Nat.add_comm] at hrest
    rw [answers, answer_of_verdict h hverdict, hafter]
    simp only [Option.bind_eq_bind, Option.bind_some, hrest, Option.pure_def, List.length_cons,
      List.replicate_succ]

-- A run that nothing from outside ends stays where it has come to its end: at the end of the
-- program, at a fault that leaves everything as it was, and at the end of the input, every further
-- call gives the same and changes nothing. Where the program has halted, every further call halts
-- it again, and changes only the count of the returns, which fits as long as there is room for it.
theorem finished_runs_stay_finished (simulator : Simulator) {fuel : Nat}
    {outcome : Outcome Status} (hl : simulator.limit = none) (hc : simulator.cancelled = false)
    (hr : simulator.run? fuel = some outcome) :
    (outcome.simulator.Lasts outcome.result → ∀ calls,
      outcome.simulator.answers calls =
        some (List.replicate calls.length outcome.result, outcome.simulator)) ∧
    (outcome.result = .ok .halted → ∀ calls,
      outcome.simulator.answers calls =
        some (List.replicate calls.length (.ok .halted),
          outcome.simulator.counting calls.length) ∧
      (outcome.simulator.machine.tally.HasRoom calls.length →
        (outcome.simulator.counting calls.length).machine.tally.HasRoom 0)) := by
  obtain ⟨last, hfree, hverdict, hafter⟩ := exists_last_of_run? ⟨hl, hc⟩ hr
  have hfree' : outcome.simulator.Free := by
    rw [hafter]
    exact free_after hfree 1
  constructor
  · intro hlasts calls
    apply answers_of_rests hfree'
    rw [hafter] at hlasts ⊢
    exact rests_of_verdict hverdict hlasts
  · intro hhalted calls
    rw [hhalted] at hverdict
    obtain ⟨i, htop⟩ := atTop_of_halted (verdict?_eq_ok_iff.mp hverdict)
    obtain ⟨-, hcounted, hnext⟩ := step_of_atTop htop
    refine ⟨?_, fun hroom => hasRoom_counting hroom⟩
    rw [hafter, hcounted] at hfree' ⊢
    exact answers_of_atTop hfree' hnext calls

-- A program that returns from the top, and its caller is nobody.
def returning : Simulator :=
  .ofProgram [.assemble .ret 0 0 0] .default (.ofInput [] .unlimited)

-- A blank is all of the input, and the read of it is repeated. The return is repeated as well.
theorem read_and_return_are_repeated :
    (∃ outcome, (echoing [32]).run? 1 = some outcome ∧
      outcome.simulator.answers [.run 0, .step] =
        some ([.error (.input .endOfInput), .error (.input .endOfInput)], outcome.simulator)) ∧
    ∃ outcome, returning.run? 1 = some outcome ∧
      outcome.simulator.answers [.step, .run 0] =
        some ([.ok .halted, .ok .halted], outcome.simulator.counting 2) := by
  have hend : (echoing [32]).console.nextToken.1 = .endOfInput := by decide +kernel
  have hinteger : (echoing [32]).console.nextToken.1.integer = .error .endOfInput := by
    rw [hend]
    rfl
  have hread : verdict? (echoing [32]).step.result = some (.error (.input .endOfInput)) := by
    obtain ⟨hresult, -⟩ :=
      step_of_execute_error ⟨rfl, rfl, rfl⟩ (Machine.execute_of_no_integer rfl hinteger)
    rw [hresult]
    rfl
  have hrun := run?_of_free ⟨rfl, rfl⟩ hread 0
  have hreturn : verdict? returning.step.result = some (.ok .halted) := rfl
  have hrun' := run?_of_free ⟨rfl, rfl⟩ hreturn 0
  obtain ⟨hlasts, -⟩ := finished_runs_stay_finished _ rfl rfl hrun
  obtain ⟨-, hhalted⟩ := finished_runs_stay_finished _ rfl rfl hrun'
  exact ⟨⟨_, hrun, hlasts trivial [.run 0, .step]⟩, ⟨_, hrun', (hhalted rfl [.step, .run 0]).1⟩⟩

end Simulator

end WordMachine
