import WordMachine.Proofs.Simulation.Branching
import WordMachine.Proofs.Simulation.Limit

namespace WordMachine

-- The operation leads nowhere but to the next instruction.
def Operation.isStraight : Operation → Bool
  | branch _ | call | ret => false
  | _ => true

-- No branch, call or return. A word with an unassigned opcode is none of them.
def Instruction.IsStraight (i : Instruction) : Prop :=
  ∀ op, i.operation? = some op → op.isStraight = true

namespace Machine

theorem flow_of_isStraight {op : Operation} (h : op.isStraight = true) (i : Instruction)
    (machine : Machine) : machine.flow op i = .goTo machine.nextPc := by
  cases op with
  | branch condition | call | ret => cases h
  | _ => rfl

theorem flow_of_straight {i : Instruction} {machine after : Machine} {console rest : Console}
    {flow : Flow} (hs : i.IsStraight) (h : machine.Completes i console flow after rest) :
    flow = .goTo machine.nextPc := by
  cases h with
  | skipped => rfl
  | done op delivered final rest hop hc he => exact flow_of_isStraight (hs op hop) i machine

end Machine

namespace Simulator

-- The status of a program that an instruction has led here.
def status? (simulator : Simulator) : Flow → Option Status
  | .halt => some .halted
  | .goTo pc => if pc.toNat = 4 * simulator.program.size then some .endOfProgram else none

-- A step that finds this instruction: it is executed, and the program counter goes where it leads.
def carry (simulator : Simulator) (i : Instruction) : Outcome (Option Status) :=
  let executed := simulator.execute i
  { result := executed.result.map simulator.status?
    simulator :=
      match executed.result with
      | .error _ => executed.simulator
      | .ok flow => executed.simulator.goTo (flow.arrival executed.simulator.machine.pc)
    events :=
      (if simulator.traced then [.fetched simulator.machine.pc i] else []) ++ executed.events }

section Step

variable {simulator : Simulator} {i : Instruction}

theorem isAtEnd_iff :
    simulator.isAtEnd = true ↔ simulator.machine.pc.toNat = 4 * simulator.program.size := by
  rw [isAtEnd, decide_eq_true_eq, endAddress, Nat.mul_comm]

theorem step_of_isAtEnd (h : simulator.isAtEnd = true) :
    simulator.step = ⟨.ok (some .endOfProgram), simulator, []⟩ := by
  rw [step, if_pos h]

theorem step_eq_carry (h : simulator.fetch = .ok i) : simulator.step = simulator.carry i := by
  rw [step, isAtEnd_of_fetch h, if_neg (by decide), h]
  simp only [carry]
  cases hx : (simulator.execute i).result with
  | error fault => rfl
  | ok flow =>
    cases flow with
    | halt => rfl
    | goTo pc =>
      have hend : ((simulator.execute i).simulator.goTo pc).isAtEnd =
          decide (pc.toNat = 4 * simulator.program.size) :=
        congrArg (fun address => decide (pc.toNat = address)) (Nat.mul_comm ..)
      simp only [hend, decide_eq_true_eq]
      rfl

theorem step_of_outside (hend : simulator.machine.pc.toNat ≠ 4 * simulator.program.size)
    (hout : ¬ (4 ∣ simulator.machine.pc.toNat ∧
      simulator.machine.pc.toNat < 4 * simulator.program.size)) :
    simulator.step =
      ⟨.error (.outsideProgram simulator.machine.pc simulator.program.size), simulator, []⟩ := by
  have hnot : simulator.isAtEnd ≠ true := fun h => hend (isAtEnd_iff.mp h)
  cases hf : simulator.fetch with
  | error fault =>
    rw [step, if_neg hnot, hf, ← fetch_eq_error hf]
  | ok i =>
    obtain ⟨haligned, hget⟩ := fetch_eq_ok_iff.mp hf
    obtain ⟨hlt, -⟩ := Array.getElem?_eq_some_iff.mp hget
    exact absurd ⟨Nat.dvd_of_mod_eq_zero haligned, by omega⟩ hout

end Step

-- What has become of some instructions that are executed one after the other: how many of them
-- were, and the fault of the one after these, if it has one.
structure Sequence where
  executed : Nat
  fault? : Option Fault
  simulator : Simulator

-- The result of a run that comes to the same.
def Sequence.result (sequence : Sequence) : Except Fault Status :=
  match sequence.fault? with
  | none => .ok .endOfProgram
  | some fault => .error fault

-- The steps of such a run. An end is noticed on arrival, but it takes a step to find no instruction
-- at all.
def Sequence.steps (sequence : Sequence) : Nat :=
  match sequence.fault? with
  | none => max sequence.executed 1
  | some _ => sequence.executed + 1

-- Executes some instructions after `executed` others, up to the first that fails. Each of them is
-- executed once and at its own address, wherever the one before it may have led.
def inOrder (simulator : Simulator) (executed : Nat) : List Instruction → Sequence
  | [] => ⟨executed, none, simulator.goTo (.ofNat (4 * executed))⟩
  | i :: program =>
    let execution := (simulator.goTo (.ofNat (4 * executed))).execute i
    match execution.result with
    | .error fault => ⟨executed, some fault, execution.simulator⟩
    | .ok _ => execution.simulator.inOrder (executed + 1) program

section Order

variable {here : Simulator} {i : Instruction} {program : List Instruction} {executed : Nat}

theorem goTo_of_pc (h : here.machine.pc.toNat = 4 * executed) :
    here.goTo (.ofNat (4 * executed)) = here := by
  rw [← h, UInt32.ofNat_toNat]
  rfl

theorem inOrder_goTo (here : Simulator) (pc : UInt32) (executed : Nat)
    (program : List Instruction) :
    (here.goTo pc).inOrder executed program = here.inOrder executed program := by
  cases program with
  | nil | cons i program => rfl

theorem inOrder_of_error {fault : Fault} (hpc : here.machine.pc.toNat = 4 * executed)
    (hx : (here.execute i).result = .error fault) :
    here.inOrder executed (i :: program) =
      ⟨executed, some fault, (here.execute i).simulator⟩ := by
  simp only [inOrder, goTo_of_pc hpc, hx]

theorem inOrder_of_ok {flow : Flow} (hpc : here.machine.pc.toNat = 4 * executed)
    (hx : (here.execute i).result = .ok flow) (pc : UInt32) :
    here.inOrder executed (i :: program) =
      ((here.execute i).simulator.goTo pc).inOrder (executed + 1) program := by
  simp only [inOrder, goTo_of_pc hpc, hx, inOrder_goTo]

-- What instructions leave that were executed one after the other: the program counter stands at the
-- one after them, and each of them is accounted for.
structure Counted (here : Simulator) (executed : Nat) (program : List Instruction)
    (sequence : Sequence) : Prop where
  all : sequence.fault? = none → sequence.executed = executed + program.length
  some : sequence.fault? ≠ none →
    executed ≤ sequence.executed ∧ sequence.executed < executed + program.length
  pc : sequence.simulator.machine.pc = .ofNat (4 * sequence.executed)
  retired : sequence.simulator.machine.tally.retired + executed =
    here.machine.tally.retired + sequence.executed

theorem counted_inOrder (here : Simulator) (executed : Nat) (program : List Instruction) :
    here.Counted executed program (here.inOrder executed program) := by
  induction program generalizing here executed with
  | nil => exact ⟨fun _ => rfl, fun h => absurd rfl h, rfl, rfl⟩
  | cons i program ih =>
    simp only [inOrder]
    cases hx : ((here.goTo (.ofNat (4 * executed))).execute i).result with
    | error fault =>
      have hmachine : ((here.goTo (.ofNat (4 * executed))).execute i).simulator.machine =
          (here.goTo (.ofNat (4 * executed))).machine := (Machine.fails_of_execute hx).1
      refine ⟨nofun, fun _ => ⟨Nat.le_refl _, by simp⟩, ?_, ?_⟩ <;>
        · simp only [hmachine]
          rfl
    | ok flow =>
      have henters := Machine.enters_of_completes (Machine.completes_of_execute hx)
      obtain ⟨hall, hsome, hpc, hretired⟩ :=
        ih ((here.goTo (.ofNat (4 * executed))).execute i).simulator (executed + 1)
      have hone : ((here.goTo (.ofNat (4 * executed))).execute i).simulator.machine.tally.retired =
          here.machine.tally.retired + 1 := henters.retired
      change here.Counted executed (i :: program)
        (((here.goTo (.ofNat (4 * executed))).execute i).simulator.inOrder (executed + 1) program)
      refine ⟨fun h => ?_, fun h => ?_, hpc, by omega⟩ <;> rw [List.length_cons]
      · have hlast := hall h
        omega
      · have hlast := hsome h
        omega

end Order

section Run

variable {here : Simulator} {i : Instruction} {program : List Instruction} {executed more : Nat}
  {result : Except Fault Status}

theorem fetch_of_drop (hpc : here.machine.pc.toNat = 4 * executed)
    (hrest : here.program.toList.drop executed = i :: program) : here.fetch = .ok i := by
  have hget : here.program.toList[executed]? = some i := by
    rw [← Nat.add_zero executed, ← List.getElem?_drop, hrest]
    rfl
  rw [fetch_eq_ok_iff, hpc, Nat.mul_div_cancel_left _ (by decide), ← Array.getElem?_toList]
  exact ⟨Nat.mul_mod_right 4 executed, hget⟩

-- An instruction that leads nowhere else leads to the next one, or just past the last one.
theorem step_of_straight {flow : Flow} (hfits : here.program.size < 1073741824)
    (hpc : here.machine.pc.toNat = 4 * executed)
    (hrest : here.program.toList.drop executed = i :: program) (hs : i.IsStraight)
    (hx : (here.execute i).result = .ok flow) :
    let next := (here.execute i).simulator.goTo here.machine.nextPc
    here.step.result = .ok (if program = [] then some .endOfProgram else none) ∧
      here.step.simulator = next ∧ next.machine.pc.toNat = 4 * (executed + 1) ∧
      next.program = here.program := by
  intro next
  have hsize : here.program.size = executed + (program.length + 1) := by
    have hlength := congrArg List.length hrest
    rw [List.length_drop, Array.length_toList, List.length_cons] at hlength
    omega
  have hnext : here.machine.nextPc.toNat = 4 * (executed + 1) := by
    have hmachine := here.machine.toNat_nextPc
    omega
  obtain rfl := Machine.flow_of_straight hs (Machine.completes_of_execute hx)
  have hend : here.machine.nextPc.toNat = 4 * here.program.size ↔ program = [] := by
    rw [← List.length_eq_zero_iff]
    omega
  rw [step_eq_carry (fetch_of_drop hpc hrest)]
  refine ⟨?_, ?_, hnext, rfl⟩ <;> simp only [carry, hx, Except.map, status?, hend]
  rfl

theorem stops_step (hl : here.step.result = .ok none) (h : here.step.simulator.Stops more result) :
    here.Stops (more + 1) result := by
  refine ⟨?_, ?_⟩
  · intro earlier he
    cases earlier with
    | zero => exact hl
    | succ earlier =>
      rw [← after_step]
      exact h.continues earlier (by omega)
  · rw [← after_step]
    exact h.verdict

-- A run that comes to what the execution in order comes to, after `executed` instructions: it makes
-- as many steps, and they complete the same instructions.
structure Keeps (here : Simulator) (executed : Nat) (program : List Instruction)
    (sequence : Sequence) (more : Nat) : Prop where
  stops : here.Stops more sequence.result
  leads : here.after (more + 1) = sequence.simulator
  steps : sequence.steps = executed + (more + 1)
  completes : (here.completions (more + 1)).map (·.instruction) =
    program.take (sequence.executed - executed)

section Instruction

variable (hpc : here.machine.pc.toNat = 4 * executed)
  (hrest : here.program.toList.drop executed = i :: program)

include hpc hrest

theorem keeps_of_error {fault : Fault} (hx : (here.execute i).result = .error fault) :
    here.Keeps executed (i :: program) (here.inOrder executed (i :: program)) 0 := by
  have hf := fetch_of_drop hpc hrest
  rw [inOrder_of_error hpc hx]
  refine ⟨⟨nofun, ?_⟩, ?_, rfl, ?_⟩
  · rw [after, step_eq_carry hf]
    simp only [carry, hx]
    rfl
  · rw [after, after, step_eq_carry hf]
    simp only [carry, hx]
  · simp only [Nat.sub_self, completions, after, completion?, hf, hx]
    rfl

variable (hfits : here.program.size < 1073741824) (hs : i.IsStraight) {flow : Flow}
  (hx : (here.execute i).result = .ok flow)

include hfits hs hx

theorem keeps_of_last (hlast : program = []) :
    here.Keeps executed (i :: program) (here.inOrder executed (i :: program)) 0 := by
  subst hlast
  obtain ⟨hresult, hleads, hnext, -⟩ := step_of_straight hfits hpc hrest hs hx
  have hc := completion?_of_executes ⟨fetch_of_drop hpc hrest, hx, rfl⟩
  rw [inOrder_of_ok hpc hx here.machine.nextPc, inOrder, goTo_of_pc hnext]
  refine ⟨⟨nofun, ?_⟩, hleads, ?_, ?_⟩
  · rw [after, hresult]
    rfl
  · exact Nat.max_eq_left (Nat.succ_pos executed)
  · simp only [completions, after, hc, Nat.add_sub_cancel_left]
    rfl

theorem keeps_of_next (hne : program ≠ [])
    (h : here.step.simulator.Keeps (executed + 1) program
      (here.step.simulator.inOrder (executed + 1) program) more) :
    here.Keeps executed (i :: program) (here.inOrder executed (i :: program)) (more + 1) := by
  obtain ⟨hresult, hleads, hnext, -⟩ := step_of_straight hfits hpc hrest hs hx
  have hc := completion?_of_executes ⟨fetch_of_drop hpc hrest, hx, rfl⟩
  rw [if_neg hne] at hresult
  rw [inOrder_of_ok hpc hx here.machine.nextPc, ← hleads]
  have hcounted := here.step.simulator.counted_inOrder (executed + 1) program
  generalize here.step.simulator.inOrder (executed + 1) program = sequence at h hcounted ⊢
  have hlater : sequence.executed - executed = sequence.executed - (executed + 1) + 1 := by
    cases hfault : sequence.fault? with
    | none =>
      have hall := hcounted.all hfault
      omega
    | some fault =>
      have hsome := hcounted.some (by simp [hfault])
      omega
  refine ⟨stops_step hresult h.stops, ?_, ?_, ?_⟩
  · rw [← after_step]
    exact h.leads
  · rw [h.steps]
    omega
  · rw [← completions_step, hc, List.map_append, h.completes, hlater]
    rfl

end Instruction

theorem keeps_inOrder (hfits : here.program.size < 1073741824)
    (hpc : here.machine.pc.toNat = 4 * executed)
    (hrest : here.program.toList.drop executed = i :: program)
    (hs : ∀ j ∈ i :: program, j.IsStraight) :
    ∃ more, here.Keeps executed (i :: program) (here.inOrder executed (i :: program)) more := by
  induction program generalizing here executed i with
  | nil =>
    cases hx : (here.execute i).result with
    | error fault => exact ⟨0, keeps_of_error hpc hrest hx⟩
    | ok flow => exact ⟨0, keeps_of_last hpc hrest hfits (hs i (by simp)) hx rfl⟩
  | cons j program ih =>
    cases hx : (here.execute i).result with
    | error fault => exact ⟨0, keeps_of_error hpc hrest hx⟩
    | ok flow =>
      have hi := hs i (List.mem_cons_self ..)
      obtain ⟨-, hleads, hnext, hsame⟩ := step_of_straight hfits hpc hrest hi hx
      have hrest' : here.step.simulator.program.toList.drop (executed + 1) = j :: program := by
        rw [hleads, hsame, ← List.drop_drop, hrest]
        rfl
      obtain ⟨more, hkeeps⟩ := ih (by rw [hleads, hsame]; exact hfits) (by rw [hleads]; exact hnext)
        hrest' fun k hk => hs k (List.mem_cons_of_mem i hk)
      exact ⟨more + 1, keeps_of_next hpc hrest hfits hi hx (by simp) hkeeps⟩

-- Where there is no instruction at all, the end is there from the first.
theorem keeps_of_none (hpc : here.machine.pc = 0) (hempty : here.program.size = 0) :
    here.Keeps 0 [] (here.inOrder 0 []) 0 := by
  have hend : here.isAtEnd = true := by
    rw [isAtEnd_iff, hpc, hempty]
    rfl
  have hstep := step_of_isAtEnd hend
  rw [inOrder, goTo_of_pc (by rw [hpc]; rfl)]
  refine ⟨⟨nofun, ?_⟩, ?_, rfl, ?_⟩
  · rw [after, hstep]
    rfl
  · rw [after, after, hstep]
  · simp only [completions, after, completion?_of_isAtEnd hend]
    rfl

end Run

-- A program that only ever leads to the next instruction is executed in its order, and the run ends
-- with the first instruction that fails, or just past the last one. In any program, a step finds
-- the end, or an instruction of the program, or nothing.
theorem straight_programs_run_in_order :
    (∀ (program : List Instruction) (configuration : Configuration) (console : Console),
      program.length < 1073741824 → (∀ i ∈ program, i.IsStraight) → configuration.limit = none →
        let start := ofProgram program configuration console
        let sequence := start.inOrder 0 program
        (∀ fuel, start.run? fuel =
          if sequence.steps ≤ fuel then
            some (conclude sequence.simulator (start.log sequence.steps) sequence.result)
          else none) ∧
        (start.completions sequence.steps).map (·.instruction) = program.take sequence.executed ∧
        sequence.simulator.machine.pc.toNat = 4 * sequence.executed ∧
        sequence.simulator.machine.tally.retired = sequence.executed ∧
        (sequence.fault? = none →
          sequence.executed = program.length ∧ sequence.result = .ok .endOfProgram) ∧
        ∀ fault, sequence.fault? = some fault →
          sequence.executed < program.length ∧ sequence.result = .error fault) ∧
    (∀ simulator : Simulator,
      let pc := simulator.machine.pc
      let length := simulator.program.size
      (pc.toNat = 4 * length → simulator.step = ⟨.ok (some .endOfProgram), simulator, []⟩) ∧
      (4 ∣ pc.toNat → pc.toNat < 4 * length →
        ∃ i, simulator.program[pc.toNat / 4]? = some i ∧ simulator.step = simulator.carry i) ∧
      (pc.toNat ≠ 4 * length → ¬ (4 ∣ pc.toNat ∧ pc.toNat < 4 * length) →
        simulator.step = ⟨.error (.outsideProgram pc length), simulator, []⟩)) := by
  refine ⟨?_, ?_⟩
  · intro program configuration console hfits hs hlimit start sequence
    have hcounted : start.Counted 0 program sequence := counted_inOrder start 0 program
    have hkeeps : ∃ more, start.Keeps 0 program sequence more := by
      cases program with
      | nil => exact ⟨0, keeps_of_none rfl rfl⟩
      | cons i program => exact keeps_inOrder hfits rfl rfl hs
    obtain ⟨more, hstops, hleads, hsteps, hcompletes⟩ := hkeeps
    obtain ⟨hall, hsome, hpc, hretired⟩ := hcounted
    rw [Nat.zero_add] at hall hsome hsteps
    have hle : sequence.executed ≤ program.length := by
      cases hfault : sequence.fault? with
      | none => exact Nat.le_of_eq (hall hfault)
      | some fault => exact Nat.le_of_lt (hsome (by simp [hfault])).2
    have hroom : start.HasRoom more := fun limit hl => nomatch hlimit.symm.trans hl
    rw [hsteps]
    refine ⟨fun fuel => ?_, hcompletes, ?_, ?_, ?_, ?_⟩
    · rw [run?_of_stops rfl hstops hroom, hleads]
      rfl
    · have hsize : UInt32.size = 4294967296 := rfl
      rw [hpc, UInt32.toNat_ofNat_of_lt' (by omega)]
    · exact hretired.trans (Nat.zero_add _)
    · intro hfault
      exact ⟨hall hfault, by rw [Sequence.result, hfault]⟩
    · intro fault hfault
      exact ⟨(hsome (by simp [hfault])).2, by rw [Sequence.result, hfault]⟩
  · intro simulator pc length
    refine ⟨fun hend => step_of_isAtEnd (isAtEnd_iff.mpr hend), ?_, step_of_outside⟩
    intro haligned hlt
    have hin : pc.toNat / 4 < length := by omega
    have hget := Array.getElem?_eq_getElem hin
    exact ⟨_, hget, step_eq_carry (fetch_eq_ok_iff.mpr ⟨Nat.mod_eq_zero_of_dvd haligned, hget⟩)⟩

-- A word is skipped, a number is made and pushed, and a load fails far outside the stack.
def reckless : Simulator :=
  .ofProgram
    [.decode 0xF8000000, .assemble .moveImm 0 0 7, .assemble .push 0 0 0,
     .assemble .load 0 1 5000, .assemble .print 1 0 0]
    { Configuration.default with policy := .lenient } (.ofInput [] .unlimited)

theorem reckless_fails_in_order :
    let sequence := reckless.inOrder 0 reckless.program.toList
    sequence.executed = 3 ∧ sequence.simulator.machine.registers.general[0]? = some 7 ∧
    ∀ fuel, reckless.run? fuel =
      if 4 ≤ fuel then
        some (conclude sequence.simulator (reckless.log 4) (.error (.memory ⟨5007, 1024⟩ 12)))
      else none := by
  intro sequence
  have hstraight : ∀ i ∈ reckless.program.toList, i.IsStraight := by
    have hall : ∀ i ∈ reckless.program.toList, i.operation?.all Operation.isStraight = true := by
      decide
    intro i hi op hop
    have hstraight := hall i hi
    rw [hop] at hstraight
    exact hstraight
  have hexecuted : sequence.executed = 3 := rfl
  have hsteps : sequence.steps = 4 := rfl
  have hresult : sequence.result = .error (.memory ⟨5007, 1024⟩ 12) := rfl
  obtain ⟨hruns, -⟩ := straight_programs_run_in_order
  obtain ⟨hrun, -⟩ := hruns reckless.program.toList
    { Configuration.default with policy := .lenient } (.ofInput [] .unlimited) (by decide)
    hstraight rfl
  refine ⟨hexecuted, rfl, ?_⟩
  intro fuel
  rw [← hsteps, ← hresult]
  exact hrun fuel

end Simulator

end WordMachine
