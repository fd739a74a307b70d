import WordMachine.Proofs.Displacement.Execution
import WordMachine.Proofs.Execution.Atomicity
import WordMachine.Proofs.Simulation.History
import WordMachine.Proofs.Simulation.Running

namespace WordMachine.Simulator

open Fault (displacing)

-- How much further up a program lies with these instructions ahead of it.
def displacement (ahead : List Instruction) : UInt32 :=
  UInt32.ofNat (4 * ahead.length)

-- The same simulator with some instructions ahead of its program.
def displaced (ahead : List Instruction) (simulator : Simulator) : Simulator :=
  { simulator with
    machine := simulator.machine.displaced (displacement ahead)
    program := ahead.toArray ++ simulator.program }

-- The next step does not leave the program, and completes neither a call nor a return to a caller.
structure StepsInPlace (simulator : Simulator) : Prop where
  inside : ∀ pc length, simulator.step.result ≠ .error (.outsideProgram pc length)
  relative : ∀ retirement, simulator.retirement? = some retirement →
    retirement.operation ≠ .call ∧ (retirement.operation = .ret → retirement.flow = .halt)

-- Every address of the program with its instructions ahead is a program counter.
def Fits (ahead : List Instruction) (simulator : Simulator) : Prop :=
  ahead.length + simulator.program.size < 1073741824

section Step

variable {ahead : List Instruction} {simulator : Simulator}

theorem toNat_displacement (hfits : Fits ahead simulator) :
    (displacement ahead).toNat = 4 * ahead.length := by
  unfold Fits at hfits
  have hlt : 4 * ahead.length < UInt32.size := by
    have hsize : UInt32.size = 4294967296 := rfl
    omega
  exact UInt32.toNat_ofNat_of_lt' hlt

theorem size_displaced :
    (simulator.displaced ahead).program.size = ahead.length + simulator.program.size := by
  simp [displaced]

theorem toNat_pc_displaced (hfits : Fits ahead simulator) :
    (simulator.displaced ahead).machine.pc.toNat =
      (simulator.machine.pc.toNat + 4 * ahead.length) % 4294967296 := by
  rw [← toNat_displacement hfits]
  exact UInt32.toNat_add _ _

theorem isAtEnd_displaced (hfits : Fits ahead simulator) :
    (simulator.displaced ahead).isAtEnd = simulator.isAtEnd := by
  have hpc := toNat_pc_displaced hfits
  have hlt := simulator.machine.pc.toNat_lt
  unfold Fits at hfits
  refine decide_eq_decide.mpr ?_
  rw [hpc, endAddress, endAddress, size_displaced]
  omega

theorem toNat_pc_displaced_of_le (hfits : Fits ahead simulator)
    (h : simulator.machine.pc.toNat ≤ simulator.endAddress) :
    (simulator.displaced ahead).machine.pc.toNat =
      simulator.machine.pc.toNat + 4 * ahead.length := by
  have hpc := toNat_pc_displaced hfits
  unfold Fits at hfits
  unfold endAddress at h
  omega

theorem pc_lt_of_fetch {i : Instruction} (h : simulator.fetch = .ok i) :
    simulator.machine.pc.toNat < simulator.endAddress := by
  obtain ⟨-, hget⟩ := fetch_eq_ok_iff.mp h
  obtain ⟨hlt, -⟩ := Array.getElem?_eq_some_iff.mp hget
  unfold endAddress
  omega

theorem fetch_displaced (hfits : Fits ahead simulator) {i : Instruction}
    (h : simulator.fetch = .ok i) : (simulator.displaced ahead).fetch = .ok i := by
  have hpc := toNat_pc_displaced_of_le hfits (Nat.le_of_lt (pc_lt_of_fetch h))
  obtain ⟨haligned, hget⟩ := fetch_eq_ok_iff.mp h
  have hplace : (simulator.machine.pc.toNat + 4 * ahead.length) / 4 =
      ahead.toArray.size + simulator.machine.pc.toNat / 4 := by
    rw [List.size_toArray]
    omega
  rw [fetch_eq_ok_iff, hpc, hplace]
  refine ⟨by omega, ?_⟩
  rw [← hget, displaced, Array.getElem?_append_right (Nat.le_add_right _ _),
    Nat.add_sub_cancel_left]

theorem relative_of_fetch (h : simulator.StepsInPlace) {i : Instruction} {flow : Flow}
    (hf : simulator.fetch = .ok i) (hx : (simulator.execute i).result = .ok flow) :
    i.operation? ≠ some .call ∧ (i.operation? = some .ret → flow = .halt) := by
  have hretired := retirement?_of_fetch hf hx
  constructor
  · intro hop
    rw [hop] at hretired
    exact (h.relative _ hretired).1 rfl
  · intro hop
    rw [hop] at hretired
    exact (h.relative _ hretired).2 rfl

theorem execute_displaced (ahead : List Instruction) (h : simulator.StepsInPlace) {i : Instruction}
    (hf : simulator.fetch = .ok i) :
    ((simulator.displaced ahead).execute i).result =
        displacing (displacement ahead) (Flow.displaced (displacement ahead))
          (simulator.execute i).result ∧
      ((simulator.displaced ahead).execute i).simulator =
        (simulator.execute i).simulator.displaced ahead := by
  have hrelative : ∀ flow, (simulator.machine.execute i simulator.console).result = .ok flow →
      i.operation? ≠ some .call ∧ (i.operation? = some .ret → flow = .halt) :=
    fun flow hx => relative_of_fetch h hf hx
  obtain ⟨hresult, hmachine, hconsole⟩ :=
    Machine.execute_displaced (displacement ahead) simulator.machine hrelative
  refine ⟨hresult, ?_⟩
  simp only [execute, displaced, hmachine, hconsole]

-- A step that stays in its place does the same with instructions ahead of the program.
theorem step_displaced (hfits : Fits ahead simulator) (h : simulator.StepsInPlace) :
    (simulator.displaced ahead).step.result =
        displacing (displacement ahead) id simulator.step.result ∧
      (simulator.displaced ahead).step.simulator = simulator.step.simulator.displaced ahead := by
  have hend := isAtEnd_displaced hfits
  cases he : simulator.isAtEnd with
  | true =>
    rw [he] at hend
    constructor <;> rw [step, step, if_pos hend, if_pos he]
    rfl
  | false =>
    rw [he] at hend
    cases hf : simulator.fetch with
    | error fault =>
      cases fetch_eq_error hf
      refine absurd ?_ (h.inside simulator.machine.pc simulator.program.size)
      rw [step, if_neg (by simp [he]), hf]
    | ok i =>
      have hf' := fetch_displaced hfits hf
      obtain ⟨hresult, hsimulator⟩ := execute_displaced ahead h hf
      cases hx : (simulator.execute i).result with
      | error fault =>
        rw [hx] at hresult
        constructor <;> simp only [step, he, hend, hf, hf', hx, hresult, hsimulator, displacing,
          Bool.false_eq_true, ite_false]
      | ok flow =>
        rw [hx] at hresult
        cases flow with
        | halt =>
          constructor <;> simp only [step, he, hend, hf, hf', hx, hresult, hsimulator, displacing,
            Flow.displaced, id_eq, Bool.false_eq_true, ite_false]
        | goTo pc =>
          have harrives : ((simulator.execute i).simulator.displaced ahead).goTo
              (pc + displacement ahead) =
                ((simulator.execute i).simulator.goTo pc).displaced ahead := rfl
          have hfits' : Fits ahead ((simulator.execute i).simulator.goTo pc) := hfits
          have hthere := isAtEnd_displaced hfits'
          constructor <;> simp only [step, he, hend, hf, hf', hx, hresult, hsimulator, displacing,
            Flow.displaced, harrives, hthere, id_eq, Bool.false_eq_true, ite_false]

end Step

section Run

variable {ahead : List Instruction} {simulator : Simulator} {count fuel : Nat}

theorem fits_after (hfits : Fits ahead simulator) (count : Nat) :
    Fits ahead (simulator.after count) := by
  unfold Fits
  rw [(simulator.fixed_after count).program]
  exact hfits

theorem after_displaced (hfits : Fits ahead simulator)
    (h : ∀ earlier < count, (simulator.after earlier).StepsInPlace) :
    (simulator.displaced ahead).after count = (simulator.after count).displaced ahead := by
  induction count with
  | zero => rfl
  | succ count ih =>
    have hlast := h count (Nat.lt_succ_self count)
    rw [after, ih fun earlier he => h earlier (Nat.lt_succ_of_lt he)]
    exact (step_displaced (fits_after hfits count) hlast).2

-- A step that stays in its place starts within the program, or at its end.
theorem pc_le_of_stepsInPlace (h : simulator.StepsInPlace) :
    simulator.machine.pc.toNat ≤ simulator.endAddress := by
  cases he : simulator.isAtEnd with
  | true => exact Nat.le_of_eq (of_decide_eq_true he)
  | false =>
    cases hf : simulator.fetch with
    | error fault =>
      cases fetch_eq_error hf
      refine absurd ?_ (h.inside simulator.machine.pc simulator.program.size)
      rw [step, if_neg (by simp [he]), hf]
    | ok i => exact Nat.le_of_lt (pc_lt_of_fetch hf)

-- A fault of such a step names its address, which is displaced without wrapping around.
theorem address?_displaced (hfits : Fits ahead simulator) (h : simulator.StepsInPlace)
    {fault : Fault} (hfault : simulator.step.result = .error fault) {address : UInt32}
    (ha : fault.address? = some address) :
    ∃ further, (fault.displaced (displacement ahead)).address? = some further ∧
      further.toNat = address.toNat + 4 * ahead.length := by
  have hpc : address = simulator.machine.pc := (step_of_error hfault).2 address ha
  have hfurther := toNat_pc_displaced_of_le hfits (pc_le_of_stepsInPlace h)
  rw [← hpc] at hfurther
  cases fault with
  | unknownOpcode opcode pc | memory cause pc | register cause pc | outsideProgram pc length =>
    cases ha
    exact ⟨_, rfl, hpc ▸ hfurther⟩
  | input cause | output cause => cases ha

-- Each of the steps that a run makes stays in its place.
def RunsInPlace (simulator : Simulator) : Prop :=
  ∀ count, simulator.GoesOn count → (simulator.after count).interruption? = none →
    (simulator.after count).StepsInPlace

theorem displacing_id (distance : UInt32) (result : Except Fault α) :
    displacing distance id result = result.mapError (Fault.displaced distance) := by
  cases result <;> rfl

theorem run?_displaced (hfits : Fits ahead simulator) (h : simulator.RunsInPlace) (fuel : Nat) :
    Option.Rel
      (fun outcome outcome' =>
        outcome'.result = displacing (displacement ahead) id outcome.result ∧
          outcome'.simulator = outcome.simulator.displaced ahead)
      (simulator.run? fuel) ((simulator.displaced ahead).run? fuel) := by
  apply run?_lockstep (Fault.displaced (displacement ahead))
    (fun count => (simulator.displaced ahead).after count = (simulator.after count).displaced ahead)
    rfl
  · intro count hcount
    rw [hcount]
    rfl
  · intro count _ hgoes hi hcount
    obtain ⟨hresult, hsimulator⟩ := step_displaced (fits_after hfits count) (h count hgoes hi)
    rw [after, hcount, ← displacing_id]
    exact ⟨hresult, hsimulator⟩
  · intro count result hcount
    rw [← displacing_id]
    exact ⟨rfl, hcount⟩

end Run

-- A program does the same wherever it lies, as long as it stays within itself and neither calls nor
-- returns to a caller: with instructions ahead of it, all of the simulator is the same but the
-- program counter, which is further up by their bytes. So is the address that a fault names.
theorem branches_are_position_independent (ahead : List Instruction) (simulator : Simulator)
    (hfits : ahead.length + simulator.program.size < 1073741824) :
    (∀ count, (∀ earlier < count, (simulator.after earlier).StepsInPlace) →
      (simulator.displaced ahead).after count = (simulator.after count).displaced ahead ∧
      ∀ earlier < count,
        let here := simulator.after earlier
        let there := (simulator.displaced ahead).after earlier
        there.machine.pc.toNat = here.machine.pc.toNat + 4 * ahead.length ∧
        (∀ status?, here.step.result = .ok status? → there.step.result = .ok status?) ∧
        ∀ fault, here.step.result = .error fault →
          there.step.result = .error (fault.displaced (displacement ahead)) ∧
          ∀ address, fault.address? = some address →
            ∃ further, (fault.displaced (displacement ahead)).address? = some further ∧
              further.toNat = address.toNat + 4 * ahead.length) ∧
    (∀ fuel outcome, simulator.run? fuel = some outcome → simulator.RunsInPlace →
      ∃ outcome', (simulator.displaced ahead).run? fuel = some outcome' ∧
        outcome'.result = displacing (displacement ahead) id outcome.result ∧
        outcome'.simulator = outcome.simulator.displaced ahead) := by
  refine ⟨?_, ?_⟩
  · intro count h
    refine ⟨after_displaced hfits h, ?_⟩
    intro earlier he here there
    have hthere : there = here.displaced ahead :=
      after_displaced hfits fun first hf => h first (Nat.lt_trans hf he)
    have hfits' : Fits ahead here := fits_after hfits earlier
    have hinside : here.StepsInPlace := h earlier he
    have hstep := (step_displaced hfits' hinside).1
    rw [hthere]
    refine ⟨toNat_pc_displaced_of_le hfits' (pc_le_of_stepsInPlace hinside), ?_, ?_⟩
    · intro status? hl
      rw [hstep, hl]
      rfl
    · intro fault hl
      refine ⟨?_, fun address ha => address?_displaced hfits' hinside hl ha⟩
      rw [hstep, hl]
      rfl
  · intro fuel outcome hrun h
    have hlockstep := run?_displaced hfits h fuel
    rw [hrun] at hlockstep
    generalize (simulator.displaced ahead).run? fuel = outcome? at hlockstep ⊢
    cases hlockstep with
    | some hends => exact ⟨_, rfl, hends⟩

-- A jump over one instruction to a store that fails, and the same with an instruction ahead of it.
def jumping : Simulator :=
  .ofProgram
    [.assemble .moveImm 0 0 1, .assemble (.branch .always) 0 0 4, .assemble .moveImm 0 0 2,
     .assemble .store 0 1 (-1)]
    .default (.ofInput [] .unlimited)

theorem jumping_faults_further_up :
    let moved := jumping.displaced [.assemble .print 0 0 0]
    (jumping.after 2).step.result = .error (.memory ⟨-1, 1024⟩ 12) ∧
    moved.machine.pc = 4 ∧ (moved.after 2).machine.registers.general[0] = 1 ∧
    (moved.after 2).step.result = .error (.memory ⟨-1, 1024⟩ 16) := by
  have hfirst : (jumping.after 0).step.result = .ok none := rfl
  have hmove : (jumping.after 0).retirement? = some ⟨.moveImm, .goTo 4⟩ := rfl
  have hsecond : (jumping.after 1).step.result = .ok none := rfl
  have hjump : (jumping.after 1).retirement? = some ⟨.branch .always, .goTo 12⟩ := rfl
  have hthird : (jumping.after 2).step.result = .error (.memory ⟨-1, 1024⟩ 12) := rfl
  have hstore : (jumping.after 2).retirement? = none := rfl
  have hsteps : ∀ earlier < 3, (jumping.after earlier).StepsInPlace := by
    intro earlier he
    obtain rfl | rfl | rfl : earlier = 0 ∨ earlier = 1 ∨ earlier = 2 := by omega
    · exact ⟨by simp [hfirst], by simp [hmove]⟩
    · exact ⟨by simp [hsecond], by simp [hjump]⟩
    · exact ⟨by simp [hthird], by simp [hstore]⟩
  obtain ⟨hmoved, -⟩ :=
    branches_are_position_independent [.assemble .print 0 0 0] jumping (by decide)
  obtain ⟨hafter, -⟩ := hmoved 2 fun earlier he => hsteps earlier (by omega)
  obtain ⟨-, hresults⟩ := hmoved 3 hsteps
  obtain ⟨-, -, hfault⟩ := hresults 2 (by decide)
  refine ⟨hthird, rfl, ?_, (hfault _ hthird).1⟩
  rw [hafter]
  rfl

end WordMachine.Simulator
