import WordMachine.Proofs.Flat.Execution
import WordMachine.Proofs.Simulation.Step

namespace WordMachine.Simulator

open Flat Machine

def flatten (simulator : Simulator) : Flat :=
  simulator.machine.flatten simulator.console

theorem fetch_flatten (simulator : Simulator) :
    simulator.fetch =
      match if simulator.flatten.pc % 4 = 0 then simulator.program.toList[simulator.flatten.pc / 4]?
        else none with
      | some i => .ok i
      | none => .error (.outsideProgram simulator.machine.pc simulator.program.size) := by
  have haligned : simulator.machine.pc % 4 = 0 ↔ simulator.flatten.pc % 4 = 0 := by
    rw [← UInt32.toNat_inj, UInt32.toNat_mod]
    rfl
  rw [fetch]
  by_cases h : simulator.machine.pc % 4 = 0
  · rw [if_pos h, if_pos (haligned.mp h), Array.getElem?_toList]
    rfl
  · rw [if_neg h, if_neg fun h' => h (haligned.mpr h')]

theorem execute_flatten (simulator : Simulator) (i : Instruction) :
    simulator.flatten.execute simulator.machine.setting i =
      ((simulator.execute i).result.map Flow.number?, (simulator.execute i).simulator.flatten) :=
  Machine.execute_flatten simulator.machine simulator.console i

-- The square of one step: it leads to the same on the flat machine.
theorem step_flatten (simulator : Simulator) :
    simulator.flatten.step simulator.machine.setting simulator.program.toList =
      (simulator.step.result, simulator.step.simulator.flatten) := by
  have hend (pc : UInt32) :
      pc.toNat = 4 * simulator.program.toList.length ↔ pc.toNat = simulator.program.size * 4 := by
    rw [Array.length_toList]
    omega
  have hfetch := simulator.fetch_flatten
  rw [Flat.step, step]
  by_cases he : simulator.isAtEnd = true
  · have hpc : simulator.flatten.pc = 4 * simulator.program.toList.length :=
      (hend simulator.machine.pc).mpr (of_decide_eq_true he)
    rw [if_pos hpc, if_pos he]
  · have hpc : simulator.flatten.pc ≠ 4 * simulator.program.toList.length := by
      intro h
      exact he (decide_eq_true ((hend simulator.machine.pc).mp h))
    rw [if_neg hpc, if_neg he, hfetch]
    cases hi : if simulator.flatten.pc % 4 = 0 then
        simulator.program.toList[simulator.flatten.pc / 4]? else none with
    | none =>
      simp only [flatten, address_flatten, Array.length_toList]
    | some i =>
      simp only [simulator.execute_flatten i]
      cases hx : (simulator.execute i).result with
      | error fault => rfl
      | ok flow =>
        cases flow with
        | halt => rfl
        | goTo pc =>
          have hat : ((simulator.execute i).simulator.goTo pc).isAtEnd =
              decide (pc.toNat = simulator.program.size * 4) := rfl
          simp only [Except.map, Flow.number?, hend, hat, decide_eq_true_eq]
          rfl

theorem setting_step (simulator : Simulator) :
    simulator.step.simulator.machine.setting = simulator.machine.setting := by
  obtain ⟨-, htop, hpolicy, -⟩ := simulator.fixed_step
  rw [setting, htop, hpolicy]
  rfl

theorem after_flatten (simulator : Simulator) (count : Nat) :
    (simulator.after count).flatten =
        simulator.flatten.after simulator.machine.setting simulator.program.toList count ∧
      (simulator.after count).machine.setting = simulator.machine.setting ∧
      (simulator.after count).program = simulator.program := by
  induction count with
  | zero => exact ⟨rfl, rfl, rfl⟩
  | succ count ih =>
    obtain ⟨hflat, hsetting, hprogram⟩ := ih
    have hstep := (simulator.after count).step_flatten
    rw [hflat, hsetting, hprogram] at hstep
    refine ⟨?_, ?_, ?_⟩
    · rw [after, Flat.after, hstep]
    · rw [after, setting_step, hsetting]
    · rw [after, (simulator.after count).fixed_step.program, hprogram]

theorem setting_ofProgram (program : List Instruction) (configuration : Configuration)
    (console : Console) :
    (ofProgram program configuration console).machine.setting =
      .ofConfiguration configuration := by
  have htop : number (Machine.reset configuration.stackSize configuration.policy).stackTop =
      min configuration.stackSize 2147483647 := by
    simp only [Machine.reset]
    by_cases h : configuration.stackSize < 2147483648
    · rw [if_pos h, number_eq_reduce, Int32.toInt_ofNat_of_lt h, reduce]
      omega
    · rw [if_neg h, Nat.min_eq_right (by omega)]
      rfl
  rw [setting, Setting.ofConfiguration, ← htop]
  rfl

theorem flatten_ofProgram (program : List Instruction) (configuration : Configuration)
    (console : Console) :
    (ofProgram program configuration console).flatten = .reset configuration console := by
  have htop := congrArg Setting.top (setting_ofProgram program configuration console)
  have hwords (value : Int32) :
      (((Vector.replicate 16 0).set 6 value).map number).push Flags.clear.toWord.toNat =
        (Vector.replicate 17 0).set 6 (number value) := by
    have hzero : number 0 = 0 := rfl
    rw [Vector.map_set, Vector.map_replicate, hzero, Vector.replicate_succ (n := 16),
      Vector.set_push, dif_pos (by decide)]
    rfl
  have hbytes : (fun place => ((Memory.blank configuration.stackSize).byteAt place).toNat) =
      fun _ => 0 := by
    funext place
    rw [Memory.byteAt_blank]
    rfl
  have hflat : (ofProgram program configuration console).flatten =
      { words := (((Vector.replicate 16 0).set 6
          (ofProgram program configuration console).machine.stackTop).map number).push
            Flags.clear.toWord.toNat
        size := configuration.stackSize
        bytes := fun place => ((Memory.blank configuration.stackSize).byteAt place).toNat
        pc := 0
        console } := rfl
  rw [hflat, hwords, hbytes, Flat.reset, ← htop]
  rfl

-- From its reset on, a simulator does what the flat machine does: after any number of steps they
-- are in the same state, and the next step gives the same status or the same fault. The numbers of
-- the flat machine stay words and bytes, and it reads just the tokens that spell a word.
theorem refines_flat (program : List Instruction) (configuration : Configuration)
    (console : Console) (count : Nat) :
    let setting := Setting.ofConfiguration configuration
    let simulator := (ofProgram program configuration console).after count
    let flat := (Flat.reset configuration console).after setting program count
    simulator.flatten = flat ∧ simulator.step.result = (flat.step setting program).1 ∧
      flat.Bounded ∧
      ∀ word, flat.read.1 = .ok word ↔
        ∃ token value, flat.console.nextToken.1 = .token token ∧ Console.Spells token value ∧
          word = reduce value := by
  intro setting simulator flat
  have hbounded : simulator.flatten.Bounded :=
    simulator.machine.bounded_flatten simulator.console
  obtain ⟨hflat, hsetting, hprogram⟩ :=
    (ofProgram program configuration console).after_flatten count
  rw [setting_ofProgram] at hflat hsetting
  rw [flatten_ofProgram] at hflat
  have hflat : simulator.flatten = flat := hflat
  have hstep := simulator.step_flatten
  rw [hflat, hsetting, hprogram] at hstep
  refine ⟨hflat, ?_, ?_, ?_⟩
  · exact (congrArg Prod.fst hstep).symm
  · rw [← hflat]
    exact hbounded
  · exact read_eq_ok_iff flat

end WordMachine.Simulator
