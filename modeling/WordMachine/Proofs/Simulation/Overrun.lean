import WordMachine.Proofs.Program.Image
import WordMachine.Proofs.Simulation.Sequence

namespace WordMachine.Simulator

-- The next step executes the last instruction of the program, which leads to the address after it.
structure FallsOff (simulator : Simulator) (i : Instruction) : Prop where
  last : simulator.program.back? = some i
  pc : simulator.machine.pc.toNat + 4 = 4 * simulator.program.size
  falls : (simulator.execute i).result = .ok (.goTo simulator.machine.nextPc)

section FallsOff

variable {simulator : Simulator} {i : Instruction}

theorem fetch_of_fallsOff (h : simulator.FallsOff i) : simulator.fetch = .ok i := by
  have hpc := h.pc
  have hplace : simulator.machine.pc.toNat / 4 = simulator.program.size - 1 := by omega
  have hlast := h.last
  rw [Array.back?] at hlast
  rw [fetch_eq_ok_iff, hplace]
  exact ⟨by omega, hlast⟩

-- The step goes to the address after the last instruction, as far as that is a word.
theorem step_of_fallsOff (h : simulator.FallsOff i) :
    simulator.step.result =
        .ok (if simulator.machine.nextPc.toNat = 4 * simulator.program.size
          then some .endOfProgram else none) ∧
      simulator.step.simulator =
        (simulator.execute i).simulator.goTo simulator.machine.nextPc := by
  rw [step_eq_carry (fetch_of_fallsOff h)]
  refine ⟨?_, ?_⟩ <;> simp only [carry, h.falls, Except.map, status?]
  rfl

theorem toNat_nextPc_of_fallsOff (h : simulator.FallsOff i) :
    simulator.machine.nextPc.toNat =
      if simulator.program.size < 1073741824 then 4 * simulator.program.size else 0 := by
  have hnext := simulator.machine.toNat_nextPc
  have hpc := h.pc
  have hlt := simulator.machine.pc.toNat_lt
  split <;> omega

theorem ends_of_fallsOff (h : simulator.FallsOff i) (hfits : simulator.program.size < 1073741824) :
    let after := simulator.step.simulator
    simulator.step.result = .ok (some .endOfProgram) ∧
      after.machine.pc.toNat = 4 * after.program.size ∧
      after.step = ⟨.ok (some .endOfProgram), after, []⟩ := by
  intro after
  obtain ⟨hresult, hafter⟩ := step_of_fallsOff h
  have hnext := toNat_nextPc_of_fallsOff h
  rw [if_pos hfits] at hnext
  rw [if_pos hnext] at hresult
  have hend : after.machine.pc.toNat = 4 * after.program.size := by
    simp only [after, hafter]
    exact hnext
  exact ⟨hresult, hend, step_of_isAtEnd (isAtEnd_iff.mpr hend)⟩

theorem starts_over_of_fallsOff (h : simulator.FallsOff i)
    (hfull : simulator.program.size = 1073741824) :
    let after := simulator.step.simulator
    simulator.step.result = .ok none ∧ after.machine.pc = 0 ∧
      ∃ first, simulator.program[0]? = some first ∧ after.step = after.carry first := by
  intro after
  obtain ⟨hresult, hafter⟩ := step_of_fallsOff h
  have hnext := toNat_nextPc_of_fallsOff h
  rw [if_neg (by omega)] at hnext
  rw [if_neg (by omega)] at hresult
  have hzero : after.machine.pc = 0 := by
    simp only [after, hafter]
    exact UInt32.toNat_inj.mp hnext
  have hprogram : after.program = simulator.program := by
    simp only [after, hafter]
    rfl
  obtain ⟨first, hfirst⟩ : ∃ first, simulator.program[0]? = some first :=
    ⟨_, Array.getElem?_eq_getElem (by omega)⟩
  refine ⟨hresult, hzero, first, hfirst, step_eq_carry ?_⟩
  rw [fetch_eq_ok_iff, hzero, hprogram]
  exact ⟨rfl, hfirst⟩

end FallsOff

-- A program ends where its last instruction leads to the address after it, and this is still the
-- end for every later step. That takes an address after the last instruction: a program that fills
-- all addresses has none, and starts over.
theorem falling_off_ends_shorter_programs {simulator : Simulator} {i : Instruction}
    (h : simulator.FallsOff i) :
    let after := simulator.step.simulator
    (simulator.program.size < 1073741824 →
      simulator.step.result = .ok (some .endOfProgram) ∧
      after.machine.pc.toNat = 4 * after.program.size ∧
      after.step = ⟨.ok (some .endOfProgram), after, []⟩) ∧
    (¬ simulator.program.size < 1073741824 →
      simulator.program.size = 1073741824 ∧ simulator.step.result = .ok none ∧
      after.machine.pc = 0 ∧ ∃ first, simulator.program[0]? = some first ∧
        after.step = after.carry first) := by
  intro after
  refine ⟨ends_of_fallsOff h, ?_⟩
  intro hlong
  have hpc := h.pc
  have hlt := simulator.machine.pc.toNat_lt
  have hfull : simulator.program.size = 1073741824 := by omega
  exact ⟨hfull, starts_over_of_fallsOff h hfull⟩

-- The words of a program of moves, and the simulator that has come to the last of them.
def moves (count : Nat) : List UInt32 :=
  List.replicate count 0x40000000

def atLastMove (count : Nat) : Simulator :=
  (ofWords (moves count) .default (.ofInput [] .unlimited)).goTo (.ofNat (4 * (count - 1)))

theorem fallsOff_atLastMove {count : Nat} (hpos : 0 < count) (hle : count ≤ 1073741824) :
    (atLastMove count).FallsOff (.decode 0x40000000) := by
  have hprogram : (atLastMove count).program =
      (List.replicate count (Instruction.decode 0x40000000)).toArray :=
    congrArg List.toArray List.map_replicate
  refine ⟨?_, ?_, rfl⟩
  · rw [hprogram, Array.back?, List.size_toArray, List.length_replicate, List.getElem?_toArray,
      List.getElem?_replicate_of_lt (by omega)]
  · have hsize : UInt32.size = 4294967296 := rfl
    have hpc : (atLastMove count).machine.pc.toNat = 4 * (count - 1) :=
      UInt32.toNat_ofNat_of_lt' (by omega)
    rw [hpc, hprogram, List.size_toArray, List.length_replicate]
    omega

theorem three_moves_end :
    (atLastMove 3).FallsOff (.decode 0x40000000) ∧ (atLastMove 3).program.size < 1073741824 ∧
    (atLastMove 3).step.result = .ok (some .endOfProgram) ∧
    (atLastMove 3).step.simulator.machine.pc.toNat = 12 := by
  have hfalls : (atLastMove 3).FallsOff (.decode 0x40000000) :=
    fallsOff_atLastMove (by decide) (by decide)
  obtain ⟨hends, -⟩ := falling_off_ends_shorter_programs hfalls
  obtain ⟨hresult, hpc, -⟩ := hends (by decide)
  exact ⟨hfalls, by decide, hresult, hpc⟩

-- Four gibibytes of moves are an image like any other, and the last of them leads to the first.
theorem full_program_does_not_end :
    Program.words .little (Program.image .little (moves 1073741824)) = .ok (moves 1073741824) ∧
    (atLastMove 1073741824).FallsOff (.decode 0x40000000) ∧
    (atLastMove 1073741824).step.result ≠ .ok (some .endOfProgram) ∧
    (atLastMove 1073741824).step.simulator.machine.pc = 0 := by
  have hfalls : (atLastMove 1073741824).FallsOff (.decode 0x40000000) :=
    fallsOff_atLastMove (by decide) (Nat.le_refl _)
  have hfull : (atLastMove 1073741824).program.size = 1073741824 := by
    rw [atLastMove, ofWords, ofProgram]
    simp only [goTo, List.size_toArray, List.length_map, moves, List.length_replicate]
  obtain ⟨hresult, hzero, -⟩ := starts_over_of_fallsOff hfalls hfull
  refine ⟨Program.words_image _ _, hfalls, ?_, hzero⟩
  rw [hresult]
  simp

end WordMachine.Simulator
