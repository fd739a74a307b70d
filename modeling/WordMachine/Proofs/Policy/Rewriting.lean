import WordMachine.Proofs.Policy.Refit
import WordMachine.Proofs.Simulation.Mirror
import WordMachine.Proofs.Simulation.Running

namespace WordMachine

namespace Instruction

-- A jump to the next instruction.
def jumpOn : UInt32 :=
  encode (Operation.branch .always).code 0 0 0

-- The word that does what a lenient machine makes of the given one.
def rewrite (word : UInt32) : UInt32 :=
  if 22 ≤ (decode word).opcode.toNat then jumpOn else word

def rewritten (i : Instruction) : Instruction :=
  if 22 ≤ i.opcode.toNat then decode jumpOn else i

theorem decode_rewrite (word : UInt32) : decode (rewrite word) = (decode word).rewritten := by
  unfold rewrite rewritten
  split <;> rfl

end Instruction

namespace Tally

-- The skipped words booked as jumps.
def rebooked (tally : Tally) : Tally :=
  { tally with
    branch := tally.branch + tally.unknown
    taken := tally.taken + tally.unknown
    unknown := 0 }

theorem books_rebooked : Books rebooked where
  observeDepth tally depth := rfl
  recordBranch tally taken := by
    cases taken with
    | true => simp only [recordBranch, rebooked, ite_true, Nat.add_right_comm]
    | false => rfl
  retire tally category hne := by
    cases category with
    | branch => simp only [retire, rebooked, Nat.add_right_comm]
    | unknown => exact absurd rfl hne
    | _ => rfl

theorem books_id : Books id := ⟨fun _ _ => rfl, fun _ _ => rfl, fun _ _ _ => rfl⟩

end Tally

namespace Machine

-- To skip a word is to jump over it.
theorem execute_jumpOn {i : Instruction} {machine : Machine} (hop : i.operation? = none)
    (hp : machine.policy = .lenient) (console : Console) :
    let skipped := machine.execute i console
    let jumped := (machine.refit .strict Tally.rebooked).execute (.decode Instruction.jumpOn) console
    jumped.result = skipped.result ∧
      jumped.machine = skipped.machine.refit .strict Tally.rebooked ∧
      jumped.console = skipped.console := by
  intro skipped jumped
  have hskipped : skipped = machine.transact i console := execute_eq_transact _ _ _
  have hjumped : jumped = (machine.refit .strict Tally.rebooked).transact
      (.decode Instruction.jumpOn) console := execute_eq_transact _ _ _
  have hjump : (Instruction.decode Instruction.jumpOn).operation? = some (.branch .always) := rfl
  have htarget : (machine.refit .strict Tally.rebooked).target
      (Instruction.decode Instruction.jumpOn).immediate = machine.nextPc := UInt32.add_zero _
  rw [hskipped, hjumped]
  simp only [transact, hop, hp, hjump, converse, effect, flow, htarget, Flags.holds, ite_true,
    true_and, and_true]
  rfl

end Machine

namespace Simulator

-- The simulator of the rewritten program, which has nothing to skip.
def rewritten (simulator : Simulator) : Simulator :=
  { simulator with
    machine := simulator.machine.refit .strict Tally.rebooked
    program := simulator.program.map Instruction.rewritten }

def strictly (simulator : Simulator) : Simulator :=
  { simulator with machine := simulator.machine.refit .strict id }

-- The next word to execute has an unassigned opcode.
structure Meets (simulator : Simulator) (i : Instruction) : Prop where
  fetched : simulator.fetch = .ok i
  unassigned : 22 ≤ i.opcode.toNat

-- A run makes some steps, and is then to execute a word with an unassigned opcode.
structure ComesTo (simulator : Simulator) (count : Nat) (i : Instruction) : Prop where
  goesOn : simulator.GoesOn count
  uninterrupted : (simulator.after count).interruption? = none
  meets : (simulator.after count).Meets i

-- What a lenient simulator and a strict one have in common, if the one jumps where the other skips.
structure Agrees (lenient strict : Simulator) : Prop where
  pc : strict.machine.pc = lenient.machine.pc
  registers : strict.machine.registers = lenient.machine.registers
  memory : strict.machine.memory = lenient.machine.memory
  console : strict.console = lenient.console
  retired : strict.machine.tally.retired = lenient.machine.tally.retired
  peakDepth : strict.machine.tally.peakDepth = lenient.machine.tally.peakDepth
  count : ∀ category, category ≠ .branch → category ≠ .unknown →
    strict.machine.tally.count category = lenient.machine.tally.count category
  branch : strict.machine.tally.branch =
    lenient.machine.tally.branch + lenient.machine.tally.unknown
  taken : strict.machine.tally.taken =
    lenient.machine.tally.taken + lenient.machine.tally.unknown
  notTaken : strict.machine.tally.notTaken = lenient.machine.tally.notTaken
  unknown : strict.machine.tally.unknown = 0

theorem agrees_rewritten (simulator : Simulator) : simulator.Agrees simulator.rewritten where
  pc := rfl
  registers := rfl
  memory := rfl
  console := rfl
  retired := rfl
  peakDepth := rfl
  count category hbranch hunknown := by
    cases category with
    | branch => exact absurd rfl hbranch
    | unknown => exact absurd rfl hunknown
    | _ => rfl
  branch := rfl
  taken := rfl
  notTaken := rfl
  unknown := rfl

theorem rewritten_ofWords (words : List UInt32) (configuration : Configuration)
    (console : Console) :
    (ofWords words { configuration with policy := .lenient } console).rewritten =
      ofWords (words.map Instruction.rewrite) { configuration with policy := .strict }
        console := by
  have hprogram : (words.map Instruction.decode).toArray.map Instruction.rewritten =
      ((words.map Instruction.rewrite).map Instruction.decode).toArray := by
    simp only [List.map_toArray, List.map_map, Function.comp_def, Instruction.decode_rewrite]
  unfold rewritten ofWords ofProgram
  rw [← hprogram]
  rfl

theorem interruption?_rewritten (simulator : Simulator) :
    simulator.rewritten.interruption? = simulator.interruption? := rfl

theorem interruption?_strictly (simulator : Simulator) :
    simulator.strictly.interruption? = simulator.interruption? := rfl

theorem size_rewritten (simulator : Simulator) :
    simulator.rewritten.program.size = simulator.program.size := Array.size_map

theorem keepsPlace_rewritten : KeepsPlace rewritten where
  isAtEnd simulator := by
    unfold isAtEnd endAddress
    rw [size_rewritten]
    rfl
  goTo simulator pc := rfl

theorem fetch_rewritten (simulator : Simulator) :
    simulator.rewritten.fetch = Instruction.rewritten <$> simulator.fetch := by
  have hpc : simulator.rewritten.machine.pc = simulator.machine.pc := rfl
  have hget : simulator.rewritten.program[simulator.machine.pc.toNat / 4]? =
      simulator.program[simulator.machine.pc.toNat / 4]?.map Instruction.rewritten :=
    Array.getElem?_map
  unfold fetch
  simp only [hpc, size_rewritten, hget]
  split
  · cases simulator.program[simulator.machine.pc.toNat / 4]? with
    | none | some i => rfl
  · rfl

-- The policy is kept by the steps, so every step of a lenient simulator has its mirror image.
theorem mirrorsStep_rewritten {simulator : Simulator} (hp : simulator.machine.policy = .lenient) :
    MirrorsStep rewritten simulator := by
  apply mirrorsStep_of_execute keepsPlace_rewritten
  · intro fault hf
    rw [fetch_rewritten, hf]
    rfl
  · intro i hf
    refine ⟨i.rewritten, by rw [fetch_rewritten, hf]; rfl, ?_⟩
    cases hop : i.operation? with
    | none =>
      have hcode := (Operation.ofCode?_eq_none_iff i.opcode).mp hop
      obtain ⟨hresult, hmachine, hconsole⟩ :=
        Machine.execute_jumpOn hop hp simulator.console
      have hjump : i.rewritten = .decode Instruction.jumpOn := if_pos hcode
      rw [hjump]
      refine ⟨hresult, ?_⟩
      simp only [execute, rewritten, hmachine, hconsole]
    | some op =>
      have hcode : ¬ 22 ≤ i.opcode.toNat := by
        intro hcode
        cases hop.symm.trans ((Operation.ofCode?_eq_none_iff i.opcode).mpr hcode)
      have hsame : i.rewritten = i := if_neg hcode
      have hexecute := Machine.execute_refit .strict simulator.machine Tally.books_rebooked hop
        simulator.console
      rw [hsame]
      simp only [execute, rewritten, hexecute, and_self]

theorem keepsPlace_strictly : KeepsPlace strictly := ⟨fun _ => rfl, fun _ _ => rfl⟩

theorem mirrorsStep_strictly {simulator : Simulator} (h : ∀ i, ¬ simulator.Meets i) :
    MirrorsStep strictly simulator := by
  apply mirrorsStep_of_execute keepsPlace_strictly
  · intro fault hf
    exact hf
  · intro i hf
    refine ⟨i, hf, ?_⟩
    cases hop : i.operation? with
    | none => exact absurd ⟨hf, (Operation.ofCode?_eq_none_iff i.opcode).mp hop⟩ (h i)
    | some op =>
      have hexecute := Machine.execute_refit .strict simulator.machine Tally.books_id hop
        simulator.console
      simp only [execute, strictly, hexecute, and_self]

-- An unassigned opcode is a fault before anything has happened.
theorem step_strictly_of_meets {simulator : Simulator} {i : Instruction} (h : simulator.Meets i) :
    simulator.strictly.step.result = .error (.unknownOpcode i.opcode simulator.machine.pc) ∧
      simulator.strictly.step.simulator = simulator.strictly := by
  have hop : i.operation? = none := (Operation.ofCode?_eq_none_iff i.opcode).mpr h.unassigned
  have hf : simulator.strictly.fetch = .ok i := h.fetched
  have hexecute : simulator.strictly.execute i =
      ⟨.error (.unknownOpcode i.opcode simulator.machine.pc), simulator.strictly, []⟩ := by
    unfold execute
    rw [Machine.execute_eq_transact]
    simp only [Machine.transact, hop]
    rfl
  unfold step
  rw [isAtEnd_of_fetch hf, if_neg (by decide), hf]
  simp only [hexecute, and_self]

-- A strict run of the same words goes on as the lenient one does, to the first unassigned opcode.
theorem run?_strictly_of_comesTo {simulator : Simulator} {count : Nat} {i : Instruction}
    (hassigned : ∀ earlier < count, ∀ i, ¬ (simulator.after earlier).Meets i)
    (h : simulator.ComesTo count i) {fuel : Nat} (hf : count < fuel) :
    ∃ events, simulator.strictly.run? fuel =
      some ⟨.error (.unknownOpcode i.opcode (simulator.after count).machine.pc),
        (simulator.after count).strictly, events⟩ := by
  have hmirrors (earlier : Nat) (he : earlier < count) :
      MirrorsStep strictly (simulator.after earlier) :=
    mirrorsStep_strictly (hassigned earlier he)
  have hafter := after_mirror hmirrors
  have hgoes := goesOn_mirror interruption?_strictly hmirrors h.goesOn
  have huninterrupted : (simulator.strictly.after count).interruption? = none := by
    rw [hafter]
    exact h.uninterrupted
  obtain ⟨hresult, hsimulator⟩ := step_strictly_of_meets h.meets
  have hverdict : verdict? (simulator.strictly.after count).step.result =
      some (.error (.unknownOpcode i.opcode (simulator.after count).machine.pc)) := by
    rw [hafter, hresult]
    rfl
  have hlast : simulator.strictly.after (count + 1) = (simulator.after count).strictly := by
    rw [after, hafter, hsimulator]
  rw [run?_of_verdict hgoes huninterrupted hverdict hf, hlast]
  exact ⟨_, rfl⟩

-- To be lenient is to have every unassigned opcode replaced by a jump to the next instruction: a
-- strict simulator of such words gives the same and is in the same state, after every step and at
-- the end of every run. A strict simulator of the words as they are does the same as long as it
-- meets none of them, and stops at the first one where it is.
theorem lenient_is_rewriting (words : List UInt32) (configuration : Configuration)
    (console : Console) :
    let lenient := ofWords words { configuration with policy := .lenient } console
    let jumping := ofWords (words.map Instruction.rewrite) { configuration with policy := .strict }
      console
    let strict := ofWords words { configuration with policy := .strict } console
    (∀ count, (lenient.after count).Agrees (jumping.after count) ∧
      (jumping.after count).step.result = (lenient.after count).step.result) ∧
    (∀ fuel, Option.Rel
      (fun here there => there.result = here.result ∧ here.simulator.Agrees there.simulator)
      (lenient.run? fuel) (jumping.run? fuel)) ∧
    (∀ count, (∀ earlier < count, ∀ i, ¬ (lenient.after earlier).Meets i) →
      strict.after count = (lenient.after count).strictly ∧
      (∀ earlier < count,
        (strict.after earlier).step.result = (lenient.after earlier).step.result) ∧
      ∀ i, (lenient.after count).Meets i →
        (strict.after count).step.result =
          .error (.unknownOpcode i.opcode (lenient.after count).machine.pc) ∧
        (strict.after count).step.simulator = strict.after count) ∧
    (∀ fuel, (∀ count < fuel, ∀ i, ¬ lenient.ComesTo count i) →
      Option.Rel (MirrorsOutcome strictly) (lenient.run? fuel) (strict.run? fuel)) ∧
    (∀ count i, (∀ earlier < count, ∀ i, ¬ (lenient.after earlier).Meets i) →
      lenient.ComesTo count i → ∀ fuel, count < fuel →
        ∃ events, strict.run? fuel =
          some ⟨.error (.unknownOpcode i.opcode (lenient.after count).machine.pc),
            strict.after count, events⟩) := by
  intro lenient jumping strict
  have hjumping : lenient.rewritten = jumping := rewritten_ofWords words configuration console
  have hstrict : lenient.strictly = strict := rfl
  have hmirrors (count : Nat) : MirrorsStep rewritten (lenient.after count) :=
    mirrorsStep_rewritten (lenient.fixed_after count).policy
  have hassigned {count : Nat} (h : ∀ earlier < count, ∀ i, ¬ (lenient.after earlier).Meets i)
      (earlier : Nat) (he : earlier < count) : MirrorsStep strictly (lenient.after earlier) :=
    mirrorsStep_strictly (h earlier he)
  refine ⟨?_, ?_, ?_, ?_, ?_⟩
  · intro count
    rw [← hjumping, after_mirror fun earlier _ => hmirrors earlier]
    exact ⟨agrees_rewritten _, (hmirrors count).result⟩
  · intro fuel
    have hrun : Option.Rel (MirrorsOutcome rewritten) (lenient.run? fuel)
        (lenient.rewritten.run? fuel) :=
      run?_mirror interruption?_rewritten fun count _ _ _ => hmirrors count
    rw [← hjumping]
    generalize lenient.run? fuel = here at hrun ⊢
    generalize lenient.rewritten.run? fuel = there at hrun ⊢
    cases hrun with
    | none => exact .none
    | some hends => exact .some ⟨hends.result, hends.simulator ▸ agrees_rewritten _⟩
  · intro count h
    have hafter := after_mirror (hassigned h)
    rw [← hstrict, hafter]
    refine ⟨rfl, ?_, fun i hmeets => step_strictly_of_meets hmeets⟩
    intro earlier he
    rw [after_mirror fun first hf => hassigned h first (Nat.lt_trans hf he)]
    exact (hassigned h earlier he).result
  · intro fuel h
    apply run?_mirror interruption?_strictly
    intro count hlt hgoes hi
    exact mirrorsStep_strictly fun i hmeets => h count hlt i ⟨hgoes, hi, hmeets⟩
  · intro count i h hcomes fuel hf
    rw [← hstrict, after_mirror (hassigned h)]
    exact run?_strictly_of_comesTo h hcomes hf

-- A move, and a word with the opcode 30.
def gapped : List UInt32 :=
  [Instruction.encode Operation.moveImm.code 0 0 7, 0xF0000000]

def gappedOn (policy : UnknownPolicy) : Simulator :=
  .ofWords gapped { Configuration.default with policy } (.ofInput [] .unlimited)

theorem gapped_stops_strict :
    let lenient := gappedOn .lenient
    let jumping := ofWords (gapped.map Instruction.rewrite)
      { Configuration.default with policy := .strict } (.ofInput [] .unlimited)
    (lenient.after 2).machine.tally.unknown = 1 ∧
    (jumping.after 2).machine.tally.taken =
      (lenient.after 2).machine.tally.taken + (lenient.after 2).machine.tally.unknown ∧
    ((gappedOn .strict).after 1).step.result = .error (.unknownOpcode 30 4) := by
  have hfirst : ((gappedOn .lenient).after 0).fetch =
      .ok (.decode (Instruction.encode Operation.moveImm.code 0 0 7)) := rfl
  have hsecond : ((gappedOn .lenient).after 1).fetch = .ok (.decode 0xF0000000) := rfl
  have hassigned : ∀ earlier < 1, ∀ i, ¬ ((gappedOn .lenient).after earlier).Meets i := by
    intro earlier he i hmeets
    obtain rfl : earlier = 0 := by omega
    cases hfirst.symm.trans hmeets.fetched
    exact absurd hmeets.unassigned (by decide)
  obtain ⟨hagrees, -, hsteps, -⟩ := lenient_is_rewriting gapped Configuration.default
    (.ofInput [] .unlimited)
  obtain ⟨-, -, hstop⟩ := hsteps 1 hassigned
  exact ⟨rfl, (hagrees 2).1.taken, (hstop _ ⟨hsecond, by decide⟩).1⟩

end Simulator

end WordMachine
