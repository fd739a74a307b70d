import WordMachine.Proofs.Simulation.Limit
import WordMachine.Proofs.Stack.Balanced

namespace WordMachine

namespace Machine

-- How far below its top the stack reaches.
def depth (machine : Machine) : Nat :=
  (machine.stackTop.toInt - machine.stackAddress).toNat

-- The word of a general register.
def general (machine : Machine) (place : Fin 16) : Int32 :=
  machine.registers.general[place]

section Registers

variable (machine : Machine) {index : UInt8} (hi : index.toNat < 16)
include hi

theorem readRegister_of_lt :
    machine.readRegister index = .ok (machine.general ⟨index.toNat, hi⟩) :=
  readRegister_eq_ok_iff.mpr (machine.registers.read_of_lt index hi)

theorem writeRegister_of_lt (value : Int32) :
    machine.writeRegister index value = .ok (machine.setRegister index value hi) :=
  writeRegister_eq_ok_iff.mpr ⟨hi, rfl⟩

theorem revise_of_lt (f : Int32 → Int32) :
    machine.revise index f =
      .ok (machine.setRegister index (f (machine.general ⟨index.toNat, hi⟩)) hi) := by
  rw [revise, readRegister_of_lt machine hi, ok_bind, writeRegister_of_lt machine hi]

theorem combine_of_lt {other : UInt8} (ho : other.toNat < 16) (f : Int32 → Int32 → Int32) :
    machine.combine index other f =
      .ok (machine.setRegister other
        (f (machine.general ⟨index.toNat, hi⟩) (machine.general ⟨other.toNat, ho⟩)) ho) := by
  rw [combine, readRegister_of_lt machine hi, ok_bind, readRegister_of_lt machine ho, ok_bind,
    writeRegister_of_lt machine ho]

theorem general_setRegister (value : Int32) (place : Fin 16) :
    (machine.setRegister index value hi).general place =
      if index.toNat = place then value else machine.general place :=
  Vector.getElem_set hi place.isLt

end Registers

theorem effect_compare_of_lt (machine : Machine) {i : Instruction} (hf : i.first.toNat < 16)
    (hs : i.second.toNat < 16) (delivered : Int32) :
    machine.effect .compare i delivered =
      .ok (machine.compare (machine.general ⟨i.first.toNat, hf⟩)
        (machine.general ⟨i.second.toNat, hs⟩)) := by
  rw [effect, readRegister_of_lt machine hf, ok_bind, readRegister_of_lt machine hs, ok_bind]

theorem peakDepth_recordBranch (machine : Machine) (taken : Bool) :
    (machine.recordBranch taken).tally.peakDepth = machine.tally.peakDepth := by
  cases taken <;> rfl

section Stack

variable (machine : Machine) (value : Int32) {place : Fin 16} (hne : place ≠ 6)
include hne

theorem general_setStackPointer :
    (machine.setStackPointer value).general place = machine.general place := by
  apply Vector.getElem_set_ne (by decide) place.isLt
  intro h
  exact hne (Fin.ext h.symm)

theorem general_drop : machine.drop.general place = machine.general place :=
  machine.general_setStackPointer _ hne

theorem general_pushedWord :
    (machine.pushedWord value).general place = machine.general place := by
  obtain ⟨tally, ht⟩ := machine.pushedWord_eq value
  rw [ht]
  exact general_setStackPointer (machine.setWord _ value) _ hne

end Stack

theorem peakDepth_observeDepth {machine : Machine}
    (h : machine.stackAddress ≤ machine.stackTop.toInt) :
    machine.observeDepth.tally.peakDepth = max machine.tally.peakDepth machine.depth := by
  have hdepth : ¬ machine.stackTop.toInt - machine.registers.stackPointer.toInt < 0 := by
    unfold stackAddress at h
    omega
  rw [observeDepth]
  exact congrArg (fun noted : Machine => noted.tally.peakDepth) (if_neg hdepth)

theorem depth_of_bears {before after : Machine} {value : Int32} (hs : before.OnStack)
    (h : before.Bears value after) : after.depth = before.depth + 4 := by
  have hroom := h.room
  rw [depth, depth, h.stackAddress, h.stackTop, hs]
  omega

-- A push notes the depth that the stack comes to by it.
theorem peakDepth_pushedWord {machine : Machine} (hs : machine.OnStack) (value : Int32)
    (hm : machine.memory.Holds machine.pushSlot.toInt) :
    (machine.pushedWord value).tally.peakDepth =
      max machine.tally.peakDepth (machine.depth + 4) := by
  have hbears := bears_pushedWord hs value hm
  have hroom := hbears.room
  let stored := (machine.setWord machine.pushSlot.toInt value).setStackPointer machine.pushSlot
  have haddress : stored.stackAddress = machine.stackAddress - 4 :=
    (stackAddress_setStackPointer _ _).trans (machine.toInt_pushSlot (by omega))
  have htop : stored.stackTop = machine.stackTop := rfl
  have hdepth : stored.depth = machine.depth + 4 := by
    rw [depth, depth, haddress, htop, hs]
    omega
  rw [← hdepth]
  have hbelow : stored.stackAddress ≤ stored.stackTop.toInt := by
    rw [haddress, htop, hs]
    omega
  exact peakDepth_observeDepth hbelow

end Machine

namespace Simulator

-- The simulator after an instruction that has come to this machine and console and goes on.
def settled (simulator : Simulator) (op : Operation) (machine : Machine) (console : Console)
    (pc : UInt32) : Simulator :=
  { simulator with machine := { machine.retire op.category with pc }, console }

-- Some steps lead from here to there, and the program goes on after each of them.
def Leads (here there : Simulator) : Prop :=
  ∃ count, here.Continues count ∧ here.after count = there

theorem leads_refl (simulator : Simulator) : simulator.Leads simulator :=
  ⟨0, nofun, rfl⟩

theorem leads_trans {first second third : Simulator} (h : first.Leads second)
    (h' : second.Leads third) : first.Leads third := by
  obtain ⟨few, hfew, rfl⟩ := h
  obtain ⟨more, hmore, rfl⟩ := h'
  refine ⟨few + more, ?_, (after_add first few more).symm⟩
  intro earlier he
  by_cases hlt : earlier < few
  · exact hfew earlier hlt
  · have hlate := hmore (earlier - few) (by omega)
    rwa [after_add, Nat.add_sub_cancel' (by omega)] at hlate

theorem program_of_leads {here there : Simulator} (h : here.Leads there) :
    there.program = here.program := by
  obtain ⟨count, -, rfl⟩ := h
  exact (fixed_after here count).program

-- A run without a limit is over where the step after a course stops.
theorem run?_of_leads {here there : Simulator} {result : Except Fault Status}
    (hc : here.cancelled = false) (hl : here.limit = none) (h : here.Leads there)
    (hv : verdict? there.step.result = some result) :
    ∃ steps outcome, (∀ fuel, here.run? fuel = if steps < fuel then some outcome else none) ∧
      outcome.result = result ∧ outcome.simulator = there.step.simulator := by
  obtain ⟨count, hcontinues, rfl⟩ := h
  have hroom : here.HasRoom count := by
    intro limit hlimit
    cases hl.symm.trans hlimit
  exact ⟨count, _, run?_of_stops hc ⟨hcontinues, hv⟩ hroom, rfl, rfl⟩

section Step

variable {here : Simulator} {i : Instruction} {op : Operation} {delivered : Int32}
  {after : Machine} {rest : Console} (hf : here.fetch = .ok i) (hop : i.operation? = some op)
  (hc : here.machine.converse op i here.console = (.ok delivered, rest))

include hf hop hc

theorem step_of_effect (he : here.machine.effect op i delivered = .ok after) {pc : UInt32}
    (hflow : here.machine.flow op i = .goTo pc) :
    here.step.result = .ok (if pc.toNat = here.endAddress then some .endOfProgram else none) ∧
      here.step.simulator = here.settled op after rest pc := by
  have hx := Machine.execute_eq_of_effect hop hc he
  rw [hflow] at hx
  rw [step, isAtEnd_of_fetch hf, if_neg (by decide), hf]
  simp only [execute, hx]
  refine ⟨?_, rfl⟩
  simp only [isAtEnd, decide_eq_true_eq]
  rfl

theorem leads_of_effect (he : here.machine.effect op i delivered = .ok after) {pc : UInt32}
    (hflow : here.machine.flow op i = .goTo pc) (hin : pc.toNat ≠ here.endAddress) :
    here.Leads (here.settled op after rest pc) := by
  obtain ⟨hresult, hsimulator⟩ := step_of_effect hf hop hc he hflow
  rw [if_neg hin] at hresult
  refine ⟨1, ?_, hsimulator⟩
  intro earlier he
  obtain rfl : earlier = 0 := by omega
  exact hresult

theorem step_of_halt (he : here.machine.effect op i delivered = .ok after)
    (hflow : here.machine.flow op i = .halt) :
    here.step.result = .ok (some .halted) ∧
      here.step.simulator =
        { here with machine := after.retire op.category, console := rest } := by
  have hx := Machine.execute_eq_of_effect hop hc he
  rw [hflow] at hx
  rw [step, isAtEnd_of_fetch hf, if_neg (by decide), hf]
  simp only [execute, hx, and_self]

theorem step_of_effect_error {fault : Fault}
    (he : here.machine.effect op i delivered = .error fault) :
    here.step.result = .error fault ∧ here.step.simulator = { here with console := rest } := by
  have hx := Machine.execute_eq_of_effect_error hop hc he
  rw [step, isAtEnd_of_fetch hf, if_neg (by decide), hf]
  simp only [execute, hx, and_self]

end Step

-- Steps that leave the stack and the console as they were. On the way, the stack has been this
-- deep.
structure Returns (depth : Nat) (here there : Simulator) : Prop where
  leads : here.Leads there
  keeps : here.machine.Keeps there.machine
  console : there.console = here.console
  peakDepth : there.machine.tally.peakDepth = max here.machine.tally.peakDepth depth

-- Steps that leave one more word on the stack.
structure Opens (depth : Nat) (value : Int32) (here there : Simulator) : Prop where
  leads : here.Leads there
  bears : here.machine.Bears value there.machine
  console : there.console = here.console
  peakDepth : there.machine.tally.peakDepth = max here.machine.tally.peakDepth depth

section Stack

variable {depth deeper : Nat} {value : Int32} {first second third : Simulator}

theorem returns_trans (h : Returns depth first second) (h' : Returns deeper second third) :
    Returns (max depth deeper) first third where
  leads := leads_trans h.leads h'.leads
  keeps := Machine.keeps_trans h.keeps h'.keeps
  console := h'.console.trans h.console
  peakDepth := by rw [h'.peakDepth, h.peakDepth, Nat.max_assoc]

theorem opens_of_returns (h : Opens depth value first second) (h' : Returns deeper second third) :
    Opens (max depth deeper) value first third where
  leads := leads_trans h.leads h'.leads
  bears := Machine.bears_of_keeps h.bears h'.keeps
  console := h'.console.trans h.console
  peakDepth := by rw [h'.peakDepth, h.peakDepth, Nat.max_assoc]

end Stack

theorem peakDepth_settled (simulator : Simulator) (op : Operation) (machine : Machine)
    (console : Console) (pc : UInt32) :
    (simulator.settled op machine console pc).machine.tally.peakDepth =
      machine.tally.peakDepth :=
  Tally.peakDepth_retire machine.tally op.category

section Blocks

variable {here : Simulator} {i : Instruction} {op : Operation} {pc : UInt32} {value : Int32}
  {depth : Nat} (hf : here.fetch = .ok i) (hop : i.operation? = some op)

include hf hop

theorem returns_of_effect {after : Machine}
    (hc : here.machine.converse op i here.console = (.ok 0, here.console))
    (he : here.machine.effect op i 0 = .ok after) (hflow : here.machine.flow op i = .goTo pc)
    (hin : pc.toNat ≠ here.endAddress) (hkeeps : here.machine.Keeps after)
    (hpeak : after.tally.peakDepth = here.machine.tally.peakDepth) :
    Returns 0 here (here.settled op after here.console pc) where
  leads := leads_of_effect hf hop hc he hflow hin
  keeps := Machine.keeps_settled hkeeps _ _
  console := rfl
  peakDepth := by rw [peakDepth_settled, hpeak, Nat.max_zero]

-- An operation that pushes puts its word on the stack where there is room for it.
theorem opens_of_push (hs : here.machine.OnStack)
    (hc : here.machine.converse op i here.console = (.ok 0, here.console))
    (he : here.machine.effect op i 0 = here.machine.push value)
    (hflow : here.machine.flow op i = .goTo pc) (hin : pc.toNat ≠ here.endAddress)
    (hroom : 4 ≤ here.machine.stackAddress ∧
      here.machine.stackAddress ≤ here.machine.memory.size) :
    Opens (here.machine.depth + 4) value here
      (here.settled op (here.machine.pushedWord value) here.console pc) := by
  have hm := (Machine.holds_pushSlot_iff (Machine.size_lt_of_onStack hs)).mpr hroom
  rw [Machine.push_eq, if_pos hm] at he
  refine ⟨leads_of_effect hf hop hc he hflow hin, ?_, rfl, ?_⟩
  · exact Machine.bears_settled (Machine.bears_pushedWord hs value hm) _ _
  · rw [peakDepth_settled, Machine.peakDepth_pushedWord hs value hm]

-- With the stack pointer at zero there is none.
theorem step_of_full (hc : here.machine.converse op i here.console = (.ok 0, here.console))
    (he : here.machine.effect op i 0 = here.machine.push value)
    (hzero : here.machine.stackAddress = 0) :
    here.step.result =
        .error (.memory ⟨-4, here.machine.memory.size⟩ here.machine.pc) ∧
      here.step.simulator = here := by
  have hslot : here.machine.pushSlot.toInt = -4 := by
    rw [Machine.toInt_pushSlot _ (by omega), hzero]
    rfl
  have hm : ¬ here.machine.memory.Holds (-4) := by
    rw [Memory.Holds]
    omega
  rw [Machine.push_eq, hslot, if_neg hm] at he
  exact step_of_effect_error hf hop hc he

end Blocks

section Closing

variable {before inner : Simulator} {j : Instruction} {value : Int32} {depth : Nat}
  (hs : before.machine.OnStack) (h : Opens depth value before inner) (hf : inner.fetch = .ok j)

include hs h hf

theorem returns_of_pop (hj : j.operation? = some .pop) (hi : j.first.toNat < 16)
    (hne : j.first ≠ 6) (hin : inner.machine.nextPc.toNat ≠ inner.endAddress) :
    Returns depth before
      (inner.settled .pop (inner.machine.setRegister j.first value hi).drop inner.console
        inner.machine.nextPc) := by
  have he := Machine.effect_pop (i := j) 0 (Machine.holds_of_bears h.bears) hi
  rw [h.bears.word] at he
  have hwritten := Machine.keeps_setRegister inner.machine value hi hne
  have hdropped := Machine.keeps_drop hs (Machine.bears_of_keeps h.bears hwritten)
  refine ⟨?_, Machine.keeps_settled hdropped _ _, h.console, ?_⟩
  · exact leads_trans h.leads (leads_of_effect hf hj rfl he rfl hin)
  · rw [peakDepth_settled]
    exact h.peakDepth

theorem returns_of_ret (hj : j.operation? = some .ret)
    (hin : value.toUInt32.toNat ≠ inner.endAddress) :
    Returns depth before
      (inner.settled .ret inner.machine.drop inner.console value.toUInt32) := by
  have ht := Machine.isAtStackTop_of_bears hs h.bears
  have he := Machine.effect_ret (i := j) 0 (Machine.holds_of_bears h.bears) ht
  have hflow := Machine.flow_ret (i := j) ht
  rw [h.bears.word] at hflow
  refine ⟨?_, Machine.keeps_settled (Machine.keeps_drop hs h.bears) _ _, h.console, ?_⟩
  · exact leads_trans h.leads (leads_of_effect hf hj rfl he hflow hin)
  · rw [peakDepth_settled]
    exact h.peakDepth

end Closing

end Simulator

end WordMachine
