import WordMachine.Proofs.Stack.Count

namespace WordMachine

namespace Machine

-- What an instruction of the stack comes to depends on the number of words only.
section Bounds

variable {size : Nat} {words : Int} {machine : Machine} {i : Instruction}

theorem isAtStackTop_iff_of_stacked (h : machine.Stacked size words) :
    machine.isAtStackTop = true ↔ words = 0 := by
  rw [isAtStackTop_iff, h.stackTop, h.depth]
  omega

theorem holds_iff_of_stacked (h : machine.Stacked size words) :
    machine.memory.Holds machine.stackAddress ↔ 0 < words := by
  have hroom := h.room
  have hdepth := h.depth
  rw [Memory.Holds, h.memory]
  omega

theorem holds_pushSlot_iff_of_stacked (h : machine.Stacked size words) :
    machine.memory.Holds machine.pushSlot.toInt ↔ 4 ≤ machine.stackAddress := by
  have hnonneg := h.nonneg
  have hdepth := h.depth
  rw [holds_pushSlot_iff (size_lt_of_onStack (onStack_of_stacked h)), h.memory]
  omega

theorem execute_ret_of_words (h : machine.Stacked size words) (console : Console)
    (hop : i.operation? = some .ret) (hw : 0 < words) :
    (machine.execute i console).result = .ok (.goTo machine.topWord.toUInt32) := by
  have ht : machine.isAtStackTop = false := by
    apply Bool.eq_false_iff.mpr
    intro ht
    have hnone := (isAtStackTop_iff_of_stacked h).mp ht
    omega
  rw [← flow_ret ht]
  exact execute_of_effect hop rfl (effect_ret 0 ((holds_iff_of_stacked h).mpr hw) ht)

theorem execute_ret_eq_halt_iff (h : machine.Stacked size words) (console : Console)
    (hop : i.operation? = some .ret) :
    (machine.execute i console).result = .ok .halt ↔ words = 0 := by
  constructor
  · intro hx
    by_cases hw : words = 0
    · exact hw
    · have hnonneg := h.nonneg
      rw [execute_ret_of_words h console hop (by omega)] at hx
      cases hx
  · intro hw
    have ht := (isAtStackTop_iff_of_stacked h).mpr hw
    have he : machine.effect .ret i 0 = .ok machine := effect_ret_of_top 0 ht
    have hflow : machine.flow .ret i = .halt := flow_eq_halt_iff.mpr ⟨rfl, ht⟩
    rw [← hflow]
    exact execute_of_effect hop rfl he

theorem execute_pop_of_words (h : machine.Stacked size words) (console : Console)
    (hop : i.operation? = some .pop) (hi : i.first.toNat < 16) (hw : 0 < words) :
    (machine.execute i console).result = .ok (.goTo machine.nextPc) :=
  execute_of_effect hop rfl (effect_pop 0 ((holds_iff_of_stacked h).mpr hw) hi)

theorem execute_pop_of_empty (h : machine.Stacked size words) (console : Console)
    (hop : i.operation? = some .pop) (hw : words = 0) :
    (machine.execute i console).result = .error (.memory ⟨size, size⟩ machine.pc) := by
  have hm : ¬ machine.memory.Holds machine.stackAddress := by
    rw [holds_iff_of_stacked h]
    omega
  have haddress : machine.stackAddress = size := by
    rw [h.depth, hw]
    omega
  refine execute_of_effect_error hop rfl ?_
  rw [effect, peek_eq, if_neg hm, error_bind, haddress, h.memory]

-- An operation whose effect is a push fails where there is no room for one more word.
theorem execute_push_fails_iff (h : machine.Stacked size words) (console : Console)
    {op : Operation} {value : Int32} (hop : i.operation? = some op)
    (hc : machine.converse op i console = (.ok 0, console))
    (he : machine.effect op i 0 = machine.push value) :
    (∃ fault, (machine.execute i console).result = .error fault) ↔ machine.stackAddress < 4 := by
  rw [push_eq] at he
  by_cases hm : machine.memory.Holds machine.pushSlot.toInt
  · rw [if_pos hm] at he
    rw [execute_of_effect hop hc he]
    have hroom := (holds_pushSlot_iff_of_stacked h).mp hm
    constructor
    · rintro ⟨fault, hf⟩
      cases hf
    · intro hlt
      omega
  · rw [if_neg hm] at he
    rw [execute_of_effect_error hop hc he]
    rw [holds_pushSlot_iff_of_stacked h] at hm
    exact ⟨fun _ => by omega, fun _ => ⟨_, rfl⟩⟩

theorem pushed_of_le (machine : Machine) {index : UInt8} (hi : index.toNat ≤ 16) :
    ∃ value, machine.pushed index = .ok value := by
  unfold pushed
  by_cases hsp : index = 6
  · exact ⟨_, if_pos hsp⟩
  · rw [if_neg hsp]
    obtain hlt | heq : index.toNat < 16 ∨ index.toNat = 16 := by omega
    · exact ⟨_, readRegister_eq_ok_iff.mpr (machine.registers.read_of_lt index hlt)⟩
    · have heq : index = 16 := UInt8.toNat_inj.mp heq
      subst heq
      exact ⟨_, readRegister_eq_ok_iff.mpr machine.registers.read_flags⟩

end Bounds

end Machine

namespace Simulator

open Machine Retirement

variable {size : Nat} {words : Int} {simulator : Simulator}

theorem stacked_completes {i : Instruction} {flow : Flow} {after : Machine} {rest : Console}
    (h : simulator.machine.Stacked size words) (hf : simulator.fetch = .ok i)
    (hx : (simulator.execute i).result = .ok flow)
    (hi : ∀ op, i.operation? = some op → op.destination? i ≠ some 6)
    (hc : simulator.machine.Completes i simulator.console flow after rest) :
    after.Stacked size (words + outstanding simulator.retirement?.toList) := by
  rw [retirement?_of_fetch hf hx]
  cases hc with
  | skipped hop hp =>
    rw [hop]
    change (simulator.machine.retire .unknown).Stacked size (words + 0)
    rw [Int.add_zero]
    exact ⟨h.stackTop, h.memory, h.nonneg, h.room, h.depth⟩
  | done op delivered final rest hop hc he =>
    rw [hop]
    have hfinal := stacked_of_effects h (effects_of_effect he) (hi op hop)
    exact ⟨hfinal.stackTop, hfinal.memory, hfinal.nonneg, hfinal.room, hfinal.depth⟩

theorem stacked_idle (h : simulator.machine.Stacked size words)
    (hidle : ∀ i flow, simulator.fetch = .ok i → (simulator.execute i).result ≠ .ok flow) :
    simulator.machine.Stacked size (words + outstanding simulator.retirement?.toList) := by
  rw [retirement?_eq_none hidle]
  change simulator.machine.Stacked size (words + 0)
  rw [Int.add_zero]
  exact h

-- The number of words on the stack follows what a step completes, also where that is nothing.
theorem stacked_step (h : simulator.machine.Stacked size words)
    (hp : ∀ i ∈ simulator.program, ∀ op, i.operation? = some op → op.destination? i ≠ some 6) :
    simulator.step.simulator.machine.Stacked size
      (words + outstanding simulator.retirement?.toList) := by
  have hsteps := simulator.steps_step
  generalize simulator.step.simulator = after at hsteps ⊢
  generalize simulator.step.result = result at hsteps
  cases hsteps with
  | ended he =>
    apply stacked_idle h
    intro i flow hf
    simp [isAtEnd_of_fetch hf] at he
  | lost he hf =>
    apply stacked_idle h
    intro i flow hi
    simp [hf] at hi
  | faulted i fault he hf hx =>
    have hmachine : (simulator.execute i).simulator.machine = simulator.machine :=
      (fails_of_execute hx).1
    rw [hmachine]
    apply stacked_idle h
    intro j flow hj hok
    cases hf.symm.trans hj
    simp [hx] at hok
  | halted i he hf hx =>
    exact stacked_completes h hf hx (hp i (mem_of_fetch hf)) (completes_of_execute hx)
  | moved i pc he hf hx =>
    have hdone := stacked_completes h hf hx (hp i (mem_of_fetch hf)) (completes_of_execute hx)
    exact ⟨hdone.stackTop, hdone.memory, hdone.nonneg, hdone.room, hdone.depth⟩

theorem stacked_after {program : List Instruction} {configuration : Configuration}
    (console : Console) (hsize : configuration.stackSize < 2147483648)
    (hp : ∀ i ∈ program, ∀ op, i.operation? = some op → op.destination? i ≠ some 6)
    (count : Nat) :
    ((ofProgram program configuration console).after count).machine.Stacked
      configuration.stackSize
      (outstanding ((ofProgram program configuration console).history count)) := by
  induction count with
  | zero => exact stacked_reset hsize configuration.policy
  | succ count ih =>
    have hprogram : ((ofProgram program configuration console).after count).program =
        program.toArray :=
      (fixed_after _ count).program
    rw [history, outstanding_append]
    refine stacked_step ih ?_
    rw [hprogram]
    intro i hi
    exact hp i (List.mem_toArray.mp hi)

-- Where no operand is the stack pointer, it counts the words on the stack. Their number, and the
-- room that is left, decide what each instruction of the stack comes to.
theorem stack_pointer_counts_words {program : List Instruction} {configuration : Configuration}
    (console : Console) (hsize : configuration.stackSize < 2147483648)
    (hp : ∀ i ∈ program, ∀ op, i.operation? = some op → op.destination? i ≠ some 6)
    (count : Nat) :
    let start := ofProgram program configuration console
    let here := start.after count
    let words := outstanding (start.history count)
    (0 ≤ words ∧ 0 ≤ here.machine.stackAddress ∧
      here.machine.stackAddress = configuration.stackSize - 4 * words) ∧
    (here.machine.isAtStackTop = true ↔ words = 0) ∧
    (∀ i, i.operation? = some .ret → ((here.execute i).result = .ok .halt ↔ words = 0)) ∧
    (∀ i, i.operation? = some .call →
      ((∃ fault, (here.execute i).result = .error fault) ↔ here.machine.stackAddress < 4)) ∧
    (∀ i, i.operation? = some .push → i.first.toNat ≤ 16 →
      ((∃ fault, (here.execute i).result = .error fault) ↔ here.machine.stackAddress < 4)) ∧
    (∀ i, i.operation? = some .pop → words = 0 →
      (here.execute i).result =
        .error (.memory ⟨configuration.stackSize, configuration.stackSize⟩ here.machine.pc)) ∧
    (∀ i, i.operation? = some .pop → i.first.toNat < 16 → 0 < words →
      ∃ pc, (here.execute i).result = .ok (.goTo pc)) ∧
    (∀ i, i.operation? = some .ret → 0 < words →
      ∃ pc, (here.execute i).result = .ok (.goTo pc)) := by
  intro start here words
  have h : here.machine.Stacked configuration.stackSize words :=
    stacked_after console hsize hp count
  refine ⟨⟨h.nonneg, h.room, h.depth⟩, isAtStackTop_iff_of_stacked h, ?_, ?_, ?_, ?_, ?_, ?_⟩
  · intro i hop
    exact execute_ret_eq_halt_iff h here.console hop
  · intro i hop
    exact execute_push_fails_iff h here.console hop rfl rfl
  · intro i hop hi
    obtain ⟨value, hv⟩ := here.machine.pushed_of_le hi
    have he : here.machine.effect .push i 0 = here.machine.push value := by
      rw [effect, hv, ok_bind]
    exact execute_push_fails_iff h here.console hop rfl he
  · intro i hop hw
    exact execute_pop_of_empty h here.console hop hw
  · intro i hop hi hw
    exact ⟨_, execute_pop_of_words h here.console hop hi hw⟩
  · intro i hop hw
    exact ⟨_, execute_ret_of_words h here.console hop hw⟩

-- Ten bytes have room for two words, and not for a third.
theorem third_push_faults :
    ∃ fault, (((ofProgram (List.replicate 3 (.assemble .push 0 0 0))
      { Configuration.default with stackSize := 10 } (.ofInput [] .unlimited)).after 2).execute
        (.assemble .push 0 0 0)).result = .error fault := by
  have hp : ∀ i ∈ List.replicate 3 (Instruction.assemble .push 0 0 0), ∀ op,
      i.operation? = some op → op.destination? i ≠ some 6 := by
    intro i hi op hop
    rw [List.eq_of_mem_replicate hi] at hop ⊢
    cases hop
    exact nofun
  have hsize : { Configuration.default with stackSize := 10 }.stackSize < 2147483648 := by decide
  obtain ⟨-, -, -, -, hpush, -⟩ :=
    stack_pointer_counts_words (.ofInput [] .unlimited) hsize hp 2
  exact (hpush (.assemble .push 0 0 0) rfl (by decide)).mpr (by decide)

end Simulator

end WordMachine
