import WordMachine.Proofs.Stack.Peak

namespace WordMachine.Machine

-- What it comes to to put a word on a stack of `size` bytes, from any stack pointer. The word is
-- stored only where it lies between the ends of the stack, and the pointer is then one word lower.
-- The depth is noted as it is, with nothing cut off.
structure Puts (size : Nat) (machine : Machine) (execution : Execution) : Prop where
  succeeds_iff : (∃ flow, execution.result = .ok flow) ↔
    4 ≤ machine.stackAddress ∧ machine.stackAddress ≤ size
  pointer : ∀ flow, execution.result = .ok flow →
    execution.machine.stackAddress = machine.stackAddress - 4
  depth : ∀ flow, execution.result = .ok flow →
    let depth := size - execution.machine.stackAddress
    4 ≤ depth ∧ depth ≤ size ∧
      (execution.machine.tally.peakDepth : Int) = max (machine.tally.peakDepth : Int) depth

-- What it comes to to take a word off such a stack.
structure Takes (size : Nat) (machine : Machine) (execution : Execution) : Prop where
  succeeds_iff : (∃ flow, execution.result = .ok flow) ↔
    0 ≤ machine.stackAddress ∧ machine.stackAddress ≤ (size : Int) - 4
  pointer : ∀ flow, execution.result = .ok flow →
    execution.machine.stackAddress = machine.stackAddress + 4 ∧
      execution.machine.stackAddress ≤ size

section Stack

variable {machine : Machine} {i : Instruction} {console : Console} {op : Operation}
  (hs : machine.OnStack) (hop : i.operation? = some op)
  (hc : machine.converse op i console = (.ok 0, console))

include hs hop hc

theorem puts_of_push {value : Int32} (he : machine.effect op i 0 = machine.push value) :
    Puts machine.memory.size machine (machine.execute i console) := by
  have hslot := holds_pushSlot_iff (size_lt_of_onStack hs)
  rw [push_eq] at he
  by_cases hm : machine.memory.Holds machine.pushSlot.toInt
  · obtain ⟨hlow, hhigh⟩ := hslot.mp hm
    rw [if_pos hm] at he
    have hx := execute_eq_of_effect hop hc he
    have hpointer : (machine.execute i console).machine.stackAddress =
        machine.stackAddress - 4 := by
      rw [hx]
      exact (bears_pushedWord hs value hm).stackAddress
    have hdeepens : machine.Deepens (machine.execute i console).machine := by
      rw [hx]
      exact deepens_retire (deepens_pushedWord hs value hm) op.category
    exact ⟨⟨fun _ => ⟨hlow, hhigh⟩, fun _ => ⟨_, congrArg Execution.result hx⟩⟩,
      fun _ _ => hpointer, fun _ _ => ⟨hdeepens.low, hdeepens.high, hdeepens.noted⟩⟩
  · rw [if_neg hm] at he
    rw [execute_eq_of_effect_error hop hc he]
    rw [hslot] at hm
    exact ⟨⟨nofun, fun h => absurd h hm⟩, nofun, nofun⟩

-- A pop and a return both give up the top word, and do nothing else to the stack pointer.
theorem takes_of_drop {before : Machine} (haddress : before.stackAddress = machine.stackAddress)
    (hheld : machine.memory.Holds machine.stackAddress →
      machine.effect op i 0 = .ok before.drop)
    (hlost : ¬ machine.memory.Holds machine.stackAddress →
      ∃ fault, machine.effect op i 0 = .error fault) :
    Takes machine.memory.size machine (machine.execute i console) := by
  by_cases hm : machine.memory.Holds machine.stackAddress
  · have hx := execute_eq_of_effect hop hc (hheld hm)
    obtain ⟨hlow, hhigh⟩ := hm
    have hsize := size_lt_of_onStack hs
    have hpointer : (machine.execute i console).machine.stackAddress =
        machine.stackAddress + 4 := by
      rw [hx, ← haddress]
      exact before.stackAddress_drop (by omega)
    refine ⟨⟨fun _ => ⟨hlow, by omega⟩, fun _ => ⟨_, congrArg Execution.result hx⟩⟩,
      fun _ _ => ⟨hpointer, by omega⟩⟩
  · obtain ⟨fault, he⟩ := hlost hm
    rw [execute_eq_of_effect_error hop hc he]
    rw [Memory.Holds] at hm
    refine ⟨⟨?_, fun h => by omega⟩, ?_⟩
    · rintro ⟨flow, hok⟩
      cases hok
    · intro flow hok
      cases hok

end Stack

section Operations

variable {machine : Machine} {i : Instruction} (console : Console) (hs : machine.OnStack)

include hs

theorem puts_of_call (hop : i.operation? = some .call) :
    Puts machine.memory.size machine (machine.execute i console) :=
  puts_of_push hs hop rfl rfl

-- Every register can be pushed, the flags and the stack pointer included.
theorem puts_of_pushed (hop : i.operation? = some .push) (hi : i.first.toNat ≤ 16) :
    Puts machine.memory.size machine (machine.execute i console) := by
  obtain ⟨value, hv⟩ := machine.pushed_of_le hi
  have he : machine.effect .push i 0 = machine.push value := by
    rw [effect, hv, ok_bind]
  exact puts_of_push hs hop rfl he

theorem takes_of_pop (hop : i.operation? = some .pop) (hi : i.first.toNat < 16)
    (hne : i.first ≠ 6) : Takes machine.memory.size machine (machine.execute i console) := by
  have haddress := machine.stackAddress_setRegister machine.topWord hi hne
  apply takes_of_drop hs hop rfl haddress
  · intro hm
    exact effect_pop 0 hm hi
  · intro hm
    exact ⟨_, by rw [effect, peek_eq, if_neg hm, error_bind]⟩

theorem takes_of_ret (hop : i.operation? = some .ret) (ht : machine.isAtStackTop = false) :
    Takes machine.memory.size machine (machine.execute i console) := by
  apply takes_of_drop hs hop rfl rfl
  · intro hm
    exact effect_ret 0 hm ht
  · intro hm
    exact ⟨_, by rw [effect, ht, if_neg (by decide), peek_eq, if_neg hm, error_bind]⟩

end Operations

-- The sizes that are accepted are the ones for which a machine begins with its stack pointer at the
-- end of its memory. Whatever a program then makes of the stack pointer, no word is put or taken
-- outside of the stack by an address that wraps around.
theorem stack_operations_never_wrap (configuration : Configuration) :
    let size := configuration.stackSize
    (configuration.validate = .ok () ↔ 0 < size ∧ 4 ∣ size ∧ size ≤ 2147483647) ∧
    (configuration.validate = .ok () →
      let start := Machine.reset size configuration.policy
      (start.stackTop.toInt = size ∧ start.stackAddress = size ∧ start.memory.size = size) ∧
      ∀ machine : Machine, machine.memory.size = size → machine.stackTop.toInt = size →
        ∀ (i : Instruction) (console : Console),
          (i.operation? = some .call → Puts size machine (machine.execute i console)) ∧
          (i.operation? = some .push → i.first.toNat ≤ 16 →
            Puts size machine (machine.execute i console)) ∧
          (i.operation? = some .pop → i.first.toNat < 16 → i.first ≠ 6 →
            Takes size machine (machine.execute i console)) ∧
          (i.operation? = some .ret → machine.stackAddress ≠ machine.stackTop.toInt →
            Takes size machine (machine.execute i console))) := by
  intro size
  have hvalid : configuration.validate = .ok () ↔ 0 < size ∧ 4 ∣ size ∧ size ≤ 2147483647 := by
    rw [configuration.validate_eq_ok_iff]
    omega
  refine ⟨hvalid, ?_⟩
  intro hv start
  obtain ⟨-, -, hle⟩ := hvalid.mp hv
  have hstacked : start.Stacked size 0 := stacked_reset (by omega) configuration.policy
  have hpointer := hstacked.depth
  refine ⟨⟨hstacked.stackTop, by omega, hstacked.memory⟩, ?_⟩
  intro machine hmemory htop i console
  have hs : machine.OnStack := by rw [OnStack, htop, hmemory]
  rw [← hmemory]
  refine ⟨puts_of_call console hs, puts_of_pushed console hs, takes_of_pop console hs, ?_⟩
  intro hop hne
  apply takes_of_ret console hs hop
  apply Bool.eq_false_iff.mpr
  intro ht
  exact hne (isAtStackTop_iff.mp ht)

-- On the greatest stack, the slot below the least stack pointer wraps around to the very end of the
-- memory, where there is no room for a word.
theorem wrapped_slot_is_rejected :
    let machine := (Machine.reset 2147483644 .strict).setStackPointer Int32.minValue
    machine.pushSlot.toInt = 2147483644 ∧ machine.memory.size = 2147483644 ∧
      ¬ ∃ flow, (machine.execute (.assemble .call 0 0 0) (.ofInput [] .unlimited)).result =
        .ok flow := by
  intro machine
  obtain ⟨-, hstack⟩ :=
    stack_operations_never_wrap { Configuration.default with stackSize := 2147483644 }
  obtain ⟨-, hmachine⟩ := hstack rfl
  obtain ⟨hcall, -⟩ := hmachine machine rfl rfl (.assemble .call 0 0 0) (.ofInput [] .unlimited)
  refine ⟨by decide, rfl, ?_⟩
  rw [(hcall rfl).succeeds_iff]
  decide

end WordMachine.Machine
