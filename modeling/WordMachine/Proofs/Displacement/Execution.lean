import WordMachine.Proofs.Execution.InPlace
import WordMachine.Proofs.Stack.Slot

namespace WordMachine

-- The fault of the same instruction at a place further up.
def Fault.displaced (distance : UInt32) : Fault → Fault
  | .unknownOpcode opcode pc => .unknownOpcode opcode (pc + distance)
  | .memory cause pc => .memory cause (pc + distance)
  | .register cause pc => .register cause (pc + distance)
  | .outsideProgram pc length => .outsideProgram (pc + distance) length
  | .input cause => .input cause
  | .output cause => .output cause

def Flow.displaced (distance : UInt32) : Flow → Flow
  | .goTo pc => .goTo (pc + distance)
  | .halt => .halt

-- What an attempt gives at a place further up.
def Fault.displacing (distance : UInt32) (move : α → β) : Except Fault α → Except Fault β
  | .ok a => .ok (move a)
  | .error fault => .error (fault.displaced distance)

open Fault (displacing)

theorem displacing_bind {distance : UInt32} {move : α → α'} {move' : β → β'}
    {attempt : Except Fault α} {next : α → Except Fault β} {next' : α' → Except Fault β'}
    (h : ∀ a, next' (move a) = displacing distance move' (next a)) :
    (displacing distance move attempt >>= next') =
      displacing distance move' (attempt >>= next) := by
  cases attempt with
  | ok a => exact h a
  | error fault => rfl

namespace Machine

-- The same machine with its program counter further up.
def displaced (distance : UInt32) (machine : Machine) : Machine :=
  { machine with pc := machine.pc + distance }

section Parts

variable (distance : UInt32) (machine : Machine)

theorem readRegister_displaced (index : UInt8) :
    (machine.displaced distance).readRegister index =
      displacing distance id (machine.readRegister index) := by
  unfold readRegister
  have hregisters : (machine.displaced distance).registers = machine.registers := rfl
  rw [hregisters]
  cases machine.registers.read index with
  | error cause | ok value => rfl

theorem writeRegister_displaced (index : UInt8) (value : Int32) :
    (machine.displaced distance).writeRegister index value =
      displacing distance (displaced distance) (machine.writeRegister index value) := by
  unfold writeRegister
  have hregisters : (machine.displaced distance).registers = machine.registers := rfl
  rw [hregisters]
  cases machine.registers.write index value with
  | error cause | ok registers => rfl

theorem load_displaced (address : Int) :
    (machine.displaced distance).load address = displacing distance id (machine.load address) := by
  unfold load
  have hmemory : (machine.displaced distance).memory = machine.memory := rfl
  rw [hmemory]
  cases machine.memory.readWord address with
  | error cause | ok word => rfl

theorem store_displaced (address : Int) (value : Int32) :
    (machine.displaced distance).store address value =
      displacing distance (displaced distance) (machine.store address value) := by
  unfold store
  have hmemory : (machine.displaced distance).memory = machine.memory := rfl
  rw [hmemory]
  cases machine.memory.writeWord address value.toUInt32 with
  | error cause | ok memory => rfl

theorem revise_displaced (index : UInt8) (f : Int32 → Int32) :
    (machine.displaced distance).revise index f =
      displacing distance (displaced distance) (machine.revise index f) := by
  unfold revise
  rw [readRegister_displaced]
  exact displacing_bind fun value => machine.writeRegister_displaced distance _ _

theorem combine_displaced (first second : UInt8) (f : Int32 → Int32 → Int32) :
    (machine.displaced distance).combine first second f =
      displacing distance (displaced distance) (machine.combine first second f) := by
  unfold combine
  simp only [readRegister_displaced]
  exact displacing_bind fun value => displacing_bind fun other =>
    machine.writeRegister_displaced distance _ _

theorem pushed_displaced (index : UInt8) :
    (machine.displaced distance).pushed index =
      displacing distance id (machine.pushed index) := by
  unfold pushed
  split
  · rfl
  · exact machine.readRegister_displaced distance index

theorem observeDepth_displaced :
    (machine.displaced distance).observeDepth = machine.observeDepth.displaced distance := by
  unfold observeDepth
  have hdepth : (machine.displaced distance).stackTop.toInt -
      (machine.displaced distance).registers.stackPointer.toInt =
        machine.stackTop.toInt - machine.registers.stackPointer.toInt := rfl
  simp only [hdepth]
  split <;> rfl

theorem push_displaced (value : Int32) :
    (machine.displaced distance).push value =
      displacing distance (displaced distance) (machine.push value) := by
  unfold push
  rw [store_displaced]
  exact displacing_bind fun stored => congrArg Except.ok
    (observeDepth_displaced distance (stored.setStackPointer machine.pushSlot))

theorem nextPc_displaced : (machine.displaced distance).nextPc = machine.nextPc + distance := by
  rw [nextPc, nextPc, displaced, UInt32.add_assoc, UInt32.add_assoc, UInt32.add_comm distance]

theorem target_displaced (reach : Int32) :
    (machine.displaced distance).target reach = machine.target reach + distance := by
  rw [target, target, nextPc_displaced, UInt32.add_assoc, UInt32.add_assoc,
    UInt32.add_comm distance]

-- The machine's part of an operation does not look at the program counter, but for a call, which
-- stores an address.
theorem effect_displaced {op : Operation} (hop : op ≠ .call) (i : Instruction)
    (delivered : Int32) :
    (machine.displaced distance).effect op i delivered =
      displacing distance (displaced distance) (machine.effect op i delivered) := by
  have hread := machine.readRegister_displaced distance
  have hwrite := machine.writeRegister_displaced distance
  cases op with
  | subImm | addImm | halve => exact machine.revise_displaced distance _ _
  | add | mul => exact machine.combine_displaced distance _ _ _
  | move =>
    simp only [effect, hread]
    exact displacing_bind fun value => hwrite _ _
  | load =>
    simp only [effect, hread, load_displaced]
    exact displacing_bind fun base => displacing_bind fun value => hwrite _ _
  | store =>
    simp only [effect, hread]
    exact displacing_bind fun base => displacing_bind fun value =>
      machine.store_displaced distance _ _
  | moveImm | read => exact hwrite _ _
  | compare =>
    simp only [effect, hread]
    exact displacing_bind fun first => displacing_bind fun second => rfl
  | branch condition | print => rfl
  | call => exact absurd rfl hop
  | ret =>
    have htop : (machine.displaced distance).isAtStackTop = machine.isAtStackTop := rfl
    have hpeek : (machine.displaced distance).peek = displacing distance id machine.peek :=
      machine.load_displaced distance _
    simp only [effect, htop, hpeek]
    cases machine.isAtStackTop with
    | true => rfl
    | false => exact displacing_bind fun value => rfl
  | push =>
    simp only [effect, pushed_displaced]
    exact displacing_bind fun value => machine.push_displaced distance value
  | pop =>
    have hpeek : (machine.displaced distance).peek = displacing distance id machine.peek :=
      machine.load_displaced distance _
    simp only [effect, hpeek, hwrite]
    exact displacing_bind fun value => displacing_bind fun written => rfl

-- A call that faults does so before its address matters.
theorem effect_call_displaced_of_error {i : Instruction} {delivered : Int32} {fault : Fault}
    (h : machine.effect .call i delivered = .error fault) :
    (machine.displaced distance).effect .call i delivered = .error (fault.displaced distance) := by
  simp only [effect] at h ⊢
  rw [push_eq] at h ⊢
  by_cases hm : machine.memory.Holds machine.pushSlot.toInt
  · rw [if_pos hm] at h
    cases h
  · rw [if_neg hm] at h
    cases h
    exact if_neg hm

theorem converse_displaced (op : Operation) (i : Instruction) (console : Console) :
    (machine.displaced distance).converse op i console =
      (displacing distance id (machine.converse op i console).1,
        (machine.converse op i console).2) := by
  cases op with
  | print =>
    simp only [converse, readRegister_displaced]
    cases machine.readRegister i.first with
    | error fault => rfl
    | ok value =>
      simp only [displacing, id_eq]
      rcases console.writeLine (Console.printedLine value) with ⟨⟨cause⟩ | ⟨⟩, after⟩
      · rfl
      · rfl
  | read =>
    simp only [converse]
    rcases console.readInteger with ⟨⟨cause⟩ | ⟨value⟩, after⟩
    · rfl
    · rfl
  | _ => rfl

-- All ways on are relative, but for that of a return to a caller.
theorem flow_displaced {op : Operation} (hop : op = .ret → machine.isAtStackTop = true)
    (i : Instruction) :
    (machine.displaced distance).flow op i = (machine.flow op i).displaced distance := by
  cases op with
  | ret =>
    have htop : (machine.displaced distance).isAtStackTop = true := hop rfl
    simp only [flow, htop, hop rfl, ite_true, Flow.displaced]
  | branch condition =>
    have hflags : (machine.displaced distance).registers = machine.registers := rfl
    simp only [flow, hflags, target_displaced, nextPc_displaced]
    cases machine.registers.flags.holds condition with
    | true | false => rfl
  | call => exact congrArg Flow.goTo (machine.target_displaced distance _)
  | _ => exact congrArg Flow.goTo (machine.nextPc_displaced distance)

-- An instruction that completes neither a call nor a return to a caller does the same at each
-- place.
theorem execute_displaced {i : Instruction} {console : Console}
    (h : ∀ flow, (machine.execute i console).result = .ok flow →
      i.operation? ≠ some .call ∧ (i.operation? = some .ret → flow = .halt)) :
    let here := machine.execute i console
    let there := (machine.displaced distance).execute i console
    there.result = displacing distance (Flow.displaced distance) here.result ∧
      there.machine = here.machine.displaced distance ∧ there.console = here.console := by
  intro here there
  have hhere : here = machine.transact i console := execute_eq_transact _ _ _
  have hthere : there = (machine.displaced distance).transact i console :=
    execute_eq_transact _ _ _
  rw [execute_eq_transact] at h
  rw [hhere, hthere]
  unfold transact at h ⊢
  cases hop : i.operation? with
  | none =>
    have hpolicy : (machine.displaced distance).policy = machine.policy := rfl
    simp only [hpolicy]
    cases machine.policy with
    | strict => exact ⟨rfl, rfl, rfl⟩
    | lenient =>
      exact ⟨congrArg (Except.ok ∘ Flow.goTo) (machine.nextPc_displaced distance), rfl, rfl⟩
  | some op =>
    simp only [hop, converse_displaced] at h ⊢
    rcases hc : machine.converse op i console with ⟨⟨fault⟩ | ⟨delivered⟩, after⟩
    · exact ⟨rfl, rfl, rfl⟩
    · simp only [hc, displacing, id_eq] at h ⊢
      cases he : machine.effect op i delivered with
      | error fault =>
        have hthere : (machine.displaced distance).effect op i delivered =
            .error (fault.displaced distance) := by
          by_cases hcall : op = .call
          · subst hcall
            exact machine.effect_call_displaced_of_error distance he
          · rw [machine.effect_displaced distance hcall, he]
            rfl
        simp only [hthere, and_self]
      | ok final =>
        simp only [he] at h
        obtain ⟨hcall, hret⟩ := h _ rfl
        have htop : op = .ret → machine.isAtStackTop = true := by
          rintro rfl
          have hhalt := hret rfl
          simp only [flow] at hhalt
          split at hhalt
          · assumption
          · cases hhalt
        have hcall : op ≠ .call := fun heq => hcall (congrArg some heq)
        simp only [machine.effect_displaced distance hcall, he, displacing,
          machine.flow_displaced distance htop, true_and, and_true]
        rfl

end Parts

end Machine

end WordMachine
