import WordMachine.Machine.Execution
import WordMachine.Proofs.Machine.Access

namespace WordMachine

namespace Machine

def revise (machine : Machine) (index : UInt8) (f : Int32 → Int32) : Except Fault Machine := do
  let value ← machine.readRegister index
  machine.writeRegister index (f value)

def combine (machine : Machine) (first second : UInt8) (f : Int32 → Int32 → Int32) :
    Except Fault Machine := do
  let value ← machine.readRegister first
  let other ← machine.readRegister second
  machine.writeRegister second (f value other)

-- The word that a push of a register stores. For the stack pointer it is the one after the push.
def pushed (machine : Machine) (index : UInt8) : Except Fault Int32 :=
  if index = 6 then .ok machine.pushSlot else machine.readRegister index

def push (machine : Machine) (value : Int32) : Except Fault Machine := do
  let stored ← machine.store machine.pushSlot.toInt value
  .ok (stored.setStackPointer machine.pushSlot).observeDepth

-- The part of an operation that the console takes. The result is the word that the console
-- delivers, and zero for an operation that asks for none.
def converse (op : Operation) (i : Instruction) (machine : Machine) (console : Console) :
    Except Fault Int32 × Console :=
  match op with
  | .print =>
    match machine.readRegister i.first with
    | .error fault => (.error fault, console)
    | .ok value =>
      match console.writeLine (Console.printedLine value) with
      | (.error cause, console) => (.error (.output cause), console)
      | (.ok (), console) => (.ok 0, console)
  | .read =>
    match console.readInteger with
    | (.error cause, console) => (.error (.input cause), console)
    | (.ok value, console) => (.ok value, console)
  | _ => (.ok 0, console)

theorem converse_print (i : Instruction) (machine : Machine) (console : Console) :
    machine.converse .print i console =
      match machine.readRegister i.first with
      | .error fault => (.error fault, console)
      | .ok value =>
        let told := console.writeLine (Console.printedLine value)
        ((told.1.mapError .output).map fun _ => 0, told.2) := by
  simp only [converse]
  cases machine.readRegister i.first with
  | error fault => rfl
  | ok value =>
    rcases hw : console.writeLine (Console.printedLine value) with ⟨⟨cause⟩ | ⟨⟩, after⟩
    all_goals
      simp only [hw]
      rfl

-- The part of an operation that the machine takes, once the console has delivered its word. It
-- has a new machine only if no step of the operation fails.
def effect (op : Operation) (i : Instruction) (delivered : Int32) (machine : Machine) :
    Except Fault Machine :=
  match op with
  | .subImm => machine.revise i.first (· - i.immediate)
  | .add => machine.combine i.first i.second (· + ·)
  | .addImm => machine.revise i.first (· + i.immediate)
  | .mul => machine.combine i.first i.second (· * ·)
  | .halve => machine.revise i.first fun value => (value.toUInt32 >>> 1).toInt32
  | .move => do
    let value ← machine.readRegister i.first
    machine.writeRegister i.second value
  | .load => do
    let base ← machine.readRegister i.first
    let value ← machine.load (address base i.immediate)
    machine.writeRegister i.second value
  | .store => do
    let base ← machine.readRegister i.second
    let value ← machine.readRegister i.first
    machine.store (address base i.immediate) value
  | .moveImm => machine.writeRegister i.first i.immediate
  | .compare => do
    let first ← machine.readRegister i.first
    let second ← machine.readRegister i.second
    .ok (machine.compare first second)
  | .branch condition =>
    .ok (machine.recordBranch (machine.registers.flags.holds condition))
  | .call => machine.push machine.nextPc.toInt32
  | .ret =>
    if machine.isAtStackTop then .ok machine
    else do
      let _ ← machine.peek
      .ok machine.drop
  | .push => do
    let value ← machine.pushed i.first
    machine.push value
  | .pop => do
    let value ← machine.peek
    let written ← machine.writeRegister i.first value
    .ok written.drop
  | .print => .ok machine
  | .read => machine.writeRegister i.first delivered

theorem effect_ret_of_top {machine : Machine} {i : Instruction} (delivered : Int32)
    (ht : machine.isAtStackTop = true) : machine.effect .ret i delivered = .ok machine := by
  rw [effect, if_pos ht]

-- Where an operation leads that does not fail. A return goes where the top of the stack says.
def flow (op : Operation) (i : Instruction) (machine : Machine) : Flow :=
  match op with
  | .branch condition =>
    .goTo (if machine.registers.flags.holds condition then machine.target i.immediate
      else machine.nextPc)
  | .call => .goTo (machine.target i.immediate)
  | .ret =>
    if machine.isAtStackTop then .halt
    else .goTo (machine.memory.wordAt machine.registers.stackPointer.toInt.toNat)
  | _ => .goTo machine.nextPc

-- What the log says about a completed operation.
def announce (op : Operation) (machine : Machine) (flow : Flow) : List Log.Event :=
  match op with
  | .call =>
    match flow with
    | .goTo target => [.called machine.pc target machine.nextPc]
    | .halt => []
  | .ret =>
    match flow with
    | .goTo returnTo => [.returned machine.pc returnTo]
    | .halt => [.topLevelReturn machine.pc]
  | _ => []

-- The execution of an instruction as a transaction: the console first, then the machine as a
-- whole, which stays as it was where there is a fault.
def transact (i : Instruction) (machine : Machine) (console : Console) : Execution :=
  match i.operation? with
  | none =>
    match machine.policy with
    | .strict => ⟨.error (.unknownOpcode i.opcode machine.pc), machine, console, []⟩
    | .lenient =>
      ⟨.ok (.goTo machine.nextPc), machine.retire .unknown, console,
        [.skipped i.opcode machine.pc]⟩
  | some op =>
    match machine.converse op i console with
    | (.error fault, console) => ⟨.error fault, machine, console, []⟩
    | (.ok delivered, console) =>
      match machine.effect op i delivered with
      | .error fault => ⟨.error fault, machine, console, []⟩
      | .ok after =>
        ⟨.ok (machine.flow op i), after.retire op.category, console,
          machine.announce op (machine.flow op i)⟩

-- How the execution of an instruction comes to a fault.
inductive Fails (i : Instruction) (machine : Machine) (console : Console) (fault : Fault) :
    Console → Prop where
  | unknown (hop : i.operation? = none) (hp : machine.policy = .strict)
      (hf : fault = .unknownOpcode i.opcode machine.pc) : Fails i machine console fault console
  | console (op : Operation) (after : Console) (hop : i.operation? = some op)
      (hc : machine.converse op i console = (.error fault, after)) :
      Fails i machine console fault after
  | machine (op : Operation) (delivered : Int32) (after : Console) (hop : i.operation? = some op)
      (hc : machine.converse op i console = (.ok delivered, after))
      (he : machine.effect op i delivered = .error fault) : Fails i machine console fault after

-- How the execution of an instruction comes to its end without one.
inductive Completes (i : Instruction) (machine : Machine) (console : Console) :
    Flow → Machine → Console → Prop where
  | skipped (hop : i.operation? = none) (hp : machine.policy = .lenient) :
      Completes i machine console (.goTo machine.nextPc) (machine.retire .unknown) console
  | done (op : Operation) (delivered : Int32) (after : Machine) (rest : Console)
      (hop : i.operation? = some op) (hc : machine.converse op i console = (.ok delivered, rest))
      (he : machine.effect op i delivered = .ok after) :
      Completes i machine console (machine.flow op i) (after.retire op.category) rest

-- Nothing but a return at the top of the stack halts the program.
theorem flow_eq_halt_iff {op : Operation} {i : Instruction} {machine : Machine} :
    machine.flow op i = .halt ↔ op = .ret ∧ machine.isAtStackTop = true := by
  constructor
  · intro h
    cases op with
    | ret =>
      cases ht : machine.isAtStackTop with
      | true => exact ⟨rfl, rfl⟩
      | false => simp [flow, ht] at h
    | _ => cases h
  · rintro ⟨rfl, ht⟩
    exact if_pos ht

theorem peek_eq_ok {machine : Machine} {value : Int32} (h : machine.peek = .ok value) :
    value.toUInt32 = machine.memory.wordAt machine.registers.stackPointer.toInt.toNat := by
  rw [peek, load_eq] at h
  split at h
  · rw [← Except.ok.inj h, UInt32.toUInt32_toInt32]
  · cases h

end Machine

theorem ok_bind (a : α) (f : α → Except ε β) : (Except.ok a >>= f) = f a := rfl

theorem error_bind (e : ε) (f : α → Except ε β) : (Except.error e >>= f) = .error e := rfl

end WordMachine
