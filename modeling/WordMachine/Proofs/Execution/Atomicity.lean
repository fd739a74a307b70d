import WordMachine.Proofs.Execution.Outcome
import WordMachine.Proofs.Simulation.Running
import WordMachine.Proofs.Simulation.Step

namespace WordMachine

-- The address that a fault names as the one of its instruction.
def Fault.address? : Fault → Option UInt32
  | .unknownOpcode _ pc | .memory _ pc | .register _ pc | .outsideProgram pc _ => some pc
  | .input _ | .output _ => none

namespace Console

-- What a failed instruction may have done to the console: a read may have asked for one token,
-- and a print whose line was not taken may have changed the output.
inductive Disturbed (i : Instruction) (fault : Fault) (before : Console) : Console → Prop where
  | untouched : Disturbed i fault before before
  | asked (hop : i.operation? = some .read) (hs : before.nextToken.2.sink = before.sink) :
      Disturbed i fault before before.nextToken.2
  | refused (cause : SinkFault) (sink : Sink) (hop : i.operation? = some .print)
      (hf : fault = .output cause) : Disturbed i fault before { before with sink }

end Console

namespace Machine

-- A fault of the attempt is one of the memory or of a register, and names this address.
def Located (pc : UInt32) (attempt : Except Fault α) : Prop :=
  ∀ fault, attempt = .error fault →
    (∃ cause, fault = .memory cause pc) ∨ ∃ cause, fault = .register cause pc

theorem located_ok (pc : UInt32) (a : α) : Located pc (.ok a) := nofun

theorem located_bind {pc : UInt32} {attempt : Except Fault α} {next : α → Except Fault β}
    (ha : Located pc attempt) (hn : ∀ a, Located pc (next a)) : Located pc (attempt >>= next) := by
  intro fault hf
  cases attempt with
  | error cause =>
    rw [error_bind] at hf
    cases hf
    exact ha _ rfl
  | ok a => exact hn a fault hf

theorem located_readRegister (machine : Machine) (index : UInt8) :
    Located machine.pc (machine.readRegister index) := by
  intro fault hf
  unfold readRegister at hf
  split at hf <;> cases hf
  exact .inr ⟨_, rfl⟩

theorem located_writeRegister (machine : Machine) (index : UInt8) (value : Int32) :
    Located machine.pc (machine.writeRegister index value) := by
  intro fault hf
  unfold writeRegister at hf
  split at hf <;> cases hf
  exact .inr ⟨_, rfl⟩

theorem located_load (machine : Machine) (address : Int) :
    Located machine.pc (machine.load address) := by
  intro fault hf
  rw [load_eq] at hf
  split at hf <;> cases hf
  exact .inl ⟨_, rfl⟩

theorem located_store (machine : Machine) (address : Int) (value : Int32) :
    Located machine.pc (machine.store address value) := by
  intro fault hf
  rw [store_eq] at hf
  split at hf <;> cases hf
  exact .inl ⟨_, rfl⟩

theorem located_pushed (machine : Machine) (index : UInt8) :
    Located machine.pc (machine.pushed index) := by
  unfold pushed
  split
  · exact located_ok _ _
  · exact machine.located_readRegister _

theorem located_push (machine : Machine) (value : Int32) :
    Located machine.pc (machine.push value) :=
  located_bind (machine.located_store _ _) fun _ => located_ok _ _

theorem located_effect (op : Operation) (i : Instruction) (machine : Machine) (delivered : Int32) :
    Located machine.pc (machine.effect op i delivered) := by
  have hread := machine.located_readRegister
  have hwrite := machine.located_writeRegister
  cases op with
  | subImm | addImm | halve => exact located_bind (hread _) fun _ => hwrite _ _
  | add | mul => exact located_bind (hread _) fun _ => located_bind (hread _) fun _ => hwrite _ _
  | move => exact located_bind (hread _) fun _ => hwrite _ _
  | load =>
    exact located_bind (hread _) fun _ => located_bind (machine.located_load _) fun _ => hwrite _ _
  | store =>
    exact located_bind (hread _) fun _ => located_bind (hread _) fun _ => machine.located_store _ _
  | moveImm => exact hwrite _ _
  | compare => exact located_bind (hread _) fun _ => located_bind (hread _) fun _ => located_ok _ _
  | branch condition => exact located_ok _ _
  | call => exact machine.located_push _
  | ret =>
    simp only [effect]
    split
    · exact located_ok _ _
    · exact located_bind (machine.located_load _) fun _ => located_ok _ _
  | push => exact located_bind (machine.located_pushed _) fun _ => machine.located_push _
  | pop =>
    exact located_bind (machine.located_load _) fun _ =>
      located_bind (hwrite _ _) fun _ => located_ok _ _
  | print => exact located_ok _ _
  | read => exact hwrite _ _

-- All that an instruction can fail with, and the console that it leaves.
inductive Faulted (i : Instruction) (machine : Machine) (console : Console) :
    Fault → Console → Prop where
  | unknown (hop : i.operation? = none) :
      Faulted i machine console (.unknownOpcode i.opcode machine.pc) console
  | memory (cause : MemoryFault) (hop : i.operation? ≠ some .read) :
      Faulted i machine console (.memory cause machine.pc) console
  | register (cause : RegisterFault) (hop : i.operation? ≠ some .read) :
      Faulted i machine console (.register cause machine.pc) console
  | unread (cause : InputFault) (hop : i.operation? = some .read)
      (hi : console.nextToken.1.integer = .error cause) :
      Faulted i machine console (.input cause) console.nextToken.2
  | refused (cause : RegisterFault) (hop : i.operation? = some .read) :
      Faulted i machine console (.register cause machine.pc) console.nextToken.2
  | unwritten (cause : SinkFault) (sink : Sink) (hop : i.operation? = some .print) :
      Faulted i machine console (.output cause) { console with sink }

section Faulted

variable {i : Instruction} {machine : Machine} {console after : Console} {fault : Fault}

theorem faulted_of_located (hop : i.operation? ≠ some .read)
    (h : (∃ cause, fault = .memory cause machine.pc) ∨ ∃ cause, fault = .register cause machine.pc) :
    machine.Faulted i console fault console := by
  rcases h with ⟨cause, rfl⟩ | ⟨cause, rfl⟩
  · exact .memory cause hop
  · exact .register cause hop

theorem faulted_of_converse {op : Operation} (hop : i.operation? = some op)
    (hc : machine.converse op i console = (.error fault, after)) :
    machine.Faulted i console fault after := by
  cases op with
  | read =>
    rw [converse_read] at hc
    cases hi : console.nextToken.1.integer with
    | error cause =>
      rw [hi] at hc
      cases hc
      exact .unread cause hop hi
    | ok value =>
      rw [hi] at hc
      cases hc
  | print =>
    have hne : i.operation? ≠ some .read := by simp [hop]
    rw [converse_print] at hc
    cases hv : machine.readRegister i.first with
    | error cause =>
      rw [hv] at hc
      cases hc
      exact faulted_of_located hne (machine.located_readRegister i.first _ hv)
    | ok value =>
      rcases hw : console.sink.writeLine (Console.printedLine value) with ⟨⟨cause⟩ | ⟨⟩, sink⟩
      all_goals
        simp only [hv, Console.writeLine, hw] at hc
        cases hc
      exact .unwritten cause sink hop
  | _ => cases hc

-- The machine's part comes last, and a print has none that could fail.
theorem faulted_of_effect {op : Operation} {delivered : Int32} (hop : i.operation? = some op)
    (hc : machine.converse op i console = (.ok delivered, after))
    (he : machine.effect op i delivered = .error fault) : machine.Faulted i console fault after := by
  have hused := machine.used_converse op i console
  rw [hc] at hused
  cases hused with
  | unused _ hread =>
    have hne : i.operation? ≠ some .read := by simpa [hop] using hread
    exact faulted_of_located hne (machine.located_effect op i delivered fault he)
  | told line => cases he
  | asked =>
    simp only [effect, writeRegister] at he
    split at he <;> cases he
    exact .refused _ hop

theorem faulted_of_fails (h : machine.Fails i console fault after) :
    machine.Faulted i console fault after := by
  cases h with
  | unknown hop hp hf =>
    subst hf
    exact .unknown hop
  | console op after hop hc => exact faulted_of_converse hop hc
  | machine op delivered after hop hc he => exact faulted_of_effect hop hc he

theorem address_of_faulted (h : machine.Faulted i console fault after) (address : UInt32)
    (ha : fault.address? = some address) : address = machine.pc := by
  cases h with
  | unknown | memory | register | refused => exact (Option.some.inj ha).symm
  | unread | unwritten => cases ha

theorem disturbed_of_faulted (h : machine.Faulted i console fault after) :
    console.Disturbed i fault after := by
  cases h with
  | unknown | memory | register => exact .untouched
  | unread cause hop | refused cause hop => exact .asked hop console.sink_nextToken
  | unwritten cause sink hop => exact .refused cause sink hop rfl

end Faulted

end Machine

namespace Simulator

-- A step fails because there is no instruction at the program counter, or because the instruction
-- there fails.
theorem step_of_error {simulator : Simulator} {fault : Fault}
    (h : simulator.step.result = .error fault) :
    (∃ console, simulator.step.simulator = { simulator with console }) ∧
      ∀ address, fault.address? = some address → address = simulator.machine.pc := by
  have hsteps := simulator.steps_step
  generalize simulator.step.simulator = after at hsteps ⊢
  rw [h] at hsteps
  cases hsteps with
  | lost he hf =>
    exact ⟨⟨simulator.console, rfl⟩, fun address ha => (Option.some.inj ha).symm⟩
  | faulted i _ he hf hx =>
    obtain ⟨hmachine, hfails⟩ := Machine.fails_of_execute hx
    refine ⟨⟨(simulator.machine.execute i simulator.console).console, ?_⟩,
      Machine.address_of_faulted (Machine.faulted_of_fails hfails)⟩
    simp only [execute, hmachine]

-- A fault leaves everything as it was, but for what the console has taken or given: after an
-- instruction, after a step, and after a run, which is left where its last good step led.
theorem faults_are_atomic :
    (∀ (i : Instruction) (machine : Machine) (console : Console) (fault : Fault),
      (machine.execute i console).result = .error fault →
        (machine.execute i console).machine = machine ∧
          console.Disturbed i fault (machine.execute i console).console) ∧
    (∀ (simulator : Simulator) (fault : Fault), simulator.step.result = .error fault →
      (∃ console, simulator.step.simulator = { simulator with console }) ∧
        ∀ address, fault.address? = some address → address = simulator.machine.pc) ∧
    (∀ (simulator : Simulator) (fuel : Nat) (outcome : Outcome Status) (fault : Fault),
      simulator.run? fuel = some outcome → outcome.result = .error fault →
        ∃ count, (∀ earlier < count, (simulator.after earlier).step.result = .ok none) ∧
          (simulator.after count).step.result = .error fault ∧
          (∃ console, outcome.simulator = { simulator.after count with console }) ∧
          ∀ address, fault.address? = some address → address = outcome.simulator.machine.pc) := by
  refine ⟨?_, fun simulator fault => step_of_error, ?_⟩
  · intro i machine console fault h
    obtain ⟨hmachine, hfails⟩ := Machine.fails_of_execute h
    exact ⟨hmachine, Machine.disturbed_of_faulted (Machine.faulted_of_fails hfails)⟩
  · intro simulator fuel outcome fault hrun hfault
    obtain ⟨count, hgoes, hends⟩ := ends_of_run? hrun
    cases hends with
    | interrupted status hi hr hs => simp [hr] at hfault
    | stopped status hi hl hr hs => simp [hr] at hfault
    | failed cause hi hl hr hs =>
      rw [hr] at hfault
      cases hfault
      obtain ⟨⟨console, hafter⟩, haddress⟩ := step_of_error hl
      have hs' : outcome.simulator = { simulator.after count with console } := hs.trans hafter
      refine ⟨count, fun earlier he => (hgoes earlier he).2, hl, ⟨console, hs'⟩, ?_⟩
      intro address ha
      rw [hs']
      exact haddress address ha

-- A token is read before the flags refuse it as a register.
theorem read_into_flags_is_atomic :
    let machine := Machine.reset 8 .strict
    let execution := machine.execute (.assemble .read 16 0 0) ⟨["5"], [], .unlimited⟩
    execution.result = .error (.register (.readOnly 16) 0) ∧ execution.machine = machine := by
  intro machine execution
  have hx : execution.result = .error (.register (.readOnly 16) 0) := rfl
  obtain ⟨hexecute, -, -⟩ := faults_are_atomic
  exact ⟨hx, (hexecute _ _ _ _ hx).1⟩

end Simulator

end WordMachine
