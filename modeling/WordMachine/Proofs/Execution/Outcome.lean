import WordMachine.Proofs.Console.Delivery
import WordMachine.Proofs.Execution.InPlace

namespace WordMachine

-- How an operation uses the console: a read asks it for a token, and a print tells it a line
-- unless the register fails.
inductive Console.Used (before : Console) : Operation → Console → Prop where
  | unused (op : Operation) (hop : op ≠ .read) : Used before op before
  | asked : Used before .read before.nextToken.2
  | told (line : String) : Used before .print (before.writeLine line).2

namespace Machine

-- A fault is one of the console's part or one of the machine's, and leaves the machine alone.
theorem fails_of_execute {i : Instruction} {machine : Machine} {console : Console} {fault : Fault}
    (h : (machine.execute i console).result = .error fault) :
    (machine.execute i console).machine = machine ∧
      machine.Fails i console fault (machine.execute i console).console := by
  rw [execute_eq_transact] at h ⊢
  unfold transact at h ⊢
  cases hop : i.operation? with
  | none =>
    cases hp : machine.policy with
    | strict =>
      simp only [hop, hp, Except.error.injEq] at h ⊢
      exact ⟨trivial, .unknown hop hp h.symm⟩
    | lenient => simp [hop, hp] at h
  | some op =>
    simp only [hop] at h ⊢
    rcases hc : machine.converse op i console with ⟨⟨cause⟩ | ⟨delivered⟩, after⟩
    · simp only [hc, Except.error.injEq] at h
      subst h
      exact ⟨rfl, .console op after hop hc⟩
    · simp only [hc] at h ⊢
      cases he : machine.effect op i delivered with
      | error cause =>
        simp only [he, Except.error.injEq] at h
        subst h
        exact ⟨rfl, .machine op delivered after hop hc he⟩
      | ok final => simp [he] at h

theorem completes_of_execute {i : Instruction} {machine : Machine} {console : Console}
    {flow : Flow} (h : (machine.execute i console).result = .ok flow) :
    machine.Completes i console flow (machine.execute i console).machine
      (machine.execute i console).console := by
  rw [execute_eq_transact] at h ⊢
  unfold transact at h ⊢
  cases hop : i.operation? with
  | none =>
    cases hp : machine.policy with
    | strict => simp [hop, hp] at h
    | lenient =>
      simp only [hop, hp, Except.ok.injEq] at h ⊢
      subst h
      exact .skipped hop hp
  | some op =>
    simp only [hop] at h ⊢
    rcases hc : machine.converse op i console with ⟨⟨cause⟩ | ⟨delivered⟩, after⟩
    · simp [hc] at h
    · simp only [hc] at h ⊢
      cases he : machine.effect op i delivered with
      | error cause => simp [he] at h
      | ok final =>
        simp only [he, Except.ok.injEq] at h
        subst h
        exact .done op delivered final after hop hc he

section Forward

variable {i : Instruction} {machine : Machine} {console rest : Console} {op : Operation}
  {delivered : Int32}

-- Where the console delivers and the machine's part is done, the instruction completes.
theorem execute_eq_of_effect {after : Machine} (hop : i.operation? = some op)
    (hc : machine.converse op i console = (.ok delivered, rest))
    (he : machine.effect op i delivered = .ok after) :
    machine.execute i console =
      ⟨.ok (machine.flow op i), after.retire op.category, rest,
        machine.announce op (machine.flow op i)⟩ := by
  rw [execute_eq_transact]
  simp only [transact, hop, hc, he]

theorem execute_eq_of_effect_error {fault : Fault} (hop : i.operation? = some op)
    (hc : machine.converse op i console = (.ok delivered, rest))
    (he : machine.effect op i delivered = .error fault) :
    machine.execute i console = ⟨.error fault, machine, rest, []⟩ := by
  rw [execute_eq_transact]
  simp only [transact, hop, hc, he]

theorem execute_of_effect {after : Machine} (hop : i.operation? = some op)
    (hc : machine.converse op i console = (.ok delivered, rest))
    (he : machine.effect op i delivered = .ok after) :
    (machine.execute i console).result = .ok (machine.flow op i) := by
  rw [execute_eq_of_effect hop hc he]

theorem execute_of_effect_error {fault : Fault} (hop : i.operation? = some op)
    (hc : machine.converse op i console = (.ok delivered, rest))
    (he : machine.effect op i delivered = .error fault) :
    (machine.execute i console).result = .error fault := by
  rw [execute_eq_of_effect_error hop hc he]

end Forward

-- Only the console's part of an operation changes the console, whatever comes after it.
theorem console_execute (i : Instruction) (machine : Machine) (console : Console) :
    (machine.execute i console).console =
      match i.operation? with
      | none => console
      | some op => (machine.converse op i console).2 := by
  rw [execute_eq_transact]
  unfold transact
  cases i.operation? with
  | none => cases machine.policy <;> rfl
  | some op =>
    rcases hc : machine.converse op i console with ⟨⟨fault⟩ | ⟨delivered⟩, after⟩
    · simp only [hc]
    · simp only [hc]
      cases machine.effect op i delivered with
      | error fault | ok final => rfl

theorem converse_read (i : Instruction) (machine : Machine) (console : Console) :
    machine.converse .read i console =
      (console.nextToken.1.integer.mapError .input, console.nextToken.2) := by
  simp only [converse, Console.readInteger_eq]
  cases console.nextToken.1.integer <;> rfl

theorem used_converse (op : Operation) (i : Instruction) (machine : Machine) (console : Console) :
    console.Used op (machine.converse op i console).2 := by
  cases op with
  | read =>
    rw [converse_read]
    exact .asked
  | print =>
    rw [converse_print]
    cases machine.readRegister i.first with
    | error fault => exact .unused .print nofun
    | ok value => exact .told (Console.printedLine value)
  | _ => exact .unused _ nofun

end Machine

end WordMachine
