import WordMachine.Proofs.Execution.Outcome

namespace WordMachine

namespace Console

-- Two consoles with the same to deliver, however much of it is cut into tokens by now, and the
-- same output.
structure Alike (here there : Console) : Prop where
  remaining : there.remaining = here.remaining
  sink : there.sink = here.sink

section Requests

variable {here there : Console}

theorem alike_nextToken (h : here.Alike there) :
    there.nextToken.1 = here.nextToken.1 ∧ here.nextToken.2.Alike there.nextToken.2 := by
  obtain ⟨hfirst, hrest⟩ := here.nextToken_eq
  obtain ⟨hfirst', hrest'⟩ := there.nextToken_eq
  refine ⟨?_, ?_, ?_⟩
  · rw [hfirst, hfirst', h.remaining]
  · rw [hrest, hrest', h.remaining]
  · rw [sink_nextToken, sink_nextToken, h.sink]

theorem alike_writeLine (h : here.Alike there) (line : String) :
    (there.writeLine line).1 = (here.writeLine line).1 ∧
      (here.writeLine line).2.Alike (there.writeLine line).2 := by
  unfold writeLine
  rw [h.sink]
  exact ⟨rfl, h.remaining, rfl⟩

end Requests

end Console

-- Two executions with the same outcome, on consoles that go on alike.
structure Execution.Alike (here there : Execution) : Prop where
  result : there.result = here.result
  machine : there.machine = here.machine
  console : here.console.Alike there.console
  events : there.events = here.events

namespace Machine

section Alike

variable {here there : Console} (h : here.Alike there)
include h

theorem alike_converse (op : Operation) (i : Instruction) (machine : Machine) :
    (machine.converse op i there).1 = (machine.converse op i here).1 ∧
      (machine.converse op i here).2.Alike (machine.converse op i there).2 := by
  cases op with
  | read =>
    obtain ⟨hfirst, hrest⟩ := Console.alike_nextToken h
    rw [converse_read, converse_read, hfirst]
    exact ⟨rfl, hrest⟩
  | print =>
    rw [converse_print, converse_print]
    cases machine.readRegister i.first with
    | error fault => exact ⟨rfl, h⟩
    | ok value =>
      obtain ⟨hresult, hafter⟩ := Console.alike_writeLine h (Console.printedLine value)
      simp only [hresult]
      exact ⟨trivial, hafter⟩
  | _ => exact ⟨rfl, h⟩

theorem alike_execute (i : Instruction) (machine : Machine) :
    (machine.execute i here).Alike (machine.execute i there) := by
  rw [execute_eq_transact, execute_eq_transact]
  unfold transact
  cases hop : i.operation? with
  | none =>
    cases hp : machine.policy with
    | strict | lenient => exact ⟨rfl, rfl, h, rfl⟩
  | some op =>
    obtain ⟨hresult, hafter⟩ := alike_converse h op i machine
    rcases hc : machine.converse op i here with ⟨fault | delivered, after⟩
    all_goals
      rcases hc' : machine.converse op i there with ⟨result, after'⟩
      rw [hc, hc'] at hresult hafter
      cases hresult
      simp only [hc, hc']
    · exact ⟨rfl, rfl, hafter, rfl⟩
    · cases machine.effect op i delivered with
      | error fault => exact ⟨rfl, rfl, hafter, rfl⟩
      | ok done => exact ⟨rfl, rfl, hafter, rfl⟩

end Alike

end Machine

end WordMachine
