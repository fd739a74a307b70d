import WordMachine.Proofs.Execution.Atomicity

namespace WordMachine

-- Nothing of the text that a sink has taken is lost.
def Sink.Extends (before after : Sink) : Prop :=
  ∃ more, after.text = before.text ++ more

namespace Sink

theorem extends_refl (sink : Sink) : sink.Extends sink :=
  ⟨"", String.append_empty.symm⟩

theorem extends_trans {first second third : Sink} (h : first.Extends second)
    (h' : second.Extends third) : first.Extends third := by
  obtain ⟨more, hm⟩ := h
  obtain ⟨rest, hr⟩ := h'
  exact ⟨more ++ rest, by rw [hr, hm, String.append_assoc]⟩

theorem extends_put (sink : Sink) (piece : String) : sink.Extends (sink.put piece).2 := by
  unfold put
  split
  · exact ⟨_, rfl⟩
  · exact ⟨piece, rfl⟩

theorem extends_writeLine (sink : Sink) (line : String) :
    sink.Extends (sink.writeLine line).2 := by
  unfold writeLine
  have hline := sink.extends_put line
  rcases hp : sink.put line with ⟨⟨fault⟩ | ⟨⟩, held⟩
  · rw [hp] at hline
    exact hline
  · rw [hp] at hline
    have hend := held.extends_put "\n"
    rcases hq : held.put "\n" with ⟨⟨fault⟩ | ⟨⟩, after⟩
    all_goals
      simp only [hq]
      rw [hq] at hend
      exact extends_trans hline hend

-- A sink without a limit takes every piece.
theorem put_of_no_limit {sink : Sink} (h : sink.lineLimit = none) (piece : String) :
    ∃ lineEnds, sink.put piece = (.ok (), { sink with text := sink.text ++ piece, lineEnds }) := by
  have hfull : sink.isFull = false := by rw [isFull, h]
  exact ⟨_, by rw [put, hfull, if_neg (by decide)]⟩

theorem writeLine_of_no_limit {sink : Sink} (h : sink.lineLimit = none)
    (hr : sink.refusesFlush = false) (line : String) :
    ∃ lineEnds, sink.writeLine line =
      (.ok (), { sink with text := sink.text ++ line ++ "\n", lineEnds }) := by
  obtain ⟨lineEnds, hline⟩ := put_of_no_limit h line
  let held : Sink := { sink with text := sink.text ++ line, lineEnds }
  have hheld : held.lineLimit = none := h
  obtain ⟨lineEnds, hend⟩ := put_of_no_limit hheld "\n"
  refine ⟨lineEnds, ?_⟩
  simp only [writeLine, hline]
  rw [hend]
  simp only [flush, held, hr, Bool.false_eq_true, ite_false]

end Sink

namespace Machine

theorem extends_converse (op : Operation) (i : Instruction) (machine : Machine)
    (console : Console) : console.sink.Extends (machine.converse op i console).2.sink := by
  have hused := machine.used_converse op i console
  generalize (machine.converse op i console).2 = after at hused ⊢
  cases hused with
  | unused op hop => exact console.sink.extends_refl
  | asked =>
    rw [console.sink_nextToken]
    exact console.sink.extends_refl
  | told line => exact console.sink.extends_writeLine line

theorem converse_print_of_no_limit {i : Instruction} {machine : Machine} {console : Console}
    {value : Int32} (h : machine.readRegister i.first = .ok value)
    (hl : console.sink.lineLimit = none) (hr : console.sink.refusesFlush = false) :
    ∃ rest, machine.converse .print i console = (.ok 0, rest) ∧
      rest.sink.text = console.sink.text ++ Console.printedLine value ++ "\n" := by
  obtain ⟨lineEnds, hwrite⟩ := Sink.writeLine_of_no_limit hl hr (Console.printedLine value)
  rw [converse_print, h]
  simp only [Console.writeLine, hwrite]
  exact ⟨_, rfl, rfl⟩

theorem extends_execute (i : Instruction) (machine : Machine) (console : Console) :
    console.sink.Extends (machine.execute i console).console.sink := by
  rw [console_execute]
  cases i.operation? with
  | none => exact console.sink.extends_refl
  | some op => exact machine.extends_converse op i console

end Machine

namespace Simulator

theorem extends_step (simulator : Simulator) :
    simulator.console.sink.Extends simulator.step.simulator.console.sink := by
  have hsteps := simulator.steps_step
  generalize simulator.step.simulator = after at hsteps ⊢
  generalize simulator.step.result = result at hsteps
  cases hsteps with
  | ended | lost => exact simulator.console.sink.extends_refl
  | faulted i | halted i | moved i => exact simulator.machine.extends_execute i simulator.console

-- The output of a course only grows.
theorem extends_after (simulator : Simulator) (count : Nat) :
    simulator.console.sink.Extends (simulator.after count).console.sink := by
  induction count with
  | zero => exact simulator.console.sink.extends_refl
  | succ count ih => exact Sink.extends_trans ih (extends_step _)

end Simulator

end WordMachine
