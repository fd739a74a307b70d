import WordMachine.Proofs.Execution.Transaction

namespace WordMachine

-- An operation as a transaction: the console first, then the machine as a whole.
def Processor.transact (op : Operation) (i : Instruction) (processor : Processor) :
    EStateM.Result Fault Processor Flow :=
  match processor.machine.converse op i processor.console with
  | (.error fault, console) => .error fault { processor with console }
  | (.ok delivered, console) =>
    match processor.machine.effect op i delivered with
    | .error fault => .error fault { processor with console }
    | .ok machine =>
      let flow := processor.machine.flow op i
      .ok flow ⟨machine, console, processor.events ++ processor.machine.announce op flow⟩

namespace Action

theorem run_pure (a : α) (processor : Processor) :
    (pure a : Action α).run processor = .ok a processor := rfl

theorem run_view_bind (question : Machine → α) (next : α → Action β) (processor : Processor) :
    (view question >>= next).run processor =
      (next (question processor.machine)).run processor := by
  rw [EStateM.run_bind]
  rfl

theorem run_ask_bind (question : Machine → Except Fault α) (next : α → Action β)
    (processor : Processor) :
    (ask question >>= next).run processor =
      match question processor.machine with
      | .ok answer => (next answer).run processor
      | .error fault => .error fault processor := by
  rw [EStateM.run_bind]
  simp only [EStateM.run, ask]
  cases question processor.machine with
  | error fault => rfl
  | ok answer => rfl

theorem run_change_bind (next : Machine → Except Fault Machine) (rest : Unit → Action β)
    (processor : Processor) :
    (change next >>= rest).run processor =
      match next processor.machine with
      | .ok machine => (rest ()).run { processor with machine }
      | .error fault => .error fault processor := by
  rw [EStateM.run_bind]
  simp only [EStateM.run, change]
  cases next processor.machine with
  | error fault => rfl
  | ok machine => rfl

theorem run_adjust (next : Machine → Machine) (processor : Processor) :
    (adjust next).run processor =
      .ok () { processor with machine := next processor.machine } := rfl

theorem run_adjust_bind (next : Machine → Machine) (rest : Unit → Action β)
    (processor : Processor) :
    (adjust next >>= rest).run processor =
      (rest ()).run { processor with machine := next processor.machine } := by
  rw [EStateM.run_bind]
  rfl

theorem run_report_bind (event : Log.Event) (rest : Unit → Action β) (processor : Processor) :
    (report event >>= rest).run processor =
      (rest ()).run { processor with events := processor.events ++ [event] } := by
  rw [EStateM.run_bind]
  rfl

theorem run_writeLine_bind (line : String) (rest : Unit → Action β) (processor : Processor) :
    (writeLine line >>= rest).run processor =
      match processor.console.writeLine line with
      | (.ok (), console) => (rest ()).run { processor with console }
      | (.error cause, console) => .error (.output cause) { processor with console } := by
  rw [EStateM.run_bind]
  simp only [EStateM.run, writeLine]
  rcases processor.console.writeLine line with ⟨⟨cause⟩ | ⟨⟩, console⟩
  · rfl
  · rfl

theorem run_readInteger_bind (rest : Int32 → Action β) (processor : Processor) :
    (readInteger >>= rest).run processor =
      match processor.console.readInteger with
      | (.ok value, console) => (rest value).run { processor with console }
      | (.error cause, console) => .error (.input cause) { processor with console } := by
  rw [EStateM.run_bind]
  simp only [EStateM.run, readInteger]
  rcases processor.console.readInteger with ⟨⟨cause⟩ | ⟨value⟩, console⟩
  · rfl
  · rfl

-- Questions before a single change, and adjustments after it, make one change.
theorem revise_eq_change (index : UInt8) (f : Int32 → Int32) :
    revise index f = change (·.revise index f) := by
  funext processor
  change (revise index f).run processor = _
  simp only [revise, readRegister, run_ask_bind, change, Machine.revise]
  cases processor.machine.readRegister index with
  | error fault => rfl
  | ok value => rfl

theorem combine_eq_change (first second : UInt8) (f : Int32 → Int32 → Int32) :
    combine first second f = change (·.combine first second f) := by
  funext processor
  change (combine first second f).run processor = _
  simp only [combine, readRegister, run_ask_bind, change, Machine.combine]
  cases processor.machine.readRegister first with
  | error fault => rfl
  | ok value =>
    cases processor.machine.readRegister second with
    | error fault => rfl
    | ok other => rfl

theorem push_eq_change (value : Int32) : push value = change (·.push value) := by
  funext processor
  change (push value).run processor = _
  simp only [push, store, run_view_bind, run_change_bind, run_adjust_bind, change, Machine.push]
  cases processor.machine.store processor.machine.pushSlot.toInt value with
  | error fault => rfl
  | ok stored => simp only [ok_bind]; rfl

variable (i : Instruction) (machine : Machine) (console : Console) (events : List Log.Event)

theorem run_perform_load :
    (perform .load i).run ⟨machine, console, events⟩ =
      Processor.transact .load i ⟨machine, console, events⟩ := by
  simp only [perform, readRegister, writeRegister, load, run_view_bind, run_ask_bind,
    run_change_bind, Processor.transact, Machine.converse, Machine.effect]
  cases machine.readRegister i.first with
  | error fault => simp only [error_bind]
  | ok base =>
    simp only [ok_bind]
    cases machine.load (Machine.address base i.immediate) with
    | error fault => simp only [error_bind]
    | ok value =>
      simp only [ok_bind]
      cases machine.writeRegister i.second value with
      | error fault => rfl
      | ok after => simp only [run_pure, id_eq, Machine.flow, Machine.announce, List.append_nil]

theorem run_perform_store :
    (perform .store i).run ⟨machine, console, events⟩ =
      Processor.transact .store i ⟨machine, console, events⟩ := by
  simp only [perform, readRegister, store, run_view_bind, run_ask_bind, run_change_bind,
    Processor.transact, Machine.converse, Machine.effect]
  cases machine.readRegister i.second with
  | error fault => simp only [error_bind]
  | ok base =>
    simp only [ok_bind]
    cases machine.readRegister i.first with
    | error fault => simp only [error_bind]
    | ok value =>
      simp only [ok_bind]
      cases machine.store (Machine.address base i.immediate) value with
      | error fault => rfl
      | ok after => simp only [run_pure, id_eq, Machine.flow, Machine.announce, List.append_nil]

theorem run_perform_compare :
    (perform .compare i).run ⟨machine, console, events⟩ =
      Processor.transact .compare i ⟨machine, console, events⟩ := by
  simp only [perform, readRegister, run_view_bind, run_ask_bind, run_adjust_bind,
    Processor.transact, Machine.converse, Machine.effect]
  cases machine.readRegister i.first with
  | error fault => simp only [error_bind]
  | ok first =>
    simp only [ok_bind]
    cases machine.readRegister i.second with
    | error fault => simp only [error_bind]
    | ok second =>
      simp only [ok_bind, run_pure, id_eq, Machine.flow, Machine.announce, List.append_nil]

theorem run_perform_ret :
    (perform .ret i).run ⟨machine, console, events⟩ =
      Processor.transact .ret i ⟨machine, console, events⟩ := by
  simp only [perform, peek, drop, run_view_bind, Processor.transact, Machine.converse,
    Machine.effect, id_eq]
  by_cases htop : machine.isAtStackTop = true
  · simp only [htop, ite_true, run_report_bind]
    simp [htop, Machine.flow, Machine.announce]
  · simp only [htop, Bool.false_eq_true, ite_false, run_ask_bind, run_adjust_bind,
      run_report_bind]
    cases hpeek : machine.peek with
    | error fault => simp only [error_bind]
    | ok returnTo =>
      have hreturn := Machine.peek_eq_ok hpeek
      simp [ok_bind, htop, hreturn, Machine.flow, Machine.announce]

theorem run_perform_push :
    (perform .push i).run ⟨machine, console, events⟩ =
      Processor.transact .push i ⟨machine, console, events⟩ := by
  simp only [perform, readRegister, push_eq_change, run_view_bind, Processor.transact,
    Machine.converse, Machine.effect, Machine.pushed, id_eq]
  by_cases hsp : i.first = 6
  · simp only [hsp, ite_true, run_view_bind, run_change_bind, ok_bind]
    cases machine.push machine.pushSlot with
    | error fault => rfl
    | ok after => simp only [run_pure, Machine.flow, Machine.announce, List.append_nil]
  · simp only [hsp, ite_false, run_ask_bind, run_change_bind]
    cases machine.readRegister i.first with
    | error fault => simp only [error_bind]
    | ok value =>
      simp only [ok_bind]
      cases machine.push value with
      | error fault => rfl
      | ok after => simp only [run_pure, Machine.flow, Machine.announce, List.append_nil]

theorem run_perform_pop :
    (perform .pop i).run ⟨machine, console, events⟩ =
      Processor.transact .pop i ⟨machine, console, events⟩ := by
  simp only [perform, peek, drop, writeRegister, run_view_bind, run_ask_bind, run_change_bind,
    run_adjust_bind, Processor.transact, Machine.converse, Machine.effect]
  cases machine.peek with
  | error fault => simp only [error_bind]
  | ok value =>
    simp only [ok_bind]
    cases machine.writeRegister i.first value with
    | error fault => simp only [error_bind]
    | ok written =>
      simp only [ok_bind, run_pure, id_eq, Machine.flow, Machine.announce, List.append_nil]

theorem run_perform_print :
    (perform .print i).run ⟨machine, console, events⟩ =
      Processor.transact .print i ⟨machine, console, events⟩ := by
  simp only [perform, readRegister, run_view_bind, run_ask_bind, run_writeLine_bind,
    Processor.transact, Machine.converse, Machine.effect]
  cases machine.readRegister i.first with
  | error fault => rfl
  | ok value =>
    rcases hline : console.writeLine (Console.printedLine value) with ⟨⟨cause⟩ | ⟨⟩, after⟩
    · simp [hline]
    · simp [hline, Machine.flow, Machine.announce]

theorem run_perform_read :
    (perform .read i).run ⟨machine, console, events⟩ =
      Processor.transact .read i ⟨machine, console, events⟩ := by
  simp only [perform, writeRegister, run_view_bind, run_readInteger_bind, run_change_bind,
    Processor.transact, Machine.converse, Machine.effect]
  rcases hread : console.readInteger with ⟨⟨cause⟩ | ⟨value⟩, after⟩
  · simp
  · simp only
    cases machine.writeRegister i.first value with
    | error fault => rfl
    | ok written => simp only [run_pure, id_eq, Machine.flow, Machine.announce, List.append_nil]

-- No step of an operation is left done when a later one fails: what is done in place can be done
-- as a whole, after the console.
theorem run_perform (op : Operation) (i : Instruction) (processor : Processor) :
    (perform op i).run processor = processor.transact op i := by
  obtain ⟨machine, console, events⟩ := processor
  cases op with
  | subImm | addImm | halve =>
    simp only [perform, revise_eq_change, run_view_bind, run_change_bind, Processor.transact,
      Machine.converse, Machine.effect]
    cases machine.revise i.first _ with
    | error fault => rfl
    | ok after => simp only [run_pure, id_eq, Machine.flow, Machine.announce, List.append_nil]
  | add | mul =>
    simp only [perform, combine_eq_change, run_view_bind, run_change_bind, Processor.transact,
      Machine.converse, Machine.effect]
    cases machine.combine i.first i.second _ with
    | error fault => rfl
    | ok after => simp only [run_pure, id_eq, Machine.flow, Machine.announce, List.append_nil]
  | move =>
    simp only [perform, readRegister, writeRegister, run_view_bind, run_ask_bind, run_change_bind,
      Processor.transact, Machine.converse, Machine.effect]
    cases machine.readRegister i.first with
    | error fault => simp only [error_bind]
    | ok value =>
      simp only [ok_bind]
      cases machine.writeRegister i.second value with
      | error fault => rfl
      | ok after => simp only [run_pure, id_eq, Machine.flow, Machine.announce, List.append_nil]
  | load => exact run_perform_load i machine console events
  | store => exact run_perform_store i machine console events
  | moveImm =>
    simp only [perform, writeRegister, run_view_bind, run_change_bind, Processor.transact,
      Machine.converse, Machine.effect]
    cases machine.writeRegister i.first i.immediate with
    | error fault => rfl
    | ok after => simp only [run_pure, id_eq, Machine.flow, Machine.announce, List.append_nil]
  | compare => exact run_perform_compare i machine console events
  | branch condition =>
    simp only [perform, branch, run_view_bind, run_adjust_bind, Processor.transact,
      Machine.converse, Machine.effect]
    simp only [run_pure, id_eq, Machine.flow, Machine.announce, List.append_nil]
  | call =>
    simp only [perform, push_eq_change, run_view_bind, run_change_bind, run_report_bind,
      Processor.transact, Machine.converse, Machine.effect, id_eq]
    cases machine.push machine.nextPc.toInt32 with
    | error fault => rfl
    | ok after => simp only [run_pure, Machine.flow, Machine.announce]
  | ret => exact run_perform_ret i machine console events
  | push => exact run_perform_push i machine console events
  | pop => exact run_perform_pop i machine console events
  | print => exact run_perform_print i machine console events
  | read => exact run_perform_read i machine console events

end Action

-- Whether an instruction faults or completes, its execution in place is the transaction.
theorem Machine.execute_eq_transact (i : Instruction) (machine : Machine) (console : Console) :
    machine.execute i console = machine.transact i console := by
  simp only [Machine.execute, Action.execute, Action.run_view_bind, id_eq, Machine.transact]
  cases hop : i.operation? with
  | none =>
    cases hpolicy : machine.policy with
    | strict => rfl
    | lenient =>
      simp only [Action.run_report_bind, Action.run_adjust_bind]
      simp
  | some op =>
    simp only [EStateM.run_bind, Action.run_perform, Processor.transact]
    rcases machine.converse op i console with ⟨⟨fault⟩ | ⟨delivered⟩, after⟩
    · rfl
    · simp only
      cases machine.effect op i delivered with
      | error fault => rfl
      | ok final => simp [Action.run_adjust]

end WordMachine
