import WordMachine.Proofs.Execution.Alike
import WordMachine.Proofs.Simulation.Running
import WordMachine.Proofs.Simulation.Step

namespace WordMachine.Simulator

-- Two simulators that nothing tells apart but how much of the input is cut into tokens by now.
structure Alike (here there : Simulator) : Prop where
  console : here.console.Alike there.console
  others : there = { here with console := there.console }

-- Two outcomes that nothing tells apart.
structure Outcome.Alike {α : Type} (here there : Outcome α) : Prop where
  result : there.result = here.result
  simulator : here.simulator.Alike there.simulator
  events : there.events = here.events

section Lockstep

variable {here there : Simulator}

theorem alike_of_console {simulator : Simulator} {console : Console}
    (h : simulator.console.Alike console) : simulator.Alike { simulator with console } :=
  ⟨h, rfl⟩

theorem interruption?_alike (h : here.Alike there) :
    there.interruption? = here.interruption? := by
  rw [h.others]
  rfl

theorem alike_execute (h : here.Alike there) (i : Instruction) :
    (here.execute i).Alike (there.execute i) := by
  obtain ⟨hresult, hmachine, hconsole, hevents⟩ := Machine.alike_execute h.console i here.machine
  rw [h.others]
  refine ⟨hresult, ⟨hconsole, ?_⟩, hevents⟩
  simp only [execute, hmachine]

theorem alike_goTo (h : here.Alike there) (pc : UInt32) :
    (here.goTo pc).Alike (there.goTo pc) := by
  rw [h.others]
  exact alike_of_console h.console

theorem isAtEnd_alike (h : here.Alike there) : there.isAtEnd = here.isAtEnd := by
  rw [h.others]
  rfl

theorem fetch_alike (h : here.Alike there) : there.fetch = here.fetch := by
  rw [h.others]
  rfl

theorem alike_step (h : here.Alike there) : here.step.Alike there.step := by
  have htraced : there.traced = here.traced := by rw [h.others]
  have hmachine : there.machine = here.machine := by rw [h.others]
  unfold step
  rw [isAtEnd_alike h, fetch_alike h, htraced, hmachine]
  cases here.isAtEnd with
  | true => exact ⟨rfl, h, rfl⟩
  | false =>
    cases here.fetch with
    | error fault => exact ⟨rfl, h, rfl⟩
    | ok i =>
      obtain ⟨hresult, hsimulator, hevents⟩ := alike_execute h i
      simp only [hresult, hevents, Bool.false_eq_true, ite_false]
      cases (here.execute i).result with
      | error fault => exact ⟨rfl, hsimulator, rfl⟩
      | ok flow =>
        cases flow with
        | halt => exact ⟨rfl, hsimulator, rfl⟩
        | goTo pc =>
          have hmoved := alike_goTo hsimulator pc
          simp only [isAtEnd_alike hmoved]
          exact ⟨rfl, hmoved, rfl⟩

theorem alike_after (h : here.Alike there) (count : Nat) :
    (here.after count).Alike (there.after count) := by
  induction count with
  | zero => exact h
  | succ count ih => exact (alike_step ih).simulator

theorem log_alike (h : here.Alike there) (count : Nat) : there.log count = here.log count := by
  induction count with
  | zero => rfl
  | succ count ih => rw [log, log, ih, (alike_step (alike_after h count)).events]

theorem alike_run? (h : here.Alike there) (fuel : Nat) :
    Option.Rel Outcome.Alike (here.run? fuel) (there.run? fuel) := by
  apply run?_lockstep id (fun count => (here.after count).Alike (there.after count)) h
  · intro count hcount
    exact interruption?_alike hcount
  · intro count _ _ _ hcount
    have hstep := alike_step hcount
    rw [mapError_id]
    exact ⟨hstep.result, hstep.simulator⟩
  · intro count result hcount
    have hmachine : (there.after count).machine = (here.after count).machine := by
      rw [hcount.others]
    rw [mapError_id]
    refine ⟨rfl, hcount, ?_⟩
    simp only [conclude, log_alike h, hmachine]

end Lockstep

-- The next step executes a read.
def isReading (simulator : Simulator) : Bool :=
  match simulator.fetch with
  | .ok i => i.operation? = some .read
  | .error _ => false

-- How many of the first steps execute a read.
def reads (simulator : Simulator) (count : Nat) : Nat :=
  (List.range count).countP fun earlier => (simulator.after earlier).isReading

theorem reads_succ (simulator : Simulator) (count : Nat) :
    simulator.reads (count + 1) =
      simulator.reads count + if (simulator.after count).isReading then 1 else 0 := by
  rw [reads, List.range_succ, List.countP_append, List.countP_singleton]
  rfl

theorem isReading_of_fetch {simulator : Simulator} {i : Instruction} (h : simulator.fetch = .ok i) :
    simulator.isReading = decide (i.operation? = some .read) := by
  rw [isReading, h]

theorem isReading_eq_false {simulator : Simulator} (h : ∀ i, simulator.fetch ≠ .ok i) :
    simulator.isReading = false := by
  unfold isReading
  cases hf : simulator.fetch with
  | error fault => rfl
  | ok i => exact absurd hf (h i)

theorem remaining_execute (simulator : Simulator) (i : Instruction) :
    (simulator.execute i).simulator.console.remaining =
      if i.operation? = some .read then simulator.console.remaining.tail
      else simulator.console.remaining := by
  have hconsole := simulator.machine.console_execute i simulator.console
  change (simulator.machine.execute i simulator.console).console.remaining = _
  rw [hconsole]
  cases hop : i.operation? with
  | none => rfl
  | some op =>
    have hused := simulator.machine.used_converse op i simulator.console
    simp only [Option.some.injEq]
    generalize (simulator.machine.converse op i simulator.console).2 = after at hused ⊢
    cases hused with
    | unused _ hread => rw [if_neg hread]
    | asked => rw [if_pos rfl, simulator.console.nextToken_eq.2]
    | told line => rfl

-- A step takes one delivery if it executes a read, and none otherwise.
theorem remaining_step (simulator : Simulator) :
    simulator.step.simulator.console.remaining =
      if simulator.isReading then simulator.console.remaining.tail
      else simulator.console.remaining := by
  have hsteps := simulator.steps_step
  generalize simulator.step.simulator = after at hsteps ⊢
  generalize simulator.step.result = result at hsteps
  cases hsteps with
  | ended he =>
    have hnone : ∀ i, simulator.fetch ≠ .ok i := by
      intro i hf
      rw [isAtEnd_of_fetch hf] at he
      cases he
    rw [isReading_eq_false hnone]
    rfl
  | lost he hf =>
    have hnone : ∀ i, simulator.fetch ≠ .ok i := by
      intro i hi
      cases hf.symm.trans hi
    rw [isReading_eq_false hnone]
    rfl
  | faulted i fault he hf hx | halted i he hf hx | moved i pc he hf hx =>
    simp only [isReading_of_fetch hf, decide_eq_true_eq]
    exact simulator.remaining_execute i

theorem remaining_after (simulator : Simulator) (count : Nat) :
    (simulator.after count).console.remaining =
      simulator.console.remaining.drop (simulator.reads count) := by
  induction count with
  | zero => rfl
  | succ count ih =>
    rw [after, remaining_step, ih, reads_succ]
    cases (simulator.after count).isReading with
    | true => rw [if_pos rfl, if_pos rfl, List.tail_drop]
    | false => rfl

-- The next step takes a delivery for the integer of its read, and the register gets it.
def Receives (simulator : Simulator) (i : Instruction) (delivery : Console.Delivery) : Prop :=
  simulator.console.nextToken.1 = delivery ∧
  match delivery.integer with
  | .error cause => simulator.step.result = .error (.input cause)
  | .ok value =>
    match simulator.machine.writeRegister i.first value with
    | .error fault => simulator.step.result = .error fault
    | .ok written =>
      (∃ status?, simulator.step.result = .ok status?) ∧
        simulator.step.simulator.machine.registers = written.registers

theorem receives_of_fetch {simulator : Simulator} {i : Instruction} (hf : simulator.fetch = .ok i)
    (hop : i.operation? = some .read) : simulator.Receives i simulator.console.nextToken.1 := by
  refine ⟨rfl, ?_⟩
  have hconverse := simulator.machine.converse_read i simulator.console
  rw [step, isAtEnd_of_fetch hf, if_neg (by decide), hf]
  simp only [execute, Machine.execute_eq_transact, Machine.transact, hop, hconverse]
  cases simulator.console.nextToken.1.integer with
  | error cause => rfl
  | ok value =>
    have hvalue : (Except.ok value : Except InputFault Int32).mapError Fault.input = .ok value :=
      rfl
    simp only [hvalue, Machine.effect]
    cases simulator.machine.writeRegister i.first value with
    | error fault => rfl
    | ok written => exact ⟨⟨_, rfl⟩, rfl⟩

theorem receives_after {simulator : Simulator} {count : Nat} {i : Instruction}
    (hf : (simulator.after count).fetch = .ok i) (hop : i.operation? = some .read) :
    (simulator.after count).Receives i
      (simulator.console.remaining[simulator.reads count]?.getD .endOfInput) := by
  have hreceives := receives_of_fetch hf hop
  rw [(simulator.after count).console.nextToken_eq.1, remaining_after, List.headD_eq_head?_getD,
    List.head?_drop] at hreceives
  exact hreceives

theorem alike_ofInput {input input' : List UInt8} {text text' : List Char} (sink : Sink)
    (h : Text.Utf8.decode? input = some text) (h' : Text.Utf8.decode? input' = some text')
    (htokens : Text.tokens text = Text.tokens text') :
    (Console.ofInput input sink).Alike (.ofInput input' sink) := by
  refine ⟨?_, rfl⟩
  change Console.deliveries input' = Console.deliveries input
  rw [Console.deliveries_of_decode? h, Console.deliveries_of_decode? h', htokens]

-- To read an input line by line is to cut it into tokens as a whole. Requests get what the lines
-- deliver, one after the other, and then the end of the input; for an input that is UTF-8 this is
-- its tokens, whatever stands between them. So nothing in a run tells two inputs with the same
-- tokens apart, and each read gets the token of its place.
theorem input_is_its_tokens :
    (∀ (input : List UInt8) (sink : Sink) (requests : List Console.Request),
      Console.serve (.ofInput input sink) requests =
        (List.range (requests.count .token)).map fun place =>
          (Console.deliveries input)[place]?.getD .endOfInput) ∧
    (∀ (input : List UInt8) (text : List Char), Text.Utf8.decode? input = some text →
      Text.tokens text = (text.splitOnP Text.isBlank).filter (! ·.isEmpty) ∧
      Console.deliveries input =
        (Text.tokens text).map fun token => .token (String.ofList token)) ∧
    (∀ (simulator : Simulator) (sink : Sink) (input input' : List UInt8) (text text' : List Char),
      Text.Utf8.decode? input = some text → Text.Utf8.decode? input' = some text' →
      Text.tokens text = Text.tokens text' →
        let here := { simulator with console := .ofInput input sink }
        let there := { simulator with console := .ofInput input' sink }
        (∀ count, (here.after count).step.Alike (there.after count).step) ∧
        ∀ fuel, Option.Rel Outcome.Alike (here.run? fuel) (there.run? fuel)) ∧
    (∀ (simulator : Simulator) (sink : Sink) (input : List UInt8) (count : Nat) (i : Instruction),
      let fed := { simulator with console := .ofInput input sink }
      (fed.after count).fetch = .ok i → i.operation? = some .read →
        (fed.after count).Receives i
          ((Console.deliveries input)[fed.reads count]?.getD .endOfInput)) := by
  refine ⟨?_, ?_, ?_, ?_⟩
  · intro input sink requests
    exact Console.serve_eq (.ofInput input sink) requests
  · intro input text h
    exact ⟨congrArg _ (Text.splitAtBlanks_eq_splitOnP text), Console.deliveries_of_decode? h⟩
  · intro simulator sink input input' text text' h h' htokens here there
    have halike : here.Alike there := ⟨alike_ofInput sink h h' htokens, rfl⟩
    exact ⟨fun count => alike_step (alike_after halike count), alike_run? halike⟩
  · intro simulator sink input count i fed hf hop
    exact receives_after hf hop

-- A program that reads a number and prints it.
def echoing (input : List UInt8) : Simulator :=
  .ofProgram [.assemble .read 0 0 0, .assemble .print 0 0 0] .default (.ofInput input .unlimited)

theorem echoing_ignores_blanks :
    Console.deliveries [55, 10] = [.token "7"] ∧
    (echoing [55, 10]).Receives (.assemble .read 0 0 0) (.token "7") ∧
    ((echoing [55, 10]).after 2).console.sink.text = "7 (0x7)\n" ∧
    ((echoing [10, 32, 55]).after 2).console.sink.text = "7 (0x7)\n" := by
  obtain ⟨-, hwhole, hsame, hreads⟩ := input_is_its_tokens
  have hdecode : Text.Utf8.decode? [55, 10] = some ['7', '\n'] := rfl
  have hdecode' : Text.Utf8.decode? [10, 32, 55] = some ['\n', ' ', '7'] := rfl
  have htokens : Text.tokens ['7', '\n'] = Text.tokens ['\n', ' ', '7'] := rfl
  have hdeliveries : Console.deliveries [55, 10] = [.token "7"] := (hwhole _ _ hdecode).2
  have hfetch : ((echoing [55, 10]).after 0).fetch = .ok (.assemble .read 0 0 0) := rfl
  have hreceives := hreads (echoing []) .unlimited [55, 10] 0 _ hfetch rfl
  have hprinted : ((echoing [55, 10]).after 2).console.sink.text = "7 (0x7)\n" := by decide +kernel
  have halike := (hsame (echoing []) .unlimited _ _ _ _ hdecode hdecode' htokens).1 1
  refine ⟨hdeliveries, ?_, hprinted, ?_⟩
  · rw [hdeliveries] at hreceives
    exact hreceives
  · rw [← hprinted]
    exact congrArg Sink.text halike.simulator.console.sink

end WordMachine.Simulator
