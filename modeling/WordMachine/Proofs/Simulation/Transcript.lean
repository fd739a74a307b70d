import WordMachine.Proofs.Console.Transcript
import WordMachine.Proofs.Simulation.Input
import WordMachine.Proofs.Simulation.Reading
import WordMachine.Proofs.Tally.Account

namespace WordMachine

namespace Completion

def isPrint (completion : Completion) : Bool :=
  completion.operation? = some .print

-- The word that an instruction has printed, if it was a print.
def printed? (completion : Completion) : Option Int32 :=
  if completion.isPrint then
    (completion.machine.readRegister completion.instruction.first).toOption
  else none

-- All words that some instructions have printed, in this order.
def printed (past : List Completion) : List Int32 :=
  past.filterMap printed?

theorem printed_append (past more : List Completion) :
    printed (past ++ more) = printed past ++ printed more :=
  List.filterMap_append

theorem printed_of_isPrint {completion : Completion} {value : Int32} (h : completion.isPrint = true)
    (hv : completion.machine.readRegister completion.instruction.first = .ok value) :
    printed [completion] = [value] := by
  have hprinted : completion.printed? = some value := by
    rw [printed?, if_pos h, hv]
    rfl
  exact List.filterMap_cons_some hprinted

theorem printed_of_not_isPrint {completion : Completion} (h : ¬ completion.isPrint = true) :
    printed [completion] = [] :=
  List.filterMap_cons_none (if_neg h)

end Completion

namespace Sink

-- A sink that takes everything.
structure Open (sink : Sink) : Prop where
  lineLimit : sink.lineLimit = none
  refusesFlush : sink.refusesFlush = false

-- The sink has taken the records of these words, and will take more.
structure Records (before : Sink) (values : List Int32) (after : Sink) : Prop where
  isOpen : after.Open
  text : after.text = before.text ++ Console.transcript values

theorem records_nil {sink : Sink} (h : sink.Open) : sink.Records [] sink :=
  ⟨h, String.append_empty.symm⟩

theorem records_append {first second third : Sink} {values others : List Int32}
    (h : first.Records values second) (h' : second.Records others third) :
    first.Records (values ++ others) third where
  isOpen := h'.isOpen
  text := by rw [h'.text, h.text, Console.transcript_append, String.append_assoc]

theorem records_writeLine {sink : Sink} (h : sink.Open) (value : Int32) :
    ∃ after, sink.writeLine (Console.printedLine value) = (.ok (), after) ∧
      sink.Records [value] after := by
  obtain ⟨lineEnds, hwrite⟩ :=
    writeLine_of_no_limit h.lineLimit h.refusesFlush (Console.printedLine value)
  refine ⟨_, hwrite, ⟨h.lineLimit, h.refusesFlush⟩, ?_⟩
  rw [Console.transcript_singleton, ← Console.printedLine_eq_record, String.append_assoc]

end Sink

namespace Machine

theorem sink_execute {i : Instruction} (hop : i.operation? ≠ some .print) (machine : Machine)
    (console : Console) : (machine.execute i console).console.sink = console.sink := by
  rw [console_execute]
  cases h : i.operation? with
  | none => rfl
  | some op =>
    have hused := machine.used_converse op i console
    simp only
    generalize (machine.converse op i console).2 = after at hused ⊢
    cases hused with
    | unused => rfl
    | asked => exact console.sink_nextToken
    | told => exact absurd h hop

section Print

variable {i : Instruction} {machine : Machine} {console : Console}
  (hop : i.operation? = some .print)
include hop

theorem execute_print_of_error {fault : Fault} (h : machine.readRegister i.first = .error fault) :
    machine.execute i console = ⟨.error fault, machine, console, []⟩ := by
  rw [execute_eq_transact]
  simp only [transact, hop, converse_print, h]

-- An open sink makes a print of a register that can be read complete.
theorem execute_print_of_ok {value : Int32} (h : machine.readRegister i.first = .ok value)
    (hopen : console.sink.Open) :
    ∃ sink, machine.execute i console =
        ⟨.ok (.goTo machine.nextPc), machine.retire .console, { console with sink }, []⟩ ∧
      console.sink.Records [value] sink := by
  obtain ⟨sink, hwrite, hrecords⟩ := Sink.records_writeLine hopen value
  have hc : machine.converse .print i console = (.ok 0, { console with sink }) := by
    rw [converse_print, h]
    simp only [Console.writeLine, hwrite]
    rfl
  exact ⟨sink, execute_eq_of_effect hop hc rfl, hrecords⟩

end Print

variable {i : Instruction} {machine : Machine} {console : Console}

theorem records_of_execute_error {fault : Fault} (hopen : console.sink.Open)
    (h : (machine.execute i console).result = .error fault) :
    console.sink.Records [] (machine.execute i console).console.sink := by
  by_cases hop : i.operation? = some .print
  · cases hv : machine.readRegister i.first with
    | error cause =>
      rw [execute_print_of_error hop hv]
      exact Sink.records_nil hopen
    | ok value =>
      obtain ⟨sink, hx, -⟩ := execute_print_of_ok hop hv hopen
      rw [hx] at h
      cases h
  · rw [sink_execute hop]
    exact Sink.records_nil hopen

theorem records_of_execute_ok {flow : Flow} (hopen : console.sink.Open)
    (h : (machine.execute i console).result = .ok flow) :
    console.sink.Records (Completion.printed [⟨i, machine⟩])
      (machine.execute i console).console.sink := by
  by_cases hprint : Completion.isPrint ⟨i, machine⟩ = true
  · have hop : i.operation? = some .print := of_decide_eq_true hprint
    cases hv : machine.readRegister i.first with
    | error cause =>
      rw [execute_print_of_error hop hv] at h
      cases h
    | ok value =>
      obtain ⟨sink, hx, hrecords⟩ := execute_print_of_ok hop hv hopen
      rw [Completion.printed_of_isPrint hprint hv, hx]
      exact hrecords
  · have hop : i.operation? ≠ some .print := fun h => hprint (decide_eq_true h)
    rw [Completion.printed_of_not_isPrint hprint, sink_execute hop]
    exact Sink.records_nil hopen

-- A print that is completed has found its register, and so it has printed a word.
theorem length_printed_of_completes {after : Machine} {rest : Console} {flow : Flow}
    (h : machine.Completes i console flow after rest) :
    (Completion.printed [⟨i, machine⟩]).length =
      [(⟨i, machine⟩ : Completion)].countP Completion.isPrint := by
  rw [List.countP_singleton]
  by_cases hprint : Completion.isPrint ⟨i, machine⟩ = true
  · have hop : i.operation? = some .print := of_decide_eq_true hprint
    rw [if_pos hprint]
    cases h with
    | skipped hnone hp => cases hop.symm.trans hnone
    | done op delivered final rest hother hc he =>
      cases hop.symm.trans hother
      rw [converse_print] at hc
      cases hv : machine.readRegister i.first with
      | error cause =>
        rw [hv] at hc
        cases hc
      | ok value => rw [Completion.printed_of_isPrint hprint hv, List.length_singleton]
  · rw [if_neg hprint, Completion.printed_of_not_isPrint hprint, List.length_nil]

end Machine

namespace Simulator

-- A step writes the record of the word that it prints, and nothing else.
theorem records_step {simulator : Simulator} (hopen : simulator.console.sink.Open) :
    simulator.console.sink.Records (Completion.printed simulator.completion?.toList)
      simulator.step.simulator.console.sink := by
  have hsteps := simulator.steps_step
  generalize simulator.step.simulator = after at hsteps ⊢
  generalize simulator.step.result = result at hsteps
  cases hsteps with
  | ended he =>
    rw [completion?_of_isAtEnd he]
    exact Sink.records_nil hopen
  | lost he hf =>
    simp only [completion?, hf]
    exact Sink.records_nil hopen
  | faulted i fault he hf hx =>
    simp only [completion?, hf, hx]
    exact Machine.records_of_execute_error hopen hx
  | halted i he hf hx | moved i pc he hf hx =>
    simp only [completion?, hf, hx]
    exact Machine.records_of_execute_ok hopen hx

theorem records_after {simulator : Simulator} (hopen : simulator.console.sink.Open)
    (count : Nat) :
    simulator.console.sink.Records (Completion.printed (simulator.completions count))
      (simulator.after count).console.sink := by
  induction count with
  | zero => exact Sink.records_nil hopen
  | succ count ih =>
    rw [completions, Completion.printed_append]
    exact Sink.records_append ih (records_step ih.isOpen)

theorem length_printed_of_reaches {start here : Simulator} {past : List Completion}
    (h : start.Reaches past here) :
    (Completion.printed past).length = past.countP Completion.isPrint := by
  apply reaches_induction (motive := fun past _ =>
    (Completion.printed past).length = past.countP Completion.isPrint) h
  · rfl
  · intro past before after i console rest flow pc hpast hcompletes
    rw [Completion.printed_append, List.length_append, hpast, List.countP_append,
      Machine.length_printed_of_completes hcompletes]

-- What a program has written is the transcript of the words that it has printed.
theorem text_of_reaches {program : List Instruction} {configuration : Configuration}
    {input : List UInt8} {here : Simulator} {past : List Completion}
    (h : (ofProgram program configuration (.ofInput input .unlimited)).Reaches past here) :
    here.console.sink.text = Console.transcript (Completion.printed past) := by
  obtain ⟨count, rfl, rfl⟩ := after_of_reaches h
  have hopen : Sink.unlimited.Open := ⟨rfl, rfl⟩
  exact (records_after hopen count).text.trans String.empty_append

-- The output of a program is the record of the words that it has printed: one line for each print
-- that was completed, in order. A console that reads the output delivers two tokens for each line
-- and no more, of which the first is read back as the word, and the second has its value without
-- a sign. So what was printed is all that the output shows, and the output shows all of it.
theorem output_is_a_transcript (program : List Instruction) (configuration : Configuration)
    (input : List UInt8) {past : List Completion} {here : Simulator}
    (h : (ofProgram program configuration (.ofInput input .unlimited)).Reaches past here) :
    let output := here.console.sink.text
    let values := Completion.printed past
    output = String.join (values.map Console.record) ∧
    values.length = past.countP Completion.isPrint ∧
    past.length = here.machine.tally.retired ∧
    (∀ (sink : Sink) (requests : List Console.Request),
      Console.serve (.ofInput output.toUTF8.data.toList sink) requests =
        (List.range (requests.count .token)).map fun place =>
          (values.flatMap Console.recorded)[place]?.getD .endOfInput) ∧
    (∀ (value : Int32) (i : Instruction) (machine : Machine) (console : Console)
      (hi : i.first.toNat < 16), i.operation? = some .read →
        console.nextToken.1 = .token (toString value.toInt) →
          machine.execute i console =
            ⟨.ok (.goTo machine.nextPc), (machine.setRegister i.first value hi).retire .console,
              console.nextToken.2, []⟩) ∧
    (∀ value : Int32, ∃ digits, Console.hexToken value = "(0x" ++ digits ++ ")" ∧
      Text.hexValue digits.toList = (value.toInt % 4294967296).toNat) ∧
    ∀ (program' : List Instruction) (configuration' : Configuration) (input' : List UInt8)
      (past' : List Completion) (here' : Simulator),
      (ofProgram program' configuration' (.ofInput input' .unlimited)).Reaches past' here' →
        (output = here'.console.sink.text ↔ values = Completion.printed past') := by
  intro output values
  have htext : output = Console.transcript values := text_of_reaches h
  refine ⟨htext, length_printed_of_reaches h, ?_, ?_, ?_, ?_, ?_⟩
  · exact (accounts_of_reaches rfl h).retired.symm
  · intro sink requests
    rw [htext, ← Console.deliveries_transcript]
    exact Console.serve_eq (.ofInput (Console.transcript values).toUTF8.data.toList sink) requests
  · intro value i machine console hi hop htoken
    apply Machine.execute_of_integer hop
    rw [htoken, Console.integer_toString]
  · intro value
    refine ⟨_, rfl, ?_⟩
    rw [String.toList_ofList, Text.hexValue_toDigits]
  · intro program' configuration' input' past' here' h'
    rw [htext, text_of_reaches h']
    exact ⟨Console.transcript_inj, congrArg Console.transcript⟩

-- A program that prints the number that it has read.
theorem echoing_is_recorded :
    ∃ past here, (echoing [45, 49]).Reaches past here ∧ Completion.printed past = [-1] ∧
      here.console.sink.text = "-1 (0xffffffff)\n" ∧
      Console.serve (.ofInput here.console.sink.text.toUTF8.data.toList .unlimited)
          [.token, .token, .token] =
        [.token "-1", .token "(0xffffffff)", .endOfInput] := by
  have hreaches := reaches_after (echoing [45, 49]) 2
  obtain ⟨htext, -, -, hserve, -⟩ := output_is_a_transcript _ _ _ hreaches
  have hprinted : Completion.printed ((echoing [45, 49]).completions 2) = [-1] := by
    decide +kernel
  refine ⟨_, _, hreaches, hprinted, ?_, ?_⟩
  · rw [htext, hprinted]
    decide +kernel
  · rw [hserve, hprinted]
    decide +kernel

end Simulator

end WordMachine
